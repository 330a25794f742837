import Quic.Common.Varint

-- STREAM frames on the wire: the header `quic_frame_stream_create` writes and
-- `quic_frame_stream_append` writes again, the fragments behind it, and what
-- `quic_frame_stream_process` reads back.
namespace Quic.Frame

def QUIC_FRAME_STREAM : Nat := 0x08
def QUIC_STREAM_BIT_FIN : Nat := 0x01
def QUIC_STREAM_BIT_LEN : Nat := 0x02
def QUIC_STREAM_BIT_OFF : Nat := 0x04

-- The send side of a STREAM frame: `frame->type`, the header bytes at `frame->data` (a buffer
-- of `alloc` bytes, as `quic_frame_alloc(hlen)` made it), the fragments of `frame->flist`, and
-- the u16 counts `size`, `bytes` and `len`.
structure QuicStreamFrame where
  type : Nat
  data : List UInt8
  alloc : Nat
  flist : List (List UInt8)
  size : Nat
  bytes : Nat
  len : Nat
  nodelay : Bool
  deriving DecidableEq, Repr

-- What `quic_packet_pack_frames` writes for the frame: `frame->data[0, size)`, then each
-- fragment in turn.
def QuicStreamFrame.wire (frame : QuicStreamFrame) : List UInt8 :=
  frame.data.take frame.size ++ frame.flist.flatten

-- The cut both `quic_frame_stream_create` and `quic_frame_stream_append` make: the message
-- length against the flow control credit `wspace` and the `room` the MSS leaves. It gives the
-- length taken, whether that is the whole message, and whether the MSS cut it (nodelay).
def quicFrameStreamTrim (msgLen wspace room : Nat) : Nat × Bool × Bool :=
  if msgLen ≤ wspace then
    if msgLen ≤ room then (msgLen, true, false) else (room, false, true)
  else if room < wspace then (room, false, true) else (wspace, false, false)

-- `quic_frame_stream_create` for stream `id` at send offset `sendBytes`, with the message `msg`
-- and its FIN flag, the credit `wspace` of `quic_outq_wspace` and the `max_frame_len` of
-- `quic_packet_max_payload`; `max_frame_len - hlen` is a u32 difference.
def quicFrameStreamCreate (id sendBytes : Nat) (msg : List UInt8) (fin : Bool)
    (wspace maxFrameLen : Nat) : QuicStreamFrame :=
  let type := QUIC_FRAME_STREAM ||| (if sendBytes ≠ 0 then QUIC_STREAM_BIT_OFF else 0)
  let type := type ||| QUIC_STREAM_BIT_LEN
  -- the length field is reserved for QUIC_MAX_UDP_PAYLOAD, so that data can be appended later
  let hlen := 1 + quicVarLen id + (if sendBytes ≠ 0 then quicVarLen sendBytes else 0) +
    quicVarLen QUIC_MAX_UDP_PAYLOAD
  let r := quicFrameStreamTrim msg.length wspace (toU32 ((maxFrameLen : Int) - hlen))
  let type := type ||| (if fin && r.2.1 then QUIC_STREAM_BIT_FIN else 0)
  let data := quicPutVar type ++ quicPutVar id ++
    (if type &&& QUIC_STREAM_BIT_OFF ≠ 0 then quicPutVar sendBytes else []) ++ quicPutVar r.1
  let size := data.length % 2 ^ 16
  let bytes := r.1 % 2 ^ 16
  { type, data, alloc := hlen, flist := if r.1 = 0 then [] else [msg.take r.1],
    size, bytes, len := (size + bytes) % 2 ^ 16, nodelay := r.2.2 }

-- `quic_frame_stream_append` with `pack` set: the frame's offset is taken back as the stream's
-- send offset less the frame's bytes, the header is sized with `quic_var_len(max_frame_len)`,
-- and it is written again over `frame->data`. It gives the bytes taken and the frame.
def quicFrameStreamAppend (frame : QuicStreamFrame) (id sendBytes : Nat) (msg : List UInt8)
    (fin : Bool) (wspace maxFrameLen : Nat) : Except Int (Nat × QuicStreamFrame) :=
  let offset := toU64 ((sendBytes : Int) - frame.bytes)
  let hlen := 1 + quicVarLen id + (if offset ≠ 0 then quicVarLen offset else 0) +
    quicVarLen maxFrameLen
  if toU32 ((maxFrameLen : Int) - hlen) ≤ frame.bytes then .error (-EMSGSIZE)
  else
    let r := quicFrameStreamTrim msg.length wspace (toU32 ((maxFrameLen : Int) - hlen - frame.bytes))
    let type := frame.type ||| (if fin && r.2.1 then QUIC_STREAM_BIT_FIN else 0)
    let data := quicPutVar type ++ quicPutVar id ++
      (if offset ≠ 0 then quicPutVar offset else []) ++ quicPutVar (frame.bytes + r.1)
    let size := data.length % 2 ^ 16
    let bytes := (frame.bytes + r.1) % 2 ^ 16
    .ok (r.1, { frame with type, data, flist := frame.flist ++ if r.1 = 0 then [] else [msg.take r.1],
                           size, bytes, len := (size + bytes) % 2 ^ 16, nodelay := r.2.2 })

-- What `quic_frame_stream_process` reads of a STREAM frame before it looks the stream up: the
-- stream ID, the offset (0 without the OFF bit), the data, the FIN bit, and the count of bytes
-- it returns for the loop of `quic_frame_process` to skip.
structure QuicStreamFrameRecv where
  streamId : Nat
  offset : Nat
  payload : List UInt8
  fin : Bool
  consumed : Nat
  deriving DecidableEq, Repr

-- The parse of `quic_frame_stream_process` on the `frame->len` bytes after the type byte.
def quicFrameStreamProcess (type : Nat) (buf : List UInt8) : Except Int QuicStreamFrameRecv :=
  match quicGetVar buf with
  | none => .error (-EINVAL)
  | some (streamId, p) =>
    match (if type &&& QUIC_STREAM_BIT_OFF ≠ 0 then quicGetVar p else some (0, p)) with
    | none => .error (-EINVAL)
    | some (offset, p) =>
      let payloadLen : Option (Nat × List UInt8) :=
        if type &&& QUIC_STREAM_BIT_LEN ≠ 0 then
          match quicGetVar p with
          | none => none
          | some (payloadLen, q) => if q.length < payloadLen then none else some (payloadLen, q)
        else some (p.length, p)
      match payloadLen with
      | none => .error (-EINVAL)
      | some (payloadLen, p) =>
        .ok ⟨streamId, offset, p.take payloadLen, type &&& QUIC_STREAM_BIT_FIN ≠ 0,
          buf.length - (p.length - payloadLen)⟩

/-! ## The cut -/

theorem quicFrameStreamTrim_le (msgLen wspace room : Nat) :
    (quicFrameStreamTrim msgLen wspace room).1 ≤ msgLen ∧
      (quicFrameStreamTrim msgLen wspace room).1 ≤ wspace ∧
      (quicFrameStreamTrim msgLen wspace room).1 ≤ room := by
  unfold quicFrameStreamTrim
  split_ifs <;> dsimp only <;> omega

-- The message counts as taken whole exactly when the length taken is its length.
theorem quicFrameStreamTrim_whole (msgLen wspace room : Nat) :
    (quicFrameStreamTrim msgLen wspace room).2.1 =
      decide ((quicFrameStreamTrim msgLen wspace room).1 = msgLen) := by
  unfold quicFrameStreamTrim
  split_ifs <;> simp <;> omega

/-! ## The type byte -/

-- The type of a STREAM frame sent from `offset`: the LEN bit always, OFF for a non-zero offset,
-- and FIN as given.
def quicStreamFrameType (offset : Nat) (fin : Bool) : Nat :=
  QUIC_FRAME_STREAM ||| (if offset ≠ 0 then QUIC_STREAM_BIT_OFF else 0) ||| QUIC_STREAM_BIT_LEN |||
    (if fin then QUIC_STREAM_BIT_FIN else 0)

theorem quicStreamFrameType_bits (offset : Nat) (fin : Bool) :
    QUIC_FRAME_STREAM ≤ quicStreamFrameType offset fin ∧ quicStreamFrameType offset fin < 0x10 ∧
      (quicStreamFrameType offset fin &&& QUIC_STREAM_BIT_OFF ≠ 0 ↔ offset ≠ 0) ∧
      quicStreamFrameType offset fin &&& QUIC_STREAM_BIT_LEN ≠ 0 ∧
      (quicStreamFrameType offset fin &&& QUIC_STREAM_BIT_FIN ≠ 0 ↔ fin = true) := by
  unfold quicStreamFrameType
  by_cases h : offset = 0 <;> cases fin <;> simp [h] <;> decide

-- Setting FIN on a frame sent without it.
theorem quicStreamFrameType_or_fin (offset : Nat) (fin : Bool) :
    quicStreamFrameType offset false ||| (if fin then QUIC_STREAM_BIT_FIN else 0) =
      quicStreamFrameType offset fin := by
  unfold quicStreamFrameType
  by_cases h : offset = 0 <;> cases fin <;> simp [h]

-- A type below 64 takes the one byte `quic_frame_process` reads.
theorem quicPutVar_of_lt {n : Nat} (hn : n < 64) : quicPutVar n = [UInt8.ofNat n] := by
  unfold quicPutVar QUIC_VARINT_1BYTE_MAX
  rw [if_pos (by omega)]

/-! ## The header read back -/

-- A header of stream ID, offset when the OFF bit is set, and length, followed by that many
-- bytes of data and anything after them, reads back as written, and the handler returns the
-- count of bytes up to the end of the data.
theorem quicFrameStreamProcess_header {type id offset : Nat} (payload rest : List UInt8)
    (hlen : type &&& QUIC_STREAM_BIT_LEN ≠ 0) (hid : id < 2 ^ 62) (hoff : offset < 2 ^ 62)
    (hp : payload.length < 2 ^ 62) :
    quicFrameStreamProcess type (quicPutVar id ++
        (if type &&& QUIC_STREAM_BIT_OFF ≠ 0 then quicPutVar offset else []) ++
        quicPutVar payload.length ++ payload ++ rest) =
      .ok ⟨id, if type &&& QUIC_STREAM_BIT_OFF ≠ 0 then offset else 0, payload,
        type &&& QUIC_STREAM_BIT_FIN ≠ 0,
        quicVarLen id + (if type &&& QUIC_STREAM_BIT_OFF ≠ 0 then quicVarLen offset else 0) +
          quicVarLen payload.length + payload.length⟩ := by
  have hmax : ∀ {n : Nat}, n < 2 ^ 62 → n ≤ QUIC_VARINT_8BYTE_MAX := fun h => by
    unfold QUIC_VARINT_8BYTE_MAX
    omega
  have hdata : quicGetVar (quicPutVar payload.length ++ (payload ++ rest)) =
      some (payload.length, payload ++ rest) := quicGetVar_quicPutVar_of_le (hmax hp) _
  unfold quicFrameStreamProcess
  simp only [List.append_assoc]
  rw [quicGetVar_quicPutVar_of_le (hmax hid)]
  by_cases hoffbit : type &&& QUIC_STREAM_BIT_OFF ≠ 0
  · simp only [if_pos hoffbit, quicGetVar_quicPutVar_of_le (hmax hoff), hdata, if_pos hlen]
    simp [quicPutVar_length]
    omega
  · simp only [if_neg hoffbit, List.nil_append, hdata, if_pos hlen]
    simp [quicPutVar_length]
    omega

/-! ## What a frame's bytes say -/

-- The frame's bytes say that it carries its fragments of stream `id` from `offset`, with FIN as
-- given: the header is the one `quic_frame_stream_create` writes for them, `frame->size` is its
-- length, the buffer was allocated with the creation's `hlen`, and the counts agree with the
-- data and fit their u16 fields.
structure QuicStreamFrame.Encodes (frame : QuicStreamFrame) (id offset : Nat) (fin : Bool) :
    Prop where
  type_eq : frame.type = quicStreamFrameType offset fin
  data_eq : frame.data = quicPutVar frame.type ++ quicPutVar id ++
    (if offset ≠ 0 then quicPutVar offset else []) ++ quicPutVar frame.bytes
  size_eq : frame.size = frame.data.length
  alloc_eq : frame.alloc = 1 + quicVarLen id + (if offset ≠ 0 then quicVarLen offset else 0) +
    quicVarLen QUIC_MAX_UDP_PAYLOAD
  bytes_eq : frame.bytes = frame.flist.flatten.length
  len_eq : frame.len = frame.size + frame.bytes
  len_lt : frame.len < 2 ^ 16
  id_lt : id < 2 ^ 62
  offset_lt : offset < 2 ^ 62

namespace QuicStreamFrame.Encodes

variable {frame : QuicStreamFrame} {id offset : Nat} {fin : Bool}

theorem data_length (h : frame.Encodes id offset fin) :
    frame.data.length =
      1 + quicVarLen id + (if offset ≠ 0 then quicVarLen offset else 0) + quicVarLen frame.bytes := by
  have htype := (quicStreamFrameType_bits offset fin).2.1
  rw [h.data_eq, h.type_eq, quicPutVar_of_lt (by omega)]
  split_ifs <;> simp [quicPutVar_length] <;> omega

-- The header written never runs past the buffer allocated for it: the length field holds less
-- than 2^16, which takes no more than the four bytes reserved for QUIC_MAX_UDP_PAYLOAD.
theorem size_le_alloc (h : frame.Encodes id offset fin) : frame.size ≤ frame.alloc := by
  have hbytes : quicVarLen frame.bytes ≤ 4 :=
    quicVarLen_le_of_lt (by simp) (by have := h.len_lt; have := h.len_eq; omega)
  have hreserved : quicVarLen QUIC_MAX_UDP_PAYLOAD = 4 := by decide
  rw [h.size_eq, h.data_length, h.alloc_eq, hreserved]
  omega

-- What `quic_packet_pack_frames` writes for the frame, followed by whatever the packet holds
-- after it, is the type byte and then a STREAM frame that `quic_frame_stream_process` reads as
-- stream `id` at `offset`, with the fragments as data and FIN as given, returning the rest of
-- `frame->len`.
theorem process (h : frame.Encodes id offset fin) (rest : List UInt8) :
    ∃ t, frame.wire = UInt8.ofNat frame.type :: t ∧
      quicFrameStreamProcess frame.type (t ++ rest) =
        .ok ⟨id, offset, frame.flist.flatten, fin, frame.len - 1⟩ := by
  obtain ⟨-, hlt, hoff, hlen, hfin⟩ := quicStreamFrameType_bits offset fin
  rw [← h.type_eq] at hlt hoff hlen hfin
  have hwire : frame.wire = UInt8.ofNat frame.type :: (quicPutVar id ++
      (if frame.type &&& QUIC_STREAM_BIT_OFF ≠ 0 then quicPutVar offset else []) ++
      quicPutVar frame.flist.flatten.length ++ frame.flist.flatten) := by
    unfold QuicStreamFrame.wire
    rw [h.size_eq, List.take_length, h.data_eq, quicPutVar_of_lt (by omega), ← h.bytes_eq]
    simp only [hoff, List.cons_append, List.nil_append, List.append_assoc]
  refine ⟨_, hwire, ?_⟩
  have hpayload : frame.flist.flatten.length < 2 ^ 62 := by
    have := h.len_lt
    have := h.len_eq
    have := h.bytes_eq
    omega
  rw [quicFrameStreamProcess_header _ rest hlen h.id_lt h.offset_lt hpayload]
  have hsize := h.data_length
  rw [← h.size_eq] at hsize
  have hcount := h.len_eq
  rw [h.bytes_eq] at hsize hcount
  by_cases hoff0 : offset = 0
  · simp only [hoff, hoff0, ne_eq, not_true_eq_false, if_false, hfin]
    simp only [hoff0, ne_eq, not_true_eq_false, if_false] at hsize
    congr 2
    · cases fin <;> rfl
    · omega
  · simp only [hoff, hoff0, ne_eq, not_false_eq_true, if_true, hfin]
    simp only [hoff0, ne_eq, not_false_eq_true, if_true] at hsize
    congr 2
    · cases fin <;> rfl
    · omega

end QuicStreamFrame.Encodes

/-! ## `quic_frame_stream_create` and `quic_frame_stream_append` -/

-- `max_frame_len - hlen` as a u32 does not wrap once the bound holds the header.
theorem toU32_sub_of_le {a b : Nat} (h : b ≤ a) (ha : a < 2 ^ 32) :
    toU32 ((a : Int) - b) = a - b := by
  rw [show (a : Int) - b = ((a - b : Nat) : Int) by omega]
  exact toU32_natCast (by omega)

theorem quicVarLen_max_udp_payload : quicVarLen QUIC_MAX_UDP_PAYLOAD = 4 := by decide

-- The header `quic_frame_stream_create` reserves takes at most 21 bytes.
theorem quicFrameStreamCreate_alloc_le (id sendBytes : Nat) :
    1 + quicVarLen id + (if sendBytes ≠ 0 then quicVarLen sendBytes else 0) +
      quicVarLen QUIC_MAX_UDP_PAYLOAD ≤ 21 := by
  have := quicVarLen_le_eight id
  have := quicVarLen_le_eight sendBytes
  rw [quicVarLen_max_udp_payload]
  split_ifs <;> omega

-- The data of the fragments a call attaches: the first `n` bytes of the message.
theorem flatten_fragment (msg : List UInt8) {n : Nat} (hn : n ≤ msg.length) :
    (if n = 0 then [] else [msg.take n]).flatten = msg.take n ∧
      (msg.take n).length = n := by
  refine ⟨?_, List.length_take_of_le hn⟩
  split_ifs with h
  · simp [h]
  · simp

section Create

variable {id sendBytes wspace maxFrameLen : Nat}

-- With a payload bound that holds the longest header and fits the u16 MSS, the frame
-- `quic_frame_stream_create` builds carries the stream, the send offset it was created at, and
-- as many bytes of the message as the credit and the bound let it take; FIN is set exactly when
-- it was asked for and the whole message was taken, and the frame fits the bound.
theorem quicFrameStreamCreate_spec (msg : List UInt8) (fin : Bool) (hid : id < 2 ^ 62)
    (hsb : sendBytes < 2 ^ 62) (hmin : 21 ≤ maxFrameLen) (hmax : maxFrameLen < 2 ^ 16) :
    let frame := quicFrameStreamCreate id sendBytes msg fin wspace maxFrameLen
    frame.Encodes id sendBytes (fin && decide (frame.bytes = msg.length)) ∧
      frame.len ≤ maxFrameLen ∧ frame.bytes ≤ wspace ∧ frame.flist.flatten = msg.take frame.bytes := by
  intro frame
  set hlen := 1 + quicVarLen id + (if sendBytes ≠ 0 then quicVarLen sendBytes else 0) +
    quicVarLen QUIC_MAX_UDP_PAYLOAD with hhlen
  have hlen21 : hlen ≤ 21 := quicFrameStreamCreate_alloc_le id sendBytes
  have hroom : toU32 ((maxFrameLen : Int) - hlen) = maxFrameLen - hlen :=
    toU32_sub_of_le (by omega) (by omega)
  set r := quicFrameStreamTrim msg.length wspace (toU32 ((maxFrameLen : Int) - hlen)) with hr
  obtain ⟨hm, hw, hle⟩ := quicFrameStreamTrim_le msg.length wspace (toU32 ((maxFrameLen : Int) - hlen))
  have hwhole := quicFrameStreamTrim_whole msg.length wspace (toU32 ((maxFrameLen : Int) - hlen))
  rw [← hr] at hm hw hle hwhole
  rw [hroom] at hle
  have hbytes : frame.bytes = r.1 := by
    show r.1 % 2 ^ 16 = r.1
    exact Nat.mod_eq_of_lt (by omega)
  have htype : frame.type = quicStreamFrameType sendBytes (fin && r.2.1) := rfl
  have hoff := (quicStreamFrameType_bits sendBytes (fin && r.2.1)).2.2.1
  have hdata : frame.data = quicPutVar frame.type ++ quicPutVar id ++
      (if sendBytes ≠ 0 then quicPutVar sendBytes else []) ++ quicPutVar frame.bytes := by
    show quicPutVar (quicStreamFrameType sendBytes (fin && r.2.1)) ++ quicPutVar id ++
        (if quicStreamFrameType sendBytes (fin && r.2.1) &&& QUIC_STREAM_BIT_OFF ≠ 0 then
          quicPutVar sendBytes else []) ++ quicPutVar r.1 = _
    rw [hbytes, htype]
    by_cases h0 : sendBytes = 0
    · rw [if_neg (by simpa [h0] using hoff), if_neg (by simpa using h0)]
    · rw [if_pos (hoff.2 h0), if_pos h0]
  -- the header is at most `hlen` long, as the length field takes at most its four bytes
  have hsize : frame.data.length ≤ hlen := by
    have hvar : quicVarLen r.1 ≤ 4 := quicVarLen_le_of_lt (by simp) (by omega)
    have htype_lt := (quicStreamFrameType_bits sendBytes (fin && r.2.1)).2.1
    rw [hdata, htype, quicPutVar_of_lt (by omega), hbytes, quicVarLen_max_udp_payload] at *
    split_ifs at hhlen ⊢ <;> simp [quicPutVar_length] <;> omega
  have hsize' : frame.size = frame.data.length := by
    show frame.data.length % 2 ^ 16 = frame.data.length
    exact Nat.mod_eq_of_lt (by omega)
  have hlen' : frame.len = frame.size + frame.bytes := by
    show (frame.size + frame.bytes) % 2 ^ 16 = frame.size + frame.bytes
    exact Nat.mod_eq_of_lt (by omega)
  obtain ⟨hflat, htake⟩ := flatten_fragment msg hm
  have hflist : frame.flist.flatten = msg.take frame.bytes := by
    rw [hbytes]
    exact hflat
  have hfin : (fin && r.2.1) = (fin && decide (frame.bytes = msg.length)) := by
    rw [hwhole, hbytes]
  refine ⟨⟨hfin ▸ htype, hdata, hsize', rfl, ?_, hlen', by omega, hid, hsb⟩, by omega,
    hbytes ▸ hw, hflist⟩
  rw [hflist, hbytes, htake]

-- Below the header's own length the room `max_frame_len - hlen` is negative, and its cast to
-- u32 lets the whole message in: a bound of 5 gives a frame of 13 bytes.
theorem quicFrameStreamCreate_small_bound_overflows :
    (quicFrameStreamCreate 0 0 (List.replicate 10 0) true 10 5).len = 13 ∧
      5 < (quicFrameStreamCreate 0 0 (List.replicate 10 0) true 10 5).len := by
  decide

-- Whatever the bound, a new frame takes no more than the credit.
theorem quicFrameStreamCreate_bytes_le (id sendBytes : Nat) (msg : List UInt8) (fin : Bool)
    (wspace maxFrameLen : Nat) :
    (quicFrameStreamCreate id sendBytes msg fin wspace maxFrameLen).bytes ≤ wspace := by
  unfold quicFrameStreamCreate
  exact (Nat.mod_le _ _).trans (quicFrameStreamTrim_le _ _ _).2.1

end Create

section Append

variable {frame : QuicStreamFrame} {id offset wspace maxFrameLen : Nat}

-- On a frame that carries its bytes from `offset` without FIN, with the stream's send offset
-- at the frame's end (the frame is the stream's latest), `quic_frame_stream_append` either
-- finds no room left, or takes as many bytes of the message as the credit and the bound let it.
-- The header written again says the same stream and offset and the new length, within the
-- buffer allocated at creation; FIN is set exactly when it was asked for and the whole message
-- was taken, and the frame fits the bound.
theorem quicFrameStreamAppend_spec (h : frame.Encodes id offset false) (msg : List UInt8)
    (fin : Bool) (hmin : 21 ≤ maxFrameLen) (hmax : maxFrameLen < 2 ^ 16) :
    quicFrameStreamAppend frame id (offset + frame.bytes) msg fin wspace maxFrameLen =
        .error (-EMSGSIZE) ∨
      ∃ k frame', quicFrameStreamAppend frame id (offset + frame.bytes) msg fin wspace maxFrameLen =
          .ok (k, frame') ∧
        frame'.Encodes id offset (fin && decide (k = msg.length)) ∧ frame'.len ≤ maxFrameLen ∧
        k ≤ wspace ∧ frame'.bytes = frame.bytes + k ∧ frame'.alloc = frame.alloc ∧
        frame'.flist.flatten = frame.flist.flatten ++ msg.take k := by
  have hoffset : toU64 (((offset + frame.bytes : Nat) : Int) - frame.bytes) = offset := by
    rw [toU64_of_nonneg (by omega) (by have := h.offset_lt; omega)]
    omega
  set hlen := 1 + quicVarLen id + (if offset ≠ 0 then quicVarLen offset else 0) +
    quicVarLen maxFrameLen with hhlen
  have hvar : quicVarLen maxFrameLen ≤ 4 := quicVarLen_le_of_lt (by simp) (by omega)
  have hlen21 : hlen ≤ 21 := by
    have := quicVarLen_le_eight id
    have := quicVarLen_le_eight offset
    split_ifs at hhlen <;> omega
  have hroom : toU32 ((maxFrameLen : Int) - hlen) = maxFrameLen - hlen :=
    toU32_sub_of_le (by omega) (by omega)
  unfold quicFrameStreamAppend
  dsimp only
  rw [hoffset, ← hhlen, hroom]
  by_cases hfull : maxFrameLen - hlen ≤ frame.bytes
  · exact .inl (if_pos hfull)
  right
  rw [if_neg hfull]
  have hroom' : toU32 ((maxFrameLen : Int) - hlen - frame.bytes) =
      maxFrameLen - hlen - frame.bytes := by
    rw [show (maxFrameLen : Int) - hlen - frame.bytes = ((maxFrameLen : Nat) : Int) -
      ((hlen + frame.bytes : Nat) : Int) by omega, toU32_sub_of_le (by omega) (by omega)]
    omega
  rw [hroom']
  set r := quicFrameStreamTrim msg.length wspace (maxFrameLen - hlen - frame.bytes) with hr
  obtain ⟨hm, hw, hle⟩ := quicFrameStreamTrim_le msg.length wspace (maxFrameLen - hlen - frame.bytes)
  have hwhole := quicFrameStreamTrim_whole msg.length wspace (maxFrameLen - hlen - frame.bytes)
  rw [← hr] at hm hw hle hwhole
  refine ⟨r.1, _, rfl, ?_⟩
  set frame' : QuicStreamFrame := { frame with
    type := frame.type ||| (if fin && r.2.1 then QUIC_STREAM_BIT_FIN else 0),
    data := quicPutVar (frame.type ||| (if fin && r.2.1 then QUIC_STREAM_BIT_FIN else 0)) ++
      quicPutVar id ++ (if offset ≠ 0 then quicPutVar offset else []) ++
      quicPutVar (frame.bytes + r.1),
    flist := frame.flist ++ if r.1 = 0 then [] else [msg.take r.1],
    size := (quicPutVar (frame.type ||| (if fin && r.2.1 then QUIC_STREAM_BIT_FIN else 0)) ++
      quicPutVar id ++ (if offset ≠ 0 then quicPutVar offset else []) ++
      quicPutVar (frame.bytes + r.1)).length % 2 ^ 16,
    bytes := (frame.bytes + r.1) % 2 ^ 16,
    len := ((quicPutVar (frame.type ||| (if fin && r.2.1 then QUIC_STREAM_BIT_FIN else 0)) ++
      quicPutVar id ++ (if offset ≠ 0 then quicPutVar offset else []) ++
      quicPutVar (frame.bytes + r.1)).length % 2 ^ 16 + (frame.bytes + r.1) % 2 ^ 16) % 2 ^ 16,
    nodelay := r.2.2 } with hframe'
  have hbytes : frame'.bytes = frame.bytes + r.1 := Nat.mod_eq_of_lt (by omega)
  have htype : frame'.type = quicStreamFrameType offset (fin && decide (r.1 = msg.length)) := by
    show frame.type ||| _ = _
    rw [h.type_eq, quicStreamFrameType_or_fin, hwhole]
  have hdata : frame'.data = quicPutVar frame'.type ++ quicPutVar id ++
      (if offset ≠ 0 then quicPutVar offset else []) ++ quicPutVar frame'.bytes := by
    rw [hbytes]
  -- the length field written now takes no more than the one `hlen` was sized with
  have hsize : frame'.data.length ≤ hlen := by
    have hmono := quicVarLen_mono (show frame.bytes + r.1 ≤ maxFrameLen by omega)
    have htype_lt := (quicStreamFrameType_bits offset (fin && decide (r.1 = msg.length))).2.1
    rw [hdata, htype, quicPutVar_of_lt (by omega), hbytes]
    split_ifs at hhlen ⊢ <;> simp [quicPutVar_length] <;> omega
  have hsize' : frame'.size = frame'.data.length := by
    show frame'.data.length % 2 ^ 16 = frame'.data.length
    exact Nat.mod_eq_of_lt (by omega)
  have hlen' : frame'.len = frame'.size + frame'.bytes := by
    show (frame'.size + frame'.bytes) % 2 ^ 16 = frame'.size + frame'.bytes
    exact Nat.mod_eq_of_lt (by omega)
  obtain ⟨hflat, htake⟩ := flatten_fragment msg hm
  have hflist : frame'.flist.flatten = frame.flist.flatten ++ msg.take r.1 := by
    show (frame.flist ++ _).flatten = _
    rw [List.flatten_append, hflat]
  refine ⟨⟨htype, hdata, hsize', h.alloc_eq, ?_, hlen', by omega, h.id_lt, h.offset_lt⟩,
    by omega, hw, hbytes, rfl, hflist⟩
  rw [hflist, List.length_append, htake, ← h.bytes_eq, hbytes]

-- Whatever the frame, an append takes no more than the credit.
theorem quicFrameStreamAppend_taken_le {frame' : QuicStreamFrame} {sendBytes k : Nat}
    {msg : List UInt8} {fin : Bool}
    (h : quicFrameStreamAppend frame id sendBytes msg fin wspace maxFrameLen = .ok (k, frame')) :
    k ≤ wspace := by
  unfold quicFrameStreamAppend at h
  dsimp only at h
  -- the ifs of the header split too; in each branch the length taken is the cut's
  split_ifs at h <;>
  · obtain ⟨rfl, -⟩ := Prod.mk.inj (Except.ok.inj h)
    exact (quicFrameStreamTrim_le _ _ _).2.1

end Append

end Quic.Frame
