import Quic.Outqueue.FrameBytes
import Quic.Frame.TransportParam

-- Flow control of the send side. `outq->bytes` counts what the streams have queued against the
-- connection's `max_bytes`, and each stream's `send.bytes` counts against its `send.max_bytes`;
-- `quic_outq_wspace` turns both into the credit that `quic_frame_stream_create` and
-- `quic_frame_stream_append` cut a message to. MAX_DATA and MAX_STREAM_DATA frames raise the
-- limits, the peer's transport parameters set the connection's, and `quic_outq_flow_control`
-- announces a blocked sender with DATA_BLOCKED and STREAM_DATA_BLOCKED frames.
namespace Quic.StreamFrames

-- `quic_outq_wspace`: the connection's credit as a u64 difference, and for a stream the smallest
-- of it, the socket's write space (an int, taken as a u64) and the stream's credit.
def quicOutqWspace (bytes maxBytes : Nat) (stream : Option (Nat × Nat)) (skWspace : Int) : Nat :=
  let len := toU64 ((maxBytes : Int) - bytes)
  match stream with
  | none => len
  | some (sendBytes, sendMaxBytes) =>
    min (min len (toU64 skWspace)) (toU64 ((sendMaxBytes : Int) - sendBytes))

-- The outqueue's STREAM frames with the counts and limits of flow control.
structure QuicOutqCredit where
  wire : QuicOutqWire
  bytes : Nat
  maxBytes : Nat
  maxData : Nat
  lastMaxBytes : Nat
  dataBlocked : Bool
  sendMaxBytes : Int → Nat
  sendLastMaxBytes : Int → Nat
  sendDataBlocked : Int → Bool
  -- history variables, no fields of the source: the limit each DATA_BLOCKED frame queued
  -- announces, and the stream and limit of each STREAM_DATA_BLOCKED frame
  blockedSent : List Nat
  streamBlockedSent : List (Int × Nat)

-- `quic_outq_wspace(sk, stream)` for stream `S`.
def QuicOutqCredit.wspace (s : QuicOutqCredit) (S : Int) (skWspace : Int) : Nat :=
  quicOutqWspace s.bytes s.maxBytes (some (s.wire.frames.sendBytes S, s.sendMaxBytes S)) skWspace

-- The stream half of `quic_outq_flow_control`: a stream blocked at a limit it has not announced
-- yet records the limit and is marked blocked; the frame that announces it is queued when
-- `queued` says so.
def quicOutqFlowControlStream (s : QuicOutqCredit) (S : Int) (bytes : Nat) (queued : Bool) :
    QuicOutqCredit :=
  if s.sendMaxBytes S < s.wire.frames.sendBytes S + bytes ∧ s.sendDataBlocked S = false ∧
      s.sendLastMaxBytes S < s.sendMaxBytes S then
    { s with
      streamBlockedSent :=
        if queued then s.streamBlockedSent ++ [(S, s.sendMaxBytes S)] else s.streamBlockedSent
      sendLastMaxBytes := Function.update s.sendLastMaxBytes S (s.sendMaxBytes S)
      sendDataBlocked := Function.update s.sendDataBlocked S true }
  else s

-- The connection half, the same with `outq`'s fields.
def quicOutqFlowControlConn (s : QuicOutqCredit) (bytes : Nat) (queued : Bool) : QuicOutqCredit :=
  if s.maxBytes < s.bytes + bytes ∧ s.dataBlocked = false ∧ s.lastMaxBytes < s.maxBytes then
    { s with
      blockedSent := if queued then s.blockedSent ++ [s.maxBytes] else s.blockedSent
      lastMaxBytes := s.maxBytes
      dataBlocked := true }
  else s

-- `quic_outq_flow_control`: whether `bytes` more would pass the stream's or the connection's
-- limit, and the state after both halves. A blocked frame is queued when `sndblock` is set and
-- `quic_outq_transmit_frame` succeeds (`transmitted`).
def quicOutqFlowControl (s : QuicOutqCredit) (S : Int) (bytes : Nat) (sndblock transmitted : Bool) :
    Bool × QuicOutqCredit :=
  let queued := sndblock && transmitted
  (decide (s.sendMaxBytes S < s.wire.frames.sendBytes S + bytes) ||
      decide (s.maxBytes < s.bytes + bytes),
    quicOutqFlowControlConn (quicOutqFlowControlStream s S bytes queued) bytes queued)

-- `quic_outq_stream_tail` of the frame `quic_frame_stream_create` builds with the stream's
-- credit: the stream's and the connection's counts go up by the frame's bytes.
def QuicOutqCredit.streamTail (s : QuicOutqCredit) (S : Int) (msg : List UInt8) (fin : Bool)
    (skWspace : Int) (maxFrameLen : Nat) : QuicOutqCredit :=
  let wspace := s.wspace S skWspace
  let frame := Frame.quicFrameStreamCreate S.toNat (s.wire.frames.sendBytes S) msg fin wspace
    maxFrameLen
  { s with wire := (QuicWireCall.tail S msg fin wspace maxFrameLen).apply s.wire,
           bytes := s.bytes + frame.bytes }

-- `quic_outq_stream_append`: on the last frame of `stream_list`, if it is of this stream, the end
-- of a sendmsg and never sent, `quic_frame_stream_append` takes what the credit allows, and both
-- counts go up by it.
def QuicOutqCredit.streamAppend (s : QuicOutqCredit) (S : Int) (msg : List UInt8) (fin : Bool)
    (skWspace : Int) (maxFrameLen : Nat) : QuicOutqCredit :=
  let wspace := s.wspace S skWspace
  match s.wire.frames.streamList.getLast? with
  | none => s
  | some F =>
    if F.stream = S ∧ F.nodelay = false ∧ F.number < 0 then
      match Frame.quicFrameStreamAppend (s.wire.buf F.id) S.toNat (s.wire.frames.sendBytes S) msg
          fin wspace maxFrameLen with
      | .error _ => s
      | .ok (k, _) =>
        { s with wire := (QuicWireCall.append S msg fin wspace maxFrameLen).apply s.wire,
                 bytes := s.bytes + k }
    else s

-- `quic_frame_max_data_process`: the connection's limit only goes up. It gives the state and
-- the bytes the frame took.
def quicFrameMaxDataProcess (s : QuicOutqCredit) (buf : List UInt8) :
    Except Int (QuicOutqCredit × Nat) :=
  match quicGetVar buf with
  | none => .error (-EINVAL)
  | some (maxBytes, rest) =>
    .ok (if maxBytes > s.maxBytes then { s with maxBytes := maxBytes } else s,
      buf.length - rest.length)

-- `quic_frame_max_stream_data_process`: a stream's limit only goes up.
def quicFrameMaxStreamDataProcess (s : QuicOutqCredit) (buf : List UInt8) :
    Except Int (QuicOutqCredit × Nat) :=
  match quicGetVar buf with
  | none => .error (-EINVAL)
  | some (streamId, rest) =>
    match quicGetVar rest with
    | none => .error (-EINVAL)
    | some (maxBytes, rest) =>
      let S : Int := streamId
      .ok (if maxBytes > s.sendMaxBytes S then
          { s with sendMaxBytes := Function.update s.sendMaxBytes S maxBytes }
        else s, buf.length - rest.length)

-- `quic_outq_set_param` for the peer's parameters: `max_bytes` becomes `max_data`, whatever it
-- was.
def quicOutqSetParam (s : QuicOutqCredit) (p : QuicTransportParam) : QuicOutqCredit :=
  if p.remote then { s with maxData := p.maxData, maxBytes := p.maxData } else s

-- `quic_frame_data_blocked_ack` and `quic_frame_stream_data_blocked_ack`.
def quicFrameDataBlockedAck (s : QuicOutqCredit) : QuicOutqCredit :=
  { s with dataBlocked := false }

def quicFrameStreamDataBlockedAck (s : QuicOutqCredit) (S : Int) : QuicOutqCredit :=
  { s with sendDataBlocked := Function.update s.sendDataBlocked S false }

/-! ## Runs -/

-- What the send side does: a flow control check of sendmsg that finds the stream or the
-- connection blocked, a sendmsg that queues a new frame or appends to the last one, MAX_DATA and
-- MAX_STREAM_DATA frames, the peer's parameters, the acknowledgement of a blocked frame, and the
-- sending, acknowledgement and loss of packets.
inductive QuicCreditCall where
  | flowControl (stream : Int) (len : Nat) (sndblock transmitted : Bool)
  | tail (stream : Int) (len : Nat) (msg : List UInt8) (fin : Bool) (skWspace : Int)
      (maxFrameLen : Nat)
  | append (stream : Int) (len : Nat) (msg : List UInt8) (fin : Bool) (skWspace : Int)
      (maxFrameLen : Nat)
  | maxData (buf : List UInt8)
  | maxStreamData (buf : List UInt8)
  | setParam (p : QuicTransportParam)
  | dataBlockedAck
  | streamDataBlockedAck (stream : Int)
  | other (call : QuicFrameCall)

def QuicCreditCall.apply (s : QuicOutqCredit) : QuicCreditCall → QuicOutqCredit
  | .flowControl S len sndblock transmitted => (quicOutqFlowControl s S len sndblock transmitted).2
  | .tail S _ msg fin skWspace maxFrameLen => s.streamTail S msg fin skWspace maxFrameLen
  | .append S _ msg fin skWspace maxFrameLen => s.streamAppend S msg fin skWspace maxFrameLen
  | .maxData buf =>
    match quicFrameMaxDataProcess s buf with
    | .ok (t, _) => t
    | .error _ => s
  | .maxStreamData buf =>
    match quicFrameMaxStreamDataProcess s buf with
    | .ok (t, _) => t
    | .error _ => s
  | .setParam p => quicOutqSetParam s p
  | .dataBlockedAck => quicFrameDataBlockedAck s
  | .streamDataBlockedAck S => quicFrameStreamDataBlockedAck s S
  | .other call => { s with wire := (QuicWireCall.other call).apply s.wire }

-- A sendmsg reaches the frame once `quic_sock_stream_writable` found `len` bytes within both
-- limits, on a stream not yet Sent whose ID is a varint, with a payload bound that holds the
-- longest header and fits the u16 MSS. The peer's `max_data` is a u64 that never lowers the
-- connection's limit.
def QuicCreditCall.allowed (s : QuicOutqCredit) : QuicCreditCall → Bool
  | .tail S len _ _ _ maxFrameLen | .append S len _ _ _ maxFrameLen =>
    !(quicOutqFlowControl s S len false false).1 &&
      decide (s.wire.frames.sendState S < QUIC_STREAM_SEND_STATE_SENT ∧ 0 ≤ S ∧ S < 2 ^ 62 ∧
        21 ≤ maxFrameLen ∧ maxFrameLen < 2 ^ 16)
  | .setParam p => decide (p.maxData < 2 ^ 64 ∧ (p.remote = true → s.maxBytes ≤ p.maxData))
  | .other (.tail ..) | .other (.append ..) => false
  | .other call => call.allowed s.wire.frames
  | _ => true

def CreditStep (s t : QuicOutqCredit) : Prop :=
  ∃ call : QuicCreditCall, call.allowed s ∧ t = call.apply s

-- Nothing queued, no limit from the peer yet, and the streams with the limits `quic_stream_create`
-- gave them.
def quicOutqCreditInit (sendMaxBytes : Int → Nat) : QuicOutqCredit :=
  ⟨quicOutqWireInit, 0, 0, 0, 0, false, sendMaxBytes, fun _ => 0, fun _ => false, [], []⟩

-- The peer's stream limits are varints.
def CreditInit (s : QuicOutqCredit) : Prop :=
  ∃ sendMaxBytes : Int → Nat, (∀ S, sendMaxBytes S < 2 ^ 62) ∧ s = quicOutqCreditInit sendMaxBytes

theorem creditStep_of_allowed (s : QuicOutqCredit) (call : QuicCreditCall)
    (h : call.allowed s = true) : CreditStep s (call.apply s) :=
  ⟨call, h, rfl⟩

/-! ## What each call does to the counts and limits -/

-- Raising `f` at one point by `x` raises its sum over any set by at most `x`.
theorem sum_update_add_le {ι : Type*} [DecidableEq ι] (T : Finset ι) (f : ι → Nat) (i : ι)
    (x : Nat) : ∑ j ∈ T, Function.update f i (f i + x) j ≤ ∑ j ∈ T, f j + x := by
  by_cases hi : i ∈ T
  · rw [Finset.sum_update_of_mem hi, Finset.sum_eq_add_sum_sdiff_singleton_of_mem hi f]
    omega
  · rw [Finset.sum_update_of_notMem hi]
    omega

-- Within both limits, the credit is at most what is left of each.
theorem QuicOutqCredit.wspace_le {s : QuicOutqCredit} {S : Int} (skWspace : Int)
    (hb : s.bytes ≤ s.maxBytes) (hmax : s.maxBytes < 2 ^ 64)
    (hs : s.wire.frames.sendBytes S ≤ s.sendMaxBytes S) (hsmax : s.sendMaxBytes S < 2 ^ 64) :
    s.wspace S skWspace ≤ s.maxBytes - s.bytes ∧
      s.wspace S skWspace ≤ s.sendMaxBytes S - s.wire.frames.sendBytes S := by
  unfold QuicOutqCredit.wspace quicOutqWspace
  dsimp only
  rw [toU64_sub_of_le hb hmax, toU64_sub_of_le hs hsmax]
  exact ⟨(min_le_left _ _).trans (min_le_left _ _), min_le_right _ _⟩

-- The flow control check moves only the blocked flags, the last limits and the frames it
-- announces.
theorem quicOutqFlowControl_fields (s : QuicOutqCredit) (S : Int) (bytes : Nat)
    (sndblock transmitted : Bool) :
    let t := (quicOutqFlowControl s S bytes sndblock transmitted).2
    t.wire = s.wire ∧ t.bytes = s.bytes ∧ t.maxBytes = s.maxBytes ∧
      t.sendMaxBytes = s.sendMaxBytes := by
  have hstream : ∀ q, let t := quicOutqFlowControlStream s S bytes q
      t.wire = s.wire ∧ t.bytes = s.bytes ∧ t.maxBytes = s.maxBytes ∧
        t.sendMaxBytes = s.sendMaxBytes := by
    intro q
    unfold quicOutqFlowControlStream
    split_ifs <;> exact ⟨rfl, rfl, rfl, rfl⟩
  have hconn : ∀ (u : QuicOutqCredit) q, let t := quicOutqFlowControlConn u bytes q
      t.wire = u.wire ∧ t.bytes = u.bytes ∧ t.maxBytes = u.maxBytes ∧
        t.sendMaxBytes = u.sendMaxBytes := by
    intro u q
    unfold quicOutqFlowControlConn
    split_ifs <;> exact ⟨rfl, rfl, rfl, rfl⟩
  obtain ⟨h1, h2, h3, h4⟩ := hstream (sndblock && transmitted)
  obtain ⟨h5, h6, h7, h8⟩ := hconn (quicOutqFlowControlStream s S bytes (sndblock && transmitted))
    (sndblock && transmitted)
  exact ⟨h5.trans h1, h6.trans h2, h7.trans h3, h8.trans h4⟩

theorem QuicWireCall.tail_sendBytes (w : QuicOutqWire) (S : Int) (msg : List UInt8) (fin : Bool)
    (wspace maxFrameLen : Nat) :
    ((QuicWireCall.tail S msg fin wspace maxFrameLen).apply w).frames.sendBytes =
      Function.update w.frames.sendBytes S (w.frames.sendBytes S +
        (Frame.quicFrameStreamCreate S.toNat (w.frames.sendBytes S) msg fin wspace
          maxFrameLen).bytes) :=
  rfl

theorem QuicWireCall.append_sendBytes {w : QuicOutqWire} {S : Int} {msg : List UInt8}
    {fin : Bool} {wspace maxFrameLen k : Nat} {F : QuicFrame} {frame : Frame.QuicStreamFrame}
    (hlast : w.frames.streamList.getLast? = some F)
    (hcheck : F.stream = S ∧ F.nodelay = false ∧ F.number < 0)
    (hk : Frame.quicFrameStreamAppend (w.buf F.id) S.toNat (w.frames.sendBytes S) msg fin wspace
      maxFrameLen = .ok (k, frame)) :
    ((QuicWireCall.append S msg fin wspace maxFrameLen).apply w).frames.sendBytes =
      Function.update w.frames.sendBytes S (w.frames.sendBytes S + k) := by
  have hrefuse : ¬ (F.stream ≠ S ∨ F.nodelay = true ∨ 0 ≤ F.number) := by
    obtain ⟨h1, h2, h3⟩ := hcheck
    simp only [h1, h2, not_or, not_le]
    exact ⟨fun h => h rfl, Bool.false_ne_true, h3⟩
  simp only [QuicWireCall.apply, hlast, if_pos hcheck, hk, quicOutqStreamAppend, if_neg hrefuse]

-- The packets sent, acknowledged or lost leave every stream's send offset.
theorem foldl_sendBytes {step : QuicOutqFrames → QuicFrame → QuicOutqFrames}
    (hstep : ∀ s g, (step s g).sendBytes = s.sendBytes) (l : List QuicFrame) (s : QuicOutqFrames) :
    (l.foldl step s).sendBytes = s.sendBytes := by
  induction l generalizing s with
  | nil => rfl
  | cons g l ih => rw [List.foldl_cons, ih, hstep]

theorem QuicFrameCall.sendBytes_apply {w : QuicOutqWire} {call : QuicFrameCall}
    (h : (QuicWireCall.other call).allowed w = true) :
    (call.apply w.frames).sendBytes = w.frames.sendBytes := by
  cases call with
  | tail => cases h
  | append => cases h
  | transmitStream n => rfl
  | transmitOld ids => rfl
  | sack i =>
    exact foldl_sendBytes (fun s g => (quicOutqPsentSackFrame_fields s g).1) _ _
  | lost i =>
    exact foldl_sendBytes (fun s g => (quicOutqPsentRetransmitFrame_fields s g).1) _ _

-- What a MAX_DATA frame can do: nothing, or raise the connection's limit to a varint.
theorem quicFrameMaxDataProcess_cases (s : QuicOutqCredit) (buf : List UInt8) :
    (QuicCreditCall.maxData buf).apply s = s ∨
      ∃ v, s.maxBytes < v ∧ v < 2 ^ 62 ∧
        (QuicCreditCall.maxData buf).apply s = { s with maxBytes := v } := by
  simp only [QuicCreditCall.apply]
  cases hget : quicGetVar buf with
  | none => simp [quicFrameMaxDataProcess, hget]
  | some r =>
    obtain ⟨v, rest⟩ := r
    simp only [quicFrameMaxDataProcess, hget]
    split_ifs with hgt
    · exact .inr ⟨v, hgt, quicGetVar_lt hget, rfl⟩
    · exact .inl rfl

-- What a MAX_STREAM_DATA frame can do: nothing, or raise one stream's limit to a varint.
theorem quicFrameMaxStreamDataProcess_cases (s : QuicOutqCredit) (buf : List UInt8) :
    (QuicCreditCall.maxStreamData buf).apply s = s ∨
      ∃ S v, s.sendMaxBytes S < v ∧ v < 2 ^ 62 ∧
        (QuicCreditCall.maxStreamData buf).apply s =
          { s with sendMaxBytes := Function.update s.sendMaxBytes S v } := by
  simp only [QuicCreditCall.apply]
  cases hget : quicGetVar buf with
  | none => simp [quicFrameMaxStreamDataProcess, hget]
  | some r =>
    obtain ⟨streamId, rest⟩ := r
    cases hget' : quicGetVar rest with
    | none => simp [quicFrameMaxStreamDataProcess, hget, hget']
    | some r' =>
      obtain ⟨v, rest'⟩ := r'
      simp only [quicFrameMaxStreamDataProcess, hget, hget']
      split_ifs with hgt
      · exact .inr ⟨streamId, v, hgt, quicGetVar_lt hget', rfl⟩
      · exact .inl rfl

/-! ## The invariant -/

-- Both counts stay within their limits, every limit stays a u64 (a stream's a varint), and the
-- send offsets of any set of streams add up to no more than `outq->bytes`.
structure CreditInv (s : QuicOutqCredit) : Prop where
  wire : WireInv s.wire
  bytes_le : s.bytes ≤ s.maxBytes
  maxBytes_lt : s.maxBytes < 2 ^ 64
  sendBytes_le : ∀ S, s.wire.frames.sendBytes S ≤ s.sendMaxBytes S
  sendMaxBytes_lt : ∀ S, s.sendMaxBytes S < 2 ^ 62
  sum_le : ∀ T : Finset Int, ∑ S ∈ T, s.wire.frames.sendBytes S ≤ s.bytes

theorem creditInv_init (sendMaxBytes : Int → Nat) (h : ∀ S, sendMaxBytes S < 2 ^ 62) :
    CreditInv (quicOutqCreditInit sendMaxBytes) where
  wire := wireInv_reachable (Reachable.of_init rfl)
  bytes_le := le_rfl
  maxBytes_lt := Nat.two_pow_pos 64
  sendBytes_le _ := Nat.zero_le _
  sendMaxBytes_lt := h
  sum_le _ := by simp [quicOutqCreditInit, quicOutqWireInit, quicOutqFramesInit]

-- Queueing `x` bytes of stream `S` within both credits keeps the invariant.
theorem CreditInv.queue {s : QuicOutqCredit} (hs : CreditInv s) {w : QuicOutqWire}
    (hw : WireInv w) {S : Int} {x : Nat} (hx : x ≤ s.maxBytes - s.bytes)
    (hxs : x ≤ s.sendMaxBytes S - s.wire.frames.sendBytes S)
    (hsb : w.frames.sendBytes =
      Function.update s.wire.frames.sendBytes S (s.wire.frames.sendBytes S + x)) :
    CreditInv { s with wire := w, bytes := s.bytes + x } where
  wire := hw
  bytes_le := by
    have := hs.bytes_le
    dsimp only
    omega
  maxBytes_lt := hs.maxBytes_lt
  sendBytes_le S' := by
    dsimp only
    rw [hsb, Function.update_apply]
    split_ifs with hS
    · subst hS
      have := hs.sendBytes_le S'
      omega
    · exact hs.sendBytes_le S'
  sendMaxBytes_lt := hs.sendMaxBytes_lt
  sum_le T := by
    have hsum := sum_update_add_le T s.wire.frames.sendBytes S x
    have := hs.sum_le T
    dsimp only
    rw [hsb]
    omega

-- A sendmsg finds the flow control credit exact, so the frame's wire step is one the frame model
-- allows.
theorem CreditInv.wireSendOk {s : QuicOutqCredit} (hs : CreditInv s) {S : Int}
    {maxFrameLen : Nat} (skWspace : Int)
    (hok : s.wire.frames.sendState S < QUIC_STREAM_SEND_STATE_SENT ∧ 0 ≤ S ∧ S < 2 ^ 62 ∧
      21 ≤ maxFrameLen ∧ maxFrameLen < 2 ^ 16) :
    WireSendOk s.wire.frames S (s.wspace S skWspace) maxFrameLen := by
  have hsmax := hs.sendMaxBytes_lt S
  have hw := (QuicOutqCredit.wspace_le skWspace hs.bytes_le hs.maxBytes_lt (hs.sendBytes_le S)
    (by omega)).2
  have hsb := hs.sendBytes_le S
  obtain ⟨h1, h2, h3, h4, h5⟩ := hok
  exact ⟨h1, h2, h3, by omega, h4, h5⟩

theorem creditInv_tail {s : QuicOutqCredit} (hs : CreditInv s) {S : Int} {len : Nat}
    {msg : List UInt8} {fin : Bool} {skWspace : Int} {maxFrameLen : Nat}
    (h : (QuicCreditCall.tail S len msg fin skWspace maxFrameLen).allowed s = true) :
    CreditInv (s.streamTail S msg fin skWspace maxFrameLen) := by
  simp only [QuicCreditCall.allowed, Bool.and_eq_true, decide_eq_true_eq] at h
  have hsend := hs.wireSendOk skWspace h.2
  have hw := QuicOutqCredit.wspace_le skWspace hs.bytes_le hs.maxBytes_lt (hs.sendBytes_le S)
    (by have := hs.sendMaxBytes_lt S; omega)
  have hx := Frame.quicFrameStreamCreate_bytes_le S.toNat (s.wire.frames.sendBytes S) msg fin
    (s.wspace S skWspace) maxFrameLen
  exact hs.queue (wireInv_step hs.wire ⟨.tail S msg fin _ maxFrameLen, decide_eq_true hsend, rfl⟩)
    (by omega) (by omega) (QuicWireCall.tail_sendBytes _ _ _ _ _ _)

theorem creditInv_append {s : QuicOutqCredit} (hs : CreditInv s) {S : Int} {len : Nat}
    {msg : List UInt8} {fin : Bool} {skWspace : Int} {maxFrameLen : Nat}
    (h : (QuicCreditCall.append S len msg fin skWspace maxFrameLen).allowed s = true) :
    CreditInv (s.streamAppend S msg fin skWspace maxFrameLen) := by
  simp only [QuicCreditCall.allowed, Bool.and_eq_true, decide_eq_true_eq] at h
  have hsend := hs.wireSendOk skWspace h.2
  have hw := QuicOutqCredit.wspace_le skWspace hs.bytes_le hs.maxBytes_lt (hs.sendBytes_le S)
    (by have := hs.sendMaxBytes_lt S; omega)
  unfold QuicOutqCredit.streamAppend
  dsimp only
  split
  · exact hs
  · next F hlast =>
    split_ifs with hcheck
    · split
      · exact hs
      · next k frame hk =>
        have hx := Frame.quicFrameStreamAppend_taken_le hk
        exact hs.queue (wireInv_step hs.wire ⟨.append S msg fin _ maxFrameLen,
          decide_eq_true hsend, rfl⟩) (by omega) (by omega)
          (QuicWireCall.append_sendBytes hlast hcheck hk)
    · exact hs

theorem creditInv_maxData {s : QuicOutqCredit} (hs : CreditInv s) (buf : List UInt8) :
    CreditInv ((QuicCreditCall.maxData buf).apply s) := by
  rcases quicFrameMaxDataProcess_cases s buf with heq | ⟨v, hgt, hlt, heq⟩ <;> rw [heq]
  · exact hs
  · exact { hs with bytes_le := by have := hs.bytes_le; dsimp only; omega,
                    maxBytes_lt := by dsimp only; omega }

theorem creditInv_maxStreamData {s : QuicOutqCredit} (hs : CreditInv s) (buf : List UInt8) :
    CreditInv ((QuicCreditCall.maxStreamData buf).apply s) := by
  rcases quicFrameMaxStreamDataProcess_cases s buf with heq | ⟨S, v, hgt, hlt, heq⟩ <;> rw [heq]
  · exact hs
  · refine { hs with sendBytes_le := fun S' => ?_, sendMaxBytes_lt := fun S' => ?_ } <;>
      dsimp only <;> rw [Function.update_apply] <;> split_ifs with hS
    · have := hs.sendBytes_le S'
      subst hS
      omega
    · exact hs.sendBytes_le S'
    · exact hlt
    · exact hs.sendMaxBytes_lt S'

theorem creditInv_setParam {s : QuicOutqCredit} (hs : CreditInv s) {p : QuicTransportParam}
    (h : (QuicCreditCall.setParam p).allowed s = true) :
    CreditInv ((QuicCreditCall.setParam p).apply s) := by
  simp only [QuicCreditCall.allowed, decide_eq_true_eq] at h
  simp only [QuicCreditCall.apply, quicOutqSetParam]
  split_ifs with hremote
  · have hle := h.2 hremote
    exact { hs with bytes_le := by have := hs.bytes_le; dsimp only; omega,
                    maxBytes_lt := h.1 }
  · exact hs

theorem creditInv_flowControl {s : QuicOutqCredit} (hs : CreditInv s) (S : Int) (len : Nat)
    (sndblock transmitted : Bool) :
    CreditInv (quicOutqFlowControl s S len sndblock transmitted).2 := by
  obtain ⟨hwire, hbytes, hmax, hsmax⟩ := quicOutqFlowControl_fields s S len sndblock transmitted
  exact ⟨hwire ▸ hs.wire, hbytes ▸ hmax ▸ hs.bytes_le, hmax ▸ hs.maxBytes_lt,
    hwire ▸ hsmax ▸ hs.sendBytes_le, hsmax ▸ hs.sendMaxBytes_lt, hwire ▸ hbytes ▸ hs.sum_le⟩

theorem creditInv_other {s : QuicOutqCredit} (hs : CreditInv s) {call : QuicFrameCall}
    (h : (QuicCreditCall.other call).allowed s = true) :
    CreditInv ((QuicCreditCall.other call).apply s) := by
  have hwall : (QuicWireCall.other call).allowed s.wire = true := by
    cases call <;> first | cases h | exact h
  have hsb := QuicFrameCall.sendBytes_apply hwall
  refine ⟨wireInv_step hs.wire ⟨_, hwall, rfl⟩, hs.bytes_le, hs.maxBytes_lt, ?_,
    hs.sendMaxBytes_lt, ?_⟩
  · intro S
    show (call.apply s.wire.frames).sendBytes S ≤ _
    rw [hsb]
    exact hs.sendBytes_le S
  · intro T
    show ∑ S ∈ T, (call.apply s.wire.frames).sendBytes S ≤ _
    rw [hsb]
    exact hs.sum_le T

theorem creditInv_step {s t : QuicOutqCredit} (hs : CreditInv s) (h : CreditStep s t) :
    CreditInv t := by
  obtain ⟨call, hallowed, rfl⟩ := h
  cases call with
  | flowControl S len sndblock transmitted => exact creditInv_flowControl hs S len sndblock transmitted
  | tail S len msg fin skWspace maxFrameLen => exact creditInv_tail hs hallowed
  | append S len msg fin skWspace maxFrameLen => exact creditInv_append hs hallowed
  | maxData buf => exact creditInv_maxData hs buf
  | maxStreamData buf => exact creditInv_maxStreamData hs buf
  | setParam p => exact creditInv_setParam hs hallowed
  | dataBlockedAck | streamDataBlockedAck _ =>
    exact ⟨hs.wire, hs.bytes_le, hs.maxBytes_lt, hs.sendBytes_le, hs.sendMaxBytes_lt, hs.sum_le⟩
  | other call => exact creditInv_other hs hallowed

theorem creditInv_reachable {s : QuicOutqCredit} (h : Reachable CreditInit CreditStep s) :
    CreditInv s := by
  refine Reachable.invariant ?_ (fun a b => @creditInv_step a b) h
  rintro _ ⟨sendMaxBytes, hlt, rfl⟩
  exact creditInv_init sendMaxBytes hlt

/-! ## The limits over whole runs -/

theorem QuicOutqCredit.streamAppend_limits (s : QuicOutqCredit) (S : Int) (msg : List UInt8)
    (fin : Bool) (skWspace : Int) (maxFrameLen : Nat) :
    let t := s.streamAppend S msg fin skWspace maxFrameLen
    t.maxBytes = s.maxBytes ∧ t.sendMaxBytes = s.sendMaxBytes ∧
      t.blockedSent = s.blockedSent ∧ t.lastMaxBytes = s.lastMaxBytes ∧
      t.streamBlockedSent = s.streamBlockedSent ∧ t.sendLastMaxBytes = s.sendLastMaxBytes := by
  unfold QuicOutqCredit.streamAppend
  dsimp only
  split
  · exact ⟨rfl, rfl, rfl, rfl, rfl, rfl⟩
  · split_ifs
    · split <;> exact ⟨rfl, rfl, rfl, rfl, rfl, rfl⟩
    · exact ⟨rfl, rfl, rfl, rfl, rfl, rfl⟩

-- No call lowers a stream's limit, and as the peer's parameters never lower the connection's
-- limit, no call lowers it either.
theorem creditStep_limits_mono {s t : QuicOutqCredit} (h : CreditStep s t) :
    s.maxBytes ≤ t.maxBytes ∧ ∀ S, s.sendMaxBytes S ≤ t.sendMaxBytes S := by
  obtain ⟨call, hallowed, rfl⟩ := h
  cases call with
  | flowControl S len sndblock transmitted =>
    obtain ⟨-, -, hmax, hsmax⟩ := quicOutqFlowControl_fields s S len sndblock transmitted
    exact ⟨hmax.ge, fun S' => (congrFun hsmax S').ge⟩
  | tail => exact ⟨le_rfl, fun _ => le_rfl⟩
  | append S len msg fin skWspace maxFrameLen =>
    obtain ⟨hmax, hsmax, -⟩ := s.streamAppend_limits S msg fin skWspace maxFrameLen
    exact ⟨hmax.ge, fun S' => (congrFun hsmax S').ge⟩
  | maxData buf =>
    rcases quicFrameMaxDataProcess_cases s buf with heq | ⟨v, hgt, -, heq⟩ <;> rw [heq]
    · exact ⟨le_rfl, fun _ => le_rfl⟩
    · exact ⟨hgt.le, fun _ => le_rfl⟩
  | maxStreamData buf =>
    rcases quicFrameMaxStreamDataProcess_cases s buf with heq | ⟨S, v, hgt, -, heq⟩ <;> rw [heq]
    · exact ⟨le_rfl, fun _ => le_rfl⟩
    · refine ⟨le_rfl, fun S' => ?_⟩
      dsimp only
      rw [Function.update_apply]
      split_ifs with hS
      · subst hS
        exact hgt.le
      · exact le_rfl
  | setParam p =>
    simp only [QuicCreditCall.allowed, decide_eq_true_eq] at hallowed
    simp only [QuicCreditCall.apply, quicOutqSetParam]
    split_ifs with hremote
    · exact ⟨hallowed.2 hremote, fun _ => le_rfl⟩
    · exact ⟨le_rfl, fun _ => le_rfl⟩
  | dataBlockedAck => exact ⟨le_rfl, fun _ => le_rfl⟩
  | streamDataBlockedAck => exact ⟨le_rfl, fun _ => le_rfl⟩
  | other => exact ⟨le_rfl, fun _ => le_rfl⟩

-- The sender keeps within the peer's limits, in every state of a run of sendmsg calls with any
-- messages, FIN flags, socket write space and payload bounds, MAX_DATA and MAX_STREAM_DATA frames
-- of any content, parameters of the peer that never lower the connection's limit, blocked
-- checks, and packets sent, acknowledged and lost: each stream's send offset and `outq->bytes`
-- are within their limits, every frame ends within its stream's limit, the send offsets of any
-- streams add up to no more than the connection's limit, and no step lowers a limit.
theorem quicOutq_flow_control_respected {s : QuicOutqCredit}
    (h : Reachable CreditInit CreditStep s) :
    s.bytes ≤ s.maxBytes ∧ (∀ S, s.wire.frames.sendBytes S ≤ s.sendMaxBytes S) ∧
      (∀ f ∈ s.wire.frames.queued, f.offset + f.bytes ≤ s.sendMaxBytes f.stream) ∧
      (∀ T : Finset Int, ∑ S ∈ T, s.wire.frames.sendBytes S ≤ s.maxBytes) ∧
      ∀ t, CreditStep s t → s.maxBytes ≤ t.maxBytes ∧ ∀ S, s.sendMaxBytes S ≤ t.sendMaxBytes S := by
  have hinv := creditInv_reachable h
  refine ⟨hinv.bytes_le, hinv.sendBytes_le, fun f hf => ?_,
    fun T => (hinv.sum_le T).trans hinv.bytes_le, fun t ht => creditStep_limits_mono ht⟩
  exact (hinv.wire.contig.end_le hinv.wire.frame.toFrameKeyInv hf).trans (hinv.sendBytes_le _)

theorem quicOutq_flow_control_respected_run :
    let s : QuicOutqCredit :=
      [QuicCreditCall.setParam { QuicTransportParam.zero with remote := true, maxData := 2000 },
        .tail 0 1 [1, 2, 3, 4, 5] false 100000 1200, .maxData [0x4b, 0xb8],
        .append 0 1 [6, 7] true 100000 1200, .other (.transmitStream 1)].foldl
        QuicCreditCall.apply (quicOutqCreditInit fun _ => 3000)
    Reachable CreditInit CreditStep s ∧ s.bytes = 7 ∧ s.maxBytes = 3000 ∧
      (s.bytes ≤ s.maxBytes ∧ (∀ S, s.wire.frames.sendBytes S ≤ s.sendMaxBytes S) ∧
        (∀ f ∈ s.wire.frames.queued, f.offset + f.bytes ≤ s.sendMaxBytes f.stream) ∧
        (∀ T : Finset Int, ∑ S ∈ T, s.wire.frames.sendBytes S ≤ s.maxBytes) ∧
        ∀ t, CreditStep s t → s.maxBytes ≤ t.maxBytes ∧
          ∀ S, s.sendMaxBytes S ≤ t.sendMaxBytes S) := by
  intro s
  have h : Reachable CreditInit CreditStep s :=
    Reachable.foldl_of_allowedRun creditStep_of_allowed
      (Reachable.of_init ⟨fun _ => 3000, fun _ => by norm_num, rfl⟩) _ (by decide)
  exact ⟨h, by decide, by decide, quicOutq_flow_control_respected h⟩

-- Read as "the parameters applied for the peer never decrease", the proviso does not keep
-- `outq->bytes` within `max_bytes`: after a MAX_DATA frame raised the limit from 1200 to 2000 and
-- 1300 bytes were queued, parameters of 1250, more than the 1200 applied before, set `max_bytes`
-- to 1250.
set_option maxRecDepth 8000 in
theorem quicOutqSetParam_below_bytes :
    let s : QuicOutqCredit :=
      [QuicCreditCall.setParam { QuicTransportParam.zero with remote := true, maxData := 1200 },
        .maxData [0x47, 0xd0], .tail 0 1 (List.replicate 1300 0) false 100000 1400].foldl
        QuicCreditCall.apply (quicOutqCreditInit fun _ => 3000)
    let p : QuicTransportParam := { QuicTransportParam.zero with remote := true, maxData := 1250 }
    Reachable CreditInit CreditStep s ∧ s.maxData < p.maxData ∧
      (quicOutqSetParam s p).maxBytes < (quicOutqSetParam s p).bytes := by
  intro s p
  refine ⟨Reachable.foldl_of_allowedRun creditStep_of_allowed
    (Reachable.of_init ⟨fun _ => 3000, fun _ => by norm_num, rfl⟩) _ (by decide), ?_, ?_⟩
  · decide
  · decide

/-! ## DATA_BLOCKED and STREAM_DATA_BLOCKED -/

-- The limits announced as blocking: the connection's in increasing order, none above the limit
-- recorded last, itself within the limit in force; and the same for each stream.
structure BlockedInv (s : QuicOutqCredit) : Prop where
  sorted : s.blockedSent.Pairwise (· < ·)
  le_last : ∀ m ∈ s.blockedSent, m ≤ s.lastMaxBytes
  last_le : s.lastMaxBytes ≤ s.maxBytes
  stream_sorted : ∀ S, ((s.streamBlockedSent.filter (·.1 = S)).map (·.2)).Pairwise (· < ·)
  stream_le_last : ∀ p ∈ s.streamBlockedSent, p.2 ≤ s.sendLastMaxBytes p.1
  stream_last_le : ∀ S, s.sendLastMaxBytes S ≤ s.sendMaxBytes S

-- An entry for stream `S` above every one announced for it before keeps each stream's
-- announcements increasing.
theorem pairwise_filter_map_append {l : List (Int × Nat)} {S : Int} {m : Nat}
    (hl : ∀ S', ((l.filter (·.1 = S')).map (·.2)).Pairwise (· < ·))
    (hm : ∀ p ∈ l, p.1 = S → p.2 < m) (S' : Int) :
    (((l ++ [(S, m)]).filter (·.1 = S')).map (·.2)).Pairwise (· < ·) := by
  rw [List.filter_append, List.map_append]
  refine List.pairwise_append.2 ⟨hl S', by by_cases hS : S = S' <;> simp [hS], ?_⟩
  intro a ha b hb
  by_cases hS : S = S'
  · subst hS
    simp only [List.mem_map, List.mem_filter, decide_eq_true_eq] at ha
    obtain ⟨p, ⟨hp, hpS⟩, rfl⟩ := ha
    simp only [List.filter_cons, decide_true, if_true, List.filter_nil, List.map_cons,
      List.map_nil, List.mem_singleton] at hb
    exact hb ▸ hm p hp hpS
  · simp [hS] at hb

-- Recording the limit in force for a stream blocked below it, with or without a frame that
-- announces it, keeps the invariant.
theorem BlockedInv.recordStream {s : QuicOutqCredit} (hs : BlockedInv s) {S : Int}
    (hlt : s.sendLastMaxBytes S < s.sendMaxBytes S) {L : List (Int × Nat)}
    (hL : L = s.streamBlockedSent ∨ L = s.streamBlockedSent ++ [(S, s.sendMaxBytes S)])
    (blocked : Int → Bool) :
    BlockedInv { s with streamBlockedSent := L,
                        sendLastMaxBytes := Function.update s.sendLastMaxBytes S (s.sendMaxBytes S),
                        sendDataBlocked := blocked } := by
  -- the limit recorded for `S` now is the one in force, above all recorded before
  have hlast (S' : Int) :
      s.sendLastMaxBytes S' ≤ Function.update s.sendLastMaxBytes S (s.sendMaxBytes S) S' := by
    rw [Function.update_apply]
    split_ifs with h
    · subst h
      exact hlt.le
    · exact le_rfl
  have hbelow : ∀ p ∈ s.streamBlockedSent, p.1 = S → p.2 < s.sendMaxBytes S := by
    intro p hp hpS
    have := hs.stream_le_last p hp
    rw [hpS] at this
    omega
  refine ⟨hs.sorted, hs.le_last, hs.last_le, fun S' => ?_, fun p hp => ?_, fun S' => ?_⟩
  · rcases hL with rfl | rfl
    · exact hs.stream_sorted S'
    · exact pairwise_filter_map_append hs.stream_sorted hbelow S'
  · dsimp only at hp ⊢
    rcases hL with rfl | rfl
    · exact (hs.stream_le_last p hp).trans (hlast p.1)
    · rcases List.mem_append.1 hp with hp | hp
      · exact (hs.stream_le_last p hp).trans (hlast p.1)
      · rw [List.mem_singleton.1 hp]
        simp
  · dsimp only
    rw [Function.update_apply]
    split_ifs with h
    · subst h
      exact le_rfl
    · exact hs.stream_last_le S'

theorem BlockedInv.flowControlStream {s : QuicOutqCredit} (hs : BlockedInv s) (S : Int)
    (bytes : Nat) (queued : Bool) : BlockedInv (quicOutqFlowControlStream s S bytes queued) := by
  unfold quicOutqFlowControlStream
  split_ifs with hcond
  · exact hs.recordStream hcond.2.2 (.inr rfl) _
  · exact hs.recordStream hcond.2.2 (.inl rfl) _
  · exact hs

-- The same for the connection.
theorem BlockedInv.recordConn {s : QuicOutqCredit} (hs : BlockedInv s)
    (hlt : s.lastMaxBytes < s.maxBytes) {L : List Nat}
    (hL : L = s.blockedSent ∨ L = s.blockedSent ++ [s.maxBytes]) :
    BlockedInv { s with blockedSent := L, lastMaxBytes := s.maxBytes, dataBlocked := true } := by
  refine ⟨?_, fun m hm => ?_, le_rfl, hs.stream_sorted, hs.stream_le_last, hs.stream_last_le⟩
  · rcases hL with rfl | rfl
    · exact hs.sorted
    · refine List.pairwise_append.2 ⟨hs.sorted, List.pairwise_singleton _ _, ?_⟩
      intro a ha b hb
      rw [List.mem_singleton.1 hb]
      exact (hs.le_last a ha).trans_lt hlt
  · dsimp only at hm ⊢
    rcases hL with rfl | rfl
    · exact (hs.le_last m hm).trans hlt.le
    · rcases List.mem_append.1 hm with hm | hm
      · exact (hs.le_last m hm).trans hlt.le
      · exact (List.mem_singleton.1 hm).le

theorem BlockedInv.flowControlConn {s : QuicOutqCredit} (hs : BlockedInv s) (bytes : Nat)
    (queued : Bool) : BlockedInv (quicOutqFlowControlConn s bytes queued) := by
  unfold quicOutqFlowControlConn
  split_ifs with hcond
  · exact hs.recordConn hcond.2.2 (.inr rfl)
  · exact hs.recordConn hcond.2.2 (.inl rfl)
  · exact hs

-- A call that leaves what was announced and recorded, and lowers no limit, keeps the invariant.
theorem BlockedInv.of_limits {s t : QuicOutqCredit} (hs : BlockedInv s)
    (hsent : t.blockedSent = s.blockedSent) (hlast : t.lastMaxBytes = s.lastMaxBytes)
    (hssent : t.streamBlockedSent = s.streamBlockedSent)
    (hslast : t.sendLastMaxBytes = s.sendLastMaxBytes)
    (hmono : s.maxBytes ≤ t.maxBytes ∧ ∀ S, s.sendMaxBytes S ≤ t.sendMaxBytes S) :
    BlockedInv t := by
  refine ⟨?_, ?_, ?_, ?_, ?_, fun S => ?_⟩
  · rw [hsent]
    exact hs.sorted
  · rw [hsent, hlast]
    exact hs.le_last
  · rw [hlast]
    exact hs.last_le.trans hmono.1
  · rw [hssent]
    exact hs.stream_sorted
  · rw [hssent, hslast]
    exact hs.stream_le_last
  · rw [hslast]
    exact (hs.stream_last_le S).trans (hmono.2 S)

theorem blockedInv_step {s t : QuicOutqCredit} (hs : BlockedInv s) (h : CreditStep s t) :
    BlockedInv t := by
  have hmono := creditStep_limits_mono h
  obtain ⟨call, hallowed, rfl⟩ := h
  cases call with
  | flowControl S len sndblock transmitted =>
    exact (hs.flowControlStream S len _).flowControlConn len _
  | tail => exact hs.of_limits rfl rfl rfl rfl hmono
  | append S len msg fin skWspace maxFrameLen =>
    obtain ⟨-, -, h1, h2, h3, h4⟩ := s.streamAppend_limits S msg fin skWspace maxFrameLen
    exact hs.of_limits h1 h2 h3 h4 hmono
  | maxData buf =>
    rcases quicFrameMaxDataProcess_cases s buf with heq | ⟨v, -, -, heq⟩ <;>
      exact hs.of_limits (by rw [heq]) (by rw [heq]) (by rw [heq]) (by rw [heq]) hmono
  | maxStreamData buf =>
    rcases quicFrameMaxStreamDataProcess_cases s buf with heq | ⟨S, v, -, -, heq⟩ <;>
      exact hs.of_limits (by rw [heq]) (by rw [heq]) (by rw [heq]) (by rw [heq]) hmono
  | setParam p =>
    simp only [QuicCreditCall.apply, quicOutqSetParam] at hmono ⊢
    split_ifs at hmono ⊢
    · exact hs.of_limits rfl rfl rfl rfl hmono
    · exact hs
  | dataBlockedAck => exact hs.of_limits rfl rfl rfl rfl hmono
  | streamDataBlockedAck => exact hs.of_limits rfl rfl rfl rfl hmono
  | other => exact hs.of_limits rfl rfl rfl rfl hmono

-- No limit is announced twice: in every state of a run the DATA_BLOCKED frames queued announce
-- ever larger limits, none above the connection's limit in force, and the STREAM_DATA_BLOCKED
-- frames of each stream ever larger limits, none above the stream's.
theorem quicOutqFlowControl_blocked_increasing {s : QuicOutqCredit}
    (h : Reachable CreditInit CreditStep s) :
    s.blockedSent.Pairwise (· < ·) ∧ (∀ m ∈ s.blockedSent, m ≤ s.maxBytes) ∧
      ∀ S, ((s.streamBlockedSent.filter (·.1 = S)).map (·.2)).Pairwise (· < ·) ∧
        ∀ p ∈ s.streamBlockedSent, p.1 = S → p.2 ≤ s.sendMaxBytes S := by
  have hinv : BlockedInv s := by
    refine Reachable.invariant ?_ (fun a b => @blockedInv_step a b) h
    rintro _ ⟨sendMaxBytes, -, rfl⟩
    exact ⟨List.Pairwise.nil, by simp [quicOutqCreditInit], Nat.zero_le _,
      fun _ => by simp [quicOutqCreditInit], by simp [quicOutqCreditInit],
      fun _ => Nat.zero_le _⟩
  refine ⟨hinv.sorted, fun m hm => (hinv.le_last m hm).trans hinv.last_le,
    fun S => ⟨hinv.stream_sorted S, fun p hp hpS => ?_⟩⟩
  have := hinv.stream_le_last p hp
  rw [hpS] at this
  exact this.trans (hinv.stream_last_le S)

theorem quicOutqFlowControl_blocked_increasing_run :
    let s : QuicOutqCredit :=
      [QuicCreditCall.setParam { QuicTransportParam.zero with remote := true, maxData := 1200 },
        .flowControl 0 2000 true true, .maxData [0x47, 0xd0], .dataBlockedAck,
        .flowControl 0 3000 true true].foldl QuicCreditCall.apply
        (quicOutqCreditInit fun _ => 2500)
    Reachable CreditInit CreditStep s ∧ s.blockedSent = [1200, 2000] ∧
      s.streamBlockedSent = [(0, 2500)] ∧
      (s.blockedSent.Pairwise (· < ·) ∧ (∀ m ∈ s.blockedSent, m ≤ s.maxBytes) ∧
        ∀ S, ((s.streamBlockedSent.filter (·.1 = S)).map (·.2)).Pairwise (· < ·) ∧
          ∀ p ∈ s.streamBlockedSent, p.1 = S → p.2 ≤ s.sendMaxBytes S) := by
  intro s
  have h : Reachable CreditInit CreditStep s :=
    Reachable.foldl_of_allowedRun creditStep_of_allowed
      (Reachable.of_init ⟨fun _ => 2500, fun _ => by norm_num, rfl⟩) _ (by decide)
  exact ⟨h, by decide, by decide, quicOutqFlowControl_blocked_increasing h⟩

end Quic.StreamFrames
