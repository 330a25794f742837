import Quic.Lib.KeyedList
import Quic.Lib.Reachable
import Quic.Inqueue.Stream
import Quic.Frame.TransportParam

namespace Quic

-- Stream ID layout (stream.h): the low bit is the initiator, the next one the direction.
def QUIC_STREAM_TYPE_BITS : Nat := 2
def QUIC_STREAM_ID_STEP : Int := 4

def QUIC_STREAM_TYPE_CLIENT_BIDI : Nat := 0x00
def QUIC_STREAM_TYPE_SERVER_BIDI : Nat := 0x01
def QUIC_STREAM_TYPE_CLIENT_UNI : Nat := 0x02
def QUIC_STREAM_TYPE_SERVER_UNI : Nat := 0x03

-- The send states `quic_stream_get` and `quic_stream_put` test, and the receive state after
-- RECVD (uapi quic.h).
def QUIC_STREAM_SEND_STATE_READY : Nat := 0
def QUIC_STREAM_SEND_STATE_SEND : Nat := 1
def QUIC_STREAM_SEND_STATE_SENT : Nat := 2
def QUIC_STREAM_SEND_STATE_RECVD : Nat := 3
def QUIC_STREAM_SEND_STATE_RESET_RECVD : Nat := 5
def QUIC_STREAM_RECV_STATE_READ : Nat := 9

-- `MSG_QUIC_STREAM_NEW` is `MSG_SYN`.
def MSG_QUIC_STREAM_NEW : Nat := 0x400

-- The fields of `struct quic_stream` the stream table reads and writes.
structure QuicStream where
  id : Int
  sendMaxBytes : Nat
  sendState : Nat
  sendDone : Bool
  recvMaxBytes : Nat
  recvWindow : Nat
  recvState : Nat
  recvDone : Bool
  deriving DecidableEq, Repr

-- The `_bidi` or the `_uni` half of `struct quic_stream_limits`: `max_streams`,
-- `next_stream_id`, `max_stream_id`, `pending` and the u16 count `streams`.
structure QuicStreamDir where
  maxStreams : Nat
  nextStreamId : Int
  maxStreamId : Int
  pending : Bool
  streams : Nat
  deriving DecidableEq, Repr

structure QuicStreamLimits where
  maxStreamDataBidiRemote : Nat
  maxStreamDataBidiLocal : Nat
  maxStreamDataUni : Nat
  activeStreamId : Int
  bidi : QuicStreamDir
  uni : QuicStreamDir
  deriving DecidableEq, Repr

-- `struct quic_stream_table`; its hash chains are one list here.
structure QuicStreamTable where
  streams : List QuicStream
  send : QuicStreamLimits
  recv : QuicStreamLimits
  deriving DecidableEq, Repr

def QuicStreamLimits.dir (l : QuicStreamLimits) (uni : Bool) : QuicStreamDir :=
  if uni then l.uni else l.bidi

def QuicStreamLimits.setDir (l : QuicStreamLimits) (uni : Bool) (d : QuicStreamDir) :
    QuicStreamLimits :=
  if uni then { l with uni := d } else { l with bidi := d }

def QuicStreamTable.limits (t : QuicStreamTable) (send : Bool) : QuicStreamLimits :=
  if send then t.send else t.recv

def QuicStreamTable.setLimits (t : QuicStreamTable) (send : Bool) (l : QuicStreamLimits) :
    QuicStreamTable :=
  if send then { t with send := l } else { t with recv := l }

@[simp] theorem QuicStreamLimits.dir_setDir (l : QuicStreamLimits) (u v : Bool) (d : QuicStreamDir) :
    (l.setDir u d).dir v = if u = v then d else l.dir v := by
  cases u <;> cases v <;> rfl

@[simp] theorem QuicStreamTable.limits_false (t : QuicStreamTable) : t.limits false = t.recv := rfl

@[simp] theorem QuicStreamTable.limits_true (t : QuicStreamTable) : t.limits true = t.send := rfl

@[simp] theorem QuicStreamTable.setLimits_false (t : QuicStreamTable) (l : QuicStreamLimits) :
    t.setLimits false l = { t with recv := l } := rfl

@[simp] theorem QuicStreamTable.setLimits_true (t : QuicStreamTable) (l : QuicStreamLimits) :
    t.setLimits true l = { t with send := l } := rfl

def QuicStreamDir.zero : QuicStreamDir := ⟨0, 0, 0, false, 0⟩

def QuicStreamLimits.zero : QuicStreamLimits := ⟨0, 0, 0, 0, .zero, .zero⟩

-- `quic_stream_init` on a zeroed socket: no streams, zero limits.
def quicStreamInit : QuicStreamTable := ⟨[], .zero, .zero⟩

-- `stream_id & QUIC_STREAM_TYPE_MASK`: the low two bits, also of a negative s64.
def quicStreamIdType (streamId : Int) : Nat := (streamId % 4).toNat

def quicStreamIdValid (streamId : Int) (isServ send : Bool) : Bool :=
  let type := quicStreamIdType streamId
  if send then
    if isServ then type != QUIC_STREAM_TYPE_CLIENT_UNI else type != QUIC_STREAM_TYPE_SERVER_UNI
  else if isServ then type != QUIC_STREAM_TYPE_SERVER_UNI
  else type != QUIC_STREAM_TYPE_CLIENT_UNI

-- `is_serv ^ !(stream_id & QUIC_STREAM_TYPE_SERVER_MASK)`
def quicStreamIdLocal (streamId : Int) (isServ : Bool) : Bool :=
  xor isServ (streamId % 2 == 0)

-- `stream_id & QUIC_STREAM_TYPE_UNI_MASK`
def quicStreamIdUni (streamId : Int) : Bool := 2 ≤ streamId % 4

def quicStreamIdToStreams (streamId : Int) : Nat :=
  (toU64 (streamId >>> QUIC_STREAM_TYPE_BITS) + 1) % 2 ^ 64

def quicStreamStreamsToId (streams type : Nat) : Int :=
  toS64 ((toU64 ((streams : Int) - 1) <<< QUIC_STREAM_TYPE_BITS) % 2 ^ 64 ||| type)

def quicStreamFind (t : QuicStreamTable) (streamId : Int) : Option QuicStream :=
  t.streams.find? (fun s => s.id == streamId)

-- `quic_stream_delete`, and the write-back of a stream changed in place.
def quicStreamDelete (t : QuicStreamTable) (stream : QuicStream) : QuicStreamTable :=
  { t with streams := KeyedList.erase QuicStream.id stream t.streams }

def QuicStreamTable.update (t : QuicStreamTable) (stream : QuicStream) : QuicStreamTable :=
  { t with streams := KeyedList.replace QuicStream.id stream t.streams }

-- A zeroed stream as `quic_stream_create` fills it for `streamId`.
def quicStreamNew (t : QuicStreamTable) (send isServ : Bool) (streamId : Int) : QuicStream :=
  let limits := t.limits send
  let zero : QuicStream := ⟨streamId, 0, 0, false, 0, 0, 0, false⟩
  if quicStreamIdUni streamId then
    if send then { zero with sendMaxBytes := limits.maxStreamDataUni }
    else { zero with recvMaxBytes := limits.maxStreamDataUni, recvWindow := limits.maxStreamDataUni }
  else if quicStreamIdLocal streamId isServ then
    { zero with sendMaxBytes := t.send.maxStreamDataBidiRemote,
                recvMaxBytes := t.recv.maxStreamDataBidiLocal,
                recvWindow := t.recv.maxStreamDataBidiLocal }
  else
    { zero with sendMaxBytes := t.send.maxStreamDataBidiLocal,
                recvMaxBytes := t.recv.maxStreamDataBidiRemote,
                recvWindow := t.recv.maxStreamDataBidiRemote }

-- The IDs of the `while (stream_id <= max_stream_id)` loop of `quic_stream_create`.
def quicStreamCreateIds (streamId maxStreamId : Int) : List Int :=
  (List.range ((maxStreamId - streamId) / QUIC_STREAM_ID_STEP + 1).toNat).map
    (fun i : Nat => streamId + QUIC_STREAM_ID_STEP * i)

-- `quic_stream_create`: every ID of the type of `maxStreamId` from the next one up to it is
-- opened, and the last stream is returned. `alloc` is whether every allocation succeeds; when
-- one fails, the streams made so far are freed and nothing changes.
def quicStreamCreate (t : QuicStreamTable) (maxStreamId : Int) (send isServ alloc : Bool) :
    Option QuicStream × QuicStreamTable :=
  let limits := t.limits send
  let streamId := (limits.dir (quicStreamIdUni maxStreamId)).nextStreamId
  let created := (quicStreamCreateIds streamId maxStreamId).map (quicStreamNew t send isServ)
  if alloc then
    let count := created.length
    let streamId := streamId + QUIC_STREAM_ID_STEP * count
    let uni := quicStreamIdUni streamId
    let d := limits.dir uni
    (created.getLast?,
      { t.setLimits send (limits.setDir uni
          { d with nextStreamId := streamId, streams := toU16 (d.streams + count) }) with
        streams := created ++ t.streams })
  else (none, t)

def quicStreamIdClosed (t : QuicStreamTable) (streamId : Int) (send : Bool) : Bool :=
  streamId < ((t.limits send).dir (quicStreamIdUni streamId)).nextStreamId

def quicStreamIdExceeds (t : QuicStreamTable) (streamId : Int) (send : Bool) : Bool :=
  let uni := quicStreamIdUni streamId
  if !send then streamId > (t.recv.dir uni).maxStreamId
  else
    let d := t.send.dir uni
    if streamId > d.maxStreamId then true
    else (quicStreamIdToStreams (streamId - d.nextStreamId) + d.streams) % 2 ^ 64 > d.maxStreams

-- `quic_stream_get`: the stream, or the error, and the table after it.
def quicStreamGet (t : QuicStreamTable) (streamId : Int) (flags : Nat) (isServ send alloc : Bool) :
    Except Int QuicStream × QuicStreamTable :=
  if !quicStreamIdValid streamId isServ send then (.error (-EINVAL), t)
  else
    match quicStreamFind t streamId with
    | some stream =>
      if send ∧ flags &&& MSG_QUIC_STREAM_NEW ≠ 0 ∧
          stream.sendState ≠ QUIC_STREAM_SEND_STATE_READY then (.error (-EINVAL), t)
      else (.ok stream, t)
    | none =>
      if !send ∧ quicStreamIdLocal streamId isServ then
        (.error (if quicStreamIdClosed t streamId (!send) then -ENOSTR else -EINVAL), t)
      else if quicStreamIdClosed t streamId send then (.error (-ENOSTR), t)
      else if send ∧ flags &&& MSG_QUIC_STREAM_NEW = 0 then (.error (-EINVAL), t)
      else if quicStreamIdExceeds t streamId send then (.error (-EAGAIN), t)
      else
        match quicStreamCreate t streamId send isServ alloc with
        | (none, t) => (.error (-ENOSTR), t)
        | (some stream, t) =>
          if send ∨ quicStreamIdValid streamId isServ (!send) then
            (.ok stream, { t with send := { t.send with activeStreamId := streamId } })
          else (.ok stream, t)

-- `streams_bidi--` or `streams_uni--` on the u16 count.
def QuicStreamDir.dec (d : QuicStreamDir) : QuicStreamDir :=
  { d with streams := toU16 ((d.streams : Int) - 1) }

-- The receive side is done: `recv.done` is set once, the count of its direction goes down with
-- it, and a MAX_STREAMS frame becomes due.
def quicStreamRecvDone (t : QuicStreamTable) (uni : Bool) (stream : QuicStream) :
    QuicStreamTable × QuicStream :=
  if stream.recvDone then (t, stream)
  else ({ t with recv := t.recv.setDir uni { (t.recv.dir uni).dec with pending := true } },
    { stream with recvDone := true })

def quicStreamSendDone (t : QuicStreamTable) (stream : QuicStream) : QuicStreamTable × QuicStream :=
  if stream.sendDone then (t, stream)
  else ({ t with send := { t.send with bidi := t.send.bidi.dec } }, { stream with sendDone := true })

-- The end of `quic_stream_put`: the stream is deleted once fully read or reset, and otherwise
-- kept with its new flags.
def quicStreamRelease (r : QuicStreamTable × QuicStream) : QuicStreamTable :=
  if r.2.recvState > QUIC_STREAM_RECV_STATE_RECVD then quicStreamDelete r.1 r.2 else r.1.update r.2

def quicStreamPut (t : QuicStreamTable) (stream : QuicStream) (isServ send : Bool) :
    QuicStreamTable :=
  if quicStreamIdUni stream.id then
    if send then quicStreamDelete { t with send := { t.send with uni := t.send.uni.dec } } stream
    else quicStreamRelease (quicStreamRecvDone t true stream)
  else if send ∧ stream.recvState < QUIC_STREAM_RECV_STATE_RECVD then t
  else if !send ∧ stream.sendState ≠ QUIC_STREAM_SEND_STATE_RECVD ∧
      stream.sendState ≠ QUIC_STREAM_SEND_STATE_RESET_RECVD then t
  else if quicStreamIdLocal stream.id isServ then quicStreamRelease (quicStreamSendDone t stream)
  else quicStreamRelease (quicStreamRecvDone t false stream)

-- One half of `quic_stream_max_streams_update`: a pending direction gets the limit
-- `next - QUIC_STREAM_ID_STEP + ((max_streams - streams) << QUIC_STREAM_TYPE_BITS)`, computed in
-- u64 and stored in s64, and returns its MAX_STREAMS value (0 when none is due).
def quicStreamMaxStreamsUpdateDir (d : QuicStreamDir) : QuicStreamDir × Int :=
  if d.pending then
    let maxStreamId := toS64 (toU64 (d.nextStreamId - QUIC_STREAM_ID_STEP +
      ((toU64 ((d.maxStreams : Int) - d.streams) <<< QUIC_STREAM_TYPE_BITS) % 2 ^ 64 : Nat)))
    ({ d with maxStreamId := maxStreamId, pending := false },
      toS64 (quicStreamIdToStreams maxStreamId))
  else (d, 0)

-- `quic_stream_max_streams_update`: whether a frame is due, `*max_uni`, `*max_bidi`, and the
-- table.
def quicStreamMaxStreamsUpdate (t : QuicStreamTable) : Bool × Int × Int × QuicStreamTable :=
  let uni := quicStreamMaxStreamsUpdateDir t.recv.uni
  let bidi := quicStreamMaxStreamsUpdateDir t.recv.bidi
  (uni.2 != 0 || bidi.2 != 0, uni.2, bidi.2,
    { t with recv := { t.recv with uni := uni.1, bidi := bidi.1 } })

-- `quic_stream_set_param`: the limits of the side `p` describes. The stream counts of
-- `struct quic_transport_param` are __u16 fields.
def quicStreamSetParam (t : QuicStreamTable) (p : QuicTransportParam) (isServ : Bool) :
    QuicStreamTable :=
  let limits := t.limits p.remote
  let client := xor p.remote isServ
  let bidiType := if client then QUIC_STREAM_TYPE_CLIENT_BIDI else QUIC_STREAM_TYPE_SERVER_BIDI
  let uniType := if client then QUIC_STREAM_TYPE_CLIENT_UNI else QUIC_STREAM_TYPE_SERVER_UNI
  let maxStreamsBidi := toU16 p.maxStreamsBidi
  let maxStreamsUni := toU16 p.maxStreamsUni
  t.setLimits p.remote { limits with
    maxStreamDataBidiLocal := p.maxStreamDataBidiLocal
    maxStreamDataBidiRemote := p.maxStreamDataBidiRemote
    maxStreamDataUni := p.maxStreamDataUni
    activeStreamId := -1
    bidi := { limits.bidi with maxStreams := maxStreamsBidi,
                               maxStreamId := quicStreamStreamsToId maxStreamsBidi bidiType,
                               nextStreamId := bidiType }
    uni := { limits.uni with maxStreams := maxStreamsUni,
                             maxStreamId := quicStreamStreamsToId maxStreamsUni uniType,
                             nextStreamId := uniType } }

/-! ## Stream IDs -/

theorem quicStreamIdLocal_congr {a b : Int} (h : a % 4 = b % 4) (isServ : Bool) :
    quicStreamIdLocal a isServ = quicStreamIdLocal b isServ := by
  have h2 : a % 2 = b % 2 := by omega
  simp only [quicStreamIdLocal, h2]

theorem quicStreamIdUni_congr {a b : Int} (h : a % 4 = b % 4) :
    quicStreamIdUni a = quicStreamIdUni b := by
  simp only [quicStreamIdUni, h]

theorem quicStreamIdLocal_add_step (streamId : Int) (k : Nat) (isServ : Bool) :
    quicStreamIdLocal (streamId + QUIC_STREAM_ID_STEP * k) isServ =
      quicStreamIdLocal streamId isServ :=
  quicStreamIdLocal_congr (by unfold QUIC_STREAM_ID_STEP; omega) isServ

theorem quicStreamIdUni_add_step (streamId : Int) (k : Nat) :
    quicStreamIdUni (streamId + QUIC_STREAM_ID_STEP * k) = quicStreamIdUni streamId :=
  quicStreamIdUni_congr (by unfold QUIC_STREAM_ID_STEP; omega)

-- The initiator bit and the direction bit are the whole type.
theorem emod_four_eq_of_local_uni {a b : Int} {isServ : Bool}
    (hl : quicStreamIdLocal a isServ = quicStreamIdLocal b isServ)
    (hu : quicStreamIdUni a = quicStreamIdUni b) : a % 4 = b % 4 := by
  simp only [quicStreamIdLocal, quicStreamIdUni] at hl hu
  cases isServ <;> simp at hl hu <;> omega

-- Every ID the peer may open can be received on, and only its bidi ones can be sent on.
theorem quicStreamIdValid_recv_of_peer {streamId : Int} {isServ : Bool}
    (h : quicStreamIdLocal streamId isServ = false) : quicStreamIdValid streamId isServ false = true := by
  simp only [quicStreamIdLocal] at h
  cases isServ <;> simp [quicStreamIdValid, quicStreamIdType, QUIC_STREAM_TYPE_SERVER_UNI,
    QUIC_STREAM_TYPE_CLIENT_UNI] at h ⊢ <;> omega

theorem quicStreamIdUni_of_valid_send_peer {streamId : Int} {isServ : Bool}
    (hv : quicStreamIdValid streamId isServ true = true) (h : quicStreamIdLocal streamId isServ = false) :
    quicStreamIdUni streamId = false := by
  simp only [quicStreamIdLocal] at h
  cases isServ <;> simp [quicStreamIdValid, quicStreamIdType, quicStreamIdUni,
    QUIC_STREAM_TYPE_SERVER_UNI, QUIC_STREAM_TYPE_CLIENT_UNI] at hv h ⊢ <;> omega

-- On the IDs a limit can hold, `quic_stream_id_to_streams` is the count of IDs up to it.
theorem quicStreamIdToStreams_eq {streamId : Int} (h0 : -4 ≤ streamId) (h1 : streamId < 2 ^ 63) :
    quicStreamIdToStreams streamId = (streamId / 4 + 1).toNat := by
  unfold quicStreamIdToStreams QUIC_STREAM_TYPE_BITS toU64 toUnsigned
  rw [Int.shiftRight_eq_div_pow]
  omega

theorem quicStreamStreamsToId_eq {n type : Nat} (hn : n < 2 ^ 16) (ht : type < 4) :
    quicStreamStreamsToId n type = 4 * n - 4 + type := by
  unfold quicStreamStreamsToId QUIC_STREAM_TYPE_BITS
  have hshift : (toU64 ((n : Int) - 1) <<< 2) % 2 ^ 64 = (toU64 ((n : Int) - 1) % 2 ^ 62) <<< 2 := by
    rw [Nat.shiftLeft_eq, Nat.shiftLeft_eq]
    omega
  rw [hshift, ← Nat.shiftLeft_add_eq_or_of_lt (by omega : type < 2 ^ 2), Nat.shiftLeft_eq]
  unfold toS64 toU64 toUnsigned
  split <;> omega

/-! ## Opening streams -/

theorem length_quicStreamCreateIds (streamId maxStreamId : Int) :
    (quicStreamCreateIds streamId maxStreamId).length =
      ((maxStreamId - streamId) / QUIC_STREAM_ID_STEP + 1).toNat := by
  simp [quicStreamCreateIds]

theorem mem_quicStreamCreateIds {streamId maxStreamId x : Int}
    (h : x ∈ quicStreamCreateIds streamId maxStreamId) :
    streamId ≤ x ∧ x ≤ maxStreamId ∧ x % 4 = streamId % 4 := by
  simp only [quicStreamCreateIds, List.mem_map, List.mem_range] at h
  obtain ⟨i, hi, rfl⟩ := h
  unfold QUIC_STREAM_ID_STEP at hi ⊢
  omega

theorem nodup_quicStreamCreateIds (streamId maxStreamId : Int) :
    (quicStreamCreateIds streamId maxStreamId).Nodup := by
  refine List.Nodup.map (fun i j hij => ?_) List.nodup_range
  unfold QUIC_STREAM_ID_STEP at hij
  omega

@[simp] theorem quicStreamNew_id (t : QuicStreamTable) (send isServ : Bool) (streamId : Int) :
    (quicStreamNew t send isServ streamId).id = streamId := by
  unfold quicStreamNew
  split <;> (try split) <;> rfl

@[simp] theorem quicStreamNew_recvDone (t : QuicStreamTable) (send isServ : Bool) (streamId : Int) :
    (quicStreamNew t send isServ streamId).recvDone = false := by
  unfold quicStreamNew
  split <;> (try split) <;> rfl

-- In the receive direction the streams are opened from the next ID of the direction of
-- `streamId`, and the limits of that direction move past them.
theorem quicStreamCreate_recv {t : QuicStreamTable} {streamId : Int} {isServ u : Bool}
    (hu : quicStreamIdUni streamId = u) (hnext : quicStreamIdUni (t.recv.dir u).nextStreamId = u) :
    (quicStreamCreate t streamId false isServ true).2 =
      { t with
        streams := (quicStreamCreateIds (t.recv.dir u).nextStreamId streamId).map
          (quicStreamNew t false isServ) ++ t.streams
        recv := t.recv.setDir u { t.recv.dir u with
          nextStreamId := (t.recv.dir u).nextStreamId + QUIC_STREAM_ID_STEP *
            ((quicStreamCreateIds (t.recv.dir u).nextStreamId streamId).map
              (quicStreamNew t false isServ)).length
          streams := toU16 ((t.recv.dir u).streams +
            ((quicStreamCreateIds (t.recv.dir u).nextStreamId streamId).map
              (quicStreamNew t false isServ)).length) } } := by
  subst hu
  simp only [quicStreamCreate, QuicStreamTable.limits_false, quicStreamIdUni_add_step, hnext,
    if_true, QuicStreamTable.setLimits_false]

/-! ## The receive limits along a run -/

-- A peer stream of direction `uni` whose receive side is not done.
def quicStreamOpenPeer (isServ uni : Bool) (s : QuicStream) : Bool :=
  !quicStreamIdLocal s.id isServ && quicStreamIdUni s.id == uni && !s.recvDone

-- The limits of one receive direction against the streams of the table: the next ID is a
-- peer ID of the direction, the count is the number of its open peer streams and stays
-- within `max_streams`, and the advertised limit never passes the one the count allows.
structure RecvDirInv (isServ uni : Bool) (d : QuicStreamDir) (l : List QuicStream) : Prop where
  next_local : quicStreamIdLocal d.nextStreamId isServ = false
  next_uni : quicStreamIdUni d.nextStreamId = uni
  next_nonneg : 0 ≤ d.nextStreamId
  next_le : d.nextStreamId ≤ 2 ^ 62 + 3
  maxStreams_lt : d.maxStreams < 2 ^ 16
  streams_le : d.streams ≤ d.maxStreams
  streams_eq : d.streams = l.countP (quicStreamOpenPeer isServ uni)
  maxStreamId_le : d.maxStreamId ≤ d.nextStreamId - 4 + 4 * ((d.maxStreams - d.streams : Nat) : Int)
  maxStreamId_ge : d.nextStreamId - 4 ≤ d.maxStreamId
  below_next : ∀ s ∈ l, quicStreamIdUni s.id = uni → s.id < d.nextStreamId

structure StreamInv (isServ : Bool) (t : QuicStreamTable) : Prop where
  dir : ∀ uni, RecvDirInv isServ uni (t.recv.dir uni) t.streams
  peer : ∀ s ∈ t.streams, quicStreamIdLocal s.id isServ = false
  nodup : (t.streams.map QuicStream.id).Nodup

theorem quicStreamOpenPeer_of_ne {isServ u v : Bool} {s : QuicStream}
    (hs : quicStreamIdUni s.id = u) (huv : u ≠ v) : quicStreamOpenPeer isServ v s = false := by
  cases u <;> cases v <;> simp_all [quicStreamOpenPeer]

theorem RecvDirInv.below_next_of_ids {isServ uni : Bool} {d : QuicStreamDir}
    {l l' : List QuicStream} (h : RecvDirInv isServ uni d l)
    (hids : ∀ s ∈ l', ∃ s₀ ∈ l, s₀.id = s.id) :
    ∀ s ∈ l', quicStreamIdUni s.id = uni → s.id < d.nextStreamId := by
  intro s hs hu
  obtain ⟨s₀, hs₀, hid⟩ := hids s hs
  rw [← hid] at hu ⊢
  exact h.below_next s₀ hs₀ hu

-- Entries with the IDs of old ones and the same number of open peer streams keep a direction.
theorem RecvDirInv.keep {isServ uni : Bool} {d : QuicStreamDir} {l l' : List QuicStream}
    (h : RecvDirInv isServ uni d l)
    (hcount : l'.countP (quicStreamOpenPeer isServ uni) = l.countP (quicStreamOpenPeer isServ uni))
    (hids : ∀ s ∈ l', ∃ s₀ ∈ l, s₀.id = s.id) : RecvDirInv isServ uni d l' :=
  { h with streams_eq := h.streams_eq.trans hcount.symm, below_next := h.below_next_of_ids hids }

-- One open peer stream fewer: the count goes down by one and MAX_STREAMS becomes due.
theorem RecvDirInv.close {isServ uni : Bool} {d : QuicStreamDir} {l l' : List QuicStream}
    (h : RecvDirInv isServ uni d l)
    (hcount : l'.countP (quicStreamOpenPeer isServ uni) + 1 = l.countP (quicStreamOpenPeer isServ uni))
    (hids : ∀ s ∈ l', ∃ s₀ ∈ l, s₀.id = s.id) :
    RecvDirInv isServ uni { d.dec with pending := true } l' := by
  have hs := h.streams_eq
  have hdec : (toU16 ((d.streams : Int) - 1) : Int) = d.streams - 1 :=
    toU16_of_lt (by omega) (by have := h.maxStreams_lt; have := h.streams_le; omega)
  have hle := h.maxStreamId_le
  have hsle := h.streams_le
  refine ⟨h.next_local, h.next_uni, h.next_nonneg, h.next_le, h.maxStreams_lt, ?_, ?_, ?_,
    h.maxStreamId_ge, h.below_next_of_ids hids⟩
  all_goals simp only [QuicStreamDir.dec]
  all_goals omega

-- Streams opened at the next ID of the direction, up to `streamId` within the limit.
theorem RecvDirInv.open_streams {isServ uni : Bool} {d : QuicStreamDir} {l new : List QuicStream}
    {streamId : Int} (h : RecvDirInv isServ uni d l)
    (hnew : ∀ s ∈ new, quicStreamOpenPeer isServ uni s = true ∧ d.nextStreamId ≤ s.id ∧ s.id ≤ streamId)
    (hlen : (new.length : Int) * 4 = streamId - d.nextStreamId + 4)
    (hle : streamId ≤ d.maxStreamId) (hlt : streamId < 2 ^ 62) :
    RecvDirInv isServ uni
      { d with nextStreamId := d.nextStreamId + QUIC_STREAM_ID_STEP * new.length,
               streams := toU16 (d.streams + new.length) } (new ++ l) := by
  have hmax := h.maxStreamId_le
  have hsle := h.streams_le
  have hfit : d.streams + new.length ≤ d.maxStreams := by omega
  have hstreams : toU16 ((d.streams : Int) + new.length) = d.streams + new.length := by
    rw [← Int.natCast_add]
    exact toU16_natCast (by have := h.maxStreams_lt; omega)
  have hcount : new.countP (quicStreamOpenPeer isServ uni) = new.length :=
    List.countP_eq_length.2 (fun s hs => (hnew s hs).1)
  have hnext : d.nextStreamId + QUIC_STREAM_ID_STEP * new.length = streamId + 4 := by
    unfold QUIC_STREAM_ID_STEP
    omega
  refine ⟨?_, ?_, ?_, ?_, h.maxStreams_lt, ?_, ?_, ?_, ?_, ?_⟩
  · exact (quicStreamIdLocal_add_step _ _ _).trans h.next_local
  · exact (quicStreamIdUni_add_step _ _).trans h.next_uni
  all_goals simp only [hnext, hstreams]
  · have := h.next_nonneg
    omega
  · omega
  · exact hfit
  · rw [List.countP_append, hcount, h.streams_eq]
    omega
  · omega
  · omega
  · intro s hs hu
    rcases List.mem_append.1 hs with hs | hs
    · have := (hnew s hs).2.2
      omega
    · have := h.below_next s hs hu
      omega

-- New entries of another direction leave a direction as it was.
theorem RecvDirInv.append_other {isServ uni : Bool} {d : QuicStreamDir} {l new : List QuicStream}
    (h : RecvDirInv isServ uni d l) (hnew : ∀ s ∈ new, quicStreamIdUni s.id ≠ uni) :
    RecvDirInv isServ uni d (new ++ l) := by
  refine { h with streams_eq := ?_, below_next := ?_ }
  · rw [List.countP_append, List.countP_eq_zero.2 (fun s hs => ?_), Nat.zero_add, h.streams_eq]
    simp [quicStreamOpenPeer, hnew s hs]
  · intro s hs hu
    rcases List.mem_append.1 hs with hs | hs
    · exact absurd hu (hnew s hs)
    · exact h.below_next s hs hu

/-! ## Releasing a side -/

@[simp] theorem quicStreamRelease_recv (t : QuicStreamTable) (a : QuicStream) :
    (quicStreamRelease (t, a)).recv = t.recv := by
  unfold quicStreamRelease
  split <;> rfl

theorem mem_quicStreamRelease {t : QuicStreamTable} {a s : QuicStream}
    (h : s ∈ (quicStreamRelease (t, a)).streams) : s = a ∨ s ∈ t.streams := by
  unfold quicStreamRelease at h
  split at h
  · exact .inr (KeyedList.mem_erase h)
  · exact KeyedList.mem_replace h

theorem nodup_quicStreamRelease {t : QuicStreamTable} (a : QuicStream)
    (h : (t.streams.map QuicStream.id).Nodup) :
    ((quicStreamRelease (t, a)).streams.map QuicStream.id).Nodup := by
  unfold quicStreamRelease
  split
  · exact KeyedList.nodup_erase a h
  · simpa [QuicStreamTable.update, KeyedList.map_key_replace] using h

-- Writing back or deleting `a` in place of the entry `b` of its ID takes `b` out of a count
-- that `a` is not in.
theorem quicStreamRelease_countP (p : QuicStream → Bool) {t : QuicStreamTable} {a b : QuicStream}
    (hab : b.id = a.id) (hnodup : (t.streams.map QuicStream.id).Nodup) (hb : b ∈ t.streams)
    (ha : p a = false) :
    (quicStreamRelease (t, a)).streams.countP p + (if p b then 1 else 0) = t.streams.countP p := by
  unfold quicStreamRelease
  split
  · exact KeyedList.countP_erase p hab hnodup hb
  · have h := KeyedList.countP_replace p hab hnodup hb
    rw [ha] at h
    simpa [QuicStreamTable.update] using h

theorem quicStreamRelease_ids {t : QuicStreamTable} {a b : QuicStream} (hb : b ∈ t.streams)
    (hab : b.id = a.id) :
    ∀ s ∈ (quicStreamRelease (t, a)).streams, ∃ s₀ ∈ t.streams, s₀.id = s.id := by
  intro s hs
  rcases mem_quicStreamRelease hs with rfl | hs
  · exact ⟨b, hb, hab⟩
  · exact ⟨s, hs, rfl⟩

theorem quicStreamRelease_peer {isServ : Bool} {t : QuicStreamTable} {a : QuicStream}
    (ht : ∀ s ∈ t.streams, quicStreamIdLocal s.id isServ = false)
    (ha : quicStreamIdLocal a.id isServ = false) :
    ∀ s ∈ (quicStreamRelease (t, a)).streams, quicStreamIdLocal s.id isServ = false := by
  intro s hs
  rcases mem_quicStreamRelease hs with rfl | hs
  · exact ha
  · exact ht s hs

-- Marking the receive side of a peer stream done and releasing it keeps the invariant and
-- leaves the limits in place.
theorem streamInv_recvDone {isServ u : Bool} {t : QuicStreamTable} {stream : QuicStream}
    (hinv : StreamInv isServ t) (hmem : stream ∈ t.streams) (hu : quicStreamIdUni stream.id = u) :
    StreamInv isServ (quicStreamRelease (quicStreamRecvDone t u stream)) ∧
      ∀ v, ((quicStreamRelease (quicStreamRecvDone t u stream)).recv.dir v).maxStreamId =
        (t.recv.dir v).maxStreamId := by
  have hpeer := hinv.peer stream hmem
  unfold quicStreamRecvDone
  split
  · -- already done: the entry is written back or deleted, and no count moves
    rename_i hdone
    refine ⟨⟨fun v => ?_, quicStreamRelease_peer hinv.peer hpeer,
      nodup_quicStreamRelease stream hinv.nodup⟩, fun v => by simp⟩
    have hc := quicStreamRelease_countP (quicStreamOpenPeer isServ v) rfl hinv.nodup hmem
      (by simp [quicStreamOpenPeer, hdone])
    simp only [quicStreamOpenPeer, hdone, Bool.not_true, Bool.and_false] at hc
    rw [quicStreamRelease_recv]
    exact (hinv.dir v).keep (by simpa using hc) (quicStreamRelease_ids hmem rfl)
  · rename_i hdone
    have hopen : quicStreamOpenPeer isServ u stream = true := by
      simp [quicStreamOpenPeer, hpeer, hu, hdone]
    refine ⟨⟨fun v => ?_, quicStreamRelease_peer hinv.peer hpeer,
      nodup_quicStreamRelease _ hinv.nodup⟩, fun v => ?_⟩
    · have hc := quicStreamRelease_countP (a := { stream with recvDone := true }) (b := stream)
        (t := { t with recv := t.recv.setDir u { (t.recv.dir u).dec with pending := true } })
        (quicStreamOpenPeer isServ v) rfl hinv.nodup hmem (by simp [quicStreamOpenPeer])
      have hids := quicStreamRelease_ids (a := { stream with recvDone := true })
        (t := { t with recv := t.recv.setDir u { (t.recv.dir u).dec with pending := true } })
        hmem rfl
      rw [quicStreamRelease_recv, QuicStreamLimits.dir_setDir]
      split
      · -- the direction of the stream loses one open stream
        rename_i huv
        subst huv
        simp only [hopen, ↓reduceIte] at hc
        exact (hinv.dir u).close hc hids
      · rename_i huv
        simp only [quicStreamOpenPeer_of_ne hu huv, Bool.false_eq_true, ↓reduceIte,
          Nat.add_zero] at hc
        exact (hinv.dir v).keep hc hids
    · rw [quicStreamRelease_recv, QuicStreamLimits.dir_setDir]
      split
      · rename_i huv
        subst huv
        rfl
      · rfl

/-! ## Looking up and opening peer streams -/

-- What a lookup in the receive direction can do to the table: nothing, or open the streams up
-- to a peer ID that is neither closed nor beyond the limit, and set `send.active_stream_id`.
theorem quicStreamGet_recv_cases (t : QuicStreamTable) (streamId : Int) (flags : Nat)
    (isServ alloc : Bool) :
    (quicStreamGet t streamId flags isServ false alloc).2 = t ∨
      quicStreamIdLocal streamId isServ = false ∧
      ¬ streamId < (t.recv.dir (quicStreamIdUni streamId)).nextStreamId ∧
      ¬ streamId > (t.recv.dir (quicStreamIdUni streamId)).maxStreamId ∧
      ∃ send, (quicStreamGet t streamId flags isServ false alloc).2 =
        { (quicStreamCreate t streamId false isServ true).2 with send := send } := by
  unfold quicStreamGet
  split
  · exact .inl rfl
  split
  · split <;> exact .inl rfl
  simp only [Bool.not_false, true_and, Bool.false_eq_true, false_and, ↓reduceIte]
  split
  · exact .inl rfl
  rename_i hlocal
  split
  · exact .inl rfl
  rename_i hclosed
  split
  · exact .inl rfl
  rename_i hexceeds
  simp only [quicStreamIdClosed, QuicStreamTable.limits_false] at hclosed
  simp only [quicStreamIdExceeds, Bool.not_false, ↓reduceIte] at hexceeds
  cases alloc
  · exact .inl rfl
  refine .inr ⟨by simpa using hlocal, fun h => hclosed (decide_eq_true h),
    fun h => hexceeds (decide_eq_true h), ?_⟩
  split
  · rename_i t' h
    exact ⟨t'.send, by rw [h]⟩
  · rename_i stream t' h
    rw [h]
    split
    · exact ⟨_, rfl⟩
    · exact ⟨t'.send, rfl⟩

-- Opening the streams up to a peer ID within the limit keeps the invariant and the limits.
theorem streamInv_create {isServ : Bool} {t : QuicStreamTable} {streamId : Int}
    (hinv : StreamInv isServ t) (hlocal : quicStreamIdLocal streamId isServ = false)
    (hge : ¬ streamId < (t.recv.dir (quicStreamIdUni streamId)).nextStreamId)
    (hle : ¬ streamId > (t.recv.dir (quicStreamIdUni streamId)).maxStreamId)
    (hlt : streamId < 2 ^ 62) :
    StreamInv isServ (quicStreamCreate t streamId false isServ true).2 ∧
      ∀ v, ((quicStreamCreate t streamId false isServ true).2.recv.dir v).maxStreamId =
        (t.recv.dir v).maxStreamId := by
  obtain ⟨u, hu⟩ : ∃ u, quicStreamIdUni streamId = u := ⟨_, rfl⟩
  rw [hu] at hge hle
  have hd := hinv.dir u
  have hmod : streamId % 4 = (t.recv.dir u).nextStreamId % 4 :=
    emod_four_eq_of_local_uni (hlocal.trans hd.next_local.symm) (hu.trans hd.next_uni.symm)
  have hlen : (((quicStreamCreateIds (t.recv.dir u).nextStreamId streamId).map
      (quicStreamNew t false isServ)).length : Int) * 4 =
        streamId - (t.recv.dir u).nextStreamId + 4 := by
    rw [List.length_map, length_quicStreamCreateIds]
    unfold QUIC_STREAM_ID_STEP
    omega
  -- the new streams are open peer streams of the direction of `streamId`, from the next ID on
  have hnew : ∀ s ∈ (quicStreamCreateIds (t.recv.dir u).nextStreamId streamId).map
      (quicStreamNew t false isServ), quicStreamOpenPeer isServ u s = true ∧
        (t.recv.dir u).nextStreamId ≤ s.id ∧ s.id ≤ streamId := by
    intro s hs
    obtain ⟨x, hx, rfl⟩ := List.mem_map.1 hs
    obtain ⟨hx0, hx1, hx4⟩ := mem_quicStreamCreateIds hx
    have hxl : quicStreamIdLocal x isServ = false :=
      (quicStreamIdLocal_congr (hx4.trans hmod.symm) isServ).trans hlocal
    have hxu : quicStreamIdUni x = u := (quicStreamIdUni_congr (hx4.trans hmod.symm)).trans hu
    simp [quicStreamOpenPeer, hxl, hxu, hx0, hx1]
  rw [quicStreamCreate_recv hu hd.next_uni]
  refine ⟨⟨fun v => ?_, fun s hs => ?_, ?_⟩, fun v => ?_⟩
  · rw [QuicStreamLimits.dir_setDir]
    split
    · rename_i huv
      subst huv
      exact hd.open_streams hnew hlen (by omega) hlt
    · rename_i huv
      refine (hinv.dir v).append_other (fun s hs hsv => huv ?_)
      have h := (hnew s hs).1
      simp only [quicStreamOpenPeer, Bool.and_eq_true, beq_iff_eq] at h
      exact h.1.2.symm.trans hsv
  · rcases List.mem_append.1 hs with hs | hs
    · have h := (hnew s hs).1
      simp only [quicStreamOpenPeer, Bool.and_eq_true, Bool.not_eq_eq_eq_not, Bool.not_true] at h
      exact h.1.1
    · exact hinv.peer s hs
  · -- the new IDs are distinct and above every old ID of their direction
    rw [List.map_append, List.nodup_append]
    refine ⟨?_, hinv.nodup, ?_⟩
    · rw [List.map_map]
      have hid : QuicStream.id ∘ quicStreamNew t false isServ = id := funext (quicStreamNew_id t false isServ)
      rw [hid, List.map_id]
      exact nodup_quicStreamCreateIds _ _
    · intro a ha b hb hab
      obtain ⟨s, hs, rfl⟩ := List.mem_map.1 ha
      obtain ⟨s', hs', rfl⟩ := List.mem_map.1 hb
      have h := hnew s hs
      simp only [quicStreamOpenPeer, Bool.and_eq_true, beq_iff_eq] at h
      have hlt' := hd.below_next s' hs' (hab ▸ h.1.1.2)
      omega
  · rw [QuicStreamLimits.dir_setDir]
    split
    · rename_i huv
      subst huv
      rfl
    · rfl

/-! ## Stream states and MAX_STREAMS updates -/

-- A frame handler moving the states of a stream changes no count and no limit.
theorem streamInv_state {isServ : Bool} {t : QuicStreamTable} {stream : QuicStream}
    (hinv : StreamInv isServ t) (hmem : stream ∈ t.streams) (sendState recvState : Nat) :
    StreamInv isServ (t.update { stream with sendState := sendState, recvState := recvState }) := by
  have hids : ∀ s ∈ (t.update { stream with sendState := sendState, recvState := recvState }).streams,
      ∃ s₀ ∈ t.streams, s₀.id = s.id := by
    intro s hs
    rcases KeyedList.mem_replace hs with rfl | hs
    · exact ⟨stream, hmem, rfl⟩
    · exact ⟨s, hs, rfl⟩
  refine ⟨fun v => (hinv.dir v).keep ?_ hids, fun s hs => ?_, ?_⟩
  · have h := KeyedList.countP_replace (quicStreamOpenPeer isServ v)
      (a := { stream with sendState := sendState, recvState := recvState }) (b := stream) rfl
      hinv.nodup hmem
    simp only [quicStreamOpenPeer] at h
    simpa [QuicStreamTable.update, quicStreamOpenPeer] using h
  · obtain ⟨s₀, hs₀, hid⟩ := hids s hs
    rw [← hid]
    exact hinv.peer s₀ hs₀
  · simpa [QuicStreamTable.update, KeyedList.map_key_replace] using hinv.nodup

theorem quicStreamMaxStreamsUpdate_dir (t : QuicStreamTable) (v : Bool) :
    (quicStreamMaxStreamsUpdate t).2.2.2.recv.dir v = (quicStreamMaxStreamsUpdateDir (t.recv.dir v)).1 := by
  cases v <;> rfl

-- The u64 arithmetic of the update is exact on the values the invariant allows.
theorem quicStreamMaxStreamsUpdateDir_eq {d : QuicStreamDir} (h0 : 0 ≤ d.nextStreamId)
    (h1 : d.nextStreamId ≤ 2 ^ 62 + 3) (hs : d.streams ≤ d.maxStreams) (hm : d.maxStreams < 2 ^ 16) :
    (quicStreamMaxStreamsUpdateDir d).1 = if d.pending then
      { d with maxStreamId := d.nextStreamId - 4 + 4 * ((d.maxStreams - d.streams : Nat) : Int),
               pending := false } else d := by
  unfold quicStreamMaxStreamsUpdateDir
  split
  · have hsub : toU64 ((d.maxStreams : Int) - d.streams) = d.maxStreams - d.streams := by
      unfold toU64 toUnsigned
      omega
    have hshift : (d.maxStreams - d.streams) <<< QUIC_STREAM_TYPE_BITS % 2 ^ 64 =
        4 * (d.maxStreams - d.streams) := by
      rw [QUIC_STREAM_TYPE_BITS, Nat.shiftLeft_eq]
      omega
    rw [hsub, hshift, toS64_toU64 (by unfold QUIC_STREAM_ID_STEP; omega)
      (by unfold QUIC_STREAM_ID_STEP; omega)]
    unfold QUIC_STREAM_ID_STEP
    push_cast
    rfl
  · rfl

-- A MAX_STREAMS update keeps a direction and can only raise its limit.
theorem RecvDirInv.maxStreamsUpdate {isServ uni : Bool} {d : QuicStreamDir} {l : List QuicStream}
    (h : RecvDirInv isServ uni d l) :
    RecvDirInv isServ uni (quicStreamMaxStreamsUpdateDir d).1 l ∧
      d.maxStreamId ≤ (quicStreamMaxStreamsUpdateDir d).1.maxStreamId := by
  rw [quicStreamMaxStreamsUpdateDir_eq h.next_nonneg h.next_le h.streams_le h.maxStreams_lt]
  split
  · have hle := h.maxStreamId_le
    refine ⟨{ h with maxStreamId_le := le_refl _, maxStreamId_ge := ?_ }, hle⟩
    simp only
    omega
  · exact ⟨h, le_refl _⟩

/-! ## Runs -/

-- The receive side of the table in any order of operations: a stream ID read from a frame (a
-- varint, so below 2^62) is looked up or opened, the frame handlers move stream states, a side
-- that the stream has is released, the MAX_STREAMS limits are recomputed, and the peer's
-- parameters are installed.
inductive StreamStep (isServ : Bool) : QuicStreamTable → QuicStreamTable → Prop where
  | get (t : QuicStreamTable) (streamId : Int) (flags : Nat) (alloc : Bool) :
      streamId < 2 ^ 62 → StreamStep isServ t (quicStreamGet t streamId flags isServ false alloc).2
  | state (t : QuicStreamTable) (stream : QuicStream) (sendState recvState : Nat) :
      stream ∈ t.streams →
        StreamStep isServ t (t.update { stream with sendState := sendState, recvState := recvState })
  | put (t : QuicStreamTable) (stream : QuicStream) (send : Bool) :
      stream ∈ t.streams → quicStreamIdValid stream.id isServ send = true →
        StreamStep isServ t (quicStreamPut t stream isServ send)
  | maxStreamsUpdate (t : QuicStreamTable) :
      StreamStep isServ t (quicStreamMaxStreamsUpdate t).2.2.2
  | setParam (t : QuicStreamTable) (p : QuicTransportParam) :
      p.remote = true → StreamStep isServ t (quicStreamSetParam t p isServ)

-- The table once `quic_stream_set_param` has installed the local parameters.
def StreamInit (isServ : Bool) (t : QuicStreamTable) : Prop :=
  ∃ p : QuicTransportParam, p.remote = false ∧ t = quicStreamSetParam quicStreamInit p isServ

theorem recvDirInv_setParam {isServ uni : Bool} {m type : Nat} (hm : m < 2 ^ 16) (ht : type < 4)
    (hl : quicStreamIdLocal type isServ = false) (hu : quicStreamIdUni type = uni) :
    RecvDirInv isServ uni ⟨m, type, quicStreamStreamsToId m type, false, 0⟩ [] := by
  have hid := quicStreamStreamsToId_eq hm ht
  refine ⟨hl, hu, Int.natCast_nonneg _, ?_, hm, Nat.zero_le _, rfl, ?_, ?_, by simp⟩
  all_goals simp only [hid]
  all_goals omega

theorem streamInv_init {isServ : Bool} {t : QuicStreamTable} (h : StreamInit isServ t) :
    StreamInv isServ t := by
  obtain ⟨p, hp, rfl⟩ := h
  have hrecv : (quicStreamSetParam quicStreamInit p isServ).recv.dir = fun v =>
      if v then ⟨toU16 p.maxStreamsUni, if isServ then 2 else 3,
        quicStreamStreamsToId (toU16 p.maxStreamsUni) (if isServ then 2 else 3), false, 0⟩
      else ⟨toU16 p.maxStreamsBidi, if isServ then 0 else 1,
        quicStreamStreamsToId (toU16 p.maxStreamsBidi) (if isServ then 0 else 1), false, 0⟩ := by
    funext v
    cases isServ <;> cases v <;> simp [quicStreamSetParam, hp, QuicStreamLimits.dir, quicStreamInit,
      QuicStreamLimits.zero, QuicStreamDir.zero, QUIC_STREAM_TYPE_CLIENT_BIDI, QUIC_STREAM_TYPE_CLIENT_UNI,
      QUIC_STREAM_TYPE_SERVER_BIDI, QUIC_STREAM_TYPE_SERVER_UNI]
  have hstreams : (quicStreamSetParam quicStreamInit p isServ).streams = [] := by
    simp [quicStreamSetParam, hp, quicStreamInit]
  refine ⟨fun v => ?_, by simp [hstreams], by simp [hstreams]⟩
  rw [hrecv, hstreams]
  cases isServ <;> cases v <;> exact recvDirInv_setParam (toU16_lt _) (by decide) (by decide) (by decide)

theorem quicStreamSetParam_remote (t : QuicStreamTable) (p : QuicTransportParam) (isServ : Bool)
    (hp : p.remote = true) :
    (quicStreamSetParam t p isServ).recv = t.recv ∧ (quicStreamSetParam t p isServ).streams = t.streams := by
  simp [quicStreamSetParam, hp]

theorem streamInv_get {isServ : Bool} {t : QuicStreamTable} {streamId : Int} (flags : Nat)
    (alloc : Bool) (hinv : StreamInv isServ t) (hlt : streamId < 2 ^ 62) :
    StreamInv isServ (quicStreamGet t streamId flags isServ false alloc).2 ∧
      ∀ v, ((quicStreamGet t streamId flags isServ false alloc).2.recv.dir v).maxStreamId =
        (t.recv.dir v).maxStreamId := by
  rcases quicStreamGet_recv_cases t streamId flags isServ alloc with h | ⟨hlocal, hge, hle, send, h⟩
  · rw [h]
    exact ⟨hinv, fun _ => rfl⟩
  · -- `send.active_stream_id` is the only other change
    rw [h]
    obtain ⟨hi, hm⟩ := streamInv_create hinv hlocal hge hle hlt
    exact ⟨⟨hi.dir, hi.peer, hi.nodup⟩, hm⟩

theorem streamInv_put {isServ : Bool} {t : QuicStreamTable} {stream : QuicStream} {send : Bool}
    (hinv : StreamInv isServ t) (hmem : stream ∈ t.streams)
    (hvalid : quicStreamIdValid stream.id isServ send = true) :
    StreamInv isServ (quicStreamPut t stream isServ send) ∧
      ∀ v, ((quicStreamPut t stream isServ send).recv.dir v).maxStreamId =
        (t.recv.dir v).maxStreamId := by
  have hpeer := hinv.peer stream hmem
  unfold quicStreamPut
  split
  · rename_i hu
    cases send
    · exact streamInv_recvDone hinv hmem hu
    · -- a peer uni stream has no send side to release
      rw [quicStreamIdUni_of_valid_send_peer hvalid hpeer] at hu
      exact absurd hu Bool.false_ne_true
  · rename_i hu
    have hbidi : quicStreamIdUni stream.id = false := by simpa using hu
    split
    · exact ⟨hinv, fun _ => rfl⟩
    split
    · exact ⟨hinv, fun _ => rfl⟩
    split
    · rename_i hlocal
      rw [hpeer] at hlocal
      exact absurd hlocal Bool.false_ne_true
    · exact streamInv_recvDone hinv hmem hbidi

-- Every step keeps the invariant and never lowers a receive limit.
theorem streamInv_step {isServ : Bool} {t t' : QuicStreamTable} (hinv : StreamInv isServ t)
    (h : StreamStep isServ t t') :
    StreamInv isServ t' ∧ ∀ v, (t.recv.dir v).maxStreamId ≤ (t'.recv.dir v).maxStreamId := by
  cases h with
  | get streamId flags alloc hlt =>
    obtain ⟨hi, hm⟩ := streamInv_get flags alloc hinv hlt
    exact ⟨hi, fun v => (hm v).ge⟩
  | state stream sendState recvState hmem =>
    exact ⟨streamInv_state hinv hmem sendState recvState, fun v => le_refl _⟩
  | put stream send hmem hvalid =>
    obtain ⟨hi, hm⟩ := streamInv_put hinv hmem hvalid
    exact ⟨hi, fun v => (hm v).ge⟩
  | maxStreamsUpdate =>
    refine ⟨⟨fun v => ?_, hinv.peer, hinv.nodup⟩, fun v => ?_⟩
    · rw [quicStreamMaxStreamsUpdate_dir]
      exact (hinv.dir v).maxStreamsUpdate.1
    · rw [quicStreamMaxStreamsUpdate_dir]
      exact (hinv.dir v).maxStreamsUpdate.2
  | setParam p hp =>
    obtain ⟨hrecv, hstreams⟩ := quicStreamSetParam_remote t p isServ hp
    refine ⟨⟨fun v => ?_, ?_, ?_⟩, fun v => ?_⟩
    · rw [hrecv, hstreams]
      exact hinv.dir v
    · rw [hstreams]
      exact hinv.peer
    · rw [hstreams]
      exact hinv.nodup
    · rw [hrecv]

theorem streamInv_reachable {isServ : Bool} {t : QuicStreamTable}
    (h : Reachable (StreamInit isServ) (StreamStep isServ) t) : StreamInv isServ t := by
  have hinit : ∀ t, StreamInit isServ t → StreamInv isServ t := fun _ h => streamInv_init h
  exact Reachable.invariant hinit (fun _ _ hi hs => (streamInv_step hi hs).1) h

theorem quicStreamIdToStreams_mono {a b : Int} (ha : -4 ≤ a) (hab : a ≤ b) (hb : b < 2 ^ 63) :
    quicStreamIdToStreams a ≤ quicStreamIdToStreams b := by
  rw [quicStreamIdToStreams_eq ha (by omega), quicStreamIdToStreams_eq (by omega) hb]
  omega

-- In every reachable table each receive count is within `max_streams` and is the number of open
-- peer streams of its direction, and no step lowers a receive limit or the MAX_STREAMS value
-- computed from it.
theorem quicStream_recv_accounting {isServ : Bool} {t : QuicStreamTable}
    (h : Reachable (StreamInit isServ) (StreamStep isServ) t) (uni : Bool) :
    (t.recv.dir uni).streams ≤ (t.recv.dir uni).maxStreams ∧
      (t.recv.dir uni).streams = t.streams.countP (quicStreamOpenPeer isServ uni) ∧
      ∀ t', StreamStep isServ t t' →
        (t.recv.dir uni).maxStreamId ≤ (t'.recv.dir uni).maxStreamId ∧
          quicStreamIdToStreams (t.recv.dir uni).maxStreamId ≤
            quicStreamIdToStreams (t'.recv.dir uni).maxStreamId := by
  have hinv := streamInv_reachable h
  have hd := hinv.dir uni
  refine ⟨hd.streams_le, hd.streams_eq, fun t' hstep => ?_⟩
  obtain ⟨hinv', hmono⟩ := streamInv_step hinv hstep
  have hd' := hinv'.dir uni
  have hle := hmono uni
  refine ⟨hle, quicStreamIdToStreams_mono ?_ hle ?_⟩
  · have := hd.maxStreamId_ge
    have := hd.next_nonneg
    omega
  · have := hd'.maxStreamId_le
    have := hd'.next_le
    have := hd'.maxStreams_lt
    omega

-- A server with the default parameters after the peer opened its bidi stream 8, and with it 0
-- and 4.
theorem quicStream_recv_accounting_three_open :
    let t : QuicStreamTable :=
      (quicStreamGet (quicStreamSetParam quicStreamInit quicDefaultParam true) 8 0 true false true).2
    Reachable (StreamInit true) (StreamStep true) t ∧
      (t.recv.dir false).streams = 3 ∧ t.streams.countP (quicStreamOpenPeer true false) = 3 ∧
      (t.recv.dir false).streams ≤ (t.recv.dir false).maxStreams ∧
      (t.recv.dir false).streams = t.streams.countP (quicStreamOpenPeer true false) ∧
      ∀ t', StreamStep true t t' →
        (t.recv.dir false).maxStreamId ≤ (t'.recv.dir false).maxStreamId ∧
          quicStreamIdToStreams (t.recv.dir false).maxStreamId ≤
            quicStreamIdToStreams (t'.recv.dir false).maxStreamId := by
  intro t
  have h : Reachable (StreamInit true) (StreamStep true) t :=
    (Reachable.of_init ⟨quicDefaultParam, rfl, rfl⟩).tail (StreamStep.get _ 8 0 true (by decide))
  exact ⟨h, by decide, by decide, quicStream_recv_accounting h false⟩

/-! ## Classifying stream IDs -/

-- Opening streams in the receive direction returns the stream of the ID asked for.
theorem quicStreamCreate_recv_last {isServ : Bool} {t : QuicStreamTable} {streamId : Int}
    (hinv : StreamInv isServ t) (hlocal : quicStreamIdLocal streamId isServ = false)
    (hge : ¬ streamId < (t.recv.dir (quicStreamIdUni streamId)).nextStreamId) {s : QuicStream}
    (h : (quicStreamCreate t streamId false isServ true).1 = some s) : s.id = streamId := by
  have hd := hinv.dir (quicStreamIdUni streamId)
  have hmod : streamId % 4 = (t.recv.dir (quicStreamIdUni streamId)).nextStreamId % 4 :=
    emod_four_eq_of_local_uni (hlocal.trans hd.next_local.symm) hd.next_uni.symm
  simp only [quicStreamCreate, QuicStreamTable.limits_false, if_true, List.getLast?_map,
    quicStreamCreateIds, List.getLast?_range, Option.map_map] at h
  split at h
  · exact absurd h (by simp)
  · simp only [Option.map_some, Option.some.injEq] at h
    rw [← h]
    simp only [Function.comp, quicStreamNew_id]
    unfold QUIC_STREAM_ID_STEP
    omega

-- In the receive direction a lookup returns only the stream of the ID asked for, and a peer
-- ID below the next one of its direction whose stream is gone gives -ENOSTR.
theorem quicStreamGet_recv_id {isServ : Bool} {t : QuicStreamTable} (hinv : StreamInv isServ t)
    {streamId : Int} {flags : Nat} {alloc : Bool} {s : QuicStream}
    (h : (quicStreamGet t streamId flags isServ false alloc).1 = .ok s) : s.id = streamId := by
  unfold quicStreamGet at h
  split at h
  · cases h
  split at h
  · rename_i stream hfind
    split at h
    · cases h
    · cases h
      simpa using List.find?_some hfind
  simp only [Bool.not_false, true_and, Bool.false_eq_true, false_and, ↓reduceIte] at h
  split at h
  · cases h
  rename_i hlocal
  split at h
  · cases h
  rename_i hclosed
  split at h
  · cases h
  split at h
  · cases h
  · rename_i stream t' hcreate
    cases alloc
    · simp [quicStreamCreate] at hcreate
    · have hs : s = stream := by split at h <;> cases h <;> rfl
      subst hs
      simp only [quicStreamIdClosed, QuicStreamTable.limits_false] at hclosed
      exact quicStreamCreate_recv_last hinv (by simpa using hlocal)
        (fun hlt => hclosed (decide_eq_true hlt)) (congrArg Prod.fst hcreate)

theorem quicStreamGet_recv_closed {isServ : Bool} {t : QuicStreamTable} {streamId : Int}
    (hpeer : quicStreamIdLocal streamId isServ = false) (hfind : quicStreamFind t streamId = none)
    (hlt : streamId < (t.recv.dir (quicStreamIdUni streamId)).nextStreamId) (flags : Nat)
    (alloc : Bool) : (quicStreamGet t streamId flags isServ false alloc).1 = .error (-ENOSTR) := by
  simp [quicStreamGet, quicStreamIdValid_recv_of_peer hpeer, hfind, hpeer, quicStreamIdClosed, hlt]

-- A locally opened stream that is gone gives -ENOSTR in each direction it has.
theorem quicStreamGet_local_closed {isServ send : Bool} {t : QuicStreamTable} {streamId : Int}
    (hlocal : quicStreamIdLocal streamId isServ = true)
    (hvalid : quicStreamIdValid streamId isServ send = true) (hfind : quicStreamFind t streamId = none)
    (hlt : streamId < (t.send.dir (quicStreamIdUni streamId)).nextStreamId) (flags : Nat)
    (alloc : Bool) : (quicStreamGet t streamId flags isServ send alloc).1 = .error (-ENOSTR) := by
  cases send <;> simp [quicStreamGet, hvalid, hfind, hlocal, quicStreamIdClosed, hlt]

-- A server with the default parameters on both sides. Asked by the application to open the
-- client's bidi stream 4, `quic_stream_get` takes the server's own send limits, opens stream 1
-- and returns it. After the client's stream 4 has been opened, finished and released, a late
-- MAX_STREAM_DATA or STOP_SENDING for it looks it up in the send direction, where the closed
-- test reads the server's next bidi ID 1, and gets -EINVAL (a STREAM_STATE error), while the
-- receive direction rightly gives -ENOSTR.
theorem quicStreamGet_peer_bidi_misclassified :
    let t : QuicStreamTable := quicStreamSetParam
      (quicStreamSetParam quicStreamInit quicDefaultParam true) { quicDefaultParam with remote := true } true
    let stream : QuicStream := { quicStreamNew t false true 4 with
      sendState := QUIC_STREAM_SEND_STATE_RECVD, recvState := QUIC_STREAM_RECV_STATE_READ }
    let t' : QuicStreamTable :=
      quicStreamPut (((quicStreamGet t 4 0 true false true).2).update stream) stream true false
    Reachable (StreamInit true) (StreamStep true) t ∧
      quicStreamIdLocal 4 true = false ∧
      (quicStreamGet t 4 MSG_QUIC_STREAM_NEW true true true).1.map QuicStream.id = .ok 1 ∧
      Reachable (StreamInit true) (StreamStep true) t' ∧
      quicStreamFind t' 4 = none ∧ 4 < (t'.recv.dir false).nextStreamId ∧
      (quicStreamGet t' 4 0 true false true).1 = .error (-ENOSTR) ∧
      (quicStreamGet t' 4 0 true true true).1 = .error (-EINVAL) := by
  intro t stream t'
  have ht : Reachable (StreamInit true) (StreamStep true) t :=
    (Reachable.of_init ⟨quicDefaultParam, rfl, rfl⟩).tail (StreamStep.setParam _ _ rfl)
  have ht₁ := ht.tail (StreamStep.get _ 4 0 true (by decide))
  have ht₂ := ht₁.tail (StreamStep.state _ (quicStreamNew t false true 4)
    QUIC_STREAM_SEND_STATE_RECVD QUIC_STREAM_RECV_STATE_READ (by decide))
  have ht' := ht₂.tail (StreamStep.put _ stream false (by decide) (by decide))
  exact ⟨ht, rfl, rfl, ht', by decide, by decide, by decide, by decide⟩

end Quic
