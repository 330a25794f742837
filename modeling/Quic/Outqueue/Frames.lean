import Quic.Lib.OrderedList
import Quic.Lib.Reachable
import Quic.Common.Varint
import Quic.Stream.Table

-- The STREAM frames of the outqueue: `stream_list`, `transmitted_list`, the `frame_array` of each
-- sent packet, `stream_list_len` and the send side of each stream. A frame is one object that
-- several of these refer to; `id` stands for its address.
namespace Quic.StreamFrames

-- The fields of `struct quic_frame` that the stream path reads. `offset` and `fin` are what the
-- frame's header encodes; every STREAM frame is at the application level.
structure QuicFrame where
  id : Nat
  stream : Int
  offset : Nat
  bytes : Nat
  len : Nat
  fin : Bool
  nodelay : Bool
  number : Int
  transmitted : Bool
  deriving DecidableEq, Repr

structure QuicOutqFrames where
  streamList : List QuicFrame
  transmittedList : List QuicFrame
  -- `packet_sent_list`: each packet's frames as it carried them
  packetSentList : List (List QuicFrame)
  streamListLen : Nat
  nextPn : Int
  nextId : Nat
  sendBytes : Int → Nat
  sendFrags : Int → Nat
  sendState : Int → Nat
  -- a history variable, no field of the source: each frame `quic_frame_stream_ack` ran for, as
  -- the acknowledged packet carried it
  acked : List QuicFrame

def quicOutqFramesInit : QuicOutqFrames :=
  ⟨[], [], [], 0, 0, 0, fun _ => 0, fun _ => 0, fun _ => QUIC_STREAM_SEND_STATE_READY, []⟩

-- The frames on one of the outqueue's lists, for which `list_empty(&frame->list)` fails.
def QuicOutqFrames.linked (s : QuicOutqFrames) : List QuicFrame := s.streamList ++ s.transmittedList

def QuicOutqFrames.find (s : QuicOutqFrames) (id : Nat) : Option QuicFrame :=
  s.linked.find? (·.id = id)

-- `list_del_init(&frame->list)`, whichever list the frame is on.
def QuicOutqFrames.unlink (s : QuicOutqFrames) (id : Nat) : QuicOutqFrames :=
  { s with streamList := s.streamList.filter (·.id ≠ id),
           transmittedList := s.transmittedList.filter (·.id ≠ id) }

-- `frame->len` of a STREAM frame: type, stream ID, the offset when it is not 0, the length and
-- the data.
def quicFrameStreamLen (stream : Int) (offset bytes : Nat) : Nat :=
  1 + quicVarLen stream.toNat + (if offset = 0 then 0 else quicVarLen offset) + quicVarLen bytes +
    bytes

-- `quic_frame_stream_create` once the message is cut to the flow control credit and the MSS:
-- `bytes` new bytes of `stream` from its send offset.
def quicFrameStreamCreate (s : QuicOutqFrames) (stream : Int) (bytes : Nat) (fin nodelay : Bool) :
    QuicFrame :=
  let offset := s.sendBytes stream
  ⟨s.nextId, stream, offset, bytes, quicFrameStreamLen stream offset bytes, fin, nodelay, -1, false⟩

-- The send state after a frame is queued: Ready becomes Send, and a FIN makes it Sent.
def quicStreamSendStateQueued (state : Nat) (fin : Bool) : Nat :=
  let state := if state = QUIC_STREAM_SEND_STATE_READY then QUIC_STREAM_SEND_STATE_SEND else state
  if fin ∧ state = QUIC_STREAM_SEND_STATE_SEND then QUIC_STREAM_SEND_STATE_SENT else state

def quicOutqStreamTail (s : QuicOutqFrames) (frame : QuicFrame) : QuicOutqFrames :=
  let stream := frame.stream
  { s with streamList := s.streamList ++ [frame],
           streamListLen := (s.streamListLen + frame.len) % 2 ^ 32,
           nextId := s.nextId + 1,
           sendBytes := Function.update s.sendBytes stream (s.sendBytes stream + frame.bytes),
           sendFrags := Function.update s.sendFrags stream (s.sendFrags stream + 1),
           sendState := Function.update s.sendState stream
             (quicStreamSendStateQueued (s.sendState stream) frame.fin) }

-- `quic_frame_stream_append`: the header is written again with the offset taken as the stream's
-- send offset less the frame's bytes.
def quicFrameStreamAppend (s : QuicOutqFrames) (frame : QuicFrame) (bytes : Nat) (fin nodelay : Bool) :
    QuicFrame :=
  let offset := s.sendBytes frame.stream - frame.bytes
  { frame with offset := offset, bytes := frame.bytes + bytes,
               len := quicFrameStreamLen frame.stream offset (frame.bytes + bytes),
               fin := frame.fin || fin, nodelay := nodelay }

-- `quic_outq_stream_append` with `pack` set.
def quicOutqStreamAppend (s : QuicOutqFrames) (stream : Int) (bytes : Nat) (fin nodelay : Bool) :
    Except Int QuicOutqFrames :=
  match s.streamList.getLast? with
  | none => .error (-ENOENT)
  | some frame =>
    if frame.stream ≠ stream ∨ frame.nodelay ∨ 0 ≤ frame.number then .error (-EINVAL)
    else
      let frame' := quicFrameStreamAppend s frame bytes fin nodelay
      .ok { s with streamList := s.streamList.dropLast ++ [frame'],
                   streamListLen := (s.streamListLen + (frame'.len - frame.len)) % 2 ^ 32,
                   sendBytes := Function.update s.sendBytes stream (s.sendBytes stream + bytes),
                   sendState := Function.update s.sendState stream
                     (if frame'.fin ∧ s.sendState stream = QUIC_STREAM_SEND_STATE_SEND then
                       QUIC_STREAM_SEND_STATE_SENT else s.sendState stream) }

-- `quic_outq_transmitted_tail` for an application-level frame: before the first frame first sent
-- in a later packet.
def quicOutqTransmittedTail (list : List QuicFrame) (frame : QuicFrame) : List QuicFrame :=
  let after := fun pos : QuicFrame => !decide (frame.number < pos.number)
  list.takeWhile after ++ { frame with transmitted := true } :: list.dropWhile after

-- A frame sent for the first time takes the number of its packet.
def QuicFrame.numbered (n : Int) (f : QuicFrame) : QuicFrame :=
  if f.number < 0 then { f with number := n } else f

-- The frame part of `quic_packet_pack_frames`: the packet takes the next number, and each frame
-- goes on `transmitted_list` and into the packet's `frame_array`.
def quicPacketPackFrames (s : QuicOutqFrames) (frames : List QuicFrame) : QuicOutqFrames :=
  let number := s.nextPn
  let frames := frames.map (QuicFrame.numbered number)
  { s with nextPn := number + 1,
           transmittedList := frames.foldl quicOutqTransmittedTail s.transmittedList,
           packetSentList := s.packetSentList ++ [frames] }

-- `quic_outq_transmit_stream` for one packet: `quic_packet_tail` moves the first `n` frames of
-- `stream_list` into it, each leaving the count, and the packet is sent.
def quicOutqTransmitStream (s : QuicOutqFrames) (n : Nat) : QuicOutqFrames :=
  let frames := s.streamList.take n
  quicPacketPackFrames
    { s with streamList := s.streamList.drop n,
             streamListLen := frames.foldl (fun len f => toU32 ((len : Int) - f.len)) s.streamListLen }
    frames

-- `quic_outq_transmit_old` for one packet: the frames of `transmitted_list` it picks are sent
-- again.
def quicOutqTransmitOld (s : QuicOutqFrames) (ids : List Nat) : QuicOutqFrames :=
  let pick := fun f : QuicFrame => ids.contains f.id
  quicPacketPackFrames { s with transmittedList := s.transmittedList.filter (!pick ·) }
    (s.transmittedList.filter pick)

-- `quic_frame_stream_ack`.
def quicFrameStreamAck (s : QuicOutqFrames) (frame : QuicFrame) : QuicOutqFrames :=
  let frags := s.sendFrags frame.stream - 1
  let s := { s with sendFrags := Function.update s.sendFrags frame.stream frags }
  if frags ≠ 0 ∨ s.sendState frame.stream ≠ QUIC_STREAM_SEND_STATE_SENT then s
  else { s with sendState := Function.update s.sendState frame.stream QUIC_STREAM_SEND_STATE_RECVD }

-- `quic_frame_ack`: the frame's handler runs, then it leaves whatever list it is on.
def quicFrameAck (s : QuicOutqFrames) (frame : QuicFrame) : QuicOutqFrames :=
  (quicFrameStreamAck s frame).unlink frame.id

-- One frame of `quic_outq_psent_sack_frames`: a frame still on a list is acknowledged; one
-- already unlinked was acknowledged through another packet.
def quicOutqPsentSackFrame (s : QuicOutqFrames) (carried : QuicFrame) : QuicOutqFrames :=
  match s.find carried.id with
  | none => s
  | some frame => { quicFrameAck s frame with acked := s.acked ++ [carried] }

def quicOutqPsentSackFrames (s : QuicOutqFrames) (frames : List QuicFrame) : QuicOutqFrames :=
  frames.foldl quicOutqPsentSackFrame s

-- `quic_outq_retransmit_frame` for a STREAM frame: back on `stream_list` before the first frame
-- never sent or first sent in a later packet.
def quicOutqRetransmitFrame (s : QuicOutqFrames) (frame : QuicFrame) : QuicOutqFrames :=
  let after := fun pos : QuicFrame => !(decide (pos.number < 0) || decide (frame.number < pos.number))
  { s with streamList := s.streamList.takeWhile after ++ frame :: s.streamList.dropWhile after,
           streamListLen := (s.streamListLen + frame.len) % 2 ^ 32 }

-- One frame of `quic_outq_psent_retransmit_frames`: a frame already acknowledged, or already
-- queued again, is left where it is.
def quicOutqPsentRetransmitFrame (s : QuicOutqFrames) (carried : QuicFrame) : QuicOutqFrames :=
  match s.find carried.id with
  | none => s
  | some frame =>
    if !frame.transmitted then s
    else quicOutqRetransmitFrame (s.unlink frame.id) { frame with transmitted := false }

def quicOutqPsentRetransmitFrames (s : QuicOutqFrames) (frames : List QuicFrame) : QuicOutqFrames :=
  frames.foldl quicOutqPsentRetransmitFrame s

-- A sent packet leaves `packet_sent_list` when it is acknowledged or declared lost.
def quicOutqTransmittedSack (s : QuicOutqFrames) (i : Nat) : QuicOutqFrames :=
  quicOutqPsentSackFrames { s with packetSentList := s.packetSentList.eraseIdx i }
    (s.packetSentList.getD i [])

def quicOutqRetransmitMark (s : QuicOutqFrames) (i : Nat) : QuicOutqFrames :=
  quicOutqPsentRetransmitFrames { s with packetSentList := s.packetSentList.eraseIdx i }
    (s.packetSentList.getD i [])

/-! ## Runs -/

-- What a connection does with its STREAM frames: a sendmsg queues a new frame or appends to the
-- last one, packets are sent from `stream_list` or again from `transmitted_list`, and any sent
-- packet may be acknowledged or declared lost.
inductive QuicFrameCall where
  | tail (stream : Int) (bytes : Nat) (fin nodelay : Bool)
  | append (stream : Int) (bytes : Nat) (fin nodelay : Bool)
  | transmitStream (n : Nat)
  | transmitOld (ids : List Nat)
  | sack (i : Nat)
  | lost (i : Nat)
  deriving DecidableEq, Repr

def QuicFrameCall.apply (s : QuicOutqFrames) : QuicFrameCall → QuicOutqFrames
  | .tail stream bytes fin nodelay => quicOutqStreamTail s (quicFrameStreamCreate s stream bytes fin nodelay)
  | .append stream bytes fin nodelay =>
    match quicOutqStreamAppend s stream bytes fin nodelay with
    | .ok s' => s'
    | .error _ => s
  | .transmitStream n => quicOutqTransmitStream s n
  | .transmitOld ids => quicOutqTransmitOld s ids
  | .sack i => quicOutqTransmittedSack s i
  | .lost i => quicOutqRetransmitMark s i

-- `quic_sock_send_stream` refuses a stream whose send side is Sent or later, and a packet holds
-- at least one frame.
def QuicFrameCall.allowed (s : QuicOutqFrames) : QuicFrameCall → Bool
  | .tail stream _ _ _ => s.sendState stream < QUIC_STREAM_SEND_STATE_SENT
  | .append stream _ _ _ => s.sendState stream < QUIC_STREAM_SEND_STATE_SENT
  | .transmitStream n => 0 < n && n ≤ s.streamList.length
  | .transmitOld ids => s.transmittedList.any (fun f => ids.contains f.id)
  | .sack i => i < s.packetSentList.length
  | .lost i => i < s.packetSentList.length

def FrameStep (s t : QuicOutqFrames) : Prop :=
  ∃ call : QuicFrameCall, call.allowed s ∧ t = call.apply s

def FrameInit (s : QuicOutqFrames) : Prop := s = quicOutqFramesInit

theorem frameStep_of_allowed (s : QuicOutqFrames) (call : QuicFrameCall) (h : call.allowed s = true) :
    FrameStep s (call.apply s) :=
  ⟨call, h, rfl⟩

/-! ## What the operations do to the frames -/

-- A frame apart from where it sits and whether it was sent: its address and what it carries.
def QuicFrame.key (f : QuicFrame) : Nat × Int × Nat × Nat × Bool :=
  (f.id, f.stream, f.offset, f.bytes, f.fin)

@[simp] theorem QuicFrame.key_numbered (n : Int) (f : QuicFrame) : (f.numbered n).key = f.key := by
  unfold QuicFrame.numbered
  split <;> rfl

@[simp] theorem QuicFrame.id_numbered (n : Int) (f : QuicFrame) : (f.numbered n).id = f.id := by
  unfold QuicFrame.numbered
  split <;> rfl

theorem QuicFrame.number_numbered {n : Int} (hn : 0 ≤ n) (f : QuicFrame) :
    0 ≤ (f.numbered n).number := by
  unfold QuicFrame.numbered
  split
  · exact hn
  · omega

theorem QuicFrame.stream_eq_of_key {f g : QuicFrame} (h : f.key = g.key) :
    f.id = g.id ∧ f.stream = g.stream ∧ f.offset = g.offset ∧ f.bytes = g.bytes ∧ f.fin = g.fin := by
  simpa [QuicFrame.key] using h

theorem quicOutqTransmittedTail_perm (l : List QuicFrame) (f : QuicFrame) :
    (quicOutqTransmittedTail l f).Perm (l ++ [{ f with transmitted := true }]) := by
  unfold quicOutqTransmittedTail
  dsimp only
  refine List.perm_middle.trans ?_
  rw [List.takeWhile_append_dropWhile]
  exact (List.perm_append_singleton _ _).symm

theorem foldl_quicOutqTransmittedTail_perm :
    ∀ (frames l : List QuicFrame), (frames.foldl quicOutqTransmittedTail l).Perm
      (l ++ frames.map (fun f => { f with transmitted := true }))
  | [], l => by simp
  | f :: frames, l => by
    have ih := foldl_quicOutqTransmittedTail_perm frames (quicOutqTransmittedTail l f)
    rw [List.foldl_cons, List.map_cons, ← List.singleton_append, ← List.append_assoc]
    exact ih.trans ((quicOutqTransmittedTail_perm l f).append_right _)

section Pack

variable (s : QuicOutqFrames) (frames : List QuicFrame)

@[simp] theorem quicPacketPackFrames_streamList : (quicPacketPackFrames s frames).streamList = s.streamList := rfl
@[simp] theorem quicPacketPackFrames_acked : (quicPacketPackFrames s frames).acked = s.acked := rfl
@[simp] theorem quicPacketPackFrames_nextId : (quicPacketPackFrames s frames).nextId = s.nextId := rfl
@[simp] theorem quicPacketPackFrames_nextPn : (quicPacketPackFrames s frames).nextPn = s.nextPn + 1 := rfl
@[simp] theorem quicPacketPackFrames_sendBytes : (quicPacketPackFrames s frames).sendBytes = s.sendBytes := rfl
@[simp] theorem quicPacketPackFrames_sendFrags : (quicPacketPackFrames s frames).sendFrags = s.sendFrags := rfl
@[simp] theorem quicPacketPackFrames_sendState : (quicPacketPackFrames s frames).sendState = s.sendState := rfl
@[simp] theorem quicPacketPackFrames_packetSentList :
    (quicPacketPackFrames s frames).packetSentList =
      s.packetSentList ++ [frames.map (QuicFrame.numbered s.nextPn)] := rfl

-- The packed frames join the linked ones, numbered and marked as transmitted.
theorem quicPacketPackFrames_linked :
    (quicPacketPackFrames s frames).linked.Perm
      (s.linked ++ (frames.map (QuicFrame.numbered s.nextPn)).map
        (fun f => { f with transmitted := true })) := by
  unfold QuicOutqFrames.linked
  rw [List.append_assoc]
  exact (foldl_quicOutqTransmittedTail_perm _ _).append_left _

end Pack

/-! ## The invariant -/

-- Byte `b` of stream `S` is one that `f` carries.
def QuicFrame.Covers (f : QuicFrame) (S : Int) (b : Nat) : Prop :=
  f.stream = S ∧ f.offset ≤ b ∧ b < f.offset + f.bytes

theorem QuicFrame.covers_of_key {f g : QuicFrame} (h : g.key = f.key) {S : Int} {b : Nat}
    (hf : f.Covers S b) : g.Covers S b := by
  obtain ⟨-, hs, ho, hb, -⟩ := QuicFrame.stream_eq_of_key h
  unfold QuicFrame.Covers at hf ⊢
  rw [hs, ho, hb]
  exact hf

theorem exists_key_of_perm {l l' : List QuicFrame}
    (h : (l.map QuicFrame.key).Perm (l'.map QuicFrame.key)) {f : QuicFrame} (hf : f ∈ l) :
    ∃ g ∈ l', g.key = f.key :=
  List.mem_map.1 (h.mem_iff.1 (List.mem_map_of_mem hf))

-- Each frame a packet carried that is still on a list is unchanged since, and numbered.
def CarriedBy (s : QuicOutqFrames) (p : List QuicFrame) : Prop :=
  ∀ g ∈ p, ∀ f ∈ s.linked, f.id = g.id → f.key = g.key ∧ 0 ≤ f.number

-- What the frames' keys tell: every frame queued is on a list or acknowledged, never both, the
-- fragment count of each stream, that every byte queued is in a frame, and the FIN of a stream
-- that is Sent or later.
structure FrameKeyInv (s : QuicOutqFrames) : Prop where
  nodup : ((s.linked ++ s.acked).map (·.id)).Nodup
  id_lt : ∀ f ∈ s.linked ++ s.acked, f.id < s.nextId
  queued : ∀ i < s.nextId, ∃ f ∈ s.linked ++ s.acked, f.id = i
  frags : ∀ S, s.sendFrags S = s.linked.countP (fun f => f.stream = S)
  covered : ∀ S b, b < s.sendBytes S → ∃ f ∈ s.linked ++ s.acked, f.Covers S b
  fin : ∀ S, QUIC_STREAM_SEND_STATE_SENT ≤ s.sendState S →
    ∃ f ∈ s.linked ++ s.acked, f.stream = S ∧ f.fin
  state_le : ∀ S, s.sendState S ≤ QUIC_STREAM_SEND_STATE_RECVD
  recvd : ∀ S, s.sendState S = QUIC_STREAM_SEND_STATE_RECVD → ∀ f ∈ s.linked, f.stream ≠ S

-- And what ties the frames to the packets and to the order of `stream_list`: frames never sent
-- end the list, and the last of them ends at its stream's send offset.
structure FrameInv (s : QuicOutqFrames) : Prop extends FrameKeyInv s where
  sent_id_lt : ∀ p ∈ s.packetSentList, ∀ g ∈ p, g.id < s.nextId
  pn_nonneg : 0 ≤ s.nextPn
  carried : ∀ p ∈ s.packetSentList, CarriedBy s p
  unsent_last : s.streamList.Pairwise (fun a b => a.number < 0 → b.number < 0)
  newest : ∀ f ∈ s.streamList.getLast?, f.number < 0 → f.offset + f.bytes = s.sendBytes f.stream

theorem ids_nodup_of_perm {l l' : List QuicFrame}
    (h : (l.map QuicFrame.key).Perm (l'.map QuicFrame.key)) (hl' : (l'.map (·.id)).Nodup) :
    (l.map (·.id)).Nodup := by
  have hids (l : List QuicFrame) : l.map (·.id) = (l.map QuicFrame.key).map Prod.fst := by
    rw [List.map_map]
    rfl
  rw [hids]
  exact (h.map Prod.fst).nodup_iff.2 (hids _ ▸ hl')

-- Frames that only move between lists or take a number keep what their keys tell.
theorem FrameKeyInv.of_perm {s t : QuicOutqFrames} (hs : FrameKeyInv s)
    (hkeys : (t.linked.map QuicFrame.key).Perm (s.linked.map QuicFrame.key))
    (hacked : t.acked = s.acked) (hid : t.nextId = s.nextId) (hbytes : t.sendBytes = s.sendBytes)
    (hfrags : t.sendFrags = s.sendFrags) (hstate : t.sendState = s.sendState) : FrameKeyInv t := by
  have hall : ((t.linked ++ t.acked).map QuicFrame.key).Perm
      ((s.linked ++ s.acked).map QuicFrame.key) := by
    rw [List.map_append, List.map_append, hacked]
    exact hkeys.append_right _
  have hcount (S : Int) (l : List QuicFrame) : l.countP (fun f => f.stream = S) =
      (l.map QuicFrame.key).countP (fun k => k.2.1 = S) := by
    rw [List.countP_map]
    rfl
  refine ⟨?_, ?_, ?_, ?_, ?_, ?_, ?_, ?_⟩
  · exact ids_nodup_of_perm hall hs.nodup
  · intro f hf
    obtain ⟨g, hg, hgf⟩ := exists_key_of_perm hall hf
    rw [hid, ← (QuicFrame.stream_eq_of_key hgf).1]
    exact hs.id_lt g hg
  · intro i hi
    rw [hid] at hi
    obtain ⟨f, hf, hfi⟩ := hs.queued i hi
    obtain ⟨g, hg, hgf⟩ := exists_key_of_perm hall.symm hf
    exact ⟨g, hg, (QuicFrame.stream_eq_of_key hgf).1.trans hfi⟩
  · intro S
    rw [hfrags, hs.frags, hcount, hcount, hkeys.countP_eq]
  · intro S b hb
    rw [hbytes] at hb
    obtain ⟨f, hf, hcov⟩ := hs.covered S b hb
    obtain ⟨g, hg, hgf⟩ := exists_key_of_perm hall.symm hf
    exact ⟨g, hg, QuicFrame.covers_of_key hgf hcov⟩
  · intro S hS
    rw [hstate] at hS
    obtain ⟨f, hf, hfs, hfin⟩ := hs.fin S hS
    obtain ⟨g, hg, hgf⟩ := exists_key_of_perm hall.symm hf
    obtain ⟨-, hgs, -, -, hgfin⟩ := QuicFrame.stream_eq_of_key hgf
    exact ⟨g, hg, hgs.trans hfs, hgfin.trans hfin⟩
  · intro S
    rw [hstate]
    exact hs.state_le S
  · intro S hS f hf
    rw [hstate] at hS
    obtain ⟨g, hg, hgf⟩ := exists_key_of_perm hkeys hf
    rw [← (QuicFrame.stream_eq_of_key hgf).2.1]
    exact hs.recvd S hS g hg

theorem frameInv_init : FrameInv quicOutqFramesInit := by
  refine ⟨⟨?_, ?_, ?_, ?_, ?_, ?_, ?_, ?_⟩, ?_, ?_, ?_, ?_, ?_⟩ <;>
    simp [quicOutqFramesInit, QuicOutqFrames.linked, QUIC_STREAM_SEND_STATE_READY,
      QUIC_STREAM_SEND_STATE_SENT, QUIC_STREAM_SEND_STATE_RECVD]

/-! ## Queueing -/

theorem quicStreamSendStateQueued_le {state : Nat} (h : state < QUIC_STREAM_SEND_STATE_SENT)
    (fin : Bool) :
    quicStreamSendStateQueued state fin ≤ QUIC_STREAM_SEND_STATE_SENT ∧
      (QUIC_STREAM_SEND_STATE_SENT ≤ quicStreamSendStateQueued state fin → fin = true) := by
  simp only [QUIC_STREAM_SEND_STATE_SENT] at h
  obtain rfl | rfl : state = 0 ∨ state = 1 := by omega
  all_goals cases fin <;> decide

theorem frameInv_tail {s : QuicOutqFrames} (hs : FrameInv s) {S : Int}
    (hS : s.sendState S < QUIC_STREAM_SEND_STATE_SENT) (bytes : Nat) (fin nodelay : Bool) :
    FrameInv (quicOutqStreamTail s (quicFrameStreamCreate s S bytes fin nodelay)) := by
  set frame := quicFrameStreamCreate s S bytes fin nodelay with hframe
  set t := quicOutqStreamTail s frame with ht
  have hstream : frame.stream = S := rfl
  have hmem : ∀ f, f ∈ t.linked ++ t.acked ↔ f ∈ s.linked ++ s.acked ∨ f = frame := by
    intro f
    simp only [ht, quicOutqStreamTail, QuicOutqFrames.linked, List.mem_append, List.mem_singleton]
    tauto
  have hfresh : ∀ f ∈ s.linked ++ s.acked, f.id ≠ frame.id := fun f hf => (hs.id_lt f hf).ne
  have hqueued := quicStreamSendStateQueued_le hS fin
  have hbytes (S' : Int) : t.sendBytes S' =
      if S' = S then s.sendBytes S + bytes else s.sendBytes S' := Function.update_apply ..
  have hstate (S' : Int) : t.sendState S' = if S' = S then
      quicStreamSendStateQueued (s.sendState S) fin else s.sendState S' := Function.update_apply ..
  refine ⟨⟨?_, ?_, ?_, ?_, ?_, ?_, ?_, ?_⟩, ?_, ?_, ?_, ?_, ?_⟩
  · -- the new frame takes the next address, which no frame has
    have hperm : (t.linked ++ t.acked).Perm (frame :: (s.linked ++ s.acked)) := by
      simp only [ht, quicOutqStreamTail, QuicOutqFrames.linked, List.append_assoc,
        List.singleton_append]
      exact List.perm_middle
    refine (hperm.map _).nodup_iff.2 (List.nodup_cons.2 ⟨?_, hs.nodup⟩)
    intro hin
    obtain ⟨f, hf, hfid⟩ := List.mem_map.1 hin
    exact hfresh f hf hfid
  · intro f hf
    rcases (hmem f).1 hf with hf | rfl
    · exact Nat.lt_succ_of_lt (hs.id_lt f hf)
    · exact Nat.lt_succ_self _
  · intro i hi
    rcases Nat.lt_succ_iff_lt_or_eq.1 hi with hi | rfl
    · obtain ⟨f, hf, hfi⟩ := hs.queued i hi
      exact ⟨f, (hmem f).2 (.inl hf), hfi⟩
    · exact ⟨frame, (hmem frame).2 (.inr rfl), rfl⟩
  · intro S'
    have hcount : t.linked.countP (fun f => f.stream = S') =
        s.linked.countP (fun f => f.stream = S') + if S = S' then 1 else 0 := by
      simp only [ht, quicOutqStreamTail, QuicOutqFrames.linked, List.countP_append,
        List.countP_singleton, hstream]
      by_cases h : S = S'
      · simp only [h, decide_true, if_true]
        omega
      · simp [h]
    rw [hcount, ← hs.frags S']
    show Function.update s.sendFrags S (s.sendFrags S + 1) S' = _
    by_cases h : S' = S
    · subst h
      simp
    · simp [h, Ne.symm h]
  · intro S' b hb
    rw [hbytes] at hb
    by_cases hS' : S' = S
    · subst hS'
      by_cases hold : b < s.sendBytes S'
      · obtain ⟨f, hf, hcov⟩ := hs.covered S' b hold
        exact ⟨f, (hmem f).2 (.inl hf), hcov⟩
      · -- the new bytes are the new frame's
        rw [if_pos rfl] at hb
        exact ⟨frame, (hmem frame).2 (.inr rfl), rfl, by simp [hframe, quicFrameStreamCreate]; omega,
          by simp [hframe, quicFrameStreamCreate]; omega⟩
    · rw [if_neg hS'] at hb
      obtain ⟨f, hf, hcov⟩ := hs.covered S' b hb
      exact ⟨f, (hmem f).2 (.inl hf), hcov⟩
  · intro S' hS'
    rw [hstate] at hS'
    by_cases hSS : S' = S
    · subst hSS
      rw [if_pos rfl] at hS'
      exact ⟨frame, (hmem frame).2 (.inr rfl), rfl, hqueued.2 hS'⟩
    · rw [if_neg hSS] at hS'
      obtain ⟨f, hf, hfs⟩ := hs.fin S' hS'
      exact ⟨f, (hmem f).2 (.inl hf), hfs⟩
  · intro S'
    rw [hstate]
    split_ifs
    · exact hqueued.1.trans (by decide)
    · exact hs.state_le S'
  · intro S' hS' f hf
    rw [hstate] at hS'
    by_cases hSS : S' = S
    · rw [if_pos hSS] at hS'
      have := hqueued.1
      rw [hS'] at this
      exact absurd this (by decide)
    · rw [if_neg hSS] at hS'
      have hf' : f ∈ s.linked ∨ f = frame := by
        simp only [ht, quicOutqStreamTail, QuicOutqFrames.linked, List.mem_append,
          List.mem_singleton] at hf ⊢
        tauto
      rcases hf' with hf' | rfl
      · exact hs.recvd S' hS' f hf'
      · exact fun h => hSS (h ▸ hstream)
  · intro p hp g hg
    exact Nat.lt_succ_of_lt (hs.sent_id_lt p hp g hg)
  · exact hs.pn_nonneg
  · -- no packet carried the new frame
    intro p hp g hg f hf hfg
    have hf' : f ∈ s.linked ∨ f = frame := by
      simp only [ht, quicOutqStreamTail, QuicOutqFrames.linked, List.mem_append,
        List.mem_singleton] at hf ⊢
      tauto
    rcases hf' with hf' | rfl
    · exact hs.carried p hp g hg f hf' hfg
    · exact absurd hfg (ne_of_gt (hs.sent_id_lt p hp g hg))
  · simp only [ht, quicOutqStreamTail]
    refine List.pairwise_append.2 ⟨hs.unsent_last, List.pairwise_singleton _ _, ?_⟩
    intro _ _ b hb _
    rw [List.mem_singleton.1 hb]
    exact (show (-1 : Int) < 0 by decide)
  · intro f hf _
    simp only [ht, quicOutqStreamTail, List.getLast?_concat, Option.mem_some_iff] at hf
    subst hf
    simp [ht, quicOutqStreamTail, hframe, quicFrameStreamCreate]

theorem quicOutqStreamAppend_ok {s t : QuicOutqFrames} {S : Int} {bytes : Nat} {fin nodelay : Bool}
    (h : quicOutqStreamAppend s S bytes fin nodelay = .ok t) :
    ∃ frame ∈ s.streamList.getLast?, frame.stream = S ∧ frame.number < 0 ∧
      t = { s with
        streamList := s.streamList.dropLast ++ [quicFrameStreamAppend s frame bytes fin nodelay],
        streamListLen := (s.streamListLen +
          ((quicFrameStreamAppend s frame bytes fin nodelay).len - frame.len)) % 2 ^ 32,
        sendBytes := Function.update s.sendBytes S (s.sendBytes S + bytes),
        sendState := Function.update s.sendState S
          (if (quicFrameStreamAppend s frame bytes fin nodelay).fin ∧
              s.sendState S = QUIC_STREAM_SEND_STATE_SEND then
            QUIC_STREAM_SEND_STATE_SENT else s.sendState S) } := by
  unfold quicOutqStreamAppend at h
  split at h
  · cases h
  · next frame hlast =>
    -- the refusing branch is closed by `split_ifs`, as it cannot give `.ok`
    split_ifs at h with hcheck
    cases h
    exact ⟨frame, hlast, by simp_all, by simp_all, rfl⟩

theorem frameInv_append {s t : QuicOutqFrames} (hs : FrameInv s) {S : Int}
    (hS : s.sendState S < QUIC_STREAM_SEND_STATE_SENT) {bytes : Nat} {fin nodelay : Bool}
    (h : quicOutqStreamAppend s S bytes fin nodelay = .ok t) : FrameInv t := by
  obtain ⟨F, hlast, hFS, hFnum, ht⟩ := quicOutqStreamAppend_ok h
  set F' := quicFrameStreamAppend s F bytes fin nodelay with hF'
  set L0 := s.streamList.dropLast
  have hsplit : s.streamList = L0 ++ [F] := (List.dropLast_append_getLast? F hlast).symm
  have hend : F.offset + F.bytes = s.sendBytes S := hFS ▸ hs.newest F hlast hFnum
  have hF'id : F'.id = F.id := rfl
  have hF'stream : F'.stream = S := hFS
  have hF'offset : F'.offset = F.offset := by simp only [hF', quicFrameStreamAppend, hFS]; omega
  have hF'bytes : F'.bytes = F.bytes + bytes := rfl
  have hF : F ∈ s.linked := List.mem_append_left _ (List.mem_of_mem_getLast? hlast)
  -- a frame never sent is in no packet
  have hFfree : ∀ p ∈ s.packetSentList, ∀ g ∈ p, g.id ≠ F.id := fun p hp g hg hgF =>
    absurd (hs.carried p hp g hg F hF hgF.symm).2 (by omega)
  have hlinked : s.linked = L0 ++ F :: s.transmittedList := by
    simp [QuicOutqFrames.linked, hsplit]
  have htstream : t.streamList = L0 ++ [F'] := by rw [ht]
  have htl : t.linked = L0 ++ F' :: s.transmittedList := by
    simp [ht, QuicOutqFrames.linked, L0, F']
  have hacked : t.acked = s.acked := by rw [ht]
  have hpackets : t.packetSentList = s.packetSentList := by rw [ht]
  have hid : t.nextId = s.nextId := by rw [ht]
  have hbytes (S' : Int) : t.sendBytes S' =
      if S' = S then s.sendBytes S + bytes else s.sendBytes S' := by
    rw [ht]
    exact Function.update_apply ..
  have hstate (S' : Int) : t.sendState S' = if S' = S then
      (if F'.fin ∧ s.sendState S = QUIC_STREAM_SEND_STATE_SEND then QUIC_STREAM_SEND_STATE_SENT
        else s.sendState S) else s.sendState S' := by
    rw [ht]
    exact Function.update_apply ..
  have hstate_le : t.sendState S ≤ QUIC_STREAM_SEND_STATE_SENT := by
    rw [hstate, if_pos rfl]
    split_ifs <;> omega
  -- the appended frame takes the place of the old one
  have hback : ∀ f ∈ s.linked ++ s.acked, f = F ∨ f ∈ t.linked ++ t.acked := by
    intro f hf
    rw [hlinked] at hf
    rw [htl, hacked]
    simp only [List.mem_append, List.mem_cons] at hf ⊢
    tauto
  have hfwd : ∀ f ∈ t.linked, f = F' ∨ f ∈ s.linked := by
    intro f hf
    rw [htl] at hf
    rw [hlinked]
    simp only [List.mem_append, List.mem_cons] at hf ⊢
    tauto
  have hfwd' : ∀ f ∈ t.linked ++ t.acked, f = F' ∨ f ∈ s.linked ++ s.acked := by
    intro f hf
    rcases List.mem_append.1 hf with hf | hf
    · rcases hfwd f hf with rfl | hf
      · exact .inl rfl
      · exact .inr (List.mem_append_left _ hf)
    · exact .inr (List.mem_append_right _ (hacked ▸ hf))
  have hF't : F' ∈ t.linked ++ t.acked := by simp [htl]
  refine ⟨⟨?_, ?_, ?_, ?_, ?_, ?_, ?_, ?_⟩, ?_, ?_, ?_, ?_, ?_⟩
  · have hids : (t.linked ++ t.acked).map (·.id) = (s.linked ++ s.acked).map (·.id) := by
      rw [htl, hacked, hlinked]
      simp [hF'id]
    rw [hids]
    exact hs.nodup
  · intro f hf
    rw [hid]
    rcases hfwd' f hf with rfl | hf
    · exact hF'id ▸ hs.id_lt F (List.mem_append_left _ hF)
    · exact hs.id_lt f hf
  · intro i hi
    rw [hid] at hi
    obtain ⟨f, hf, hfi⟩ := hs.queued i hi
    rcases hback f hf with rfl | hf'
    · exact ⟨F', hF't, hF'id.trans hfi⟩
    · exact ⟨f, hf', hfi⟩
  · intro S'
    have hfrags : t.sendFrags = s.sendFrags := by rw [ht]
    rw [hfrags, hs.frags S', htl, hlinked]
    simp [List.countP_append, List.countP_cons, hF'stream, hFS]
  · intro S' b hb
    rw [hbytes] at hb
    by_cases hSS : S' = S
    · subst hSS
      rw [if_pos rfl] at hb
      by_cases hold : b < s.sendBytes S'
      · -- an old byte: the frame that had it still has it, the appended frame grown in place
        obtain ⟨f, hf, hcov⟩ := hs.covered S' b hold
        rcases hback f hf with rfl | hf'
        · refine ⟨F', hF't, hF'stream, ?_, ?_⟩
          · rw [hF'offset]
            exact hcov.2.1
          · rw [hF'offset, hF'bytes]
            have := hcov.2.2
            omega
        · exact ⟨f, hf', hcov⟩
      · refine ⟨F', hF't, hF'stream, ?_, ?_⟩ <;> omega
    · rw [if_neg hSS] at hb
      obtain ⟨f, hf, hcov⟩ := hs.covered S' b hb
      rcases hback f hf with rfl | hf'
      · exact absurd (hcov.1.symm.trans hFS) hSS
      · exact ⟨f, hf', hcov⟩
  · intro S' hS'
    rw [hstate] at hS'
    by_cases hSS : S' = S
    · subst hSS
      rw [if_pos rfl] at hS'
      split_ifs at hS' with hfin
      · exact ⟨F', hF't, hF'stream, hfin.1⟩
      · omega
    · rw [if_neg hSS] at hS'
      obtain ⟨f, hf, hfs, hfin⟩ := hs.fin S' hS'
      rcases hback f hf with rfl | hf'
      · exact absurd (hfs.symm.trans hFS) hSS
      · exact ⟨f, hf', hfs, hfin⟩
  · intro S'
    by_cases hSS : S' = S
    · subst hSS
      exact hstate_le.trans (by decide)
    · rw [hstate, if_neg hSS]
      exact hs.state_le S'
  · intro S' hS' f hf
    by_cases hSS : S' = S
    · subst hSS
      have := hstate_le
      rw [hS'] at this
      exact absurd this (by decide)
    · rw [hstate, if_neg hSS] at hS'
      rcases hfwd f hf with rfl | hf
      · exact fun h => hSS (h ▸ hF'stream)
      · exact hs.recvd S' hS' f hf
  · intro p hp g hg
    rw [hid]
    exact hs.sent_id_lt p (hpackets ▸ hp) g hg
  · rw [ht]
    exact hs.pn_nonneg
  · intro p hp g hg f hf hfg
    have hp' : p ∈ s.packetSentList := hpackets ▸ hp
    rcases hfwd f hf with rfl | hf
    · exact absurd (hF'id ▸ hfg).symm (hFfree p hp' g hg)
    · exact hs.carried p hp' g hg f hf hfg
  · have hold := hs.unsent_last
    rw [hsplit, List.pairwise_append] at hold
    rw [htstream, List.pairwise_append]
    exact ⟨hold.1, List.pairwise_singleton _ _, fun a ha b hb =>
      List.mem_singleton.1 hb ▸ hold.2.2 a ha F (List.mem_singleton_self F)⟩
  · intro f hf _
    rw [htstream, List.getLast?_concat, Option.mem_some_iff] at hf
    subst hf
    rw [hF'stream, hbytes, if_pos rfl, hF'offset, hF'bytes]
    omega

/-! ## Sending -/

theorem FrameInv.linked_ids_nodup {s : QuicOutqFrames} (hs : FrameInv s) :
    (s.linked.map (·.id)).Nodup := by
  have h := hs.nodup
  rw [List.map_append] at h
  exact h.of_append_left

-- Packing a packet moves frames between lists and numbers the new ones: the frames on a list
-- keep their keys.
theorem quicPacketPackFrames_keys (s : QuicOutqFrames) {streamList transmittedList frames : List QuicFrame}
    (len : Nat) (hlinked : (streamList ++ transmittedList ++ frames).Perm s.linked) :
    ((quicPacketPackFrames
      { s with streamList := streamList, transmittedList := transmittedList, streamListLen := len }
      frames).linked.map QuicFrame.key).Perm (s.linked.map QuicFrame.key) := by
  set s1 : QuicOutqFrames :=
    { s with streamList := streamList, transmittedList := transmittedList, streamListLen := len }
  set mark := fun f : QuicFrame => { f.numbered s.nextPn with transmitted := true }
  have hs1 : s1.linked = streamList ++ transmittedList := rfl
  have htl : (quicPacketPackFrames s1 frames).linked.Perm (s1.linked ++ frames.map mark) := by
    have h := quicPacketPackFrames_linked s1 frames
    rwa [List.map_map] at h
  refine (htl.map _).trans ?_
  rw [List.map_append, List.map_map, show QuicFrame.key ∘ mark = QuicFrame.key from
    funext (QuicFrame.key_numbered s.nextPn), ← List.map_append, hs1]
  exact hlinked.map _

-- A packet of frames taken off the lists: they are numbered and go on `transmitted_list`, and
-- the packet joins `packet_sent_list`.
theorem frameInv_pack {s : QuicOutqFrames} (hs : FrameInv s)
    {streamList transmittedList frames : List QuicFrame} (len : Nat)
    (hlinked : (streamList ++ transmittedList ++ frames).Perm s.linked)
    (hsub : streamList.Sublist s.streamList)
    (hlast : ∀ f ∈ streamList.getLast?, f.number < 0 → f ∈ s.streamList.getLast?) :
    FrameInv (quicPacketPackFrames
      { s with streamList := streamList, transmittedList := transmittedList, streamListLen := len }
      frames) := by
  set s1 : QuicOutqFrames :=
    { s with streamList := streamList, transmittedList := transmittedList, streamListLen := len }
  set t := quicPacketPackFrames s1 frames with ht
  set mark := fun f : QuicFrame => { f.numbered s.nextPn with transmitted := true }
  have hs1 : s1.linked = streamList ++ transmittedList := rfl
  have htl : t.linked.Perm (s1.linked ++ frames.map mark) := by
    have h := quicPacketPackFrames_linked s1 frames
    rwa [List.map_map] at h
  have hkey_mark : ∀ f, (mark f).key = f.key := fun f => QuicFrame.key_numbered s.nextPn f
  have hkeys : (t.linked.map QuicFrame.key).Perm (s.linked.map QuicFrame.key) :=
    quicPacketPackFrames_keys s len hlinked
  have hsubset : ∀ f ∈ s1.linked ++ frames, f ∈ s.linked := fun f hf => hlinked.subset (by
    rw [hs1] at hf
    exact hf)
  have hnd : ((s1.linked ++ frames).map (·.id)).Nodup := by
    rw [hs1]
    exact (hlinked.map _).nodup_iff.2 hs.linked_ids_nodup
  rw [List.map_append, List.nodup_append] at hnd
  have hmem : ∀ f ∈ t.linked, f ∈ s1.linked ∨ ∃ f0 ∈ frames, f = mark f0 := by
    intro f hf
    rcases List.mem_append.1 (htl.subset hf) with hf | hf
    · exact .inl hf
    · obtain ⟨f0, hf0, rfl⟩ := List.mem_map.1 hf
      exact .inr ⟨f0, hf0, rfl⟩
  have hmark_number : ∀ f0, 0 ≤ (mark f0).number := fun f0 =>
    QuicFrame.number_numbered hs.pn_nonneg f0
  refine ⟨FrameKeyInv.of_perm hs.toFrameKeyInv hkeys rfl rfl rfl rfl rfl, ?_, ?_, ?_, ?_, ?_⟩
  · intro p hp g hg
    rw [quicPacketPackFrames_packetSentList, List.mem_append, List.mem_singleton] at hp
    rcases hp with hp | rfl
    · exact hs.sent_id_lt p hp g hg
    · obtain ⟨g0, hg0, rfl⟩ := List.mem_map.1 hg
      rw [QuicFrame.id_numbered]
      exact hs.id_lt g0 (List.mem_append_left _ (hsubset g0 (List.mem_append_right _ hg0)))
  · exact Int.add_nonneg hs.pn_nonneg Int.one_nonneg
  · intro p hp g hg f hf hfg
    rw [quicPacketPackFrames_packetSentList, List.mem_append, List.mem_singleton] at hp
    rcases hp with hp | rfl
    · -- a packet sent before: the frame is one it carried, maybe numbered now
      rcases hmem f hf with hf1 | ⟨f0, hf0, rfl⟩
      · exact hs.carried p hp g hg f (hsubset f (List.mem_append_left _ hf1)) hfg
      · have hc := hs.carried p hp g hg f0 (hsubset f0 (List.mem_append_right _ hf0))
          (by rw [← hfg]; exact (QuicFrame.id_numbered _ _).symm)
        exact ⟨(hkey_mark f0).trans hc.1, hmark_number f0⟩
    · -- this packet: distinct addresses make the frame the one it carries
      obtain ⟨g0, hg0, rfl⟩ := List.mem_map.1 hg
      rw [QuicFrame.id_numbered] at hfg
      rcases hmem f hf with hf1 | ⟨f0, hf0, rfl⟩
      · exact absurd hfg (hnd.2.2 _ (List.mem_map_of_mem hf1) _ (List.mem_map_of_mem hg0))
      · have hf0g0 : f0 = g0 := List.inj_on_of_nodup_map hnd.2.1 hf0 hg0
          (by rw [← hfg]; exact (QuicFrame.id_numbered _ _).symm)
        subst hf0g0
        exact ⟨(hkey_mark f0).trans (QuicFrame.key_numbered _ _).symm, hmark_number f0⟩
  · exact hs.unsent_last.sublist hsub
  · intro f hf hneg
    exact hs.newest f (hlast f hf hneg) hneg

-- `quic_outq_transmit_stream` packs the first `n` frames of `stream_list`: the rest of it, the
-- frames already sent and those `n` are the frames that were on a list.
theorem quicOutqTransmitStream_perm (s : QuicOutqFrames) (n : Nat) :
    (s.streamList.drop n ++ s.transmittedList ++ s.streamList.take n).Perm s.linked := by
  unfold QuicOutqFrames.linked
  refine List.perm_append_comm.trans ?_
  rw [← List.append_assoc, List.take_append_drop]

theorem quicOutqTransmitStream_last (s : QuicOutqFrames) (n : Nat) :
    ∀ f ∈ (s.streamList.drop n).getLast?, f.number < 0 → f ∈ s.streamList.getLast? := by
  intro f hf _
  rw [List.getLast?_drop] at hf
  split_ifs at hf
  · simp at hf
  · exact hf

-- `quic_outq_transmit_old` packs the frames of `transmitted_list` it picks.
theorem quicOutqTransmitOld_perm (s : QuicOutqFrames) (ids : List Nat) :
    (s.streamList ++ s.transmittedList.filter (fun f => !ids.contains f.id) ++
      s.transmittedList.filter (fun f => ids.contains f.id)).Perm s.linked := by
  unfold QuicOutqFrames.linked
  rw [List.append_assoc]
  refine List.Perm.append_left _ ?_
  exact List.perm_append_comm.trans (List.filter_append_perm _ _)

theorem frameInv_transmitStream {s : QuicOutqFrames} (hs : FrameInv s) (n : Nat) :
    FrameInv (quicOutqTransmitStream s n) :=
  frameInv_pack hs _ (quicOutqTransmitStream_perm s n) (List.drop_sublist n _)
    (quicOutqTransmitStream_last s n)

theorem frameInv_transmitOld {s : QuicOutqFrames} (hs : FrameInv s) (ids : List Nat) :
    FrameInv (quicOutqTransmitOld s ids) :=
  frameInv_pack hs s.streamListLen (quicOutqTransmitOld_perm s ids) (List.Sublist.refl _)
    (fun _ hf _ => hf)

/-! ## Acknowledgement and loss -/

theorem QuicOutqFrames.find_some {s : QuicOutqFrames} {id : Nat} {f : QuicFrame}
    (h : s.find id = some f) : f ∈ s.linked ∧ f.id = id := by
  unfold QuicOutqFrames.find at h
  exact ⟨List.mem_of_find?_eq_some h, by simpa using List.find?_some h⟩

theorem QuicOutqFrames.unlink_linked (s : QuicOutqFrames) (id : Nat) :
    (s.unlink id).linked = s.linked.filter (·.id ≠ id) := by
  simp [QuicOutqFrames.unlink, QuicOutqFrames.linked, List.filter_append]

-- Taking frames that were sent off `stream_list` keeps the last frame never sent where it was.
theorem FrameInv.newest_filter {s : QuicOutqFrames} (hs : FrameInv s) {id : Nat}
    (hid : ∀ f ∈ s.streamList, f.id = id → 0 ≤ f.number) :
    ∀ f ∈ (s.streamList.filter (·.id ≠ id)).getLast?, f.number < 0 → f ∈ s.streamList.getLast? := by
  intro f hf hneg
  have hpair : s.streamList.Pairwise (fun a b => decide (a.number < 0) → decide (b.number < 0)) :=
    hs.unsent_last.imp (fun h ha => decide_eq_true (h (of_decide_eq_true ha)))
  refine OrderedList.getLast?_filter_of_pairwise hpair ?_ f hf (decide_eq_true hneg)
  intro x hx hq
  have : x.id = id := by simpa using hq
  simpa using hid x hx this

@[simp] theorem quicFrameStreamAck_linked (s : QuicOutqFrames) (f : QuicFrame) :
    (quicFrameStreamAck s f).linked = s.linked := by
  unfold quicFrameStreamAck
  dsimp only
  split_ifs <;> rfl

theorem quicFrameStreamAck_eq (s : QuicOutqFrames) (f : QuicFrame) :
    ∃ state : Int → Nat, quicFrameStreamAck s f = { s with
      sendFrags := Function.update s.sendFrags f.stream (s.sendFrags f.stream - 1),
      sendState := state } ∧
      (state = s.sendState ∨ (s.sendFrags f.stream - 1 = 0 ∧
        s.sendState f.stream = QUIC_STREAM_SEND_STATE_SENT ∧
        state = Function.update s.sendState f.stream QUIC_STREAM_SEND_STATE_RECVD)) := by
  unfold quicFrameStreamAck
  dsimp only
  split_ifs with h
  · exact ⟨s.sendState, rfl, .inl rfl⟩
  · simp only [not_or, not_not] at h
    exact ⟨_, rfl, .inr ⟨h.1, h.2, rfl⟩⟩

-- What acknowledging a frame still on a list does: it leaves its list, its stream loses a
-- fragment (and is Data Recvd once the last one of a Sent stream goes), and the history gains
-- the frame as the packet carried it.
theorem quicOutqPsentSackFrame_found {s : QuicOutqFrames} {g f : QuicFrame}
    (hfind : s.find g.id = some f) :
    ∃ state : Int → Nat, quicOutqPsentSackFrame s g = { s with
        streamList := s.streamList.filter (·.id ≠ f.id),
        transmittedList := s.transmittedList.filter (·.id ≠ f.id),
        sendFrags := Function.update s.sendFrags f.stream (s.sendFrags f.stream - 1),
        sendState := state, acked := s.acked ++ [g] } ∧
      (state = s.sendState ∨ (s.sendFrags f.stream - 1 = 0 ∧
        s.sendState f.stream = QUIC_STREAM_SEND_STATE_SENT ∧
        state = Function.update s.sendState f.stream QUIC_STREAM_SEND_STATE_RECVD)) := by
  obtain ⟨state, hack, hstate⟩ := quicFrameStreamAck_eq s f
  refine ⟨state, ?_, hstate⟩
  unfold quicOutqPsentSackFrame
  rw [hfind]
  simp only [quicFrameAck, hack, QuicOutqFrames.unlink]

-- Acknowledging a frame a packet carried moves it from its list into the history with the same
-- key: the keys of all frames queued stay the same.
theorem quicOutqPsentSackFrame_keys {s : QuicOutqFrames} (hnd : (s.linked.map (·.id)).Nodup)
    {g : QuicFrame} (hg : ∀ f ∈ s.linked, f.id = g.id → f.key = g.key ∧ 0 ≤ f.number) :
    (((quicOutqPsentSackFrame s g).linked ++ (quicOutqPsentSackFrame s g).acked).map
      QuicFrame.key).Perm ((s.linked ++ s.acked).map QuicFrame.key) := by
  cases hfind : s.find g.id with
  | none => simp [quicOutqPsentSackFrame, hfind]
  | some f =>
    obtain ⟨hf, hfid⟩ := QuicOutqFrames.find_some hfind
    obtain ⟨state, heq, -⟩ := quicOutqPsentSackFrame_found hfind
    set rest := s.linked.filter (·.id ≠ f.id)
    have hperm : s.linked.Perm (f :: rest) := KeyedList.perm_cons_erase hnd hf
    have hrest : (quicOutqPsentSackFrame s g).linked = rest := by
      rw [heq]
      simp [QuicOutqFrames.linked, rest, List.filter_append]
    rw [hrest, heq]
    have h1 : ((rest ++ (s.acked ++ [g])).map QuicFrame.key).Perm
        (((f :: rest) ++ s.acked).map QuicFrame.key) := by
      simp only [List.map_append, List.map_cons, (hg f hf hfid).1, List.cons_append]
      rw [← List.append_assoc]
      exact List.perm_append_singleton _ _
    exact h1.trans ((hperm.symm.append_right _).map _)

-- One frame of an acknowledged packet: if it is still on a list, it leaves it, its stream loses
-- a fragment, and the history gains the frame as the packet carried it.
theorem frameInv_sackFrame {s : QuicOutqFrames} (hs : FrameInv s) {g : QuicFrame}
    (hg : ∀ f ∈ s.linked, f.id = g.id → f.key = g.key ∧ 0 ≤ f.number) :
    FrameInv (quicOutqPsentSackFrame s g) := by
  unfold quicOutqPsentSackFrame
  split
  · exact hs
  · next f hfind =>
    obtain ⟨hf, hfid⟩ := QuicOutqFrames.find_some hfind
    obtain ⟨hkey, hnum⟩ := hg f hf hfid
    obtain ⟨state, hack, hstate⟩ := quicFrameStreamAck_eq s f
    set rest := s.linked.filter (·.id ≠ f.id)
    set t : QuicOutqFrames := { quicFrameAck s f with acked := s.acked ++ [g] }
    have hunlink : quicFrameAck s f = ({ s with
        sendFrags := Function.update s.sendFrags f.stream (s.sendFrags f.stream - 1),
        sendState := state } : QuicOutqFrames).unlink f.id := by
      rw [quicFrameAck, hack]
    have htl : t.linked = rest := by
      simp only [t, hunlink, QuicOutqFrames.unlink, QuicOutqFrames.linked, rest, List.filter_append]
    have hacked : t.acked = s.acked ++ [g] := rfl
    have hid : t.nextId = s.nextId := by simp [t, hunlink, QuicOutqFrames.unlink]
    have hbytes : t.sendBytes = s.sendBytes := by simp [t, hunlink, QuicOutqFrames.unlink]
    have hfrags : t.sendFrags = Function.update s.sendFrags f.stream (s.sendFrags f.stream - 1) := by
      simp [t, hunlink, QuicOutqFrames.unlink]
    have hst : t.sendState = state := by simp [t, hunlink, QuicOutqFrames.unlink]
    have hpackets : t.packetSentList = s.packetSentList := by simp [t, hunlink, QuicOutqFrames.unlink]
    have hpn : t.nextPn = s.nextPn := by simp [t, hunlink, QuicOutqFrames.unlink]
    have hstream : t.streamList = s.streamList.filter (·.id ≠ f.id) := by
      simp [t, hunlink, QuicOutqFrames.unlink]
    -- the acknowledged frame and what the packet carried have one key
    have hperm : s.linked.Perm (f :: rest) :=
      KeyedList.perm_cons_erase hs.linked_ids_nodup hf
    have hall : ((t.linked ++ t.acked).map QuicFrame.key).Perm
        ((s.linked ++ s.acked).map QuicFrame.key) := by
      rw [htl, hacked]
      have h1 : ((rest ++ (s.acked ++ [g])).map QuicFrame.key).Perm
          (((f :: rest) ++ s.acked).map QuicFrame.key) := by
        simp only [List.map_append, List.map_cons, hkey, List.cons_append]
        rw [← List.append_assoc]
        exact List.perm_append_singleton _ _
      exact h1.trans ((hperm.symm.append_right _).map _)
    have hcount (p : QuicFrame → Bool) : rest.countP p + (if p f then 1 else 0) = s.linked.countP p :=
      KeyedList.countP_erase p rfl hs.linked_ids_nodup hf
    have hsub : ∀ x ∈ rest, x ∈ s.linked := fun x hx => (List.mem_filter.1 hx).1
    refine ⟨⟨?_, ?_, ?_, ?_, ?_, ?_, ?_, ?_⟩, ?_, ?_, ?_, ?_, ?_⟩
    · exact ids_nodup_of_perm hall hs.nodup
    · intro x hx
      obtain ⟨y, hy, hyx⟩ := exists_key_of_perm hall hx
      rw [hid, ← (QuicFrame.stream_eq_of_key hyx).1]
      exact hs.id_lt y hy
    · intro i hi
      rw [hid] at hi
      obtain ⟨x, hx, hxi⟩ := hs.queued i hi
      obtain ⟨y, hy, hyx⟩ := exists_key_of_perm hall.symm hx
      exact ⟨y, hy, (QuicFrame.stream_eq_of_key hyx).1.trans hxi⟩
    · intro S'
      have hc := hcount (fun x => decide (x.stream = S'))
      rw [hfrags, htl, Function.update_apply]
      by_cases hSS : S' = f.stream
      · subst hSS
        rw [if_pos rfl, hs.frags]
        simp only [decide_true, if_true] at hc
        omega
      · rw [if_neg hSS, hs.frags S', ← hc, if_neg (fun h => hSS (of_decide_eq_true h).symm)]
        rfl
    · intro S' b hb
      rw [hbytes] at hb
      obtain ⟨x, hx, hcov⟩ := hs.covered S' b hb
      obtain ⟨y, hy, hyx⟩ := exists_key_of_perm hall.symm hx
      exact ⟨y, hy, QuicFrame.covers_of_key hyx hcov⟩
    · intro S' hS'
      -- a stream is Sent or later after the acknowledgement only if it was before
      have hS'' : QUIC_STREAM_SEND_STATE_SENT ≤ s.sendState S' := by
        rw [hst] at hS'
        rcases hstate with rfl | ⟨-, hsent, rfl⟩
        · exact hS'
        · rw [Function.update_apply] at hS'
          split_ifs at hS' with hSS
          · rw [hSS, hsent]
          · exact hS'
      obtain ⟨x, hx, hxs, hxfin⟩ := hs.fin S' hS''
      obtain ⟨y, hy, hyx⟩ := exists_key_of_perm hall.symm hx
      obtain ⟨-, hys, -, -, hyfin⟩ := QuicFrame.stream_eq_of_key hyx
      exact ⟨y, hy, hys.trans hxs, hyfin.trans hxfin⟩
    · intro S'
      rw [hst]
      rcases hstate with rfl | ⟨-, -, rfl⟩
      · exact hs.state_le S'
      · rw [Function.update_apply]
        split_ifs
        · exact le_rfl
        · exact hs.state_le S'
    · intro S' hS' x hx
      rw [htl] at hx
      rw [hst] at hS'
      rcases hstate with rfl | ⟨hzero, -, rfl⟩
      · exact hs.recvd S' hS' x (hsub x hx)
      · rw [Function.update_apply] at hS'
        split_ifs at hS' with hSS
        · -- the stream's last fragment was acknowledged, so none is left on a list
          subst hSS
          have hc := hcount (fun x => decide (x.stream = f.stream))
          rw [← hs.frags f.stream] at hc
          simp only [decide_true, if_true] at hc
          have h0 : rest.countP (fun x => decide (x.stream = f.stream)) = 0 := by omega
          exact fun hxs => by simpa [hxs] using List.countP_eq_zero.1 h0 x hx
        · exact hs.recvd S' hS' x (hsub x hx)
    · intro p hp g' hg'
      rw [hid]
      exact hs.sent_id_lt p (hpackets ▸ hp) g' hg'
    · rw [hpn]
      exact hs.pn_nonneg
    · intro p hp g' hg' x hx hxg
      exact hs.carried p (hpackets ▸ hp) g' hg' x (hsub x (htl ▸ hx)) hxg
    · rw [hstream]
      exact hs.unsent_last.sublist List.filter_sublist
    · intro x hx hneg
      rw [hstream] at hx
      rw [hbytes]
      refine hs.newest x (hs.newest_filter ?_ x hx hneg) hneg
      intro y hy hyid
      exact (hg y (List.mem_append_left _ hy) (hyid.trans hfid)).2

theorem quicOutqRetransmitFrame_linked (s : QuicOutqFrames) (f : QuicFrame) :
    (quicOutqRetransmitFrame s f).linked.Perm (f :: s.linked) := by
  unfold quicOutqRetransmitFrame QuicOutqFrames.linked
  dsimp only
  refine (List.perm_middle.append_right _).trans ?_
  rw [List.takeWhile_append_dropWhile, List.cons_append]

-- One frame of a lost packet: if it is still on `transmitted_list`, it goes back on
-- `stream_list`, after the frames already sent before it and before those never sent.
theorem frameInv_retransmitFrame {s : QuicOutqFrames} (hs : FrameInv s) {g : QuicFrame}
    (hg : ∀ f ∈ s.linked, f.id = g.id → f.key = g.key ∧ 0 ≤ f.number) :
    FrameInv (quicOutqPsentRetransmitFrame s g) := by
  unfold quicOutqPsentRetransmitFrame
  split
  · exact hs
  · next f hfind =>
    split_ifs with htr
    · exact hs
    · obtain ⟨hf, hfid⟩ := QuicOutqFrames.find_some hfind
      have hnum : 0 ≤ f.number := (hg f hf hfid).2
      set f' : QuicFrame := { f with transmitted := false }
      set u := s.unlink f.id
      set after := fun pos : QuicFrame =>
        !(decide (pos.number < 0) || decide (f'.number < pos.number))
      set t := quicOutqRetransmitFrame u f'
      have hus : u.streamList = s.streamList.filter (·.id ≠ f.id) := rfl
      have hts : t.streamList = u.streamList.takeWhile after ++ f' :: u.streamList.dropWhile after :=
        rfl
      have htl : t.linked.Perm (f' :: u.linked) := quicOutqRetransmitFrame_linked u f'
      have hsub : ∀ x ∈ u.linked, x ∈ s.linked := by
        intro x hx
        rw [QuicOutqFrames.unlink_linked] at hx
        exact (List.mem_filter.1 hx).1
      have hkeys : (t.linked.map QuicFrame.key).Perm (s.linked.map QuicFrame.key) := by
        have hperm : s.linked.Perm (f :: u.linked) := by
          rw [QuicOutqFrames.unlink_linked]
          exact KeyedList.perm_cons_erase hs.linked_ids_nodup hf
        have hf'key : (f' :: u.linked).map QuicFrame.key = (f :: u.linked).map QuicFrame.key := rfl
        refine (htl.map _).trans ?_
        rw [hf'key]
        exact (hperm.map _).symm
      refine ⟨FrameKeyInv.of_perm hs.toFrameKeyInv hkeys rfl rfl rfl rfl rfl, hs.sent_id_lt,
        hs.pn_nonneg, ?_, ?_, ?_⟩
      · intro p hp g' hg' x hx hxg
        rcases List.mem_cons.1 (htl.subset hx) with rfl | hx
        · exact hs.carried p hp g' hg' f hf hxg
        · exact hs.carried p hp g' hg' x (hsub x hx) hxg
      · -- the frame goes in before the first frame never sent
        rw [hts]
        refine OrderedList.pairwise_takeWhile_cons_dropWhile ?_ after f'
          (hs.unsent_last.sublist (hus ▸ List.filter_sublist)) ?_ ?_
        · intro a b c hab hbc ha
          exact hbc (hab ha)
        · intro x _ hx hneg
          simp [after, hneg] at hx
        · intro x _ _ hneg
          exact absurd hneg (by simpa [f'] using hnum)
      · intro x hx hneg
        rw [hts] at hx
        rcases OrderedList.getLast?_takeWhile_cons_dropWhile after f' u.streamList hx with rfl | hx
        · exact absurd hneg (by simpa [f'] using hnum)
        · rw [hus] at hx
          refine hs.newest x (hs.newest_filter ?_ x hx hneg) hneg
          intro y hy hyid
          exact (hg y (List.mem_append_left _ hy) (hyid.trans hfid)).2

-- The frames each of these steps leaves on a list were on one before, unchanged but for where
-- they sit.
theorem quicOutqPsentSackFrame_linked (s : QuicOutqFrames) (g : QuicFrame) :
    ∀ x ∈ (quicOutqPsentSackFrame s g).linked, ∃ y ∈ s.linked, y.key = x.key ∧ y.number = x.number := by
  intro x hx
  unfold quicOutqPsentSackFrame at hx
  split at hx
  · exact ⟨x, hx, rfl, rfl⟩
  · next f _ =>
    have hx' : x ∈ (quicFrameAck s f).linked := hx
    rw [quicFrameAck, QuicOutqFrames.unlink_linked, quicFrameStreamAck_linked] at hx'
    exact ⟨x, (List.mem_filter.1 hx').1, rfl, rfl⟩

theorem quicOutqPsentRetransmitFrame_linked (s : QuicOutqFrames) (g : QuicFrame) :
    ∀ x ∈ (quicOutqPsentRetransmitFrame s g).linked,
      ∃ y ∈ s.linked, y.key = x.key ∧ y.number = x.number := by
  intro x hx
  unfold quicOutqPsentRetransmitFrame at hx
  split at hx
  · exact ⟨x, hx, rfl, rfl⟩
  · next f hfind =>
    split_ifs at hx
    · exact ⟨x, hx, rfl, rfl⟩
    · rcases List.mem_cons.1 ((quicOutqRetransmitFrame_linked _ _).subset hx) with rfl | hx
      · exact ⟨f, (QuicOutqFrames.find_some hfind).1, rfl, rfl⟩
      · rw [QuicOutqFrames.unlink_linked] at hx
        exact ⟨x, (List.mem_filter.1 hx).1, rfl, rfl⟩

-- The last frame of `stream_list` never sent, after a frame of an acknowledged packet leaves
-- its list, was the last one before.
theorem quicOutqPsentSackFrame_last {s : QuicOutqFrames} (hs : FrameInv s) {g : QuicFrame}
    (hg : ∀ f ∈ s.linked, f.id = g.id → f.key = g.key ∧ 0 ≤ f.number) :
    ∀ x ∈ (quicOutqPsentSackFrame s g).streamList.getLast?, x.number < 0 →
      x ∈ s.streamList.getLast? := by
  cases hfind : s.find g.id with
  | none =>
    intro x hx _
    simpa [quicOutqPsentSackFrame, hfind] using hx
  | some f =>
    obtain ⟨hf, hfid⟩ := QuicOutqFrames.find_some hfind
    obtain ⟨state, heq, -⟩ := quicOutqPsentSackFrame_found hfind
    rw [heq]
    refine hs.newest_filter ?_
    intro y hy hyid
    exact (hg y (List.mem_append_left _ hy) (hyid.trans hfid)).2

-- The frame a lost packet puts back on `stream_list` was sent, so the last frame never sent is
-- the one that was last before.
theorem quicOutqPsentRetransmitFrame_last {s : QuicOutqFrames} (hs : FrameInv s) {g : QuicFrame}
    (hg : ∀ f ∈ s.linked, f.id = g.id → f.key = g.key ∧ 0 ≤ f.number) :
    ∀ x ∈ (quicOutqPsentRetransmitFrame s g).streamList.getLast?, x.number < 0 →
      x ∈ s.streamList.getLast? := by
  unfold quicOutqPsentRetransmitFrame
  split
  · exact fun x hx _ => hx
  · next f hfind =>
    split_ifs with htr
    · exact fun x hx _ => hx
    · obtain ⟨hf, hfid⟩ := QuicOutqFrames.find_some hfind
      have hnum : 0 ≤ f.number := (hg f hf hfid).2
      intro x hx hneg
      rcases OrderedList.getLast?_takeWhile_cons_dropWhile _ _ _ hx with rfl | hx
      · exact absurd hneg (by simpa using hnum)
      · refine hs.newest_filter ?_ x hx hneg
        intro y hy hyid
        exact (hg y (List.mem_append_left _ hy) (hyid.trans hfid)).2

-- Putting a lost frame back keeps the keys of the frames on a list, and the history.
theorem quicOutqPsentRetransmitFrame_keys {s : QuicOutqFrames} (hnd : (s.linked.map (·.id)).Nodup)
    (g : QuicFrame) :
    ((quicOutqPsentRetransmitFrame s g).linked.map QuicFrame.key).Perm (s.linked.map QuicFrame.key) ∧
      (quicOutqPsentRetransmitFrame s g).acked = s.acked := by
  unfold quicOutqPsentRetransmitFrame
  split
  · exact ⟨List.Perm.refl _, rfl⟩
  · next f hfind =>
    split_ifs
    · exact ⟨List.Perm.refl _, rfl⟩
    · have hperm : s.linked.Perm (f :: (s.unlink f.id).linked) := by
        rw [QuicOutqFrames.unlink_linked]
        exact KeyedList.perm_cons_erase hnd (QuicOutqFrames.find_some hfind).1
      have hkey : (({ f with transmitted := false } : QuicFrame) :: (s.unlink f.id).linked).map
          QuicFrame.key = (f :: (s.unlink f.id).linked).map QuicFrame.key := rfl
      refine ⟨((quicOutqRetransmitFrame_linked _ _).map _).trans ?_, rfl⟩
      rw [hkey]
      exact (hperm.map _).symm

-- The per-frame loops of acknowledgement and loss keep an invariant frame after frame, as long
-- as each step keeps it for a frame the packet carried.
theorem foldl_of_carried {P : QuicOutqFrames → Prop} {step : QuicOutqFrames → QuicFrame → QuicOutqFrames}
    (hstep : ∀ s g, P s → (∀ f ∈ s.linked, f.id = g.id → f.key = g.key ∧ 0 ≤ f.number) →
      P (step s g))
    (hlinked : ∀ s g, ∀ x ∈ (step s g).linked, ∃ y ∈ s.linked, y.key = x.key ∧ y.number = x.number) :
    ∀ (frames : List QuicFrame) {s : QuicOutqFrames}, P s → CarriedBy s frames →
      P (frames.foldl step s)
  | [], _, hs, _ => hs
  | g :: gs, s, hs, hc => by
    have hc' : CarriedBy (step s g) gs := by
      intro g' hg' x hx hxg
      obtain ⟨y, hy, hyx, hyn⟩ := hlinked s g x hx
      have h := hc g' (List.mem_cons_of_mem g hg') y hy (by rw [← hxg]; exact congrArg Prod.fst hyx)
      exact ⟨hyx ▸ h.1, hyn ▸ h.2⟩
    exact foldl_of_carried hstep hlinked gs (hstep s g hs (hc g List.mem_cons_self)) hc'

-- Taking a packet off `packet_sent_list` keeps the invariant, and what it carried is as the
-- invariant says.
theorem FrameInv.erasePacket {s : QuicOutqFrames} (hs : FrameInv s) (i : Nat) :
    FrameInv { s with packetSentList := s.packetSentList.eraseIdx i } :=
  ⟨FrameKeyInv.of_perm hs.toFrameKeyInv (List.Perm.refl _) rfl rfl rfl rfl rfl, fun p hp => hs.sent_id_lt p (List.mem_of_mem_eraseIdx hp), hs.pn_nonneg,
    fun p hp => hs.carried p (List.mem_of_mem_eraseIdx hp), hs.unsent_last, hs.newest⟩

theorem FrameInv.carried_getD {s : QuicOutqFrames} (hs : FrameInv s) (i : Nat) :
    CarriedBy { s with packetSentList := s.packetSentList.eraseIdx i }
      (s.packetSentList.getD i []) := by
  rw [List.getD_eq_getElem?_getD]
  cases hi : s.packetSentList[i]? with
  | none => intro g hg; simp at hg
  | some p => exact hs.carried p (List.mem_of_getElem? hi)

theorem frameInv_sack {s : QuicOutqFrames} (hs : FrameInv s) (i : Nat) :
    FrameInv (quicOutqTransmittedSack s i) :=
  foldl_of_carried (P := FrameInv) (fun _ _ h hg => frameInv_sackFrame h hg)
    quicOutqPsentSackFrame_linked _
    (hs.erasePacket i) (hs.carried_getD i)

theorem frameInv_lost {s : QuicOutqFrames} (hs : FrameInv s) (i : Nat) :
    FrameInv (quicOutqRetransmitMark s i) :=
  foldl_of_carried (P := FrameInv) (fun _ _ h hg => frameInv_retransmitFrame h hg)
    quicOutqPsentRetransmitFrame_linked _ (hs.erasePacket i) (hs.carried_getD i)

theorem frameInv_step {s t : QuicOutqFrames} (hs : FrameInv s) (h : FrameStep s t) : FrameInv t := by
  obtain ⟨call, hallowed, rfl⟩ := h
  cases call with
  | tail S bytes fin nodelay =>
    exact frameInv_tail hs (by simpa [QuicFrameCall.allowed] using hallowed) bytes fin nodelay
  | append S bytes fin nodelay =>
    simp only [QuicFrameCall.apply]
    split
    · next t ht => exact frameInv_append hs (by simpa [QuicFrameCall.allowed] using hallowed) ht
    · exact hs
  | transmitStream n => exact frameInv_transmitStream hs n
  | transmitOld ids => exact frameInv_transmitOld hs ids
  | sack i => exact frameInv_sack hs i
  | lost i => exact frameInv_lost hs i

theorem frameInv_reachable {s : QuicOutqFrames} (h : Reachable FrameInit FrameStep s) :
    FrameInv s := by
  have hinit : ∀ t, FrameInit t → FrameInv t := fun _ ht => ht ▸ frameInv_init
  exact Reachable.invariant hinit (fun _ _ hi hs => frameInv_step hi hs) h

-- The fragment count of each stream is the number of its frames still on a list; every frame
-- queued is on a list or was acknowledged, not both, and `quic_frame_stream_ack` ran at most
-- once for it; a stream is Data Recvd only once a FIN was queued and every byte it sent was in
-- an acknowledged packet.
theorem quicOutq_stream_frags_exact {s : QuicOutqFrames} (h : Reachable FrameInit FrameStep s) :
    (∀ S, s.sendFrags S = s.linked.countP (fun f => f.stream = S)) ∧
    (∀ i < s.nextId, ∃ f ∈ s.linked ++ s.acked, f.id = i) ∧
    ((s.linked ++ s.acked).map (·.id)).Nodup ∧
    ∀ S, s.sendState S = QUIC_STREAM_SEND_STATE_RECVD →
      (∃ f ∈ s.acked, f.stream = S ∧ f.fin) ∧ ∀ b < s.sendBytes S, ∃ f ∈ s.acked, f.Covers S b := by
  have hs := frameInv_reachable h
  refine ⟨hs.frags, hs.queued, hs.nodup, fun S hS => ⟨?_, fun b hb => ?_⟩⟩
  · -- no frame of a Data Recvd stream is left on a list
    obtain ⟨f, hf, hfs, hfin⟩ := hs.fin S (by rw [hS]; decide)
    rcases List.mem_append.1 hf with hf | hf
    · exact absurd hfs (hs.recvd S hS f hf)
    · exact ⟨f, hf, hfs, hfin⟩
  · obtain ⟨f, hf, hcov⟩ := hs.covered S b hb
    rcases List.mem_append.1 hf with hf | hf
    · exact absurd hcov.1 (hs.recvd S hS f hf)
    · exact ⟨f, hf, hcov⟩

theorem quicOutq_stream_frags_exact_resent :
    let s : QuicOutqFrames := [QuicFrameCall.tail 0 100 true false, .transmitStream 1,
      .transmitOld [0], .lost 0, .sack 0].foldl QuicFrameCall.apply quicOutqFramesInit
    Reachable FrameInit FrameStep s ∧ s.sendState 0 = QUIC_STREAM_SEND_STATE_RECVD ∧
      ((∀ S, s.sendFrags S = s.linked.countP (fun f => f.stream = S)) ∧
      (∀ i < s.nextId, ∃ f ∈ s.linked ++ s.acked, f.id = i) ∧
      ((s.linked ++ s.acked).map (·.id)).Nodup ∧
      ∀ S, s.sendState S = QUIC_STREAM_SEND_STATE_RECVD →
        (∃ f ∈ s.acked, f.stream = S ∧ f.fin) ∧ ∀ b < s.sendBytes S, ∃ f ∈ s.acked, f.Covers S b) := by
  intro s
  have h : Reachable FrameInit FrameStep s :=
    Reachable.foldl_of_allowedRun frameStep_of_allowed
      (Reachable.of_init (show FrameInit quicOutqFramesInit from rfl)) _ (by decide)
  exact ⟨h, by decide, quicOutq_stream_frags_exact h⟩

/-! ## `stream_list_len` -/

-- Acknowledging a frame takes it off whatever list it is on, `stream_list` included, but leaves
-- `stream_list_len` as it was.
theorem quicOutqPsentSackFrame_streamListLen (s : QuicOutqFrames) (g : QuicFrame) :
    (quicOutqPsentSackFrame s g).streamListLen = s.streamListLen := by
  unfold quicOutqPsentSackFrame
  split
  · rfl
  · next f _ =>
    show (quicFrameStreamAck s f).streamListLen = s.streamListLen
    unfold quicFrameStreamAck
    dsimp only
    split_ifs <;> rfl

theorem quicOutqPsentSackFrames_streamListLen :
    ∀ (frames : List QuicFrame) (s : QuicOutqFrames),
      (quicOutqPsentSackFrames s frames).streamListLen = s.streamListLen
  | [], _ => rfl
  | g :: gs, s => (quicOutqPsentSackFrames_streamListLen gs _).trans
      (quicOutqPsentSackFrame_streamListLen s g)

theorem quicOutqTransmittedSack_streamListLen (s : QuicOutqFrames) (i : Nat) :
    (quicOutqTransmittedSack s i).streamListLen = s.streamListLen :=
  quicOutqPsentSackFrames_streamListLen _ _

-- A frame is sent, sent again from `transmitted_list`, put back on `stream_list` when the first
-- packet is lost, and acknowledged through the second: `stream_list` is empty while
-- `stream_list_len` still counts the frame's 104 bytes.
theorem quicOutq_stream_list_len_stale :
    let s : QuicOutqFrames := [QuicFrameCall.tail 0 100 false false, .transmitStream 1,
      .transmitOld [0], .lost 0, .sack 0].foldl QuicFrameCall.apply quicOutqFramesInit
    Reachable FrameInit FrameStep s ∧ s.streamList = [] ∧ (s.streamList.map (·.len)).sum = 0 ∧
      s.streamListLen = 104 := by
  intro s
  have h : Reachable FrameInit FrameStep s :=
    Reachable.foldl_of_allowedRun frameStep_of_allowed
      (Reachable.of_init (show FrameInit quicOutqFramesInit from rfl)) _ (by decide)
  exact ⟨h, by decide, by decide, by decide⟩

end Quic.StreamFrames
