import Quic.Outqueue.Contig
import Quic.Frame.Stream

-- The STREAM frames of the outqueue with their bytes. Beside the frame fields the outqueue keeps,
-- each frame has the header and fragments `quic_frame_stream_create` built and
-- `quic_frame_stream_append` extended; a sendmsg call is the queueing step of the frame model,
-- with the length, FIN and nodelay the byte-level functions decide.
namespace Quic.StreamFrames

open Quic.Frame (QuicStreamFrame QUIC_STREAM_BIT_FIN QUIC_STREAM_BIT_OFF)

structure QuicOutqWire where
  frames : QuicOutqFrames
  -- `frame->data` and `frame->flist` of the frame at each address
  buf : Nat → QuicStreamFrame

def quicOutqWireInit : QuicOutqWire :=
  ⟨quicOutqFramesInit, fun _ => ⟨0, [], 0, [], 0, 0, 0, false⟩⟩

-- What a sendmsg may count on: a stream not yet Sent, whose ID and send offset plus credit stay
-- varints (the peer's limits are varints and `quic_outq_wspace` never passes them), and a
-- payload bound that holds the longest STREAM header and fits the u16 MSS.
def WireSendOk (frames : QuicOutqFrames) (S : Int) (wspace maxFrameLen : Nat) : Prop :=
  frames.sendState S < QUIC_STREAM_SEND_STATE_SENT ∧ 0 ≤ S ∧ S < 2 ^ 62 ∧
    frames.sendBytes S + wspace < 2 ^ 62 ∧ 21 ≤ maxFrameLen ∧ maxFrameLen < 2 ^ 16

instance (frames : QuicOutqFrames) (S : Int) (wspace maxFrameLen : Nat) :
    Decidable (WireSendOk frames S wspace maxFrameLen) :=
  inferInstanceAs (Decidable (_ ∧ _))

-- A sendmsg queues a new frame of the bytes `quic_frame_stream_create` builds, or appends to the
-- last frame with `quic_frame_stream_append`; the other calls are those of the frame model and
-- leave the bytes alone.
inductive QuicWireCall where
  | tail (stream : Int) (msg : List UInt8) (fin : Bool) (wspace maxFrameLen : Nat)
  | append (stream : Int) (msg : List UInt8) (fin : Bool) (wspace maxFrameLen : Nat)
  | other (call : QuicFrameCall)

def QuicWireCall.apply (w : QuicOutqWire) : QuicWireCall → QuicOutqWire
  | .tail S msg fin wspace maxFrameLen =>
    let frame := Frame.quicFrameStreamCreate S.toNat (w.frames.sendBytes S) msg fin wspace
      maxFrameLen
    ⟨quicOutqStreamTail w.frames (quicFrameStreamCreate w.frames S frame.bytes
        (decide (frame.type &&& QUIC_STREAM_BIT_FIN ≠ 0)) frame.nodelay),
      Function.update w.buf w.frames.nextId frame⟩
  | .append S msg fin wspace maxFrameLen =>
    -- `quic_outq_stream_append`: the last frame of `stream_list`, if it is of this stream, the
    -- end of a sendmsg and never sent
    match w.frames.streamList.getLast? with
    | none => w
    | some F =>
      if F.stream = S ∧ F.nodelay = false ∧ F.number < 0 then
        match Frame.quicFrameStreamAppend (w.buf F.id) S.toNat (w.frames.sendBytes S) msg fin wspace
            maxFrameLen with
        | .error _ => w
        | .ok (k, frame) =>
          match quicOutqStreamAppend w.frames S k (decide (frame.type &&& QUIC_STREAM_BIT_FIN ≠ 0))
              frame.nodelay with
          | .ok t => ⟨t, Function.update w.buf F.id frame⟩
          | .error _ => w
      else w
  | .other call => ⟨call.apply w.frames, w.buf⟩

def QuicWireCall.allowed (w : QuicOutqWire) : QuicWireCall → Bool
  | .tail S _ _ wspace maxFrameLen | .append S _ _ wspace maxFrameLen =>
    decide (WireSendOk w.frames S wspace maxFrameLen)
  | .other (.tail ..) | .other (.append ..) => false
  | .other call => call.allowed w.frames

def WireStep (w w' : QuicOutqWire) : Prop :=
  ∃ call : QuicWireCall, call.allowed w ∧ w' = call.apply w

def WireInit (w : QuicOutqWire) : Prop := w = quicOutqWireInit

/-! ## The frame model underneath -/

-- What a successful `.append` call did: the abstract append with the length and flags of the
-- bytes `quic_frame_stream_append` wrote to the last frame.
theorem QuicWireCall.apply_append_cases (w : QuicOutqWire) (S : Int) (msg : List UInt8)
    (fin : Bool) (wspace maxFrameLen : Nat) :
    (QuicWireCall.append S msg fin wspace maxFrameLen).apply w = w ∨
      ∃ F k frame t, F ∈ w.frames.streamList.getLast? ∧ F.stream = S ∧ F.number < 0 ∧
        Frame.quicFrameStreamAppend (w.buf F.id) S.toNat (w.frames.sendBytes S) msg fin wspace
          maxFrameLen = .ok (k, frame) ∧
        quicOutqStreamAppend w.frames S k (decide (frame.type &&& QUIC_STREAM_BIT_FIN ≠ 0))
          frame.nodelay = .ok t ∧
        (QuicWireCall.append S msg fin wspace maxFrameLen).apply w =
          ⟨t, Function.update w.buf F.id frame⟩ := by
  simp only [QuicWireCall.apply]
  split
  · exact .inl rfl
  · next F hlast =>
    split_ifs with hcheck
    · split
      · exact .inl rfl
      · next k frame hbytes =>
        split
        · next t ht => exact .inr ⟨F, k, frame, t, hlast, hcheck.1, hcheck.2.2, hbytes, ht, rfl⟩
        · exact .inl rfl
    · exact .inl rfl

-- Each call is a step of the frame model, or none.
theorem wireStep_frames {w w' : QuicOutqWire} (h : WireStep w w') :
    Relation.ReflTransGen FrameStep w.frames w'.frames := by
  obtain ⟨call, hallowed, rfl⟩ := h
  cases call with
  | tail S msg fin wspace maxFrameLen =>
    have hok : WireSendOk w.frames S wspace maxFrameLen := of_decide_eq_true hallowed
    exact .single (frameStep_of_allowed _ (.tail S _ _ _) (decide_eq_true hok.1))
  | append S msg fin wspace maxFrameLen =>
    have hok : WireSendOk w.frames S wspace maxFrameLen := of_decide_eq_true hallowed
    rcases QuicWireCall.apply_append_cases w S msg fin wspace maxFrameLen with
      hsame | ⟨F, k, frame, t, -, -, -, -, ht, happly⟩
    · rw [hsame]
    · rw [happly]
      refine .single ⟨.append S k (decide (frame.type &&& QUIC_STREAM_BIT_FIN ≠ 0)) frame.nodelay,
        decide_eq_true hok.1, ?_⟩
      simp only [QuicFrameCall.apply, ht]
  | other call =>
    cases call with
    | tail => cases hallowed
    | append => cases hallowed
    | transmitStream n => exact .single ⟨.transmitStream n, hallowed, rfl⟩
    | transmitOld ids => exact .single ⟨.transmitOld ids, hallowed, rfl⟩
    | sack i => exact .single ⟨.sack i, hallowed, rfl⟩
    | lost i => exact .single ⟨.lost i, hallowed, rfl⟩

theorem wireReachable_frames {w : QuicOutqWire} (h : Reachable WireInit WireStep w) :
    Reachable FrameInit FrameStep w.frames :=
  Reachable.map QuicOutqWire.frames (fun _ hw => hw ▸ rfl) (fun _ _ => wireStep_frames) h

/-! ## The bytes of every frame -/

-- Each frame on a list has the bytes it says: its buffer encodes its stream, offset and FIN, and
-- counts its bytes.
def QuicOutqWire.Encoded (w : QuicOutqWire) : Prop :=
  ∀ f ∈ w.frames.linked, 0 ≤ f.stream ∧ (w.buf f.id).bytes = f.bytes ∧
    (w.buf f.id).Encodes f.stream.toNat f.offset f.fin

-- The calls that only move frames between lists keep each one's key.
theorem linked_keys_foldl {step : QuicOutqFrames → QuicFrame → QuicOutqFrames}
    (hlinked : ∀ s g, ∀ x ∈ (step s g).linked, ∃ y ∈ s.linked, y.key = x.key ∧ y.number = x.number) :
    ∀ (frames : List QuicFrame) (s : QuicOutqFrames),
      ∀ x ∈ (frames.foldl step s).linked, ∃ y ∈ s.linked, y.key = x.key
  | [], _ => fun x hx => ⟨x, hx, rfl⟩
  | g :: gs, s => fun x hx => by
    obtain ⟨y, hy, hyx⟩ := linked_keys_foldl hlinked gs (step s g) x hx
    obtain ⟨z, hz, hzy, -⟩ := hlinked s g y hy
    exact ⟨z, hz, hzy.trans hyx⟩

theorem QuicFrameCall.linked_keys {s : QuicOutqFrames} {call : QuicFrameCall}
    (hcall : ∀ S bytes fin nodelay, call ≠ .tail S bytes fin nodelay ∧ call ≠ .append S bytes fin nodelay) :
    ∀ x ∈ (call.apply s).linked, ∃ y ∈ s.linked, y.key = x.key := by
  cases call with
  | tail S bytes fin nodelay => exact absurd rfl (hcall S bytes fin nodelay).1
  | append S bytes fin nodelay => exact absurd rfl (hcall S bytes fin nodelay).2
  | transmitStream n =>
    exact fun x hx => exists_key_of_perm
      (quicPacketPackFrames_keys s _ (quicOutqTransmitStream_perm s n)) hx
  | transmitOld ids =>
    exact fun x hx => exists_key_of_perm
      (quicPacketPackFrames_keys s _ (quicOutqTransmitOld_perm s ids)) hx
  | sack i => exact linked_keys_foldl quicOutqPsentSackFrame_linked _ _
  | lost i => exact linked_keys_foldl quicOutqPsentRetransmitFrame_linked _ _

theorem QuicOutqWire.Encoded.of_keys {w w' : QuicOutqWire} (he : w.Encoded) (hbuf : w'.buf = w.buf)
    (hkeys : ∀ x ∈ w'.frames.linked, ∃ y ∈ w.frames.linked, y.key = x.key) : w'.Encoded := by
  intro x hx
  obtain ⟨y, hy, hyx⟩ := hkeys x hx
  obtain ⟨hid, hstream, hoffset, hbytes, hfin⟩ := QuicFrame.stream_eq_of_key hyx
  rw [hbuf, ← hid, ← hstream, ← hoffset, ← hbytes, ← hfin]
  exact he y hy

-- A new frame: the bytes `quic_frame_stream_create` builds say what the frame model records.
theorem encoded_tail {w : QuicOutqWire} (hs : FrameInv w.frames) (he : w.Encoded) {S : Int}
    {msg : List UInt8} {fin : Bool} {wspace maxFrameLen : Nat}
    (hok : WireSendOk w.frames S wspace maxFrameLen) :
    ((QuicWireCall.tail S msg fin wspace maxFrameLen).apply w).Encoded := by
  obtain ⟨-, hS0, hS62, hcredit, hmin, hmax⟩ := hok
  obtain ⟨henc, -, -, -⟩ := @Frame.quicFrameStreamCreate_spec _ _ wspace _ msg fin
    (show S.toNat < 2 ^ 62 by omega) (show w.frames.sendBytes S < 2 ^ 62 by omega) hmin hmax
  set frame := Frame.quicFrameStreamCreate S.toNat (w.frames.sendBytes S) msg fin wspace maxFrameLen
  have hfin : decide (frame.type &&& QUIC_STREAM_BIT_FIN ≠ 0) =
      (fin && decide (frame.bytes = msg.length)) := by
    rw [henc.type_eq]
    exact Bool.eq_iff_iff.2 (decide_eq_true_iff.trans (Frame.quicStreamFrameType_bits _ _).2.2.2.2)
  set N := quicFrameStreamCreate w.frames S frame.bytes
    (decide (frame.type &&& QUIC_STREAM_BIT_FIN ≠ 0)) frame.nodelay
  intro f hf
  have hf' : f ∈ w.frames.linked ∨ f = N := by
    simp only [QuicWireCall.apply, quicOutqStreamTail, QuicOutqFrames.linked, List.mem_append,
      List.mem_singleton] at hf ⊢
    tauto
  show 0 ≤ f.stream ∧ (Function.update w.buf w.frames.nextId frame f.id).bytes = f.bytes ∧
    (Function.update w.buf w.frames.nextId frame f.id).Encodes f.stream.toNat f.offset f.fin
  rcases hf' with hf' | rfl
  · -- an older frame: its address is not the new one
    have hne : f.id ≠ w.frames.nextId := (hs.id_lt f (List.mem_append_left _ hf')).ne
    rw [Function.update_of_ne hne]
    exact he f hf'
  · rw [show N.id = w.frames.nextId from rfl, Function.update_self]
    refine ⟨hS0, rfl, ?_⟩
    show frame.Encodes S.toNat (w.frames.sendBytes S) (decide (frame.type &&& QUIC_STREAM_BIT_FIN ≠ 0))
    rw [hfin]
    exact henc

-- An append: the last frame never sent is the stream's newest, so its bytes end at the send
-- offset, and the header `quic_frame_stream_append` writes again says what the frame model
-- records.
theorem encoded_append {w : QuicOutqWire} (hs : FrameInv w.frames) (hc : ContigInv w.frames)
    (he : w.Encoded) {S : Int} {msg : List UInt8} {fin : Bool} {wspace maxFrameLen : Nat}
    (hok : WireSendOk w.frames S wspace maxFrameLen) :
    ((QuicWireCall.append S msg fin wspace maxFrameLen).apply w).Encoded := by
  rcases QuicWireCall.apply_append_cases w S msg fin wspace maxFrameLen with
    hsame | ⟨F, k, frame, t, hlast, hFS, hFnum, hbytes, ht, happly⟩
  · rw [hsame]
    exact he
  obtain ⟨hS, -, -, -, hmin, hmax⟩ := hok
  rw [happly]
  have hF : F ∈ w.frames.linked := List.mem_append_left _ (List.mem_of_mem_getLast? hlast)
  obtain ⟨-, hFbytes, hFenc⟩ := he F hF
  have hend : F.offset + F.bytes = w.frames.sendBytes S := hFS ▸ hs.newest F hlast hFnum
  have hFfin : F.fin = false := by
    by_contra hfin
    have := hc.fin_sent F (List.mem_append_left _ hF) (by simpa using hfin)
    rw [hFS] at this
    omega
  rw [hFfin, hFS] at hFenc
  rw [← hend, ← hFbytes] at hbytes
  rcases Frame.quicFrameStreamAppend_spec hFenc msg fin hmin hmax with
    herr | ⟨k', frame', hok', henc', -, -, hbytes', -⟩
  · rw [herr] at hbytes
    cases hbytes
  rw [hok'] at hbytes
  obtain ⟨rfl, rfl⟩ := Prod.mk.inj (Except.ok.inj hbytes)
  obtain ⟨F0, hlast0, -, -, ht'⟩ := quicOutqStreamAppend_ok ht
  obtain rfl : F = F0 := Option.some.inj (hlast.symm.trans hlast0)
  set F' := quicFrameStreamAppend w.frames F k' (decide (frame'.type &&& QUIC_STREAM_BIT_FIN ≠ 0))
    frame'.nodelay
  have hF'fin : F'.fin = (fin && decide (k' = msg.length)) := by
    show (F.fin || decide (frame'.type &&& QUIC_STREAM_BIT_FIN ≠ 0)) = _
    rw [hFfin, Bool.false_or, henc'.type_eq]
    exact Bool.eq_iff_iff.2 (decide_eq_true_iff.trans (Frame.quicStreamFrameType_bits _ _).2.2.2.2)
  have hF'offset : F'.offset = F.offset := by
    show w.frames.sendBytes F.stream - F.bytes = F.offset
    rw [hFS]
    omega
  have hsplit : w.frames.streamList = w.frames.streamList.dropLast ++ [F] :=
    (List.dropLast_append_getLast? F hlast).symm
  have hnodup := hs.linked_ids_nodup
  intro f hf
  rw [ht'] at hf
  have hf' : f = F' ∨ (f ∈ w.frames.linked ∧ f.id ≠ F.id) := by
    simp only [QuicOutqFrames.linked, List.mem_append, List.mem_singleton] at hf
    rcases hf with (hf | rfl) | hf
    · refine .inr ⟨List.mem_append_left _ (List.dropLast_subset _ hf), ?_⟩
      -- the frames before the last have other addresses
      rw [QuicOutqFrames.linked, hsplit, List.append_assoc, List.map_append] at hnodup
      exact fun hid => (List.nodup_append.1 hnodup).2.2 _ (List.mem_map_of_mem hf) _
        (List.mem_map.2 ⟨F, by simp, rfl⟩) hid
    · exact .inl rfl
    · refine .inr ⟨List.mem_append_right _ hf, ?_⟩
      rw [QuicOutqFrames.linked, hsplit, List.map_append] at hnodup
      exact fun hid => (List.nodup_append.1 hnodup).2.2 _ (List.mem_map.2 ⟨F, by simp, rfl⟩) _
        (List.mem_map_of_mem hf) hid.symm
  show 0 ≤ f.stream ∧ (Function.update w.buf F.id frame' f.id).bytes = f.bytes ∧
    (Function.update w.buf F.id frame' f.id).Encodes f.stream.toNat f.offset f.fin
  rcases hf' with rfl | ⟨hf, hne⟩
  · rw [show F'.id = F.id from rfl, Function.update_self, show F'.stream = S from hFS,
      hF'offset, hF'fin]
    refine ⟨hFS ▸ (he F hF).1, ?_, henc'⟩
    rw [hbytes', hFbytes]
    rfl
  · rw [Function.update_of_ne hne]
    exact he f hf

theorem encoded_other {w : QuicOutqWire} (he : w.Encoded) {call : QuicFrameCall}
    (hallowed : (QuicWireCall.other call).allowed w) :
    ((QuicWireCall.other call).apply w).Encoded :=
  he.of_keys rfl (QuicFrameCall.linked_keys fun _ _ _ _ =>
    ⟨(by rintro rfl; cases hallowed), (by rintro rfl; cases hallowed)⟩)

/-! ## Runs -/

-- Every state of a run: the frame model's invariants, and each frame's bytes as it says.
structure WireInv (w : QuicOutqWire) : Prop where
  frame : FrameInv w.frames
  contig : ContigInv w.frames
  encoded : w.Encoded

theorem frameContig_of_run {s t : QuicOutqFrames} (h : Relation.ReflTransGen FrameStep s t)
    (hs : FrameInv s ∧ ContigInv s) : FrameInv t ∧ ContigInv t := by
  induction h with
  | refl => exact hs
  | tail _ hstep ih => exact ⟨frameInv_step ih.1 hstep, contigInv_step ih.1 ih.2 hstep⟩

theorem wireInv_step {w w' : QuicOutqWire} (hw : WireInv w) (h : WireStep w w') : WireInv w' := by
  obtain ⟨hframe, hcontig⟩ := frameContig_of_run (wireStep_frames h) ⟨hw.frame, hw.contig⟩
  obtain ⟨call, hallowed, rfl⟩ := h
  refine ⟨hframe, hcontig, ?_⟩
  cases call with
  | tail S msg fin wspace maxFrameLen =>
    exact encoded_tail hw.frame hw.encoded (of_decide_eq_true hallowed)
  | append S msg fin wspace maxFrameLen =>
    exact encoded_append hw.frame hw.contig hw.encoded (of_decide_eq_true hallowed)
  | other call => exact encoded_other hw.encoded hallowed

theorem wireInv_reachable {w : QuicOutqWire} (h : Reachable WireInit WireStep w) : WireInv w := by
  have hinit : ∀ w, WireInit w → WireInv w := by
    rintro _ rfl
    exact ⟨frameInv_init, contigInv_init, fun f hf => by
      simp [quicOutqWireInit, quicOutqFramesInit, QuicOutqFrames.linked] at hf⟩
  exact Reachable.invariant hinit (fun _ _ => wireInv_step) h

theorem wireStep_of_allowed (w : QuicOutqWire) (call : QuicWireCall) (h : call.allowed w = true) :
    WireStep w (call.apply w) :=
  ⟨call, h, rfl⟩

-- In every state of a run, appending to the last frame never sent of a stream finds the frame's
-- header as its creation wrote it (the offset taken back is the creation's, and there is no FIN
-- yet), so `quic_frame_stream_append` either finds no room or writes a header that says the
-- same stream and offset, the new length and the FIN this call decides, in the same buffer.
theorem WireInv.append_spec {w : QuicOutqWire} (hw : WireInv w) {S : Int} {msg : List UInt8}
    {fin : Bool} {wspace maxFrameLen : Nat} (hok : WireSendOk w.frames S wspace maxFrameLen)
    {F : QuicFrame} (hF : F ∈ w.frames.streamList.getLast?) (hFS : F.stream = S)
    (hFnum : F.number < 0) :
    w.frames.sendBytes S - (w.buf F.id).bytes = F.offset ∧
      (Frame.quicFrameStreamAppend (w.buf F.id) S.toNat (w.frames.sendBytes S) msg fin wspace
          maxFrameLen = .error (-EMSGSIZE) ∨
        ∃ k frame', Frame.quicFrameStreamAppend (w.buf F.id) S.toNat (w.frames.sendBytes S) msg fin
            wspace maxFrameLen = .ok (k, frame') ∧
          frame'.Encodes S.toNat F.offset (fin && decide (k = msg.length)) ∧
          frame'.len ≤ maxFrameLen ∧ frame'.alloc = (w.buf F.id).alloc ∧
          frame'.flist.flatten = (w.buf F.id).flist.flatten ++ msg.take k) := by
  obtain ⟨hS, -, -, -, hmin, hmax⟩ := hok
  have hFl : F ∈ w.frames.linked := List.mem_append_left _ (List.mem_of_mem_getLast? hF)
  obtain ⟨-, hFbytes, hFenc⟩ := hw.encoded F hFl
  have hend : F.offset + (w.buf F.id).bytes = w.frames.sendBytes S := by
    rw [hFbytes, ← hFS]
    exact hw.frame.newest F hF hFnum
  have hFfin : F.fin = false := by
    by_contra hfin
    have := hw.contig.fin_sent F (List.mem_append_left _ hFl) (by simpa using hfin)
    rw [hFS] at this
    omega
  rw [hFfin, hFS] at hFenc
  refine ⟨by omega, ?_⟩
  rw [← hend]
  rcases @Frame.quicFrameStreamAppend_spec _ _ _ wspace _ hFenc msg fin hmin hmax with
    herr | ⟨k, frame', hok', henc', hlen', -, -, halloc', hflat'⟩
  · exact .inl herr
  · exact .inr ⟨k, frame', hok', henc', hlen', halloc', hflat'⟩

-- STREAM frames are encoded exactly, in every state of a run of sendmsg calls (new frames and
-- appends, any lengths, FIN flags, credits and payload bounds from the longest header to the
-- u16 MSS), transmissions, acknowledgements and losses:
-- * the bytes `quic_packet_pack_frames` writes for each frame on a list read back, through
--   `quic_frame_stream_process`, as its stream, its offset (the Offset field present exactly
--   when it is not 0), its fragments as data and its FIN, and the handler skips `frame->len`;
--   the header fits the buffer allocated at creation and `frame->bytes` counts the fragments;
-- * the frames of each stream, in creation order, cover its bytes one after the other up to the
--   send offset, so each starts at the send offset its stream had when it was created;
-- * a new frame starts at the send offset, carries FIN exactly when it was asked for and the
--   whole message was taken, and fits the payload bound;
-- * an append to the last frame never sent takes the frame's offset back right, keeps the
--   buffer, sets FIN from this call alone, and fits the payload bound of this call.
theorem quicFrameStream_encoded_exactly {w : QuicOutqWire} (h : Reachable WireInit WireStep w) :
    (∀ f ∈ w.frames.linked, (f.stream.toNat : Int) = f.stream ∧
      (w.buf f.id).size ≤ (w.buf f.id).alloc ∧
      (w.buf f.id).len = (w.buf f.id).size + (w.buf f.id).bytes ∧
      (w.buf f.id).bytes = f.bytes ∧ (w.buf f.id).bytes = (w.buf f.id).flist.flatten.length ∧
      ((w.buf f.id).type &&& QUIC_STREAM_BIT_OFF ≠ 0 ↔ f.offset ≠ 0) ∧
      ∀ rest, ∃ t, (w.buf f.id).wire = UInt8.ofNat (w.buf f.id).type :: t ∧
        Frame.quicFrameStreamProcess (w.buf f.id).type (t ++ rest) =
          .ok ⟨f.stream.toNat, f.offset, (w.buf f.id).flist.flatten, f.fin, (w.buf f.id).len - 1⟩) ∧
    (∀ f ∈ w.frames.queued, f.offset = bytesBefore w.frames.queued f.stream f.id) ∧
    (∀ S, w.frames.sendBytes S = bytesBefore w.frames.queued S w.frames.nextId) ∧
    (∀ S msg fin wspace maxFrameLen, WireSendOk w.frames S wspace maxFrameLen →
      let frame : QuicStreamFrame :=
        Frame.quicFrameStreamCreate S.toNat (w.frames.sendBytes S) msg fin wspace maxFrameLen
      frame.Encodes S.toNat (w.frames.sendBytes S) (fin && decide (frame.bytes = msg.length)) ∧
        frame.len ≤ maxFrameLen ∧ frame.flist.flatten = msg.take frame.bytes) ∧
    (∀ S msg fin wspace maxFrameLen, WireSendOk w.frames S wspace maxFrameLen →
      ∀ F ∈ w.frames.streamList.getLast?, F.stream = S → F.number < 0 →
        w.frames.sendBytes S - (w.buf F.id).bytes = F.offset ∧
        (Frame.quicFrameStreamAppend (w.buf F.id) S.toNat (w.frames.sendBytes S) msg fin wspace
            maxFrameLen = .error (-EMSGSIZE) ∨
          ∃ k frame', Frame.quicFrameStreamAppend (w.buf F.id) S.toNat (w.frames.sendBytes S) msg fin
              wspace maxFrameLen = .ok (k, frame') ∧
            frame'.Encodes S.toNat F.offset (fin && decide (k = msg.length)) ∧
            frame'.len ≤ maxFrameLen ∧ frame'.alloc = (w.buf F.id).alloc ∧
            frame'.flist.flatten = (w.buf F.id).flist.flatten ++ msg.take k)) := by
  have hw := wireInv_reachable h
  refine ⟨fun f hf => ?_, hw.contig.offset, hw.contig.total, fun S msg fin wspace maxFrameLen hok => ?_,
    fun S msg fin wspace maxFrameLen hok F hF hFS hFnum => hw.append_spec hok hF hFS hFnum⟩
  · obtain ⟨hS0, hbytes, henc⟩ := hw.encoded f hf
    refine ⟨Int.toNat_of_nonneg hS0, henc.size_le_alloc, henc.len_eq, hbytes, henc.bytes_eq, ?_,
      henc.process⟩
    rw [henc.type_eq]
    exact (Frame.quicStreamFrameType_bits _ _).2.2.1
  · obtain ⟨-, hS0, hS62, hcredit, hmin, hmax⟩ := hok
    obtain ⟨henc, hlen, -, hflat⟩ := @Frame.quicFrameStreamCreate_spec _ _ wspace _ msg fin
      (show S.toNat < 2 ^ 62 by omega) (show w.frames.sendBytes S < 2 ^ 62 by omega) hmin hmax
    exact ⟨henc, hlen, hflat⟩

theorem quicFrameStream_encoded_exactly_appended :
    let w : QuicOutqWire := [QuicWireCall.tail 0 [1, 2, 3] false 100 1200,
      .append 0 [4, 5] true 100 1200].foldl QuicWireCall.apply quicOutqWireInit
    Reachable WireInit WireStep w ∧ (w.buf 0).wire = [11, 0, 5, 1, 2, 3, 4, 5] ∧
    ((∀ f ∈ w.frames.linked, (f.stream.toNat : Int) = f.stream ∧
      (w.buf f.id).size ≤ (w.buf f.id).alloc ∧
      (w.buf f.id).len = (w.buf f.id).size + (w.buf f.id).bytes ∧
      (w.buf f.id).bytes = f.bytes ∧ (w.buf f.id).bytes = (w.buf f.id).flist.flatten.length ∧
      ((w.buf f.id).type &&& QUIC_STREAM_BIT_OFF ≠ 0 ↔ f.offset ≠ 0) ∧
      ∀ rest, ∃ t, (w.buf f.id).wire = UInt8.ofNat (w.buf f.id).type :: t ∧
        Frame.quicFrameStreamProcess (w.buf f.id).type (t ++ rest) =
          .ok ⟨f.stream.toNat, f.offset, (w.buf f.id).flist.flatten, f.fin, (w.buf f.id).len - 1⟩) ∧
    (∀ f ∈ w.frames.queued, f.offset = bytesBefore w.frames.queued f.stream f.id) ∧
    (∀ S, w.frames.sendBytes S = bytesBefore w.frames.queued S w.frames.nextId) ∧
    (∀ S msg fin wspace maxFrameLen, WireSendOk w.frames S wspace maxFrameLen →
      let frame : QuicStreamFrame :=
        Frame.quicFrameStreamCreate S.toNat (w.frames.sendBytes S) msg fin wspace maxFrameLen
      frame.Encodes S.toNat (w.frames.sendBytes S) (fin && decide (frame.bytes = msg.length)) ∧
        frame.len ≤ maxFrameLen ∧ frame.flist.flatten = msg.take frame.bytes) ∧
    (∀ S msg fin wspace maxFrameLen, WireSendOk w.frames S wspace maxFrameLen →
      ∀ F ∈ w.frames.streamList.getLast?, F.stream = S → F.number < 0 →
        w.frames.sendBytes S - (w.buf F.id).bytes = F.offset ∧
        (Frame.quicFrameStreamAppend (w.buf F.id) S.toNat (w.frames.sendBytes S) msg fin wspace
            maxFrameLen = .error (-EMSGSIZE) ∨
          ∃ k frame', Frame.quicFrameStreamAppend (w.buf F.id) S.toNat (w.frames.sendBytes S) msg fin
              wspace maxFrameLen = .ok (k, frame') ∧
            frame'.Encodes S.toNat F.offset (fin && decide (k = msg.length)) ∧
            frame'.len ≤ maxFrameLen ∧ frame'.alloc = (w.buf F.id).alloc ∧
            frame'.flist.flatten = (w.buf F.id).flist.flatten ++ msg.take k))) := by
  intro w
  have h : Reachable WireInit WireStep w :=
    Reachable.foldl_of_allowedRun wireStep_of_allowed
      (Reachable.of_init (show WireInit quicOutqWireInit from rfl)) _ (by decide)
  exact ⟨h, by decide, quicFrameStream_encoded_exactly h⟩

end Quic.StreamFrames
