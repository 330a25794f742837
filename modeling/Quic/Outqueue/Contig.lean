import Quic.Outqueue.Frames

-- The frames of each stream, taken in the order they were created, carry its bytes one after
-- the other: each starts where the frames of its stream created before it end, and together
-- they end at the stream's send offset. `quic_frame_stream_append` relies on it when it takes
-- a frame's offset back as the send offset less the frame's bytes.
namespace Quic.StreamFrames

-- Every frame a sendmsg queued: those on a list and those acknowledged.
def QuicOutqFrames.queued (s : QuicOutqFrames) : List QuicFrame := s.linked ++ s.acked

-- The bytes of stream `S` that the frames created before frame `i` carry.
def bytesBefore (frames : List QuicFrame) (S : Int) (i : Nat) : Nat :=
  ((frames.filter (fun f => decide (f.stream = S) && decide (f.id < i))).map (·.bytes)).sum

section BytesBefore

variable (S : Int) (i : Nat)

@[simp] theorem bytesBefore_nil : bytesBefore [] S i = 0 := rfl

@[simp] theorem bytesBefore_cons (f : QuicFrame) (frames : List QuicFrame) :
    bytesBefore (f :: frames) S i =
      (if f.stream = S ∧ f.id < i then f.bytes else 0) + bytesBefore frames S i := by
  unfold bytesBefore
  by_cases h : f.stream = S ∧ f.id < i
  · simp [h]
  · rw [if_neg h, List.filter_cons, if_neg (by simpa using h), Nat.zero_add]

@[simp] theorem bytesBefore_append (l l' : List QuicFrame) :
    bytesBefore (l ++ l') S i = bytesBefore l S i + bytesBefore l' S i := by
  simp [bytesBefore, List.filter_append]

-- The sum reads only the frames' keys, so frames that only moved or took a number leave it.
theorem bytesBefore_perm {l l' : List QuicFrame}
    (h : (l.map QuicFrame.key).Perm (l'.map QuicFrame.key)) :
    bytesBefore l S i = bytesBefore l' S i := by
  have hkeys (l : List QuicFrame) : bytesBefore l S i =
      (((l.map QuicFrame.key).filter (fun k => decide (k.2.1 = S) && decide (k.1 < i))).map
        (fun k => k.2.2.2.1)).sum := by
    rw [List.filter_map, List.map_map]
    rfl
  rw [hkeys, hkeys]
  exact ((h.filter _).map _).sum_eq

-- Frames numbered below `i` are all there are: a larger bound counts the same.
theorem bytesBefore_of_lt {l : List QuicFrame} {j : Nat} (hij : i ≤ j) (h : ∀ f ∈ l, f.id < i) :
    bytesBefore l S j = bytesBefore l S i := by
  unfold bytesBefore
  congr 2
  refine List.filter_congr fun f hf => ?_
  have := h f hf
  simp [show f.id < i by omega, show f.id < j by omega]

end BytesBefore

theorem bytesBefore_mono (l : List QuicFrame) (S : Int) {i j : Nat} (hij : i ≤ j) :
    bytesBefore l S i ≤ bytesBefore l S j := by
  induction l with
  | nil => exact le_rfl
  | cons f l ih =>
    rw [bytesBefore_cons, bytesBefore_cons]
    have hf : (if f.stream = S ∧ f.id < i then f.bytes else 0) ≤
        (if f.stream = S ∧ f.id < j then f.bytes else 0) := by
      split_ifs <;> omega
    omega

-- A frame's bytes follow those of the earlier frames of its stream, within what a later bound
-- counts.
theorem bytesBefore_add_le {l : List QuicFrame} {f : QuicFrame} (hf : f ∈ l) {j : Nat}
    (hj : f.id < j) : bytesBefore l f.stream f.id + f.bytes ≤ bytesBefore l f.stream j := by
  induction l with
  | nil => cases hf
  | cons g l ih =>
    rw [bytesBefore_cons, bytesBefore_cons]
    rcases List.mem_cons.1 hf with rfl | hf
    · have hle := bytesBefore_mono l f.stream hj.le
      simp only [lt_irrefl, and_false, if_false, true_and, hj, if_true]
      omega
    · have hrest := ih hf
      have hg : (if g.stream = f.stream ∧ g.id < f.id then g.bytes else 0) ≤
          (if g.stream = f.stream ∧ g.id < j then g.bytes else 0) := by
        split_ifs <;> omega
      omega


-- The send states a frame's stream has been in: queued makes it Send, FIN makes it Sent.
theorem quicStreamSendStateQueued_ge {state : Nat} (h : state < QUIC_STREAM_SEND_STATE_SENT)
    (fin : Bool) :
    state ≤ quicStreamSendStateQueued state fin ∧
      QUIC_STREAM_SEND_STATE_SEND ≤ quicStreamSendStateQueued state fin ∧
      (fin = true → QUIC_STREAM_SEND_STATE_SENT ≤ quicStreamSendStateQueued state fin) := by
  simp only [QUIC_STREAM_SEND_STATE_SENT] at h
  obtain rfl | rfl : state = 0 ∨ state = 1 := by omega
  all_goals cases fin <;> decide

-- The frames of each stream in creation order cover its bytes one after the other; the last
-- frame never sent is the newest of all; and a queued frame's stream is Send or later, Sent or
-- later once the frame carries FIN.
structure ContigInv (s : QuicOutqFrames) : Prop where
  offset : ∀ f ∈ s.queued, f.offset = bytesBefore s.queued f.stream f.id
  total : ∀ S, s.sendBytes S = bytesBefore s.queued S s.nextId
  latest : ∀ f ∈ s.streamList.getLast?, f.number < 0 → f.id + 1 = s.nextId
  fin_sent : ∀ f ∈ s.queued, f.fin → QUIC_STREAM_SEND_STATE_SENT ≤ s.sendState f.stream
  sending : ∀ f ∈ s.queued, QUIC_STREAM_SEND_STATE_SEND ≤ s.sendState f.stream

theorem contigInv_init : ContigInv quicOutqFramesInit := by
  refine ⟨?_, ?_, ?_, ?_, ?_⟩ <;>
    simp [quicOutqFramesInit, QuicOutqFrames.queued, QuicOutqFrames.linked]

-- Each frame queued ends within its stream's send offset.
theorem ContigInv.end_le {s : QuicOutqFrames} (hc : ContigInv s) (hs : FrameKeyInv s)
    {f : QuicFrame} (hf : f ∈ s.queued) : f.offset + f.bytes ≤ s.sendBytes f.stream := by
  rw [hc.offset f hf, hc.total]
  exact bytesBefore_add_le hf (hs.id_lt f hf)

-- A step that only moves frames, numbers them or acknowledges them keeps the invariant, as long
-- as the last frame never sent stays the one it was.
theorem ContigInv.of_keys {s t : QuicOutqFrames} (hc : ContigInv s)
    (hkeys : (t.queued.map QuicFrame.key).Perm (s.queued.map QuicFrame.key))
    (hbytes : t.sendBytes = s.sendBytes) (hid : t.nextId = s.nextId)
    (hstate : ∀ S, s.sendState S ≤ t.sendState S)
    (hlast : ∀ f ∈ t.streamList.getLast?, f.number < 0 → f ∈ s.streamList.getLast?) :
    ContigInv t := by
  have hbefore (S : Int) (i : Nat) : bytesBefore t.queued S i = bytesBefore s.queued S i :=
    bytesBefore_perm S i hkeys
  refine ⟨?_, ?_, ?_, ?_, ?_⟩
  · intro f hf
    obtain ⟨g, hg, hgf⟩ := exists_key_of_perm hkeys hf
    obtain ⟨hgid, hgs, hgo, -, -⟩ := QuicFrame.stream_eq_of_key hgf
    rw [hbefore, ← hgid, ← hgs, ← hgo]
    exact hc.offset g hg
  · intro S
    rw [hbytes, hid, hbefore]
    exact hc.total S
  · intro f hf hneg
    rw [hid]
    exact hc.latest f (hlast f hf hneg) hneg
  · intro f hf hfin
    obtain ⟨g, hg, hgf⟩ := exists_key_of_perm hkeys hf
    obtain ⟨-, hgs, -, -, hgfin⟩ := QuicFrame.stream_eq_of_key hgf
    rw [← hgs]
    exact (hc.fin_sent g hg (hgfin.trans hfin)).trans (hstate _)
  · intro f hf
    obtain ⟨g, hg, hgf⟩ := exists_key_of_perm hkeys hf
    rw [← (QuicFrame.stream_eq_of_key hgf).2.1]
    exact (hc.sending g hg).trans (hstate _)

/-! ## Queueing -/

theorem contigInv_tail {s : QuicOutqFrames} (hs : FrameInv s) (hc : ContigInv s) {S : Int}
    (hS : s.sendState S < QUIC_STREAM_SEND_STATE_SENT) (bytes : Nat) (fin nodelay : Bool) :
    ContigInv (quicOutqStreamTail s (quicFrameStreamCreate s S bytes fin nodelay)) := by
  set N := quicFrameStreamCreate s S bytes fin nodelay with hN
  set t := quicOutqStreamTail s N with ht
  have hqueued : t.queued.Perm (N :: s.queued) := by
    simp only [ht, quicOutqStreamTail, QuicOutqFrames.queued, QuicOutqFrames.linked,
      List.append_assoc, List.singleton_append]
    exact List.perm_middle
  have hmem (f : QuicFrame) : f ∈ t.queued ↔ f = N ∨ f ∈ s.queued := by
    rw [hqueued.mem_iff, List.mem_cons]
  have hbefore (S' : Int) (i : Nat) : bytesBefore t.queued S' i =
      (if S = S' ∧ s.nextId < i then bytes else 0) + bytesBefore s.queued S' i := by
    rw [bytesBefore_perm S' i (hqueued.map _), bytesBefore_cons]
    rfl
  have hid : t.nextId = s.nextId + 1 := rfl
  have hbytes (S' : Int) : t.sendBytes S' =
      if S' = S then s.sendBytes S + bytes else s.sendBytes S' := Function.update_apply ..
  have hstate (S' : Int) : t.sendState S' = if S' = S then
      quicStreamSendStateQueued (s.sendState S) fin else s.sendState S' := Function.update_apply ..
  obtain ⟨hge, hsend, hsent⟩ := quicStreamSendStateQueued_ge hS fin
  have hmono (S' : Int) : s.sendState S' ≤ t.sendState S' := by
    rw [hstate]
    split_ifs with h
    · exact h ▸ hge
    · exact le_rfl
  have hold : ∀ f ∈ s.queued, ¬ (s.nextId < f.id) := fun f hf => by
    have := hs.id_lt f hf
    omega
  refine ⟨?_, ?_, ?_, ?_, ?_⟩
  · intro f hf
    rw [hbefore]
    rcases (hmem f).1 hf with rfl | hf
    · -- the new frame starts at the send offset, where the frames of its stream end
      rw [if_neg (fun h => lt_irrefl _ h.2), Nat.zero_add]
      exact hc.total S
    · rw [if_neg (fun h => hold f hf h.2), Nat.zero_add]
      exact hc.offset f hf
  · intro S'
    rw [hbytes, hbefore, hid,
      bytesBefore_of_lt S' s.nextId (l := s.queued) (j := s.nextId + 1) (by omega) hs.id_lt]
    by_cases h : S' = S
    · subst h
      rw [if_pos rfl, if_pos ⟨rfl, Nat.lt_succ_self _⟩, hc.total, Nat.add_comm]
    · rw [if_neg h, if_neg (fun h' => h h'.1.symm), Nat.zero_add]
      exact hc.total S'
  · intro f hf _
    simp only [ht, quicOutqStreamTail, List.getLast?_concat, Option.mem_some_iff] at hf
    subst hf
    rfl
  · intro f hf hfin
    rcases (hmem f).1 hf with rfl | hf
    · rw [hstate, if_pos (show N.stream = S from rfl)]
      exact hsent hfin
    · exact (hc.fin_sent f hf hfin).trans (hmono _)
  · intro f hf
    rcases (hmem f).1 hf with rfl | hf
    · rw [hstate, if_pos (show N.stream = S from rfl)]
      exact hsend
    · exact (hc.sending f hf).trans (hmono _)

theorem contigInv_append {s t : QuicOutqFrames} (hs : FrameInv s) (hc : ContigInv s) {S : Int}
    (hS : s.sendState S < QUIC_STREAM_SEND_STATE_SENT) {bytes : Nat} {fin nodelay : Bool}
    (h : quicOutqStreamAppend s S bytes fin nodelay = .ok t) : ContigInv t := by
  obtain ⟨F, hlast, hFS, hFnum, ht⟩ := quicOutqStreamAppend_ok h
  set F' := quicFrameStreamAppend s F bytes fin nodelay with hF'
  set L0 := s.streamList.dropLast
  set rest := s.transmittedList ++ s.acked
  have hsplit : s.streamList = L0 ++ [F] := (List.dropLast_append_getLast? F hlast).symm
  have hend : F.offset + F.bytes = s.sendBytes S := hFS ▸ hs.newest F hlast hFnum
  have hFid : F.id + 1 = s.nextId := hc.latest F hlast hFnum
  have hsq : s.queued = L0 ++ F :: rest := by
    simp [QuicOutqFrames.queued, QuicOutqFrames.linked, hsplit, rest]
  have htq : t.queued = L0 ++ F' :: rest := by
    rw [ht]
    simp [QuicOutqFrames.queued, QuicOutqFrames.linked, rest, F']
  have hF : F ∈ s.queued := by simp [hsq]
  have hid : t.nextId = s.nextId := by rw [ht]
  -- the frame appended to is the newest, so no frame counts its bytes before it
  have hbefore (S' : Int) (i : Nat) : bytesBefore t.queued S' i =
      bytesBefore s.queued S' i + (if S = S' ∧ F.id < i then bytes else 0) := by
    rw [htq, hsq, bytesBefore_append, bytesBefore_append, bytesBefore_cons, bytesBefore_cons]
    have hF'stream : F'.stream = F.stream := rfl
    have hF'id : F'.id = F.id := rfl
    have hF'bytes : F'.bytes = F.bytes + bytes := rfl
    rw [hF'stream, hF'id, hF'bytes, hFS]
    split_ifs <;> omega
  have hbytes (S' : Int) : t.sendBytes S' =
      if S' = S then s.sendBytes S + bytes else s.sendBytes S' := by
    rw [ht]
    exact Function.update_apply ..
  have hstate (S' : Int) : t.sendState S' = if S' = S then
      (if F'.fin ∧ s.sendState S = QUIC_STREAM_SEND_STATE_SEND then QUIC_STREAM_SEND_STATE_SENT
        else s.sendState S) else s.sendState S' := by
    rw [ht]
    exact Function.update_apply ..
  have hmono (S' : Int) : s.sendState S' ≤ t.sendState S' := by
    rw [hstate]
    split_ifs with h1 h2
    · subst h1
      rw [h2.2]
      decide
    · rw [h1]
    · exact le_rfl
  -- the frame carries no FIN yet: its stream would be Sent
  have hFfin : F.fin = false := by
    by_contra hfin
    have := hc.fin_sent F hF (by simpa using hfin)
    rw [hFS] at this
    omega
  have hsend : s.sendState S = QUIC_STREAM_SEND_STATE_SEND := by
    have := hc.sending F hF
    rw [hFS] at this
    simp only [QUIC_STREAM_SEND_STATE_SEND, QUIC_STREAM_SEND_STATE_SENT] at this hS ⊢
    omega
  have hmem (f : QuicFrame) (hf : f ∈ t.queued) : f = F' ∨ f ∈ s.queued := by
    rw [htq] at hf
    rw [hsq]
    simp only [List.mem_append, List.mem_cons] at hf ⊢
    tauto
  have hold : ∀ f ∈ s.queued, ¬ (F.id < f.id) := fun f hf => by
    have := hs.id_lt f hf
    omega
  refine ⟨?_, ?_, ?_, ?_, ?_⟩
  · intro f hf
    rw [hbefore]
    rcases hmem f hf with rfl | hf
    · -- the offset is taken back as the send offset less the frame's bytes: the old offset
      rw [if_neg (fun h => lt_irrefl _ h.2), Nat.add_zero]
      show s.sendBytes F.stream - F.bytes = bytesBefore s.queued F.stream F.id
      rw [← hc.offset F hF, hFS]
      omega
    · rw [if_neg (fun h => hold f hf h.2), Nat.add_zero]
      exact hc.offset f hf
  · intro S'
    have hlt : F.id < s.nextId := by omega
    rw [hbytes, hbefore, hid]
    by_cases h : S' = S
    · subst h
      rw [if_pos rfl, if_pos ⟨rfl, hlt⟩, hc.total]
    · rw [if_neg h, if_neg (fun h' => h h'.1.symm), Nat.add_zero]
      exact hc.total S'
  · intro f hf _
    rw [ht] at hf
    simp only [List.getLast?_concat, Option.mem_some_iff] at hf
    subst hf
    rw [hid]
    exact hFid
  · intro f hf hfin
    rcases hmem f hf with rfl | hf
    · -- FIN comes with this call, and the stream goes from Send to Sent
      have hF'fin : F'.fin = true := hfin
      rw [show F'.stream = S from hFS, hstate, if_pos rfl, if_pos ⟨hF'fin, hsend⟩]
    · exact (hc.fin_sent f hf hfin).trans (hmono _)
  · intro f hf
    rcases hmem f hf with rfl | hf
    · rw [show F'.stream = S from hFS]
      exact hsend.ge.trans (hmono S)
    · exact (hc.sending f hf).trans (hmono _)

/-! ## Sending, acknowledgement and loss -/

theorem contigInv_pack {s : QuicOutqFrames} (hc : ContigInv s)
    {streamList transmittedList frames : List QuicFrame} (len : Nat)
    (hlinked : (streamList ++ transmittedList ++ frames).Perm s.linked)
    (hlast : ∀ f ∈ streamList.getLast?, f.number < 0 → f ∈ s.streamList.getLast?) :
    ContigInv (quicPacketPackFrames
      { s with streamList := streamList, transmittedList := transmittedList, streamListLen := len }
      frames) := by
  refine hc.of_keys ?_ rfl rfl (fun _ => le_rfl) hlast
  simp only [QuicOutqFrames.queued, List.map_append]
  exact (quicPacketPackFrames_keys s len hlinked).append_right _

theorem quicOutqPsentSackFrame_fields (s : QuicOutqFrames) (g : QuicFrame) :
    (quicOutqPsentSackFrame s g).sendBytes = s.sendBytes ∧
      (quicOutqPsentSackFrame s g).nextId = s.nextId ∧
      ∀ S, s.sendState S ≤ (quicOutqPsentSackFrame s g).sendState S := by
  cases hfind : s.find g.id with
  | none => simp [quicOutqPsentSackFrame, hfind]
  | some f =>
    obtain ⟨state, heq, hstate⟩ := quicOutqPsentSackFrame_found hfind
    rw [heq]
    refine ⟨rfl, rfl, fun S => ?_⟩
    rcases hstate with rfl | ⟨-, hsent, rfl⟩
    · exact le_rfl
    · -- Sent becomes Data Recvd
      dsimp only
      rw [Function.update_apply]
      split_ifs with h
      · rw [h, hsent]
        decide
      · exact le_rfl

theorem contigInv_sackFrame {s : QuicOutqFrames} (hs : FrameInv s) (hc : ContigInv s)
    {g : QuicFrame} (hg : ∀ f ∈ s.linked, f.id = g.id → f.key = g.key ∧ 0 ≤ f.number) :
    ContigInv (quicOutqPsentSackFrame s g) :=
  let hfields := quicOutqPsentSackFrame_fields s g
  hc.of_keys (quicOutqPsentSackFrame_keys hs.linked_ids_nodup hg) hfields.1 hfields.2.1
    hfields.2.2 (quicOutqPsentSackFrame_last hs hg)

theorem quicOutqPsentRetransmitFrame_fields (s : QuicOutqFrames) (g : QuicFrame) :
    (quicOutqPsentRetransmitFrame s g).sendBytes = s.sendBytes ∧
      (quicOutqPsentRetransmitFrame s g).nextId = s.nextId ∧
      (quicOutqPsentRetransmitFrame s g).sendState = s.sendState := by
  unfold quicOutqPsentRetransmitFrame
  split
  · exact ⟨rfl, rfl, rfl⟩
  · split_ifs <;> exact ⟨rfl, rfl, rfl⟩

theorem contigInv_retransmitFrame {s : QuicOutqFrames} (hs : FrameInv s) (hc : ContigInv s)
    {g : QuicFrame} (hg : ∀ f ∈ s.linked, f.id = g.id → f.key = g.key ∧ 0 ≤ f.number) :
    ContigInv (quicOutqPsentRetransmitFrame s g) := by
  obtain ⟨hlinked, hacked⟩ := quicOutqPsentRetransmitFrame_keys hs.linked_ids_nodup g
  obtain ⟨hbytes, hid, hstate⟩ := quicOutqPsentRetransmitFrame_fields s g
  refine hc.of_keys ?_ hbytes hid (fun S => hstate ▸ le_rfl) (quicOutqPsentRetransmitFrame_last hs hg)
  simp only [QuicOutqFrames.queued, List.map_append, hacked]
  exact hlinked.append_right _

theorem ContigInv.erasePacket {s : QuicOutqFrames} (hc : ContigInv s) (i : Nat) :
    ContigInv { s with packetSentList := s.packetSentList.eraseIdx i } :=
  ⟨hc.offset, hc.total, hc.latest, hc.fin_sent, hc.sending⟩

theorem contigInv_step {s t : QuicOutqFrames} (hs : FrameInv s) (hc : ContigInv s)
    (h : FrameStep s t) : ContigInv t := by
  obtain ⟨call, hallowed, rfl⟩ := h
  cases call with
  | tail S bytes fin nodelay =>
    exact contigInv_tail hs hc (by simpa [QuicFrameCall.allowed] using hallowed) bytes fin nodelay
  | append S bytes fin nodelay =>
    simp only [QuicFrameCall.apply]
    split
    · next t ht => exact contigInv_append hs hc (by simpa [QuicFrameCall.allowed] using hallowed) ht
    · exact hc
  | transmitStream n =>
    exact contigInv_pack hc _ (quicOutqTransmitStream_perm s n) (quicOutqTransmitStream_last s n)
  | transmitOld ids =>
    exact contigInv_pack hc s.streamListLen (quicOutqTransmitOld_perm s ids) (fun _ hf _ => hf)
  | sack i =>
    exact (foldl_of_carried (P := fun s => FrameInv s ∧ ContigInv s)
      (fun _ _ h hg => ⟨frameInv_sackFrame h.1 hg, contigInv_sackFrame h.1 h.2 hg⟩)
      quicOutqPsentSackFrame_linked _ ⟨hs.erasePacket i, hc.erasePacket i⟩ (hs.carried_getD i)).2
  | lost i =>
    exact (foldl_of_carried (P := fun s => FrameInv s ∧ ContigInv s)
      (fun _ _ h hg => ⟨frameInv_retransmitFrame h.1 hg, contigInv_retransmitFrame h.1 h.2 hg⟩)
      quicOutqPsentRetransmitFrame_linked _ ⟨hs.erasePacket i, hc.erasePacket i⟩
      (hs.carried_getD i)).2

-- Every state of a run keeps both invariants.
theorem contigInv_reachable {s : QuicOutqFrames} (h : Reachable FrameInit FrameStep s) :
    FrameInv s ∧ ContigInv s := by
  have hinit : ∀ t, FrameInit t → FrameInv t ∧ ContigInv t := fun _ ht =>
    ht ▸ ⟨frameInv_init, contigInv_init⟩
  exact Reachable.invariant hinit
    (fun _ _ hi hst => ⟨frameInv_step hi.1 hst, contigInv_step hi.1 hi.2 hst⟩) h

end Quic.StreamFrames
