import Quic.Pnspace.Defs
import Quic.Lib.Reachable
import Quic.Lib.OrderedList

namespace Quic

def QUIC_KPACKET_THRESHOLD : Int := 3

-- `struct quic_packet_sent`, with the fields the sent-packet bookkeeping reads; `level` is the
-- number-space level `packet->level % QUIC_CRYPTO_EARLY`, `frame_len` a u16.
structure QuicPacketSent where
  number : Int
  sentTime : Nat
  frameLen : Nat
  level : Nat
  deriving DecidableEq, Repr

-- `packet_sent_list` and the u32 `inflight` of `struct quic_outqueue`, with the socket's
-- number spaces `quic_sk(sk)->space[]`.
structure QuicOutqSent where
  sent : List QuicPacketSent
  inflight : Nat
  spaces : Nat → QuicPnspace

-- `quic_pnspace(sk, level)`: 0-RTT and 1-RTT share the application space.
def quicPnspace (s : QuicOutqSent) (level : Nat) : QuicPnspace :=
  s.spaces (level % QUIC_CRYPTO_EARLY)

-- A write through the pointer `quic_pnspace(sk, level)`.
def QuicOutqSent.setSpace (s : QuicOutqSent) (level : Nat) (space : QuicPnspace) : QuicOutqSent :=
  { s with spaces := fun x => if x = level % QUIC_CRYPTO_EARLY then space else s.spaces x }

-- The outqueue after `quic_outq_init` and `quic_pnspace_init` of every space.
def quicOutqSentInit : QuicOutqSent :=
  { sent := [], inflight := 0, spaces := fun _ => (quicPnspaceInit QuicPnspace.zeroed true).2 }

-- The walk of `quic_outq_packet_sent_tail` for a packet of a handshake level: past the packets
-- of lower or equal level, in front of the first of a higher or of the application level.
def quicOutqPacketSentInsert (sent : QuicPacketSent) : List QuicPacketSent → List QuicPacketSent
  | [] => [sent]
  | pos :: rest =>
    if pos.level = 0 then sent :: pos :: rest
    else if sent.level > pos.level then pos :: quicOutqPacketSentInsert sent rest
    else if sent.level < pos.level then sent :: pos :: rest
    else pos :: quicOutqPacketSentInsert sent rest

-- `quic_outq_packet_sent_tail`: application packets go to the end of the list.
def quicOutqPacketSentTail (list : List QuicPacketSent) (sent : QuicPacketSent) :
    List QuicPacketSent :=
  if sent.level ≠ 0 then quicOutqPacketSentInsert sent list else list ++ [sent]

-- The sent-packet accounting of `quic_packet_pack_frames` for a packet of `level` carrying
-- `frames` ack-eliciting frames (PING excepted) of `frame_len` bytes: the packet takes the
-- space's next number, and only a packet with such frames has a `quic_packet_sent` record.
def quicPacketPackFrames (s : QuicOutqSent) (level frames frameLen now : Nat) : QuicOutqSent :=
  let space := quicPnspace s level
  let number := space.nextPn
  let s := s.setSpace level { space with nextPn := number + 1 }
  if frames = 0 then s
  else
    let sent : QuicPacketSent := ⟨number, now, frameLen, level % QUIC_CRYPTO_EARLY⟩
    let space := quicPnspace s level
    let s := s.setSpace level { space with inflight := toU32 (space.inflight + frameLen) }
    { s with inflight := toU32 (s.inflight + frameLen), sent := quicOutqPacketSentTail s.sent sent }

-- `outq->inflight -= sent->frame_len; space->inflight -= sent->frame_len;`, both u32.
def quicOutqInflightSub (s : QuicOutqSent) (level : Nat) (sent : QuicPacketSent) : QuicOutqSent :=
  let space := quicPnspace s level
  ({ s with inflight := toU32 ((s.inflight : Int) - sent.frameLen) } : QuicOutqSent).setSpace level
    { space with inflight := toU32 ((space.inflight : Int) - sent.frameLen) }

-- `quic_pnspace_set_max_pn_acked_seen`, without the time stamp.
def quicPnspaceSetMaxPnAckedSeen (space : QuicPnspace) (pn : Int) : QuicPnspace :=
  if space.maxPnAckedSeen ≥ pn then space else { space with maxPnAckedSeen := pn }

-- A newly acknowledged packet in `quic_outq_transmitted_sack`.
def quicOutqSackOne (s : QuicOutqSent) (level : Nat) (ackLargest : Int) (sent : QuicPacketSent) :
    QuicOutqSent :=
  let s := quicOutqInflightSub s level sent
  if sent.number = ackLargest then
    s.setSpace level (quicPnspaceSetMaxPnAckedSeen (quicPnspace s level) sent.number)
  else s

-- The reverse walk of `quic_outq_transmitted_sack` over the list read from its tail: the
-- packets it keeps (tail first) and the state after those it acknowledges.
def quicOutqTransmittedSackWalk (level : Nat) (largest smallest ackLargest : Int) :
    List QuicPacketSent → QuicOutqSent → List QuicPacketSent × QuicOutqSent
  | [], s => ([], s)
  | sent :: rest, s =>
    if level ≠ sent.level then
      let r := quicOutqTransmittedSackWalk level largest smallest ackLargest rest s
      (sent :: r.1, r.2)
    else if sent.number > largest then
      let r := quicOutqTransmittedSackWalk level largest smallest ackLargest rest s
      (sent :: r.1, r.2)
    else if sent.number < smallest then (sent :: rest, s)
    else
      quicOutqTransmittedSackWalk level largest smallest ackLargest rest
        (quicOutqSackOne s level ackLargest sent)

def quicOutqTransmittedSack (s : QuicOutqSent) (level : Nat) (largest smallest ackLargest : Int) :
    QuicOutqSent :=
  let r := quicOutqTransmittedSackWalk level largest smallest ackLargest s.sent.reverse s
  { r.2 with sent := r.1.reverse }

-- The walk of `quic_outq_retransmit_mark`: the packets it keeps and the state after those it
-- declares lost; the walk stops at the application packets when marking a handshake level,
-- and, unless `immediate`, at the first packet not yet deemed lost.
def quicOutqRetransmitMarkWalk (level : Nat) (immediate : Bool) (now lossDelay : Nat) :
    List QuicPacketSent → QuicOutqSent → List QuicPacketSent × QuicOutqSent
  | [], s => ([], s)
  | sent :: rest, s =>
    let space := quicPnspace s level
    if level ≠ 0 ∧ sent.level = 0 then (sent :: rest, s)
    else if level ≠ sent.level then
      let r := quicOutqRetransmitMarkWalk level immediate now lossDelay rest s
      (sent :: r.1, r.2)
    else if immediate = false ∧ sent.number > space.maxPnAckedSeen then (sent :: rest, s)
    else if immediate = false ∧ sent.sentTime + lossDelay > now ∧
        sent.number + QUIC_KPACKET_THRESHOLD > space.maxPnAckedSeen then
      let lossTime := sent.sentTime + lossDelay
      let space := if space.lossTime = 0 ∨ space.lossTime > lossTime then
        { space with lossTime := lossTime } else space
      (sent :: rest, s.setSpace level space)
    else
      quicOutqRetransmitMarkWalk level immediate now lossDelay rest (quicOutqInflightSub s level sent)

def quicOutqRetransmitMark (s : QuicOutqSent) (level : Nat) (immediate : Bool) (now lossDelay : Nat) :
    QuicOutqSent :=
  let s := s.setSpace level { quicPnspace s level with lossTime := 0 }
  let r := quicOutqRetransmitMarkWalk level immediate now lossDelay s.sent s
  { r.2 with sent := r.1 }

-- Transmission, ACK processing and loss detection in any order. A packet is only built while
-- `quic_packet_number_check` lets its number through, and `frame_len` is a u16.
inductive SentStep : QuicOutqSent → QuicOutqSent → Prop
  | send (s : QuicOutqSent) (level frames frameLen now : Nat) :
      frameLen < 2 ^ 16 → (quicPnspace s level).nextPn + 1 ≤ QUIC_PN_MAX →
      SentStep s (quicPacketPackFrames s level frames frameLen now)
  | sack (s : QuicOutqSent) (level : Nat) (largest smallest ackLargest : Int) :
      SentStep s (quicOutqTransmittedSack s level largest smallest ackLargest)
  | mark (s : QuicOutqSent) (level : Nat) (immediate : Bool) (now lossDelay : Nat) :
      SentStep s (quicOutqRetransmitMark s level immediate now lossDelay)

def SentInit (s : QuicOutqSent) : Prop := s = quicOutqSentInit

section Space

variable (s : QuicOutqSent) (level : Nat) (space : QuicPnspace)

@[simp] theorem QuicOutqSent.setSpace_sent : (s.setSpace level space).sent = s.sent := rfl

@[simp] theorem QuicOutqSent.setSpace_inflight : (s.setSpace level space).inflight = s.inflight :=
  rfl

theorem QuicOutqSent.setSpace_self :
    (s.setSpace level space).spaces (level % QUIC_CRYPTO_EARLY) = space := by
  unfold QuicOutqSent.setSpace
  exact if_pos rfl

theorem QuicOutqSent.setSpace_of_ne {x : Nat} (h : x ≠ level % QUIC_CRYPTO_EARLY) :
    (s.setSpace level space).spaces x = s.spaces x := by
  unfold QuicOutqSent.setSpace
  exact if_neg h

@[simp] theorem quicPnspace_setSpace : quicPnspace (s.setSpace level space) level = space :=
  QuicOutqSent.setSpace_self s level space

theorem level_mod_lt : level % QUIC_CRYPTO_EARLY < QUIC_CRYPTO_EARLY := by
  unfold QUIC_CRYPTO_EARLY
  omega

end Space

-- The bytes of a list of sent packets, and of those of one level.
def sentBytes (l : List QuicPacketSent) : Nat := (l.map (·.frameLen)).sum

def levelBytes (l : List QuicPacketSent) (level : Nat) : Nat :=
  sentBytes (l.filter (·.level = level))

@[simp] theorem sentBytes_nil : sentBytes [] = 0 := rfl

@[simp] theorem sentBytes_cons (p : QuicPacketSent) (l : List QuicPacketSent) :
    sentBytes (p :: l) = p.frameLen + sentBytes l := by
  simp only [sentBytes, List.map_cons, List.sum_cons]

@[simp] theorem sentBytes_append (l l' : List QuicPacketSent) :
    sentBytes (l ++ l') = sentBytes l + sentBytes l' := by
  simp only [sentBytes, List.map_append, List.sum_append]

theorem sentBytes_perm {l l' : List QuicPacketSent} (h : List.Perm l l') :
    sentBytes l = sentBytes l' :=
  (h.map _).sum_nat

theorem levelBytes_perm {l l' : List QuicPacketSent} (h : List.Perm l l') (level : Nat) :
    levelBytes l level = levelBytes l' level :=
  sentBytes_perm (h.filter _)

theorem levelBytes_cons (p : QuicPacketSent) (l : List QuicPacketSent) (level : Nat) :
    levelBytes (p :: l) level = (if p.level = level then p.frameLen else 0) + levelBytes l level := by
  unfold levelBytes
  by_cases h : p.level = level
  · rw [List.filter_cons_of_pos (by simpa using h), sentBytes_cons, if_pos h]
  · rw [List.filter_cons_of_neg (by simpa using h), if_neg h, Nat.zero_add]

-- Splitting a list by a filter splits its bytes, overall and level by level.
theorem sentBytes_filter_add (l : List QuicPacketSent) (P : QuicPacketSent → Bool) :
    sentBytes (l.filter P) + sentBytes (l.filter (fun p => !P p)) = sentBytes l :=
  OrderedList.sum_map_filter_add_not P _ l

theorem levelBytes_filter_add (l : List QuicPacketSent) (P : QuicPacketSent → Bool) (level : Nat) :
    levelBytes (l.filter P) level + levelBytes (l.filter (fun p => !P p)) level =
      levelBytes l level := by
  unfold levelBytes
  rw [List.filter_comm _ P, List.filter_comm _ (fun p => !P p)]
  exact sentBytes_filter_add _ P

theorem levelBytes_le (l : List QuicPacketSent) (level : Nat) : levelBytes l level ≤ sentBytes l := by
  have h := sentBytes_filter_add l (fun p => decide (p.level = level))
  unfold levelBytes
  omega

-- A list of packets all of one level has its bytes at that level only.
theorem levelBytes_of_forall {l : List QuicPacketSent} {level : Nat}
    (h : ∀ p ∈ l, p.level = level) (x : Nat) :
    levelBytes l x = if x = level then sentBytes l else 0 := by
  unfold levelBytes
  by_cases hx : x = level
  · subst hx
    rw [if_pos rfl, List.filter_eq_self.2 (fun p hp => by simpa using h p hp)]
  · rw [if_neg hx, List.filter_eq_nil_iff.2 (fun p hp => by simpa [h p hp] using Ne.symm hx)]
    rfl

-- The order of `packet_sent_list`: handshake levels first, by level, then the application
-- level; within a level by packet number.
def levelRank (level : Nat) : Nat := if level = 0 then QUIC_CRYPTO_EARLY else level

def SentBefore (a b : QuicPacketSent) : Prop :=
  levelRank a.level < levelRank b.level ∨ (a.level = b.level ∧ a.number < b.number)

theorem SentBefore.trans {a b c : QuicPacketSent} (h₁ : SentBefore a b) (h₂ : SentBefore b c) :
    SentBefore a c := by
  unfold SentBefore at *
  rcases h₁ with h₁ | ⟨e₁, n₁⟩ <;> rcases h₂ with h₂ | ⟨e₂, n₂⟩
  · exact Or.inl (Nat.lt_trans h₁ h₂)
  · rw [← e₂]
    exact Or.inl h₁
  · rw [e₁]
    exact Or.inl h₂
  · exact Or.inr ⟨e₁.trans e₂, Int.lt_trans n₁ n₂⟩

theorem SentBefore.number_lt {a b : QuicPacketSent} (h : SentBefore a b) (he : a.level = b.level) :
    a.number < b.number := by
  rcases h with h | ⟨_, h⟩
  · rw [he] at h
    exact absurd h (Nat.lt_irrefl _)
  · exact h

theorem levelRank_le {level : Nat} (h : level < QUIC_CRYPTO_EARLY) :
    levelRank level ≤ QUIC_CRYPTO_EARLY := by
  unfold levelRank
  split <;> omega

theorem levelRank_of_ne {level : Nat} (h : level ≠ 0) : levelRank level = level := if_neg h

theorem levelRank_zero : levelRank 0 = QUIC_CRYPTO_EARLY := if_pos rfl

-- The packets the walk of `quic_outq_packet_sent_tail` goes past.
def sentPassed (sent pos : QuicPacketSent) : Bool := decide (pos.level ≠ 0 ∧ pos.level ≤ sent.level)

theorem quicOutqPacketSentInsert_eq (sent : QuicPacketSent) :
    ∀ l : List QuicPacketSent, quicOutqPacketSentInsert sent l =
      l.takeWhile (sentPassed sent) ++ sent :: l.dropWhile (sentPassed sent)
  | [] => rfl
  | pos :: rest => by
    have ih := quicOutqPacketSentInsert_eq sent rest
    unfold quicOutqPacketSentInsert
    by_cases h₀ : pos.level = 0
    · have hc : ¬ sentPassed sent pos = true := by simp [sentPassed, h₀]
      rw [if_pos h₀, List.takeWhile_cons_of_neg hc, List.dropWhile_cons_of_neg hc]
      rfl
    rw [if_neg h₀]
    by_cases hlt : sent.level < pos.level
    · have hc : ¬ sentPassed sent pos = true := by
        simp only [sentPassed, decide_eq_true_eq]
        omega
      rw [if_neg (by omega), if_pos hlt, List.takeWhile_cons_of_neg hc,
        List.dropWhile_cons_of_neg hc]
      rfl
    -- `pos` is of a handshake level at most the new packet's: the walk goes past it
    have hc : sentPassed sent pos = true := by
      simp only [sentPassed, decide_eq_true_eq]
      omega
    rw [List.takeWhile_cons_of_pos hc, List.dropWhile_cons_of_pos hc, List.cons_append, ← ih]
    by_cases hgt : sent.level > pos.level
    · rw [if_pos hgt]
    · rw [if_neg hgt, if_neg hlt]

theorem quicOutqPacketSentTail_perm (l : List QuicPacketSent) (sent : QuicPacketSent) :
    List.Perm (quicOutqPacketSentTail l sent) (sent :: l) := by
  unfold quicOutqPacketSentTail
  split
  · rw [quicOutqPacketSentInsert_eq]
    have h : List.Perm (l.takeWhile (sentPassed sent) ++ sent :: l.dropWhile (sentPassed sent))
        (sent :: (l.takeWhile (sentPassed sent) ++ l.dropWhile (sentPassed sent))) :=
      List.perm_middle
    rwa [List.takeWhile_append_dropWhile] at h
  · exact List.perm_append_singleton sent l

-- Appending a packet whose number is above every number of its level keeps the list in order.
theorem quicOutqPacketSentTail_pairwise {l : List QuicPacketSent} {sent : QuicPacketSent}
    (hl : l.Pairwise SentBefore) (hlv : ∀ p ∈ l, p.level < QUIC_CRYPTO_EARLY)
    (hsent : sent.level < QUIC_CRYPTO_EARLY)
    (hnum : ∀ p ∈ l, p.level = sent.level → p.number < sent.number) :
    (quicOutqPacketSentTail l sent).Pairwise SentBefore := by
  have htrans : ∀ a b c, SentBefore a b → SentBefore b c → SentBefore a c :=
    fun _ _ _ => SentBefore.trans
  unfold quicOutqPacketSentTail
  split
  · rename_i h₀
    rw [quicOutqPacketSentInsert_eq]
    apply OrderedList.pairwise_takeWhile_cons_dropWhile htrans _ sent hl
    · -- passed over: a lower handshake level, or the same level with a smaller number
      intro p hp hc
      simp only [sentPassed, decide_eq_true_eq] at hc
      unfold SentBefore
      rw [levelRank_of_ne hc.1, levelRank_of_ne h₀]
      by_cases heq : p.level = sent.level
      · exact Or.inr ⟨heq, hnum p hp heq⟩
      · exact Or.inl (by omega)
    · -- stopped at: the application level or a higher handshake level
      intro p hp hc
      simp only [sentPassed, decide_eq_false_iff_not] at hc
      unfold SentBefore
      left
      rw [levelRank_of_ne h₀]
      by_cases hp₀ : p.level = 0
      · rw [hp₀, levelRank_zero]
        exact hsent
      · rw [levelRank_of_ne hp₀]
        omega
  · rename_i h₀
    rw [List.pairwise_append]
    refine ⟨hl, List.pairwise_singleton _ _, ?_⟩
    intro p hp q hq
    rw [List.mem_singleton] at hq
    subst hq
    unfold SentBefore
    by_cases hp₀ : p.level = 0
    · exact Or.inr ⟨by omega, hnum p hp (by omega)⟩
    · left
      rw [levelRank_of_ne hp₀, not_not.1 h₀, levelRank_zero]
      exact hlv p hp

-- What every reachable state keeps: both counters are the bytes of the listed packets (in u32),
-- every listed packet is of a number-space level and below its space's next number, and the
-- list is in `SentBefore` order.
structure SentInv (s : QuicOutqSent) : Prop where
  inflight_eq : s.inflight = sentBytes s.sent % 2 ^ 32
  spaceInflight_eq : ∀ x < QUIC_CRYPTO_EARLY, (s.spaces x).inflight = levelBytes s.sent x % 2 ^ 32
  level_lt : ∀ p ∈ s.sent, p.level < QUIC_CRYPTO_EARLY
  number_nonneg : ∀ p ∈ s.sent, 0 ≤ p.number
  number_lt : ∀ p ∈ s.sent, p.number < (s.spaces p.level).nextPn
  nextPn_range : ∀ x, 0 ≤ (s.spaces x).nextPn ∧ (s.spaces x).nextPn ≤ QUIC_PN_MAX
  ordered : s.sent.Pairwise SentBefore

theorem sentInv_init : SentInv quicOutqSentInit := by
  refine ⟨rfl, fun x _ => rfl, nofun, nofun, nofun, fun x => ⟨?_, ?_⟩, List.Pairwise.nil⟩
  · exact Int.le_refl 0
  · show (0 : Int) ≤ QUIC_PN_MAX
    exact Int.natCast_nonneg _

-- The accounting of a packet with a `quic_packet_sent` record.
theorem quicPacketPackFrames_spec (s : QuicOutqSent) (level frames frameLen now : Nat)
    (hf : frames ≠ 0) :
    let k := level % QUIC_CRYPTO_EARLY
    let t := quicPacketPackFrames s level frames frameLen now
    t.sent = quicOutqPacketSentTail s.sent ⟨(s.spaces k).nextPn, now, frameLen, k⟩ ∧
      t.inflight = toU32 (s.inflight + frameLen) ∧
      (t.spaces k).nextPn = (s.spaces k).nextPn + 1 ∧
      (t.spaces k).inflight = toU32 ((s.spaces k).inflight + frameLen) ∧
      ∀ x, x ≠ k → t.spaces x = s.spaces x := by
  intro k t
  have hother : ∀ x, x ≠ k → t.spaces x = s.spaces x := by
    intro x hx
    simp [t, k, quicPacketPackFrames, hf, QuicOutqSent.setSpace, hx]
  refine ⟨?_, ?_, ?_, ?_, hother⟩ <;>
    simp [t, k, quicPacketPackFrames, hf, QuicOutqSent.setSpace, quicPnspace]

-- A packet without one only moves the space's next number.
theorem quicPacketPackFrames_spec_zero (s : QuicOutqSent) (level frames frameLen now : Nat)
    (hf : frames = 0) :
    let k := level % QUIC_CRYPTO_EARLY
    let t := quicPacketPackFrames s level frames frameLen now
    t.sent = s.sent ∧ t.inflight = s.inflight ∧ (t.spaces k).nextPn = (s.spaces k).nextPn + 1 ∧
      (t.spaces k).inflight = (s.spaces k).inflight ∧ ∀ x, x ≠ k → t.spaces x = s.spaces x := by
  intro k t
  have hother : ∀ x, x ≠ k → t.spaces x = s.spaces x := by
    intro x hx
    simp [t, k, quicPacketPackFrames, hf, QuicOutqSent.setSpace, hx]
  refine ⟨?_, ?_, ?_, ?_, hother⟩ <;>
    simp [t, k, quicPacketPackFrames, hf, QuicOutqSent.setSpace, quicPnspace]

theorem sentInv_send {s : QuicOutqSent} (hs : SentInv s) (level frames frameLen now : Nat)
    (hpn : (quicPnspace s level).nextPn + 1 ≤ QUIC_PN_MAX) :
    SentInv (quicPacketPackFrames s level frames frameLen now) := by
  obtain ⟨hin, hsp, hlv, hnn, hnum, hnext, hord⟩ := hs
  have hk := level_mod_lt level
  unfold quicPnspace at hpn
  by_cases hf : frames = 0
  · obtain ⟨h₁, h₂, h₃, h₄, h₅⟩ := quicPacketPackFrames_spec_zero s level frames frameLen now hf
    generalize quicPacketPackFrames s level frames frameLen now = t at *
    generalize level % QUIC_CRYPTO_EARLY = k at *
    -- the list and the counters are those of `s`; only space `k` has its next number raised
    refine ⟨h₁ ▸ h₂.trans hin, fun x hx => ?_, h₁ ▸ hlv, h₁ ▸ hnn, fun p hp => ?_, fun x => ?_,
      h₁ ▸ hord⟩
    · rw [h₁]
      by_cases hxk : x = k
      · subst hxk
        rw [h₄]
        exact hsp x hx
      · rw [h₅ x hxk]
        exact hsp x hx
    · rw [h₁] at hp
      by_cases hpk : p.level = k
      · rw [hpk, h₃]
        have := hnum p hp
        rw [hpk] at this
        omega
      · rw [h₅ _ hpk]
        exact hnum p hp
    · by_cases hxk : x = k
      · subst hxk
        rw [h₃]
        have := (hnext x).1
        omega
      · rw [h₅ x hxk]
        exact hnext x
  obtain ⟨h₁, h₂, h₃, h₄, h₅⟩ := quicPacketPackFrames_spec s level frames frameLen now hf
  generalize quicPacketPackFrames s level frames frameLen now = t at *
  generalize level % QUIC_CRYPTO_EARLY = k at *
  -- the new record takes number `n`, the next one of space `k`
  generalize hn : (s.spaces k).nextPn = n at *
  have hperm := quicOutqPacketSentTail_perm s.sent ⟨n, now, frameLen, k⟩
  have hmem : ∀ p ∈ t.sent, p = ⟨n, now, frameLen, k⟩ ∨ p ∈ s.sent := by
    intro p hp
    rw [h₁] at hp
    exact List.mem_cons.1 (hperm.mem_iff.1 hp)
  have hn₀ : 0 ≤ n := hn ▸ (hnext k).1
  refine ⟨?_, fun x hx => ?_, fun p hp => ?_, fun p hp => ?_, fun p hp => ?_, fun x => ?_, ?_⟩
  · rw [h₂, h₁, sentBytes_perm hperm, sentBytes_cons, hin]
    dsimp only
    unfold toU32 toUnsigned
    omega
  · rw [h₁, levelBytes_perm hperm, levelBytes_cons]
    by_cases hxk : x = k
    · subst hxk
      rw [h₄, if_pos rfl, hsp x hx]
      dsimp only
      unfold toU32 toUnsigned
      omega
    · rw [h₅ x hxk, if_neg (Ne.symm hxk), Nat.zero_add]
      exact hsp x hx
  · rcases hmem p hp with rfl | hp
    · exact hk
    · exact hlv p hp
  · rcases hmem p hp with rfl | hp
    · exact hn₀
    · exact hnn p hp
  · rcases hmem p hp with rfl | hp
    · show n < (t.spaces k).nextPn
      rw [h₃]
      omega
    · by_cases hpk : p.level = k
      · have := hnum p hp
        rw [hpk, hn] at this
        rw [hpk, h₃]
        omega
      · rw [h₅ _ hpk]
        exact hnum p hp
  · by_cases hxk : x = k
    · subst hxk
      rw [h₃]
      omega
    · rw [h₅ x hxk]
      exact hnext x
  · rw [h₁]
    refine quicOutqPacketSentTail_pairwise hord hlv hk (fun p hp hpk => ?_)
    have := hnum p hp
    rw [hpk, hn] at this
    exact this

-- `t` is `s` with the packets `removed`, all of `level`, taken off both u32 counters, and with
-- the next packet numbers untouched.
structure SentRemoves (s t : QuicOutqSent) (level : Nat) (removed : List QuicPacketSent) :
    Prop where
  inflight : t.inflight = toU32 ((s.inflight : Int) - sentBytes removed)
  spaceInflight : ∀ x, (t.spaces x).inflight =
    if x = level % QUIC_CRYPTO_EARLY then toU32 (((s.spaces x).inflight : Int) - sentBytes removed)
    else (s.spaces x).inflight
  nextPn : ∀ x, (t.spaces x).nextPn = (s.spaces x).nextPn

section Removes

variable {s t u : QuicOutqSent} {level : Nat}

theorem SentRemoves.nil (h₁ : s.inflight < 2 ^ 32) (h₂ : (quicPnspace s level).inflight < 2 ^ 32) :
    SentRemoves s s level [] := by
  refine ⟨?_, fun x => ?_, fun _ => rfl⟩
  · rw [sentBytes_nil, Int.natCast_zero, Int.sub_zero]
    exact (toU32_natCast h₁).symm
  · split
    · rename_i hx
      subst hx
      rw [sentBytes_nil, Int.natCast_zero, Int.sub_zero]
      exact (toU32_natCast h₂).symm
    · rfl

theorem SentRemoves.trans {l₁ l₂ : List QuicPacketSent} (h₁ : SentRemoves s u level l₁)
    (h₂ : SentRemoves u t level l₂) : SentRemoves s t level (l₁ ++ l₂) := by
  refine ⟨?_, fun x => ?_, fun x => (h₂.nextPn x).trans (h₁.nextPn x)⟩
  · rw [h₂.inflight, h₁.inflight, toU32_sub_sub, sentBytes_append, Int.natCast_add]
  · rw [h₂.spaceInflight x]
    by_cases hx : x = level % QUIC_CRYPTO_EARLY
    · rw [if_pos hx, if_pos hx, h₁.spaceInflight x, if_pos hx, toU32_sub_sub, sentBytes_append,
        Int.natCast_add]
    · rw [if_neg hx, if_neg hx, h₁.spaceInflight x, if_neg hx]

theorem SentRemoves.of_bytes {l l' : List QuicPacketSent} (h : SentRemoves s t level l)
    (hb : sentBytes l = sentBytes l') : SentRemoves s t level l' :=
  ⟨hb ▸ h.inflight, hb ▸ h.spaceInflight, h.nextPn⟩

-- Writing back a space whose counter and next number are those already there.
theorem SentRemoves.setSpace {l : List QuicPacketSent} {space : QuicPnspace}
    (h : SentRemoves s t level l) (hi : space.inflight = (quicPnspace t level).inflight)
    (hn : space.nextPn = (quicPnspace t level).nextPn) :
    SentRemoves s (t.setSpace level space) level l := by
  refine ⟨h.inflight, fun x => ?_, fun x => ?_⟩
  · by_cases hx : x = level % QUIC_CRYPTO_EARLY
    · subst hx
      rw [QuicOutqSent.setSpace_self, hi]
      exact h.spaceInflight _
    · rw [QuicOutqSent.setSpace_of_ne _ _ _ hx]
      exact h.spaceInflight x
  · by_cases hx : x = level % QUIC_CRYPTO_EARLY
    · subst hx
      rw [QuicOutqSent.setSpace_self, hn]
      exact h.nextPn _
    · rw [QuicOutqSent.setSpace_of_ne _ _ _ hx]
      exact h.nextPn x

theorem SentRemoves.withSent {l : List QuicPacketSent} (h : SentRemoves s t level l)
    (sent : List QuicPacketSent) : SentRemoves s { t with sent := sent } level l :=
  ⟨h.inflight, h.spaceInflight, h.nextPn⟩

-- Both counters of a state reached by removals are u32 values.
theorem SentRemoves.bounds {l : List QuicPacketSent} (h : SentRemoves s t level l) :
    t.inflight < 2 ^ 32 ∧ (quicPnspace t level).inflight < 2 ^ 32 := by
  refine ⟨h.inflight ▸ toU32_lt _, ?_⟩
  unfold quicPnspace
  rw [h.spaceInflight, if_pos rfl]
  exact toU32_lt _

end Removes

theorem quicOutqInflightSub_removes (s : QuicOutqSent) (level : Nat) (sent : QuicPacketSent) :
    SentRemoves s (quicOutqInflightSub s level sent) level [sent] := by
  have hb : sentBytes [sent] = sent.frameLen := by simp
  refine ⟨?_, fun x => ?_, fun x => ?_⟩ <;> unfold quicOutqInflightSub
  · rw [hb]
    rfl
  · rw [hb]
    by_cases hx : x = level % QUIC_CRYPTO_EARLY
    · subst hx
      rw [QuicOutqSent.setSpace_self, if_pos rfl]
      rfl
    · rw [QuicOutqSent.setSpace_of_ne _ _ _ hx, if_neg hx]
  · by_cases hx : x = level % QUIC_CRYPTO_EARLY
    · subst hx
      rw [QuicOutqSent.setSpace_self]
      rfl
    · rw [QuicOutqSent.setSpace_of_ne _ _ _ hx]

@[simp] theorem quicPnspaceSetMaxPnAckedSeen_inflight (space : QuicPnspace) (pn : Int) :
    (quicPnspaceSetMaxPnAckedSeen space pn).inflight = space.inflight := by
  unfold quicPnspaceSetMaxPnAckedSeen
  split <;> rfl

@[simp] theorem quicPnspaceSetMaxPnAckedSeen_nextPn (space : QuicPnspace) (pn : Int) :
    (quicPnspaceSetMaxPnAckedSeen space pn).nextPn = space.nextPn := by
  unfold quicPnspaceSetMaxPnAckedSeen
  split <;> rfl

theorem quicOutqSackOne_removes (s : QuicOutqSent) (level : Nat) (ackLargest : Int)
    (sent : QuicPacketSent) : SentRemoves s (quicOutqSackOne s level ackLargest sent) level [sent] := by
  have h := quicOutqInflightSub_removes s level sent
  unfold quicOutqSackOne
  split
  · exact h.setSpace (quicPnspaceSetMaxPnAckedSeen_inflight _ _)
      (quicPnspaceSetMaxPnAckedSeen_nextPn _ _)
  · exact h

-- The packets `quic_outq_transmitted_sack(level, largest, smallest)` acknowledges.
def sackAcked (level : Nat) (largest smallest : Int) (p : QuicPacketSent) : Bool :=
  decide (p.level = level ∧ smallest ≤ p.number ∧ p.number ≤ largest)

-- Read from its tail, a list ordered by number within each level is decreasing there, so the
-- walk's early stop at a number below `smallest` leaves out nothing it should acknowledge.
theorem quicOutqTransmittedSackWalk_spec (level : Nat) (largest smallest ackLargest : Int) :
    ∀ (l : List QuicPacketSent) (s : QuicOutqSent), s.inflight < 2 ^ 32 →
      (quicPnspace s level).inflight < 2 ^ 32 →
      l.Pairwise (fun a b => a.level = b.level → b.number < a.number) →
      (quicOutqTransmittedSackWalk level largest smallest ackLargest l s).1 =
          l.filter (fun p => !sackAcked level largest smallest p) ∧
        SentRemoves s (quicOutqTransmittedSackWalk level largest smallest ackLargest l s).2 level
          (l.filter (sackAcked level largest smallest))
  | [], s, h₁, h₂, _ => ⟨rfl, SentRemoves.nil h₁ h₂⟩
  | sent :: rest, s, h₁, h₂, hl => by
    obtain ⟨hsent, hrest⟩ := List.pairwise_cons.1 hl
    have ih := quicOutqTransmittedSackWalk_spec level largest smallest ackLargest rest
    -- a packet the walk goes past is kept, and the rest is walked from the same state
    have hpast : sackAcked level largest smallest sent = false →
        (sent :: (quicOutqTransmittedSackWalk level largest smallest ackLargest rest s).1) =
            (sent :: rest).filter (fun p => !sackAcked level largest smallest p) ∧
          SentRemoves s (quicOutqTransmittedSackWalk level largest smallest ackLargest rest s).2
            level ((sent :: rest).filter (sackAcked level largest smallest)) := by
      intro hna
      obtain ⟨ih₁, ih₂⟩ := ih s h₁ h₂ hrest
      rw [List.filter_cons_of_pos (by simp [hna]), List.filter_cons_of_neg (by simp [hna]), ih₁]
      exact ⟨rfl, ih₂⟩
    unfold quicOutqTransmittedSackWalk
    by_cases hlv : level ≠ sent.level
    · rw [if_pos hlv]
      exact hpast (by simp [sackAcked, Ne.symm hlv])
    rw [if_neg hlv]
    by_cases hgt : sent.number > largest
    · rw [if_pos hgt]
      exact hpast (by simp only [sackAcked, decide_eq_false_iff_not]; omega)
    rw [if_neg hgt]
    by_cases hlt : sent.number < smallest
    · -- every packet of the level left in the walk is below `sent`, so below the range
      rw [if_pos hlt]
      have hnone : ∀ p ∈ sent :: rest, sackAcked level largest smallest p = false := by
        intro p hp
        simp only [sackAcked, decide_eq_false_iff_not]
        rcases List.mem_cons.1 hp with rfl | hp
        · omega
        · by_cases hpl : p.level = level
          · have := hsent p hp (by omega)
            omega
          · omega
      refine ⟨(List.filter_eq_self.2 (fun p hp => by simp [hnone p hp])).symm, ?_⟩
      rw [List.filter_eq_nil_iff.2 (fun p hp => by simp [hnone p hp])]
      exact SentRemoves.nil h₁ h₂
    rw [if_neg hlt]
    -- `sent` is acknowledged: its bytes come off, and the walk goes on from there
    have hacked : sackAcked level largest smallest sent = true := by
      simp only [sackAcked, decide_eq_true_eq]
      omega
    have hr := quicOutqSackOne_removes s level ackLargest sent
    obtain ⟨hb₁, hb₂⟩ := hr.bounds
    obtain ⟨ih₁, ih₂⟩ := ih _ hb₁ hb₂ hrest
    rw [List.filter_cons_of_neg (by simp [hacked]), List.filter_cons_of_pos hacked]
    exact ⟨ih₁, hr.trans ih₂⟩

-- The packets `quic_outq_retransmit_mark` has declared lost when it stops: those of `level`
-- numbered below some `n`.
def markLost (level : Nat) (n : Int) (p : QuicPacketSent) : Bool :=
  decide (p.level = level ∧ p.number < n)

-- A walk that stops at `sent` keeps `sent` and all after it: later packets of its level have
-- larger numbers.
theorem markLost_stop {level : Nat} {sent : QuicPacketSent} {rest : List QuicPacketSent}
    (hlv : level = sent.level) (hsent : ∀ p ∈ rest, SentBefore sent p) :
    ∀ p ∈ sent :: rest, markLost level sent.number p = false := by
  intro p hp
  simp only [markLost, decide_eq_false_iff_not]
  rcases List.mem_cons.1 hp with rfl | hp
  · omega
  · by_cases hpl : p.level = level
    · have := (hsent p hp).number_lt (by omega)
      omega
    · omega

theorem quicOutqRetransmitMarkWalk_spec (level : Nat) (immediate : Bool) (now lossDelay : Nat) :
    ∀ (l : List QuicPacketSent) (s : QuicOutqSent), s.inflight < 2 ^ 32 →
      (quicPnspace s level).inflight < 2 ^ 32 → (∀ p ∈ l, p.level < QUIC_CRYPTO_EARLY) →
      l.Pairwise SentBefore →
      ∃ n, (immediate = true → ∀ p ∈ l, p.level = level → p.number < n) ∧
        (quicOutqRetransmitMarkWalk level immediate now lossDelay l s).1 =
          l.filter (fun p => !markLost level n p) ∧
        SentRemoves s (quicOutqRetransmitMarkWalk level immediate now lossDelay l s).2 level
          (l.filter (markLost level n))
  | [], s, h₁, h₂, _, _ => ⟨0, fun _ _ hp => absurd hp List.not_mem_nil, rfl, SentRemoves.nil h₁ h₂⟩
  | sent :: rest, s, h₁, h₂, hlv, hl => by
    obtain ⟨hsent, hrest⟩ := List.pairwise_cons.1 hl
    have hlv' : ∀ p ∈ rest, p.level < QUIC_CRYPTO_EARLY := fun p hp => hlv p (List.mem_cons_of_mem _ hp)
    have ih := quicOutqRetransmitMarkWalk_spec level immediate now lossDelay rest
    -- a stop that keeps the whole list, with no packet of the level declared lost
    have hstop : ∀ n, (∀ p ∈ sent :: rest, markLost level n p = false) →
        (immediate = true → ∀ p ∈ sent :: rest, p.level = level → p.number < n) →
        ∀ t, SentRemoves s t level [] →
        ∃ n, (immediate = true → ∀ p ∈ sent :: rest, p.level = level → p.number < n) ∧
          (sent :: rest, t).1 = (sent :: rest).filter (fun p => !markLost level n p) ∧
          SentRemoves s (sent :: rest, t).2 level ((sent :: rest).filter (markLost level n)) := by
      intro n hnone himm t ht
      refine ⟨n, himm, (List.filter_eq_self.2 (fun p hp => by simp [hnone p hp])).symm, ?_⟩
      rw [List.filter_eq_nil_iff.2 (fun p hp => by simp [hnone p hp])]
      exact ht
    unfold quicOutqRetransmitMarkWalk
    dsimp only
    by_cases happ : level ≠ 0 ∧ sent.level = 0
    · -- a handshake level stops at the application packets, where none of its own follow
      rw [if_pos happ]
      have hother : ∀ p ∈ sent :: rest, p.level ≠ level := by
        intro p hp
        rcases List.mem_cons.1 hp with rfl | hp
        · omega
        · have hle := levelRank_le (hlv' p hp)
          rcases hsent p hp with h | ⟨h, _⟩
          · rw [happ.2, levelRank_zero] at h
            omega
          · omega
      exact hstop 0 (fun p hp => by simp [markLost, hother p hp])
        (fun _ p hp hpl => absurd hpl (hother p hp)) s (SentRemoves.nil h₁ h₂)
    rw [if_neg happ]
    by_cases hskip : level ≠ sent.level
    · rw [if_pos hskip]
      obtain ⟨n, himm, ih₁, ih₂⟩ := ih s h₁ h₂ hlv' hrest
      have hkeep : markLost level n sent = false := by simp [markLost, Ne.symm hskip]
      refine ⟨n, fun hi p hp hpl => ?_, ?_, ?_⟩
      · rcases List.mem_cons.1 hp with rfl | hp
        · exact absurd hpl (Ne.symm hskip)
        · exact himm hi p hp hpl
      · rw [List.filter_cons_of_pos (by simp [hkeep]), ih₁]
      · rw [List.filter_cons_of_neg (by simp [hkeep])]
        exact ih₂
    rw [if_neg hskip]
    have hsame : level = sent.level := not_not.1 hskip
    have hafter : ∀ p ∈ rest, SentBefore sent p := hsent
    by_cases hacked : immediate = false ∧ sent.number > (quicPnspace s level).maxPnAckedSeen
    · rw [if_pos hacked]
      exact hstop sent.number (markLost_stop hsame hafter) (fun hi => by simp [hacked.1] at hi) s
        (SentRemoves.nil h₁ h₂)
    rw [if_neg hacked]
    by_cases hrecent : immediate = false ∧ sent.sentTime + lossDelay > now ∧
        sent.number + QUIC_KPACKET_THRESHOLD > (quicPnspace s level).maxPnAckedSeen
    · -- not yet lost: only the space's loss time moves
      rw [if_pos hrecent]
      refine hstop sent.number (markLost_stop hsame hafter) (fun hi => by simp [hrecent.1] at hi) _
        ((SentRemoves.nil h₁ h₂).setSpace ?_ ?_) <;> split <;> rfl
    rw [if_neg hrecent]
    -- `sent` is lost; the rest is walked after its bytes come off
    have hr := quicOutqInflightSub_removes s level sent
    obtain ⟨hb₁, hb₂⟩ := hr.bounds
    obtain ⟨n, himm, ih₁, ih₂⟩ := ih _ hb₁ hb₂ hlv' hrest
    -- past `sent`, the packets of its level are numbered above it, so raising the bound to
    -- `sent.number + 1` changes nothing for them
    have hcongr : ∀ p ∈ rest, markLost level (max n (sent.number + 1)) p = markLost level n p := by
      intro p hp
      simp only [markLost]
      by_cases hpl : p.level = level
      · have := (hafter p hp).number_lt (by omega)
        simp only [hpl, true_and, decide_eq_decide]
        omega
      · simp [hpl]
    have hlost : markLost level (max n (sent.number + 1)) sent = true := by
      simp only [markLost, decide_eq_true_eq]
      omega
    refine ⟨max n (sent.number + 1), fun hi p hp hpl => ?_, ?_, ?_⟩
    · rcases List.mem_cons.1 hp with rfl | hp
      · omega
      · have := himm hi p hp hpl
        omega
    · rw [List.filter_cons_of_neg (by simp [hlost]), ih₁]
      exact List.filter_congr (fun p hp => by rw [hcongr p hp])
    · rw [List.filter_cons_of_pos hlost, List.filter_congr (fun p hp => hcongr p hp)]
      exact hr.trans ih₂

-- Taking off the counters exactly the packets of `level` that leave the list keeps the
-- invariant.
theorem sentInv_of_removes {s t : QuicOutqSent} {level : Nat} {P : QuicPacketSent → Bool}
    (hs : SentInv s) (hP : ∀ p ∈ s.sent, P p = true → p.level = level)
    (hsent : t.sent = s.sent.filter (fun p => !P p))
    (hrem : SentRemoves s t level (s.sent.filter P)) : SentInv t := by
  obtain ⟨hin, hsp, hlv, hnn, hnum, hnext, hord⟩ := hs
  have hsub : ∀ p ∈ t.sent, p ∈ s.sent := fun p hp => by
    rw [hsent] at hp
    exact List.mem_of_mem_filter hp
  have hall : ∀ p ∈ s.sent.filter P, p.level = level := fun p hp =>
    hP p (List.mem_of_mem_filter hp) (List.mem_filter.1 hp).2
  -- the removed bytes are counted at the space `level` writes to, and nowhere else
  have hlvb : ∀ x < QUIC_CRYPTO_EARLY, levelBytes (s.sent.filter P) x =
      if x = level % QUIC_CRYPTO_EARLY then sentBytes (s.sent.filter P) else 0 := by
    intro x hx
    rw [levelBytes_of_forall hall x]
    by_cases hlev : level < QUIC_CRYPTO_EARLY
    · rw [Nat.mod_eq_of_lt hlev]
    · have hnil : s.sent.filter P = [] := List.filter_eq_nil_iff.2 (fun p hp hPp => by
        have := hlv p hp
        have := hP p hp hPp
        omega)
      rw [hnil, sentBytes_nil]
      split <;> split <;> rfl
  refine ⟨?_, fun x hx => ?_, fun p hp => hlv p (hsub p hp), fun p hp => hnn p (hsub p hp),
    fun p hp => ?_, fun x => ?_, ?_⟩
  · have hsplit := sentBytes_filter_add s.sent P
    rw [hrem.inflight, hin, hsent]
    unfold toU32 toUnsigned
    omega
  · have hsplit := levelBytes_filter_add s.sent P x
    have hx' := hlvb x hx
    rw [hrem.spaceInflight x, hsent, hsp x hx]
    split
    · rw [if_pos ‹_›] at hx'
      unfold toU32 toUnsigned
      omega
    · rw [if_neg ‹_›] at hx'
      omega
  · rw [hrem.nextPn]
    exact hnum p (hsub p hp)
  · rw [hrem.nextPn]
    exact hnext x
  · rw [hsent]
    exact hord.filter _

section Steps

variable {s : QuicOutqSent}

theorem SentInv.bounds (hs : SentInv s) (level : Nat) :
    s.inflight < 2 ^ 32 ∧ (quicPnspace s level).inflight < 2 ^ 32 := by
  refine ⟨hs.inflight_eq ▸ Nat.mod_lt _ (by decide), ?_⟩
  unfold quicPnspace
  rw [hs.spaceInflight_eq _ (level_mod_lt level)]
  exact Nat.mod_lt _ (by decide)

-- `quic_outq_transmitted_sack` removes exactly the packets of `level` in `[smallest, largest]`
-- and takes exactly their bytes off the counters.
theorem quicOutqTransmittedSack_spec (hs : SentInv s) (level : Nat) (largest smallest ackLargest : Int) :
    (quicOutqTransmittedSack s level largest smallest ackLargest).sent =
        s.sent.filter (fun p => !sackAcked level largest smallest p) ∧
      SentRemoves s (quicOutqTransmittedSack s level largest smallest ackLargest) level
        (s.sent.filter (sackAcked level largest smallest)) := by
  obtain ⟨hb₁, hb₂⟩ := hs.bounds level
  have hrev : s.sent.reverse.Pairwise (fun a b => a.level = b.level → b.number < a.number) :=
    List.pairwise_reverse.2 (hs.ordered.imp (fun h he => h.number_lt he.symm))
  obtain ⟨h₁, h₂⟩ :=
    quicOutqTransmittedSackWalk_spec level largest smallest ackLargest s.sent.reverse s hb₁ hb₂ hrev
  unfold quicOutqTransmittedSack
  refine ⟨?_, ?_⟩
  · show (quicOutqTransmittedSackWalk level largest smallest ackLargest s.sent.reverse s).1.reverse = _
    rw [h₁, List.filter_reverse, List.reverse_reverse]
  · refine (h₂.of_bytes ?_).withSent _
    rw [List.filter_reverse]
    exact sentBytes_perm (List.reverse_perm _)

-- `quic_outq_retransmit_mark` removes the packets of `level` below some number, all of them
-- when `immediate`, and takes exactly their bytes off the counters.
theorem quicOutqRetransmitMark_spec (hs : SentInv s) (level : Nat) (immediate : Bool)
    (now lossDelay : Nat) :
    ∃ n, (immediate = true → ∀ p ∈ s.sent, p.level = level → p.number < n) ∧
      (quicOutqRetransmitMark s level immediate now lossDelay).sent =
        s.sent.filter (fun p => !markLost level n p) ∧
      SentRemoves s (quicOutqRetransmitMark s level immediate now lossDelay) level
        (s.sent.filter (markLost level n)) := by
  obtain ⟨hb₁, hb₂⟩ := hs.bounds level
  -- clearing `loss_time` first touches neither counter
  have h₀ : SentRemoves s (s.setSpace level { quicPnspace s level with lossTime := 0 }) level [] :=
    (SentRemoves.nil hb₁ hb₂).setSpace rfl rfl
  obtain ⟨hb₁', hb₂'⟩ := h₀.bounds
  obtain ⟨n, himm, h₁, h₂⟩ := quicOutqRetransmitMarkWalk_spec level immediate now lossDelay s.sent
    (s.setSpace level { quicPnspace s level with lossTime := 0 }) hb₁' hb₂' hs.level_lt hs.ordered
  unfold quicOutqRetransmitMark
  exact ⟨n, himm, h₁, (h₀.trans h₂).withSent _⟩

theorem sentInv_sack (hs : SentInv s) (level : Nat) (largest smallest ackLargest : Int) :
    SentInv (quicOutqTransmittedSack s level largest smallest ackLargest) := by
  obtain ⟨h₁, h₂⟩ := quicOutqTransmittedSack_spec hs level largest smallest ackLargest
  refine sentInv_of_removes hs (fun p _ hp => ?_) h₁ h₂
  simp only [sackAcked, decide_eq_true_eq] at hp
  exact hp.1

theorem sentInv_mark (hs : SentInv s) (level : Nat) (immediate : Bool) (now lossDelay : Nat) :
    SentInv (quicOutqRetransmitMark s level immediate now lossDelay) := by
  obtain ⟨n, _, h₁, h₂⟩ := quicOutqRetransmitMark_spec hs level immediate now lossDelay
  refine sentInv_of_removes hs (fun p _ hp => ?_) h₁ h₂
  simp only [markLost, decide_eq_true_eq] at hp
  exact hp.1

theorem sentInv_step {t : QuicOutqSent} (hs : SentInv s) (h : SentStep s t) : SentInv t := by
  cases h with
  | send level frames frameLen now _ hpn => exact sentInv_send hs level frames frameLen now hpn
  | sack level largest smallest ackLargest => exact sentInv_sack hs level largest smallest ackLargest
  | mark level immediate now lossDelay => exact sentInv_mark hs level immediate now lossDelay

theorem sentInv_reachable (h : Reachable SentInit SentStep s) : SentInv s := by
  have hinit : ∀ s, SentInit s → SentInv s := fun _ h => h ▸ sentInv_init
  exact Reachable.invariant hinit (fun _ _ => sentInv_step) h

end Steps

-- A whole-space acknowledgement (`largest = QUIC_PN_MAX`, `smallest = 0`, as when Initial or
-- Handshake keys are dropped) removes every packet of the level.
theorem quicOutqTransmittedSack_whole_space {s : QuicOutqSent} (hs : SentInv s) (level : Nat)
    (ackLargest : Int) :
    (quicOutqTransmittedSack s level QUIC_PN_MAX 0 ackLargest).sent =
      s.sent.filter (fun p => p.level ≠ level) := by
  rw [(quicOutqTransmittedSack_spec hs level QUIC_PN_MAX 0 ackLargest).1]
  refine List.filter_congr (fun p hp => ?_)
  have h₁ := hs.number_nonneg p hp
  have h₂ := hs.number_lt p hp
  have h₃ := (hs.nextPn_range p.level).2
  by_cases hpl : p.level = level
  · -- numbers run from 0 to below `next_pn`, which is at most QUIC_PN_MAX
    have hack : sackAcked level QUIC_PN_MAX 0 p = true := by
      simp only [sackAcked, decide_eq_true_eq]
      omega
    simp [hack, hpl]
  · simp [sackAcked, hpl]

-- An immediate `quic_outq_retransmit_mark` declares every packet of the level lost.
theorem quicOutqRetransmitMark_immediate {s : QuicOutqSent} (hs : SentInv s) (level now lossDelay : Nat) :
    (quicOutqRetransmitMark s level true now lossDelay).sent = s.sent.filter (fun p => p.level ≠ level) := by
  obtain ⟨n, himm, h₁, -⟩ := quicOutqRetransmitMark_spec hs level true now lossDelay
  rw [h₁]
  refine List.filter_congr (fun p hp => ?_)
  by_cases hpl : p.level = level
  · have := himm rfl p hp hpl
    simp [markLost, hpl, this]
  · simp [markLost, hpl]

-- In every state reachable by sends, acknowledgements and loss detection in any order, both
-- counters are the bytes of the listed packets in u32 arithmetic, overall and per level, hence
-- exactly those bytes while they stay below 2^32; the list is increasing in packet number
-- within each level; and an acknowledgement of `[smallest, largest]` removes exactly the
-- packets of its level in that range and takes exactly their bytes off both counters.
theorem quicOutq_sent_bookkeeping {s : QuicOutqSent} (h : Reachable SentInit SentStep s) :
    s.inflight = sentBytes s.sent % 2 ^ 32 ∧
      (∀ level < QUIC_CRYPTO_EARLY,
        (quicPnspace s level).inflight = levelBytes s.sent level % 2 ^ 32) ∧
      (sentBytes s.sent < 2 ^ 32 → s.inflight = sentBytes s.sent ∧
        ∀ level < QUIC_CRYPTO_EARLY, (quicPnspace s level).inflight = levelBytes s.sent level) ∧
      s.sent.Pairwise (fun a b => a.level = b.level → a.number < b.number) ∧
      ∀ level largest smallest ackLargest,
        (quicOutqTransmittedSack s level largest smallest ackLargest).sent =
            s.sent.filter (fun p => !sackAcked level largest smallest p) ∧
          SentRemoves s (quicOutqTransmittedSack s level largest smallest ackLargest) level
            (s.sent.filter (sackAcked level largest smallest)) := by
  have hs := sentInv_reachable h
  have hspace : ∀ level < QUIC_CRYPTO_EARLY,
      (quicPnspace s level).inflight = levelBytes s.sent level % 2 ^ 32 := by
    intro level hl
    unfold quicPnspace
    rw [Nat.mod_eq_of_lt hl]
    exact hs.spaceInflight_eq level hl
  refine ⟨hs.inflight_eq, hspace, fun hlt => ⟨?_, fun level hl => ?_⟩,
    hs.ordered.imp (fun hab he => hab.number_lt he), quicOutqTransmittedSack_spec hs⟩
  · rw [hs.inflight_eq]
    exact Nat.mod_eq_of_lt hlt
  · rw [hspace level hl]
    exact Nat.mod_eq_of_lt (Nat.lt_of_le_of_lt (levelBytes_le _ _) hlt)

-- `n` application packets of `frame_len` bytes each, sent from the initial state and never
-- acknowledged or declared lost.
def sendAppPackets (frameLen : Nat) : Nat → QuicOutqSent
  | 0 => quicOutqSentInit
  | n + 1 => quicPacketPackFrames (sendAppPackets frameLen n) QUIC_CRYPTO_APP 1 frameLen 0

theorem sendAppPackets_nextPn (frameLen : Nat) :
    ∀ n, (quicPnspace (sendAppPackets frameLen n) QUIC_CRYPTO_APP).nextPn = n
  | 0 => rfl
  | n + 1 => by
    have ih := sendAppPackets_nextPn frameLen n
    have h := (quicPacketPackFrames_spec (sendAppPackets frameLen n) QUIC_CRYPTO_APP 1 frameLen 0
      Nat.one_ne_zero).2.2.1
    unfold quicPnspace at ih ⊢
    rw [sendAppPackets, h, ih]
    push_cast
    rfl

theorem sendAppPackets_bytes (frameLen : Nat) :
    ∀ n, sentBytes (sendAppPackets frameLen n).sent = n * frameLen
  | 0 => (Nat.zero_mul _).symm
  | n + 1 => by
    have h := (quicPacketPackFrames_spec (sendAppPackets frameLen n) QUIC_CRYPTO_APP 1 frameLen 0
      Nat.one_ne_zero).1
    rw [sendAppPackets, h, sentBytes_perm (quicOutqPacketSentTail_perm _ _), sentBytes_cons,
      sendAppPackets_bytes frameLen n, Nat.succ_mul, Nat.add_comm]

theorem sendAppPackets_reachable {frameLen : Nat} (hlen : frameLen < 2 ^ 16) :
    ∀ n, n ≤ QUIC_PN_MAX → Reachable SentInit SentStep (sendAppPackets frameLen n)
  | 0, _ => Reachable.of_init rfl
  | n + 1, hn => by
    have hpn : (quicPnspace (sendAppPackets frameLen n) QUIC_CRYPTO_APP).nextPn + 1 ≤ QUIC_PN_MAX := by
      rw [sendAppPackets_nextPn]
      omega
    exact (sendAppPackets_reachable hlen n (by omega)).tail
      (SentStep.send _ QUIC_CRYPTO_APP 1 frameLen 0 hlen hpn)

-- Four application packets of 1200 bytes, the last one acknowledged, then loss detection at
-- 100 us with a 500 us loss delay: the first, three below the largest acknowledged, is declared
-- lost, and the two after it stay in flight.
theorem quicOutq_sent_bookkeeping_ack_loss :
    let s : QuicOutqSent := quicOutqRetransmitMark
      (quicOutqTransmittedSack (sendAppPackets 1200 4) QUIC_CRYPTO_APP 3 3 3) QUIC_CRYPTO_APP
      false 100 500
    Reachable SentInit SentStep s ∧ s.sent.map (·.number) = [1, 2] ∧ s.inflight = 2400 ∧
      s.inflight = sentBytes s.sent % 2 ^ 32 ∧
      (∀ level < QUIC_CRYPTO_EARLY,
        (quicPnspace s level).inflight = levelBytes s.sent level % 2 ^ 32) ∧
      (sentBytes s.sent < 2 ^ 32 → s.inflight = sentBytes s.sent ∧
        ∀ level < QUIC_CRYPTO_EARLY, (quicPnspace s level).inflight = levelBytes s.sent level) ∧
      s.sent.Pairwise (fun a b => a.level = b.level → a.number < b.number) ∧
      ∀ level largest smallest ackLargest,
        (quicOutqTransmittedSack s level largest smallest ackLargest).sent =
            s.sent.filter (fun p => !sackAcked level largest smallest p) ∧
          SentRemoves s (quicOutqTransmittedSack s level largest smallest ackLargest) level
            (s.sent.filter (sackAcked level largest smallest)) := by
  intro s
  have hsent := sendAppPackets_reachable (by decide : 1200 < 2 ^ 16) 4 (by decide)
  have h : Reachable SentInit SentStep s :=
    (hsent.tail (SentStep.sack _ QUIC_CRYPTO_APP 3 3 3)).tail
      (SentStep.mark _ QUIC_CRYPTO_APP false 100 500)
  exact ⟨h, by decide, by decide, quicOutq_sent_bookkeeping h⟩

-- 65538 application packets of 65535 bytes, none acknowledged, are 2^32 + 65534 bytes in
-- flight, while the u32 `outq->inflight` holds 65534.
theorem quicOutq_inflight_wraps :
    Reachable SentInit SentStep (sendAppPackets 65535 65538) ∧
      sentBytes (sendAppPackets 65535 65538).sent = 4295032830 ∧
      (sendAppPackets 65535 65538).inflight = 65534 := by
  have h := sendAppPackets_reachable (by decide : 65535 < 2 ^ 16) 65538 (by decide)
  have hbytes : sentBytes (sendAppPackets 65535 65538).sent = 4295032830 := by
    rw [sendAppPackets_bytes]
  have hwrap : (4295032830 : Nat) % 2 ^ 32 = 65534 := by decide
  refine ⟨h, hbytes, ?_⟩
  rw [(sentInv_reachable h).inflight_eq, hbytes, hwrap]

end Quic
