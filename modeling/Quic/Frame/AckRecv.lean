import Quic.Frame.Ack
import Quic.Pnspace.Receive

namespace Quic

-- What `quic_frame_ack_create` relies on from the gap blocks of a space: they read back
-- without a failed check, the First ACK Range runs from `topOf` up to `max_pn_seen`, every
-- acknowledged packet number was recorded, and with fewer than QUIC_PN_MAP_MAX_GABS blocks every
-- recorded one from `min_pn_seen` up is acknowledged.
structure AckBlocksSpec (space : QuicPnspace) (M : Set Int) : Prop where
  valid : AckBlocksValid space.basePn space.minPnSeen none (quicPnspaceNumGabs space)
  min_le_top : space.minPnSeen ≤ topOf space.basePn space.minPnSeen none (quicPnspaceNumGabs space)
  top_le_max : topOf space.basePn space.minPnSeen none (quicPnspaceNumGabs space) ≤ space.maxPnSeen
  top_run : ∀ p, topOf space.basePn space.minPnSeen none (quicPnspaceNumGabs space) ≤ p →
    p ≤ space.maxPnSeen → p ∈ M
  acked_mem : ∀ p, AckedBy (ackExpected space.basePn space.minPnSeen none (quicPnspaceNumGabs space)) p →
    p ∈ M
  complete : (quicPnspaceNumGabs space).length < QUIC_PN_MAP_MAX_GABS → ∀ p ∈ M,
    space.minPnSeen ≤ p →
      AckedBy (ackExpected space.basePn space.minPnSeen none (quicPnspaceNumGabs space)) p ∨
        topOf space.basePn space.minPnSeen none (quicPnspaceNumGabs space) ≤ p

namespace MarkInv

variable {space : QuicPnspace} {M : Set Int}

-- Without a gap below `max_pn_seen` there are no blocks and one range from `min_pn_seen`.
theorem ackBlocksSpec_of_no_gap (h : MarkInv space M) (hg : quicPnspaceHasGap space = false) :
    AckBlocksSpec space M := by
  have hnum : quicPnspaceNumGabs space = [] := by
    simp [quicPnspaceNumGabs, hg]
  have hbase : space.basePn = space.maxPnSeen + 1 := by
    simpa [quicPnspaceHasGap] using hg
  have hmin := h.min_lt_base
  refine ⟨?_, ?_, ?_, ?_, ?_, ?_⟩ <;> simp only [hnum, topOf, lowOf_none]
  · trivial
  · exact Int.le_refl _
  · omega
  · exact fun p hp1 hp2 => h.below_base p hp1 (by omega)
  · simp [ackExpected]
  · exact fun _ p _ hp => Or.inr hp

-- With a gap the bottom block starts at `base_pn`, and the chain above it gives the rest.
theorem ackBlocksSpec_of_gap (h : MarkInv space M) (hmax : space.maxPnSeen < 2 ^ 62)
    (hg : quicPnspaceHasGap space = true) : AckBlocksSpec space M := by
  obtain ⟨e, gs, hnum, he0, heo, hchain, hexact⟩ := h.numGabs_spec hg
  rw [hnum] at hexact
  have hmin0 := h.min_nonneg
  have hmin := h.min_lt_base
  have hbm := h.base_le_max
  have hbase : 0 ≤ space.basePn := by omega
  have htop : space.basePn + (space.maxPnSeen - space.basePn).toNat = space.maxPnSeen := by omega
  have htops : space.basePn + e ≤ topOf space.basePn space.minPnSeen (some ⟨1, e⟩) gs ∧
      topOf space.basePn space.minPnSeen (some ⟨1, e⟩) gs ≤
        space.basePn + (space.maxPnSeen - space.basePn).toNat :=
    gapChain_topOf hchain heo rfl
  obtain ⟨htop1, htop2⟩ := htops
  have hmem : (∀ p, AckedBy (ackExpected space.basePn space.minPnSeen (some ⟨1, e⟩) gs) p → p ∈ M) ∧
      (∀ p, topOf space.basePn space.minPnSeen (some ⟨1, e⟩) gs ≤ p →
        p ≤ space.basePn + (space.maxPnSeen - space.basePn).toNat → p ∈ M) :=
    gapChain_acked_mem hchain hbase rfl
  obtain ⟨hrange, hrun⟩ := hmem
  refine ⟨?_, ?_, ?_, ?_, ?_, ?_⟩ <;> simp only [hnum, topOf]
  · exact ⟨hmin0, by simp only [lowOf_none]; omega, he0, by dsimp only; omega,
      gapChain_valid hchain hbase (by omega) rfl⟩
  · omega
  · omega
  · exact fun p hp1 hp2 => hrun p hp1 (by omega)
  · -- the bottom range is `[min_pn_seen, base_pn - 1]`
    simp only [ackExpected, ackedBy_append, ackedBy_cons, ackedBy_nil, or_false, lowOf_none]
    rintro p (hp | ⟨hp1, hp2⟩)
    · exact hrange p hp
    · exact h.below_base p (by omega) (by omega)
  · intro hlen p hp hpmin
    simp only [ackExpected, ackedBy_append, ackedBy_cons, ackedBy_nil, or_false, lowOf_none]
    by_cases hlow : p < space.basePn
    · exact Or.inl (Or.inr ⟨by omega, by omega⟩)
    by_cases hgap : p < space.basePn + e
    -- inside the bottom gap nothing was recorded
    · have hnot : space.basePn + ((p - space.basePn).toNat : Int) ∉ M :=
        hexact hlen ⟨1, e⟩ List.mem_cons_self _ (by dsimp only; omega) (by dsimp only; omega)
      rw [show space.basePn + ((p - space.basePn).toNat : Int) = p by omega] at hnot
      exact absurd hp hnot
    have hx : GapsExact (fun j : Nat => space.basePn + j ∈ M) gs :=
      fun g hg' => hexact hlen g (List.mem_cons_of_mem _ hg')
    have hcomplete : ∀ p, space.basePn + e ≤ p → p ∈ M →
        AckedBy (ackExpected space.basePn space.minPnSeen (some ⟨1, e⟩) gs) p ∨
          topOf space.basePn space.minPnSeen (some ⟨1, e⟩) gs ≤ p :=
      gapChain_acked_complete hchain hx hbase rfl
    rcases hcomplete p (by omega) hp with hp' | hp'
    · exact Or.inl (Or.inl hp')
    · exact Or.inr hp'

theorem ackBlocksSpec (h : MarkInv space M) (hmax : space.maxPnSeen < 2 ^ 62) :
    AckBlocksSpec space M := by
  cases hg : quicPnspaceHasGap space
  · exact h.ackBlocksSpec_of_no_gap hg
  · exact h.ackBlocksSpec_of_gap hmax hg

-- A frame type that fits in one byte is written as that byte.
theorem quicPutVar_of_le {n : Nat} (hn : n ≤ QUIC_VARINT_1BYTE_MAX) : quicPutVar n = [UInt8.ofNat n] := by
  simp [quicPutVar, hn]

-- The ACK frame created for a space whose packet numbers fit in 62 bits reads back: the
-- dispatcher's type byte, then every byte written, acknowledging the First ACK Range from
-- `topOf` to `max_pn_seen` and the ranges below the blocks.
theorem quicFrameAck_readBack (h : MarkInv space M) (hmax : space.maxPnSeen < 2 ^ 62)
    {nextPn : Int} (hnext : space.maxPnSeen < nextPn)
    (level now ackDelayExponent rxExponent : Nat) (rest : List UInt8) :
    ∃ frame body info,
      quicFrameAckCreate space level QUIC_FRAME_ACK now ackDelayExponent true = .ok frame ∧
      frame.data = UInt8.ofNat frame.type :: body ∧
      quicFrameAckProcess nextPn rxExponent frame.type (body ++ rest) = .ok info ∧
      info.consumed = body.length ∧
      info.ranges = (space.maxPnSeen.toNat,
        (topOf space.basePn space.minPnSeen none (quicPnspaceNumGabs space)).toNat) ::
          ackExpected space.basePn space.minPnSeen none (quicPnspaceNumGabs space) := by
  have hspec := h.ackBlocksSpec hmax
  have hmin0 := h.min_nonneg
  have htop1 := hspec.min_le_top
  have htop2 := hspec.top_le_max
  have hL : toU64 space.maxPnSeen = space.maxPnSeen.toNat := toU64_of_nonneg (by omega) (by omega)
  -- the `smallest` of the First ACK Range is where reading the blocks starts
  have hsmall : toU64 (topOf space.basePn space.minPnSeen none (quicPnspaceNumGabs space)) =
      (topOf space.basePn space.minPnSeen none (quicPnspaceNumGabs space)).toNat :=
    toU64_of_nonneg (by omega) (by omega)
  have hR : toU64 ((space.maxPnSeen.toNat : Int) -
      (topOf space.basePn space.minPnSeen none (quicPnspaceNumGabs space)).toNat) =
      space.maxPnSeen.toNat - (topOf space.basePn space.minPnSeen none (quicPnspaceNumGabs space)).toNat := by
    rw [toU64_of_nonneg (by omega) (by omega)]
    omega
  obtain ⟨frame, hcreate⟩ : ∃ frame,
      quicFrameAckCreate space level QUIC_FRAME_ACK now ackDelayExponent true = .ok frame :=
    ⟨_, rfl⟩
  refine ⟨frame, ?_⟩
  have hc := hcreate
  unfold quicFrameAckCreate at hc
  dsimp only at hc
  rw [quicFrameAckCreate_smallest, hsmall] at hc
  simp only [Bool.not_true, Bool.false_eq_true, if_false, Except.ok.injEq] at hc
  rw [hL, hR] at hc
  subst hc
  have hty : QUIC_FRAME_ACK + (if quicPnspaceHasEcnCount space = true then 1 else 0) ≤
      QUIC_VARINT_1BYTE_MAX := by
    split <;> decide
  have htopNat : (topOf space.basePn space.minPnSeen none (quicPnspaceNumGabs space)).toNat ≤
      space.maxPnSeen.toNat := by omega
  have hsteps : ackRangeSteps (space.maxPnSeen.toNat -
      (space.maxPnSeen.toNat - (topOf space.basePn space.minPnSeen none (quicPnspaceNumGabs space)).toNat))
      (ackGapRanges space.basePn space.minPnSeen none (quicPnspaceNumGabs space)) =
      some (ackExpected space.basePn space.minPnSeen none (quicPnspaceNumGabs space),
        (lowOf space.basePn space.minPnSeen none).toNat) := by
    rw [Nat.sub_sub_self htopNat]
    exact ackRangeSteps_gapRanges hspec.valid
  obtain ⟨info, hproc, hranges, hcons⟩ := @quicFrameAckProcess_encode nextPn rxExponent _
    space.maxPnSeen.toNat (toU64 ((now : Int) - space.maxPnTime) >>> ackDelayExponent) _ _ _ _ _ _
    (by omega) (quicPnspaceNumGabs_length_le space) (Nat.sub_le _ _) (by omega)
    (ackGapRanges_length _ _ _ _) (ackGapRanges_lt hspec.valid) hsteps
    ⟨fun hecn => ⟨_, _, _, if_pos hecn⟩, fun hecn => if_neg hecn⟩ rest
  refine ⟨_, info, hcreate, ?_, hproc, hcons, ?_⟩
  · rw [List.cons_append, List.cons_append, quicPutVars_cons, quicPutVar_of_le hty]
    rfl
  · rw [hranges, Nat.sub_sub_self htopNat]

end MarkInv

-- A reachable space with a recorded packet number is under the representation invariant.
theorem markInv_of_reachable {space : QuicPnspace} {M : Set Int}
    (h : Reachable RecvInit RecvStep (space, M)) (hne : M.Nonempty) : MarkInv space M := by
  rcases spaceInv_of_reachable h with ⟨-, hM, -, -⟩ | hinv
  · obtain ⟨p, hp⟩ := hne
    simp only at hM
    rw [hM] at hp
    exact absurd hp (Set.notMem_empty p)
  · exact hinv

-- ACK generation and parsing agree over every run in which the packet numbers stay within
-- QUIC_PN_MAX: the frame reads back byte for byte, into disjoint descending ranges whose first
-- one holds `max_pn_seen`, acknowledging recorded packet numbers only, and with fewer than
-- QUIC_PN_MAP_MAX_GABS blocks exactly the recorded ones from `min_pn_seen` to `max_pn_seen`.
theorem quicFrameAck_roundtrip {space : QuicPnspace} {M : Set Int}
    (h : Reachable RecvInit RecvStep (space, M)) (hne : M.Nonempty)
    (hpn : ∀ p ∈ M, p ≤ QUIC_PN_MAX) {nextPn : Int} (hnext : space.maxPnSeen < nextPn)
    (level now ackDelayExponent rxExponent : Nat) (rest : List UInt8) :
    ∃ frame body info,
      quicFrameAckCreate space level QUIC_FRAME_ACK now ackDelayExponent true = .ok frame ∧
      frame.data = UInt8.ofNat frame.type :: body ∧
      quicFrameAckProcess nextPn rxExponent frame.type (body ++ rest) = .ok info ∧
      info.consumed = body.length ∧
      (∀ r ∈ info.ranges, r.2 ≤ r.1) ∧
      info.ranges.Pairwise (fun r r' => r'.1 + 2 ≤ r.2) ∧
      (∃ r, info.ranges.head? = some r ∧ (r.2 : Int) ≤ space.maxPnSeen ∧ space.maxPnSeen ≤ r.1) ∧
      (∀ p, AckedBy info.ranges p → p ∈ M) ∧
      ((quicPnspaceNumGabs space).length < QUIC_PN_MAP_MAX_GABS →
        ∀ p, AckedBy info.ranges p ↔ p ∈ M ∧ space.minPnSeen ≤ p ∧ p ≤ space.maxPnSeen) := by
  have hinv := markInv_of_reachable h hne
  have hmax : space.maxPnSeen < 2 ^ 62 := by
    have := hpn _ hinv.max_mem
    unfold QUIC_PN_MAX QUIC_PN_BITS at this
    omega
  obtain ⟨frame, body, info, hcreate, hdata, hproc, hcons, hranges⟩ :=
    hinv.quicFrameAck_readBack hmax hnext level now ackDelayExponent rxExponent rest
  obtain ⟨hdesc, hpair⟩ := quicFrameAckProcess_desc hproc
  have hspec := hinv.ackBlocksSpec hmax
  have hmin0 := hinv.min_nonneg
  have htop1 := hspec.min_le_top
  have htop2 := hspec.top_le_max
  -- the ranges below the blocks all lie above `min_pn_seen`
  have hlow := (ackRangeSteps_above (ackRangeSteps_gapRanges hspec.valid)).2
  simp only [lowOf_none] at hlow
  -- what is acknowledged: the First ACK Range from `topOf` up, and the ranges below the blocks
  have hacked : ∀ p, AckedBy info.ranges p ↔
      (topOf space.basePn space.minPnSeen none (quicPnspaceNumGabs space) ≤ p ∧
        p ≤ space.maxPnSeen) ∨
      AckedBy (ackExpected space.basePn space.minPnSeen none (quicPnspaceNumGabs space)) p := by
    intro p
    have hcast : ((topOf space.basePn space.minPnSeen none (quicPnspaceNumGabs space)).toNat :
        Int) ≤ p ∧ p ≤ (space.maxPnSeen.toNat : Int) ↔
        topOf space.basePn space.minPnSeen none (quicPnspaceNumGabs space) ≤ p ∧
          p ≤ space.maxPnSeen := by omega
    rw [hranges, ackedBy_cons, hcast]
  have hsound : ∀ p, AckedBy info.ranges p → p ∈ M ∧ space.minPnSeen ≤ p ∧ p ≤ space.maxPnSeen := by
    intro p hp
    rcases (hacked p).1 hp with ⟨h1, h2⟩ | hp
    · exact ⟨hspec.top_run p h1 h2, by omega, h2⟩
    · have hmem := hspec.acked_mem p hp
      obtain ⟨r, hr, h1, -⟩ := hp
      have := hlow r hr
      exact ⟨hmem, by omega, hinv.mem_le_max p hmem⟩
  refine ⟨frame, body, info, hcreate, hdata, hproc, hcons, hdesc, hpair, ?_,
    fun p hp => (hsound p hp).1, fun hlt p => ⟨hsound p, ?_⟩⟩
  · rw [hranges]
    exact ⟨_, rfl, by dsimp only; omega, by dsimp only; omega⟩
  · rintro ⟨hp, h1, h2⟩
    rcases hspec.complete hlt p hp h1 with h | h
    · exact (hacked p).2 (Or.inr h)
    · exact (hacked p).2 (Or.inl ⟨h, h2⟩)

theorem quicFrameAck_roundtrip_gap_advance :
    let st : QuicPnspace × Set Int :=
      recvRunGapAdvance.foldl RecvEvent.apply ((quicPnspaceInit QuicPnspace.zeroed true).2, ∅)
    ∃ frame body info,
      quicFrameAckCreate st.1 0 QUIC_FRAME_ACK 2000000 0 true = .ok frame ∧
      frame.data = UInt8.ofNat frame.type :: body ∧
      quicFrameAckProcess 7 0 frame.type (body ++ []) = .ok info ∧
      info.consumed = body.length ∧
      (∀ r ∈ info.ranges, r.2 ≤ r.1) ∧
      info.ranges.Pairwise (fun r r' => r'.1 + 2 ≤ r.2) ∧
      (∃ r, info.ranges.head? = some r ∧ (r.2 : Int) ≤ st.1.maxPnSeen ∧ st.1.maxPnSeen ≤ r.1) ∧
      (∀ p, AckedBy info.ranges p → p ∈ st.2) ∧
      ((quicPnspaceNumGabs st.1).length < QUIC_PN_MAP_MAX_GABS →
        ∀ p, AckedBy info.ranges p ↔ p ∈ st.2 ∧ st.1.minPnSeen ≤ p ∧ p ≤ st.1.maxPnSeen) :=
  quicFrameAck_roundtrip recvRunGapAdvance_state.1
    ⟨0, (recvRunGapAdvance_state.2.1 0).2 (by simp)⟩
    (fun _ hp => (recvRunGapAdvance_le hp).trans (by decide)) (by decide) 0 2000000 0 0 []

-- A run may record packet number 2^62, past QUIC_PN_MAX; `quic_put_var` then drops the top
-- bits of `largest`, and the frame acknowledges packet number 0, which was never received.
set_option maxRecDepth 4000 in
theorem quicFrameAck_large_pn_acks_unreceived :
    let space := (quicPnspaceMark (quicPnspaceInit QuicPnspace.zeroed true).2 (2 ^ 62) true).2
    Reachable RecvInit RecvStep (space, {2 ^ 62}) ∧
      ∃ frame info, quicFrameAckCreate space 0 QUIC_FRAME_ACK 0 0 true = .ok frame ∧
        frame.data = UInt8.ofNat frame.type :: frame.data.tail ∧
        quicFrameAckProcess (space.maxPnSeen + 1) 0 frame.type frame.data.tail = .ok info ∧
        AckedBy info.ranges 0 ∧ (0 : Int) ∉ ({2 ^ 62} : Set Int) := by
  refine ⟨reachable_first_mark _ (by decide), ⟨2, 0, [2, 0xc0, 0, 0, 0, 0, 0, 0, 0, 0, 0, 0], 12, 12⟩,
    ⟨[(0, 0)], 0, none, 11⟩, rfl, rfl, ?_, ⟨(0, 0), List.mem_singleton_self _, le_refl _, le_refl _⟩,
    fun h => absurd (Set.mem_singleton_iff.1 h) (by decide)⟩
  rfl

end Quic
