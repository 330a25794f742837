import Quic.Pnspace.Invariant

namespace Quic

-- `struct quic_gap_ack_block`: a run of missing packet numbers as offsets from `base_pn`,
-- both +1; `stop` is the source's `end`.
structure QuicGapAckBlock where
  start : Nat
  stop : Nat
deriving DecidableEq, Repr

-- `quic_pnspace_next_gap_ack`: the next gap at or after `iter`, as the new `iter` and the
-- block's `start` and `end`.
def quicPnspaceNextGapAck (space : QuicPnspace) (iter : Int) : Option (Int × Nat × Nat) :=
  let offset := toU16 (iter - space.basePn)
  let start := toU16 (Bitmap.findNextZeroBit space.pnMap space.pnMapLen offset)
  if space.maxPnSeen ≤ space.basePn + start then none
  else
    let stop := toU16 (Bitmap.findNextBit space.pnMap space.pnMapLen start)
    if space.maxPnSeen ≤ space.basePn + stop - 1 then none
    else some (space.basePn + stop, toU16 (start + 1), stop)

-- The loop of `quic_pnspace_num_gabs` with `slots` = QUIC_PN_MAP_MAX_GABS - ngaps entries of
-- `gabs` left: the entry filled when one slot is left is stretched to `max_pn_seen`.
def numGabsLoop (space : QuicPnspace) : Nat → Int → List QuicGapAckBlock
  | 0, _ => []
  | slots + 1, iter =>
    match quicPnspaceNextGapAck space iter with
    | none => []
    | some (iter, start, stop) =>
      if slots = 0 then [⟨start, toU16 (space.maxPnSeen - space.basePn)⟩]
      else ⟨start, stop⟩ :: numGabsLoop space slots iter

-- `quic_pnspace_num_gabs`: the entries of `gabs` it fills, in order; their number is the
-- value it returns.
def quicPnspaceNumGabs (space : QuicPnspace) : List QuicGapAckBlock :=
  if !quicPnspaceHasGap space then [] else numGabsLoop space QUIC_PN_MAP_MAX_GABS space.basePn

-- The blocks from offset `lo` on, read against the offsets `P` holds at up to `top`: before
-- each block a run of offsets where `P` holds, and after the last block a run up to `top`.
def GapChain (P : Nat → Prop) (top : Nat) : Nat → List QuicGapAckBlock → Prop
  | lo, [] => ∀ j, lo ≤ j → j ≤ top → P j
  | lo, g :: gs =>
    lo + 1 < g.start ∧ g.start ≤ g.stop ∧ g.stop ≤ top ∧ (∀ j, lo ≤ j → j + 1 < g.start → P j) ∧
      GapChain P top g.stop gs

-- Every offset a block covers is one where `P` fails.
def GapsExact (P : Nat → Prop) (gabs : List QuicGapAckBlock) : Prop :=
  ∀ g ∈ gabs, ∀ j, g.start ≤ j + 1 → j < g.stop → ¬ P j

theorem numGabsLoop_length_le (space : QuicPnspace) (slots : Nat) (iter : Int) :
    (numGabsLoop space slots iter).length ≤ slots := by
  induction slots generalizing iter with
  | zero => simp [numGabsLoop]
  | succ k ih =>
    rw [numGabsLoop]
    split
    · simp
    · split
      · simp
      · exact Nat.succ_le_succ (ih _)

-- `quic_pnspace_num_gabs` never fills more than the QUIC_PN_MAP_MAX_GABS entries of `gabs`.
theorem quicPnspaceNumGabs_length_le (space : QuicPnspace) :
    (quicPnspaceNumGabs space).length ≤ QUIC_PN_MAP_MAX_GABS := by
  unfold quicPnspaceNumGabs
  split
  · simp
  · exact numGabsLoop_length_le space _ _

namespace MarkInv

variable {space : QuicPnspace} {M : Set Int}

theorem mem_iff_bit (h : MarkInv space M) {j : Nat} (hj : (j : Int) ≤ space.maxPnSeen - space.basePn) :
    space.basePn + j ∈ M ↔ space.pnMap j = true := by
  have := h.max_lt_len
  exact (h.bit_iff j (by omega)).symm

-- One call of `quic_pnspace_next_gap_ack` from an offset `lo` inside the window: either no gap
-- is left and every offset from `lo` to `max_pn_seen` is recorded, or it returns the first gap
-- `[s, e)` after the recorded run `[lo, s)`.
theorem nextGapAck_spec (h : MarkInv space M) {lo : Nat}
    (hlo : (lo : Int) ≤ space.maxPnSeen - space.basePn) :
    (quicPnspaceNextGapAck space (space.basePn + lo) = none ∧
      ∀ j : Nat, lo ≤ j → (j : Int) ≤ space.maxPnSeen - space.basePn → space.basePn + j ∈ M) ∨
    ∃ s e : Nat, quicPnspaceNextGapAck space (space.basePn + lo) =
        some (space.basePn + e, s + 1, e) ∧
      lo ≤ s ∧ s < e ∧ (e : Int) ≤ space.maxPnSeen - space.basePn ∧
      (∀ j : Nat, lo ≤ j → j < s → space.basePn + j ∈ M) ∧
      (∀ j : Nat, s ≤ j → j < e → space.basePn + j ∉ M) ∧ space.basePn + e ∈ M := by
  have hlen := h.max_lt_len
  have hsize := h.len_le
  unfold QUIC_PN_MAP_SIZE at hsize
  have hoff : toU16 (space.basePn + lo - space.basePn) = lo := by
    rw [show space.basePn + (lo : Int) - space.basePn = (lo : Int) by omega]
    exact toU16_natCast (by omega)
  set s := Bitmap.findNextZeroBit space.pnMap space.pnMapLen lo with hs
  have hs_le : s ≤ space.pnMapLen := Bitmap.findNextZeroBit_le_size
  have hlo_s : lo ≤ s := Bitmap.le_findNextZeroBit (by omega)
  have hs16 : toU16 s = s := toU16_natCast (by omega)
  -- the run skipped by the search for a clear bit is recorded
  have hrun : ∀ j : Nat, lo ≤ j → j < s → space.basePn + j ∈ M := fun j hj1 hj2 =>
    (h.bit_iff j (by omega)).mp (Bitmap.findNextZeroBit_skip hj1 hj2)
  have hmaxbit : space.pnMap (space.maxPnSeen - space.basePn).toNat = true := by
    have hm := h.max_mem
    rw [(h.bit_iff _ (by omega))]
    rwa [Int.toNat_of_nonneg (by omega),
      show space.basePn + (space.maxPnSeen - space.basePn) = space.maxPnSeen by omega]
  by_cases hnone : space.maxPnSeen ≤ space.basePn + s
  · left
    refine ⟨by simp only [quicPnspaceNextGapAck, hoff, ← hs, hs16, if_pos hnone], ?_⟩
    intro j hj1 hj2
    rcases Nat.lt_or_ge j s with hjs | hjs
    · exact hrun j hj1 hjs
    · have hj : space.basePn + j = space.maxPnSeen := by omega
      rw [hj]
      exact h.max_mem
  · right
    have hs_lt : s < space.pnMapLen := by omega
    have hsclear : space.pnMap s = false := Bitmap.findNextZeroBit_hit hs_lt
    set e := Bitmap.findNextBit space.pnMap space.pnMapLen s with he
    have hs_e : s ≤ e := Bitmap.le_findNextBit (by omega)
    -- the bit of `max_pn_seen` is set, so the search for a set bit stops at or before it
    have he_max : (e : Int) ≤ space.maxPnSeen - space.basePn := by
      by_contra hgt
      have hlt : (space.maxPnSeen - space.basePn).toNat <
          Bitmap.findNextBit space.pnMap space.pnMapLen s := by
        rw [← he]
        omega
      have := Bitmap.findNextBit_skip (by omega) hlt
      rw [hmaxbit] at this
      exact Bool.noConfusion this
    have he_lt : e < space.pnMapLen := by omega
    have he_set : space.pnMap e = true := Bitmap.findNextBit_hit he_lt
    have hs_ne : s ≠ e := fun hse => by rw [← hse, hsclear] at he_set; exact Bool.noConfusion he_set
    have he16 : toU16 e = e := toU16_natCast (by omega)
    have hs1 : toU16 ((s : Int) + 1) = s + 1 := by
      rw [show (s : Int) + 1 = ((s + 1 : Nat) : Int) by omega]
      exact toU16_natCast (by omega)
    refine ⟨s, e, ?_, hlo_s, by omega, he_max, hrun, fun j hj1 hj2 hm => ?_,
      (h.bit_iff e he_lt).mp he_set⟩
    · simp only [quicPnspaceNextGapAck, hoff, ← hs, hs16, if_neg hnone, ← he, he16, hs1]
      rw [if_neg (by omega)]
    · have hset := (h.bit_iff j (by omega)).mpr hm
      have hclr : space.pnMap j = false := Bitmap.findNextBit_skip hj1
        (show j < Bitmap.findNextBit space.pnMap space.pnMapLen s by rw [← he]; omega)
      rw [hclr] at hset
      exact Bool.noConfusion hset

-- From a recorded offset the gap found starts strictly after it.
theorem nextGapAck_of_mem (h : MarkInv space M) {lo : Nat}
    (hlo : (lo : Int) ≤ space.maxPnSeen - space.basePn) (hbit : space.basePn + lo ∈ M) :
    (quicPnspaceNextGapAck space (space.basePn + lo) = none ∧
      ∀ j : Nat, lo ≤ j → (j : Int) ≤ space.maxPnSeen - space.basePn → space.basePn + j ∈ M) ∨
    ∃ s e : Nat, quicPnspaceNextGapAck space (space.basePn + lo) =
        some (space.basePn + e, s + 1, e) ∧
      lo < s ∧ s < e ∧ (e : Int) ≤ space.maxPnSeen - space.basePn ∧
      (∀ j : Nat, lo ≤ j → j < s → space.basePn + j ∈ M) ∧
      (∀ j : Nat, s ≤ j → j < e → space.basePn + j ∉ M) ∧ space.basePn + e ∈ M := by
  rcases h.nextGapAck_spec hlo with hnone | ⟨s, e, hsome, hls, hse, he, hrun, hgap, hbe⟩
  · exact Or.inl hnone
  · refine Or.inr ⟨s, e, hsome, ?_, hse, he, hrun, hgap, hbe⟩
    rcases Nat.eq_or_lt_of_le hls with heq | hlt
    · exact absurd hbit (hgap lo (by omega) (by omega))
    · exact hlt

-- The loop from a recorded offset `lo`: a chain of gaps up to `max_pn_seen`, each gap exact
-- unless the slots ran out.
theorem numGabsLoop_spec (h : MarkInv space M) (slots : Nat) {lo : Nat}
    (hlo : (lo : Int) ≤ space.maxPnSeen - space.basePn) (hbit : space.basePn + lo ∈ M) :
    GapChain (fun j : Nat => space.basePn + j ∈ M) (space.maxPnSeen - space.basePn).toNat lo
        (numGabsLoop space (slots + 1) (space.basePn + lo)) ∧
      ((numGabsLoop space (slots + 1) (space.basePn + lo)).length < slots + 1 →
        GapsExact (fun j : Nat => space.basePn + j ∈ M)
          (numGabsLoop space (slots + 1) (space.basePn + lo))) := by
  induction slots generalizing lo with
  | zero =>
    rcases h.nextGapAck_of_mem hlo hbit with ⟨hnone, hrun⟩ | ⟨s, e, hsome, hls, hse, he, hrun, -, -⟩
    · simp only [numGabsLoop, hnone]
      exact ⟨fun j hj1 hj2 => hrun j hj1 (by omega), fun _ g hg => absurd hg List.not_mem_nil⟩
    -- the last slot: the block is stretched to `max_pn_seen`
    have hstop : (toU16 (space.maxPnSeen - space.basePn) : Int) = space.maxPnSeen - space.basePn :=
      toU16_of_lt (by have := h.base_le_max; omega)
        (by have := h.max_lt_len; have := h.len_le; unfold QUIC_PN_MAP_SIZE at *; omega)
    simp only [numGabsLoop, hsome, if_true, GapChain]
    refine ⟨⟨by omega, by omega, by omega, fun j hj1 hj2 => hrun j hj1 (by omega),
      fun j hj1 hj2 => ?_⟩, fun hlen => absurd hlen (by simp)⟩
    rw [show space.basePn + j = space.maxPnSeen by omega]
    exact h.max_mem
  | succ k ih =>
    rcases h.nextGapAck_of_mem hlo hbit with ⟨hnone, hrun⟩ |
      ⟨s, e, hsome, hls, hse, he, hrun, hgap, hbe⟩
    · simp only [numGabsLoop, hnone]
      exact ⟨fun j hj1 hj2 => hrun j hj1 (by omega), fun _ g hg => absurd hg List.not_mem_nil⟩
    have hloop : numGabsLoop space (k + 1 + 1) (space.basePn + lo) =
        ⟨s + 1, e⟩ :: numGabsLoop space (k + 1) (space.basePn + e) := by
      rw [numGabsLoop, hsome]
      exact if_neg (Nat.add_one_ne_zero k)
    rw [hloop]
    simp only [GapChain]
    obtain ⟨hchain, hexact⟩ := ih he hbe
    refine ⟨⟨by omega, by omega, by omega, fun j hj1 hj2 => hrun j hj1 (by omega), hchain⟩,
      fun hlen => ?_⟩
    intro g hg
    rcases List.mem_cons.mp hg with rfl | hg
    · intro j hj1 hj2
      dsimp only at hj1 hj2
      exact hgap j (by omega) hj2
    · simp only [List.length_cons] at hlen
      exact hexact (by omega) g hg

-- With a gap below `max_pn_seen` the first block starts at `base_pn` itself, the rest chain
-- up to `max_pn_seen`, and with fewer than QUIC_PN_MAP_MAX_GABS blocks every block is exact.
theorem numGabs_spec (h : MarkInv space M) (hgap : quicPnspaceHasGap space = true) :
    ∃ e gs, quicPnspaceNumGabs space = ⟨1, e⟩ :: gs ∧ 0 < e ∧
      e ≤ (space.maxPnSeen - space.basePn).toNat ∧ GapChain (fun j : Nat => space.basePn + j ∈ M) (space.maxPnSeen - space.basePn).toNat e gs ∧
      ((quicPnspaceNumGabs space).length < QUIC_PN_MAP_MAX_GABS →
        GapsExact (fun j : Nat => space.basePn + j ∈ M) (quicPnspaceNumGabs space)) := by
  have hne : space.basePn ≠ space.maxPnSeen + 1 := by
    simpa [quicPnspaceHasGap] using hgap
  have hbase_max : space.basePn < space.maxPnSeen := by
    have := h.base_le_max
    have hbm : space.basePn ≠ space.maxPnSeen := fun heq => h.base_not_mem (heq ▸ h.max_mem)
    omega
  have hbase0 : space.basePn + ((0 : Nat) : Int) ∉ M := by
    simpa using h.base_not_mem
  rcases h.nextGapAck_spec (show ((0 : Nat) : Int) ≤ space.maxPnSeen - space.basePn by omega) with ⟨-, hrun⟩ | ⟨s, e, hsome, -, hse, he, hrun, hgap0, hbe⟩
  · exact absurd (hrun 0 (Nat.le_refl 0) (by omega)) hbase0
  -- the first clear bit is `base_pn` itself
  have hs : s = 0 := by
    rcases Nat.eq_zero_or_pos s with hs | hs
    · exact hs
    · exact absurd (hrun 0 (Nat.le_refl 0) hs) hbase0
  subst hs
  have hfirst : quicPnspaceNextGapAck space space.basePn = some (space.basePn + e, 0 + 1, e) := by
    simpa using hsome
  have hnum : quicPnspaceNumGabs space = ⟨1, e⟩ :: numGabsLoop space (30 + 1) (space.basePn + e) := by
    simp only [quicPnspaceNumGabs, hgap, Bool.not_true, QUIC_PN_MAP_MAX_GABS]
    rw [if_neg (by decide), show (32 : Nat) = 31 + 1 from rfl, numGabsLoop, hfirst]
    rfl
  obtain ⟨hchain, hexact⟩ := h.numGabsLoop_spec 30 he hbe
  refine ⟨e, _, hnum, hse, by omega, hchain, fun hlen => ?_⟩
  rw [hnum] at hlen ⊢
  intro g hg
  rcases List.mem_cons.mp hg with rfl | hg
  · intro j _ hj2
    exact hgap0 j (Nat.zero_le j) hj2
  · simp only [List.length_cons, QUIC_PN_MAP_MAX_GABS] at hlen
    exact hexact (by omega) g hg

end MarkInv

end Quic
