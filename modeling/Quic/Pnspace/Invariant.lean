import Quic.Pnspace.Defs
import Quic.Lib.Reachable

namespace Quic

section Fields

variable (space : QuicPnspace) (pn : Int)

@[simp] theorem markMaxPnSeen_basePn : (markMaxPnSeen space pn).basePn = space.basePn := by
  unfold markMaxPnSeen; split <;> rfl

@[simp] theorem markMaxPnSeen_minPnSeen : (markMaxPnSeen space pn).minPnSeen = space.minPnSeen := by
  unfold markMaxPnSeen; split <;> rfl

@[simp] theorem markMaxPnSeen_lastMaxPnSeen :
    (markMaxPnSeen space pn).lastMaxPnSeen = space.lastMaxPnSeen := by
  unfold markMaxPnSeen; split <;> rfl

@[simp] theorem markMaxPnSeen_pnMap : (markMaxPnSeen space pn).pnMap = space.pnMap := by
  unfold markMaxPnSeen; split <;> rfl

@[simp] theorem markMaxPnSeen_pnMapLen : (markMaxPnSeen space pn).pnMapLen = space.pnMapLen := by
  unfold markMaxPnSeen; split <;> rfl

@[simp] theorem markMaxPnSeen_maxPnSeen :
    (markMaxPnSeen space pn).maxPnSeen = max space.maxPnSeen pn := by
  unfold markMaxPnSeen
  split
  · show pn = max space.maxPnSeen pn; omega
  · show space.maxPnSeen = max space.maxPnSeen pn; omega

end Fields

-- What `quic_pnspace_move` computes when the scan starts inside the map: the first clear
-- bit `k` at or after `pn + 1 - base_pn`, every bit passed over set, and the map shifted by `k`.
theorem quicPnspaceMove_spec (space : QuicPnspace) (q : Int) (hlo : space.basePn ≤ q + 1)
    (hhi : q + 1 - space.basePn ≤ space.pnMapLen) (hlen : space.pnMapLen ≤ QUIC_PN_MAP_SIZE) :
    ∃ k : Nat, q + 1 - space.basePn ≤ k ∧ k ≤ space.pnMapLen ∧
      (∀ j : Nat, q + 1 - space.basePn ≤ j → j < k → space.pnMap j = true) ∧
      (k < space.pnMapLen → space.pnMap k = false) ∧
      quicPnspaceMove space q =
        { space with basePn := space.basePn + k,
                     pnMap := Bitmap.shiftRight space.pnMap k space.pnMapLen } := by
  unfold QUIC_PN_MAP_SIZE at hlen
  have hoff : (toU16 (q + 1 - space.basePn) : Int) = q + 1 - space.basePn :=
    toU16_of_lt (by omega) (by omega)
  set off := toU16 (q + 1 - space.basePn) with hoffdef
  have hoffle : off ≤ space.pnMapLen := by omega
  set k := Bitmap.findNextZeroBit space.pnMap space.pnMapLen off with hkdef
  have hkle : k ≤ space.pnMapLen := Bitmap.findNextZeroBit_le_size
  have hk16 : toU16 k = k := toU16_natCast (by omega)
  refine ⟨k, ?_, hkle, fun j hj hjk => Bitmap.findNextZeroBit_skip (by omega) hjk,
    fun hk => Bitmap.findNextZeroBit_hit hk, ?_⟩
  · have := Bitmap.le_findNextZeroBit (b := space.pnMap) hoffle
    omega
  · simp only [quicPnspaceMove, ← hoffdef, ← hkdef, hk16]

-- Shifting a window of recorded packet numbers: when bit `i ≥ off` of `map` says whether
-- `base + i` is recorded, sliding the window to the first clear bit `k ≥ off` leaves a map
-- that says the same relative to `base + k`, with every packet number skipped recorded.
theorem window_shift {map : Nat → Bool} {len k : Nat} {M : Set Int} (base maxPn : Int) (off : Nat)
    (hbits : ∀ i : Nat, off ≤ i → i < len → (map i = true ↔ base + i ∈ M))
    (hhigh : ∀ i : Nat, maxPn + 1 - base ≤ i → map i = false)
    (hmax : maxPn - base < len) (hle : ∀ p ∈ M, p ≤ maxPn) (hoff : base + off ≤ maxPn + 1)
    (hk1 : off ≤ k) (hk2 : k ≤ len) (hset : ∀ j : Nat, off ≤ j → j < k → map j = true)
    (hclear : k < len → map k = false) :
    (∀ i : Nat, i < len → (Bitmap.shiftRight map k len i = true ↔ base + k + i ∈ M)) ∧
    (∀ i : Nat, maxPn + 1 - (base + k) ≤ i → Bitmap.shiftRight map k len i = false) ∧
    base + k ∉ M ∧ base + k ≤ maxPn + 1 ∧
    (∀ p, base + off ≤ p → p < base + k → p ∈ M) := by
  -- packet numbers at or past the end of the map were never recorded
  have hout : ∀ p, base + len ≤ p → p ∉ M := fun p hp hm => by have := hle p hm; omega
  refine ⟨fun i hi => ?_, fun i hi => ?_, ?_, ?_, fun p hp1 hp2 => ?_⟩
  · by_cases hin : i + k < len
    · have hidx : base + ((i + k : Nat) : Int) = base + k + i := by push_cast; omega
      rw [Bitmap.shiftRight_apply, decide_eq_true hin, Bool.true_and,
        hbits (i + k) (by omega) hin, hidx]
    · simp only [Bitmap.shiftRight_apply, hin, decide_false, Bool.false_and, Bool.false_eq_true,
        false_iff]
      exact hout _ (by omega)
  · simp only [Bitmap.shiftRight_apply, Bool.and_eq_false_iff, decide_eq_false_iff_not]
    exact Or.inr (hhigh (i + k) (by push_cast; omega))
  · intro hm
    rcases Nat.lt_or_ge k len with hk | hk
    · have := (hbits k hk1 hk).mpr hm
      rw [hclear hk] at this
      exact Bool.false_ne_true this
    · exact hout _ (by omega) hm
  · rcases Nat.eq_or_lt_of_le hk1 with heq | hlt
    · subst heq; exact hoff
    · -- the last position skipped is a set bit, hence a recorded packet number
      have hm := (hbits (k - 1) (by omega) (by omega)).mp (hset (k - 1) (by omega) (by omega))
      have := hle _ hm
      omega
  · have hj := hset (p - base).toNat (by omega) (by omega)
    have hm := (hbits (p - base).toNat (by omega) (by omega)).mp hj
    have hidx : base + (((p - base).toNat : Nat) : Int) = p := by
      rw [Int.toNat_of_nonneg (by omega)]; omega
    rwa [hidx] at hm

-- The representation invariant of a space that has recorded at least one packet number,
-- relative to the set `M` of packet numbers recorded so far.
structure MarkInv (space : QuicPnspace) (M : Set Int) : Prop where
  min_nonneg : 0 ≤ space.minPnSeen
  min_lt_base : space.minPnSeen < space.basePn
  base_le_max : space.basePn ≤ space.maxPnSeen + 1
  max_lt_len : space.maxPnSeen - space.basePn < space.pnMapLen
  len_le : space.pnMapLen ≤ QUIC_PN_MAP_SIZE
  below_base : ∀ p, space.minPnSeen ≤ p → p < space.basePn → p ∈ M
  bit_iff : ∀ i : Nat, i < space.pnMapLen → (space.pnMap i = true ↔ space.basePn + i ∈ M)
  bit_high : ∀ i : Nat, space.maxPnSeen + 1 - space.basePn ≤ i → space.pnMap i = false
  base_not_mem : space.basePn ∉ M
  max_mem : space.maxPnSeen ∈ M
  last_mem : space.lastMaxPnSeen ∈ M
  min_le_last : space.minPnSeen ≤ space.lastMaxPnSeen
  last_le_max : space.lastMaxPnSeen ≤ space.maxPnSeen
  mem_le_max : ∀ p ∈ M, p ≤ space.maxPnSeen

namespace MarkInv

variable {space : QuicPnspace} {M : Set Int}

-- The invariant reads six fields only.
theorem congr {other : QuicPnspace} (h : MarkInv space M) (hbase : other.basePn = space.basePn)
    (hmin : other.minPnSeen = space.minPnSeen) (hmax : other.maxPnSeen = space.maxPnSeen)
    (hlast : other.lastMaxPnSeen = space.lastMaxPnSeen) (hmap : other.pnMap = space.pnMap)
    (hlen : other.pnMapLen = space.pnMapLen) : MarkInv other M := by
  obtain ⟨h1, h2, h3, h4, h5, h6, h7, h8, h9, h10, h11, h12, h13, h14⟩ := h
  constructor <;> simp only [hbase, hmin, hmax, hlast, hmap, hlen] <;> assumption

theorem base_ne (h : MarkInv space M) : space.basePn ≠ -1 := by
  have := h.min_nonneg; have := h.min_lt_base; omega

-- A larger map (still within QUIC_PN_MAP_SIZE) holding the same bits keeps the invariant:
-- the new bits lie past `max_pn_seen`.
theorem extend (h : MarkInv space M) {len : Nat} (hlen : space.pnMapLen ≤ len)
    (hsize : len ≤ QUIC_PN_MAP_SIZE) : MarkInv { space with pnMapLen := len } M where
  min_nonneg := h.min_nonneg
  min_lt_base := h.min_lt_base
  base_le_max := h.base_le_max
  max_lt_len := by have := h.max_lt_len; simp only; omega
  len_le := hsize
  below_base := h.below_base
  bit_iff := fun i hi => by
    by_cases hin : i < space.pnMapLen
    · exact h.bit_iff i hin
    · have hb := h.bit_high i (by have := h.max_lt_len; omega)
      simp only [hb, Bool.false_eq_true, false_iff]
      intro hm
      have := h.mem_le_max _ hm
      have := h.max_lt_len
      omega
  bit_high := h.bit_high
  base_not_mem := h.base_not_mem
  max_mem := h.max_mem
  last_mem := h.last_mem
  min_le_last := h.min_le_last
  last_le_max := h.last_le_max
  mem_le_max := h.mem_le_max

-- `quic_pnspace_check` reports a duplicate only for a recorded packet number.
theorem mem_of_check_eq_one (h : MarkInv space M) {p : Int}
    (hc : quicPnspaceCheck space p = 1) : p ∈ M := by
  unfold quicPnspaceCheck at hc
  rw [if_neg h.base_ne] at hc
  split_ifs at hc with hrange hdup
  · simp [EINVAL] at hc
  · by_cases hlt : p < space.basePn
    · exact h.below_base p (by omega) hlt
    · obtain ⟨hin, hbit⟩ := hdup.resolve_left hlt
      have hm := (h.bit_iff _ (by omega)).mp hbit
      have hidx : space.basePn + (((p - space.basePn).toNat : Nat) : Int) = p := by
        rw [Int.toNat_of_nonneg (by omega)]; omega
      rwa [hidx] at hm
  · simp at hc

-- ... and never accepts a recorded packet number as new.
theorem check_ne_zero_of_mem (h : MarkInv space M) {p : Int} (hp : p ∈ M) :
    quicPnspaceCheck space p ≠ 0 := by
  have hmax := h.mem_le_max p hp
  have hlen := h.max_lt_len
  have hsize := h.len_le
  unfold QUIC_PN_MAP_SIZE at hsize
  unfold quicPnspaceCheck
  rw [if_neg h.base_ne]
  split_ifs with hrange hdup
  · simp [EINVAL]
  · simp
  · -- a recorded number at or above base_pn has its bit set
    have hge : space.basePn ≤ p := by
      by_contra hlt
      exact hdup (Or.inl (by omega))
    have hbit := (h.bit_iff (p - space.basePn).toNat (by omega)).mpr (by
      rwa [Int.toNat_of_nonneg (by omega), show space.basePn + (p - space.basePn) = p by omega])
    exact absurd (Or.inr ⟨by omega, hbit⟩) hdup

-- What a zero from `quic_pnspace_check` tells `quic_pnspace_mark`: the number lies in the
-- window and is not recorded yet.
theorem check_eq_zero (h : MarkInv space M) {p : Int} (hc : quicPnspaceCheck space p = 0) :
    space.basePn ≤ p ∧ p < space.basePn + QUIC_PN_MAP_SIZE ∧ p ∉ M := by
  have hnot : p ∉ M := fun hp => h.check_ne_zero_of_mem hp hc
  unfold quicPnspaceCheck at hc
  rw [if_neg h.base_ne] at hc
  split_ifs at hc with hrange hdup
  · simp [EINVAL] at hc
  · simp at hc
  · refine ⟨?_, by omega, hnot⟩
    by_contra hlt
    exact hdup (Or.inl (by omega))

-- `quic_pnspace_grow` on a space in the invariant, to hold bit `gap`: either the
-- allocation fails, or the map grows past `gap`, within QUIC_PN_MAP_SIZE, bits unchanged.
theorem grow_spec (h : MarkInv space M) {gap : Nat} (hL : space.pnMapLen ≤ gap)
    (hgap : gap < QUIC_PN_MAP_SIZE) (alloc : Bool) :
    ∃ len, gap < len ∧ len ≤ QUIC_PN_MAP_SIZE ∧
      quicPnspaceGrow space (gap + 1) alloc =
        if alloc then .ok { space with pnMapLen := len } else .error (-ENOMEM) := by
  unfold QUIC_PN_MAP_SIZE at hgap ⊢
  -- the increment rounds `size - pn_map_len` up to a whole word and adds one more word
  have halign : ∀ x : Int, x ≤ align x BITS_PER_LONG ∧ align x BITS_PER_LONG ≤ x + 63 := by
    intro x
    have h1 := Int.emod_nonneg (x + 63) (b := 64) (by decide)
    have h2 := Int.emod_lt_of_pos (x + 63) (b := 64) (by decide)
    simp only [align, BITS_PER_LONG]
    omega
  obtain ⟨ha1, ha2⟩ := halign (((gap + 1 : Nat) : Int) - space.pnMapLen)
  have hinc : (toU16 (align (((gap + 1 : Nat) : Int) - space.pnMapLen) BITS_PER_LONG +
      QUIC_PN_MAP_INCREMENT) : Int) =
      align (((gap + 1 : Nat) : Int) - space.pnMapLen) BITS_PER_LONG + 64 :=
    toU16_of_lt (by simp only [QUIC_PN_MAP_INCREMENT, QUIC_PN_MAP_INITIAL]; omega)
      (by simp only [QUIC_PN_MAP_INCREMENT, QUIC_PN_MAP_INITIAL]; omega)
  set inc := toU16 (align (((gap + 1 : Nat) : Int) - space.pnMapLen) BITS_PER_LONG +
    QUIC_PN_MAP_INCREMENT) with hincdef
  have hoff : (toU16 (space.maxPnSeen + 1 - space.basePn) : Int) =
      space.maxPnSeen + 1 - space.basePn := by
    have := h.base_le_max; have := h.max_lt_len; have := h.len_le
    unfold QUIC_PN_MAP_SIZE at *
    exact toU16_of_lt (by omega) (by omega)
  have hcopy : Bitmap.copyWords BITS_PER_LONG space.pnMap
      (toU16 (space.maxPnSeen + 1 - space.basePn)) = space.pnMap :=
    Bitmap.copyWords_eq_self (by decide) fun i hi => h.bit_high i (by omega)
  refine ⟨min (space.pnMapLen + inc) 4096, by omega, by omega, ?_⟩
  have hlen : toU16 (min ((space.pnMapLen : Int) + (inc : Int)) ((QUIC_PN_MAP_SIZE : Nat) : Int)) =
      min (space.pnMapLen + inc) 4096 := by
    have := toU16_of_lt (x := min ((space.pnMapLen : Int) + (inc : Int))
      ((QUIC_PN_MAP_SIZE : Nat) : Int)) (by omega) (by unfold QUIC_PN_MAP_SIZE; omega)
    unfold QUIC_PN_MAP_SIZE at this ⊢
    omega
  unfold quicPnspaceGrow
  rw [if_neg (by unfold QUIC_PN_MAP_SIZE; omega)]
  cases alloc
  · rfl
  · simp only [← hincdef, hlen, hcopy, Bool.not_true, Bool.false_eq_true, if_false, if_true]

-- The middle of `quic_pnspace_mark` records `pn` when it lies inside the map.
theorem markReceived_inv (h : MarkInv space M) {pn : Int} (hlo : space.basePn ≤ pn)
    (hhi : pn - space.basePn < space.pnMapLen) (hnew : pn ∉ M) :
    MarkInv (markReceived space pn (pn - space.basePn).toNat) (insert pn M) := by
  have hmax := markMaxPnSeen_maxPnSeen space pn
  have hsize := h.len_le
  have hM : ∀ p ∈ insert pn M, p ≤ max space.maxPnSeen pn := by
    intro p hp
    rcases hp with rfl | hp
    · omega
    · have := h.mem_le_max p hp; omega
  have hmaxmem : max space.maxPnSeen pn ∈ insert pn M := by
    rcases le_total space.maxPnSeen pn with hle' | hle'
    · rw [max_eq_right hle']; exact Set.mem_insert _ _
    · rw [max_eq_left hle']; exact Set.mem_insert_of_mem _ h.max_mem
  by_cases hbase : space.basePn = pn
  · -- pn is base_pn: the window moves past pn and past the run of set bits after it
    have hgap : quicPnspaceHasGap (markMaxPnSeen space pn) = true := by
      simp only [quicPnspaceHasGap, markMaxPnSeen_basePn, hmax, bne_iff_ne, ne_eq]
      omega
    obtain ⟨k, hk1, hk2, hset, hclear, heq⟩ :=
      quicPnspaceMove_spec (markMaxPnSeen space pn) pn (by simp only [markMaxPnSeen_basePn]; omega)
        (by simp only [markMaxPnSeen_basePn, markMaxPnSeen_pnMapLen]; omega)
        (by simpa only [markMaxPnSeen_pnMapLen] using hsize)
    simp only [markMaxPnSeen_basePn, markMaxPnSeen_pnMap, markMaxPnSeen_pnMapLen] at hk1 hk2 hset hclear
    obtain ⟨hbits, hhigh, hnot, hle, hrun⟩ := window_shift (M := insert pn M) space.basePn
      (max space.maxPnSeen pn) 1
      (fun i hi1 hi2 => by
        rw [h.bit_iff i hi2, Set.mem_insert_iff]
        constructor
        · exact Or.inr
        · rintro (heq | hm)
          · omega
          · exact hm)
      (fun i hi => h.bit_high i (by omega)) (by have := h.max_lt_len; omega) hM (by omega)
      (by omega) hk2 (fun j hj1 hj2 => hset j (by omega) hj2) hclear
    have hclean : MarkInv
        { space with
          basePn := space.basePn + k
          maxPnSeen := max space.maxPnSeen pn
          pnMap := Bitmap.shiftRight space.pnMap k space.pnMapLen } (insert pn M) :=
      { min_nonneg := h.min_nonneg
        min_lt_base := by have := h.min_lt_base; dsimp only; omega
        base_le_max := hle
        max_lt_len := by dsimp only; have := h.max_lt_len; omega
        len_le := hsize
        below_base := fun p hp1 hp2 => by
          rcases Int.lt_trichotomy p space.basePn with hlt | heq' | hgt
          · exact Set.mem_insert_of_mem _ (h.below_base p hp1 hlt)
          · exact Or.inl (by omega)
          · exact hrun p (by push_cast; omega) hp2
        bit_iff := hbits
        bit_high := hhigh
        base_not_mem := hnot
        max_mem := hmaxmem
        last_mem := Set.mem_insert_of_mem _ h.last_mem
        min_le_last := h.min_le_last
        last_le_max := by have := h.last_le_max; dsimp only; omega
        mem_le_max := hM }
    simp only [markReceived, markMaxPnSeen_basePn, if_pos hbase, hgap, if_true, heq]
    exact hclean.congr (by simp) (by simp) (by simp) (by simp) (by simp) (by simp)
  · -- otherwise pn lies above base_pn and only its bit is set
    have hclean : MarkInv
        { space with
          maxPnSeen := max space.maxPnSeen pn
          pnMap := Bitmap.setBit space.pnMap (pn - space.basePn).toNat } (insert pn M) :=
      { min_nonneg := h.min_nonneg
        min_lt_base := h.min_lt_base
        base_le_max := by have := h.base_le_max; dsimp only; omega
        max_lt_len := by dsimp only; have := h.max_lt_len; omega
        len_le := hsize
        below_base := fun p hp1 hp2 => Set.mem_insert_of_mem _ (h.below_base p hp1 hp2)
        bit_iff := fun i hi => by
          simp only [Bitmap.setBit_apply, Bool.or_eq_true, beq_iff_eq, h.bit_iff i hi,
            Set.mem_insert_iff]
          constructor
          · rintro (rfl | hm)
            · exact Or.inl (by rw [Int.toNat_of_nonneg (by omega)]; omega)
            · exact Or.inr hm
          · rintro (heq | hm)
            · exact Or.inl (by omega)
            · exact Or.inr hm
        bit_high := fun i hi => by
          dsimp only at hi
          simp only [Bitmap.setBit_apply, Bool.or_eq_false_iff, beq_eq_false_iff_ne]
          exact ⟨by omega, h.bit_high i (by omega)⟩
        base_not_mem := by
          simp only [Set.mem_insert_iff, not_or]
          exact ⟨hbase, h.base_not_mem⟩
        max_mem := hmaxmem
        last_mem := Set.mem_insert_of_mem _ h.last_mem
        min_le_last := h.min_le_last
        last_le_max := by have := h.last_le_max; dsimp only; omega
        mem_le_max := hM }
    simp only [markReceived, markMaxPnSeen_basePn, hbase, if_false]
    exact hclean.congr (by simp) (by simp) (by simp) (by simp) (by simp) (by simp)

-- The end of `quic_pnspace_mark` keeps the invariant, whether or not the window moves
-- past `last_max_pn_seen`.
theorem markAdvance_inv (h : MarkInv space M) (pn : Int) : MarkInv (markAdvance space pn) M := by
  have hsize := h.len_le
  unfold markAdvance
  dsimp only
  split_ifs with hne hkeep hmove
  · exact h
  · exact h
  · -- the window moves to the first clear bit past last_max_pn_seen
    have hlast := h.last_le_max
    have hlen := h.max_lt_len
    obtain ⟨k, hk1, hk2, hset, hclear, heq⟩ :=
      quicPnspaceMove_spec space space.lastMaxPnSeen (by omega) (by omega) hsize
    obtain ⟨hbits, hhigh, hnot, hle, hrun⟩ := window_shift (M := M) space.basePn space.maxPnSeen
      (space.lastMaxPnSeen + 1 - space.basePn).toNat
      (fun i _ hi => h.bit_iff i hi) h.bit_high hlen h.mem_le_max (by omega) (by omega) hk2
      (fun j hj1 hj2 => hset j (by omega) hj2) hclear
    have hclean : MarkInv
        { space with
          basePn := space.basePn + k
          pnMap := Bitmap.shiftRight space.pnMap k space.pnMapLen
          minPnSeen := space.lastMaxPnSeen
          lastMaxPnSeen := space.maxPnSeen } M :=
      { min_nonneg := by have := h.min_nonneg; have := h.min_le_last; dsimp only; omega
        min_lt_base := by dsimp only; omega
        base_le_max := hle
        max_lt_len := by dsimp only; omega
        len_le := hsize
        below_base := fun p hp1 hp2 => by
          dsimp only at hp1 hp2
          rcases Int.lt_or_eq_of_le hp1 with hlt | rfl
          · exact hrun p (by omega) hp2
          · exact h.last_mem
        bit_iff := hbits
        bit_high := hhigh
        base_not_mem := hnot
        max_mem := h.max_mem
        last_mem := h.max_mem
        min_le_last := hlast
        last_le_max := le_refl _
        mem_le_max := h.mem_le_max }
    rw [heq]
    exact hclean.congr rfl rfl rfl rfl rfl rfl
  · -- base_pn is already past last_max_pn_seen: only the bookkeeping moves
    exact { min_nonneg := by have := h.min_nonneg; have := h.min_le_last; dsimp only; omega
            min_lt_base := by dsimp only; omega
            base_le_max := h.base_le_max
            max_lt_len := h.max_lt_len
            len_le := hsize
            below_base := fun p hp1 hp2 => by
              dsimp only at hp1 hp2
              exact h.below_base p (by have := h.min_le_last; omega) hp2
            bit_iff := h.bit_iff
            bit_high := h.bit_high
            base_not_mem := h.base_not_mem
            max_mem := h.max_mem
            last_mem := h.max_mem
            min_le_last := h.last_le_max
            last_le_max := le_refl _
            mem_le_max := h.mem_le_max }

-- One `quic_pnspace_mark` after `quic_pnspace_check` returned 0: on success `pn` joins the
-- recorded set with the invariant kept; on failure (the map could not grow) nothing changes.
theorem mark_inv (h : MarkInv space M) {pn : Int} (hc : quicPnspaceCheck space pn = 0)
    (alloc : Bool) :
    ((quicPnspaceMark space pn alloc).1 = 0 →
        MarkInv (quicPnspaceMark space pn alloc).2 (insert pn M)) ∧
      ((quicPnspaceMark space pn alloc).1 ≠ 0 → (quicPnspaceMark space pn alloc).2 = space) := by
  obtain ⟨hlo, hhi, hnew⟩ := h.check_eq_zero hc
  have hsize := h.len_le
  unfold QUIC_PN_MAP_SIZE at hhi hsize
  have hgap : toU16 (pn - space.basePn) = (pn - space.basePn).toNat := by
    have := toU16_of_lt (x := pn - space.basePn) (by omega) (by omega)
    omega
  unfold quicPnspaceMark
  rw [if_neg h.base_ne, if_neg (by omega)]
  dsimp only
  rw [hgap]
  by_cases hg : space.pnMapLen ≤ (pn - space.basePn).toNat
  · -- the map grows first, unless the allocation fails
    obtain ⟨len, hlen1, hlen2, hgrow⟩ := h.grow_spec hg (by unfold QUIC_PN_MAP_SIZE; omega) alloc
    rw [if_pos hg, hgrow]
    cases alloc
    · simp [ENOMEM]
    · refine ⟨fun _ => ?_, fun hne => absurd rfl hne⟩
      have hgrown := h.extend (by omega) hlen2
      exact markAdvance_inv (markReceived_inv hgrown hlo (by dsimp only; omega) hnew) pn
  · rw [if_neg hg]
    refine ⟨fun _ => ?_, fun hne => absurd rfl hne⟩
    exact markAdvance_inv (markReceived_inv h hlo (by omega) hnew) pn

end MarkInv

-- The first recorded packet number sets up the window just past it.
theorem setBasePn_inv {space : QuicPnspace} {pn : Int} (hpn : 0 ≤ pn)
    (hmap : ∀ i, space.pnMap i = false) (hlen : space.pnMapLen ≤ QUIC_PN_MAP_SIZE) :
    MarkInv (quicPnspaceSetBasePn space (pn + 1)) {pn} where
  min_nonneg := by simp only [quicPnspaceSetBasePn]; omega
  min_lt_base := by simp only [quicPnspaceSetBasePn]; omega
  base_le_max := by simp only [quicPnspaceSetBasePn]; omega
  max_lt_len := by simp only [quicPnspaceSetBasePn]; omega
  len_le := hlen
  below_base := fun p hp1 hp2 => by
    simp only [quicPnspaceSetBasePn] at hp1 hp2
    simp only [Set.mem_singleton_iff]
    omega
  bit_iff := fun i _ => by
    simp only [quicPnspaceSetBasePn, hmap, Bool.false_eq_true, Set.mem_singleton_iff, false_iff]
    omega
  bit_high := fun i _ => hmap i
  base_not_mem := by simp only [quicPnspaceSetBasePn, Set.mem_singleton_iff]; omega
  max_mem := by simp only [quicPnspaceSetBasePn, Set.mem_singleton_iff]; omega
  last_mem := by simp only [quicPnspaceSetBasePn, Set.mem_singleton_iff]; omega
  min_le_last := by simp only [quicPnspaceSetBasePn]; omega
  last_le_max := by simp only [quicPnspaceSetBasePn]; omega
  mem_le_max := fun p hp => by
    simp only [quicPnspaceSetBasePn, Set.mem_singleton_iff] at hp ⊢
    omega

end Quic
