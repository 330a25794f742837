import Quic.Cong.Control

namespace Quic

/-! ## The floored Newton step of the cube root -/

-- The step `(2a + n / a²) / 3` never drops below a number whose cube is at most `n`: the
-- integer form of the AM-GM inequality, `b³ - 3ba² + 2a³ = (a - b)²(2a + b)`.
theorem le_newtonCube {a b n : Nat} (ha : 0 < a) (hb : b ^ 3 ≤ n) :
    b ≤ (2 * a + n / (a * a)) / 3 := by
  have ha2 : 0 < a * a := Nat.mul_pos ha ha
  rw [Nat.le_div_iff_mul_le (by decide)]
  by_cases hsmall : b * 3 ≤ 2 * a
  · exact Nat.le_add_right_of_le hsmall
  · have hkey : (b * 3 - 2 * a) * (a * a) ≤ b ^ 3 := by
      have hcast : ((b * 3 - 2 * a : Nat) : Int) = 3 * b - 2 * a := by
        push_cast [Nat.cast_sub (by omega : 2 * a ≤ b * 3)]
        ring
      zify
      rw [hcast]
      nlinarith [sq_nonneg ((a : Int) - b), (Nat.cast_nonneg a : (0 : Int) ≤ a),
        (Nat.cast_nonneg b : (0 : Int) ≤ b)]
    have hq : b * 3 - 2 * a ≤ n / (a * a) := (Nat.le_div_iff_mul_le ha2).mpr (hkey.trans hb)
    omega

-- Above the root the step goes strictly down.
theorem newtonCube_lt {a n : Nat} (ha : 0 < a) (hn : n < a ^ 3) :
    (2 * a + n / (a * a)) / 3 < a := by
  have hq : n / (a * a) < a := by
    rw [Nat.div_lt_iff_lt_mul (Nat.mul_pos ha ha)]
    calc n < a ^ 3 := hn
      _ = a * (a * a) := by ring
  omega

/-! ## `cubic_root` -/

-- An iterate of `cubic_root` on a nonzero `n` (the loop never runs for 0): small enough that
-- `a * a * a` fits in a u64, and at or above every number whose cube is at most `n`.
structure CubicRootIter (n a : Nat) : Prop where
  npos : 0 < n
  le : a ≤ 2 ^ 21
  above : ∀ b, b ^ 3 ≤ n → b ≤ a

theorem CubicRootIter.pos {n a : Nat} (h : CubicRootIter n a) : 0 < a :=
  h.above 1 (by rw [Nat.one_pow]; exact h.npos)

theorem CubicRootIter.cube_le {n a : Nat} (h : CubicRootIter n a) : a * a * a ≤ 2 ^ 63 :=
  calc a * a * a ≤ 2 ^ 21 * 2 ^ 21 * 2 ^ 21 := Nat.mul_le_mul (Nat.mul_le_mul h.le h.le) h.le
    _ = 2 ^ 63 := by norm_num

-- One round of the loop: the products do not wrap, and above the root the next iterate is
-- smaller and still an iterate.
theorem cubicRootIter_step {n a : Nat} (h : CubicRootIter n a) (hgt : n < a * a * a % 2 ^ 64) :
    a * a * a < 2 ^ 64 ∧ (2 * a + n / (a * a % 2 ^ 64)) / 3 < a ∧
      CubicRootIter n ((2 * a + n / (a * a % 2 ^ 64)) / 3) := by
  have hcube := h.cube_le
  have hsq : a * a % 2 ^ 64 = a * a := Nat.mod_eq_of_lt (by nlinarith [h.pos])
  rw [Nat.mod_eq_of_lt (by omega)] at hgt
  have hgt3 : n < a ^ 3 := by rwa [pow_three, ← Nat.mul_assoc]
  have hlt := newtonCube_lt h.pos hgt3
  rw [hsq]
  exact ⟨by omega, hlt, ⟨h.npos, by have := h.le; omega, fun b hb => le_newtonCube h.pos hb⟩⟩

-- The first iterate `2^(d+1)`, `d` a third of the bit length, lies above the root, and below
-- `2^21` for every `n < 2^62`.
theorem cubicRootIter_start {n : Nat} (hn : 0 < n) (hn' : n < 2 ^ 62) :
    CubicRootIter n (2 ^ ((n.log2 + 1) / 3 + 1)) := by
  have hlog : n.log2 < 62 := (Nat.log2_lt (by omega)).mpr hn'
  have hbits : n < 2 ^ (n.log2 + 1) := Nat.lt_log2_self
  have hcube : n < (2 ^ ((n.log2 + 1) / 3 + 1)) ^ 3 := by
    rw [← Nat.pow_mul]
    exact hbits.trans_le (Nat.pow_le_pow_right (by decide) (by omega))
  refine ⟨hn, Nat.pow_le_pow_right (by decide) (by omega), fun b hb => ?_⟩
  by_contra hlt
  have hpow := Nat.pow_le_pow_left (Nat.le_of_not_le hlt) 3
  omega

-- A run of the loop from an iterate, with at least `a` rounds of fuel, ends at the root: every
-- round lowers `a`, so the loop test ends it before the fuel does.
theorem cubicRootLoop_root {n : Nat} (fuel : Nat) :
    ∀ a, CubicRootIter n a → a ≤ fuel →
      cubicRootLoop n fuel a ^ 3 ≤ n ∧ ∀ b, b ^ 3 ≤ n → b ≤ cubicRootLoop n fuel a := by
  induction fuel with
  | zero =>
    intro a h hfuel
    have := h.pos
    omega
  | succ fuel ih =>
    intro a h hfuel
    unfold cubicRootLoop
    split_ifs with hgt
    · obtain ⟨-, hlt, hnext⟩ := cubicRootIter_step h hgt
      exact ih _ hnext (by omega)
    · have hcube := h.cube_le
      rw [Nat.mod_eq_of_lt (by omega)] at hgt
      refine ⟨?_, h.above⟩
      rw [pow_three, ← Nat.mul_assoc]
      omega

-- The largest number whose cube is at most `n` is unique.
theorem cubeRoot_unique {n r r' : Nat} (h : r ^ 3 ≤ n ∧ ∀ b, b ^ 3 ≤ n → b ≤ r)
    (h' : r' ^ 3 ≤ n ∧ ∀ b, b ^ 3 ≤ n → b ≤ r') : r = r' :=
  Nat.le_antisymm (h'.2 r h.1) (h.2 r' h'.1)

theorem cubicRoot_root {n : Nat} (hn : n < 2 ^ 62) :
    cubicRoot n ^ 3 ≤ n ∧ ∀ b, b ^ 3 ≤ n → b ≤ cubicRoot n := by
  unfold cubicRoot
  split_ifs with h0
  · subst h0
    exact ⟨by decide, fun b hb => by simpa using hb⟩
  · exact cubicRootLoop_root _ _ (cubicRootIter_start (by omega) hn) le_rfl

-- `cubic_root` is the integer cube root on `[0, 2^62)`: the loop starts above the root, every
-- round it makes is free of u64 overflow and goes strictly down without passing the root, so
-- it stops by its own test (more fuel changes nothing) at the largest `a` with `a^3 ≤ n`.
theorem cubic_root_newton (n : Nat) (hn : n < 2 ^ 62) :
    (0 < n → CubicRootIter n (2 ^ ((n.log2 + 1) / 3 + 1))) ∧
    (∀ a, CubicRootIter n a → n < a * a * a % 2 ^ 64 →
      a * a * a < 2 ^ 64 ∧ (2 * a + n / (a * a % 2 ^ 64)) / 3 < a ∧
        CubicRootIter n ((2 * a + n / (a * a % 2 ^ 64)) / 3)) ∧
    (0 < n → ∀ fuel, 2 ^ ((n.log2 + 1) / 3 + 1) ≤ fuel →
      cubicRootLoop n fuel (2 ^ ((n.log2 + 1) / 3 + 1)) = cubicRoot n) ∧
    cubicRoot n ^ 3 ≤ n ∧ n < (cubicRoot n + 1) ^ 3 := by
  have hroot := cubicRoot_root hn
  refine ⟨fun h0 => cubicRootIter_start h0 hn, fun a h hgt => cubicRootIter_step h hgt,
    fun h0 fuel hfuel => cubeRoot_unique (cubicRootLoop_root fuel _ (cubicRootIter_start h0 hn)
      hfuel) hroot, hroot.1, ?_⟩
  by_contra hle
  have := hroot.2 (cubicRoot n + 1) (by omega)
  omega

theorem cubic_root_newton_of_cube : cubicRoot 27 ^ 3 ≤ 27 ∧ 27 < (cubicRoot 27 + 1) ^ 3 :=
  (cubic_root_newton 27 (by decide)).2.2.2

end Quic
