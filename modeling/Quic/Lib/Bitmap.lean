import Mathlib

namespace Bitmap

-- Bitmaps of a fixed number of bits, read as a predicate on positions, with the
-- scanning and shifting primitives of a word-based bitmap library.

-- The scan behind `find_next_bit`: the first position from `i` on where `p` holds,
-- with `fuel` positions left before `size`, else `size`.
def findFrom (p : Nat → Bool) (size : Nat) : Nat → Nat → Nat
  | 0, _ => size
  | fuel + 1, i => if p i then i else findFrom p size fuel (i + 1)

-- The first position in `[offset, size)` where `p` holds, or `size` when there is none
-- (also when `offset ≥ size`).
def findNext (p : Nat → Bool) (size offset : Nat) : Nat :=
  findFrom p size (size - offset) offset

def findNextBit (b : Nat → Bool) (size offset : Nat) : Nat :=
  findNext b size offset

def findNextZeroBit (b : Nat → Bool) (size offset : Nat) : Nat :=
  findNext (fun i => !b i) size offset

-- `dst = src >> shift` over `nbits` bits: the vacated high bits are cleared.
def shiftRight (b : Nat → Bool) (shift nbits : Nat) : Nat → Bool :=
  fun i => decide (i + shift < nbits) && b (i + shift)

-- A copy of the whole words that hold the first `nbits` bits into a cleared bitmap.
def copyWords (word : Nat) (b : Nat → Bool) (nbits : Nat) : Nat → Bool :=
  fun i => decide (i < (nbits + word - 1) / word * word) && b i

def setBit (b : Nat → Bool) (n : Nat) : Nat → Bool :=
  fun i => i == n || b i

def zero : Nat → Bool :=
  fun _ => false

section Find

variable {p : Nat → Bool} {size : Nat}

theorem findFrom_spec (fuel i : Nat) (h : i + fuel = size) :
    i ≤ findFrom p size fuel i ∧ findFrom p size fuel i ≤ size ∧
      (∀ j, i ≤ j → j < findFrom p size fuel i → p j = false) ∧
      (findFrom p size fuel i < size → p (findFrom p size fuel i) = true) := by
  induction fuel generalizing i with
  | zero =>
    rw [findFrom]
    exact ⟨by omega, Nat.le_refl _, fun j hj hjs => by omega, fun hs => by omega⟩
  | succ fuel ih =>
    by_cases hp : p i
    · rw [findFrom, if_pos hp]
      exact ⟨Nat.le_refl _, by omega, fun j hj hji => by omega, fun _ => hp⟩
    · obtain ⟨hlo, hhi, hskip, hhit⟩ := ih (i + 1) (by omega)
      rw [findFrom, if_neg hp]
      refine ⟨by omega, hhi, fun j hj hjr => ?_, hhit⟩
      -- position `i` itself was tested and failed; the rest is the recursive scan
      rcases Nat.eq_or_lt_of_le hj with rfl | hlt
      · simpa using hp
      · exact hskip j hlt hjr

theorem findNext_le_size (offset : Nat) : findNext p size offset ≤ size := by
  by_cases h : offset ≤ size
  · exact (findFrom_spec (p := p) (size - offset) offset (by omega)).2.1
  · simp [findNext, Nat.sub_eq_zero_of_le (Nat.le_of_not_le h), findFrom]

theorem le_findNext {offset : Nat} (h : offset ≤ size) : offset ≤ findNext p size offset :=
  (findFrom_spec (p := p) (size - offset) offset (by omega)).1

theorem findNext_skip {offset j : Nat} (hj : offset ≤ j) (hjr : j < findNext p size offset) :
    p j = false := by
  by_cases h : offset ≤ size
  · exact (findFrom_spec (p := p) (size - offset) offset (by omega)).2.2.1 j hj hjr
  · have hr : findNext p size offset = size := by
      simp [findNext, Nat.sub_eq_zero_of_le (Nat.le_of_not_le h), findFrom]
    omega

theorem findNext_hit {offset : Nat} (hr : findNext p size offset < size) :
    p (findNext p size offset) = true := by
  by_cases h : offset ≤ size
  · exact (findFrom_spec (p := p) (size - offset) offset (by omega)).2.2.2 hr
  · have hr' : findNext p size offset = size := by
      simp [findNext, Nat.sub_eq_zero_of_le (Nat.le_of_not_le h), findFrom]
    omega

end Find

section Zero

variable {b : Nat → Bool} {size offset : Nat}

theorem findNextZeroBit_le_size : findNextZeroBit b size offset ≤ size :=
  findNext_le_size offset

theorem le_findNextZeroBit (h : offset ≤ size) : offset ≤ findNextZeroBit b size offset :=
  le_findNext h

-- Every bit the search for a clear bit passed over is set.
theorem findNextZeroBit_skip {j : Nat} (hj : offset ≤ j) (hjr : j < findNextZeroBit b size offset) :
    b j = true := by
  simpa using findNext_skip (p := fun i => !b i) hj hjr

theorem findNextZeroBit_hit (hr : findNextZeroBit b size offset < size) :
    b (findNextZeroBit b size offset) = false := by
  simpa [findNextZeroBit] using findNext_hit (p := fun i => !b i) hr

theorem findNextBit_le_size : findNextBit b size offset ≤ size :=
  findNext_le_size offset

theorem le_findNextBit (h : offset ≤ size) : offset ≤ findNextBit b size offset :=
  le_findNext h

theorem findNextBit_skip {j : Nat} (hj : offset ≤ j) (hjr : j < findNextBit b size offset) :
    b j = false :=
  findNext_skip hj hjr

theorem findNextBit_hit (hr : findNextBit b size offset < size) :
    b (findNextBit b size offset) = true :=
  findNext_hit hr

end Zero

@[simp] theorem shiftRight_apply (b : Nat → Bool) (shift nbits i : Nat) :
    shiftRight b shift nbits i = (decide (i + shift < nbits) && b (i + shift)) := rfl

@[simp] theorem setBit_apply (b : Nat → Bool) (n i : Nat) :
    setBit b n i = (i == n || b i) := rfl

@[simp] theorem zero_apply (i : Nat) : zero i = false := rfl

theorem copyWords_apply (word : Nat) (b : Nat → Bool) (nbits i : Nat) :
    copyWords word b nbits i = (decide (i < (nbits + word - 1) / word * word) && b i) := rfl

-- Copying whole words loses nothing when no bit is set at or beyond `nbits`.
theorem copyWords_eq_self {word : Nat} (hword : 0 < word) {b : Nat → Bool} {nbits : Nat}
    (hhigh : ∀ i, nbits ≤ i → b i = false) : copyWords word b nbits = b := by
  funext i
  have hround : nbits ≤ (nbits + word - 1) / word * word := by
    have h := Nat.lt_div_mul_add (a := nbits + word - 1) hword
    omega
  by_cases hi : i < (nbits + word - 1) / word * word
  · simp [copyWords_apply, hi]
  · simp [copyWords_apply, hi, hhigh i (by omega)]

end Bitmap
