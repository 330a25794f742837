import Mathlib

namespace Ranges

-- Byte ranges of a stream, each an offset and a length: ranges laid end to end, and the state of
-- a reassembly buffer against the ranges it has received (what it handed on, what it holds).

-- The range of `r.2` bytes from `r.1` holds byte `x`.
def Covers (r : Nat × Nat) (x : Nat) : Prop := r.1 ≤ x ∧ x < r.1 + r.2

instance (r : Nat × Nat) (x : Nat) : Decidable (Covers r x) :=
  inferInstanceAs (Decidable (_ ∧ _))

-- `Tiles a rs b`: the ranges `rs`, in order, are non-empty and lie end to end from `a` to `b`.
inductive Tiles : Nat → List (Nat × Nat) → Nat → Prop
  | nil (a : Nat) : Tiles a [] a
  | cons {a n b : Nat} {rs : List (Nat × Nat)} (pos : 0 < n) (rest : Tiles (a + n) rs b) :
      Tiles a ((a, n) :: rs) b

namespace Tiles

variable {a b n : Nat} {rs : List (Nat × Nat)}

theorem le (h : Tiles a rs b) : a ≤ b := by
  induction h with
  | nil => exact le_rfl
  | cons _ _ ih => omega

theorem snoc (h : Tiles a rs b) (hn : 0 < n) : Tiles a (rs ++ [(b, n)]) (b + n) := by
  induction h with
  | nil a => exact .cons hn (.nil _)
  | cons pos _ ih => exact .cons pos ih

-- The lengths add up to the span.
theorem sum_eq (h : Tiles a rs b) : a + (rs.map Prod.snd).sum = b := by
  induction h with
  | nil => simp
  | cons _ _ ih =>
    simp only [List.map_cons, List.sum_cons]
    omega

theorem mem_bounds (h : Tiles a rs b) {r : Nat × Nat} (hr : r ∈ rs) :
    a ≤ r.1 ∧ r.1 + r.2 ≤ b ∧ 0 < r.2 := by
  induction h with
  | nil => simp at hr
  | cons pos rest ih =>
    have hle := rest.le
    rcases List.mem_cons.1 hr with rfl | hr
    · exact ⟨le_rfl, hle, pos⟩
    · have := ih hr
      omega

end Tiles

-- `n` is the first byte the ranges `rs` leave out: every byte below it lies in one of them,
-- and `n` in none.
def FirstGap (rs : List (Nat × Nat)) (n : Nat) : Prop :=
  (∀ x < n, ∃ r ∈ rs, Covers r x) ∧ ∀ r ∈ rs, ¬ Covers r n

theorem FirstGap.unique {rs : List (Nat × Nat)} {n m : Nat} (hn : FirstGap rs n)
    (hm : FirstGap rs m) : n = m := by
  by_contra hne
  rcases Nat.lt_or_gt_of_ne hne with hlt | hlt
  · obtain ⟨r, hr, hc⟩ := hm.1 n hlt
    exact hn.2 r hr hc
  · obtain ⟨r, hr, hc⟩ := hn.1 m hlt
    exact hm.2 r hr hc

/-! ## A reassembly buffer against the ranges received -/

section Reassembly

variable {recv held : List (Nat × Nat)} {n m : Nat}

-- Every byte handed on (below `n`) was received.
def Below (recv : List (Nat × Nat)) (n : Nat) : Prop := ∀ x < n, ∃ r ∈ recv, Covers r x

-- Every byte received was handed on or is held.
def Kept (recv held : List (Nat × Nat)) (n : Nat) : Prop :=
  ∀ r ∈ recv, ∀ x, Covers r x → x < n ∨ ∃ q ∈ held, Covers q x

theorem Below.mono (h : Below recv n) (hsub : ∀ r ∈ recv, r ∈ recv') : Below recv' n := by
  intro x hx
  obtain ⟨r, hr, hc⟩ := h x hx
  exact ⟨r, hsub r hr, hc⟩

-- Handing on a received range that starts at or below `n` extends what was handed on to its end.
theorem Below.advance (h : Below recv n) {r : Nat × Nat} (hr : r ∈ recv) (hstart : r.1 ≤ n) :
    Below recv (r.1 + r.2) := by
  intro x hx
  by_cases hxn : x < n
  · exact h x hxn
  · exact ⟨r, hr, by omega, hx⟩

theorem Kept.of_le (h : Kept recv held n) (hnm : n ≤ m) : Kept recv held m := by
  intro r hr x hx
  rcases h r hr x hx with hlt | hq
  · exact .inl (by omega)
  · exact .inr hq

theorem Kept.mono_held (h : Kept recv held n) {held' : List (Nat × Nat)}
    (hsub : ∀ q ∈ held, q ∈ held') : Kept recv held' n := by
  intro r hr x hx
  rcases h r hr x hx with hlt | ⟨q, hq, hc⟩
  · exact .inl hlt
  · exact .inr ⟨q, hsub q hq, hc⟩

-- A held range that ends by `n` can go.
theorem Kept.drop (h : Kept recv (q :: held) n) (hq : q.1 + q.2 ≤ n) : Kept recv held n := by
  intro r hr x hx
  rcases h r hr x hx with hlt | ⟨q', hq', hc⟩
  · exact .inl hlt
  · rcases List.mem_cons.1 hq' with rfl | hq'
    · exact .inl (by unfold Covers at hc; omega)
    · exact .inr ⟨q', hq', hc⟩

-- A new range whose bytes were handed on or are held changes nothing.
theorem Kept.receive (h : Kept recv held n) {r : Nat × Nat}
    (hr : ∀ x, Covers r x → x < n ∨ ∃ q ∈ held, Covers q x) : Kept (recv ++ [r]) held n := by
  intro r' hr' x hx
  rcases List.mem_append.1 hr' with hr' | hr'
  · exact h r' hr' x hx
  · rw [List.mem_singleton.1 hr'] at hx
    exact hr x hx

-- With nothing held at or below `n`, `n` is the first byte not received.
theorem firstGap_of_kept (hb : Below recv n) (hk : Kept recv held n)
    (hbeyond : ∀ q ∈ held, n < q.1) : FirstGap recv n := by
  refine ⟨hb, fun r hr hc => ?_⟩
  rcases hk r hr n hc with hlt | ⟨q, hq, hqc⟩
  · exact lt_irrefl n hlt
  · exact absurd hqc.1 (Nat.not_le.2 (hbeyond q hq))

end Reassembly

end Ranges
