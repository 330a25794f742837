import Mathlib.Data.List.Basic

namespace Dispatch

-- A loop that reads records one after another from a list: `read s a rest` handles the record
-- whose first element is `a`, with `rest` after it, and gives how many elements of `rest` the
-- record takes and the state after it, or an error that ends the loop.

variable {α σ ε : Type*}

section Run

variable (read : σ → α → List α → Except ε (Nat × σ))

def run : σ → List α → Except ε σ
  | s, [] => .ok s
  | s, a :: rest =>
    match read s a rest with
    | .error e => .error e
    | .ok (n, s') => run s' (rest.drop n)
termination_by _ l => l.length
decreasing_by simp only [List.length_drop, List.length_cons]; omega

-- The records `recs` laid end to end: each its first element, then its body.
def join (recs : List (α × List α)) : List α := recs.flatMap fun r => r.1 :: r.2

-- The reader never takes more than what follows a record's first element.
def Bounded : Prop := ∀ s a rest n s', read s a rest = .ok (n, s') → n ≤ rest.length

-- `Splits read after s recs s'`: from `s`, the reader accepts the records `recs` in turn, each
-- taking exactly its body, with `after` following the last, and ends in `s'`.
inductive Splits (after : List α) : σ → List (α × List α) → σ → Prop
  | nil (s : σ) : Splits after s [] s
  | cons {s s₁ s' : σ} {a : α} {body : List α} {recs : List (α × List α)}
      (head : read s a (body ++ (join recs ++ after)) = .ok (body.length, s₁))
      (tail : Splits after s₁ recs s') :
      Splits after s ((a, body) :: recs) s'

end Run

variable {read : σ → α → List α → Except ε (Nat × σ)} {s s' : σ} {l : List α}
  {recs : List (α × List α)}

@[simp] theorem join_nil : join ([] : List (α × List α)) = [] := rfl

@[simp] theorem join_cons (a : α) (body : List α) (recs : List (α × List α)) :
    join ((a, body) :: recs) = a :: (body ++ join recs) := by
  simp [join]

-- A nonempty list of records lays out at least the first one's first element.
theorem join_ne_nil (hne : recs ≠ []) : join recs ≠ [] := by
  obtain ⟨⟨a, body⟩, rest, rfl⟩ := List.exists_cons_of_ne_nil hne
  simp

@[simp] theorem run_nil (s : σ) : run read s [] = .ok s := by
  rw [run]

theorem run_cons_ok {a : α} {rest : List α} {n : Nat} {s₁ : σ} (h : read s a rest = .ok (n, s₁)) :
    run read s (a :: rest) = run read s₁ (rest.drop n) := by
  rw [run, h]

theorem run_cons_error {a : α} {rest : List α} {e : ε} (h : read s a rest = .error e) :
    run read s (a :: rest) = .error e := by
  rw [run, h]

-- A record the reader accepts, with its body cut from the rest by what it took.
theorem body_append_drop {rest : List α} {n : Nat} (hn : n ≤ rest.length) :
    (rest.take n).length = n ∧ rest.take n ++ rest.drop n = rest :=
  ⟨List.length_take_of_le hn, List.take_append_drop n rest⟩

/-! ## The records the loop accepts -/

-- Records the reader accepts are read back by the loop, whatever bound it keeps.
theorem Splits.run_eq (h : Splits read [] s recs s') : run read s (join recs) = .ok s' := by
  induction h with
  | nil s => exact run_nil s
  | @cons s s₁ s' a body recs head _ ih =>
    rw [List.append_nil] at head
    rw [join_cons, run_cons_ok head, List.drop_left]
    exact ih

-- The loop succeeds only on records the reader accepts, laid end to end.
theorem splits_of_run (hb : Bounded read) (h : run read s l = .ok s') :
    ∃ recs, join recs = l ∧ Splits read [] s recs s' := by
  fun_induction run read s l with
  | case1 s =>
    cases h
    exact ⟨[], rfl, .nil _⟩
  | case2 s a rest e he => cases h
  | case3 s a rest n s₁ hr ih =>
    obtain ⟨recs, hj, hs⟩ := ih h
    obtain ⟨hlen, happ⟩ := body_append_drop (hb _ _ _ _ _ hr)
    refine ⟨(a, rest.take n) :: recs, ?_, .cons ?_ hs⟩
    · rw [join_cons, hj, happ]
    · rw [List.append_nil, hj, happ, hlen]
      exact hr

-- The loop fails only after records the reader accepts, at one it refuses.
theorem run_error (hb : Bounded read) {e : ε} (h : run read s l = .error e) :
    ∃ recs s₁ a rest, l = join recs ++ a :: rest ∧ Splits read (a :: rest) s recs s₁ ∧
      read s₁ a rest = .error e := by
  fun_induction run read s l with
  | case1 s => cases h
  | case2 s a rest e' he =>
    cases h
    exact ⟨[], s, a, rest, rfl, .nil s, he⟩
  | case3 s a rest n s₁ hr ih =>
    obtain ⟨recs, s₂, b, rest', hj, hs, hb'⟩ := ih h
    obtain ⟨hlen, happ⟩ := body_append_drop (hb _ _ _ _ _ hr)
    refine ⟨(a, rest.take n) :: recs, s₂, b, rest', ?_, .cons ?_ hs, hb'⟩
    · rw [join_cons, List.cons_append, List.append_assoc, ← hj, happ]
    · rw [← hj, happ, hlen]
      exact hr

end Dispatch
