import Mathlib

namespace OrderedList

-- Lists kept ordered by a transitive relation: insertion at the point where a predicate first
-- fails, the split of a sum by a filter, and which element stays last.

variable {α : Type*}

-- Inserting `a` where `c` first fails keeps a list ordered by a transitive `r`, when `a` comes
-- after every element `c` holds for and before every element it fails for.
theorem pairwise_takeWhile_cons_dropWhile {r : α → α → Prop}
    (htrans : ∀ x y z, r x y → r y z → r x z) (c : α → Bool) (a : α) :
    ∀ {l : List α}, l.Pairwise r → (∀ x ∈ l, c x = true → r x a) →
      (∀ x ∈ l, c x = false → r a x) → (l.takeWhile c ++ a :: l.dropWhile c).Pairwise r
  | [], _, _, _ => List.pairwise_singleton r a
  | x :: xs, hl, hbefore, hafter => by
    obtain ⟨hx, hxs⟩ := List.pairwise_cons.1 hl
    cases hc : c x
    · -- `a` goes right in front of `x`, and so before all of `x :: xs`
      rw [List.takeWhile_cons_of_neg (by simp [hc]), List.dropWhile_cons_of_neg (by simp [hc])]
      have hax : r a x := hafter x List.mem_cons_self hc
      refine List.pairwise_cons.2 ⟨?_, hl⟩
      intro y hy
      rcases List.mem_cons.1 hy with rfl | hy
      · exact hax
      · exact htrans _ _ _ hax (hx y hy)
    · rw [List.takeWhile_cons_of_pos (by simp [hc]), List.dropWhile_cons_of_pos (by simp [hc])]
      have ih := pairwise_takeWhile_cons_dropWhile htrans c a hxs
        (fun y hy => hbefore y (List.mem_cons_of_mem x hy))
        (fun y hy => hafter y (List.mem_cons_of_mem x hy))
      rw [List.cons_append]
      refine List.pairwise_cons.2 ⟨?_, ih⟩
      -- the tail is `xs` with `a` inserted, and `x` is before both
      intro y hy
      have hperm : List.Perm (xs.takeWhile c ++ a :: xs.dropWhile c) (a :: xs) := by
        have h : List.Perm (xs.takeWhile c ++ a :: xs.dropWhile c)
            (a :: (xs.takeWhile c ++ xs.dropWhile c)) := List.perm_middle
        rwa [List.takeWhile_append_dropWhile] at h
      rcases List.mem_cons.1 (hperm.mem_iff.1 hy) with rfl | hy
      · exact hbefore x List.mem_cons_self hc
      · exact hx y hy

-- A sum over a list is the sum over the elements a filter keeps plus the sum over the rest.
theorem sum_map_filter_add_not (p : α → Bool) (f : α → Nat) :
    ∀ l : List α, ((l.filter p).map f).sum + ((l.filter (fun x => !p x)).map f).sum =
      (l.map f).sum
  | [] => rfl
  | x :: xs => by
    have ih := sum_map_filter_add_not p f xs
    cases hx : p x <;> simp only [List.filter_cons, hx, Bool.not_true, Bool.not_false,
      if_true, if_false, List.map_cons, List.sum_cons, Bool.false_eq_true] <;> omega

-- Inserting `a` where `c` first fails keeps the last element unless `c` holds all the way.
theorem getLast?_takeWhile_cons_dropWhile (c : α → Bool) (a : α) (l : List α) {x : α}
    (hx : x ∈ (l.takeWhile c ++ a :: l.dropWhile c).getLast?) : x = a ∨ x ∈ l.getLast? := by
  cases hd : l.dropWhile c with
  | nil =>
    rw [hd, List.getLast?_concat] at hx
    exact .inl (Option.mem_some_iff.1 hx).symm
  | cons d ds =>
    have hl : l = l.takeWhile c ++ d :: ds := by rw [← hd, List.takeWhile_append_dropWhile]
    right
    rw [hd, List.getLast?_append, List.getLast?_cons_cons] at hx
    rw [hl, List.getLast?_append]
    simpa using hx

-- When `p` passes from each element to every later one and a filter drops only elements where
-- `p` fails, a last element of the filtered list where `p` holds is the last of the whole list.
theorem getLast?_filter_of_pairwise {p q : α → Bool} :
    ∀ {l : List α}, l.Pairwise (fun a b => p a → p b) → (∀ x ∈ l, q x = false → p x = false) →
      ∀ x ∈ (l.filter q).getLast?, p x → x ∈ l.getLast?
  | [], _, _, x, hx, _ => by simp at hx
  | y :: l, hl, hdrop, x, hx, hp => by
    obtain ⟨hy, hl'⟩ := List.pairwise_cons.1 hl
    have ih := getLast?_filter_of_pairwise hl' (fun z hz => hdrop z (List.mem_cons_of_mem y hz))
    by_cases hnil : l = []
    · subst hnil
      cases hq : q y <;> simp_all
    · have hlast : (y :: l).getLast? = l.getLast? := by
        obtain ⟨z, zs, rfl⟩ := List.exists_cons_of_ne_nil hnil
        rw [List.getLast?_cons_cons]
      rw [hlast]
      cases hq : q y
      · rw [List.filter_cons_of_neg (by simp [hq])] at hx
        exact ih x hx hp
      · rw [List.filter_cons_of_pos hq] at hx
        cases hf : l.filter q with
        | nil =>
          -- every later element is dropped, so `p` fails there, and so at `y`, which is `x`
          rw [hf] at hx
          have hxy : x = y := by simpa [eq_comm] using hx
          obtain ⟨z, zs, rfl⟩ := List.exists_cons_of_ne_nil hnil
          have hz : q z = false := by
            have := List.filter_eq_nil_iff.1 hf z List.mem_cons_self
            simpa using this
          have := hy z List.mem_cons_self (hxy ▸ hp)
          rw [hdrop z (List.mem_cons_of_mem y List.mem_cons_self) hz] at this
          exact absurd this Bool.false_ne_true
        | cons w ws =>
          rw [hf, List.getLast?_cons_cons] at hx
          exact ih x (by rw [hf]; exact hx) hp

-- When a failure of `c` passes to every later element, what `dropWhile c` leaves all fail `c`.
theorem dropWhile_forall_of_pairwise {c : α → Bool} :
    ∀ {l : List α}, l.Pairwise (fun a b => c a = false → c b = false) →
      ∀ x ∈ l.dropWhile c, c x = false
  | [], _, x, hx => by simp at hx
  | y :: ys, hl, x, hx => by
    obtain ⟨hy, hys⟩ := List.pairwise_cons.1 hl
    cases hc : c y
    · rw [List.dropWhile_cons_of_neg (by simp [hc])] at hx
      rcases List.mem_cons.1 hx with rfl | hx
      · exact hc
      · exact hy x hx hc
    · rw [List.dropWhile_cons_of_pos (by simp [hc])] at hx
      exact dropWhile_forall_of_pairwise hys x hx

-- Inserting an element a filter drops leaves the filter as it was.
theorem filter_takeWhile_cons_dropWhile_of_neg (p c : α → Bool) {a : α} (ha : p a = false)
    (l : List α) : (l.takeWhile c ++ a :: l.dropWhile c).filter p = l.filter p := by
  rw [List.filter_append, List.filter_cons_of_neg (by simp [ha]), ← List.filter_append,
    List.takeWhile_append_dropWhile]

-- Inserting an element a filter keeps, where everything after fails the filter, puts it last.
theorem filter_takeWhile_cons_dropWhile_of_pos (p c : α → Bool) {a : α} (ha : p a = true)
    (l : List α) (hafter : ∀ x ∈ l.dropWhile c, p x = false) :
    (l.takeWhile c ++ a :: l.dropWhile c).filter p = l.filter p ++ [a] := by
  have hdrop : (l.dropWhile c).filter p = [] := List.filter_eq_nil_iff.2 (by simpa using hafter)
  have hsplit : l.filter p = (l.takeWhile c).filter p := by
    conv_lhs => rw [← List.takeWhile_append_dropWhile (p := c) (l := l)]
    rw [List.filter_append, hdrop, List.append_nil]
  rw [List.filter_append, List.filter_cons_of_pos ha, hdrop, hsplit]

end OrderedList
