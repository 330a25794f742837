import Mathlib

namespace KeyedList

-- Lists of records told apart by a key: replacing the record that has a key, removing it, and
-- how a count over the list moves when the keys are distinct.

variable {α κ : Type*} [DecidableEq κ] (key : α → κ)

-- `l` with every record that has the key of `a` replaced by `a`.
def replace (a : α) (l : List α) : List α :=
  l.map (fun x => if key x = key a then a else x)

-- `l` without the records that have the key of `a`.
def erase (a : α) (l : List α) : List α :=
  l.filter (fun x => key x ≠ key a)

variable {key}

theorem replace_nil (a : α) : replace key a [] = [] := rfl

theorem replace_cons (a x : α) (l : List α) :
    replace key a (x :: l) = (if key x = key a then a else x) :: replace key a l := rfl

theorem map_key_replace (a : α) (l : List α) : (replace key a l).map key = l.map key := by
  induction l with
  | nil => rfl
  | cons x l ih =>
    rw [replace_cons, List.map_cons, List.map_cons, ih]
    by_cases hx : key x = key a
    · rw [if_pos hx, hx]
    · rw [if_neg hx]

theorem mem_replace {a x : α} {l : List α} (h : x ∈ replace key a l) : x = a ∨ x ∈ l := by
  obtain ⟨y, hy, rfl⟩ := List.mem_map.1 h
  by_cases hya : key y = key a
  · exact .inl (if_pos hya)
  · exact .inr (by rw [if_neg hya]; exact hy)

theorem replace_of_not_mem {a : α} {l : List α} (h : key a ∉ l.map key) : replace key a l = l := by
  have hne : ∀ x ∈ l, key x ≠ key a := fun x hx hxa => h (hxa ▸ List.mem_map_of_mem hx)
  unfold replace
  rw [List.map_congr_left (fun x hx => if_neg (hne x hx)), List.map_id']

-- With distinct keys, replacing `b` by a record `a` of the same key changes a count by what
-- `a` and `b` contribute.
theorem countP_replace (p : α → Bool) {a b : α} (hab : key b = key a) :
    ∀ {l : List α}, (l.map key).Nodup → b ∈ l →
      (replace key a l).countP p + (if p b then 1 else 0) = l.countP p + (if p a then 1 else 0)
  | [], _, hb => absurd hb List.not_mem_nil
  | x :: l, hnodup, hb => by
    obtain ⟨hx, hl⟩ := List.nodup_cons.1 hnodup
    rw [replace_cons, List.countP_cons, List.countP_cons]
    by_cases hxa : key x = key a
    · -- `x` is `b`, and no other record has its key
      have hxb : x = b := by
        rcases List.mem_cons.1 hb with rfl | hb
        · rfl
        · exact absurd (hxa ▸ hab ▸ List.mem_map_of_mem hb) hx
      rw [if_pos hxa, replace_of_not_mem (hxa ▸ hx), hxb]
      omega
    · have hb' : b ∈ l := by
        rcases List.mem_cons.1 hb with rfl | hb
        · exact absurd hab hxa
        · exact hb
      have ih := countP_replace p hab hl hb'
      rw [if_neg hxa]
      omega

theorem erase_sublist (a : α) (l : List α) : (erase key a l).Sublist l := List.filter_sublist

theorem mem_erase {a x : α} {l : List α} (h : x ∈ erase key a l) : x ∈ l :=
  (erase_sublist a l).subset h

theorem nodup_erase (a : α) {l : List α} (h : (l.map key).Nodup) : ((erase key a l).map key).Nodup :=
  h.sublist ((erase_sublist a l).map key)

-- With distinct keys, removing the key of `b` takes exactly `b` out of a count.
theorem countP_erase (p : α → Bool) {a b : α} (hab : key b = key a) :
    ∀ {l : List α}, (l.map key).Nodup → b ∈ l →
      (erase key a l).countP p + (if p b then 1 else 0) = l.countP p
  | [], _, hb => absurd hb List.not_mem_nil
  | x :: l, hnodup, hb => by
    obtain ⟨hx, hl⟩ := List.nodup_cons.1 hnodup
    by_cases hxa : key x = key a
    · have hxb : x = b := by
        rcases List.mem_cons.1 hb with rfl | hb
        · rfl
        · exact absurd (hxa ▸ hab ▸ List.mem_map_of_mem hb) hx
      have hrest : erase key a l = l := List.filter_eq_self.2 (fun y hy => by
        have hya : key y ≠ key a := fun hya => hx (hxa ▸ hya ▸ List.mem_map_of_mem hy)
        simpa using hya)
      rw [erase, List.filter_cons_of_neg (by simpa using hxa), ← erase, hrest,
        List.countP_cons, hxb]
    · have hb' : b ∈ l := by
        rcases List.mem_cons.1 hb with rfl | hb
        · exact absurd hab hxa
        · exact hb
      have ih := countP_erase p hab hl hb'
      rw [erase, List.filter_cons_of_pos (by simpa using hxa), ← erase, List.countP_cons,
        List.countP_cons]
      omega

-- With distinct keys, a list is `b` followed by what removing the key of `b` leaves.
theorem perm_cons_erase {b : α} :
    ∀ {l : List α}, (l.map key).Nodup → b ∈ l → l.Perm (b :: erase key b l)
  | [], _, hb => absurd hb List.not_mem_nil
  | x :: l, hnodup, hb => by
    obtain ⟨hx, hl⟩ := List.nodup_cons.1 hnodup
    by_cases hxb : key x = key b
    · -- `x` is `b`, and nothing else has its key
      have hxb' : x = b := by
        rcases List.mem_cons.1 hb with rfl | hb
        · rfl
        · exact absurd (hxb ▸ List.mem_map_of_mem hb) hx
      have hrest : erase key b l = l := List.filter_eq_self.2 (fun y hy => by
        have hyb : key y ≠ key b := fun hyb => hx (hxb ▸ hyb ▸ List.mem_map_of_mem hy)
        simpa using hyb)
      rw [erase, List.filter_cons_of_neg (by simpa using hxb), ← erase, hrest, hxb']
    · have hb' : b ∈ l := by
        rcases List.mem_cons.1 hb with rfl | hb
        · exact absurd rfl hxb
        · exact hb
      rw [erase, List.filter_cons_of_pos (by simpa using hxb), ← erase]
      exact ((perm_cons_erase hl hb').cons x).trans (List.Perm.swap b x _)

end KeyedList
