import Mathlib.Data.List.DropRight

/-! Texts that are split at a separator, where the empty parts at the end are dropped. -/

namespace RRoadVpn.Library

variable {α : Type*}

/-- Separators at the end make empty parts at the end. -/
theorem splitOn_rdropWhile [DecidableEq α] {sep : α} (text : List α) :
    ((text.rdropWhile (· == sep)).splitOn sep).rdropWhile (· == []) = (text.splitOn sep).rdropWhile (· == []) := by
  induction text using List.reverseRecOn with
  | nil => rfl
  | append_singleton text a ih =>
    by_cases last : a = sep
    · subst last
      rw [List.rdropWhile_concat_pos _ _ _ (by simp), ih, List.splitOn_append_cons_self, List.splitOn_nil,
        List.rdropWhile_concat_pos _ _ _ (by simp)]
    · rw [List.rdropWhile_concat_neg _ _ _ (by simpa using last)]

theorem rdropWhile_append {p : α → Bool} (first : List α) {second : List α} (kept : second.rdropWhile p ≠ []) :
    (first ++ second).rdropWhile p = first ++ second.rdropWhile p := by
  induction second using List.reverseRecOn with
  | nil => exact absurd rfl kept
  | append_singleton second a ih =>
    rw [← List.append_assoc]
    by_cases dropped : p a = true
    · rw [List.rdropWhile_concat_pos _ _ _ dropped] at kept ⊢
      rw [List.rdropWhile_concat_pos _ _ _ dropped, ih kept]
    · rw [List.rdropWhile_concat_neg _ _ _ dropped, List.rdropWhile_concat_neg _ _ _ dropped, List.append_assoc]

theorem rdropWhile_cons {p : α → Bool} {a : α} (kept : ¬ p a = true) (l : List α) :
    (a :: l).rdropWhile p = a :: l.rdropWhile p := by
  induction l using List.reverseRecOn with
  | nil => rw [List.rdropWhile_singleton, if_neg kept, List.rdropWhile_nil]
  | append_singleton l b ih =>
    rw [← List.cons_append]
    by_cases dropped : p b = true
    · rw [List.rdropWhile_concat_pos _ _ _ dropped, List.rdropWhile_concat_pos _ _ _ dropped, ih]
    · rw [List.rdropWhile_concat_neg _ _ _ dropped, List.rdropWhile_concat_neg _ _ _ dropped, List.cons_append]

theorem rdropWhile_head {p : α → Bool} (a : α) (l : List α) :
    ((a :: l).rdropWhile p)[0]? = if ∀ b ∈ a :: l, p b = true then none else some a := by
  split
  next all => rw [List.rdropWhile_eq_nil_iff.mpr all, List.getElem?_nil]
  next some_ =>
    have kept : (a :: l).rdropWhile p ≠ [] := fun empty => some_ (List.rdropWhile_eq_nil_iff.mp empty)
    obtain ⟨rest, whole⟩ := List.rdropWhile_prefix (p := p) (l := a :: l)
    cases left : (a :: l).rdropWhile p with
    | nil => exact absurd left kept
    | cons b others =>
      rw [left, List.cons_append] at whole
      rw [List.getElem?_cons_zero, (List.cons.inj whole).1]

end RRoadVpn.Library
