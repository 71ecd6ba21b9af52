import Mathlib.Data.List.Basic

/-! Logs that lose their oldest entries: what is kept is the end of what was recorded, and
trimming takes away what is too old by then. -/

namespace RRoadVpn.Library

variable {α : Type*}

/-- What is kept is the end of the record, and everything before it is old. -/
structure Retains (old : α → Prop) (recorded kept : List α) : Prop where
  suffix : ∃ dropped, recorded = dropped ++ kept ∧ ∀ p ∈ dropped, old p

/-- An entry that has gone comes after none that has not. -/
def Ages (gone : α → Bool) (l : List α) : Prop := l.Pairwise fun p q => gone q = true → gone p = true

theorem Ages.filter_append {gone : α → Bool} {l : List α} (ages : Ages gone l) :
    l = l.filter gone ++ l.filter fun p => !gone p := by
  induction l with
  | nil => rfl
  | cons p l ih =>
    obtain ⟨first, later⟩ := List.pairwise_cons.mp ages
    cases old : gone p with
    | true =>
      rw [List.filter_cons_of_pos old, List.filter_cons_of_neg (by simp [old]), List.cons_append, ← ih later]
    | false =>
      have none : l.filter gone = [] := by
        refine List.filter_eq_nil_iff.mpr fun q member gone => ?_
        rw [first q member gone] at old
        cases old
      have whole := ih later
      rw [none, List.nil_append] at whole
      rw [List.filter_cons_of_neg (by simp [old]), none, List.filter_cons_of_pos (by simp [old]), ← whole]
      rfl

namespace Retains

variable {old : α → Prop} {recorded kept : List α}

theorem all (old : α → Prop) (recorded : List α) : Retains old recorded recorded := ⟨⟨[], rfl, List.forall_mem_nil _⟩⟩

theorem mono {old' : α → Prop} (retains : Retains old recorded kept) (older : ∀ p, old p → old' p) :
    Retains old' recorded kept := by
  obtain ⟨dropped, split, each⟩ := retains.suffix
  exact ⟨⟨dropped, split, fun p member => older p (each p member)⟩⟩

theorem append (retains : Retains old recorded kept) (entries : List α) :
    Retains old (recorded ++ entries) (kept ++ entries) := by
  obtain ⟨dropped, rfl, each⟩ := retains.suffix
  exact ⟨⟨dropped, List.append_assoc _ _ _, each⟩⟩

theorem filter_eq {gone : α → Bool} (retains : Retains (gone · = true) recorded kept) :
    (kept.filter fun p => !gone p) = recorded.filter fun p => !gone p := by
  obtain ⟨dropped, rfl, each⟩ := retains.suffix
  have none : (dropped.filter fun p => !gone p) = [] :=
    List.filter_eq_nil_iff.mpr fun p member => by simp [each p member]
  rw [List.filter_append, none, List.nil_append]

theorem trim {gone : α → Bool} (retains : Retains (gone · = true) recorded kept) (ages : Ages gone recorded) :
    Retains (gone · = true) recorded (kept.filter fun p => !gone p) := by
  refine ⟨⟨recorded.filter gone, ?_, fun p member => List.of_mem_filter member⟩⟩
  rw [retains.filter_eq]
  exact ages.filter_append

end Retains

end RRoadVpn.Library
