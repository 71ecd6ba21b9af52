import Mathlib.Data.List.Basic

/-! The fields of a text, with any number of separators between them. -/

namespace RRoadVpn.Library

variable {α : Type*}

/-- What stands between separators, of which there may be several. -/
def fields (separates : α → Bool) (text : List α) : List (List α) := (text.splitOnP separates).filter (· ≠ [])

variable {separates : α → Bool}

theorem fields_append (first second : List α) {c : α} (between : separates c) :
    fields separates (first ++ c :: second) = fields separates first ++ fields separates second := by
  rw [fields, List.splitOnP_append_cons _ _ between, List.filter_append]
  rfl

@[simp] theorem fields_nil : fields separates [] = [] := by
  simp [fields]

theorem fields_one {text : List α} (inside : ∀ c ∈ text, separates c = false) (nonempty : text ≠ []) :
    fields separates text = [text] := by
  rw [fields, List.splitOnP_eq_singleton inside]
  simp [nonempty]

theorem splitOnP_inside {text piece : List α} (member : piece ∈ text.splitOnP separates) :
    ∀ c ∈ piece, c ∈ text ∧ separates c = false := by
  induction text generalizing piece with
  | nil =>
    rw [List.splitOnP_nil, List.mem_singleton] at member
    simp [member]
  | cons c text ih =>
    rw [List.splitOnP_cons_eq_if_modifyHead] at member
    split at member
    · rcases List.mem_cons.mp member with rfl | member
      · simp
      · exact fun d inside => (ih member d inside).imp_left (List.mem_cons_of_mem c)
    next other =>
      obtain ⟨first, rest, split⟩ := List.exists_cons_of_ne_nil (List.splitOnP_ne_nil separates text)
      rw [split] at member ih
      rcases List.mem_cons.mp member with rfl | member
      · refine List.forall_mem_cons.mpr ⟨⟨List.mem_cons_self, by simpa using other⟩, fun d inside => ?_⟩
        exact (ih List.mem_cons_self d inside).imp_left (List.mem_cons_of_mem c)
      · exact fun d inside => (ih (List.mem_cons_of_mem _ member) d inside).imp_left (List.mem_cons_of_mem c)

theorem fields_inside {text field : List α} (member : field ∈ fields separates text) :
    field ≠ [] ∧ ∀ c ∈ field, c ∈ text ∧ separates c = false := by
  obtain ⟨piece, nonempty⟩ := List.mem_filter.mp member
  exact ⟨by simpa using nonempty, splitOnP_inside piece⟩

end RRoadVpn.Library
