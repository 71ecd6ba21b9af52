import RRoadVpn.Library.Lines
import Mathlib.Data.List.Forall2

/-! A stream as the complete lines it begins with and the unfinished line behind them. -/

namespace RRoadVpn.Library

variable {α : Type*} {sep : α}

theorem unlines_append (lines later : List (List α)) :
    unlines sep (lines ++ later) = unlines sep lines ++ unlines sep later := List.flatMap_append

/-- Every stream has complete lines and a rest. -/
theorem exists_unlines [DecidableEq α] (sep : α) (stream : List α) :
    ∃ lines rest, stream = unlines sep lines ++ rest ∧ (∀ line ∈ lines, sep ∉ line) ∧ sep ∉ rest := by
  induction stream with
  | nil => exact ⟨[], [], rfl, by simp, List.not_mem_nil⟩
  | cons a stream ih =>
    obtain ⟨lines, rest, rfl, clean, open_⟩ := ih
    by_cases ended : a = sep
    · subst ended
      exact ⟨[] :: lines, rest, by simp, by simpa using clean, open_⟩
    cases lines with
    | nil => exact ⟨[], a :: rest, rfl, by simp, by simp [Ne.symm ended, open_]⟩
    | cons line lines =>
      obtain ⟨here, later⟩ := List.forall_mem_cons.mp clean
      exact ⟨(a :: line) :: lines, rest, by simp, List.forall_mem_cons.mpr ⟨by simp [Ne.symm ended, here], later⟩,
        open_⟩

/-- The first line of a stream is what stands before its first separator. -/
theorem line_inj {line line' rest rest' : List α} (clean : sep ∉ line) (clean' : sep ∉ line')
    (same : line ++ sep :: rest = line' ++ sep :: rest') : line = line' ∧ rest = rest' := by
  classical
  refine @append_mark_inj α (fun a => decide (a ≠ sep)) line line' [sep] rest rest' ?_ ?_ ⟨sep, by simp⟩ same
  · intro a member
    exact decide_eq_true fun equal => clean (equal ▸ member)
  · intro a member
    exact decide_eq_true fun equal => clean' (equal ▸ member)

/-- What a stream begins with takes its complete lines from the front. -/
theorem unlines_aligned {lines lines' : List (List α)} {rest rest' more : List α} (clean : ∀ line ∈ lines, sep ∉ line)
    (clean' : ∀ line ∈ lines', sep ∉ line) (open_ : sep ∉ rest')
    (same : unlines sep lines ++ rest ++ more = unlines sep lines' ++ rest') :
    ∃ later, lines' = lines ++ later ∧ rest ++ more = unlines sep later ++ rest' := by
  induction lines generalizing lines' with
  | nil => exact ⟨lines', rfl, by simpa using same⟩
  | cons line lines ih =>
    obtain ⟨here, others⟩ := List.forall_mem_cons.mp clean
    rw [unlines_cons, List.append_assoc, List.append_assoc, List.cons_append] at same
    cases lines' with
    | nil =>
      refine absurd ?_ open_
      rw [unlines_nil, List.nil_append] at same
      rw [← same]
      simp
    | cons line' lines' =>
      obtain ⟨here', others'⟩ := List.forall_mem_cons.mp clean'
      rw [unlines_cons, List.append_assoc, List.cons_append] at same
      obtain ⟨rfl, left⟩ := line_inj here here' same
      obtain ⟨later, rfl, behind⟩ := ih others others' (by rw [List.append_assoc]; exact left)
      exact ⟨later, rfl, behind⟩

theorem unlines_inj {lines lines' : List (List α)} {rest rest' : List α} (clean : ∀ line ∈ lines, sep ∉ line)
    (clean' : ∀ line ∈ lines', sep ∉ line) (open_ : sep ∉ rest) (open' : sep ∉ rest')
    (same : unlines sep lines ++ rest = unlines sep lines' ++ rest') : lines = lines' ∧ rest = rest' := by
  obtain ⟨later, rfl, behind⟩ := @unlines_aligned α sep lines lines' rest rest' [] clean clean' open'
      (by simpa using same)
  cases later with
  | nil => exact ⟨by simp, by simpa using behind⟩
  | cons line later =>
    refine absurd ?_ open_
    rw [List.append_nil] at behind
    simp [behind]

def IsLine (sep : α) (stream line : List α) : Prop :=
  ∃ lines rest, stream = unlines sep lines ++ rest ∧ (∀ line ∈ lines, sep ∉ line) ∧ line ∈ lines

theorem IsLine.mem {stream line rest : List α} {lines : List (List α)} (is : IsLine sep stream line)
    (split : stream = unlines sep lines ++ rest) (clean : ∀ line ∈ lines, sep ∉ line) (open_ : sep ∉ rest) :
    line ∈ lines := by
  obtain ⟨lines', rest', same, clean', member⟩ := is
  obtain ⟨later, rfl, -⟩ := @unlines_aligned α sep lines' lines rest' rest [] clean' clean open_
    (by rw [List.append_nil, ← same, split])
  exact List.mem_append_left _ member

/-- The end of a stream has lines of the stream, of which the first may have lost its beginning. -/
theorem unlines_suffix {lines lines' : List (List α)} {rest rest' : List α} (clean : ∀ line ∈ lines, sep ∉ line)
    (clean' : ∀ line ∈ lines', sep ∉ line) (open_ : sep ∉ rest) (open' : sep ∉ rest')
    (ends : unlines sep lines ++ rest <:+ unlines sep lines' ++ rest') :
    ∃ earlier later, lines' = earlier ++ later ∧ List.Forall₂ (· <:+ ·) lines later ∧ rest <:+ rest' := by
  induction lines' with
  | nil =>
    rw [unlines_nil, List.nil_append] at ends
    cases lines with
    | nil => exact ⟨[], [], rfl, .nil, by simpa using ends⟩
    | cons line lines => exact absurd (ends.mem (by simp)) open'
  | cons line' lines' ih =>
    obtain ⟨here', others'⟩ := List.forall_mem_cons.mp clean'
    rw [unlines_cons, List.append_assoc, List.cons_append] at ends
    obtain ⟨front, whole⟩ := ends
    rcases List.append_eq_append_iff.mp whole with ⟨cut, front', inside⟩ | ⟨cut, front', inside⟩
    · have part : sep ∉ cut := fun member => here' (by rw [front']; exact List.mem_append_right _ member)
      have all : unlines sep lines ++ rest = unlines sep (cut :: lines') ++ rest' := by
        rw [unlines_cons, List.append_assoc, List.cons_append]
        exact inside
      obtain ⟨rfl, rfl⟩ := unlines_inj clean (List.forall_mem_cons.mpr ⟨part, others'⟩) open_ open' all
      exact ⟨[], line' :: lines', rfl, .cons ⟨front, front'.symm⟩ (List.forall₂_same.mpr fun _ _ => List.suffix_rfl),
        List.suffix_rfl⟩
    · cases cut with
      | nil =>
        have part : sep ∉ ([] : List α) := List.not_mem_nil
        have all : unlines sep lines ++ rest = unlines sep ([] :: lines') ++ rest' := by
          rw [unlines_cons, List.append_assoc, List.cons_append]
          exact inside.symm
        obtain ⟨rfl, rfl⟩ := unlines_inj clean (List.forall_mem_cons.mpr ⟨part, others'⟩) open_ open' all
        exact ⟨[], line' :: lines', rfl,
          .cons List.nil_suffix (List.forall₂_same.mpr fun _ _ => List.suffix_rfl), List.suffix_rfl⟩
      | cons a cut =>
        rw [List.cons_append, List.cons.injEq] at inside
        obtain ⟨earlier, later, rfl, pairs, left⟩ := ih others' ⟨cut, inside.2.symm⟩
        exact ⟨line' :: earlier, later, rfl, pairs, left⟩

end RRoadVpn.Library
