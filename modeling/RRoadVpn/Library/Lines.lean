import Mathlib.Data.List.Basic
import Mathlib.Data.List.TakeWhile

/-! Texts as lines that each end in a separator, as pieces with a separator between
them, and as parts with a mark between them; and what of it the text still shows. -/

namespace RRoadVpn.Library

variable {α : Type*} (sep : α)

def unlines (lines : List (List α)) : List α :=
  lines.flatMap (· ++ [sep])

@[simp] theorem unlines_nil : unlines sep ([] : List (List α)) = [] := rfl

@[simp] theorem unlines_cons (line : List α) (lines : List (List α)) :
    unlines sep (line :: lines) = line ++ sep :: unlines sep lines := by
  simp [unlines]

/-- Pieces with one more separator behind them are lines. -/
theorem intercalate_append {pieces : List (List α)} (nonempty : pieces ≠ []) :
    [sep].intercalate pieces ++ [sep] = unlines sep pieces := by
  induction pieces with
  | nil => exact absurd rfl nonempty
  | cons piece pieces ih =>
    cases pieces with
    | nil => simp
    | cons next pieces =>
      rw [List.intercalate_cons_cons, unlines_cons, ← ih (List.cons_ne_nil _ _)]
      simp

theorem mem_intercalate {a : α} {pieces : List (List α)} (member : a ∈ [sep].intercalate pieces) :
    a = sep ∨ ∃ piece ∈ pieces, a ∈ piece := by
  induction pieces with
  | nil => simp at member
  | cons piece pieces ih =>
    cases pieces with
    | nil =>
      rw [List.intercalate_singleton] at member
      exact Or.inr ⟨piece, List.mem_cons_self, member⟩
    | cons next pieces =>
      rw [List.intercalate_cons_cons, List.mem_append, List.mem_append, List.mem_singleton] at member
      rcases member with (here | between) | later
      · exact Or.inr ⟨piece, List.mem_cons_self, here⟩
      · exact Or.inl between
      · exact (ih later).imp_right fun ⟨other, inside, there⟩ => ⟨other, List.mem_cons_of_mem _ inside, there⟩

theorem mem_intercalate_of_mem {a : α} {pieces : List (List α)} {piece : List α} (member : piece ∈ pieces)
    (inside : a ∈ piece) : a ∈ [sep].intercalate pieces := by
  induction pieces with
  | nil => cases member
  | cons first pieces ih =>
    cases pieces with
    | nil =>
      rw [List.intercalate_singleton]
      rwa [List.mem_singleton.mp member] at inside
    | cons next pieces =>
      rw [List.intercalate_cons_cons, List.mem_append, List.mem_append]
      rcases List.mem_cons.mp member with rfl | later
      · exact Or.inl (Or.inl inside)
      · exact Or.inr (ih later)

/-- Two lists of texts that are joined and then run together give one text: they are
the same lists, or the last text of the first list and the second list are cut elsewhere. -/
def RunTogether (first second first' second' : List (List α)) : Prop :=
  first = first' ∧ second = second' ∨
    ∃ common text text', first = common ++ [text] ∧ first' = common ++ [text'] ∧ text ≠ text' ∧
      text ++ [sep].intercalate second = text' ++ [sep].intercalate second'

theorem RunTogether.eq {first second first' second' : List (List α)}
    (together : RunTogether sep first second first' second') :
    [sep].intercalate first ++ [sep].intercalate second = [sep].intercalate first' ++ [sep].intercalate second' := by
  rcases together with ⟨rfl, rfl⟩ | ⟨common, text, text', rfl, rfl, -, same⟩
  · rfl
  · induction common with
    | nil => simpa using same
    | cons piece common ih =>
      have more (last : List α) : [sep].intercalate (piece :: (common ++ [last])) =
          piece ++ [sep] ++ [sep].intercalate (common ++ [last]) := by
        rw [List.intercalate_cons_of_ne_nil (by simp)]
      rw [List.cons_append, List.cons_append, more, more, List.append_assoc, ih, ← List.append_assoc]

/-- The part before a mark is seen if the mark has an element that the part cannot have. -/
theorem append_mark_inj {p : α → Bool} {part part' mark rest rest' : List α} (inside : ∀ a ∈ part, p a = true)
    (inside' : ∀ a ∈ part', p a = true) (outside : ∃ a ∈ mark, p a = false)
    (same : part ++ (mark ++ rest) = part' ++ (mark ++ rest')) : part = part' ∧ rest = rest' := by
  have cut (rest : List α) : (mark ++ rest).takeWhile p = mark.takeWhile p := by
    rw [List.takeWhile_append, if_neg]
    intro whole
    obtain ⟨a, member, fails⟩ := outside
    have all := List.takeWhile_eq_self_iff.mp ((List.takeWhile_prefix p).eq_of_length whole) a member
    rw [fails] at all
    cases all
  have taken := congrArg (List.takeWhile p) same
  rw [List.takeWhile_append_of_pos inside, List.takeWhile_append_of_pos inside', cut, cut] at taken
  obtain rfl := List.append_cancel_right taken
  exact ⟨rfl, List.append_cancel_left (List.append_cancel_left same)⟩

variable [DecidableEq α]

theorem splitOn_append (text : List α) : text ++ [sep] = unlines sep (text.splitOn sep) := by
  rw [← intercalate_append sep (List.splitOn_ne_nil sep text), List.intercalate_splitOn]

theorem not_mem_of_mem_splitOn {text piece : List α} (member : piece ∈ text.splitOn sep) : sep ∉ piece := by
  induction text generalizing piece with
  | nil =>
    rw [List.splitOn_nil, List.mem_singleton] at member
    simp [member]
  | cons a text ih =>
    rw [List.splitOn_cons_eq_if_modifyHead] at member
    split at member
    · rcases List.mem_cons.mp member with rfl | member
      · exact List.not_mem_nil
      · exact ih member
    next other =>
      obtain ⟨first, rest, split⟩ := List.exists_cons_of_ne_nil (List.splitOn_ne_nil sep text)
      rw [split] at member ih
      rcases List.mem_cons.mp member with rfl | member
      · have clean := ih List.mem_cons_self
        have differs : sep ≠ a := fun same => other (beq_iff_eq.mpr same.symm)
        simp [differs, clean]
      · exact ih (List.mem_cons_of_mem _ member)

/-- Pieces are seen in their text, unless one is empty. -/
theorem intercalate_inj {pieces others : List (List α)} (clean : ∀ piece ∈ pieces, sep ∉ piece ∧ piece ≠ [])
    (clean' : ∀ piece ∈ others, sep ∉ piece ∧ piece ≠ [])
    (same : [sep].intercalate pieces = [sep].intercalate others) :
    pieces = others := by
  have empty {pieces : List (List α)} (clean : ∀ piece ∈ pieces, sep ∉ piece ∧ piece ≠ [])
      (none : [sep].intercalate pieces = []) : pieces = [] := by
    by_contra some_
    have whole := List.splitOn_intercalate sep (fun piece member => (clean piece member).1) some_
    rw [none, List.splitOn_nil] at whole
    exact (clean [] (whole ▸ List.mem_cons_self)).2 rfl
  by_cases none : pieces = []
  · subst none
    rw [List.intercalate_nil] at same
    exact (empty clean' same.symm).symm
  by_cases none' : others = []
  · subst none'
    rw [List.intercalate_nil] at same
    exact absurd (empty clean same) none
  · rw [← List.splitOn_intercalate sep (fun piece member => (clean piece member).1) none, same,
      List.splitOn_intercalate sep (fun piece member => (clean' piece member).1) none']

theorem runTogether_of_eq {first second first' second' : List (List α)} (length : first.length = first'.length)
    (clean : ∀ text ∈ first, sep ∉ text) (clean' : ∀ text ∈ first', sep ∉ text)
    (pieces : ∀ text ∈ second, sep ∉ text ∧ text ≠ []) (pieces' : ∀ text ∈ second', sep ∉ text ∧ text ≠ [])
    (same : [sep].intercalate first ++ [sep].intercalate second = [sep].intercalate first' ++
    [sep].intercalate second') :
    RunTogether sep first second first' second' := by
  induction first generalizing first' with
  | nil =>
    obtain rfl := List.length_eq_zero_iff.mp length.symm
    exact Or.inl ⟨rfl, intercalate_inj sep pieces pieces' (by simpa using same)⟩
  | cons text first ih =>
    cases first' with
    | nil => cases length
    | cons text' first' =>
      obtain ⟨marked, cleanRest⟩ := List.forall_mem_cons.mp clean
      obtain ⟨marked', cleanRest'⟩ := List.forall_mem_cons.mp clean'
      have left : first.length = first'.length := Nat.succ.inj length
      cases first with
      | nil =>
        obtain rfl := List.length_eq_zero_iff.mp left.symm
        rw [List.intercalate_singleton, List.intercalate_singleton] at same
        by_cases equal : text = text'
        · subst equal
          exact Or.inl ⟨rfl, intercalate_inj sep pieces pieces' (List.append_cancel_left same)⟩
        · exact Or.inr ⟨[], text, text', rfl, rfl, equal, same⟩
      | cons next first =>
        cases first' with
        | nil => cases left
        | cons next' first' =>
          rw [List.intercalate_cons_cons, List.intercalate_cons_cons] at same
          simp only [List.append_assoc] at same
          have plain {text : List α} (marked : sep ∉ text) : ∀ a ∈ text, (!decide (a = sep)) = true := by
            intro a member
            have differs : a ≠ sep := fun equal => marked (equal ▸ member)
            simpa using differs
          obtain ⟨equal, rest⟩ :=
            append_mark_inj (plain marked) (plain marked') ⟨sep, List.mem_cons_self, by simp⟩ same
          rcases ih left cleanRest cleanRest' rest with ⟨others, pieces⟩ | ⟨common, last, last', split, split',
            differs, texts⟩
          · exact Or.inl ⟨by rw [equal, others], pieces⟩
          · refine Or.inr ⟨text :: common, last, last', ?_, ?_, differs, texts⟩
            · rw [split, List.cons_append]
            · rw [split', List.cons_append, equal]

end RRoadVpn.Library
