import Mathlib.Data.List.TakeWhile
import Mathlib.Order.Lattice

/-! Patterns that are a row of repeated characters, with groups around a repetition or inside
it, and the search for a match that tries the longest repetition first. -/

namespace RRoadVpn.Library

/-- Where a group stands: a group inside a repetition keeps its last turn. -/
inductive Group where
  | none
  | around
  | inside
  deriving DecidableEq, Repr

/-- A character class with the numbers of its repetitions. -/
structure Repeated (α : Type*) where
  accepts : α → Bool
  least : Nat := 1
  most : Option Nat := .none
  group : Group := .none

namespace Repeated

variable {α : Type*} (item : Repeated α)

def Fits (l : List α) : Prop :=
  (∀ a ∈ l, item.accepts a = true) ∧ item.least ≤ l.length ∧ ∀ most, item.most = some most → l.length ≤ most

def longest (l : List α) : Nat :=
  match item.most with
  | some most => min most (l.takeWhile item.accepts).length
  | none => (l.takeWhile item.accepts).length

def lengths (l : List α) : List Nat :=
  ((List.range (item.longest l + 1)).filter (item.least ≤ ·)).reverse

def captured (l : List α) : List (Option (List α)) :=
  match item.group with
  | .none => []
  | .around => [some l]
  | .inside => [l.getLast?.map ([·])]

variable {item}

theorem mem_lengths {l : List α} {n : Nat} :
    n ∈ item.lengths l ↔ n ≤ l.length ∧ item.Fits (l.take n) := by
  have whole : n ≤ (l.takeWhile item.accepts).length ↔ n ≤ l.length ∧ ∀ a ∈ l.take n, item.accepts a = true := by
    constructor
    · intro short
      have part : l.take n = (l.takeWhile item.accepts).take n := by
        conv_lhs => rw [← List.takeWhile_append_dropWhile (p := item.accepts) (l := l)]
        exact List.take_append_of_le_length short
      refine ⟨Nat.le_trans short (List.takeWhile_prefix _).length_le, fun a member => ?_⟩
      rw [part] at member
      exact List.mem_takeWhile_imp (List.mem_of_mem_take member)
    · rintro ⟨short, each⟩
      have longer : l.takeWhile item.accepts = l.take n ++ (l.drop n).takeWhile item.accepts := by
        conv_lhs => rw [← List.take_append_drop n l]
        rw [List.takeWhile_append_of_pos each]
      rw [longer, List.length_append, List.length_take, Nat.min_eq_left short]
      exact Nat.le_add_right _ _
  have bound : n ≤ item.longest l ↔
      n ≤ (l.takeWhile item.accepts).length ∧ ∀ most, item.most = some most → n ≤ most := by
    unfold longest
    split
    next most given => simp [given, and_comm]
    next none => simp [none]
  simp only [lengths, List.mem_reverse, List.mem_filter, List.mem_range, Nat.lt_succ_iff, bound, whole, Fits,
    decide_eq_true_eq]
  constructor
  · rintro ⟨⟨⟨short, each⟩, few⟩, enough⟩
    simp only [List.length_take, Nat.min_eq_left short]
    exact ⟨short, each, enough, few⟩
  · rintro ⟨short, each, enough, few⟩
    simp only [List.length_take, Nat.min_eq_left short] at enough few
    exact ⟨⟨⟨short, each⟩, few⟩, enough⟩

end Repeated

def groups {α : Type*} : List (Repeated α) → List α → Option (List (Option (List α)))
  | [], [] => some []
  | [], _ :: _ => none
  | item :: items, l =>
    (item.lengths l).findSome? fun n => (groups items (l.drop n)).map (item.captured (l.take n) ++ ·)

/-- The parts that the characters of a pattern stand for. -/
def Splits {α : Type*} : List (Repeated α) → List α → List (Option (List α)) → Prop
  | [], l, found => l = [] ∧ found = []
  | item :: items, l, found =>
    ∃ first rest more, l = first ++ rest ∧ item.Fits first ∧ Splits items rest more ∧
      found = item.captured first ++ more

variable {α : Type*} {items : List (Repeated α)} {l : List α} {found : List (Option (List α))}

theorem groups_splits (match_ : groups items l = some found) : Splits items l found := by
  induction items generalizing l found with
  | nil =>
    cases l with
    | nil => exact ⟨rfl, (Option.some.inj match_).symm⟩
    | cons a l => cases match_
  | cons item items ih =>
    obtain ⟨n, member, rest⟩ := List.exists_of_findSome?_eq_some match_
    obtain ⟨more, later, rfl⟩ := Option.map_eq_some_iff.mp rest
    obtain ⟨-, fits⟩ := Repeated.mem_lengths.mp member
    exact ⟨l.take n, l.drop n, more, (List.take_append_drop n l).symm, fits, ih later, rfl⟩

theorem exists_groups (splits : Splits items l found) : ∃ first, groups items l = some first := by
  induction items generalizing l found with
  | nil =>
    obtain ⟨rfl, -⟩ := splits
    exact ⟨[], rfl⟩
  | cons item items ih =>
    obtain ⟨first, rest, more, rfl, fits, later, -⟩ := splits
    obtain ⟨next, matched⟩ := ih later
    have member : first.length ∈ item.lengths (first ++ rest) := by
      rw [Repeated.mem_lengths, List.take_left]
      exact ⟨by simp, fits⟩
    cases result : groups (item :: items) (first ++ rest) with
    | some first => exact ⟨first, rfl⟩
    | none =>
      have never := List.findSome?_eq_none_iff.mp result first.length member
      rw [List.drop_left, matched] at never
      cases never

/-- Where the text can be taken apart in one way only, this is the match. -/
theorem groups_eq (splits : Splits items l found) (only : ∀ other, Splits items l other → other = found) :
    groups items l = some found := by
  obtain ⟨first, matched⟩ := exists_groups splits
  rw [matched, only first (groups_splits matched)]

theorem groups_eq_none (never : ∀ found, ¬ Splits items l found) : groups items l = none := by
  rw [Option.eq_none_iff_forall_ne_some]
  exact fun found matched => never found (groups_splits matched)

end RRoadVpn.Library
