import Mathlib.Data.List.Forall2
import Mathlib.Data.Nat.Digits.Defs
import RRoadVpn.Library.Lines

/-! The texts of addresses with eight groups of sixteen bits: all groups, or a row of zero groups
left out at a double colon; and the last two groups may be written as four numbers with dots. -/

namespace RRoadVpn.Library.AddressText

/-! ### Groups -/

def hexDigit (c : Char) : Option Nat :=
  if '0' ≤ c ∧ c ≤ '9' then some (c.toNat - 48)
  else if 'a' ≤ c ∧ c ≤ 'f' then some (c.toNat - 87)
  else if 'A' ≤ c ∧ c ≤ 'F' then some (c.toNat - 55)
  else none

def group (text : List Char) : Option Nat :=
  if 1 ≤ text.length ∧ text.length ≤ 4 then (text.mapM hexDigit).map fun digits =>
    Nat.ofDigits 16 digits.reverse else none

/-- One of the four numbers has one to three digits. -/
def octet (text : List Char) : Option Nat :=
  if 1 ≤ text.length ∧ text.length ≤ 3 ∧ text.all Char.isDigit then
    let value := Nat.ofDigits 10 (text.map fun c => c.toNat - 48).reverse
    if value < 256 then some value else none
  else none

def quad (text : List Char) : Option (List Nat) :=
  match text.splitOn '.' with
  | [a, b, c, d] => do
    return [256 * (← octet a) + (← octet b), 256 * (← octet c) + (← octet d)]
  | _ => none

def Groups (text : List Char) (groups : List Nat) : Prop :=
  ∃ pieces, text = [':'].intercalate pieces ∧ pieces.Forall₂ (fun piece n => group piece = some n) groups

def Ending (text : List Char) (groups : List Nat) : Prop :=
  Groups text groups ∨ ∃ pieces before last two, text = [':'].intercalate (pieces ++ [last]) ∧
    pieces.Forall₂ (fun piece n => group piece = some n) before ∧ quad last = some two ∧ groups = before ++ two

/-- The eight groups that a text is of. -/
inductive Shows : List Char → List Nat → Prop where
  | all {text groups} (listed : Ending text groups) (eight : groups.length = 8) : Shows text groups
  | short {first second groups groups'} (before : Groups first groups) (after : Ending second groups')
      (few : groups.length + groups'.length ≤ 7) :
      Shows (first ++ "::".toList ++ second) (groups ++ List.replicate (8 - (groups.length + groups'.length)) 0 ++
        groups')

def Denotes (text : List Char) (address : Nat) : Prop :=
  ∃ groups, Shows text groups ∧ Nat.ofDigits 65536 groups.reverse = address

/-! ### Pieces -/

theorem mapM_forall {α β : Type} {f : α → Option β} {l : List α} {results : List β}
    (mapped : l.mapM f = some results) :
    ∀ a ∈ l, ∃ b, f a = some b := by
  induction l generalizing results with
  | nil => exact List.forall_mem_nil _
  | cons a l ih =>
    simp only [List.mapM_cons, Option.bind_eq_bind, Option.bind_eq_some_iff, Option.pure_def] at mapped
    obtain ⟨b, here, rest, later, -⟩ := mapped
    exact List.forall_mem_cons.mpr ⟨⟨b, here⟩, ih later⟩

/-- A group is not empty, and has neither the colon nor the dot. -/
theorem group_plain {piece : List Char} {n : Nat} (read : group piece = some n) :
    piece ≠ [] ∧ ':' ∉ piece ∧ '.' ∉ piece := by
  unfold group at read
  split at read
  next short =>
    obtain ⟨digits, all, -⟩ := Option.map_eq_some_iff.mp read
    have digit := mapM_forall all
    have other {c : Char} (none_ : hexDigit c = none) : c ∉ piece := by
      intro member
      obtain ⟨d, value⟩ := digit c member
      rw [none_] at value
      cases value
    exact ⟨List.length_pos_iff.mp short.1, other (by decide), other (by decide)⟩
  next => cases read

theorem hexDigit_digitChar {d : Nat} (small : d < 16) : hexDigit d.digitChar = some d := by
  have each : ∀ d < 16, hexDigit d.digitChar = some d := by decide
  exact each d small

theorem mapM_toDigits (n : Nat) : ∃ digits, (Nat.toDigits 16 n).mapM hexDigit = some digits ∧
    Nat.ofDigits 16 digits.reverse = n := by
  induction n using Nat.strongRecOn with
  | ind n ih =>
    rw [Nat.toDigits_eq_if (by decide)]
    split
    next small => exact ⟨[n], by simp [hexDigit_digitChar small], Nat.ofDigits_singleton⟩
    next large =>
      obtain ⟨digits, read, value⟩ := ih (n / 16) (Nat.div_lt_self (by omega) (by decide))
      refine ⟨digits ++ [n % 16], ?_, ?_⟩
      · simp [read, hexDigit_digitChar (Nat.mod_lt n (by decide : 0 < 16))]
      · rw [List.reverse_append, List.reverse_singleton, List.singleton_append, Nat.ofDigits_cons, value]
        omega

/-- The digits of a number of sixteen bits are a group. -/
theorem group_toDigits {n : Nat} (small : n < 65536) : group (Nat.toDigits 16 n) = some n := by
  obtain ⟨digits, read, value⟩ := mapM_toDigits n
  have positive : 1 ≤ (Nat.toDigits 16 n).length := Nat.length_toDigits_pos
  have short : (Nat.toDigits 16 n).length ≤ 4 := (Nat.length_toDigits_le_iff (by decide) (by decide)).mpr small
  rw [group, if_pos ⟨positive, short⟩, read, Option.map_some, value]

theorem quad_dot {text : List Char} {groups : List Nat} (read : quad text = some groups) : '.' ∈ text := by
  by_contra absent
  rw [quad, List.splitOn_eq_singleton absent] at read
  cases read

/-- Without a dot there are groups only. -/
theorem ending_groups {text : List Char} {groups : List Nat} (absent : '.' ∉ text) (ending : Ending text groups) :
    Groups text groups := by
  refine ending.resolve_right ?_
  rintro ⟨pieces, before, last, two, rfl, -, read, -⟩
  exact absent (mem_intercalate_of_mem ':' (by simp) (quad_dot read))

section Pieces

variable {pieces : List (List Char)} {groups : List Nat}

theorem pieces_plain (read : pieces.Forall₂ (fun piece n => group piece = some n) groups) :
    ∀ piece ∈ pieces, piece ≠ [] ∧ ':' ∉ piece ∧ '.' ∉ piece := by
  induction read with
  | nil => exact List.forall_mem_nil _
  | cons here _ ih => exact List.forall_mem_cons.mpr ⟨group_plain here, ih⟩

theorem splitOn_pieces (read : pieces.Forall₂ (fun piece n => group piece = some n) groups) (some_ : pieces ≠ []) :
    ([':'].intercalate pieces).splitOn ':' = pieces :=
  List.splitOn_intercalate ':' (fun piece member => (pieces_plain read piece member).2.1) some_

theorem join_dot (read : pieces.Forall₂ (fun piece n => group piece = some n) groups) :
    '.' ∉ [':'].intercalate pieces := by
  intro member
  rcases mem_intercalate ':' member with colon | ⟨piece, inside, dot⟩
  · cases colon
  · exact (pieces_plain read piece inside).2.2 dot

theorem groups_unique {groups' : List Nat} (read : pieces.Forall₂ (fun piece n => group piece = some n) groups)
    (read' : pieces.Forall₂ (fun piece n => group piece = some n) groups') : groups = groups' := by
  induction read generalizing groups' with
  | nil =>
    cases read'
    rfl
  | cons here _ ih =>
    cases read' with
    | cons here' later =>
      rw [here] at here'
      rw [Option.some.inj here', ih later]

/-- The pieces of a text in groups, which has none where it is empty. -/
theorem Groups.splitOn {text : List Char} (listed : Groups text groups) :
    text = [] ∧ groups = [] ∨ [] ∉ text.splitOn ':' ∧
      (text.splitOn ':').Forall₂ (fun piece n => group piece = some n) groups := by
  obtain ⟨pieces, rfl, read⟩ := listed
  by_cases some_ : pieces = []
  · subst some_
    cases read
    exact Or.inl ⟨rfl, rfl⟩
  · rw [splitOn_pieces read some_]
    exact Or.inr ⟨fun empty => (pieces_plain read [] empty).1 rfl, read⟩

theorem splitOn_colons (first second : List Char) :
    (first ++ "::".toList ++ second).splitOn ':' = first.splitOn ':' ++ [] :: second.splitOn ':' := by
  have colons : first ++ "::".toList ++ second = first ++ ':' :: ([] ++ ':' :: second) := by simp
  rw [colons, List.splitOn_append_cons_self, List.splitOn_append_cons_self, List.splitOn_nil]
  rfl

/-- A text of groups shows them if there are eight. -/
theorem shows_groups (read : pieces.Forall₂ (fun piece n => group piece = some n) groups) (some_ : pieces ≠ [])
    {shown : List Nat} : Shows ([':'].intercalate pieces) shown ↔ shown = groups ∧ groups.length = 8 := by
  have split := splitOn_pieces read some_
  constructor
  · intro shows
    generalize whole : [':'].intercalate pieces = text at shows split
    cases shows with
    | all listed eight =>
      rcases (ending_groups (whole ▸ join_dot read) listed).splitOn with ⟨rfl, -⟩ | ⟨-, read'⟩
      · rw [List.splitOn_nil] at split
        exact absurd rfl (pieces_plain read [] (split ▸ List.mem_cons_self)).1
      · rw [split] at read'
        obtain rfl := groups_unique read read'
        exact ⟨rfl, eight⟩
    | short before after few =>
      rw [splitOn_colons] at split
      exact absurd rfl (pieces_plain read [] (split ▸ by simp)).1
  · rintro ⟨rfl, eight⟩
    exact .all (Or.inl ⟨pieces, rfl, read⟩) eight

/-- A text of groups with a double colon behind them shows them at the front. -/
theorem shows_front (read : pieces.Forall₂ (fun piece n => group piece = some n) groups) (some_ : pieces ≠ [])
    {shown : List Nat} : Shows ([':'].intercalate pieces ++ "::".toList) shown ↔
      shown = groups ++ List.replicate (8 - groups.length) 0 ∧ groups.length ≤ 7 := by
  have split : ([':'].intercalate pieces ++ "::".toList).splitOn ':' = pieces ++ [] :: [[]] := by
    have colons := splitOn_colons ([':'].intercalate pieces) []
    rwa [List.append_nil, splitOn_pieces read some_, List.splitOn_nil] at colons
  have dot : '.' ∉ [':'].intercalate pieces ++ "::".toList := by
    simpa using join_dot read
  constructor
  · intro shows
    generalize whole : [':'].intercalate pieces ++ "::".toList = text at shows split dot
    cases shows with
    | all listed eight =>
      rcases (ending_groups dot listed).splitOn with ⟨rfl, -⟩ | ⟨none_, -⟩
      · simp at whole
      · exact absurd (split ▸ by simp) none_
    | @short first second before after listed ending few =>
      rw [splitOn_colons] at split
      have nonempty : ∀ piece ∈ pieces, (piece != []) = true :=
        fun piece member => bne_iff_ne.mpr (pieces_plain read piece member).1
      have mark : ∃ piece ∈ [([] : List Char)], (piece != []) = false := ⟨[], List.mem_singleton_self _, rfl⟩
      rcases listed.splitOn with ⟨rfl, -⟩ | ⟨none_, read'⟩
      · obtain ⟨piece, others, rfl⟩ := List.exists_cons_of_ne_nil some_
        rw [List.splitOn_nil] at split
        exact absurd (List.cons.inj split).1.symm (pieces_plain read piece List.mem_cons_self).1
      · have nonempty' : ∀ piece ∈ first.splitOn ':', (piece != []) = true :=
          fun piece member => bne_iff_ne.mpr fun empty => none_ (empty ▸ member)
        obtain ⟨same, rest⟩ := append_mark_inj nonempty' nonempty mark split
        rw [same] at read'
        obtain rfl := groups_unique read' read
        have plain : '.' ∉ second := fun member => dot (List.mem_append_right _ member)
        rcases (ending_groups plain ending).splitOn with ⟨rfl, rfl⟩ | ⟨none_, -⟩
        · exact ⟨by simp, few⟩
        · have alone : second.splitOn ':' = [[]] := rest
          exact absurd (alone ▸ List.mem_cons_self) none_
  · rintro ⟨rfl, few⟩
    have shows : Shows _ _ := .short ⟨pieces, rfl, read⟩ (Or.inl ⟨[], rfl, .nil⟩) (by simpa using few)
    simpa using shows

end Pieces

end RRoadVpn.Library.AddressText
