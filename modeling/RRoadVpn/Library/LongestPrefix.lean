import RRoadVpn.Library.Block

/-! Longest-prefix lookup: what a list of labelled blocks says about a block is the
label of the smallest of them that contains it. -/

namespace RRoadVpn.Library
open Block

variable {α β : Type} (block : α → Block) (label : α → β)

/-- The smallest element that contains the block, the first of equal ones. -/
def mostSpecific (d : Block) : List α → Option α
  | [] => none
  | n :: rest =>
    match mostSpecific d rest with
    | none => if d ≤ block n then some n else none
    | some m => if d ≤ block n ∧ (block n).bits ≤ (block m).bits then some n else some m

def lookup (l : List α) (d : Block) : Option β := (mostSpecific block d l).map label

/-- The element is a smallest one that contains the block. -/
structure IsMostSpecific (l : List α) (d : Block) (n : α) : Prop where
  mem : n ∈ l
  contains : d ≤ block n
  least : ∀ m ∈ l, d ≤ block m → (block n).bits ≤ (block m).bits

/-- Equal blocks have equal labels. -/
def Consistent (l : List α) : Prop := ∀ n ∈ l, ∀ m ∈ l, block n = block m → label n = label m

variable {block label} {l : List α} {d : Block}

theorem mostSpecific_eq_none : mostSpecific block d l = none ↔ ∀ n ∈ l, ¬ d ≤ block n := by
  induction l with
  | nil => simp [mostSpecific]
  | cons n rest ih =>
    rw [List.forall_mem_cons, ← ih, mostSpecific]
    cases mostSpecific block d rest with
    | none => simp
    | some m =>
      simp only [reduceCtorEq, and_false, iff_false]
      split <;> simp

theorem mostSpecific_some {n : α} (found : mostSpecific block d l = some n) : IsMostSpecific block l d n := by
  induction l generalizing n with
  | nil => cases found
  | cons head rest ih =>
    unfold mostSpecific at found
    cases later : mostSpecific block d rest with
    | none =>
      rw [later] at found
      have apart := mostSpecific_eq_none.mp later
      simp only [Option.ite_none_right_eq_some, Option.some.injEq] at found
      obtain ⟨inside, rfl⟩ := found
      refine ⟨List.mem_cons_self, inside, ?_⟩
      intro m member contains
      rcases List.mem_cons.mp member with rfl | member
      · exact Nat.le_refl _
      · exact absurd contains (apart m member)
    | some m =>
      rw [later] at found
      obtain ⟨member, contains, least⟩ := ih later
      simp only at found
      split at found <;> cases found
      next smaller =>
        refine ⟨List.mem_cons_self, smaller.1, ?_⟩
        intro other member contains
        rcases List.mem_cons.mp member with rfl | member
        · exact Nat.le_refl _
        · exact Nat.le_trans smaller.2 (least other member contains)
      next larger =>
        refine ⟨List.mem_cons_of_mem head member, contains, ?_⟩
        intro other member contains
        rcases List.mem_cons.mp member with rfl | member
        · exact Nat.le_of_not_le fun smaller => larger ⟨contains, smaller⟩
        · exact least other member contains

/-- Two smallest elements have the same block. -/
theorem IsMostSpecific.unique {n m : α} (first : IsMostSpecific block l d n) (second : IsMostSpecific block l d m) :
    block n = block m := by
  have bits : (block n).bits = (block m).bits :=
    Nat.le_antisymm (first.least m second.mem second.contains) (second.least n first.mem first.contains)
  have := first_lt_stop d
  have inside := first.contains
  have inside' := second.contains
  rw [le_def] at inside inside'
  exact eq_of_le (le_of_overlap (Nat.le_of_eq bits) (by omega) (by omega)) (Nat.le_of_eq bits.symm)

theorem IsMostSpecific.lookup {n : α} (least : IsMostSpecific block l d n) (consistent : Consistent block label l) :
    lookup block label l d = some (label n) := by
  unfold Library.lookup
  cases found : mostSpecific block d l with
  | none => exact absurd least.contains (mostSpecific_eq_none.mp found n least.mem)
  | some m =>
    have same := mostSpecific_some found
    rw [Option.map_some, consistent m same.mem n least.mem (same.unique least)]

theorem lookup_eq_none : lookup block label l d = none ↔ ∀ n ∈ l, ¬ d ≤ block n := by
  rw [lookup, Option.map_eq_none_iff, mostSpecific_eq_none]

theorem lookup_some {b : β} (found : lookup block label l d = some b) :
    ∃ n, IsMostSpecific block l d n ∧ label n = b := by
  obtain ⟨n, specific, same⟩ := Option.map_eq_some_iff.mp found
  exact ⟨n, mostSpecific_some specific, same⟩

/-- An element's own block is looked up as the element. -/
theorem lookup_self (consistent : Consistent block label l) {n : α} (member : n ∈ l) :
    lookup block label l (block n) = some (label n) :=
  IsMostSpecific.lookup ⟨member, le_refl _, fun _ _ inside => bits_le_of_le inside⟩ consistent

/-- A block that something contains has a smallest element around it. -/
theorem exists_mostSpecific {n : α} (member : n ∈ l) (contains : d ≤ block n) : ∃ m, IsMostSpecific block l d m := by
  cases found : mostSpecific block d l with
  | none => exact absurd contains (mostSpecific_eq_none.mp found n member)
  | some m => exact ⟨m, mostSpecific_some found⟩

theorem lookup_congr {e : Block} (same : ∀ n ∈ l, d ≤ block n ↔ e ≤ block n) :
    lookup block label l d = lookup block label l e := by
  suffices agree : mostSpecific block d l = mostSpecific block e l by rw [lookup, lookup, agree]
  induction l with
  | nil => rfl
  | cons n rest ih =>
    have head : d ≤ block n ↔ e ≤ block n := same n List.mem_cons_self
    have later := ih fun m member => same m (List.mem_cons_of_mem n member)
    simp only [mostSpecific, later, head]

/-- Nothing lies between a block and a larger one: both are looked up alike. -/
theorem lookup_between {e : Block} (inside : d ≤ e) (between : ∀ n ∈ l, d ≤ block n → e ≤ block n) :
    lookup block label l d = lookup block label l e :=
  lookup_congr fun n member => ⟨between n member, le_trans inside⟩

/-- Of a list without contradictions only the elements count, not their order. -/
theorem lookup_of_mem_iff {l' : List α} (consistent : Consistent block label l) (same : ∀ n, n ∈ l ↔ n ∈ l') :
    lookup block label l d = lookup block label l' d := by
  cases found : lookup block label l' d with
  | none =>
    apply lookup_eq_none.mpr
    intro n member
    exact lookup_eq_none.mp found n ((same n).mp member)
  | some b =>
    obtain ⟨n, least, rfl⟩ := lookup_some found
    refine IsMostSpecific.lookup ⟨(same n).mpr least.mem, least.contains, ?_⟩ consistent
    intro m member inside
    exact least.least m ((same m).mp member) inside

theorem mostSpecific_concat (x : α) : mostSpecific block d (l ++ [x]) =
    if d ≤ block x ∧ ∀ m ∈ l, d ≤ block m → (block x).bits < (block m).bits then some x
    else mostSpecific block d l := by
  induction l with
  | nil => simp [mostSpecific]
  | cons n rest ih =>
    rw [List.cons_append, mostSpecific, ih]
    simp only [List.forall_mem_cons]
    by_cases smaller : d ≤ block x ∧ ∀ m ∈ rest, d ≤ block m → (block x).bits < (block m).bits
    · rw [if_pos smaller]
      change (if d ≤ block n ∧ (block n).bits ≤ (block x).bits then some n else some x) = _
      by_cases head : d ≤ block n ∧ (block n).bits ≤ (block x).bits
      · have notLess : ¬ (d ≤ block n → (block x).bits < (block n).bits) := by
          intro less
          exact Nat.not_lt.mpr head.2 (less head.1)
        rw [if_pos head, if_neg fun all => notLess all.2.1, mostSpecific]
        cases later : mostSpecific block d rest with
        | none => exact (if_pos head.1).symm
        | some m =>
          have least := mostSpecific_some later
          have bits := smaller.2 m least.mem least.contains
          exact (if_pos ⟨head.1, Nat.le_trans head.2 (Nat.le_of_lt bits)⟩).symm
      · have less : d ≤ block n → (block x).bits < (block n).bits := by
          intro inside
          exact Nat.lt_of_not_le fun bits => head ⟨inside, bits⟩
        rw [if_neg head, if_pos ⟨smaller.1, less, smaller.2⟩]
    · have larger : ¬ (d ≤ block x ∧ (d ≤ block n → (block x).bits < (block n).bits) ∧
          ∀ m ∈ rest, d ≤ block m → (block x).bits < (block m).bits) := fun all => smaller ⟨all.1, all.2.2⟩
      rw [if_neg smaller, if_neg larger, mostSpecific]

/-- An element put at the end counts where it is smaller than all the others. -/
theorem lookup_concat (x : α) : lookup block label (l ++ [x]) d =
    if d ≤ block x ∧ ∀ m ∈ l, d ≤ block m → (block x).bits < (block m).bits then some (label x)
    else lookup block label l d := by
  rw [lookup, mostSpecific_concat]
  split
  · rfl
  · rfl

end RRoadVpn.Library
