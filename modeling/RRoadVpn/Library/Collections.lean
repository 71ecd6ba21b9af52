import Mathlib.Data.List.Perm.Basic

/-! The sorted collections of java.util over a comparison: a tree set is its sorted
list, a priority queue is any implementation that polls a least element. -/

namespace RRoadVpn.Library

variable {α : Type}

/-- A priority queue over its internal list: which of several least elements is
polled is up to the queue. -/
structure PriorityQueue (compare : α → α → Ordering) where
  add : List α → α → List α
  poll : List α → Option (α × List α)
  add_perm : ∀ queue x, (add queue x).Perm (x :: queue)
  poll_none : ∀ queue, poll queue = none → queue = []
  poll_perm : ∀ queue x rest, poll queue = some (x, rest) → queue.Perm (x :: rest)
  poll_least : ∀ queue x rest, poll queue = some (x, rest) → ∀ y ∈ rest, compare x y ≠ .gt

namespace PriorityQueue

variable {compare : α → α → Ordering} (queue : PriorityQueue compare)

theorem mem_add {l : List α} {x y : α} : y ∈ queue.add l x ↔ y = x ∨ y ∈ l := by
  rw [(queue.add_perm l x).mem_iff, List.mem_cons]

theorem mem_poll {l rest : List α} {x y : α} (polled : queue.poll l = some (x, rest)) : y ∈ l ↔ y = x ∨ y ∈ rest := by
  rw [(queue.poll_perm l x rest polled).mem_iff, List.mem_cons]

/-- The least element, the first of equal ones, and the others. -/
def pollLeast (compare : α → α → Ordering) : List α → Option (α × List α)
  | [] => none
  | x :: rest =>
    match pollLeast compare rest with
    | none => some (x, [])
    | some (y, others) => if (compare x y).isLE then some (x, y :: others) else some (y, x :: others)

theorem pollLeast_none {l : List α} (polled : pollLeast compare l = none) : l = [] := by
  cases l with
  | nil => rfl
  | cons x rest =>
    unfold pollLeast at polled
    split at polled
    · cases polled
    · split at polled <;> cases polled

section Scan

variable [Std.TransCmp compare]

theorem pollLeast_some {l rest : List α} {x : α} (polled : pollLeast compare l = some (x, rest)) :
    l.Perm (x :: rest) ∧ ∀ y ∈ rest, (compare x y).isLE := by
  induction l generalizing x rest with
  | nil => cases polled
  | cons head tail ih =>
    unfold pollLeast at polled
    split at polled
    next empty =>
      rw [pollLeast_none empty]
      cases polled
      exact ⟨List.Perm.refl _, fun y member => absurd member List.not_mem_nil⟩
    next least others found =>
      obtain ⟨perm, first⟩ := ih found
      split at polled <;> cases polled
      next less =>
        refine ⟨perm.cons head, ?_⟩
        intro y member
        rcases List.mem_cons.mp member with rfl | member
        · exact less
        · exact Std.TransCmp.isLE_trans less (first y member)
      next more =>
        refine ⟨(perm.cons head).trans (List.Perm.swap _ _ _), ?_⟩
        intro y member
        rcases List.mem_cons.mp member with rfl | member
        · exact Ordering.isLE_of_eq_lt (Std.OrientedCmp.lt_of_not_isLE more)
        · exact first y member

variable (compare)

/-- A queue that scans its list for the least element. -/
def scan : PriorityQueue compare where
  add l x := x :: l
  poll := pollLeast compare
  add_perm _ _ := List.Perm.refl _
  poll_none _ := pollLeast_none
  poll_perm _ _ _ polled := (pollLeast_some polled).1
  poll_least _ _ _ polled y member := Ordering.ne_gt_iff_isLE.mpr ((pollLeast_some polled).2 y member)

end Scan

end PriorityQueue

namespace TreeSet

variable (compare : α → α → Ordering)

/-- `add`, which keeps an element that compares equal. -/
def add (x : α) : List α → List α
  | [] => [x]
  | y :: rest =>
    match compare x y with
    | .lt => x :: y :: rest
    | .eq => y :: rest
    | .gt => y :: add x rest

variable {compare}

theorem mem_add {x z : α} {l : List α} (member : z ∈ add compare x l) : z = x ∨ z ∈ l := by
  induction l with
  | nil => exact Or.inl (List.mem_singleton.mp member)
  | cons y rest ih =>
    unfold add at member
    split at member
    · exact List.mem_cons.mp member
    · exact Or.inr member
    · rcases List.mem_cons.mp member with same | later
      · exact Or.inr (List.mem_cons.mpr (Or.inl same))
      · exact (ih later).imp id (List.mem_cons_of_mem y)

theorem add_greatest {x : α} {l : List α} (greatest : ∀ y ∈ l, compare x y = .gt) : add compare x l = l ++ [x] := by
  induction l with
  | nil => rfl
  | cons y rest ih =>
    rw [add, greatest y List.mem_cons_self, List.cons_append]
    exact congrArg (y :: ·) (ih fun z member => greatest z (List.mem_cons_of_mem y member))

theorem mem_of_mem {x z : α} {l : List α} (member : z ∈ l) : z ∈ add compare x l := by
  induction l with
  | nil => cases member
  | cons y rest ih =>
    unfold add
    split
    · exact List.mem_cons_of_mem x member
    · exact member
    · rcases List.mem_cons.mp member with rfl | later
      · exact List.mem_cons_self
      · exact List.mem_cons_of_mem y (ih later)

/-- The element itself is in the set, unless one that compares equal was. -/
theorem mem_self (x : α) (l : List α) : x ∈ add compare x l ∨ ∃ y ∈ l, compare x y = .eq := by
  induction l with
  | nil => exact Or.inl (List.mem_singleton.mpr rfl)
  | cons y rest ih =>
    unfold add
    split
    · exact Or.inl List.mem_cons_self
    next equal => exact Or.inr ⟨y, List.mem_cons_self, equal⟩
    · rcases ih with member | ⟨z, member, equal⟩
      · exact Or.inl (List.mem_cons_of_mem y member)
      · exact Or.inr ⟨z, List.mem_cons_of_mem y member, equal⟩

theorem add_perm {x : α} {l : List α} (absent : ∀ y ∈ l, compare x y ≠ .eq) : (add compare x l).Perm (x :: l) := by
  induction l with
  | nil => exact List.Perm.refl _
  | cons y rest ih =>
    obtain ⟨here, later⟩ := List.forall_mem_cons.mp absent
    unfold add
    split
    · exact List.Perm.refl _
    next equal => exact absurd equal here
    · exact ((ih later).cons y).trans (List.Perm.swap x y rest)

theorem add_eq_or_length (x : α) (l : List α) : add compare x l = l ∨ (add compare x l).length = l.length + 1 := by
  induction l with
  | nil => exact Or.inr rfl
  | cons y rest ih =>
    unfold add
    split
    · exact Or.inr rfl
    · exact Or.inl rfl
    · rcases ih with same | longer
      · exact Or.inl (by rw [same])
      · exact Or.inr (by rw [List.length_cons, longer, List.length_cons])

variable (compare) in
/-- `addAll`, one element after the other. -/
def addAll (xs l : List α) : List α := xs.foldl (fun l x => add compare x l) l

theorem mem_addAll {z : α} {xs l : List α} (member : z ∈ addAll compare xs l) : z ∈ xs ∨ z ∈ l := by
  induction xs generalizing l with
  | nil => exact Or.inr member
  | cons x xs ih =>
    rcases ih member with later | before
    · exact Or.inl (List.mem_cons_of_mem x later)
    · rcases mem_add before with rfl | before
      · exact Or.inl List.mem_cons_self
      · exact Or.inr before

theorem length_le_addAll (xs l : List α) : l.length ≤ (addAll compare xs l).length := by
  induction xs generalizing l with
  | nil => exact Nat.le_refl _
  | cons x xs ih =>
    refine Nat.le_trans ?_ (ih (add compare x l))
    rcases @add_eq_or_length α compare x l with same | longer
    · exact Nat.le_of_eq (congrArg List.length same).symm
    · omega

def Sorted (compare : α → α → Ordering) (l : List α) : Prop := l.Pairwise fun x y => compare x y = .lt

variable [Std.TransCmp compare]

theorem sorted_add {x : α} {l : List α} (sorted : Sorted compare l) : Sorted compare (add compare x l) := by
  induction l with
  | nil => exact List.pairwise_singleton _ _
  | cons y rest ih =>
    obtain ⟨first, later⟩ := List.pairwise_cons.mp sorted
    unfold add
    split
    next less =>
      refine List.pairwise_cons.mpr ⟨?_, sorted⟩
      intro z member
      rcases List.mem_cons.mp member with rfl | member
      · exact less
      · exact Std.TransCmp.lt_trans less (first z member)
    next => exact sorted
    next greater =>
      refine List.pairwise_cons.mpr ⟨?_, ih later⟩
      intro z member
      rcases mem_add member with rfl | member
      · exact Std.OrientedCmp.lt_of_gt greater
      · exact first z member

theorem add_of_mem {x y : α} {l : List α} (sorted : Sorted compare l) (member : y ∈ l) (equal : compare x y = .eq) :
    add compare x l = l := by
  induction l with
  | nil => cases member
  | cons head rest ih =>
    obtain ⟨first, later⟩ := List.pairwise_cons.mp sorted
    unfold add
    rcases List.mem_cons.mp member with rfl | member
    · rw [equal]
    · have greater : compare x head = .gt := by
        rw [Std.TransCmp.congr_left equal]
        exact Std.OrientedCmp.gt_of_lt (first y member)
      rw [greater, ih later member]

theorem sorted_addAll {xs l : List α} (sorted : Sorted compare l) : Sorted compare (addAll compare xs l) := by
  induction xs generalizing l with
  | nil => exact sorted
  | cons x xs ih => exact ih (sorted_add sorted)

theorem addAll_of_mem {xs l : List α} (sorted : Sorted compare l) (present : ∀ x ∈ xs, ∃ y ∈ l, compare x y = .eq) :
    addAll compare xs l = l := by
  induction xs with
  | nil => rfl
  | cons x xs ih =>
    obtain ⟨⟨y, member, equal⟩, later⟩ := List.forall_mem_cons.mp present
    rw [addAll, List.foldl_cons, add_of_mem sorted member equal]
    exact ih later

theorem mem_of_addAll {xs l : List α} (same : (addAll compare xs l).length = l.length) :
    ∀ x ∈ xs, ∃ y ∈ l, compare x y = .eq := by
  induction xs with
  | nil => exact fun x member => absurd member List.not_mem_nil
  | cons x xs ih =>
    have grows := @length_le_addAll α compare xs (add compare x l)
    rw [addAll, List.foldl_cons] at same
    change (addAll compare xs (add compare x l)).length = l.length at same
    have kept : add compare x l = l := by
      refine (add_eq_or_length x l).resolve_right fun longer => ?_
      omega
    rw [kept] at same
    refine List.forall_mem_cons.mpr ⟨?_, ih same⟩
    rcases @mem_self α compare x l with member | present
    · rw [kept] at member
      exact ⟨x, member, Std.ReflCmp.compare_self⟩
    · exact present

theorem eq_of_mem {x y : α} {l : List α} (sorted : Sorted compare l) (member : x ∈ l) (member' : y ∈ l)
    (equal : compare x y = .eq) : x = y := by
  induction l with
  | nil => cases member
  | cons head rest ih =>
    obtain ⟨first, later⟩ := List.pairwise_cons.mp sorted
    rcases List.mem_cons.mp member with here | left
    · rcases List.mem_cons.mp member' with here' | left'
      · rw [here, here']
      · rw [here, first y left'] at equal
        cases equal
    · rcases List.mem_cons.mp member' with here' | left'
      · rw [here', Std.OrientedCmp.gt_of_lt (first x left)] at equal
        cases equal
      · exact ih later left left'

end TreeSet

end RRoadVpn.Library
