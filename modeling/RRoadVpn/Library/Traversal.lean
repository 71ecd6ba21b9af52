import Mathlib.Data.List.Nodup

/-! Sets that count their changes, and a traversal that fails at its next element after a
change. The end is not looked for again, so a change in the last turn is not noticed. -/

namespace RRoadVpn.Library

/-- A set in the order of its iteration, with the number of changes. -/
structure CountedSet (α : Type*) where
  elements : List α
  changes : Nat := 0
  nodup : elements.Nodup

namespace CountedSet

variable {α : Type*} [DecidableEq α]

def remove (set : CountedSet α) (a : α) : CountedSet α where
  elements := set.elements.erase a
  changes := if a ∈ set.elements then set.changes + 1 else set.changes
  nodup := set.nodup.erase a

@[simp] theorem mem_remove {set : CountedSet α} {a b : α} : b ∈ (set.remove a).elements ↔ b ≠ a ∧ b ∈ set.elements :=
  set.nodup.mem_erase_iff

theorem remove_changes {set : CountedSet α} {a : α} (member : a ∈ set.elements) :
    (set.remove a).changes = set.changes + 1 :=
  if_pos member

end CountedSet

section Traversal

variable {α σ : Type*}

/-- One turn after the other while no change has been made since the beginning. -/
def traverse (changes : σ → Nat) (body : σ → α → σ) (expected : Nat) : List α → σ → Option σ
  | [], s => some s
  | a :: rest, s => if changes s = expected then traverse changes body expected rest (body s a) else none

variable {changes : σ → Nat} {body : σ → α → σ} {Waiting : List α → σ → Prop} {quiet : α → Prop}

theorem traverse_completes
    (steady : ∀ a rest s, Waiting (a :: rest) s → quiet a → Waiting rest (body s a) ∧ changes (body s a) = changes s)
    {l : List α} {s : σ} (waiting : Waiting l s) (each : ∀ a ∈ l.dropLast, quiet a) :
    traverse changes body (changes s) l s = some (l.foldl body s) := by
  induction l generalizing s with
  | nil => rfl
  | cons a rest ih =>
    rw [traverse, if_pos rfl, List.foldl_cons]
    cases rest with
    | nil => rfl
    | cons b rest =>
      obtain ⟨quiet_, others⟩ := List.forall_mem_cons.mp each
      obtain ⟨waiting', same⟩ := steady a (b :: rest) s waiting quiet_
      rw [← same]
      exact ih waiting' others

theorem traverse_fails
    (steady : ∀ a rest s, Waiting (a :: rest) s → quiet a → Waiting rest (body s a) ∧ changes (body s a) = changes s)
    (moves : ∀ a rest s, Waiting (a :: rest) s → ¬ quiet a → changes (body s a) ≠ changes s)
    {l : List α} {s : σ} (waiting : Waiting l s) (some_ : ¬ ∀ a ∈ l.dropLast, quiet a) :
    traverse changes body (changes s) l s = none := by
  induction l generalizing s with
  | nil => exact absurd (List.forall_mem_nil _) some_
  | cons a rest ih =>
    rw [traverse, if_pos rfl]
    cases rest with
    | nil => exact absurd (List.forall_mem_nil _) some_
    | cons b rest =>
      by_cases quiet_ : quiet a
      · obtain ⟨waiting', same⟩ := steady a (b :: rest) s waiting quiet_
        rw [← same]
        exact ih waiting' fun others => some_ (List.forall_mem_cons.mpr ⟨quiet_, others⟩)
      · rw [traverse, if_neg (moves a (b :: rest) s waiting quiet_)]

end Traversal

end RRoadVpn.Library
