import Mathlib.Data.List.Basic

/-! Computations that change a state and can fail; the changes stay when they fail. A
computation returns where each of its steps does. -/

namespace RRoadVpn.Library

variable {σ ε α β : Type}

def attempt (x : ExceptT ε (StateM σ) α) (s : σ) : Except ε α × σ := x.run s

def Returns (x : ExceptT ε (StateM σ) α) (s : σ) (a : α) (after : σ) : Prop := attempt x s = (.ok a, after)

theorem returns_pure {a b : α} {s after : σ} : Returns (pure a : ExceptT ε (StateM σ) α) s b after ↔
    a = b ∧ s = after := by
  change ((Except.ok a, s) : Except ε α × σ) = (.ok b, after) ↔ _
  simp

theorem returns_throw {e : ε} {b : α} {s after : σ} : ¬ Returns (throw e : ExceptT ε (StateM σ) α) s b after := by
  intro returns
  cases returns

theorem attempt_bind (x : ExceptT ε (StateM σ) α) (k : α → ExceptT ε (StateM σ) β) (s : σ) :
    attempt (x >>= k) s =
      match attempt x s with
      | (.ok a, s) => attempt (k a) s
      | (.error e, s) => (.error e, s) := by
  rw [attempt, ExceptT.run_bind]
  change (match (attempt x s).1 with | .ok a => (k a).run | .error e => pure (.error e)) (attempt x s).2 = _
  rcases attempt x s with ⟨e | a, middle⟩ <;> rfl

theorem returns_bind {x : ExceptT ε (StateM σ) α} {k : α → ExceptT ε (StateM σ) β} {s after : σ} {b : β} :
    Returns (x >>= k) s b after ↔ ∃ a middle, Returns x s a middle ∧ Returns (k a) middle b after := by
  rw [Returns, attempt_bind]
  simp only [Returns]
  rcases attempt x s with ⟨e | a, middle⟩ <;> simp

theorem returns_modify {f : σ → σ} {u : Unit} {s after : σ} :
    Returns (modify f : ExceptT ε (StateM σ) Unit) s u after ↔ after = f s := by
  change ((Except.ok (), f s) : Except ε Unit × σ) = (.ok (), after) ↔ _
  simp [eq_comm]

theorem returns_get {s t after : σ} : Returns (get : ExceptT ε (StateM σ) σ) s t after ↔ t = s ∧ after = s := by
  change ((Except.ok s, s) : Except ε σ × σ) = (.ok t, after) ↔ _
  simp [eq_comm]

/-- A computation inside, whose failure is a value. -/
theorem returns_run {ε' : Type} {x : ExceptT ε' (StateM σ) α} {s after : σ} {result : Except ε' α} :
    Returns (monadLift x.run : ExceptT ε (StateM σ) (Except ε' α)) s result after ↔
      attempt x s = (result, after) := by
  change ((Except.ok (attempt x s).1, (attempt x s).2) : Except ε (Except ε' α) × σ) = (.ok result, after) ↔ _
  rcases attempt x s with ⟨first, second⟩
  simp

/-- Whether it returns or fails, the state keeps a property. -/
def Keeps (property : σ → Prop) (x : ExceptT ε (StateM σ) α) : Prop := ∀ s, property s → property (attempt x s).2

namespace Keeps

variable {property : σ → Prop}

theorem pure (a : α) : Keeps property (Pure.pure a : ExceptT ε (StateM σ) α) := fun _ held => held

theorem throw (e : ε) : Keeps property (MonadExcept.throw e : ExceptT ε (StateM σ) α) := fun _ held => held

theorem get : Keeps property (MonadState.get : ExceptT ε (StateM σ) σ) := fun _ held => held

theorem modify {f : σ → σ} (kept : ∀ s, property s → property (f s)) :
    Keeps property (modify f : ExceptT ε (StateM σ) Unit) := kept

theorem bind {x : ExceptT ε (StateM σ) α} {k : α → ExceptT ε (StateM σ) β} (first : Keeps property x)
    (later : ∀ a, Keeps property (k a)) : Keeps property (x >>= k) := by
  intro s held
  have middle := first s held
  rw [attempt_bind]
  revert middle
  rcases attempt x s with ⟨e | a, after⟩ <;> intro middle
  · exact middle
  · exact later a after middle

/-- A computation whose failure is a value. -/
theorem run {ε' : Type} {x : ExceptT ε' (StateM σ) α} (kept : Keeps property x) :
    Keeps property (monadLift x.run : ExceptT ε (StateM σ) (Except ε' α)) := kept

end Keeps

end RRoadVpn.Library
