import Mathlib.Data.List.Induction

/-! Finite runs of a deterministic machine whose step may be disabled. A run can
be restricted to steps that a predicate on the state before the step admits. Traces
have properties that look at an event and what came before it. -/

namespace RRoadVpn.Library

variable {σ ε : Type*}

/-- The states a machine passes through; `allowed` sees the state before each event. -/
inductive Run (step : σ → ε → Option σ) (allowed : σ → ε → Prop) (start : σ) : List ε → σ → Prop where
  | nil : Run step allowed start [] start
  | snoc {events middle event final} (before : Run step allowed start events middle)
      (admitted : allowed middle event) (taken : step middle event = some final) :
      Run step allowed start (events ++ [event]) final

abbrev Free : σ → ε → Prop := fun _ _ => True

variable {step : σ → ε → Option σ} {allowed : σ → ε → Prop} {start : σ}

namespace Run

theorem free {events final} (run : Run step allowed start events final) :
    Run step Free start events final := by
  induction run with
  | nil => exact .nil
  | snoc _ _ taken ih => exact .snoc ih trivial taken

/-- Executing the events one by one gives the run they determine. -/
theorem of_exec {events final} (executed : events.foldlM step start = some final) :
    Run step Free start events final := by
  induction events using List.reverseRecOn generalizing final with
  | nil =>
    cases executed
    exact .nil
  | append_singleton events event ih =>
    rw [List.foldlM_append] at executed
    obtain ⟨middle, before, last⟩ := Option.bind_eq_some_iff.mp executed
    exact .snoc (ih before) trivial (by simpa using last)

theorem of_checked [∀ s e, Decidable (allowed s e)] {events final}
    (executed : events.foldlM (fun s e => if allowed s e then step s e else none) start = some final) :
    Run step allowed start events final := by
  induction events using List.reverseRecOn generalizing final with
  | nil =>
    cases executed
    exact .nil
  | append_singleton events event ih =>
    rw [List.foldlM_append] at executed
    obtain ⟨middle, before, last⟩ := Option.bind_eq_some_iff.mp executed
    have taken : (if allowed middle event then step middle event else none) = some final := by simpa using last
    by_cases admitted : allowed middle event
    · rw [if_pos admitted] at taken
      exact .snoc (ih before) admitted taken
    · rw [if_neg admitted] at taken
      cases taken

/-- What holds at the start and is kept by every admitted step holds in every state reached. -/
theorem invariant {property : σ → Prop} (initial : property start)
    (preserved : ∀ before event after, property before → allowed before event →
      step before event = some after → property after)
    {events final} (run : Run step allowed start events final) : property final := by
  induction run with
  | nil => exact initial
  | snoc _ admitted taken ih => exact preserved _ _ _ ih admitted taken

theorem weaken {wider : σ → ε → Prop} {events final} (run : Run step allowed start events final)
    (more : ∀ s e, allowed s e → wider s e) : Run step wider start events final := by
  induction run with
  | nil => exact .nil
  | snoc _ admitted taken ih => exact .snoc ih (more _ _ admitted) taken

theorem members {events final} (run : Run step allowed start events final) :
    Run step (fun _ event => event ∈ events) start events final := by
  induction run with
  | nil => exact .nil
  | snoc _ _ taken ih => exact .snoc (ih.weaken fun _ _ => List.mem_append_left _) (by simp) taken

theorem snoc_inv {events event final} (run : Run step allowed start (events ++ [event]) final) :
    ∃ middle, Run step allowed start events middle ∧ allowed middle event ∧
      step middle event = some final := by
  generalize whole : events ++ [event] = trace at run
  cases run with
  | nil => simp at whole
  | snoc before admitted taken =>
    obtain ⟨rfl, same⟩ := List.append_inj' whole rfl
    cases same
    exact ⟨_, before, admitted, taken⟩

/-- A run passes through a state between any two parts of its events. -/
theorem split {earlier later : List ε} {final : σ} (run : Run step allowed start (earlier ++ later) final) :
    ∃ middle, Run step allowed start earlier middle ∧ Run step allowed middle later final := by
  induction later using List.reverseRecOn generalizing final with
  | nil => exact ⟨final, by simpa using run, .nil⟩
  | append_singleton later event ih =>
    rw [← List.append_assoc] at run
    obtain ⟨previous, before, admitted, taken⟩ := run.snoc_inv
    obtain ⟨middle, first, rest⟩ := ih before
    exact ⟨middle, first, .snoc rest admitted taken⟩

/-- A run goes on where another ended. -/
theorem append {earlier later : List ε} {middle final : σ} (first : Run step allowed start earlier middle)
    (second : Run step allowed middle later final) : Run step allowed start (earlier ++ later) final := by
  induction second with
  | nil => rwa [List.append_nil]
  | snoc _ admitted taken ih =>
    rw [← List.append_assoc]
    exact .snoc ih admitted taken

theorem cons_inv {event : ε} {later : List ε} {final : σ} (run : Run step allowed start (event :: later) final) :
    ∃ middle, step start event = some middle ∧ Run step allowed middle later final := by
  obtain ⟨middle, first, rest⟩ := @split σ ε step allowed start [event] later final run
  obtain ⟨previous, before, _, taken⟩ := @snoc_inv σ ε step allowed start [] event middle first
  generalize empty : ([] : List ε) = trace at before
  cases before with
  | nil => exact ⟨middle, taken, rest⟩
  | snoc => simp at empty

/-- A free run is determined by its events. -/
theorem deterministic {events first second} (left : Run step Free start events first)
    (right : Run step Free start events second) : first = second := by
  induction left generalizing second with
  | nil =>
    generalize empty : ([] : List ε) = trace at right
    cases right with
    | nil => rfl
    | snoc => simp at empty
  | snoc _ _ taken ih =>
    obtain ⟨middle, before, _, ended⟩ := right.snoc_inv
    have same := ih before
    subst same
    rw [taken] at ended
    exact Option.some.inj ended

/-- A run is inside the admitted steps exactly when no state along it has left a
property that the inadmissible steps break and the admitted ones keep. -/
theorem allowed_iff_always {property : σ → Prop} {invariant : σ → Prop}
    (initial : invariant start) (initially : property start)
    (preserved : ∀ before event after, invariant before → step before event = some after → invariant after)
    (exact : ∀ before event after, invariant before → property before →
      step before event = some after → (property after ↔ allowed before event))
    {events final} (run : Run step Free start events final) :
    (∀ earlier later state, earlier ++ later = events → Run step Free start earlier state → property state) ↔
      Run step allowed start events final := by
  induction run with
  | nil =>
    refine ⟨fun _ => .nil, ?_⟩
    intro _ earlier later state split reached
    obtain ⟨rfl, rfl⟩ := List.append_eq_nil_iff.mp split
    exact deterministic .nil reached ▸ initially
  | @snoc events middle event final before _ taken ih =>
    have kept : invariant middle :=
      before.invariant initial (fun _ _ _ held _ taken => preserved _ _ _ held taken)
    constructor
    · intro always
      have earlier := ih.mp (fun first rest state split reached =>
        always first (rest ++ [event]) state (by rw [← List.append_assoc, split]) reached)
      have here := always events [event] middle rfl before
      have there := always _ [] final (List.append_nil _) (.snoc before trivial taken)
      exact .snoc earlier ((exact _ _ _ kept here taken).mp there) taken
    · intro inside first rest state split reached
      obtain ⟨previous, earlier, admitted, last⟩ := inside.snoc_inv
      have same : previous = middle := deterministic earlier.free before
      subst same
      have always := ih.mpr earlier
      rcases List.eq_nil_or_concat rest with rfl | ⟨rest, tail, rfl⟩
      · rw [List.append_nil] at split
        subst split
        obtain ⟨_, reached, _, ended⟩ := reached.snoc_inv
        have back := deterministic reached before
        subst back
        rw [taken] at ended
        cases ended
        exact (exact _ _ _ kept (always events [] _ (List.append_nil _) before) taken).mpr admitted
      · rw [List.concat_eq_append, ← List.append_assoc] at split
        obtain ⟨split, _⟩ := List.append_inj' split rfl
        exact always first rest state split reached

end Run

/-! ### Traces -/

/-- Where the last event stands in a decomposition. -/
theorem snoc_eq_split {α : Type*} {events before after : List α} {event first : α}
    (split : events ++ [event] = before ++ first :: after) :
    (after = [] ∧ before = events ∧ first = event) ∨ ∃ rest, after = rest ++ [event] ∧
      events = before ++ first :: rest := by
  rcases List.eq_nil_or_concat after with rfl | ⟨rest, last, rfl⟩
  · obtain ⟨same, tail⟩ := List.append_inj' split rfl
    cases tail
    exact Or.inl ⟨rfl, same.symm, rfl⟩
  · rw [List.concat_eq_append, ← List.cons_append, ← List.append_assoc] at split
    obtain ⟨same, tail⟩ := List.append_inj' split rfl
    cases tail
    exact Or.inr ⟨rest, List.concat_eq_append, same⟩

/-- A property of each event with the events before it. -/
def Always {α : Type*} (property : List α → α → Prop) (events : List α) : Prop :=
  ∀ before event after, events = before ++ event :: after → property before event

theorem always_nil {α : Type*} {property : List α → α → Prop} : Always property [] := by
  intro before event after split
  simp at split

theorem always_snoc {α : Type*} {property : List α → α → Prop} {events : List α} {event : α} :
    Always property (events ++ [event]) ↔ Always property events ∧ property events event := by
  constructor
  · intro always
    refine ⟨fun before first after split => ?_, always events event [] rfl⟩
    exact always before first (after ++ [event]) (by simp [split])
  · rintro ⟨always, last⟩ before first after split
    rcases snoc_eq_split split with ⟨rfl, rfl, rfl⟩ | ⟨rest, rfl, rfl⟩
    · exact last
    · exact always before first rest rfl

end RRoadVpn.Library
