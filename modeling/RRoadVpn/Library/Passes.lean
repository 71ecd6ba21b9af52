import Mathlib.Data.List.Basic

/-! Passes over a value that use up a store and may fail: what one pass keeps, a run of
them keeps, and a run fails where its first failing pass does. -/

namespace RRoadVpn.Library

variable {σ ε α β γ δ : Type}

/-! ### One computation -/

theorem stateBind_eq (x : StateT σ (Except ε) α) (k : α → StateT σ (Except ε) β) (s : σ) :
    (x >>= k) s = (x s).bind fun result => k result.1 result.2 := rfl

theorem stateBind_ok {x : StateT σ (Except ε) α} {k : α → StateT σ (Except ε) β} {s after : σ} {b : β} :
    (x >>= k) s = .ok (b, after) ↔ ∃ a middle, x s = .ok (a, middle) ∧ k a middle = .ok (b, after) := by
  rw [stateBind_eq]
  cases x s with
  | error e => simp [Except.bind]
  | ok result =>
    obtain ⟨a, middle⟩ := result
    simp [Except.bind]

theorem stateBind_error {x : StateT σ (Except ε) α} {k : α → StateT σ (Except ε) β} {s : σ} {e : ε} :
    (x >>= k) s = .error e ↔ x s = .error e ∨ ∃ a middle, x s = .ok (a, middle) ∧ k a middle = .error e := by
  rw [stateBind_eq]
  cases x s with
  | error e => simp [Except.bind]
  | ok result =>
    obtain ⟨a, middle⟩ := result
    simp [Except.bind]

theorem statePure_ok {a b : α} {s after : σ} : (pure a : StateT σ (Except ε) α) s = .ok (b, after) ↔
    a = b ∧ s = after := by
  change Except.ok (a, s) = Except.ok (b, after) ↔ _
  simp

theorem exceptBind_ok {x : Except ε α} {k : α → Except ε β} {b : β} :
    (x >>= k) = .ok b ↔ ∃ a, x = .ok a ∧ k a = .ok b := by
  cases x <;> simp [bind, Except.bind]

def FailsWith (p : ε → Prop) (x : StateT σ (Except ε) α) : Prop := ∀ s e, x s = .error e → p e

namespace FailsWith

variable {p : ε → Prop}

theorem pure (a : α) : FailsWith p (Pure.pure a : StateT σ (Except ε) α) := by
  intro s e failed
  cases failed

theorem bind {x : StateT σ (Except ε) α} {k : α → StateT σ (Except ε) β} (first : FailsWith p x)
    (next : ∀ a, FailsWith p (k a)) : FailsWith p (x >>= k) := by
  intro s e failed
  rcases stateBind_error.mp failed with here | ⟨a, middle, -, later⟩
  · exact first s e here
  · exact next a middle e later

end FailsWith

def FailsAt (p : ε → Prop) (x : StateT σ (Except ε) α) (s : σ) : Prop := ∀ e, x s = .error e → p e

theorem FailsWith.at {p : ε → Prop} {x : StateT σ (Except ε) α} (fails : FailsWith p x) (s : σ) :
    FailsAt p x s := fails s

theorem failsAt_bind {p : ε → Prop} {x : StateT σ (Except ε) α} {k : α → StateT σ (Except ε) β} {s : σ} :
    FailsAt p (x >>= k) s ↔ FailsAt p x s ∧ ∀ a middle, x s = .ok (a, middle) → FailsAt p (k a) middle := by
  constructor
  · intro fails
    refine ⟨fun e failed => fails e (stateBind_error.mpr (Or.inl failed)), fun a middle here e failed => ?_⟩
    exact fails e (stateBind_error.mpr (Or.inr ⟨a, middle, here, failed⟩))
  · rintro ⟨first, next⟩ e failed
    rcases stateBind_error.mp failed with here | ⟨a, middle, here, later⟩
    · exact first e here
    · exact next a middle here e later

theorem mapM_error {f : α → Except ε β} {l : List α} {e : ε} :
    l.mapM f = .error e ↔
      ∃ earlier x later, l = earlier ++ x :: later ∧ (∀ y ∈ earlier, ∃ b, f y = .ok b) ∧ f x = .error e := by
  induction l with
  | nil => simp [pure, Except.pure]
  | cons x l ih =>
    rw [List.mapM_cons]
    cases here : f x with
    | error other =>
      constructor
      · intro failed
        cases failed
        exact ⟨[], x, l, rfl, fun y member => absurd member List.not_mem_nil, here⟩
      · rintro ⟨earlier, y, later, split, before, failed⟩
        cases earlier with
        | nil =>
          cases split
          rw [here] at failed
          cases failed
          rfl
        | cons z earlier =>
          cases split
          obtain ⟨b, fine⟩ := before x List.mem_cons_self
          rw [here] at fine
          cases fine
    | ok b =>
      have rest : (do let c ← Except.ok b; let cs ← l.mapM f; pure (c :: cs) : Except ε (List β)) = .error e ↔
          l.mapM f = .error e := by
        cases l.mapM f <;> simp [bind, Except.bind, pure, Except.pure]
      rw [rest, ih]
      constructor
      · rintro ⟨earlier, y, later, rfl, before, failed⟩
        exact ⟨x :: earlier, y, later, rfl, List.forall_mem_cons.mpr ⟨⟨b, here⟩, before⟩, failed⟩
      · rintro ⟨earlier, y, later, split, before, failed⟩
        cases earlier with
        | nil =>
          cases split
          rw [here] at failed
          cases failed
        | cons z earlier =>
          cases split
          exact ⟨earlier, y, later, rfl, (List.forall_mem_cons.mp before).2, failed⟩

theorem mapM_ok {f : α → Except ε β} {l : List α} : (∃ bs, l.mapM f = .ok bs) ↔ ∀ x ∈ l, ∃ b, f x = .ok b := by
  induction l with
  | nil => simp [pure, Except.pure]
  | cons x l ih =>
    rw [List.mapM_cons, List.forall_mem_cons, ← ih]
    cases here : f x with
    | error e => simp [bind, Except.bind]
    | ok b => cases l.mapM f <;> simp [bind, Except.bind, pure, Except.pure]

/-! ### Runs -/

abbrev Pass (σ ε δ : Type) := δ → StateT σ (Except ε) δ

def runPasses (passes : List (Pass σ ε δ)) (d : δ) : StateT σ (Except ε) δ :=
  passes.foldlM (fun d pass => pass d) d

theorem runPasses_cons (pass : Pass σ ε δ) (passes : List (Pass σ ε δ)) (d : δ) :
    runPasses (pass :: passes) d = pass d >>= runPasses passes := rfl

theorem runPasses_append (first second : List (Pass σ ε δ)) (d : δ) :
    runPasses (first ++ second) d = runPasses first d >>= runPasses second :=
  List.foldlM_append

theorem runPasses_append_ok {first second : List (Pass σ ε δ)} {d final : δ} {s after : σ} :
    runPasses (first ++ second) d s = .ok (final, after) ↔
      ∃ middle rest, runPasses first d s = .ok (middle, rest) ∧
        runPasses second middle rest = .ok (final, after) := by
  rw [runPasses_append]
  exact stateBind_ok

/-- What every pass relates, a run relates. -/
theorem runPasses_relates {r : δ → σ → δ → σ → Prop} (refl : ∀ d s, r d s d s)
    (trans : ∀ d s middle rest final after, r d s middle rest → r middle rest final after → r d s final after)
    {passes : List (Pass σ ε δ)} (each : ∀ pass ∈ passes, ∀ d s final after, pass d s = .ok (final, after) →
    r d s final after)
    {d final : δ} {s after : σ} (run : runPasses passes d s = .ok (final, after)) : r d s final after := by
  induction passes generalizing d s with
  | nil =>
    obtain ⟨rfl, rfl⟩ := statePure_ok.mp run
    exact refl d s
  | cons pass passes ih =>
    obtain ⟨first, others⟩ := List.forall_mem_cons.mp each
    rw [runPasses_cons] at run
    obtain ⟨middle, rest, here, later⟩ := stateBind_ok.mp run
    exact trans d s middle rest final after (first d s middle rest here) (ih others later)

/-- What every pass leaves as it is, a run leaves as it is. -/
theorem runPasses_observe (observe : δ → γ) {passes : List (Pass σ ε δ)}
    (each : ∀ pass ∈ passes, ∀ d s final after, pass d s = .ok (final, after) → observe final = observe d)
    {d final : δ} {s after : σ} (run : runPasses passes d s = .ok (final, after)) : observe final = observe d := by
  have relates := @runPasses_relates σ ε δ (fun d _ final _ => observe final = observe d) (fun _ _ => rfl)
    (fun _ _ _ _ _ _ first second => second.trans first) passes each d final s after run
  exact relates

theorem runPasses_failsWith {p : ε → Prop} {passes : List (Pass σ ε δ)}
    (each : ∀ pass ∈ passes, ∀ d, FailsWith p (pass d))
    (d : δ) : FailsWith p (runPasses passes d) := by
  induction passes generalizing d with
  | nil => exact FailsWith.pure d
  | cons pass passes ih =>
    obtain ⟨first, others⟩ := List.forall_mem_cons.mp each
    exact (first d).bind (ih others)

/-- A run fails with a property if the passes around one do, and that one does where the run comes to it. -/
theorem runPasses_failsAt {p : ε → Prop} {before first rest : List (Pass σ ε δ)} {pass : Pass σ ε δ} {d : δ} {s : σ}
    (tame : ∀ pass ∈ first, ∀ d, FailsWith p (pass d)) :
    (∀ middle left, runPasses before d s = .ok (middle, left) →
      FailsAt p (runPasses (first ++ pass :: rest) middle) left) ↔
      (∀ middle left, runPasses (before ++ first) d s = .ok (middle, left) → FailsAt p (pass middle) left) ∧
        ∀ middle left, runPasses (before ++ first ++ [pass]) d s = .ok (middle, left) →
          FailsAt p (runPasses rest middle) left := by
  have there (middle : δ) (left : σ) : FailsAt p (runPasses first middle) left :=
    (runPasses_failsWith tame middle).at left
  have one (middle final : δ) (left after : σ) :
      runPasses [pass] middle left = .ok (final, after) ↔ pass middle left = .ok (final, after) := by
    rw [runPasses_cons, stateBind_ok]
    constructor
    · rintro ⟨a, between, here, done⟩
      obtain ⟨rfl, rfl⟩ := statePure_ok.mp done
      exact here
    · exact fun here => ⟨final, after, here, statePure_ok.mpr ⟨rfl, rfl⟩⟩
  simp only [runPasses_append, runPasses_cons, failsAt_bind, stateBind_ok]
  constructor
  · intro fails
    refine ⟨?_, ?_⟩
    · rintro middle left ⟨between, rest', reached, ran⟩
      exact ((fails between rest' reached).2 middle left ran).1
    · rintro middle left ⟨between, rest', ⟨a, b, reached, ran⟩, last⟩
      exact ((fails a b reached).2 between rest' ran).2 middle left ((one _ _ _ _).mp (stateBind_ok.mpr last))
  · rintro ⟨here, later⟩ middle left reached
    refine ⟨there middle left, fun a b ran => ⟨here a b ⟨middle, left, reached, ran⟩, fun final after done => ?_⟩⟩
    exact later final after ⟨a, b, ⟨middle, left, reached, ran⟩, stateBind_ok.mp ((one _ _ _ _).mpr done)⟩

end RRoadVpn.Library
