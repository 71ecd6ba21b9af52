import Mathlib.Data.List.Infix

/-! Loops over a list that may stop before its end. -/

namespace RRoadVpn.Library

variable {σ α ρ : Type*}

inductive Progress (σ ρ : Type*) where
  | next (state : σ)
  | stop (result : ρ)
  deriving DecidableEq, Repr

/-- Feeds the input to the machine until it stops or the input ends. -/
def scan (feed : σ → α → Progress σ ρ) (finish : σ → ρ) (state : σ) : List α → ρ
  | [] => finish state
  | a :: rest =>
    match feed state a with
    | .next state => scan feed finish state rest
    | .stop result => result

variable {feed : σ → α → Progress σ ρ} {finish : σ → ρ}

@[simp] theorem scan_nil (state : σ) : scan feed finish state [] = finish state := rfl

theorem scan_next {state after : σ} {a : α} (fed : feed state a = .next after) (rest : List α) :
    scan feed finish state (a :: rest) = scan feed finish after rest := by
  rw [scan, fed]

theorem scan_stop {state : σ} {a : α} {result : ρ} (fed : feed state a = .stop result) (rest : List α) :
    scan feed finish state (a :: rest) = result := by
  rw [scan, fed]

/-- The states the machine goes through while it does not stop. -/
inductive Passes (feed : σ → α → Progress σ ρ) : σ → List α → σ → Prop where
  | nil (state) : Passes feed state [] state
  | cons {state a middle rest final} (fed : feed state a = .next middle) (after : Passes feed middle rest final) :
      Passes feed state (a :: rest) final

theorem Passes.scan {state final : σ} {first : List α} (passed : Passes feed state first final) (rest : List α) :
    scan feed finish state (first ++ rest) = scan feed finish final rest := by
  induction passed with
  | nil => rfl
  | cons fed _ ih => rw [List.cons_append, scan_next fed, ih]

theorem Passes.append {state middle final : σ} {first last : List α} (before : Passes feed state first middle)
    (after : Passes feed middle last final) : Passes feed state (first ++ last) final := by
  induction before with
  | nil => exact after
  | cons fed _ ih => exact .cons fed (ih after)

end RRoadVpn.Library
