import RRoadVpn.Library.Decoder

/-! Decoders that note what they do, also where they fail. Without its notes such a decoder is
one as before. -/

namespace RRoadVpn.Library

/-- Reads from the front of the input, with the notes that were made. -/
def Noting (α ε ν β : Type) : Type := List α → List ν × Except ε (β × List α)

namespace Noting

variable {α ε ν β γ : Type}

instance : Monad (Noting α ε ν) where
  pure value := fun input => ([], .ok (value, input))
  bind first next := fun input =>
    match first input with
    | (notes, .error error) => (notes, .error error)
    | (notes, .ok (value, rest)) => (notes ++ (next value rest).1, (next value rest).2)

def lift (decoder : Decoder α ε β) : Noting α ε ν β := fun input => ([], decoder input)

def note (event : Nat → ν) : Noting α ε ν Unit := fun input => ([event input.length], .ok ((), input))

def erase (noting : Noting α ε ν β) : Decoder α ε β := fun input => (noting input).2

@[simp] theorem erase_lift (decoder : Decoder α ε β) : erase (lift decoder : Noting α ε ν β) = decoder := rfl

@[simp] theorem erase_pure (value : β) : erase (pure value : Noting α ε ν β) = pure value := rfl

@[simp] theorem erase_note (event : Nat → ν) : erase (note event : Noting α ε ν Unit) = pure () := rfl

@[simp] theorem erase_bind (first : Noting α ε ν β) (next : β → Noting α ε ν γ) :
    erase (first >>= next) = erase first >>= fun value => erase (next value) := by
  funext input
  show (match first input with
    | (notes, .error error) => (notes, Except.error error)
    | (notes, .ok (value, rest)) => (notes ++ (next value rest).1, (next value rest).2)).2 =
      Except.bind (first input).2 fun x => (next x.1 x.2).2
  rcases first input with ⟨notes, error | ⟨value, rest⟩⟩ <;> rfl

@[simp] theorem erase_ite (c : Prop) [Decidable c] (first second : Noting α ε ν β) :
    erase (if c then first else second) = if c then erase first else erase second := by
  split <;> rfl

/-! ### What is read -/

/-- The decoder turns the front of the input into a value. -/
def Reads (noting : Noting α ε ν β) (input : List α) (value : β) (rest : List α) : Prop :=
  (noting input).2 = .ok (value, rest)

def Noted (kind : ν → Prop) (noting : Noting α ε ν β) (input : List α) : Prop :=
  ∃ event ∈ (noting input).1, kind event

variable {kind : ν → Prop} {input rest : List α}

theorem reads_pure {value result : β} : Reads (pure value : Noting α ε ν β) input result rest ↔
    value = result ∧ input = rest := by
  show Except.ok (value, input) = Except.ok (result, rest) ↔ _
  rw [Except.ok.injEq, Prod.mk.injEq]

theorem reads_bind {first : Noting α ε ν β} {next : β → Noting α ε ν γ} {result : γ} :
    Reads (first >>= next) input result rest ↔ ∃ value middle, Reads first input value middle ∧
      Reads (next value) middle result rest := by
  show (erase (first >>= next) input) = _ ↔ ∃ value middle, (first input).2 = _ ∧ _
  rw [erase_bind]
  show (Except.bind (first input).2 fun x => (next x.1 x.2).2) = _ ↔ _
  cases found : (first input).2 with
  | error error => simp [Except.bind]
  | ok read =>
    obtain ⟨value, middle⟩ := read
    simp only [Except.bind, Except.ok.injEq, Prod.mk.injEq, Reads]
    exact ⟨fun read => ⟨value, middle, ⟨rfl, rfl⟩, read⟩, fun ⟨_, _, ⟨same, same'⟩, read⟩ => by rwa [same, same']⟩

theorem reads_lift_bind {first : Decoder α ε β} {next : β → Decoder α ε γ} {result : γ} :
    Reads (lift (first >>= next) : Noting α ε ν γ) input result rest ↔
      ∃ value middle, Reads (lift first : Noting α ε ν β) input value middle ∧
        Reads (lift (next value) : Noting α ε ν γ) middle result rest := by
  rw [← reads_bind]
  show _ ↔ erase (lift first >>= fun value => (lift (next value) : Noting α ε ν γ)) input = _
  rw [erase_bind]
  rfl

theorem reads_lift_pure {value result : β} :
    Reads (lift (pure value) : Noting α ε ν β) input result rest ↔ value = result ∧ input = rest := reads_pure

theorem not_noted_pure {value : β} : ¬ Noted kind (pure value : Noting α ε ν β) input := by
  rintro ⟨_, member, _⟩
  cases member

theorem not_noted_lift {decoder : Decoder α ε β} : ¬ Noted kind (lift decoder : Noting α ε ν β) input := by
  rintro ⟨_, member, _⟩
  cases member

theorem noted_note {event : Nat → ν} : Noted kind (note event : Noting α ε ν Unit) input ↔ kind
    (event input.length) := by
  show (∃ e ∈ [event input.length], kind e) ↔ _
  simp

theorem noted_bind {first : Noting α ε ν β} {next : β → Noting α ε ν γ} :
    Noted kind (first >>= next) input ↔
      Noted kind first input ∨ ∃ value middle, Reads first input value middle ∧ Noted kind (next value) middle := by
  show (∃ event ∈ (match first input with
    | (notes, .error error) => (notes, Except.error error)
    | (notes, .ok (value, rest)) => (notes ++ (next value rest).1, (next value rest).2)).1, kind event) ↔ _
  rw [Noted]
  simp only [Reads]
  rcases first input with ⟨notes, error | ⟨value, rest⟩⟩
  · simp
  · simp only [List.mem_append, or_and_right, exists_or, Except.ok.injEq, Prod.mk.injEq]
    refine or_congr_right ⟨fun noted => ⟨value, rest, ⟨rfl, rfl⟩, noted⟩, ?_⟩
    rintro ⟨_, _, ⟨rfl, rfl⟩, noted⟩
    exact noted

end Noting

end RRoadVpn.Library
