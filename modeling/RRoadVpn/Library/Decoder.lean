import Mathlib.Algebra.Group.Nat.Defs
import Mathlib.Data.List.Induction

/-! Decoders that read a list of bytes from its front, and big-endian numbers. A
decoder is described by the input it consumes whatever follows it. -/

namespace RRoadVpn.Library

variable {α ε β γ : Type}

/-- Reads a value from the front of the input and leaves the rest. -/
abbrev Decoder (α ε : Type) := StateT (List α) (Except ε)

/-- Takes `n` elements, or fails with `short`. -/
def take (short : ε) (n : Nat) : Decoder α ε (List α) := fun input =>
  if n ≤ input.length then .ok (input.take n, input.drop n) else .error short

def remaining : Decoder α ε Nat := fun input => .ok (input.length, input)

def fail (error : ε) : Decoder α ε β := fun _ => .error error

/-- The decoder turns `input` into `value` and reads nothing after it. -/
def Decodes (decoder : Decoder α ε β) (input : List α) (value : β) : Prop :=
  ∀ rest, decoder (input ++ rest) = .ok (value, rest)

def Fails (decoder : Decoder α ε β) (input : List α) : Prop :=
  ∃ error, decoder input = .error error

namespace Decodes

theorem pure (value : β) : Decodes (Pure.pure value : Decoder α ε β) [] value := fun _ => rfl

theorem bind {first : Decoder α ε β} {next : β → Decoder α ε γ} {input later : List α} {value : β} {result : γ}
    (head : Decodes first input value) (tail : Decodes (next value) later result) :
    Decodes (first >>= next) (input ++ later) result := by
  intro rest
  rw [List.append_assoc]
  show (Except.bind (first (input ++ (later ++ rest))) fun x => next x.1 x.2) = _
  rw [head]
  exact tail rest

theorem map {first : Decoder α ε β} {input : List α} {value : β} (f : β → γ) (head : Decodes first input value) :
    Decodes (do return f (← first)) input (f value) := by
  have read : Decodes (first >>= fun value => Pure.pure (f value)) (input ++ []) (f value) :=
    head.bind (pure (f value))
  simpa using read

theorem take (short : ε) (input : List α) : Decodes (take short input.length) input input := by
  intro rest
  simp [Library.take]

theorem remaining {next : Nat → Decoder α ε γ} {input : List α} {result : γ}
    (tail : ∀ left, input.length ≤ left → Decodes (next left) input result) :
    Decodes (remaining >>= next) input result :=
  fun rest => tail (input ++ rest).length (by simp) rest

theorem whole {decoder : Decoder α ε β} {input : List α} {value : β} (decodes : Decodes decoder input value) :
    decoder input = .ok (value, []) := by
  simpa using decodes []

end Decodes

namespace Fails

theorem bind {first : Decoder α ε β} {next : β → Decoder α ε γ} {input : List α} (fails : Fails first input) :
    Fails (first >>= next) input := by
  obtain ⟨error, failed⟩ := fails
  refine ⟨error, ?_⟩
  show (Except.bind (first input) fun x => next x.1 x.2) = _
  rw [failed]
  rfl

theorem after {first : Decoder α ε β} {next : β → Decoder α ε γ} {input rest : List α} {value : β}
    (read : first input = .ok (value, rest)) (fails : Fails (next value) rest) : Fails (first >>= next) input := by
  obtain ⟨error, failed⟩ := fails
  refine ⟨error, ?_⟩
  show (Except.bind (first input) fun x => next x.1 x.2) = _
  rw [read]
  exact failed

end Fails

/-- Every value the decoder yields has the property. -/
def Ensures (decoder : Decoder α ε β) (property : β → Prop) : Prop :=
  ∀ input value rest, decoder input = .ok (value, rest) → property value

namespace Ensures

variable {property : γ → Prop}

theorem pure {value : γ} (holds : property value) : Ensures (Pure.pure value : Decoder α ε γ) property := by
  rintro _ _ _ ⟨⟩
  exact holds

theorem fail (error : ε) : Ensures (fail error : Decoder α ε γ) property := by
  rintro _ _ _ ⟨⟩

theorem bind {first : Decoder α ε β} {next : β → Decoder α ε γ} {known : β → Prop} (head : Ensures first known)
    (tail : ∀ value, known value → Ensures (next value) property) : Ensures (first >>= next) property := by
  intro input result rest read
  change (Except.bind (first input) fun x => next x.1 x.2) = _ at read
  cases found : first input with
  | error error =>
    rw [found] at read
    cases read
  | ok value =>
    rw [found] at read
    exact tail value.1 (head _ _ _ found) _ _ _ read

theorem trivial (decoder : Decoder α ε β) : Ensures decoder fun _ => True := fun _ _ _ _ => True.intro

end Ensures

/-! ### Big-endian numbers -/

/-- The last `n` bytes of a number, the highest first. -/
def bigEndian : Nat → Nat → List UInt8
  | 0, _ => []
  | n + 1, value => bigEndian n (value / 256) ++ [UInt8.ofNat value]

def ofBigEndian (bytes : List UInt8) : Nat :=
  bytes.foldl (fun value byte => value * 256 + byte.toNat) 0

@[simp] theorem bigEndian_length (n value : Nat) : (bigEndian n value).length = n := by
  induction n generalizing value with
  | zero => rfl
  | succ n ih => simp [bigEndian, ih]

theorem ofBigEndian_append (bytes : List UInt8) (byte : UInt8) :
    ofBigEndian (bytes ++ [byte]) = ofBigEndian bytes * 256 + byte.toNat := by
  simp [ofBigEndian]

theorem ofBigEndian_bigEndian (n value : Nat) : ofBigEndian (bigEndian n value) = value % 256 ^ n := by
  induction n generalizing value with
  | zero => simp [bigEndian, ofBigEndian, Nat.mod_one]
  | succ n ih =>
    rw [bigEndian, ofBigEndian_append, ih, Nat.pow_succ, Nat.mul_comm (256 ^ n), Nat.mod_mul]
    have low : (UInt8.ofNat value).toNat = value % 256 := by simp
    rw [low]
    omega

theorem ofBigEndian_bigEndian_of_lt {n value : Nat} (small : value < 256 ^ n) :
    ofBigEndian (bigEndian n value) = value := by
  rw [ofBigEndian_bigEndian, Nat.mod_eq_of_lt small]

end RRoadVpn.Library
