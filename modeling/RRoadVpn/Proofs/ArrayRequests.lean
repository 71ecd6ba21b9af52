import Mathlib.Data.UInt
import RRoadVpn.LogItemArrays

/-! Which byte arrays make the decoder of log items ask for an array without having checked its
size: those with a bad length behind a part that is well formed. -/

namespace RRoadVpn.Proofs.ArrayRequests
open Library Noting LogItemArrays
open LogItem (UnmarschalError get getChar getInt getLong newString putChar)

/-- A byte array is not larger than what is left, an array of arguments has at most 30. -/
def Sound : Request → Prop
  | .bytes size left => 0 ≤ size ∧ size ≤ left
  | .objects size => 0 ≤ size ∧ size ≤ 30

instance : DecidablePred Sound
  | .bytes size left => inferInstanceAs (Decidable (0 ≤ size ∧ size ≤ left))
  | .objects size => inferInstanceAs (Decidable (0 ≤ size ∧ size ≤ 30))

def Unsound (request : Request) : Prop := ¬ Sound request

/-- The constructor asks for sound arrays only, and never for one of a negative size. -/
def Checked (outcome : List Request × Except UnmarschalError LogItem) : Prop :=
  (∀ request ∈ outcome.1, Sound request) ∧ ∀ size, outcome.2 ≠ .error (.negativeArraySize size)

/-! ### Records -/

/-- An int in four bytes. -/
def Field (field : List UInt8) (value : Int) : Prop :=
  field.length = 4 ∧ (BitVec.ofNat 32 (ofBigEndian field)).toInt = value

inductive ArgBytes : List UInt8 → Prop where
  | string {field text : List UInt8} (length : Field field text.length) : ArgBytes (putChar 's' ++ (field ++ text))
  | four {type : Char} {value : List UInt8} (number : type = 'i' ∨ type = 'f') (length : value.length = 4) :
    ArgBytes (putChar type ++ value)
  | eight {type : Char} {value : List UInt8} (number : type = 'd' ∨ type = 'l') (length : value.length = 8) :
    ArgBytes (putChar type ++ value)
  | null : ArgBytes (putChar '0')

/-- A string whose length is negative or more than what follows. -/
def BadString (input : List UInt8) : Prop :=
  ∃ field rest n, input = field ++ rest ∧ Field field n ∧ (n < 0 ∨ rest.length < n)

def Negative (input : List UInt8) : Prop := ∃ field rest n, input = field ++ rest ∧ Field field n ∧ n < 0

/-- Arguments with a string among them whose length is bad. -/
def BadArgs (count : Nat) (input : List UInt8) : Prop :=
  ∃ (args : List (List UInt8)) (rest : List UInt8), input = args.flatten ++ (putChar 's' ++ rest) ∧
    (∀ arg ∈ args, ArgBytes arg) ∧ args.length < count ∧ BadString rest

/-- A bad length, behind a part of the record that is well formed. -/
inductive BadLength : List UInt8 → Prop where
  | message {header rest : List UInt8} (length : header.length = 21) (negative : Negative rest) :
    BadLength (header ++ rest)
  | arguments {header field text rest : List UInt8} (length : header.length = 21) (message : Field field text.length)
      (negative : Negative rest) : BadLength (header ++ (field ++ text ++ rest))
  | string {header field text counter rest : List UInt8} {count : Nat} (length : header.length = 21)
    (message : Field field text.length)
      (number : Field counter count) (few : count ≤ 30) (bad : BadArgs count rest) :
      BadLength (header ++ (field ++ text ++ (counter ++ rest)))

/-! ### What is read -/

private theorem reads_get {n : Nat} {input value rest : List UInt8} :
    Reads (lift (get n) : Unmarschal _) input value rest ↔ value.length = n ∧ input = value ++ rest := by
  show (Library.take _ n input = _) ↔ _
  rw [Library.take]
  constructor
  · intro read
    split at read
    next enough =>
      cases read
      exact ⟨List.length_take_of_le enough, (List.take_append_drop n input).symm⟩
    next => cases read
  · rintro ⟨rfl, rfl⟩
    rw [if_pos (by simp), List.take_left, List.drop_left]

theorem reads_number {α : Type} {n : Nat} {f : List UInt8 → α} {input rest : List UInt8} {value : α} :
    Reads (lift (do return f (← get n)) : Unmarschal α) input value rest ↔
      ∃ field, field.length = n ∧ f field = value ∧ input = field ++ rest := by
  rw [reads_lift_bind]
  simp only [reads_get, reads_lift_pure]
  constructor
  · rintro ⟨field, _, ⟨length, split⟩, same, rfl⟩
    exact ⟨field, length, same, split⟩
  · rintro ⟨field, length, same, split⟩
    exact ⟨field, rest, ⟨length, split⟩, same, rfl⟩

private theorem reads_getInt {input rest : List UInt8} {value : BitVec 32} :
    Reads (lift getInt : Unmarschal _) input value rest ↔
    ∃ field, field.length = 4 ∧ BitVec.ofNat 32 (ofBigEndian field) = value ∧ input = field ++ rest := reads_number

private theorem bigEndian_ofBigEndian (bytes : List UInt8) : bigEndian bytes.length (ofBigEndian bytes) = bytes := by
  induction bytes using List.reverseRecOn with
  | nil => rfl
  | append_singleton bytes byte ih =>
    have small : byte.toNat < 256 := byte.toNat_lt
    have high : (ofBigEndian bytes * 256 + byte.toNat) / 256 = ofBigEndian bytes := by omega
    rw [List.length_append, List.length_singleton, bigEndian, ofBigEndian_append, high, ih]
    congr 2
    have low : (UInt8.ofNat (ofBigEndian bytes * 256 + byte.toNat)).toNat =
        (ofBigEndian bytes * 256 + byte.toNat) % 256 := by simp
    exact UInt8.toNat_inj.mp (by omega)

theorem reads_getChar {c : Char} (small : c.toNat < 65536) {input rest : List UInt8} :
    Reads (lift getChar : Unmarschal _) input c.toNat rest ↔ input = putChar c ++ rest := by
  rw [getChar, reads_number]
  constructor
  · rintro ⟨field, length, same, rfl⟩
    rw [putChar, ← same, ← length, bigEndian_ofBigEndian]
  · rintro rfl
    exact ⟨putChar c, bigEndian_length 2 _, ofBigEndian_bigEndian_of_lt small, rfl⟩

private theorem reads_ite {α : Type} {c : Prop} [Decidable c] {first second : Unmarschal α} {input rest : List UInt8}
    {value : α} :
    Reads (if c then first else second) input value rest ↔
      c ∧ Reads first input value rest ∨ ¬ c ∧ Reads second input value rest := by
  split <;> simp [*]

private theorem noted_ite {α : Type} {kind : Request → Prop} {c : Prop} [Decidable c] {first second : Unmarschal α}
    {input : List UInt8} :
    Noted kind (if c then first else second) input ↔ c ∧ Noted kind first input ∨ ¬ c ∧ Noted kind second input := by
  split <;> simp [*]

private theorem not_reads_fail {α : Type} {error : UnmarschalError} {input rest : List UInt8} {value : α} :
    ¬ Reads (lift (fail error) : Unmarschal α) input value rest := by
  intro read
  cases read

private theorem reads_note {event : Nat → Request} {input rest : List UInt8} {u : Unit} :
    Reads (note event : Unmarschal Unit) input u rest ↔ input = rest := by
  show Except.ok ((), input) = Except.ok ((), rest) ↔ _
  simp

private theorem reads_newBytes {len : BitVec 32} {input rest : List UInt8} {u : Unit} :
    Reads (newBytes len) input u rest ↔ 0 ≤ len.toInt ∧ input = rest := by
  rw [newBytes, reads_bind]
  simp only [reads_note, reads_ite, not_reads_fail, reads_pure, and_false, false_or, Int.not_lt]
  constructor
  · rintro ⟨_, _, rfl, nonneg, _, rfl⟩
    exact ⟨nonneg, rfl⟩
  · rintro ⟨nonneg, rfl⟩
    exact ⟨(), input, rfl, nonneg, trivial, rfl⟩

private theorem noted_newBytes {kind : Request → Prop} {len : BitVec 32} {input : List UInt8} :
    Noted kind (newBytes len) input ↔ kind (.bytes len.toInt input.length) := by
  rw [newBytes, noted_bind, noted_note]
  refine or_iff_left ?_
  rintro ⟨_, _, _, noted⟩
  rcases noted_ite.mp noted with ⟨_, noted⟩ | ⟨_, noted⟩
  · exact not_noted_lift noted
  · exact not_noted_pure noted

private theorem toNat_of_nonneg {len : BitVec 32} (nonneg : 0 ≤ len.toInt) : (len.toNat : Int) = len.toInt := by
  have small := len.isLt
  have signed := BitVec.toInt_eq_toNat_cond len
  split at signed <;> omega

private theorem reads_getArray {len : BitVec 32} {input value rest : List UInt8} :
    Reads (LogItemArrays.getArray len) input value rest ↔
      (value.length : Int) = len.toInt ∧ input = value ++ rest := by
  rw [LogItemArrays.getArray, reads_bind]
  simp only [reads_newBytes, reads_get]
  constructor
  · rintro ⟨_, _, ⟨nonneg, rfl⟩, length, split⟩
    exact ⟨by rw [length, toNat_of_nonneg nonneg], split⟩
  · rintro ⟨length, split⟩
    have nonneg : 0 ≤ len.toInt := by omega
    have natural := toNat_of_nonneg nonneg
    exact ⟨(), input, ⟨nonneg, rfl⟩, by omega, split⟩

private theorem noted_getArray {len : BitVec 32} {input : List UInt8} :
    Noted Unsound (LogItemArrays.getArray len) input ↔ len.toInt < 0 ∨ input.length < len.toInt := by
  rw [LogItemArrays.getArray, noted_bind, noted_newBytes]
  have last : ¬ ∃ value middle, Reads (newBytes len) input value middle ∧
      Noted Unsound (lift (get len.toNat) : Unmarschal _) middle := by
    rintro ⟨_, _, _, noted⟩
    exact not_noted_lift noted
  rw [or_iff_left last, Unsound, Sound]
  omega

/-! ### Parts of a record -/

private theorem field_iff {input rest : List UInt8} {n : Int} :
    (∃ len, Reads (lift getInt : Unmarschal _) input len rest ∧ len.toInt = n) ↔
      ∃ field, input = field ++ rest ∧ Field field n := by
  simp only [reads_getInt]
  constructor
  · rintro ⟨len, ⟨field, length, rfl, split⟩, value⟩
    exact ⟨field, split, length, value⟩
  · rintro ⟨field, split, length, value⟩
    exact ⟨_, ⟨field, length, rfl, split⟩, value⟩

theorem text_iff {input rest : List UInt8} :
    (∃ len middle text, Reads (lift getInt : Unmarschal _) input len middle ∧
      Reads (LogItemArrays.getArray len) middle text rest) ↔
      ∃ field text : List UInt8, Field field text.length ∧ input = field ++ text ++ rest := by
  simp only [reads_getInt, reads_getArray]
  constructor
  · rintro ⟨len, middle, text, ⟨field, length, rfl, rfl⟩, same, rfl⟩
    exact ⟨field, text, ⟨length, same.symm⟩, (List.append_assoc _ _ _).symm⟩
  · rintro ⟨field, text, ⟨length, same⟩, rfl⟩
    exact ⟨_, text ++ rest, text, ⟨field, length, rfl, List.append_assoc _ _ _⟩, same.symm, rfl⟩

private theorem reads_unmarschalString {input rest : List UInt8} :
    (∃ value, Reads LogItemArrays.unmarschalString input value rest) ↔
    ∃ field text : List UInt8, Field field text.length ∧ input = field ++ text ++ rest := by
  rw [← text_iff]
  simp only [LogItemArrays.unmarschalString, reads_bind, reads_pure]
  constructor
  · rintro ⟨_, len, middle, read, text, _, fill, _, rfl⟩
    exact ⟨len, middle, text, read, fill⟩
  · rintro ⟨len, middle, text, read, fill⟩
    exact ⟨_, len, middle, read, text, rest, fill, rfl, rfl⟩

theorem noted_getInt_bind {α : Type} {next : BitVec 32 → Unmarschal α} {input : List UInt8} :
    Noted Unsound (lift getInt >>= next) input ↔
      ∃ len rest, Reads (lift getInt : Unmarschal _) input len rest ∧ Noted Unsound (next len) rest := by
  rw [noted_bind]
  exact or_iff_right not_noted_lift

private theorem noted_array_bind {α : Type} {len : BitVec 32} {f : List UInt8 → α} {input : List UInt8} :
    Noted Unsound (do return f (← LogItemArrays.getArray len) : Unmarschal α) input ↔
      len.toInt < 0 ∨ input.length < len.toInt := by
  rw [noted_bind, noted_getArray]
  refine or_iff_left ?_
  rintro ⟨_, _, _, noted⟩
  exact not_noted_pure noted

private theorem noted_unmarschalString {input : List UInt8} :
    Noted Unsound LogItemArrays.unmarschalString input ↔ BadString input := by
  rw [LogItemArrays.unmarschalString, noted_getInt_bind]
  simp only [noted_array_bind]
  constructor
  · rintro ⟨len, rest, read, bad⟩
    obtain ⟨field, split, number⟩ := field_iff.mp ⟨len, read, rfl⟩
    exact ⟨field, rest, _, split, number, bad⟩
  · rintro ⟨field, rest, n, split, number, bad⟩
    obtain ⟨len, read, rfl⟩ := field_iff.mpr ⟨field, split, number⟩
    exact ⟨len, rest, read, bad⟩

private theorem reads_remaining {input rest : List UInt8} {left : Nat} :
    Reads (lift remaining : Unmarschal _) input left rest ↔ input.length = left ∧ input = rest := by
  show Except.ok (input.length, input) = Except.ok (left, rest) ↔ _
  simp

private theorem reads_unmarschalMessage {input rest : List UInt8} :
    (∃ value, Reads LogItemArrays.unmarschalMessage input value rest) ↔
    ∃ field text : List UInt8, Field field text.length ∧ input = field ++ text ++ rest := by
  rw [← text_iff]
  simp only [LogItemArrays.unmarschalMessage, reads_bind, reads_ite, reads_remaining, reads_pure, not_reads_fail,
    and_false, false_or]
  constructor
  · rintro ⟨value, len, middle, read, ⟨rfl, -, rfl⟩ | ⟨_, _, _, ⟨rfl, rfl⟩, _, text, _, fill, _, rfl⟩⟩
    · exact ⟨0, middle, [], read, reads_getArray.mpr ⟨rfl, rfl⟩⟩
    · exact ⟨len, _, text, read, fill⟩
  · rintro ⟨len, middle, text, read, fill⟩
    by_cases empty : len = 0
    · obtain ⟨length, split⟩ := reads_getArray.mp fill
      subst empty
      obtain rfl : text = [] := List.length_eq_zero_iff.mp (by simpa using length)
      exact ⟨none, 0, middle, read, Or.inl ⟨rfl, rfl, split⟩⟩
    · obtain ⟨length, split⟩ := reads_getArray.mp fill
      have few : ¬ len.toInt > (middle.length : Int) := by
        rw [split, List.length_append]
        omega
      exact ⟨_, len, middle, read, Or.inr ⟨empty, middle.length, middle, ⟨rfl, rfl⟩, few, text, rest, fill, rfl, rfl⟩⟩

/-- The size of the message is looked at before the array, but not whether it is negative. -/
theorem noted_unmarschalMessage {input : List UInt8} :
    Noted Unsound LogItemArrays.unmarschalMessage input ↔ Negative input := by
  rw [LogItemArrays.unmarschalMessage, noted_getInt_bind]
  have body (len : BitVec 32) (rest : List UInt8) : Noted Unsound (if len = 0 then pure none else do
      let left ← lift remaining
      if len.toInt > left then
        lift (fail (.indexOutOfBounds (some
          ("String length " ++ toString len.toInt ++ " is bigger than remaining bytes " ++ toString left))))
      else return some (newString (← LogItemArrays.getArray len)) : Unmarschal (Option String)) rest ↔
        len.toInt < 0 := by
    rw [noted_ite]
    constructor
    · rintro (⟨_, noted⟩ | ⟨_, noted⟩)
      · exact absurd noted not_noted_pure
      · rcases noted_bind.mp noted with noted | ⟨left, middle, read, noted⟩
        · exact absurd noted not_noted_lift
        · obtain ⟨rfl, rfl⟩ := reads_remaining.mp read
          rcases noted_ite.mp noted with ⟨_, noted⟩ | ⟨few, noted⟩
          · exact absurd noted not_noted_lift
          · exact (noted_array_bind.mp noted).resolve_right fun many => few many
    · intro negative
      have nonzero : len ≠ 0 := by
        rintro rfl
        exact absurd negative (by decide)
      refine Or.inr ⟨nonzero, noted_bind.mpr (Or.inr ⟨rest.length, rest, reads_remaining.mpr ⟨rfl, rfl⟩, ?_⟩)⟩
      exact noted_ite.mpr (Or.inr ⟨by omega, noted_array_bind.mpr (Or.inl negative)⟩)
  simp only [body]
  constructor
  · rintro ⟨len, rest, read, negative⟩
    obtain ⟨field, split, number⟩ := field_iff.mp ⟨len, read, rfl⟩
    exact ⟨field, rest, _, split, number, negative⟩
  · rintro ⟨field, rest, n, split, number, negative⟩
    obtain ⟨len, read, rfl⟩ := field_iff.mpr ⟨field, split, number⟩
    exact ⟨len, rest, read, negative⟩

private theorem reads_getLong {input rest : List UInt8} {value : BitVec 64} :
    Reads (lift getLong : Unmarschal _) input value rest ↔
    ∃ field, field.length = 8 ∧ BitVec.ofNat 64 (ofBigEndian field) = value ∧ input = field ++ rest := reads_number

theorem reads_map {α β : Type} {d : Unmarschal α} {f : α → β} {input rest : List UInt8} :
    (∃ value, Reads (do return f (← d) : Unmarschal β) input value rest) ↔ ∃ value, Reads d input value rest := by
  simp only [reads_bind, reads_pure]
  constructor
  · rintro ⟨_, value, _, read, _, rfl⟩
    exact ⟨value, read⟩
  · rintro ⟨value, read⟩
    exact ⟨_, value, rest, read, rfl, rfl⟩

private theorem noted_map {α β : Type} {d : Unmarschal α} {f : α → β} {input : List UInt8} :
    Noted Unsound (do return f (← d) : Unmarschal β) input ↔ Noted Unsound d input := by
  rw [noted_bind]
  refine or_iff_left ?_
  rintro ⟨_, _, _, noted⟩
  exact not_noted_pure noted

private theorem reads_unmarschalArg {input rest : List UInt8} :
    (∃ value, Reads LogItemArrays.unmarschalArg input value rest) ↔ ∃ arg, ArgBytes arg ∧ input = arg ++ rest := by
  constructor
  · rintro ⟨value, whole⟩
    obtain ⟨type, middle, read, arg⟩ := reads_bind.mp whole
    rcases reads_ite.mp arg with ⟨rfl, arg⟩ | ⟨-, arg⟩
    · rw [reads_getChar (by decide)] at read
      obtain ⟨field, text, length, rfl⟩ := reads_unmarschalString.mp (reads_map.mp ⟨_, arg⟩)
      exact ⟨_, .string length, by simp [read]⟩
    rcases reads_ite.mp arg with ⟨rfl, arg⟩ | ⟨-, arg⟩
    · rw [reads_getChar (by decide)] at read
      obtain ⟨_, arg⟩ := reads_map.mp ⟨_, arg⟩
      obtain ⟨field, length, -, rfl⟩ := reads_getInt.mp arg
      exact ⟨_, .four (Or.inl rfl) length, by simp [read]⟩
    rcases reads_ite.mp arg with ⟨rfl, arg⟩ | ⟨-, arg⟩
    · rw [reads_getChar (by decide)] at read
      obtain ⟨_, arg⟩ := reads_map.mp ⟨_, arg⟩
      obtain ⟨field, length, -, rfl⟩ := reads_getLong.mp arg
      exact ⟨_, .eight (Or.inl rfl) length, by simp [read]⟩
    rcases reads_ite.mp arg with ⟨rfl, arg⟩ | ⟨-, arg⟩
    · rw [reads_getChar (by decide)] at read
      obtain ⟨_, arg⟩ := reads_map.mp ⟨_, arg⟩
      obtain ⟨field, length, -, rfl⟩ := reads_getInt.mp arg
      exact ⟨_, .four (Or.inr rfl) length, by simp [read]⟩
    rcases reads_ite.mp arg with ⟨rfl, arg⟩ | ⟨-, arg⟩
    · rw [reads_getChar (by decide)] at read
      obtain ⟨_, arg⟩ := reads_map.mp ⟨_, arg⟩
      obtain ⟨field, length, -, rfl⟩ := reads_getLong.mp arg
      exact ⟨_, .eight (Or.inr rfl) length, by simp [read]⟩
    rcases reads_ite.mp arg with ⟨rfl, arg⟩ | ⟨-, arg⟩
    · rw [reads_getChar (by decide)] at read
      obtain ⟨-, rfl⟩ := reads_pure.mp arg
      exact ⟨_, .null, read⟩
    · exact absurd arg not_reads_fail
  · rintro ⟨arg, bytes, rfl⟩
    cases bytes with
    | @string field text length =>
      obtain ⟨value, read⟩ :=
        reads_map (f := LogArg.string).mpr (reads_unmarschalString.mpr ⟨field, text, length, rfl⟩)
      refine ⟨value, reads_bind.mpr ⟨_, field ++ text ++ rest, (reads_getChar (c := 's') (by decide)).mpr (by simp),
        ?_⟩⟩
      exact reads_ite.mpr (Or.inl ⟨rfl, read⟩)
    | @four type value number length =>
      have read : Reads (lift getInt : Unmarschal _) (value ++ rest) _ rest :=
        reads_getInt.mpr ⟨value, length, rfl, rfl⟩
      rcases number with rfl | rfl
      · obtain ⟨result, read⟩ := reads_map (f := LogArg.integer).mpr ⟨_, read⟩
        refine ⟨result, reads_bind.mpr ⟨_, value ++ rest,
          (reads_getChar (c := 'i') (by decide)).mpr (List.append_assoc _ _ _), ?_⟩⟩
        exact read
      · obtain ⟨result, read⟩ := reads_map (f := LogArg.float).mpr ⟨_, read⟩
        refine ⟨result, reads_bind.mpr ⟨_, value ++ rest,
          (reads_getChar (c := 'f') (by decide)).mpr (List.append_assoc _ _ _), ?_⟩⟩
        exact read
    | @eight type value number length =>
      have read : Reads (lift getLong : Unmarschal _) (value ++ rest) _ rest :=
        reads_getLong.mpr ⟨value, length, rfl, rfl⟩
      rcases number with rfl | rfl
      · obtain ⟨result, read⟩ := reads_map (f := LogArg.double).mpr ⟨_, read⟩
        refine ⟨result, reads_bind.mpr ⟨_, value ++ rest,
          (reads_getChar (c := 'd') (by decide)).mpr (List.append_assoc _ _ _), ?_⟩⟩
        exact read
      · obtain ⟨result, read⟩ := reads_map (f := LogArg.long).mpr ⟨_, read⟩
        refine ⟨result, reads_bind.mpr ⟨_, value ++ rest,
          (reads_getChar (c := 'l') (by decide)).mpr (List.append_assoc _ _ _), ?_⟩⟩
        exact read
    | null =>
      refine ⟨.null, reads_bind.mpr ⟨_, rest, (reads_getChar (c := '0') (by decide)).mpr rfl, ?_⟩⟩
      exact reads_pure.mpr ⟨rfl, rfl⟩

/-- Only a string makes an argument ask for an array. -/
theorem noted_unmarschalArg {input : List UInt8} :
    Noted Unsound LogItemArrays.unmarschalArg input ↔ ∃ rest, input = putChar 's' ++ rest ∧ BadString rest := by
  rw [LogItemArrays.unmarschalArg, noted_bind, or_iff_right not_noted_lift]
  constructor
  · rintro ⟨type, rest, read, noted⟩
    rcases noted_ite.mp noted with ⟨rfl, noted⟩ | ⟨-, noted⟩
    · exact ⟨rest, (reads_getChar (by decide)).mp read, noted_unmarschalString.mp (noted_map.mp noted)⟩
    rcases noted_ite.mp noted with ⟨-, noted⟩ | ⟨-, noted⟩
    · exact absurd (noted_map.mp noted) not_noted_lift
    rcases noted_ite.mp noted with ⟨-, noted⟩ | ⟨-, noted⟩
    · exact absurd (noted_map.mp noted) not_noted_lift
    rcases noted_ite.mp noted with ⟨-, noted⟩ | ⟨-, noted⟩
    · exact absurd (noted_map.mp noted) not_noted_lift
    rcases noted_ite.mp noted with ⟨-, noted⟩ | ⟨-, noted⟩
    · exact absurd (noted_map.mp noted) not_noted_lift
    rcases noted_ite.mp noted with ⟨-, noted⟩ | ⟨-, noted⟩
    · exact absurd noted not_noted_pure
    · exact absurd noted not_noted_lift
  · rintro ⟨rest, split, bad⟩
    refine ⟨_, rest, (reads_getChar (c := 's') (by decide)).mpr split, ?_⟩
    exact noted_ite.mpr (Or.inl ⟨rfl, noted_map.mpr (noted_unmarschalString.mpr bad)⟩)

private theorem badArgs_succ {n : Nat} {input : List UInt8} : BadArgs (n + 1) input ↔
    (∃ rest, input = putChar 's' ++ rest ∧ BadString rest) ∨
      ∃ arg middle, input = arg ++ middle ∧ ArgBytes arg ∧ BadArgs n middle := by
  constructor
  · rintro ⟨args, rest, rfl, each, few, bad⟩
    cases args with
    | nil => exact Or.inl ⟨rest, rfl, bad⟩
    | cons arg args =>
      obtain ⟨first, others⟩ := List.forall_mem_cons.mp each
      refine Or.inr ⟨arg, args.flatten ++ (putChar 's' ++ rest), by simp, first, args, rest, rfl, others, ?_, bad⟩
      simpa using few
  · rintro (⟨rest, rfl, bad⟩ | ⟨arg, _, rfl, first, args, rest, rfl, others, few, bad⟩)
    · exact ⟨[], rest, rfl, List.forall_mem_nil _, Nat.succ_pos n, bad⟩
    · exact ⟨arg :: args, rest, by simp, List.forall_mem_cons.mpr ⟨first, others⟩, Nat.succ_lt_succ few, bad⟩

private theorem noted_unmarschalLoop {n : Nat} {input : List UInt8} :
    Noted Unsound (LogItemArrays.unmarschalLoop n) input ↔ BadArgs n input := by
  induction n generalizing input with
  | zero =>
    refine iff_of_false not_noted_pure ?_
    rintro ⟨args, _, _, _, few, _⟩
    exact absurd few (Nat.not_lt_zero _)
  | succ n ih =>
    rw [LogItemArrays.unmarschalLoop, noted_bind, noted_unmarschalArg, badArgs_succ]
    refine or_congr_right ?_
    constructor
    · rintro ⟨value, middle, read, noted⟩
      obtain ⟨arg, bytes, split⟩ := reads_unmarschalArg.mp ⟨value, read⟩
      exact ⟨arg, middle, split, bytes, ih.mp (noted_map.mp noted)⟩
    · rintro ⟨arg, middle, split, bytes, bad⟩
      obtain ⟨value, read⟩ := reads_unmarschalArg.mpr ⟨arg, bytes, split⟩
      exact ⟨value, middle, read, noted_map.mpr (ih.mpr bad)⟩

/-- A negative number of arguments, or a bad string among them. -/
def BadArguments (input : List UInt8) : Prop :=
  Negative input ∨ ∃ counter rest, ∃ count : Nat, input = counter ++ rest ∧ Field counter count ∧ count ≤ 30 ∧
    BadArgs count rest

private theorem noted_newObjects_bind {α : Type} {numArgs : BitVec 32} (few : ¬ numArgs.toInt > 30)
    {next : Unmarschal α}
    {input : List UInt8} :
    Noted Unsound (do newObjects numArgs; next) input ↔
      numArgs.toInt < 0 ∨ 0 ≤ numArgs.toInt ∧ Noted Unsound next input := by
  have request : Noted Unsound (newObjects numArgs) input ↔ numArgs.toInt < 0 := by
    rw [newObjects, noted_bind, noted_note]
    have last : ¬ ∃ value middle, Reads (note fun _ => .objects numArgs.toInt : Unmarschal Unit) input value middle ∧
        Noted Unsound (if numArgs.toInt < 0 then lift (fail (.negativeArraySize numArgs.toInt)) else pure
          () : Unmarschal Unit) middle := by
      rintro ⟨_, _, _, noted⟩
      rcases noted_ite.mp noted with ⟨_, noted⟩ | ⟨_, noted⟩
      · exact not_noted_lift noted
      · exact not_noted_pure noted
    rw [or_iff_left last, Unsound, Sound]
    omega
  have made (u : Unit) (rest : List UInt8) : Reads (newObjects numArgs) input u rest ↔
      0 ≤ numArgs.toInt ∧ input = rest := by
    rw [newObjects, reads_bind]
    simp only [reads_note, reads_ite, not_reads_fail, reads_pure, and_false, false_or, Int.not_lt]
    constructor
    · rintro ⟨_, _, rfl, nonneg, _, rfl⟩
      exact ⟨nonneg, rfl⟩
    · rintro ⟨nonneg, rfl⟩
      exact ⟨(), input, rfl, nonneg, trivial, rfl⟩
  rw [noted_bind, request]
  refine or_congr_right ?_
  simp only [made]
  constructor
  · rintro ⟨_, _, ⟨nonneg, rfl⟩, noted⟩
    exact ⟨nonneg, noted⟩
  · rintro ⟨nonneg, noted⟩
    exact ⟨(), input, ⟨nonneg, rfl⟩, noted⟩

private theorem noted_unmarschalArgs {input : List UInt8} :
    Noted Unsound LogItemArrays.unmarschalArgs input ↔ BadArguments input := by
  have body (len : BitVec 32) (rest : List UInt8) : Noted Unsound (if len.toInt > 30 then
        lift (fail (.indexOutOfBounds (some "Too many arguments for Logitem to unmarschal")))
      else if len = 0 then pure none
      else do
        newObjects len
        return some (← LogItemArrays.unmarschalLoop len.toNat) : Unmarschal (Option (List LogArg))) rest ↔
      len.toInt < 0 ∨ 0 ≤ len.toInt ∧ len.toInt ≤ 30 ∧ BadArgs len.toNat rest := by
    rw [noted_ite, noted_ite]
    constructor
    · rintro (⟨_, noted⟩ | ⟨few, ⟨_, noted⟩ | ⟨_, noted⟩⟩)
      · exact absurd noted not_noted_lift
      · exact absurd noted not_noted_pure
      · rw [noted_newObjects_bind few, noted_map, noted_unmarschalLoop] at noted
        exact noted.imp_right fun ⟨nonneg, bad⟩ => ⟨nonneg, by omega, bad⟩
    · intro bad
      have few : ¬ len.toInt > 30 := by
        rcases bad with negative | ⟨_, few, _⟩ <;> omega
      have nonzero : len ≠ 0 := by
        rintro rfl
        rcases bad with negative | ⟨_, _, args, _, _, _, none, _⟩
        · exact absurd negative (by decide)
        · exact absurd none (Nat.not_lt_zero _)
      refine Or.inr ⟨few, Or.inr ⟨nonzero, ?_⟩⟩
      rw [noted_newObjects_bind few, noted_map, noted_unmarschalLoop]
      exact bad.imp_right fun ⟨nonneg, _, bad⟩ => ⟨nonneg, bad⟩
  rw [LogItemArrays.unmarschalArgs, noted_getInt_bind]
  simp only [body]
  constructor
  · rintro ⟨len, rest, read, negative | ⟨nonneg, few, bad⟩⟩
    · obtain ⟨field, split, number⟩ := field_iff.mp ⟨len, read, rfl⟩
      exact Or.inl ⟨field, rest, _, split, number, negative⟩
    · have natural := toNat_of_nonneg nonneg
      obtain ⟨field, split, number⟩ := field_iff.mp ⟨len, read, natural.symm⟩
      exact Or.inr ⟨field, rest, len.toNat, split, number, by omega, bad⟩
  · rintro (⟨field, rest, n, split, number, negative⟩ | ⟨counter, rest, count, split, number, few, bad⟩)
    · obtain ⟨len, read, rfl⟩ := field_iff.mpr ⟨field, split, number⟩
      exact ⟨len, rest, read, Or.inl negative⟩
    · obtain ⟨len, read, value⟩ := field_iff.mpr ⟨counter, split, number⟩
      have natural : (len.toNat : Int) = len.toInt := toNat_of_nonneg (by omega)
      have same : len.toNat = count := by omega
      exact ⟨len, rest, read, Or.inr ⟨by omega, by omega, by rwa [same]⟩⟩

private theorem reads_unmarschalHeader {input rest : List UInt8} :
    (∃ value, Reads unmarschalHeader input value rest) ↔
      ∃ header : List UInt8, header.length = 21 ∧ input = header ++ rest := by
  simp only [unmarschalHeader, reads_lift_bind, reads_lift_pure, reads_get, reads_getInt, reads_getLong]
  constructor
  · rintro ⟨_, version, _, ⟨first, rfl⟩, _, _, ⟨time, second, _, rfl⟩, _, _, ⟨verbosity, third, _, rfl⟩, _, _,
      ⟨level, fourth, _, rfl⟩, _, _,
      ⟨id, fifth, _, rfl⟩, _, rfl⟩
    refine ⟨version ++ time ++ verbosity ++ level ++ id, ?_, by simp⟩
    simp only [List.length_append]
    omega
  · rintro ⟨header, length, rfl⟩
    have cut (n : Nat) (l : List UInt8) : l ++ rest = l.take n ++ (l.drop n ++ rest) := by
      rw [← List.append_assoc, List.take_append_drop]
    refine ⟨_, header.take 1, header.drop 1 ++ rest, ⟨by simp [length], cut 1 header⟩, _,
      (header.drop 1).drop 8 ++ rest,
      ⟨_, by simp [length], rfl, cut 8 _⟩, _, ((header.drop 1).drop 8).drop 4 ++ rest,
        ⟨_, by simp [length], rfl, cut 4 _⟩,
      _, (((header.drop 1).drop 8).drop 4).drop 4 ++ rest, ⟨_, by simp [length], rfl, cut 4 _⟩, _, rest,
        ⟨_, ?_, rfl, rfl⟩, rfl, rfl⟩
    simp [length]

theorem noted_unmarschal {input : List UInt8} : Noted Unsound LogItemArrays.unmarschal input ↔ BadLength input := by
  have args (f : Option (List LogArg) → LogItem) (rest : List UInt8) :
      Noted Unsound (do return f (← LogItemArrays.unmarschalArgs) : Unmarschal LogItem) rest ↔ BadArguments rest :=
    noted_map.trans noted_unmarschalArgs
  rw [LogItemArrays.unmarschal, noted_bind, or_iff_right
    (show ¬ Noted Unsound unmarschalHeader input from not_noted_lift)]
  constructor
  · rintro ⟨⟨logtime, mVerbosityLevel, level, mRessourceId⟩, middle, read, noted⟩
    obtain ⟨header, length, rfl⟩ := reads_unmarschalHeader.mp ⟨_, read⟩
    rcases noted_bind.mp noted with first | ⟨message, rest, found, later⟩
    · exact .message length (noted_unmarschalMessage.mp first)
    · obtain ⟨field, text, number, rfl⟩ := reads_unmarschalMessage.mp ⟨_, found⟩
      rcases (args _ rest).mp later with negative | ⟨counter, _, count, rfl, value, few, bad⟩
      · exact .arguments length number negative
      · exact .string length number value few bad
  · intro bad
    have start (header rest : List UInt8) (length : header.length = 21) :
        ∃ value, Reads unmarschalHeader (header ++ rest) value rest :=
          reads_unmarschalHeader.mpr ⟨header, length, rfl⟩
    have later {header field text rest : List UInt8} (length : header.length = 21) (message : Field field text.length)
        (bad : BadArguments rest) :
        ∃ value middle, Reads unmarschalHeader (header ++ (field ++ text ++ rest)) value middle ∧
          Noted Unsound (do
            let mMessage ← LogItemArrays.unmarschalMessage
            let mArgs ← LogItemArrays.unmarschalArgs
            return { mArgs, mMessage, mRessourceId := value.2.2.2,
                     mLevel := LogLevel.getEnumByValue value.2.2.1.toInt,
                     logtime := value.1, mVerbosityLevel := value.2.1 } : Unmarschal LogItem) middle := by
      obtain ⟨value, read⟩ := start header (field ++ text ++ rest) length
      obtain ⟨mMessage, found⟩ := reads_unmarschalMessage.mpr ⟨field, text, message, rfl⟩
      exact ⟨value, _, read, noted_bind.mpr (Or.inr ⟨mMessage, rest, found, (args _ rest).mpr bad⟩)⟩
    cases bad with
    | @message header rest length negative =>
      obtain ⟨value, read⟩ := start header rest length
      exact ⟨value, rest, read, noted_bind.mpr (Or.inl (noted_unmarschalMessage.mpr negative))⟩
    | arguments length message negative => exact later length message (Or.inl negative)
    | string length message number few bad => exact later length message (Or.inr ⟨_, _, _, rfl, number, few, bad⟩)

/-! ### Negative sizes -/

/-- Where the decoder fails at a negative size, it has asked for an array of that size. -/
def Explained {α : Type} (d : Unmarschal α) : Prop :=
  ∀ input size, (d input).2 = .error (.negativeArraySize size) → Noted Unsound d input

section Explained

variable {α β : Type}

def Never (decoder : Decoder UInt8 UnmarschalError α) : Prop :=
  ∀ input size, decoder input ≠ .error (.negativeArraySize size)

private theorem never_pure (value : α) : Never (pure value : Decoder UInt8 UnmarschalError α) := by
  intro _ _ failed
  cases failed

private theorem never_bind {decoder : Decoder UInt8 UnmarschalError α} {f : α → Decoder UInt8 UnmarschalError β}
    (first : Never decoder)
    (later : ∀ value, Never (f value)) : Never (decoder >>= f) := by
  intro input size failed
  change (Except.bind (decoder input) fun x => f x.1 x.2) = _ at failed
  cases found : decoder input with
  | error error =>
    rw [found] at failed
    cases failed
    exact first input size found
  | ok read =>
    rw [found] at failed
    exact later read.1 read.2 size failed

private theorem never_get (n : Nat) : Never (get n) := by
  intro input size
  show Library.take _ n input ≠ _
  rw [Library.take]
  split <;> exact fun failed => by cases failed

private theorem never_number (n : Nat) (f : List UInt8 → α) :
    Never (do return f (← get n)) :=
  never_bind (never_get n) fun _ => never_pure _

private theorem explained_pure (value : α) : Explained (pure value : Unmarschal α) := by
  intro _ _ failed
  cases failed

private theorem explained_lift {decoder : Decoder UInt8 UnmarschalError α} (never : Never decoder) :
    Explained (lift decoder : Unmarschal α) :=
  fun input size failed => absurd failed (never input size)

private theorem explained_bind {d : Unmarschal α} {f : α → Unmarschal β} (first : Explained d)
    (later : ∀ value, Explained (f value)) :
    Explained (d >>= f) := by
  intro input size failed
  change (Noting.erase (d >>= f) input) = _ at failed
  rw [erase_bind] at failed
  change (Except.bind (d input).2 fun x => (f x.1 x.2).2) = _ at failed
  rw [noted_bind]
  cases found : (d input).2 with
  | error error =>
    rw [found] at failed
    cases failed
    exact Or.inl (first input size found)
  | ok read =>
    rw [found] at failed
    exact Or.inr ⟨read.1, read.2, found, later read.1 read.2 size failed⟩

private theorem explained_ite {c : Prop} [Decidable c] {d e : Unmarschal α} (first : c → Explained d)
    (second : ¬ c → Explained e) :
    Explained (if c then d else e) := by
  split
  · exact first ‹_›
  · exact second ‹_›

end Explained

private theorem explained_get (n : Nat) : Explained (lift (get n) : Unmarschal _) := explained_lift (never_get n)

private theorem explained_number {α : Type} (n : Nat) (f : List UInt8 → α) :
    Explained (lift (do return f (← get n)) : Unmarschal α) :=
  explained_lift (never_number n f)

private theorem explained_fail {α : Type} {error : UnmarschalError}
    (other : ∀ size, error ≠ .negativeArraySize size) :
    Explained (lift (fail error) : Unmarschal α) :=
  explained_lift fun _ size failed => other size (Except.error.inj failed)

private theorem explained_newBytes (len : BitVec 32) : Explained (newBytes len) := by
  intro input size failed
  rw [noted_newBytes]
  change Noting.erase (newBytes len) input = _ at failed
  rw [erase_newBytes] at failed
  split at failed
  next negative => exact fun sound => absurd sound.1 (Int.not_le.mpr negative)
  next => cases failed

private theorem explained_newObjects (numArgs : BitVec 32) : Explained (newObjects numArgs) := by
  intro input size failed
  change Noting.erase (newObjects numArgs) input = _ at failed
  rw [erase_newObjects] at failed
  split at failed
  next negative =>
    rw [newObjects, noted_bind, noted_note]
    exact Or.inl fun sound => absurd sound.1 (Int.not_le.mpr negative)
  next => cases failed

private theorem explained_getInt : Explained (lift getInt : Unmarschal _) := explained_number 4 _

private theorem explained_getLong : Explained (lift getLong : Unmarschal _) := explained_number 8 _

private theorem explained_getArray (len : BitVec 32) : Explained (LogItemArrays.getArray len) :=
  explained_bind (explained_newBytes len) fun _ => explained_get _

private theorem explained_unmarschalString : Explained LogItemArrays.unmarschalString :=
  explained_bind explained_getInt fun len => explained_bind (explained_getArray len) fun _ => explained_pure _

private theorem explained_unmarschalMessage : Explained LogItemArrays.unmarschalMessage := by
  refine explained_bind explained_getInt fun len => explained_ite (fun _ => explained_pure _) fun _ => ?_
  refine explained_bind (explained_lift fun _ _ failed => by cases failed) fun left =>
    explained_ite (fun _ => ?_) fun _ => ?_
  · exact explained_fail fun size same => by cases same
  · exact explained_bind (explained_getArray len) fun _ => explained_pure _

private theorem explained_unmarschalArg : Explained LogItemArrays.unmarschalArg := by
  have made {α β : Type} {d : Unmarschal α} {f : α → β} (first : Explained d) : Explained
      (do return f (← d) : Unmarschal β) :=
    explained_bind first fun _ => explained_pure _
  refine explained_bind (explained_number 2 _) fun type => ?_
  refine explained_ite (fun _ => made explained_unmarschalString) fun _ => ?_
  refine explained_ite (fun _ => made explained_getInt) fun _ => ?_
  refine explained_ite (fun _ => made explained_getLong) fun _ => ?_
  refine explained_ite (fun _ => made explained_getInt) fun _ => ?_
  refine explained_ite (fun _ => made explained_getLong) fun _ => ?_
  exact explained_ite (fun _ => explained_pure _) fun _ => explained_fail fun size same => by cases same

private theorem explained_unmarschalLoop (n : Nat) : Explained (LogItemArrays.unmarschalLoop n) := by
  induction n with
  | zero => exact explained_pure _
  | succ n ih => exact explained_bind explained_unmarschalArg fun _ => explained_bind ih fun _ => explained_pure _

private theorem explained_unmarschalArgs : Explained LogItemArrays.unmarschalArgs := by
  refine explained_bind explained_getInt fun numArgs => explained_ite (fun _ => ?_) fun _ =>
    explained_ite (fun _ => explained_pure _) fun _ => ?_
  · exact explained_fail fun size same => by cases same
  · exact explained_bind (explained_newObjects numArgs) fun _ =>
      explained_bind (explained_unmarschalLoop _) fun _ => explained_pure _

private theorem explained_unmarschalHeader : Explained unmarschalHeader :=
  explained_lift (never_bind (never_get 1) fun _ => never_bind (never_number 8 _) fun _ =>
    never_bind (never_number 4 _) fun _ =>
    never_bind (never_number 4 _) fun _ => never_bind (never_number 4 _) fun _ => never_pure _)

private theorem explained_unmarschal : Explained LogItemArrays.unmarschal :=
  explained_bind explained_unmarschalHeader fun _ => explained_bind explained_unmarschalMessage fun _ =>
    explained_bind explained_unmarschalArgs fun _ => explained_pure _

/-! ### Main result -/

/-- The arrays are checked exactly where no length is bad. -/
theorem checked_iff {bytes : List UInt8} {length : Int} (inside : length ≤ bytes.length) :
    Checked (ofBytes bytes length) ↔ ¬ BadLength (bytes.take length.toNat) := by
  by_cases negative : length < 0
  · have empty : bytes.take length.toNat = [] := by rw [Int.toNat_of_nonpos (by omega), List.take_zero]
    rw [ofBytes, if_pos (Or.inl negative), empty]
    refine iff_of_true ⟨List.forall_mem_nil _, fun size same => by cases same⟩ fun bad => ?_
    generalize whole : ([] : List UInt8) = input at bad
    cases bad <;> · have := congrArg List.length whole; simp only [List.length_append, List.length_nil] at this; omega
  · have requests : (ofBytes bytes length).1 = (LogItemArrays.unmarschal (bytes.take length.toNat)).1 := by
      rw [ofBytes, if_neg (by omega)]
      rcases LogItemArrays.unmarschal (bytes.take length.toNat) with ⟨requests, error | ⟨item, left⟩⟩
      · rfl
      · simp only
        split <;> rfl
    have failed (size : Int) (same : (ofBytes bytes length).2 = .error (.negativeArraySize size)) :
        (LogItemArrays.unmarschal (bytes.take length.toNat)).2 = .error (.negativeArraySize size) := by
      rw [ofBytes, if_neg (by omega)] at same
      generalize LogItemArrays.unmarschal (bytes.take length.toNat) = outcome at same ⊢
      obtain ⟨_, error | ⟨item, left⟩⟩ := outcome
      · exact congrArg Except.error (Except.error.inj same)
      · simp only at same
        split at same <;> cases same
    rw [← noted_unmarschal, Noted, ← requests]
    constructor
    · rintro ⟨sound, _⟩ ⟨request, member, unsound⟩
      exact unsound (sound request member)
    · intro none
      refine ⟨fun request member => by_contra fun unsound => none ⟨request, member, unsound⟩,
        fun size same => none ?_⟩
      rw [requests]
      exact explained_unmarschal _ size (failed size same)

/-- An item with the message "hi" and the string argument "a". -/
private def oneString : List UInt8 :=
  List.replicate 21 0 ++ [0, 0, 0, 2, 0x68, 0x69] ++ [0, 0, 0, 1] ++ [0, 0x73, 0, 0, 0, 1, 0x61]

theorem checked_iff_one_string : (ofBytes oneString 38).1 = [.bytes 2 13, .objects 1, .bytes 1 1] ∧
    (Checked (ofBytes oneString 38) ↔ ¬ BadLength (oneString.take (38 : Int).toNat)) :=
  ⟨by decide +kernel, checked_iff (by decide)⟩

/-- A string argument of two gigabytes, of which nothing is there. -/
theorem string_length_unchecked :
    ¬ Checked (ofBytes (List.replicate 25 0 ++ [0, 0, 0, 1, 0, 0x73, 0x7f, 0xff, 0xff, 0xff]) 35) := by
  rintro ⟨sound, -⟩
  have bad := sound (.bytes 0x7fffffff 0) (by decide +kernel)
  exact absurd bad (by decide)

end RRoadVpn.Proofs.ArrayRequests
