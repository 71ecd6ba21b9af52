import Mathlib.Data.Nat.Digits.Lemmas
import Mathlib.Tactic.Positivity.Basic
import RRoadVpn.Library.Lines
import RRoadVpn.Uuid

/-! A UUID is read back from its text, and from a text that differs only in the case of its
letters. -/

namespace RRoadVpn.Proofs.UuidTexts
open Library RRoadVpn.UUID
open JavaText (Text)

/-! ### Reading what is written -/

private theorem hexDigit_digitChar {d : Nat} (small : d < 16) : hexDigit (Nat.digitChar d) = some d := by
  have each : ∀ d < 16, hexDigit (Nat.digitChar d) = some d := by decide
  exact each d small

private theorem mapM_digits (n val : Nat) : ∃ values : List Nat, (digits n val).mapM hexDigit = some values ∧
    values.length = n ∧ Nat.ofDigits 16 values.reverse = val % 16 ^ n := by
  induction n generalizing val with
  | zero => exact ⟨[], rfl, rfl, by simp [Nat.mod_one]⟩
  | succ n ih =>
    obtain ⟨values, read, length, number⟩ := ih (val / 16)
    refine ⟨values ++ [val % 16], ?_, by rw [List.length_append, length]; rfl, ?_⟩
    · rw [digits, List.mapM_append, read]
      simp [hexDigit_digitChar (Nat.mod_lt val (by decide : 0 < 16))]
    · rw [List.reverse_append, List.reverse_singleton, List.singleton_append, Nat.ofDigits_cons, number, Nat.pow_succ,
        Nat.mul_comm (16 ^ n), Nat.mod_mul]

private theorem decode_digits {n : Nat} (val : Nat) (nonzero : 0 < n) (few : n ≤ 15) :
    decode (digits n val) = some (BitVec.ofNat 64 (val % 16 ^ n)) := by
  obtain ⟨values, read, length, number⟩ := mapM_digits n val
  have nonempty : values ≠ [] := by
    rintro rfl
    exact Nat.ne_of_lt nonzero length
  have small : val % 16 ^ n < 2 ^ 63 := by
    refine Nat.lt_of_lt_of_le (Nat.mod_lt _ (by positivity)) ?_
    calc 16 ^ n ≤ 16 ^ 15 := Nat.pow_le_pow_right (by decide) few
      _ ≤ 2 ^ 63 := by decide
  simp only [decode, read, Option.bind_eq_bind, Option.bind_some, number]
  exact if_pos ⟨nonempty, small⟩

private theorem digits_char {n val : Nat} {c : Char} (member : c ∈ digits n val) : ∃ d < 16, c = Nat.digitChar d := by
  induction n generalizing val with
  | zero => cases member
  | succ n ih =>
    rw [digits, List.mem_append, List.mem_singleton] at member
    rcases member with before | last
    · exact ih before
    · exact ⟨_, Nat.mod_lt val (by decide), last⟩

private theorem hyphen_digits (n val : Nat) : '-' ∉ digits n val := by
  intro member
  obtain ⟨d, small, same⟩ := digits_char member
  have each : ∀ d < 16, '-' ≠ Nat.digitChar d := by decide
  exact each d small same

theorem join_parts (v : BitVec 64) :
    ((BitVec.ofNat 64 (v.toNat >>> 32 % 16 ^ 8) <<< 16 ||| BitVec.ofNat 64 (v.toNat >>> 16 % 16 ^ 4)) <<< 16) |||
      BitVec.ofNat 64 (v.toNat % 16 ^ 4) = v := by
  have bound := v.isLt
  apply BitVec.eq_of_toNat_eq
  simp only [BitVec.toNat_or, BitVec.toNat_shiftLeft, BitVec.toNat_ofNat]
  generalize v.toNat = n at bound
  have first : n >>> 32 % 16 ^ 8 % 2 ^ 64 = n / 2 ^ 32 := by
    rw [Nat.shiftRight_eq_div_pow]
    omega
  have second : n >>> 16 % 16 ^ 4 % 2 ^ 64 = n / 2 ^ 16 % 2 ^ 16 := by
    rw [Nat.shiftRight_eq_div_pow]
    omega
  have third : n % 16 ^ 4 % 2 ^ 64 = n % 2 ^ 16 := by omega
  have upper : (n / 2 ^ 32) <<< 16 % 2 ^ 64 ||| n / 2 ^ 16 % 2 ^ 16 = n / 2 ^ 16 := by
    have fits : (n / 2 ^ 32) <<< 16 % 2 ^ 64 = (n / 2 ^ 32) <<< 16 := by
      rw [Nat.shiftLeft_eq]
      omega
    rw [fits, ← Nat.shiftLeft_add_eq_or_of_lt (Nat.mod_lt _ (by decide)), Nat.shiftLeft_eq]
    omega
  have fits : (n / 2 ^ 16) <<< 16 % 2 ^ 64 = (n / 2 ^ 16) <<< 16 := by
    rw [Nat.shiftLeft_eq]
    omega
  rw [first, second, third, upper, fits, ← Nat.shiftLeft_add_eq_or_of_lt (Nat.mod_lt _ (by decide)), Nat.shiftLeft_eq]
  omega

private theorem join_ends (v : BitVec 64) :
    BitVec.ofNat 64 (v.toNat >>> 48 % 16 ^ 4) <<< 48 ||| BitVec.ofNat 64 (v.toNat % 16 ^ 12) = v := by
  have bound := v.isLt
  apply BitVec.eq_of_toNat_eq
  simp only [BitVec.toNat_or, BitVec.toNat_shiftLeft, BitVec.toNat_ofNat]
  generalize v.toNat = n at bound
  have first : (n >>> 48 % 16 ^ 4 % 2 ^ 64) <<< 48 % 2 ^ 64 = (n / 2 ^ 48) <<< 48 := by
    rw [Nat.shiftRight_eq_div_pow, Nat.shiftLeft_eq, Nat.shiftLeft_eq]
    omega
  have second : n % 16 ^ 12 % 2 ^ 64 = n % 2 ^ 48 := by omega
  rw [first, second, ← Nat.shiftLeft_add_eq_or_of_lt (Nat.mod_lt _ (by decide)), Nat.shiftLeft_eq]
  omega

theorem fromString_toText (u : UUID) : fromString u.toText = some u := by
  have parts : JavaText.split '-' u.toText = [digits 8 (u.mostSigBits.toNat >>> 32),
      digits 4 (u.mostSigBits.toNat >>> 16),
      digits 4 u.mostSigBits.toNat, digits 4 (u.leastSigBits.toNat >>> 48), digits 12 u.leastSigBits.toNat] := by
    have hyphen : '-' ∈ u.toText := by simp [toText, List.intercalate_cons_cons]
    have last : digits 12 u.leastSigBits.toNat ≠ [] := by simp [digits]
    rw [JavaText.split, if_pos hyphen, toText, List.splitOn_intercalate]
    · exact List.rdropWhile_eq_self_iff.mpr fun _ => by simpa using last
    · simp [hyphen_digits]
    · simp
  rw [fromString, parts]
  simp only [List.mapM_cons, List.mapM_nil, decode_digits _ (by decide : 0 < 8) (by decide),
    decode_digits _ (by decide : 0 < 4) (by decide),
    decode_digits _ (by decide : 0 < 12) (by decide), Option.pure_def, Option.bind_eq_bind, Option.bind_some,
      join_parts, join_ends]

/-! ### Letters of the other case -/

theorem toText_lower (u : UUID) : toLowerCase u.toText = u.toText := by
  have written {c : Char} (member : c ∈ u.toText) : c = '-' ∨ ∃ d < 16, c = Nat.digitChar d := by
    refine (mem_intercalate '-' member).imp_right ?_
    rintro ⟨part, inside, there⟩
    simp only [List.mem_cons, List.not_mem_nil, or_false] at inside
    rcases inside with rfl | rfl | rfl | rfl | rfl <;> exact digits_char there
  have kept : ∀ d < 16, lowerCase (Nat.digitChar d) = Nat.digitChar d := by decide
  have same : ∀ c ∈ u.toText, lowerCase c = id c := by
    intro c member
    rcases written member with rfl | ⟨d, small, rfl⟩
    · rfl
    · exact kept d small
  rw [toLowerCase, List.map_congr_left same, List.map_id]

private theorem digit_none {c : Char} (between : (0x3a ≤ c.toNat ∧ c.toNat < 0x660) ∨ 0xff1a ≤ c.toNat) :
    JavaText.digit c = none := by
  simp only [JavaText.digit, Option.map_eq_none_iff, List.find?_eq_none]
  intro first member
  simp only [JavaText.zeros, List.mem_cons, List.not_mem_nil, or_false] at member
  simp only [Bool.and_eq_true, decide_eq_true_eq]
  omega

private theorem toNat_small {c : Char}
    (capital : (0x41 ≤ c.toNat ∧ c.toNat ≤ 0x5a) ∨ (0xff21 ≤ c.toNat ∧ c.toNat ≤ 0xff3a)) :
    (Char.ofNat (c.toNat + 32)).toNat = c.toNat + 32 := by
  have valid : (c.toNat + 32).isValidChar := by
    simp only [Nat.isValidChar]
    omega
  rw [Char.ofNat, dif_pos valid]
  rfl

private theorem hexDigit_lowerCase (c : Char) : hexDigit (lowerCase c) = hexDigit c := by
  unfold lowerCase
  split
  next capital =>
    have code := toNat_small capital
    have noDigit : JavaText.digit (Char.ofNat (c.toNat + 32)) = none := digit_none (by omega)
    have letters : ∀ n < 26, ∀ first ∈ [0x41, 0xff21],
        (alphabets.findSome? fun a =>
            if a ≤ first + n + 32 ∧ first + n + 32 < a + 6 then some (first + n + 32 - a + 10) else none) =
          alphabets.findSome? fun a =>
            if a ≤ first + n ∧ first + n < a + 6 then some (first + n - a + 10) else none := by decide
    rw [hexDigit, hexDigit, noDigit, digit_none (by omega), Option.none_or, Option.none_or]
    simp only [letterFrom, code]
    rcases capital with ascii | wide
    · have shifted : c.toNat = 0x41 + (c.toNat - 0x41) := by omega
      rw [shifted]
      exact letters (c.toNat - 0x41) (by omega) 0x41 (by simp)
    · have shifted : c.toNat = 0xff21 + (c.toNat - 0xff21) := by omega
      rw [shifted]
      exact letters (c.toNat - 0xff21) (by omega) 0xff21 (by simp)
  next => rfl

private theorem lowerCase_hyphen (c : Char) : lowerCase c = '-' ↔ c = '-' := by
  unfold lowerCase
  split
  next capital =>
    have code := toNat_small capital
    refine iff_of_false ?_ ?_
    · intro same
      have number := congrArg Char.toNat same
      rw [code] at number
      have hyphen : '-'.toNat = 45 := rfl
      omega
    · rintro rfl
      exact absurd capital (by decide)
  next => rfl

private theorem splitOn_map {f : Char → Char} {separator : Char} (apart : ∀ c, f c = separator ↔ c = separator)
    (s : Text) :
    (s.map f).splitOn separator = (s.splitOn separator).map (List.map f) := by
  induction s with
  | nil => simp
  | cons c s ih =>
    rw [List.map_cons, List.splitOn_cons_eq_if_modifyHead, List.splitOn_cons_eq_if_modifyHead, ih]
    simp only [beq_iff_eq, apart]
    split
    · simp
    · cases s.splitOn separator <;> simp

private theorem split_map {f : Char → Char} {separator : Char} (apart : ∀ c, f c = separator ↔ c = separator)
    (s : Text) :
    JavaText.split separator (s.map f) = (JavaText.split separator s).map (List.map f) := by
  have inside : separator ∈ s.map f ↔ separator ∈ s := by
    simp only [List.mem_map, apart, exists_eq_right]
  unfold JavaText.split
  rw [splitOn_map apart]
  split
  next present =>
    have empty : ((fun part : Text => part == []) ∘ List.map f) = fun part => part == [] := by
      funext part
      cases part <;> rfl
    rw [if_pos (inside.mp present), List.rdropWhile, List.rdropWhile, ← List.map_reverse, List.dropWhile_map, empty,
      List.map_reverse]
  next absent =>
    rw [if_neg fun present => absent (inside.mpr present)]
    rfl

theorem fromString_toLowerCase (name : Text) : fromString (toLowerCase name) = fromString name := by
  have decoded (s : Text) : decode (s.map lowerCase) = decode s := by
    simp only [decode, List.mapM_map, Function.comp_def, hexDigit_lowerCase]
  rw [fromString, toLowerCase, split_map lowerCase_hyphen, List.mapM_map]
  simp only [Function.comp_def, decoded]
  rfl

end RRoadVpn.Proofs.UuidTexts
