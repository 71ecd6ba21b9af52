import RRoadVpn.ConvertProfile
import RRoadVpn.Proofs.TunTexts

/-! Dotted quads and masks: how the importer reads them, and what the exporter makes of the
length of a mask. -/

namespace RRoadVpn.Proofs.RouteTexts
open RRoadVpn.ConfigParser RRoadVpn.VpnProfile
open JavaText (Text)

/-- A number from 0 to 255 in decimal digits. -/
structure Octet (s : Text) (n : Nat) : Prop where
  nonempty : s ≠ []
  short : s.length ≤ 3
  digits : ∀ c ∈ s, c.isDigit
  value : Nat.ofDigitChars 10 s 0 = n
  small : n ≤ 255

def DottedQuad (s : Text) (n : Nat) : Prop :=
  ∃ a b c d i j k l, s.splitOn '.' = [a, b, c, d] ∧ Octet a i ∧ Octet b j ∧ Octet c k ∧ Octet d l ∧
    n = i * 2 ^ 24 + j * 2 ^ 16 + k * 2 ^ 8 + l

def netmask (len : Nat) : Nat := (0xffffffff <<< (32 - len)) % 2 ^ 32

/-! ### Reading -/

private theorem digit_ascii {c : Char} (digit : c.isDigit) : JavaText.digit c = some (c.toNat - 48) := by
  have range : 48 ≤ c.toNat ∧ c.toNat < 58 := by
    simp only [Char.isDigit, Bool.and_eq_true, decide_eq_true_eq, UInt32.le_iff_toNat_le] at digit
    exact ⟨digit.1, Nat.lt_succ_of_le digit.2⟩
  have zeros : JavaText.zeros = 0x30 :: JavaText.zeros.tail := rfl
  have found : JavaText.zeros.find? (fun first => first ≤ c.toNat && c.toNat < first + 10) = some 0x30 := by
    rw [zeros]
    refine List.find?_cons_of_pos ?_
    simp only [Bool.and_eq_true, decide_eq_true_eq]
    omega
  rw [JavaText.digit, found]
  rfl

private theorem digits_ascii {s : Text} (digits : ∀ c ∈ s, c.isDigit) :
    JavaText.digits s = some (s.map fun c => c.toNat - 48) := by
  induction s with
  | nil => rfl
  | cons c s ih =>
    obtain ⟨first, others⟩ := List.forall_mem_cons.mp digits
    rw [JavaText.digits] at ih
    rw [JavaText.digits, List.mapM_cons, digit_ascii first, ih others]
    rfl

private theorem ofDigits_ascii (s : Text) :
    Nat.ofDigits 10 (s.map fun c => c.toNat - 48).reverse = Nat.ofDigitChars 10 s 0 := by
  induction s using List.reverseRecOn with
  | nil => rfl
  | append_singleton s c ih =>
    rw [List.map_append, List.reverse_append, List.map_singleton, List.reverse_singleton, List.singleton_append,
      Nat.ofDigits_cons, ih]
    rw [Nat.ofDigitChars_append, Nat.ofDigitChars_cons, Nat.ofDigitChars_nil]
    exact Nat.add_comm _ _

theorem parseNumber_octet {s : Text} {n bits : Nat} (octet : Octet s n) (wide : 9 < bits) :
    JavaText.parseNumber bits s = some n := by
  obtain ⟨nonempty, short, digits, value, small⟩ := octet
  have number : Nat.ofDigits (10 : Int) (s.map fun c => c.toNat - 48).reverse = n := by
    have natural : Nat.ofDigits 10 (s.map fun c => c.toNat - 48).reverse = n := (ofDigits_ascii s).trans value
    rw [← natural, Nat.coe_ofDigits]
    rfl
  have unsigned : JavaText.parseNumber bits s = (do
      let digits ← JavaText.digits s
      if digits = [] then none
      else
        let value : Int := Nat.ofDigits 10 digits.reverse
        if -2 ^ (bits - 1) ≤ value ∧ value < 2 ^ (bits - 1) then some value else none) := by
    unfold JavaText.parseNumber
    split
    next rest same =>
      split at same
      next minus => exact absurd (digits '-' (by simp)) (by decide)
      next plus => exact absurd (digits '+' (by simp)) (by decide)
      next =>
        cases same
        rfl
  have power : (2 : Int) ^ 9 ≤ 2 ^ (bits - 1) := pow_le_pow_right₀ (by decide) (by omega)
  rw [unsigned, digits_ascii digits]
  simp only [Option.bind_eq_bind, Option.bind_some, List.map_eq_nil_iff, nonempty, if_false, number]
  exact if_pos ⟨by omega, by omega⟩

private theorem split_quad {s : Text} {parts : List Text} (split : s.splitOn '.' = parts) (several : 1 < parts.length)
    (nonempty : ∀ part ∈ parts, part ≠ []) : JavaText.split '.' s = parts := by
  have inside : '.' ∈ s := by
    by_contra absent
    rw [List.splitOn_eq_singleton absent] at split
    rw [← split] at several
    exact absurd several (by simp)
  rw [JavaText.split, if_pos inside, split]
  refine List.rdropWhile_eq_self_iff.mpr fun last => ?_
  simpa using nonempty _ (List.getLast_mem last)

theorem shifted_sum {i j k l : Nat} (second : j ≤ 255) (third : k ≤ 255) (fourth : l ≤ 255) :
    (BitVec.ofInt 64 i <<< 24) + (BitVec.ofInt 32 j <<< 16).signExtend 64 + (BitVec.ofInt 32 k <<< 8).signExtend 64 +
      (BitVec.ofInt 32 l).signExtend 64 = BitVec.ofNat 64 (i * 2 ^ 24 + j * 2 ^ 16 + k * 2 ^ 8 + l) := by
  have extend (n : Nat) (small : n < 2 ^ 31) : (BitVec.ofNat 32 n).signExtend 64 = BitVec.ofNat 64 n := by
    rw [BitVec.signExtend_eq_setWidth_of_msb_false]
    · apply BitVec.eq_of_toNat_eq
      simp only [BitVec.toNat_setWidth, BitVec.toNat_ofNat]
      omega
    · rw [BitVec.msb_eq_decide]
      simp only [BitVec.toNat_ofNat, decide_eq_false_iff_not]
      omega
  have shift (w n by_ : Nat) : BitVec.ofNat w n <<< by_ = BitVec.ofNat w (n * 2 ^ by_) := by
    apply BitVec.eq_of_toNat_eq
    simp [BitVec.toNat_shiftLeft, Nat.shiftLeft_eq]
  simp only [BitVec.ofInt_natCast, shift]
  rw [extend _ (by omega), extend _ (by omega), extend _ (by omega), ← BitVec.ofNat_add, ← BitVec.ofNat_add,
    ← BitVec.ofNat_add]

theorem getInt_quad {s : Text} {n : Nat} (quad : DottedQuad s n) : getInt s = .ok (BitVec.ofNat 64 n) := by
  obtain ⟨a, b, c, d, i, j, k, l, split, first, second, third, fourth, rfl⟩ := quad
  have parts : JavaText.split '.' s = [a, b, c, d] := by
    refine split_quad split (by simp) ?_
    simp [first.nonempty, second.nonempty, third.nonempty, fourth.nonempty]
  simp only [getInt, parts, part, List.getElem?_cons_zero, List.getElem?_cons_succ, JavaText.parseLong,
    JavaText.parseInt,
    parseNumber_octet first (by decide : 9 < 64), parseNumber_octet second (by decide : 9 < 32),
    parseNumber_octet third (by decide : 9 < 32), parseNumber_octet fourth (by decide : 9 < 32)]
  exact congrArg Except.ok (shifted_sum second.small third.small fourth.small)

/-! ### Writing -/

private theorem octet_toString {n : Nat} (small : n < 256) : Octet (toString n).toList n := by
  have digits : (toString n).toList = Nat.toDigits 10 n := by simp
  refine ⟨?_, ?_, TunTexts.digits_toString n, ?_, by omega⟩ <;> rw [digits]
  · exact List.ne_nil_of_length_pos Nat.length_toDigits_pos
  · exact (Nat.length_toDigits_le_iff (by decide) (by decide)).mpr (by omega)
  · exact Nat.ofDigitChars_ten_toDigits

private theorem Octet.no_dot {s : Text} {n : Nat} (octet : Octet s n) : '.' ∉ s := by
  intro member
  exact absurd (octet.digits '.' member) (by decide)

theorem dottedQuad_dotted {n : Nat} (small : n < 2 ^ 32) : DottedQuad (dotted n).toList n := by
  have octet (m : Nat) : Octet (toString (m % 256)).toList (m % 256) := octet_toString (Nat.mod_lt _ (by decide))
  refine ⟨_, _, _, _, _, _, _, _, ?_, octet (n >>> 24), octet (n >>> 16), octet (n >>> 8), octet n, ?_⟩
  · have dots (m : Nat) := Octet.no_dot (octet m)
    rw [TunTexts.dotted_toList, List.splitOn_append_cons_self_of_not_mem (dots _),
      List.splitOn_append_cons_self_of_not_mem (dots _),
      List.splitOn_append_cons_self_of_not_mem (dots _), List.splitOn_eq_singleton (dots _)]
  · simp only [Nat.shiftRight_eq_div_pow]
    omega

/-! ### Masks -/

theorem maskLength_netmask {len : Nat} (few : len ≤ 32) :
    maskLength (BitVec.ofNat 64 (netmask len)) = some (len : Int) := by
  have each : ∀ len ≤ 32, maskLength (BitVec.ofNat 64 (netmask len)) = some (len : Int) := by decide +kernel
  exact each len few

/-- The address and mask of a route as the importer keeps them. -/
theorem cidrip_netmask {ip mask : Text} {len : Nat} (few : len ≤ 32) (quad : DottedQuad mask (netmask len)) :
    cidrip ip mask = .ok (ip ++ ['/'] ++ (toString len).toList) := by
  unfold cidrip calculateLenFromMask
  rw [getInt_quad quad]
  simp only [maskLength_netmask few, Option.elim_some]
  rfl

theorem cidrToIPAndNetmask_length {ip : Text} {len : Nat} (few : len ≤ 32) (slash : '/' ∉ ip) :
    cidrToIPAndNetmask (ip ++ ['/'] ++ (toString len).toList) =
      some (ip ++ [' ', ' '] ++ (dotted (netmask len)).toList) := by
  have number : ∀ len : Nat, len ≤ 32 → JavaText.parseInt (toString len).toList = some (len : Int) := by
    decide +kernel
  have plain : ∀ len : Nat, len ≤ 32 → '/' ∉ (toString len).toList ∧ (toString len).toList ≠ [] := by decide +kernel
  have parts : JavaText.split '/' (ip ++ ['/'] ++ (toString len).toList) = [ip, (toString len).toList] := by
    have inside : '/' ∈ ip ++ ['/'] ++ (toString len).toList := by simp
    have split : (ip ++ ['/'] ++ (toString len).toList).splitOn '/' = [ip, (toString len).toList] := by
      rw [List.append_assoc, List.singleton_append, List.splitOn_append_cons_self_of_not_mem slash,
        List.splitOn_eq_singleton (plain len few).1]
    rw [JavaText.split, if_pos inside, split]
    exact List.rdropWhile_eq_self_iff.mpr fun _ => by simp
  unfold cidrToIPAndNetmask
  rw [parts]
  simp only [List.length_cons, List.length_nil, number len few, Nat.reduceAdd, Nat.reduceEqDiff, if_false]
  rw [if_neg (by omega)]
  rfl

end RRoadVpn.Proofs.RouteTexts
