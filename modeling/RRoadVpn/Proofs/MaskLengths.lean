import RRoadVpn.Proofs.ImportErrors

/-! The length of a mask for every text that is read as an address. The bit added to end the
loop is gone when the parts of the text add up to its negative. -/

namespace RRoadVpn.Proofs.MaskLengths
open RRoadVpn.Library RRoadVpn.ConfigParser RRoadVpn.Proofs.ImportErrors
open JavaText (Text)

/-! ### The loop -/

theorem lenZeros_odd {fuel zeros : Nat} {netmask ones : BitVec 64}
    (ended : lenZeros fuel netmask = some (zeros, ones)) :
    ones &&& 1 ≠ 0 := by
  induction fuel generalizing netmask zeros with
  | zero => cases ended
  | succ fuel ih =>
    rw [lenZeros] at ended
    split at ended
    next =>
      obtain ⟨⟨left, last⟩, later, same⟩ := Option.map_eq_some_iff.mp ended
      cases same
      exact ih later
    next odd =>
      cases ended
      exact odd

theorem lenZeros_zero (fuel : Nat) : lenZeros fuel 0 = none := by
  induction fuel with
  | zero => rfl
  | succ fuel ih =>
    have shifted : (0 : BitVec 64).sshiftRight 1 = 0 := by decide
    rw [lenZeros, if_pos (by decide), shifted, ih]
    rfl

theorem shifted_out {zeros : Nat} (many : 32 < zeros) : (0x1ffffffff : BitVec 64).sshiftRight zeros = 0 := by
  have positive : (0x1ffffffff : BitVec 64).msb = false := by decide
  rw [BitVec.sshiftRight_eq_of_msb_false positive]
  refine BitVec.eq_of_toNat_eq ?_
  rw [BitVec.toNat_ushiftRight, Nat.shiftRight_eq_div_pow]
  refine Nat.div_eq_of_lt ?_
  calc (0x1ffffffff : BitVec 64).toNat < 2 ^ 33 := by decide
    _ ≤ 2 ^ zeros := Nat.pow_le_pow_right (by decide) many

private theorem maskLength_le {netmask : BitVec 64} {len : Int} (ended : maskLength netmask = some len) :
    0 ≤ len ∧ len ≤ 32 := by
  obtain ⟨⟨zeros, ones⟩, found, same⟩ := Option.map_eq_some_iff.mp ended
  have odd := lenZeros_odd found
  simp only at same
  split at same
  next => omega
  next contiguous =>
    have few : zeros ≤ 32 := by
      by_contra many
      rw [not_not.mp contiguous, shifted_out (by omega)] at odd
      exact odd (by decide)
    omega

/-! ### Texts -/

def wrapped (n : Int) : Int := n.bmod (2 ^ 32)

/-- The numbers that a text has for its parts; parts after the fourth are not read. -/
structure Numbers (ipaddr : Text) (first second third fourth : Int) : Prop where
  first : part JavaText.parseLong (JavaText.split '.' ipaddr) 0 = .ok first
  second : part JavaText.parseInt (JavaText.split '.' ipaddr) 1 = .ok second
  third : part JavaText.parseInt (JavaText.split '.' ipaddr) 2 = .ok third
  fourth : part JavaText.parseInt (JavaText.split '.' ipaddr) 3 = .ok fourth

def sum (first second third fourth : Int) : Int :=
  first * 2 ^ 24 + wrapped (second * 2 ^ 16) + wrapped (third * 2 ^ 8) + wrapped fourth

private theorem ofInt_shiftLeft {w : Nat} (n : Int) (k : Nat) :
    BitVec.ofInt w n <<< k = BitVec.ofInt w (n * 2 ^ k) := by
  rw [BitVec.shiftLeft_eq_mul_twoPow, BitVec.ofInt_mul]
  congr 1
  refine BitVec.eq_of_toNat_eq ?_
  rw [BitVec.toNat_twoPow, BitVec.toNat_ofInt]
  norm_cast

private theorem signExtend_ofInt (n : Int) : (BitVec.ofInt 32 n).signExtend 64 = BitVec.ofInt 64 (wrapped n) := by
  rw [BitVec.signExtend, BitVec.toInt_ofInt]
  rfl

private theorem Numbers.getInt {ipaddr : Text} {first second third fourth : Int}
    (numbers : Numbers ipaddr first second third fourth) :
    getInt ipaddr = .ok (BitVec.ofInt 64 (sum first second third fourth)) := by
  simp only [ConfigParser.getInt, numbers.first, numbers.second, numbers.third, numbers.fourth, bind, Except.bind, pure,
    Except.pure, ofInt_shiftLeft, signExtend_ofInt, sum, BitVec.ofInt_add]

private theorem getInt_iff (ipaddr : Text) :
    (∃ ip, ConfigParser.getInt ipaddr = .ok ip) ↔
      ∃ first second third fourth, Numbers ipaddr first second third fourth := by
  constructor
  · rintro ⟨ip, read⟩
    simp only [ConfigParser.getInt, exceptBind_ok] at read
    obtain ⟨first, one, second, two, third, three, fourth, four, -⟩ := read
    exact ⟨first, second, third, fourth, one, two, three, four⟩
  · rintro ⟨first, second, third, fourth, numbers⟩
    exact ⟨_, numbers.getInt⟩

/-! ### The length -/

/-- The parts add up to the negative of the bit that is to end the loop. -/
def Cancels (first second third fourth : Int) : Prop := sum first second third fourth % 2 ^ 64 = 2 ^ 64 - 2 ^ 32

private theorem ofInt_eq_iff (n : Int) : BitVec.ofInt 64 n = -bit33 ↔ n % 2 ^ 64 = 2 ^ 64 - 2 ^ 32 := by
  rw [← BitVec.toNat_inj, BitVec.toNat_ofInt, show (-bit33).toNat = 2 ^ 64 - 2 ^ 32 by decide]
  omega

/-- The texts that are read are those with four numbers in front. Such a text has a length from 0
to 32, unless its parts cancel the bit that is added to end the loop; then the loop has no end. -/
theorem length_exact (mask : Text) :
    ((∃ ip, ConfigParser.getInt mask = .ok ip) ↔
      ∃ first second third fourth, Numbers mask first second third fourth) ∧
    ∀ first second third fourth, Numbers mask first second third fourth →
      ((∃ len, calculateLenFromMask mask = .ok len ∧ 0 ≤ len ∧ len ≤ 32) ↔ ¬ Cancels first second third fourth) ∧
        (Cancels first second third fourth →
          ∀ fuel, lenZeros fuel (BitVec.ofInt 64 (sum first second third fourth) + bit33) = none) := by
  refine ⟨getInt_iff mask, fun first second third fourth numbers => ?_⟩
  have endless := maskLength_eq_none (BitVec.ofInt 64 (sum first second third fourth))
  rw [ofInt_eq_iff, ← Cancels] at endless
  constructor
  · rw [calculateLenFromMask, numbers.getInt]
    simp only
    cases found : maskLength (BitVec.ofInt 64 (sum first second third fourth)) with
    | none =>
      refine iff_of_false ?_ (not_not.mpr (endless.mp found))
      rintro ⟨len, ended, -⟩
      cases ended
    | some len =>
      refine iff_of_true ⟨len, rfl, maskLength_le found⟩ fun cancels => ?_
      rw [endless.mpr cancels] at found
      cases found
  · intro cancels fuel
    rw [(ofInt_eq_iff _).mpr cancels, BitVec.add_comm, ← BitVec.sub_eq_add_neg, BitVec.sub_self]
    exact lenZeros_zero fuel

theorem length_exact_overflow : (∃ ip, ConfigParser.getInt "255.255.-1.300".toList = .ok ip) ∧
    ((∃ len, calculateLenFromMask "255.255.-1.300".toList = .ok len ∧ 0 ≤ len ∧ len ≤ 32) ↔ ¬ Cancels 255 255 (-1) 300) ∧
      (Cancels 255 255 (-1) 300 → ∀ fuel, lenZeros fuel (BitVec.ofInt 64 (sum 255 255 (-1) 300) + bit33) = none) := by
  have numbers : Numbers "255.255.-1.300".toList 255 255 (-1) 300 :=
    ⟨by decide +kernel, by decide +kernel, by decide +kernel, by decide +kernel⟩
  obtain ⟨read, lengths⟩ := length_exact "255.255.-1.300".toList
  exact ⟨read.mpr ⟨_, _, _, _, numbers⟩, lengths _ _ _ _ numbers⟩

/-- A first part of -256 is read, and the loop does not end. -/
theorem negative_part_is_endless :
    (∃ ip, getInt "-256.0.0.0".toList = .ok ip) ∧
      ¬ ∃ len, calculateLenFromMask "-256.0.0.0".toList = .ok len ∧ 0 ≤ len ∧ len ≤ 32 := by
  have numbers : Numbers "-256.0.0.0".toList (-256) 0 0 0 :=
    ⟨by decide +kernel, by decide +kernel, by decide +kernel, by decide +kernel⟩
  have endless : calculateLenFromMask "-256.0.0.0".toList = .error .endless := by decide +kernel
  refine ⟨⟨_, numbers.getInt⟩, ?_⟩
  rintro ⟨len, ended, -⟩
  rw [endless] at ended
  cases ended

end RRoadVpn.Proofs.MaskLengths
