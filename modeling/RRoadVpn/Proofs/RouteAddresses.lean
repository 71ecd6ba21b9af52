import Mathlib.Data.Nat.Digits.Lemmas
import Mathlib.Tactic.Ring
import RRoadVpn.Library.AddressText
import RRoadVpn.TunService

/-! The texts of IPv6 routes. The loop begins at the right end and stops where only zero groups
are left, which the text does not show. -/

namespace RRoadVpn.Proofs.RouteAddresses
open Library AddressText
open RRoadVpn.OpenVPNService

/-! ### Joined texts -/

/-- The groups of a number, from the left, as they are printed. -/
def printed (r : Nat) : List (List Char) := (Nat.digits 65536 r).reverse.map (Nat.toDigits 16)

private theorem join_append (pieces : List (List Char)) (piece text : List Char) :
    [':'].intercalate (pieces ++ [piece ++ text]) = [':'].intercalate (pieces ++ [piece]) ++ text := by
  induction pieces with
  | nil => simp
  | cons first pieces ih =>
    rw [List.cons_append, List.cons_append, List.intercalate_cons_of_ne_nil (by simp),
      List.intercalate_cons_of_ne_nil (by simp),
      ih, ← List.append_assoc]

private theorem join_snoc (pieces : List (List Char)) (piece text : List Char) :
    [':'].intercalate (pieces ++ [piece ++ ':' :: text]) = [':'].intercalate (pieces ++ [piece] ++ [text]) := by
  induction pieces with
  | nil => simp [List.intercalate_cons_cons]
  | cons first pieces ih =>
    rw [List.cons_append, List.cons_append, List.cons_append, List.intercalate_cons_of_ne_nil (by simp),
      List.intercalate_cons_of_ne_nil (by simp), ih]

private theorem printed_step {r : Nat} (positive : 0 < r) :
    printed r = printed (r / 65536) ++ [Nat.toDigits 16 (r % 65536)] := by
  rw [printed, Nat.digits_def' (by decide) positive, List.reverse_cons, List.map_append]
  rfl

/-! ### The loop -/

private theorem digits_div {r fuel : Nat} (positive : 0 < r) (few : (Nat.digits 65536 r).length ≤ fuel + 1) :
    (Nat.digits 65536 (r / 65536)).length ≤ fuel := by
  rw [Nat.digits_def' (by decide) positive, List.length_cons] at few
  exact Nat.le_of_succ_le_succ few

private theorem shift_div (r : Nat) : r >>> 16 = r / 65536 := Nat.shiftRight_eq_div_pow r 16

/-- Once there is a text, the other groups are put in front of it. -/
theorem ipv6Parts_some {fuel r : Nat} (few : (Nat.digits 65536 r).length ≤ fuel) (text : String) (lastPart : Bool) :
    (IpAddress.ipv6Parts fuel r (some text) lastPart).map String.toList =
      some ([':'].intercalate (printed r ++ [text.toList])) := by
  induction fuel generalizing r text lastPart with
  | zero =>
    have none_ : r = 0 := Nat.digits_eq_nil_iff_eq_zero.mp (List.length_eq_zero_iff.mp (Nat.le_zero.mp few))
    simp [none_, IpAddress.ipv6Parts, printed]
  | succ fuel ih =>
    rw [IpAddress.ipv6Parts]
    split
    next none_ => simp [none_, printed]
    next some_ =>
      have positive := Nat.pos_of_ne_zero some_
      rw [shift_div, ih (digits_div positive few), printed_step positive, ← join_snoc]
      simp [IpAddress.hex]

/-- Zero groups at the right end are not shown, but for a double colon. -/
theorem ipv6Parts_none {fuel r : Nat} (few : (Nat.digits 65536 r).length ≤ fuel) (positive : 0 < r) :
    ∃ k q, r = 65536 ^ k * q ∧ q % 65536 ≠ 0 ∧ (IpAddress.ipv6Parts fuel r none false).map String.toList =
      some ([':'].intercalate (printed q) ++ "::".toList) := by
  induction fuel generalizing r with
  | zero =>
    exact absurd (Nat.digits_eq_nil_iff_eq_zero.mp (List.length_eq_zero_iff.mp (Nat.le_zero.mp few))) positive.ne'
  | succ fuel ih =>
    rw [IpAddress.ipv6Parts, if_neg positive.ne']
    have later := digits_div positive few
    by_cases part : r % 65536 = 0
    · have whole : r = 65536 * (r / 65536) := by omega
      obtain ⟨k, q, rest, low, text⟩ := ih later (by omega)
      refine ⟨k + 1, q, ?_, low, ?_⟩
      · rw [whole, rest]
        ring
      · simpa [part, shift_div] using text
    · refine ⟨0, r, by simp, part, ?_⟩
      simp only [part, if_false, Bool.false_eq_true]
      rw [shift_div, ipv6Parts_some later, printed_step positive, ← join_append]
      simp [IpAddress.hex]

/-- The printed groups are read as the groups. -/
theorem read_printed (r : Nat) :
    (printed r).Forall₂ (fun piece n => group piece = some n) (Nat.digits 65536 r).reverse := by
  rw [printed, List.forall₂_map_left_iff, List.forall₂_same]
  intro n member
  exact group_toDigits (Nat.digits_lt_base (by decide) (List.mem_reverse.mp member))

private theorem printed_nonempty {r : Nat} (positive : 0 < r) : printed r ≠ [] := by
  rw [printed_step positive]
  simp

section Address

variable {ip : IpAddress} (small : ip.netAddress < 2 ^ 128)
include small

private theorem few_digits : (Nat.digits 65536 ip.netAddress).length ≤ 8 :=
  (Nat.digits_length_le_iff (by decide) _).mpr small

private theorem text_low (low : ip.netAddress % 65536 ≠ 0) :
    ip.getIPv6Address.toList = [':'].intercalate (printed ip.netAddress) := by
  have positive : 0 < ip.netAddress := by omega
  have text := ipv6Parts_some (digits_div positive (few_digits small)) (IpAddress.hex (ip.netAddress % 65536)) false
  rw [← shift_div] at text
  have parts : IpAddress.ipv6Parts 8 ip.netAddress none true =
      IpAddress.ipv6Parts 7 (ip.netAddress >>> 16) (some (IpAddress.hex (ip.netAddress % 65536))) false := by
    rw [IpAddress.ipv6Parts, if_neg positive.ne']
    simp [low]
  rw [← parts, shift_div] at text
  obtain ⟨made, found, same⟩ := Option.map_eq_some_iff.mp text
  rw [IpAddress.getIPv6Address, found, Option.getD_some, same, printed_step positive, IpAddress.hex,
    String.toList_ofList]

private theorem text_zeros (positive : 0 < ip.netAddress) (zeros : ip.netAddress % 65536 = 0) :
    ∃ k q, ip.netAddress = 65536 ^ (k + 1) * q ∧ q % 65536 ≠ 0 ∧
      ip.getIPv6Address.toList = [':'].intercalate (printed q) ++ "::".toList := by
  have whole : ip.netAddress = 65536 * (ip.netAddress / 65536) := by omega
  obtain ⟨k, q, rest, low, text⟩ := ipv6Parts_none (digits_div positive (few_digits small)) (by omega)
  have parts : IpAddress.ipv6Parts 8 ip.netAddress none true =
      IpAddress.ipv6Parts 7 (ip.netAddress / 65536) none false := by
    rw [IpAddress.ipv6Parts, if_neg positive.ne', shift_div]
    simp [zeros]
  refine ⟨k, q, ?_, low, ?_⟩
  · rw [whole, rest]
    ring
  · rw [← parts] at text
    obtain ⟨made, found, same⟩ := Option.map_eq_some_iff.mp text
    rw [IpAddress.getIPv6Address, found, Option.getD_some, same]

/-- Without zeros at its right end an address is shown if it has all groups. -/
theorem denotes_low (low : ip.netAddress % 65536 ≠ 0) :
    Denotes ip.getIPv6Address.toList ip.netAddress ↔ (Nat.digits 65536 ip.netAddress).length = 8 := by
  have positive : 0 < ip.netAddress := by omega
  simp only [Denotes, text_low small low, shows_groups (read_printed _) (printed_nonempty positive),
    List.length_reverse]
  constructor
  · rintro ⟨groups, ⟨-, eight⟩, -⟩
    exact eight
  · intro eight
    exact ⟨_, ⟨rfl, eight⟩, by rw [List.reverse_reverse, Nat.ofDigits_digits]⟩

/-- With zeros there the double colon stands for those that are missing at the left end too. -/
theorem denotes_zeros (positive : 0 < ip.netAddress) (zeros : ip.netAddress % 65536 = 0) :
    Denotes ip.getIPv6Address.toList ip.netAddress ↔ (Nat.digits 65536 ip.netAddress).length = 8 := by
  obtain ⟨k, q, whole, low, text⟩ := text_zeros small positive zeros
  have rest : 0 < q := by omega
  have length : (Nat.digits 65536 ip.netAddress).length = k + 1 + (Nat.digits 65536 q).length := by
    rw [whole, Nat.digits_base_pow_mul (by decide) rest, List.length_append, List.length_replicate]
  have few := few_digits small
  simp only [Denotes, text, shows_front (read_printed q) (printed_nonempty rest), List.length_reverse]
  constructor
  · rintro ⟨groups, ⟨rfl, seven⟩, value⟩
    rw [List.reverse_append, List.reverse_reverse, List.reverse_replicate, Nat.ofDigits_append,
      Nat.ofDigits_replicate_zero,
      List.length_replicate, Nat.ofDigits_digits, Nat.zero_add, whole] at value
    have exponent := Nat.pow_right_injective (by decide : 2 ≤ 65536) (Nat.eq_of_mul_eq_mul_right rest value)
    omega
  · intro eight
    refine ⟨_, ⟨rfl, by omega⟩, ?_⟩
    rw [List.reverse_append, List.reverse_reverse, List.reverse_replicate, Nat.ofDigits_append,
      Nat.ofDigits_replicate_zero,
      List.length_replicate, Nat.ofDigits_digits, Nat.zero_add, whole]
    congr 2
    omega

end Address

/-- The text of an address is one of this address exactly when its first group is not zero, or
all are. -/
theorem denotes_exact (ip : IpAddress) (small : ip.netAddress < 2 ^ 128) :
    Denotes ip.getIPv6Address.toList ip.netAddress ↔ ip.netAddress = 0 ∨ 2 ^ 112 ≤ ip.netAddress := by
  by_cases none_ : ip.netAddress = 0
  · rw [none_]
    refine iff_of_true ⟨List.replicate 8 0, ?_, by decide⟩ (Or.inl rfl)
    have text : ip.getIPv6Address.toList = [] ++ "::".toList ++ [] := by
      simp [IpAddress.getIPv6Address, none_, IpAddress.ipv6Parts]
    rw [text]
    exact .short ⟨[], rfl, .nil⟩ (Or.inl ⟨[], rfl, .nil⟩) (Nat.zero_le 7)
  · have positive := Nat.pos_of_ne_zero none_
    have length : (Nat.digits 65536 ip.netAddress).length = 8 ↔ 2 ^ 112 ≤ ip.netAddress := by
      have few := few_digits small
      have seven := Nat.digits_length_le_iff (by decide : 1 < 65536) (k := 7) ip.netAddress
      omega
    rw [← length, or_iff_right none_]
    by_cases low : ip.netAddress % 65536 = 0
    · exact denotes_zeros small positive low
    · exact denotes_low small low

theorem denotes_exact_documentation :
    Denotes (IpAddress.getIPv6Address ⟨0x20010db8 <<< 96, 32, true, false⟩).toList (0x20010db8 <<< 96) :=
  (denotes_exact ⟨0x20010db8 <<< 96, 32, true, false⟩ (by decide)).mpr (Or.inr (by decide))

/-- The address of the host itself is written as one group. -/
theorem loopback_text : (IpAddress.getIPv6Address ⟨1, 128, true, false⟩).toList = ['1'] ∧
    ¬ Denotes (IpAddress.getIPv6Address ⟨1, 128, true, false⟩).toList 1 := by
  have text : (IpAddress.getIPv6Address ⟨1, 128, true, false⟩).toList = [':'].intercalate [['1']] := by decide +kernel
  have one : [['1']].Forall₂ (fun piece n => group piece = some n) [1] := .cons (by decide) .nil
  refine ⟨text, ?_⟩
  rintro ⟨groups, shows, -⟩
  rw [text, shows_groups one (List.cons_ne_nil _ _)] at shows
  exact absurd shows.2 (by decide)

end RRoadVpn.Proofs.RouteAddresses
