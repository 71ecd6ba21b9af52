import RRoadVpn.Library.LongestPrefix
import RRoadVpn.NetworkSpace

/-! Networks as dyadic blocks. Inside one address family the comparisons of
`IpAddress` are comparisons of blocks, and `split` gives the halves. -/

namespace RRoadVpn.Proofs.NetworkBlocks
open Library IpAddress

def block (ip : IpAddress) : Block := ⟨ip.numBits, ip.netAddress / 2 ^ ip.numBits⟩

private theorem clearBit_eq (q n : Nat) : clearBit (q * 2 ^ n) n = q / 2 * 2 ^ (n + 1) := by
  have quotient : q * 2 ^ n / 2 ^ n = q := Nat.mul_div_cancel q (Nat.two_pow_pos n)
  have doubled : q / 2 * 2 ^ (n + 1) = 2 * (q / 2) * 2 ^ n := by rw [pow_succ]; ring
  rw [clearBit, Nat.testBit_eq_decide_div_mod_eq, quotient, doubled]
  rcases Nat.mod_two_eq_zero_or_one q with even | odd
  · have same : 2 * (q / 2) = q := by omega
    rw [same, if_neg (by simp [even])]
  · have same : q = 2 * (q / 2) + 1 := by omega
    rw [if_pos (by simp [odd])]
    conv_lhs => rw [same, Nat.add_mul, Nat.one_mul, Nat.add_sub_cancel]

private theorem setBit_eq (q n : Nat) :
    setBit (q * 2 ^ n + (2 ^ n - 1)) n = q / 2 * 2 ^ (n + 1) + (2 ^ (n + 1) - 1) := by
  have positive : 0 < 2 ^ n := Nat.two_pow_pos n
  have quotient : (q * 2 ^ n + (2 ^ n - 1)) / 2 ^ n = q := by
    rw [Nat.add_comm, Nat.add_mul_div_right _ _ positive, Nat.div_eq_of_lt (by omega), Nat.zero_add]
  have doubled : q / 2 * 2 ^ (n + 1) = 2 * (q / 2) * 2 ^ n := by rw [pow_succ]; ring
  have twice : 2 ^ (n + 1) = 2 ^ n + 2 ^ n := by rw [pow_succ]; ring
  rw [setBit, Nat.testBit_eq_decide_div_mod_eq, quotient, doubled, twice]
  rcases Nat.mod_two_eq_zero_or_one q with even | odd
  · have same : 2 * (q / 2) = q := by omega
    rw [same, if_neg (by simp [even])]
    omega
  · have same : q = 2 * (q / 2) + 1 := by omega
    rw [if_pos (by simp [odd])]
    have split : q * 2 ^ n = 2 * (q / 2) * 2 ^ n + 2 ^ n := by
      conv_lhs => rw [same, Nat.add_mul, Nat.one_mul]
    omega

theorem getFirstAddress_eq (ip : IpAddress) : ip.getFirstAddress = (block ip).first := by
  have cleared (n : Nat) : (List.range n).foldl clearBit ip.netAddress = ip.netAddress / 2 ^ n * 2 ^ n := by
    induction n with
    | zero => simp
    | succ n ih => rw [List.range_succ, List.foldl_append, ih, List.foldl_cons, List.foldl_nil, clearBit_eq,
        Nat.div_div_eq_div_mul, pow_succ]
  exact cleared ip.numBits

theorem getLastAddress_eq (ip : IpAddress) : ip.getLastAddress + 1 = (block ip).stop := by
  have set (n : Nat) : (List.range n).foldl setBit ip.netAddress = ip.netAddress / 2 ^ n * 2 ^ n + (2 ^ n - 1) := by
    induction n with
    | zero => simp
    | succ n ih => rw [List.range_succ, List.foldl_append, ih, List.foldl_cons, List.foldl_nil, setBit_eq,
        Nat.div_div_eq_div_mul, pow_succ]
  have last : ip.getLastAddress = ip.netAddress / 2 ^ ip.numBits * 2 ^ ip.numBits + (2 ^ ip.numBits - 1) :=
    set ip.numBits
  have positive : 0 < 2 ^ ip.numBits := Nat.two_pow_pos ip.numBits
  rw [Block.stop_eq]
  show ip.getLastAddress + 1 = ip.netAddress / 2 ^ ip.numBits * 2 ^ ip.numBits + 2 ^ ip.numBits
  omega

def width (v4 : Bool) : Nat := if v4 then 32 else 128

structure Family (v4 : Bool) (ip : IpAddress) : Prop where
  isV4 : ip.isV4 = v4
  networkMask : ip.networkMask ≤ width v4

variable {v4 : Bool} {x y : IpAddress}

private theorem numBits_eq (family : Family v4 x) : x.numBits + x.networkMask = width v4 := by
  have mask := family.networkMask
  unfold numBits
  rw [family.isV4]
  cases v4 <;> simp [width] at mask ⊢ <;> omega

theorem block_bits (ip : IpAddress) : (block ip).bits = ip.numBits := rfl

theorem mask_lt_iff (first : Family v4 x) (second : Family v4 y) :
    y.networkMask < x.networkMask ↔ (block x).bits < (block y).bits := by
  have := numBits_eq first
  have := numBits_eq second
  rw [block_bits, block_bits]
  omega

theorem mask_eq_iff (first : Family v4 x) (second : Family v4 y) :
    y.networkMask = x.networkMask ↔ (block x).bits = (block y).bits := by
  have := numBits_eq first
  have := numBits_eq second
  rw [block_bits, block_bits]
  omega

/-- Queue order: the earlier network, and of networks that start together the one with the longer mask. -/
theorem compareTo_ne_gt_iff : x.compareTo y ≠ .gt ↔ (block x).first < (block y).first ∨
    ((block x).first = (block y).first ∧ y.networkMask ≤ x.networkMask) := by
  unfold compareTo
  rw [getFirstAddress_eq, getFirstAddress_eq]
  split
  next equal =>
    rw [Nat.compare_eq_eq] at equal
    split
    next smaller => simp [equal, Nat.le_of_lt smaller]
    next notSmaller =>
      split
      next even => simp [equal, even]
      next odd =>
        simp only [ne_eq, not_true_eq_false, false_iff, not_or, not_and]
        exact ⟨by omega, fun _ => by omega⟩
  next comp other =>
    cases found : compare (block x).first (block y).first with
    | eq => exact absurd found other
    | lt =>
      rw [Nat.compare_eq_lt] at found
      simp [found]
    | gt =>
      rw [Nat.compare_eq_gt] at found
      simp only [ne_eq, not_true_eq_false, false_iff, not_or, not_and]
      exact ⟨by omega, fun _ => by omega⟩

theorem compareTo_ne_gt (first : Family v4 x) (second : Family v4 y) :
    x.compareTo y ≠ .gt ↔ (block x).first < (block y).first ∨
      ((block x).first = (block y).first ∧ (block x).bits ≤ (block y).bits) := by
  have bits := mask_lt_iff second first
  rw [compareTo_ne_gt_iff]
  refine or_congr_right (and_congr_right fun _ => ?_)
  omega

private theorem block_eq_iff :
    block x = block y ↔ (block x).first = (block y).first ∧ (block x).bits = (block y).bits := by
  constructor
  · intro same
    rw [same]
    exact ⟨rfl, rfl⟩
  · rintro ⟨first, bits⟩
    exact Block.ext_of_first bits first

theorem compareTo_eq_iff : x.compareTo y = .eq ↔ x.getFirstAddress = y.getFirstAddress ∧
    x.networkMask = y.networkMask := by
  unfold compareTo
  split
  next equal =>
    rw [Nat.compare_eq_eq] at equal
    split
    next smaller =>
      simp only [reduceCtorEq, false_iff, not_and]
      omega
    next =>
      split
      next even => simp [equal, even]
      next odd => simp [equal, Ne.symm odd]
  next comp other =>
    have apart : x.getFirstAddress ≠ y.getFirstAddress := fun same => other (Nat.compare_eq_eq.mpr same)
    simp only [apart, false_and, iff_false]
    exact other

theorem compareTo_eq (first : Family v4 x) (second : Family v4 y) : x.compareTo y = .eq ↔ block x = block y := by
  rw [block_eq_iff, ← mask_eq_iff first second, compareTo_eq_iff, getFirstAddress_eq, getFirstAddress_eq,
    eq_comm (a := x.networkMask)]

/-- `compareTo` is a lexicographic comparison, and so a total order up to equal blocks. -/
theorem compareTo_lex : IpAddress.compareTo =
    compareLex (compareOn getFirstAddress) fun x y => compareOn IpAddress.networkMask y x := by
  funext x y
  unfold compareTo compareLex compareOn
  cases compare x.getFirstAddress y.getFirstAddress with
  | lt => rfl
  | gt => rfl
  | eq =>
    change (if x.networkMask > y.networkMask then Ordering.lt else _) = compare y.networkMask x.networkMask
    rcases Nat.lt_trichotomy x.networkMask y.networkMask with less | same | more
    · rw [if_neg (by omega), if_neg (by omega), Nat.compare_eq_gt.mpr less]
    · rw [if_neg (by omega), if_pos same.symm, Nat.compare_eq_eq.mpr same.symm]
    · rw [if_pos more, Nat.compare_eq_lt.mpr more]

instance : Std.TransCmp IpAddress.compareTo := by
  rw [compareTo_lex]
  infer_instance

theorem equals_iff_first : x.equals y = true ↔ x.networkMask = y.networkMask ∧ (block x).first = (block y).first := by
  rw [equals, getFirstAddress_eq, getFirstAddress_eq, Bool.and_eq_true, beq_iff_eq, beq_iff_eq]
  exact and_congr_right fun _ => eq_comm

theorem equals_iff (first : Family v4 x) (second : Family v4 y) : x.equals y = true ↔ block x = block y := by
  rw [block_eq_iff, equals_iff_first, ← mask_eq_iff first second, and_comm, eq_comm (a := x.networkMask)]

theorem block_of_first {d : Block} (bits : x.numBits = d.bits) (first : x.netAddress = d.first) : block x = d := by
  apply Block.ext_of_first bits
  show x.netAddress / 2 ^ x.numBits * 2 ^ x.numBits = d.first
  rw [bits, first, Block.first, Nat.mul_div_cancel _ (Nat.two_pow_pos d.bits)]

/-- The halves of a network that has any. -/
structure Halves (v4 : Bool) (x : IpAddress) : Prop where
  family : Family v4 x.split.1
  family' : Family v4 x.split.2
  left : block x.split.1 = (block x).left
  right : block x.split.2 = (block x).right
  included : x.split.1.included = x.included
  included' : x.split.2.included = x.included

theorem split_halves (family : Family v4 x) (large : 0 < (block x).bits) : Halves v4 x := by
  have mask := numBits_eq family
  have longer : x.networkMask + 1 ≤ width v4 := by
    rw [block_bits] at large
    omega
  have first : Family v4 x.split.1 := ⟨family.isV4, longer⟩
  have second : Family v4 x.split.2 := ⟨family.isV4, longer⟩
  have left : block x.split.1 = (block x).left := by
    apply block_of_first
    · have mask' : x.split.1.numBits + (x.networkMask + 1) = width v4 := numBits_eq first
      show x.split.1.numBits = x.numBits - 1
      omega
    · rw [Block.left_first large, ← getFirstAddress_eq]
      rfl
  have right : block x.split.2 = (block x).right := by
    apply block_of_first
    · have mask' : x.split.2.numBits + (x.networkMask + 1) = width v4 := numBits_eq second
      show x.split.2.numBits = x.numBits - 1
      omega
    · rw [Block.right_first, ← left, ← getLastAddress_eq]
      rfl
  exact ⟨first, second, left, right, rfl, rfl⟩

theorem containsNet_iff : x.containsNet y = true ↔ block y ≤ block x := by
  have last := getLastAddress_eq x
  have last' := getLastAddress_eq y
  rw [containsNet, Bool.and_eq_true, decide_eq_true_iff, decide_eq_true_iff, Block.le_def, getFirstAddress_eq,
    getFirstAddress_eq]
  omega

end RRoadVpn.Proofs.NetworkBlocks
