import Mathlib.Algebra.Order.Ring.Nat
import Mathlib.Order.Basic
import Mathlib.Tactic.Ring

/-! Dyadic blocks of natural numbers. Two of them are nested or apart, so of the
blocks that contain a block the smallest is unique: its most specific one. -/

namespace RRoadVpn.Library

/-- The `2 ^ bits` numbers from `index * 2 ^ bits` on. -/
structure Block where
  bits : Nat
  index : Nat
  deriving DecidableEq, Repr

namespace Block

def first (d : Block) : Nat := d.index * 2 ^ d.bits

def stop (d : Block) : Nat := (d.index + 1) * 2 ^ d.bits

def Contains (d : Block) (a : Nat) : Prop := d.first ≤ a ∧ a < d.stop

instance (d : Block) (a : Nat) : Decidable (d.Contains a) := inferInstanceAs (Decidable (_ ∧ _))

theorem stop_eq (d : Block) : d.stop = d.first + 2 ^ d.bits := by
  rw [stop, first, Nat.add_mul, Nat.one_mul]

theorem first_lt_stop (d : Block) : d.first < d.stop := by
  have positive : 0 < 2 ^ d.bits := Nat.two_pow_pos d.bits
  rw [stop_eq]
  omega

theorem ext_of_first {x y : Block} (bits : x.bits = y.bits) (first : x.first = y.first) : x = y := by
  obtain ⟨n, i⟩ := x
  obtain ⟨m, j⟩ := y
  cases bits
  have same : i = j := Nat.eq_of_mul_eq_mul_right (Nat.two_pow_pos n) first
  rw [same]

/-- Blocks are ordered by inclusion. -/
instance : PartialOrder Block where
  le x y := y.first ≤ x.first ∧ x.stop ≤ y.stop
  le_refl x := ⟨Nat.le_refl _, Nat.le_refl _⟩
  le_trans x y z := by
    intro xy yz
    exact ⟨Nat.le_trans yz.1 xy.1, Nat.le_trans xy.2 yz.2⟩
  le_antisymm x y := by
    intro xy yx
    have first : x.first = y.first := Nat.le_antisymm yx.1 xy.1
    have stop : x.stop = y.stop := Nat.le_antisymm xy.2 yx.2
    apply ext_of_first _ first
    rw [stop_eq, stop_eq, first] at stop
    exact Nat.pow_right_injective (Nat.le_refl 2) (Nat.add_left_cancel stop)

theorem le_def {x y : Block} : x ≤ y ↔ y.first ≤ x.first ∧ x.stop ≤ y.stop := Iff.rfl

instance (x y : Block) : Decidable (x ≤ y) := decidable_of_iff _ le_def.symm

theorem bits_le_of_le {x y : Block} (inside : x ≤ y) : x.bits ≤ y.bits := by
  have sizes : 2 ^ x.bits ≤ 2 ^ y.bits := by
    obtain ⟨first, stop⟩ := inside
    rw [stop_eq, stop_eq] at stop
    omega
  exact (Nat.pow_le_pow_iff_right (by decide)).mp sizes

theorem eq_of_le {x y : Block} (inside : x ≤ y) (bits : y.bits ≤ x.bits) : x = y := by
  have same : x.bits = y.bits := Nat.le_antisymm (bits_le_of_le inside) bits
  apply ext_of_first same
  obtain ⟨first, stop⟩ := inside
  rw [stop_eq, stop_eq, same] at stop
  omega

/-- Blocks are nested or apart. -/
theorem nested_or_apart {x y : Block} (bits : x.bits ≤ y.bits) : x ≤ y ∨ x.stop ≤ y.first ∨ y.stop ≤ x.first := by
  obtain ⟨n, i⟩ := x
  obtain ⟨m, j⟩ := y
  obtain ⟨k, rfl⟩ := Nat.exists_eq_add_of_le bits
  simp only [le_def, first, stop, pow_add]
  have scale (u v : Nat) (le : u ≤ v) : u * 2 ^ n ≤ v * 2 ^ n := Nat.mul_le_mul_right _ le
  have split (u : Nat) : u * (2 ^ n * 2 ^ k) = u * 2 ^ k * 2 ^ n := by ring
  simp only [split]
  by_cases before : i + 1 ≤ j * 2 ^ k
  · exact Or.inr (Or.inl (scale _ _ before))
  · by_cases after : (j + 1) * 2 ^ k ≤ i
    · exact Or.inr (Or.inr (scale _ _ after))
    · exact Or.inl ⟨scale _ _ (by omega), scale _ _ (by omega)⟩

theorem le_of_overlap {x y : Block} (bits : x.bits ≤ y.bits) (left : x.first < y.stop) (right : y.first < x.stop) :
    x ≤ y := by
  rcases nested_or_apart bits with inside | before | after
  · exact inside
  · omega
  · omega

theorem le_of_first {x y : Block} (bits : x.bits ≤ y.bits) (same : x.first = y.first) : x ≤ y := by
  have := first_lt_stop x
  have := first_lt_stop y
  exact le_of_overlap bits (by omega) (by omega)

/-- Of two blocks that share a number, one is inside the other. -/
theorem le_or_lt_of_overlap {x y : Block} (left : x.first < y.stop) (right : y.first < x.stop) : x ≤ y ∨ y < x := by
  rcases Nat.lt_or_ge y.bits x.bits with smaller | bits
  · have inside := le_of_overlap (Nat.le_of_lt smaller) right left
    refine Or.inr (lt_of_le_of_ne inside ?_)
    rintro rfl
    exact Nat.lt_irrefl _ smaller
  · exact Or.inl (le_of_overlap bits left right)

/-- A block that starts later inside another is smaller. -/
theorem lt_of_later {x y : Block} (later : y.first < x.first) (overlap : x.first < y.stop) : x < y := by
  have := first_lt_stop x
  rcases le_or_lt_of_overlap (x := y) (y := x) (by omega) overlap with around | inside
  · exact absurd around.1 (by omega)
  · exact inside

/-! ### Halves -/

def left (d : Block) : Block := ⟨d.bits - 1, 2 * d.index⟩

def right (d : Block) : Block := ⟨d.bits - 1, 2 * d.index + 1⟩

def IsRight (d : Block) : Prop := d.index % 2 = 1

def parent (d : Block) : Block := ⟨d.bits + 1, d.index / 2⟩

instance (d : Block) : Decidable d.IsRight := inferInstanceAs (Decidable (_ = _))

theorem right_isRight (d : Block) : d.right.IsRight := by
  simp [IsRight, right]

theorem double {d : Block} (large : 0 < d.bits) (u : Nat) : u * 2 ^ d.bits = 2 * u * 2 ^ (d.bits - 1) := by
  obtain ⟨n, same⟩ := Nat.exists_eq_add_of_lt large
  rw [Nat.zero_add] at same
  rw [same, pow_succ, Nat.add_sub_cancel]
  ring

theorem left_first {d : Block} (large : 0 < d.bits) : d.left.first = d.first := (double large d.index).symm

theorem right_first {d : Block} : d.right.first = d.left.stop := rfl

theorem right_stop {d : Block} (large : 0 < d.bits) : d.right.stop = d.stop := (double large (d.index + 1)).symm

theorem left_le {d : Block} (large : 0 < d.bits) : d.left ≤ d := by
  have := first_lt_stop d.right
  rw [right_first, right_stop large] at this
  exact ⟨Nat.le_of_eq (left_first large).symm, Nat.le_of_lt this⟩

theorem right_le {d : Block} (large : 0 < d.bits) : d.right ≤ d := by
  have := first_lt_stop d.left
  rw [← right_first, left_first large] at this
  exact ⟨Nat.le_of_lt this, Nat.le_of_eq (right_stop large)⟩

theorem bits_lt_of_lt {x d : Block} (smaller : x < d) : x.bits < d.bits := by
  rcases Nat.lt_or_ge x.bits d.bits with less | more
  · exact less
  · exact absurd (eq_of_le smaller.le more) smaller.ne

/-- A smaller block inside is inside one of the halves. -/
theorem le_half {x d : Block} (smaller : x < d) : x ≤ d.left ∨ x ≤ d.right := by
  have bits := bits_lt_of_lt smaller
  have large : 0 < d.bits := by omega
  have half : x.bits ≤ d.bits - 1 := by omega
  obtain ⟨first, stop⟩ := smaller.le
  have := first_lt_stop x
  rcases nested_or_apart (y := d.left) half with inside | before | after
  · exact Or.inl inside
  · rw [left_first large] at before
    omega
  · refine Or.inr (le_of_overlap half ?_ ?_)
    · rw [right_stop large]
      omega
    · rw [right_first]
      omega

theorem not_isRight {x d : Block} (smaller : x < d) (same : x.first = d.first) : ¬ x.IsRight := by
  have bits := bits_lt_of_lt smaller
  obtain ⟨k, length⟩ := Nat.exists_eq_add_of_lt bits
  have shifted : x.index = d.index * 2 ^ (k + 1) := by
    apply Nat.eq_of_mul_eq_mul_right (Nat.two_pow_pos x.bits)
    rw [first, first, length] at same
    rw [same]
    ring
  have even : x.index = 2 * (d.index * 2 ^ k) := by
    rw [shifted, pow_succ]
    ring
  unfold IsRight
  omega

theorem parent_le {x d : Block} (smaller : x < d) : x.parent ≤ d := by
  have bits := bits_lt_of_lt smaller
  have above : x ≤ x.parent := by
    have low : 2 * (x.index / 2) ≤ x.index := by omega
    have high : x.index + 1 ≤ 2 * (x.index / 2 + 1) := by omega
    have scale (u v : Nat) (le : u ≤ v) : u * 2 ^ x.bits ≤ v * 2 ^ x.bits := Nat.mul_le_mul_right _ le
    have doubled (u : Nat) : u * 2 ^ (x.bits + 1) = 2 * u * 2 ^ x.bits := by rw [pow_succ]; ring
    refine ⟨?_, ?_⟩
    · rw [first, first, parent, doubled]
      exact scale _ _ low
    · rw [stop, stop, parent, doubled]
      exact scale _ _ high
  have := first_lt_stop x
  obtain ⟨first, stop⟩ := smaller.le
  obtain ⟨first', stop'⟩ := above
  exact le_of_overlap bits (by omega) (by omega)

theorem le_of_contains {x y : Block} {a : Nat} (bits : x.bits ≤ y.bits) (left : x.Contains a) (right : y.Contains a) :
    x ≤ y := by
  obtain ⟨first, stop⟩ := left
  obtain ⟨first', stop'⟩ := right
  exact le_of_overlap bits (by omega) (by omega)

/-! ### The order of the first numbers, smaller blocks first -/

def Precedes (x y : Block) : Prop := x.first < y.first ∨ (x.first = y.first ∧ x.bits ≤ y.bits)

theorem Precedes.le {x y : Block} (order : Precedes x y) (same : x.first = y.first) : x ≤ y := by
  rcases order with before | ⟨first, bits⟩
  · omega
  · exact le_of_first bits first

theorem Precedes.first_le {x y : Block} (order : Precedes x y) : x.first ≤ y.first := by
  rcases order with before | ⟨first, bits⟩ <;> omega

theorem Precedes.first_eq {x y : Block} (order : Precedes x y) (contains : y.Contains x.first) : x.first = y.first :=
  Nat.le_antisymm order.first_le contains.1

def point (a : Nat) : Block := ⟨0, a⟩

theorem point_le_iff {a : Nat} {d : Block} : point a ≤ d ↔ d.Contains a := by
  simp only [le_def, Contains, point, first, stop]
  omega

end Block

end RRoadVpn.Library
