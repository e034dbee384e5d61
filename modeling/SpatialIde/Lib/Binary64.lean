import Mathlib.Algebra.Group.Int.Defs
import Mathlib.Algebra.GroupWithZero.Nat
import Mathlib.Data.Int.Basic
import Mathlib.Tactic.Common

/-! # Binary64 numbers by their bits

An IEEE 754 binary64 value is its 64 bits.  Comparison of two values that are
not NaN is the comparison of their sign-magnitude integers (`key`), in which
both zeros are `0`; every order fact below is a fact of `Int` through it.

* `eq`, `le` and `lt` are the IEEE comparisons: false as soon as a NaN is
  involved (`eq_iff`, `le_iff`, `lt_iff`);
* `nextUp` and `nextDown` are the neighbours: from a finite value they move the
  key by one (`key_nextUp`, `key_nextDown`).
-/

namespace Lib

/-- A binary64 value. -/
structure F64 where
  bits : UInt64
  deriving DecidableEq, Repr, Inhabited

namespace F64

/-- The bits below the sign. -/
def magnitude (x : F64) : Nat := x.bits.toNat % 2 ^ 63

/-- The sign bit. -/
def negative (x : F64) : Bool := decide (2 ^ 63 ≤ x.bits.toNat)

/-- The magnitude of the infinities: larger magnitudes are NaN, smaller ones are finite. -/
def infMagnitude : Nat := 0x7FF0000000000000

def isNaN (x : F64) : Bool := decide (infMagnitude < x.magnitude)

def isFinite (x : F64) : Bool := decide (x.magnitude < infMagnitude)

/-- The sign-magnitude integer, which orders the values that are not NaN. -/
def key (x : F64) : Int := if x.negative then -(x.magnitude : Int) else x.magnitude

/-- IEEE equality: NaN equals nothing, the zeros are equal. -/
def eq (x y : F64) : Bool := !x.isNaN && !y.isNaN && decide (x.key = y.key)

/-- IEEE `≤`: false as soon as a NaN is involved. -/
def le (x y : F64) : Bool := !x.isNaN && !y.isNaN && decide (x.key ≤ y.key)

/-- IEEE `<`: false as soon as a NaN is involved. -/
def lt (x y : F64) : Bool := !x.isNaN && !y.isNaN && decide (x.key < y.key)

def zero : F64 := ⟨0⟩

def posInf : F64 := ⟨0x7FF0000000000000⟩

def negInf : F64 := ⟨0xFFF0000000000000⟩

/-- `next_up`: the least value above, a zero of either sign stepping to the least subnormal. -/
def nextUp (x : F64) : F64 :=
  if x.isNaN || x.eq posInf then x
  else if x.eq zero then ⟨1⟩
  else ⟨if zero.lt x then x.bits + 1 else x.bits - 1⟩

/-- `next_down`: the greatest value below. -/
def nextDown (x : F64) : F64 :=
  if x.isNaN || x.eq negInf then x
  else if x.eq zero then ⟨0x8000000000000001⟩
  else ⟨if zero.lt x then x.bits - 1 else x.bits + 1⟩

theorem isNaN_eq_false_of_isFinite {x : F64} (h : x.isFinite = true) : x.isNaN = false := by
  simp only [isFinite, isNaN, decide_eq_true_eq, decide_eq_false_iff_not] at *
  omega

theorem eq_iff {x y : F64} :
    x.eq y = true ↔ x.isNaN = false ∧ y.isNaN = false ∧ x.key = y.key := by
  simp [eq, and_assoc]

theorem le_iff {x y : F64} :
    x.le y = true ↔ x.isNaN = false ∧ y.isNaN = false ∧ x.key ≤ y.key := by
  simp [le, and_assoc]

theorem lt_iff {x y : F64} :
    x.lt y = true ↔ x.isNaN = false ∧ y.isNaN = false ∧ x.key < y.key := by
  simp [lt, and_assoc]

theorem key_zero : zero.key = 0 := by decide

theorem key_eq (x : F64) :
    x.key = if 2 ^ 63 ≤ x.bits.toNat then (2 ^ 63 - x.bits.toNat : Int) else x.bits.toNat := by
  have hlt := x.bits.toNat_lt
  by_cases h : 2 ^ 63 ≤ x.bits.toNat
  · simp only [key, negative, magnitude, h, decide_true, if_true]
    omega
  · simp only [key, negative, magnitude, h, decide_false, Bool.false_eq_true, if_false]
    omega

theorem isNaN_eq (x : F64) :
    x.isNaN = decide (x.key < -(infMagnitude : Int) ∨ (infMagnitude : Int) < x.key) := by
  have hlt := x.bits.toNat_lt
  rw [isNaN, magnitude, key_eq, decide_eq_decide]
  split_ifs <;> omega

theorem isFinite_iff {x : F64} :
    x.isFinite = true ↔ -(infMagnitude : Int) < x.key ∧ x.key < infMagnitude := by
  have hlt := x.bits.toNat_lt
  rw [isFinite, magnitude, key_eq, decide_eq_true_eq]
  split_ifs <;> omega

theorem eq_false_of_isFinite {x y : F64} (h : x.isFinite = true)
    (hy : y.key = infMagnitude ∨ y.key = -(infMagnitude : Int)) : x.eq y = false := by
  obtain ⟨hlo, hhi⟩ := isFinite_iff.1 h
  have hne : x.key ≠ y.key := by omega
  simp [eq, hne]

/-- The two zeros, one of each sign. -/
def OppositeZeros (x y : F64) : Prop :=
  (x = ⟨0⟩ ∧ y = ⟨0x8000000000000000⟩) ∨ (x = ⟨0x8000000000000000⟩ ∧ y = ⟨0⟩)

instance (x y : F64) : Decidable (OppositeZeros x y) := inferInstanceAs (Decidable (_ ∨ _))

/-- **What IEEE equality forgets**: the values that compare equal have equal bits, the two zeros
apart. -/
theorem eq_bits_iff {x y : F64} (h : x.eq y = true) : x = y ↔ ¬OppositeZeros x y := by
  obtain ⟨bx⟩ := x
  obtain ⟨bY⟩ := y
  have hkey := (eq_iff.1 h).2.2
  have hltx := bx.toNat_lt
  have hlty := bY.toNat_lt
  have hminus : (0x8000000000000000 : UInt64).toNat = 2 ^ 63 := rfl
  have hzero : (0 : UInt64).toNat = 0 := rfl
  rw [key_eq, key_eq] at hkey
  simp only [OppositeZeros, mk.injEq, ← UInt64.toNat_inj, hminus, hzero]
  simp only at hkey
  split_ifs at hkey <;> omega

/-- The next bits are one further from zero. -/
theorem key_bits_succ {x : F64} (h : x.isFinite = true) (hz : x.key ≠ 0) :
    (⟨x.bits + 1⟩ : F64).key = if 0 < x.key then x.key + 1 else x.key - 1 := by
  obtain ⟨hlo, hhi⟩ := isFinite_iff.1 h
  have hbound : (infMagnitude : Int) < 2 ^ 63 - 1 := by decide
  have hone : (1 : UInt64).toNat = 1 := rfl
  rw [key_eq] at hlo hhi hz
  rw [key_eq, key_eq x, UInt64.toNat_add, hone]
  split_ifs at * <;> omega

/-- The bits in front are one closer to zero. -/
theorem key_bits_pred {x : F64} (h : x.isFinite = true) (hz : x.key ≠ 0) :
    (⟨x.bits - 1⟩ : F64).key = if 0 < x.key then x.key - 1 else x.key + 1 := by
  obtain ⟨hlo, hhi⟩ := isFinite_iff.1 h
  have hlt := x.bits.toNat_lt
  have hone : (1 : UInt64).toNat = 1 := rfl
  rw [key_eq] at hlo hhi hz
  rw [key_eq, key_eq x, UInt64.toNat_sub, hone]
  split_ifs at * <;> omega

/-- **Stepping up** from a finite value raises the key by one. -/
theorem key_nextUp {x : F64} (h : x.isFinite = true) : x.nextUp.key = x.key + 1 := by
  have hnan := isNaN_eq_false_of_isFinite h
  have hinf : x.eq posInf = false := eq_false_of_isFinite h (.inl (by decide))
  unfold nextUp
  rw [hnan, hinf, Bool.or_self, if_neg Bool.false_ne_true]
  by_cases hz : x.eq zero = true
  · rw [if_pos hz, (eq_iff.1 hz).2.2, key_zero]
    decide
  have hkey : x.key ≠ 0 := fun hk => hz (eq_iff.2 ⟨hnan, by decide, hk.trans key_zero.symm⟩)
  rw [if_neg hz]
  by_cases hpos : 0 < x.key
  · rw [if_pos (lt_iff.2 ⟨by decide, hnan, by rwa [key_zero]⟩), key_bits_succ h hkey, if_pos hpos]
  · have hnot : ¬zero.lt x = true := fun hlt => hpos (key_zero ▸ (lt_iff.1 hlt).2.2)
    rw [if_neg hnot, key_bits_pred h hkey, if_neg hpos]

/-- **Stepping down** from a finite value lowers the key by one. -/
theorem key_nextDown {x : F64} (h : x.isFinite = true) : x.nextDown.key = x.key - 1 := by
  have hnan := isNaN_eq_false_of_isFinite h
  have hinf : x.eq negInf = false := eq_false_of_isFinite h (.inr (by decide))
  unfold nextDown
  rw [hnan, hinf, Bool.or_self, if_neg Bool.false_ne_true]
  by_cases hz : x.eq zero = true
  · rw [if_pos hz, (eq_iff.1 hz).2.2, key_zero]
    decide
  have hkey : x.key ≠ 0 := fun hk => hz (eq_iff.2 ⟨hnan, by decide, hk.trans key_zero.symm⟩)
  rw [if_neg hz]
  by_cases hpos : 0 < x.key
  · rw [if_pos (lt_iff.2 ⟨by decide, hnan, by rwa [key_zero]⟩), key_bits_pred h hkey, if_pos hpos]
  · have hnot : ¬zero.lt x = true := fun hlt => hpos (key_zero ▸ (lt_iff.1 hlt).2.2)
    rw [if_neg hnot, key_bits_succ h hkey, if_neg hpos]

/-- A neighbour of a finite value is not NaN. -/
theorem isNaN_nextUp {x : F64} (h : x.isFinite = true) : x.nextUp.isNaN = false := by
  obtain ⟨hlo, hhi⟩ := isFinite_iff.1 h
  rw [isNaN_eq, key_nextUp h, decide_eq_false_iff_not]
  omega

theorem isNaN_nextDown {x : F64} (h : x.isFinite = true) : x.nextDown.isNaN = false := by
  obtain ⟨hlo, hhi⟩ := isFinite_iff.1 h
  rw [isNaN_eq, key_nextDown h, decide_eq_false_iff_not]
  omega

end F64

end Lib
