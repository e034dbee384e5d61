import Mathlib.Data.Rat.Floor

/-! # Numbers that are rounded

A number is a rational, one of the infinities or no number.  Each operation is exact and then
rounded.  Of the rounding nothing is asked but that it is monotone and leaves the integers up to
`2 ^ 53` alone; so what is proved here holds of binary64, whatever its ties, and of exact arithmetic.
A zero has no sign.
-/

namespace Lib

inductive Rounded where
  | finite (q : ℚ)
  | inf (neg : Bool)
  | nan
  deriving DecidableEq, Repr

namespace Rounded

/-- `<=`. -/
def le : Rounded → Rounded → Bool
  | finite p, finite q => p ≤ q
  | finite _, inf neg => !neg
  | inf neg, finite _ => neg
  | inf neg, inf neg' => neg || !neg'
  | nan, _ => false
  | _, nan => false

def neg : Rounded → Rounded
  | finite q => finite (-q)
  | inf neg => inf !neg
  | nan => nan

def floor : Rounded → Rounded
  | finite q => finite ⌊q⌋
  | x => x

def max : Rounded → Rounded → Rounded
  | nan, _ => nan
  | _, nan => nan
  | x, y => if x.le y then y else x

def min : Rounded → Rounded → Rounded
  | nan, _ => nan
  | _, nan => nan
  | x, y => if x.le y then x else y

def isFinite : Rounded → Bool
  | finite _ => true
  | _ => false

def isInteger : Rounded → Bool
  | finite q => q.isInt
  | _ => false

/-- Up to here every integer is a number of its own. -/
def EXACT : Int := 2 ^ 53

def isSafeInteger : Rounded → Bool
  | finite q => q.isInt && decide (-(EXACT - 1) ≤ ⌊q⌋) && decide (⌊q⌋ ≤ EXACT - 1)
  | _ => false

def ofInt (n : Int) : Rounded := finite n

end Rounded

structure Rounding where
  round : ℚ → Rounded
  monotone : ∀ {p q : ℚ}, p ≤ q → (round p).le (round q) = true
  integer : ∀ n : Int, -Rounded.EXACT ≤ n → n ≤ Rounded.EXACT → round n = .ofInt n

namespace Rounding

open Rounded

/-- No rounding at all. -/
def exact : Rounding := ⟨.finite, fun h => decide_eq_true h, fun _ _ _ => rfl⟩

variable (r : Rounding)

def add : Rounded → Rounded → Rounded
  | finite p, finite q => r.round (p + q)
  | nan, _ => nan
  | _, nan => nan
  | inf neg, inf neg' => if neg = neg' then inf neg else nan
  | inf neg, finite _ => inf neg
  | finite _, inf neg => inf neg

def sub (x y : Rounded) : Rounded := r.add x y.neg

def mul : Rounded → Rounded → Rounded
  | finite p, finite q => r.round (p * q)
  | nan, _ => nan
  | _, nan => nan
  | inf neg, inf neg' => inf (neg ^^ neg')
  | inf neg, finite q => if q = 0 then nan else inf (neg ^^ decide (q < 0))
  | finite q, inf neg => if q = 0 then nan else inf (neg ^^ decide (q < 0))

def div : Rounded → Rounded → Rounded
  | finite p, finite q =>
    if q = 0 then if p = 0 then nan else inf (decide (p < 0)) else r.round (p / q)
  | nan, _ => nan
  | _, nan => nan
  | inf _, inf _ => nan
  | inf neg, finite q => inf (neg ^^ decide (q < 0))
  | finite _, inf _ => finite 0

end Rounding

/-! ### Order -/

namespace Rounded

theorem isInt_iff {q : ℚ} : q.isInt = true ↔ ∃ n : Int, q = n := by
  rw [Rat.isInt, beq_iff_eq]
  constructor
  · intro h
    exact ⟨q.num, (Rat.coe_int_num_of_den_eq_one h).symm⟩
  · rintro ⟨n, rfl⟩
    rfl

theorem isSafeInteger_iff {x : Rounded} :
    x.isSafeInteger = true ↔ ∃ n : Int, x = ofInt n ∧ -(EXACT - 1) ≤ n ∧ n ≤ EXACT - 1 := by
  cases x with
  | finite q =>
    rw [isSafeInteger, Bool.and_eq_true, Bool.and_eq_true, isInt_iff, decide_eq_true_eq,
      decide_eq_true_eq]
    constructor
    · rintro ⟨⟨⟨n, rfl⟩, hlo⟩, hhi⟩
      rw [Int.floor_intCast] at hlo hhi
      exact ⟨n, rfl, hlo, hhi⟩
    · rintro ⟨n, hn, hlo, hhi⟩
      cases hn
      rw [Int.floor_intCast]
      exact ⟨⟨⟨n, rfl⟩, hlo⟩, hhi⟩
  | inf neg => exact iff_of_false (by decide +revert) (by rintro ⟨n, hn, -⟩; cases hn)
  | nan => exact iff_of_false (by decide) (by rintro ⟨n, hn, -⟩; cases hn)

@[simp] theorem le_finite {p q : ℚ} : (finite p).le (finite q) = true ↔ p ≤ q := decide_eq_true_iff

@[simp] theorem le_ofInt {m n : Int} : (ofInt m).le (ofInt n) = true ↔ m ≤ n := by
  rw [ofInt, ofInt, le_finite, Int.cast_le]

theorem ofInt_injective : Function.Injective ofInt := by
  intro m n h
  exact Int.cast_injective (Rounded.finite.inj h)

theorem le_trans {x y z : Rounded} (hxy : x.le y = true) (hyz : y.le z = true) :
    x.le z = true := by
  cases x <;> cases y <;> cases z <;> simp_all [le]
  · exact hxy.trans hyz
  · rcases hxy with hxy | hxy
    · exact .inl hxy
    · exact .inr (hyz.resolve_left (hxy ▸ Bool.false_ne_true))

/-- What compares at all is below itself. -/
theorem le_self {x y : Rounded} (h : x.le y = true ∨ y.le x = true) : x.le x = true := by
  cases x with
  | finite q => exact le_finite.2 le_rfl
  | inf neg => cases neg <;> rfl
  | nan => cases y <;> rcases h with h | h <;> cases h

/-- The larger of two is above both. -/
theorem le_max {x y : Rounded} {n : Int} (h : Rounded.max x y = ofInt n) :
    x.le (ofInt n) = true ∧ y.le (ofInt n) = true := by
  have hcases : ∀ u v : Rounded, (if u.le v then v else u) = ofInt n → (u ≠ nan) → (v ≠ nan) →
      u.le (ofInt n) = true ∧ v.le (ofInt n) = true := by
    intro u v huv hu hv
    split at huv
    · next hle => exact ⟨huv ▸ hle, huv ▸ le_self (.inr hle)⟩
    · next hle =>
      have htotal : v.le u = true := by
        cases u <;> cases v <;> simp_all [le]
        exact hle.le
      exact ⟨huv ▸ le_self (.inr htotal), huv ▸ htotal⟩
  cases x with
  | nan => cases h
  | finite p =>
    cases y with
    | nan => cases h
    | _ => exact hcases _ _ h nofun nofun
  | inf neg =>
    cases y with
    | nan => cases h
    | _ => exact hcases _ _ h nofun nofun

/-- The smaller of two is below both. -/
theorem min_le {x y : Rounded} {n : Int} (h : Rounded.min x y = ofInt n) :
    (ofInt n).le x = true ∧ (ofInt n).le y = true := by
  have hcases : ∀ u v : Rounded, (if u.le v then u else v) = ofInt n → (u ≠ nan) → (v ≠ nan) →
      (ofInt n).le u = true ∧ (ofInt n).le v = true := by
    intro u v huv hu hv
    split at huv
    · next hle => exact ⟨huv ▸ le_self (.inl hle), huv ▸ hle⟩
    · next hle =>
      have htotal : v.le u = true := by
        cases u <;> cases v <;> simp_all [le]
        exact hle.le
      exact ⟨huv ▸ htotal, huv ▸ le_self (.inl htotal)⟩
  cases x with
  | nan => cases h
  | finite p =>
    cases y with
    | nan => cases h
    | _ => exact hcases _ _ h nofun nofun
  | inf neg =>
    cases y with
    | nan => cases h
    | _ => exact hcases _ _ h nofun nofun

@[simp] theorem max_ofInt (m n : Int) : Rounded.max (ofInt m) (ofInt n) = ofInt (Max.max m n) := by
  change (if (ofInt m).le (ofInt n) = true then ofInt n else ofInt m) = _
  by_cases h : m ≤ n
  · rw [if_pos (le_ofInt.2 h), max_eq_right h]
  · rw [if_neg (mt le_ofInt.1 h), max_eq_left (le_of_not_ge h)]

@[simp] theorem min_ofInt (m n : Int) : Rounded.min (ofInt m) (ofInt n) = ofInt (Min.min m n) := by
  change (if (ofInt m).le (ofInt n) = true then ofInt m else ofInt n) = _
  by_cases h : m ≤ n
  · rw [if_pos (le_ofInt.2 h), min_eq_left h]
  · rw [if_neg (mt le_ofInt.1 h), min_eq_right (le_of_not_ge h)]

end Rounded

/-! ### Operations -/

namespace Rounding

open Rounded

variable {r : Rounding}

/-- A rounded number compares. -/
theorem round_le_self (r : Rounding) (q : ℚ) : (r.round q).le (r.round q) = true :=
  r.monotone le_rfl

theorem round_le_inf (r : Rounding) (q : ℚ) : (r.round q).le (inf false) = true := by
  have h := r.round_le_self q
  cases hq : r.round q with
  | finite p => rfl
  | inf neg => cases neg <;> rfl
  | nan =>
    rw [hq] at h
    cases h

theorem inf_le_round (r : Rounding) (q : ℚ) : (inf true).le (r.round q) = true := by
  have h := r.round_le_self q
  cases hq : r.round q with
  | finite p => rfl
  | inf neg => rfl
  | nan =>
    rw [hq] at h
    cases h

theorem add_ofInt {m n : Int} (hlo : -EXACT ≤ m + n) (hhi : m + n ≤ EXACT) :
    r.add (ofInt m) (ofInt n) = ofInt (m + n) := by
  rw [← r.integer (m + n) hlo hhi, Int.cast_add]
  rfl

theorem sub_ofInt {m n : Int} (hlo : -EXACT ≤ m - n) (hhi : m - n ≤ EXACT) :
    r.sub (ofInt m) (ofInt n) = ofInt (m - n) := by
  rw [← r.integer (m - n) hlo hhi, Int.cast_sub, sub_eq_add_neg]
  rfl

/-- Addition of a number is monotone. -/
theorem add_le_add (q : ℚ) {x y : Rounded} (h : x.le y = true) :
    (r.add x (finite q)).le (r.add y (finite q)) = true := by
  cases x with
  | nan => cases y <;> cases h
  | finite p =>
    cases y with
    | nan => cases h
    | finite p' => exact r.monotone (add_le_add_left (le_finite.1 h) q)
    | inf neg =>
      cases neg with
      | true => cases h
      | false => exact r.round_le_inf _
  | inf neg =>
    cases y with
    | nan => cases h
    | finite p =>
      cases neg with
      | true => exact r.inf_le_round _
      | false => cases h
    | inf neg' => exact h

/-- A product of positive numbers is bounded below. -/
theorem le_mul {m n : Int} {x y : Rounded} (hm : 0 < m) (hn : 0 < n) (hexact : m * n ≤ EXACT)
    (hx : (ofInt m).le x = true) (hy : (ofInt n).le y = true) :
    (ofInt (m * n)).le (r.mul x y) = true := by
  have hpos : 0 < m * n := Int.mul_pos hm hn
  have hlow : -EXACT ≤ m * n := by
    have hexact' : (0 : Int) ≤ EXACT := by decide
    omega
  have hm' : (0 : ℚ) < m := Int.cast_pos.2 hm
  have hn' : (0 : ℚ) < n := Int.cast_pos.2 hn
  cases x with
  | nan => cases hx
  | finite p =>
    have hp : (m : ℚ) ≤ p := le_finite.1 hx
    cases y with
    | nan => cases hy
    | finite q =>
      have hq : (n : ℚ) ≤ q := le_finite.1 hy
      rw [← r.integer (m * n) hlow hexact, Int.cast_mul]
      exact r.monotone (mul_le_mul hp hq hn'.le (hm'.le.trans hp))
    | inf neg =>
      cases neg with
      | true => cases hy
      | false =>
        have hne : p ≠ 0 := (hm'.trans_le hp).ne'
        have hnot : ¬p < 0 := not_lt.2 (hm'.le.trans hp)
        rw [mul, if_neg hne, decide_eq_false hnot]
        rfl
  | inf neg =>
    cases neg with
    | true => cases hx
    | false =>
      cases y with
      | nan => cases hy
      | finite q =>
        have hq : (n : ℚ) ≤ q := le_finite.1 hy
        have hne : q ≠ 0 := (hn'.trans_le hq).ne'
        have hnot : ¬q < 0 := not_lt.2 (hn'.le.trans hq)
        rw [mul, if_neg hne, decide_eq_false hnot]
        rfl
      | inf neg =>
        cases neg with
        | true => cases hy
        | false => rfl

end Rounding

end Lib
