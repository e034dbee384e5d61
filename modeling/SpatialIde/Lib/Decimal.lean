import Mathlib.Data.Int.Log
import Mathlib.Data.List.TakeWhile
import Mathlib.Data.Rat.Floor
import Mathlib.Tactic.IntervalCases
import Mathlib.Tactic.Positivity
import SpatialIde.Lib.Binary64

/-! # Numbers from decimal text

`str::parse` for `u64` and for `f64`: the whole text is a number, without blanks.  A
decimal is read as an exact ratio and rounded once, to the nearest binary64 value,
ties to even.
-/

namespace Lib

def digitValue (c : Char) : Nat := c.toNat - '0'.toNat

/-- The value of a text of ASCII digits, of which there is at least one. -/
def digitsValue (cs : List Char) : Option Nat :=
  if cs ≠ [] ∧ cs.all Char.isDigit then
    some (cs.foldl (fun n c => 10 * n + digitValue c) 0)
  else none

/-- A sign in front of a text, and what is behind it. -/
def splitSign : List Char → Bool × List Char
  | '-' :: cs => (true, cs)
  | '+' :: cs => (false, cs)
  | cs => (false, cs)

/-- `str::parse::<u64>`: an optional plus sign and digits; a minus sign is an error. -/
def parseU64 (s : String) : Option UInt64 :=
  let cs := match s.toList with
    | '+' :: cs => cs
    | cs => cs
  match digitsValue cs with
  | some n => if n < 2 ^ 64 then some (UInt64.ofNat n) else none
  | none => none

theorem parseU64_of_digits {s : String} {n : Nat} (h : digitsValue s.toList = some n) :
    parseU64 s = if n < 2 ^ 64 then some (UInt64.ofNat n) else none := by
  have hmatch : (match s.toList with
      | '+' :: cs => cs
      | cs => cs) = s.toList := by
    split
    · next cs heq =>
      rw [heq, digitsValue, if_neg (by simp [Char.isDigit])] at h
      cases h
    · rfl
  rw [parseU64, hmatch, h]

namespace F64

/-- `⌊num / den⌋` to an even value on a tie. -/
def divNearestEven (num den : Nat) : Nat :=
  let q := num / den
  let r := num % den
  if 2 * r < den ∨ (2 * r = den ∧ q % 2 = 0) then q else q + 1

/-- `num / (den * 2 ^ e)`, rounded. -/
def significandAt (num den : Nat) (e : Int) : Nat :=
  if 0 ≤ e then divNearestEven num (den * 2 ^ e.toNat)
  else divNearestEven (num * 2 ^ (-e).toNat) den

/-- The exponent of the last place of `num / den`: its significand has 53 bits, fewer where the
ratio is subnormal. -/
def lastPlace (num den : Nat) : Int :=
  let guess : Int := (num.log2 : Int) - den.log2 - 53
  let below := if 0 ≤ guess then num < den * 2 ^ (guess.toNat + 53)
    else num * 2 ^ (-guess).toNat < den * 2 ^ 53
  max (if below then guess else guess + 1) (-1074)

/-- The magnitude nearest to a ratio.  The exponent field is that of the last place, and a
significand that rounds up to the next power of two carries into it. -/
def magnitudeOfRatio (num den : Nat) : Nat :=
  if num = 0 then 0
  else
    let e := lastPlace num den
    min ((e + 1074).toNat * 2 ^ 52 + significandAt num den e) infMagnitude

def ofMagnitude (neg : Bool) (m : Nat) : F64 :=
  ⟨UInt64.ofNat (if neg then 2 ^ 63 + m else m)⟩

/-- The digits in front of the point, and behind it. -/
def splitPoint (cs : List Char) : Option (List Char × List Char) :=
  let whole := cs.takeWhile (· ≠ '.')
  let fraction := (cs.dropWhile (· ≠ '.')).drop 1
  if (whole ++ fraction).all Char.isDigit ∧ whole ++ fraction ≠ [] then some (whole, fraction)
  else none

/-- The exponent of a number, `0` where it has none. -/
def parseExponent : List Char → Option Int
  | [] => some 0
  | _ :: cs =>
    let (neg, digits) := splitSign cs
    (digitsValue digits).map fun n => if neg then -(n : Int) else n

def isExponentMark (c : Char) : Bool := c = 'e' ∨ c = 'E'

/-- A number without a sign: digits, a point among them, and an exponent. -/
def parseMagnitude (cs : List Char) : Option Nat := do
  let (whole, fraction) ← splitPoint (cs.takeWhile fun c => !isExponentMark c)
  let exponent ← parseExponent (cs.dropWhile fun c => !isExponentMark c)
  let digits ← digitsValue (whole ++ fraction)
  let scale := exponent - fraction.length
  return if 0 ≤ scale then magnitudeOfRatio (digits * 10 ^ scale.toNat) 1
    else magnitudeOfRatio digits (10 ^ (-scale).toNat)

/-- `str::parse::<f64>`. -/
def parse (s : String) : Option F64 :=
  let (neg, cs) := splitSign s.toList
  let lower := String.ofList (cs.map Char.toLower)
  if lower = "inf" ∨ lower = "infinity" then some (ofMagnitude neg infMagnitude)
  else if lower = "nan" then some (ofMagnitude neg 0x7FF8000000000000)
  else (parseMagnitude cs).map (ofMagnitude neg)

end F64

end Lib

/-! ## Fixed-point text of a double

`fixed x p` is what `format!("{x:.p$}")` writes for a finite `x`: its exact value rounded once to
`p` fractional digits, ties to even.

Reading a decimal depends on its value only (`magnitudeOfRatio_mul`): a zero at the end of the
fraction changes nothing (`parse_append_zero`).
-/

namespace Lib.F64

/-- A finite value is `± significand * 2 ^ exponent`. -/
def significand (x : F64) : Nat :=
  if x.magnitude / 2 ^ 52 = 0 then x.magnitude else 2 ^ 52 + x.magnitude % 2 ^ 52

def exponent (x : F64) : Int := max (x.magnitude / 2 ^ 52 : Nat) 1 - 1075

def abs (x : F64) : F64 := ⟨UInt64.ofNat x.magnitude⟩

/-- The magnitude in units of the last digit, of which `precision` are behind the point. -/
def scaledTo (x : F64) (precision : Nat) : Nat :=
  if 0 ≤ x.exponent then x.significand * 2 ^ x.exponent.toNat * 10 ^ precision
  else divNearestEven (x.significand * 10 ^ precision) (2 ^ (-x.exponent).toNat)

/-- The digits of a number, filled up with zeros in front. -/
def paddedDigits (n width : Nat) : List Char :=
  let ds := Nat.toDigits 10 n
  List.replicate (width - ds.length) '0' ++ ds

/-- A sign, digits, the point and more digits. -/
def decimalText (neg : Bool) (whole fraction : List Char) : List Char :=
  (if neg then ['-'] else []) ++ whole ++ '.' :: fraction

/-- `format!("{x:.precision$}")`, where `precision` is not `0`. -/
def fixed (x : F64) (precision : Nat) : List Char :=
  let n := x.scaledTo precision
  decimalText x.negative (Nat.toDigits 10 (n / 10 ^ precision))
    (paddedDigits (n % 10 ^ precision) precision)

example : String.ofList (fixed ⟨0x3FB999999999999A⟩ 3) = "0.100" := by rfl

/-! ### What is read is the value -/

theorem divNearestEven_mul {num den k : Nat} (hk : 0 < k) :
    divNearestEven (num * k) (den * k) = divNearestEven num den := by
  have hq : num * k / (den * k) = num / den := Nat.mul_div_mul_right _ _ hk
  have hr : num * k % (den * k) = num % den * k := Nat.mul_mod_mul_right _ _ _
  have hlt : 2 * (num % den * k) < den * k ↔ 2 * (num % den) < den := by
    rw [← Nat.mul_assoc]
    exact Nat.mul_lt_mul_right hk
  have heq : 2 * (num % den * k) = den * k ↔ 2 * (num % den) = den := by
    rw [← Nat.mul_assoc]
    exact Nat.mul_left_inj (by omega)
  rw [divNearestEven, divNearestEven, hq, hr]
  simp only [hlt, heq]

theorem significandAt_mul {num den k : Nat} (e : Int) (hk : 0 < k) :
    significandAt (num * k) (den * k) e = significandAt num den e := by
  rw [significandAt, significandAt]
  by_cases he : 0 ≤ e
  · rw [if_pos he, if_pos he, Nat.mul_right_comm den, divNearestEven_mul hk]
  · rw [if_neg he, if_neg he, Nat.mul_right_comm num, divNearestEven_mul hk]

section

variable {num den : Nat} (hn : num ≠ 0) (hd : den ≠ 0)

include hn hd

theorem ratio_pos : (0 : ℚ) < (num : ℚ) / den := by
  have hn' : (0 : ℚ) < num := by exact_mod_cast Nat.pos_of_ne_zero hn
  have hd' : (0 : ℚ) < den := by exact_mod_cast Nat.pos_of_ne_zero hd
  exact div_pos hn' hd'

/-- A ratio and the lengths of its two parts. -/
theorem log_ratio : (num.log2 : Int) - den.log2 - 1 ≤ Int.log 2 ((num : ℚ) / den) ∧
    Int.log 2 ((num : ℚ) / den) ≤ (num.log2 : Int) - den.log2 := by
  have hpos := ratio_pos hn hd
  have hd' : (0 : ℚ) < den := by exact_mod_cast Nat.pos_of_ne_zero hd
  have hnum : (2 : ℚ) ^ num.log2 ≤ num := by exact_mod_cast Nat.log2_self_le hn
  have hnum' : (num : ℚ) < 2 ^ (num.log2 + 1) := by exact_mod_cast Nat.lt_log2_self
  have hden : (2 : ℚ) ^ den.log2 ≤ den := by exact_mod_cast Nat.log2_self_le hd
  have hden' : (den : ℚ) < 2 ^ (den.log2 + 1) := by exact_mod_cast Nat.lt_log2_self
  constructor
  · rw [← Int.zpow_le_iff_le_log (by decide) hpos, le_div_iff₀ hd']
    calc ((2 : Nat) : ℚ) ^ ((num.log2 : Int) - den.log2 - 1) * den
        ≤ (2 : ℚ) ^ ((num.log2 : Int) - den.log2 - 1) * 2 ^ (den.log2 + 1) := by
          push_cast
          exact mul_le_mul_of_nonneg_left hden'.le (zpow_nonneg (by decide) _)
      _ = 2 ^ num.log2 := by
          rw [← zpow_natCast 2 (den.log2 + 1), ← zpow_natCast 2 num.log2,
            ← zpow_add₀ (by decide : (2 : ℚ) ≠ 0)]
          congr 1
          push_cast
          omega
      _ ≤ num := hnum
  · have hlt : Int.log 2 ((num : ℚ) / den) < (num.log2 : Int) - den.log2 + 1 := by
      rw [← Int.lt_zpow_iff_log_lt (by decide) hpos, div_lt_iff₀ hd']
      calc (num : ℚ) < 2 ^ (num.log2 + 1) := hnum'
        _ = 2 ^ ((num.log2 : Int) - den.log2 + 1) * 2 ^ den.log2 := by
          rw [← zpow_natCast 2 (num.log2 + 1), ← zpow_natCast 2 den.log2,
            ← zpow_add₀ (by decide : (2 : ℚ) ≠ 0)]
          congr 1
          push_cast
          omega
        _ ≤ ((2 : Nat) : ℚ) ^ ((num.log2 : Int) - den.log2 + 1) * den := by
          push_cast
          exact mul_le_mul_of_nonneg_left hden (zpow_nonneg (by decide) _)
    omega

/-- The exponent of the last place is that of the value. -/
theorem lastPlace_eq :
    lastPlace num den = max (Int.log 2 ((num : ℚ) / den) - 52) (-1074) := by
  have hpos := ratio_pos hn hd
  have hd' : (0 : ℚ) < den := by exact_mod_cast Nat.pos_of_ne_zero hd
  obtain ⟨hlow, hhigh⟩ := log_ratio hn hd
  rw [lastPlace]
  generalize hg : (num.log2 : Int) - den.log2 - 53 = guess
  have hlt : Int.log 2 ((num : ℚ) / den) < guess + 53 ↔ (num : ℚ) / den < 2 ^ (guess + 53) := by
    have := Int.lt_zpow_iff_log_lt (b := 2) (by decide) (x := guess + 53) hpos
    push_cast at this
    exact this.symm
  have hbelow : (if 0 ≤ guess then num < den * 2 ^ (guess.toNat + 53)
      else num * 2 ^ (-guess).toNat < den * 2 ^ 53) ↔
        Int.log 2 ((num : ℚ) / den) < guess + 53 := by
    rw [hlt, div_lt_iff₀ hd']
    by_cases hguess : 0 ≤ guess
    · rw [if_pos hguess]
      have hpow : (2 : ℚ) ^ (guess + 53) = 2 ^ (guess.toNat + 53) := by
        rw [← zpow_natCast]
        congr 1
        push_cast
        omega
      rw [hpow, mul_comm]
      exact_mod_cast Iff.rfl
    · rw [if_neg hguess]
      have hpow : (2 : ℚ) ^ (guess + 53) * 2 ^ (-guess).toNat = 2 ^ 53 := by
        rw [← zpow_natCast 2 (-guess).toNat, ← zpow_add₀ (by decide : (2 : ℚ) ≠ 0),
          ← zpow_natCast]
        congr 1
        omega
      have hscale : (0 : ℚ) < 2 ^ (-guess).toNat := by positivity
      rw [← mul_lt_mul_iff_left₀ hscale, mul_right_comm, hpow, mul_comm (2 ^ 53 : ℚ)]
      exact_mod_cast Iff.rfl
  by_cases h : Int.log 2 ((num : ℚ) / den) < guess + 53
  · simp only [hbelow, h, if_true]
    congr 1
    omega
  · simp only [hbelow, h, if_false]
    congr 1
    omega

end

/-- **A decimal is read by its value**: the same ratio in other terms is the same double. -/
theorem magnitudeOfRatio_mul {num den k : Nat} (hd : den ≠ 0) (hk : 0 < k) :
    magnitudeOfRatio (num * k) (den * k) = magnitudeOfRatio num den := by
  rw [magnitudeOfRatio, magnitudeOfRatio]
  by_cases hn : num = 0
  · rw [if_pos hn, if_pos (by rw [hn, Nat.zero_mul])]
  · have hnk : num * k ≠ 0 := Nat.mul_ne_zero hn (by omega)
    have hdk : den * k ≠ 0 := Nat.mul_ne_zero hd (by omega)
    have hratio : ((num * k : Nat) : ℚ) / (den * k : Nat) = (num : ℚ) / den := by
      have hk' : (k : ℚ) ≠ 0 := by exact_mod_cast (show k ≠ 0 by omega)
      push_cast
      exact mul_div_mul_right _ _ hk'
    have hplace : lastPlace (num * k) (den * k) = lastPlace num den := by
      rw [lastPlace_eq hnk hdk, lastPlace_eq hn hd, hratio]
    rw [if_neg hn, if_neg hnk, hplace]
    simp only [significandAt_mul _ hk]

theorem magnitudeOfRatio_le (num den : Nat) : magnitudeOfRatio num den ≤ infMagnitude := by
  rw [magnitudeOfRatio]
  by_cases h : num = 0
  · rw [if_pos h]
    exact Nat.zero_le _
  · rw [if_neg h]
    exact Nat.min_le_right _ _

theorem negative_ofMagnitude {neg : Bool} {m : Nat} (h : m ≤ infMagnitude) :
    (ofMagnitude neg m).negative = neg := by
  have hinf : infMagnitude < 2 ^ 63 := by decide
  cases neg with
  | false =>
    have hbits : (UInt64.ofNat m).toNat = m := by
      rw [UInt64.toNat_ofNat']
      omega
    simp only [ofMagnitude, negative, Bool.false_eq_true, if_false, hbits, decide_eq_false_iff_not]
    omega
  | true =>
    have hbits : (UInt64.ofNat (2 ^ 63 + m)).toNat = 2 ^ 63 + m := by
      rw [UInt64.toNat_ofNat']
      omega
    simp only [ofMagnitude, negative, if_true, hbits, decide_eq_true_eq]
    omega

theorem magnitude_abs (x : F64) : x.abs.magnitude = x.magnitude := by
  have hlt : x.magnitude < 2 ^ 63 := Nat.mod_lt _ (by decide)
  rw [abs, magnitude, UInt64.toNat_ofNat']
  omega

/-- Values that compare equal and have one sign are the same bits. -/
theorem eq_of_eq {x y : F64} (h : x.eq y = true) (hsign : x.negative = y.negative) : x = y := by
  obtain ⟨-, -, hkey⟩ := eq_iff.1 h
  have hx := x.bits.toNat_lt
  have hy := y.bits.toNat_lt
  have hbits : x.bits.toNat = y.bits.toNat := by
    simp only [key, hsign] at hkey
    simp only [negative, decide_eq_decide] at hsign
    have hmag : x.magnitude = y.magnitude := by
      split at hkey <;> omega
    simp only [magnitude] at hmag
    omega
  obtain ⟨xb⟩ := x
  obtain ⟨yb⟩ := y
  exact congrArg F64.mk (UInt64.toNat_inj.1 hbits)

/-! ### Decimal texts -/

theorem isDigit_of_mem_toDigits {n : Nat} {c : Char} (h : c ∈ Nat.toDigits 10 n) :
    c.isDigit = true :=
  Nat.isDigit_of_mem_toDigits (by decide) (by decide) h

theorem isDigit_of_mem_paddedDigits {n width : Nat} {c : Char} (h : c ∈ paddedDigits n width) :
    c.isDigit = true := by
  rcases List.mem_append.1 h with h | h
  · rw [List.eq_of_mem_replicate h]
    decide
  · exact isDigit_of_mem_toDigits h

theorem paddedDigits_ne_nil (n width : Nat) : paddedDigits n width ≠ [] :=
  List.append_ne_nil_of_right_ne_nil _ Nat.toDigits_ne_nil

/-- Only `0` has a leading zero. -/
theorem toDigits_head_ne_zero {n : Nat} (h : 0 < n) : (Nat.toDigits 10 n).head? ≠ some '0' := by
  induction n using Nat.strong_induction_on with
  | _ n ih =>
    by_cases hn : n < 10
    · rw [Nat.toDigits_of_lt_base hn]
      interval_cases n <;> decide
    · rw [Nat.toDigits_of_base_le (by decide) (by omega), List.head?_append_of_ne_nil _
        Nat.toDigits_ne_nil]
      exact ih (n / 10) (by omega) (by omega)

/-- The number a text of digits spells. -/
def digitsNumber (cs : List Char) : Nat := cs.foldl (fun n c => 10 * n + digitValue c) 0

theorem digitsNumber_toDigits (n : Nat) : digitsNumber (Nat.toDigits 10 n) = n := by
  have h := Nat.ofDigitChars_ten_toDigits (n := n)
  rw [Nat.ofDigitChars_eq_foldl] at h
  exact h

theorem digitsNumber_concat (cs : List Char) (c : Char) :
    digitsNumber (cs ++ [c]) = 10 * digitsNumber cs + digitValue c := by
  rw [digitsNumber, List.foldl_append]
  rfl

theorem digit_eq {c : Char} (h : c.isDigit = true) :
    digitValue c < 10 ∧ Nat.digitChar (digitValue c) = c := by
  have hall : ∀ k < 58, (Char.ofNat k).isDigit = true →
      digitValue (Char.ofNat k) < 10 ∧ Nat.digitChar (digitValue (Char.ofNat k)) = Char.ofNat k := by
    decide
  have hlt : c.toNat < 58 := by
    simp only [Char.isDigit, Bool.and_eq_true, decide_eq_true_eq, ge_iff_le,
      UInt32.le_iff_toNat_le] at h
    exact Nat.lt_of_le_of_lt h.2 (by decide)
  have hc := hall c.toNat hlt
  rw [Char.ofNat_toNat] at hc
  exact hc h

/-- **A text of digits without a leading zero** is that of the number it spells. -/
theorem toDigits_digitsNumber {cs : List Char} (hne : cs ≠ []) (h : ∀ c ∈ cs, c.isDigit = true)
    (hzero : 1 < cs.length → cs.head? ≠ some '0') : Nat.toDigits 10 (digitsNumber cs) = cs := by
  induction cs using List.reverseRecOn with
  | nil => exact absurd rfl hne
  | append_singleton cs c ih =>
    obtain ⟨hlt, hchar⟩ := digit_eq (h c (List.mem_append_right _ (List.mem_singleton_self c)))
    rw [digitsNumber_concat]
    by_cases hcs : cs = []
    · subst hcs
      rw [show 10 * digitsNumber [] + digitValue c = digitValue c from Nat.zero_add _,
        Nat.toDigits_of_lt_base hlt, hchar]
      rfl
    · have hlength : 1 < (cs ++ [c]).length := by
        rw [List.length_append, List.length_singleton]
        have := List.length_pos_of_ne_nil hcs
        omega
      have hhead : cs.head? ≠ some '0' := by
        have := hzero hlength
        rwa [List.head?_append_of_ne_nil _ hcs] at this
      have hinit := ih hcs (fun c hc => h c (List.mem_append_left _ hc)) fun _ => hhead
      have hpos : digitsNumber cs ≠ 0 := by
        intro hz
        rw [hz, Nat.toDigits_zero] at hinit
        exact hhead (hinit ▸ rfl)
      rw [Nat.toDigits_of_base_le (by decide) (by omega),
        show (10 * digitsNumber cs + digitValue c) / 10 = digitsNumber cs by omega,
        show (10 * digitsNumber cs + digitValue c) % 10 = digitValue c by omega, hinit, hchar]

theorem digitsNumber_append_zero (cs : List Char) :
    digitsNumber (cs ++ ['0']) = digitsNumber cs * 10 := by
  rw [digitsNumber, List.foldl_append]
  show 10 * digitsNumber cs + 0 = _
  omega

section

variable {whole fraction : List Char} (hwhole : ∀ c ∈ whole, c.isDigit = true)
  (hfraction : ∀ c ∈ fraction, c.isDigit = true)

theorem digit_ne {c d : Char} (h : c.isDigit = true) (hd : d.isDigit = false) : c ≠ d := by
  rintro rfl
  rw [h] at hd
  cases hd

theorem digitsValue_eq {cs : List Char} (hcs : cs ≠ []) (h : ∀ c ∈ cs, c.isDigit = true) :
    digitsValue cs = some (digitsNumber cs) := by
  rw [digitsValue, if_pos ⟨hcs, List.all_eq_true.2 h⟩]
  rfl

include hwhole hfraction

theorem not_isExponentMark {c : Char} (h : c ∈ whole ++ '.' :: fraction) :
    isExponentMark c = false := by
  have hne : c ≠ 'e' ∧ c ≠ 'E' := by
    rcases List.mem_append.1 h with h | h
    · exact ⟨digit_ne (hwhole c h) (by decide), digit_ne (hwhole c h) (by decide)⟩
    · rcases List.mem_cons.1 h with rfl | h
      · decide
      · exact ⟨digit_ne (hfraction c h) (by decide), digit_ne (hfraction c h) (by decide)⟩
  simp [isExponentMark, hne]

theorem takeWhile_mantissa : (whole ++ '.' :: fraction).takeWhile (fun c => !isExponentMark c) =
    whole ++ '.' :: fraction :=
  List.takeWhile_eq_self_iff.2 fun c hc => by rw [not_isExponentMark hwhole hfraction hc]; rfl

theorem dropWhile_mantissa :
    (whole ++ '.' :: fraction).dropWhile (fun c => !isExponentMark c) = [] :=
  List.dropWhile_eq_nil_iff.2 fun c hc => by rw [not_isExponentMark hwhole hfraction hc]; rfl

omit hfraction in
theorem ne_point {c : Char} (h : c ∈ whole) : decide (c ≠ '.') = true :=
  decide_eq_true (digit_ne (hwhole c h) (by decide))

omit hfraction in
theorem takeWhile_point : (whole ++ '.' :: fraction).takeWhile (· ≠ '.') = whole := by
  rw [List.takeWhile_append_of_pos fun c hc => ne_point hwhole hc]
  simp

omit hfraction in
theorem dropWhile_point : (whole ++ '.' :: fraction).dropWhile (· ≠ '.') = '.' :: fraction := by
  rw [List.dropWhile_append_of_pos fun c hc => ne_point hwhole hc]
  simp

/-- A number with a point is its digits over a power of ten. -/
theorem parseMagnitude_decimal (hne : whole ≠ []) (hne' : fraction ≠ []) :
    parseMagnitude (whole ++ '.' :: fraction) =
      some (magnitudeOfRatio (digitsNumber (whole ++ fraction)) (10 ^ fraction.length)) := by
  have hdigits : ∀ c ∈ whole ++ fraction, c.isDigit = true := by
    intro c hc
    rcases List.mem_append.1 hc with hc | hc
    · exact hwhole c hc
    · exact hfraction c hc
  have happ : whole ++ fraction ≠ [] := List.append_ne_nil_of_left_ne_nil hne _
  have hsplit : splitPoint (whole ++ '.' :: fraction) = some (whole, fraction) := by
    rw [splitPoint, takeWhile_point hwhole, dropWhile_point hwhole]
    exact if_pos ⟨List.all_eq_true.2 hdigits, happ⟩
  have hlen : 0 < fraction.length := List.length_pos_of_ne_nil hne'
  have hscale : ¬(0 : Int) ≤ 0 - fraction.length := by omega
  have hpow : (-((0 : Int) - fraction.length)).toNat = fraction.length := by omega
  rw [parseMagnitude, takeWhile_mantissa hwhole hfraction, dropWhile_mantissa hwhole hfraction,
    hsplit]
  show (digitsValue (whole ++ fraction)).bind _ = _
  rw [digitsValue_eq happ hdigits]
  show some (if (0 : Int) ≤ 0 - fraction.length then _ else _) = _
  rw [if_neg hscale, hpow]

omit hfraction in
/-- The words for values that are no numbers do not begin with a digit. -/
theorem lower_ne (hne : whole ≠ []) {w : String}
    (hw : ∀ c, w.toList.head? = some c → c.isDigit = false) :
    String.ofList ((whole ++ '.' :: fraction).map Char.toLower) ≠ w := by
  rintro rfl
  cases whole with
  | nil => exact hne rfl
  | cons c cs =>
    have hc := hwhole c List.mem_cons_self
    have hlower : c.toLower = c := by
      rw [Char.isDigit, Bool.and_eq_true, decide_eq_true_eq, decide_eq_true_eq] at hc
      refine dif_neg ?_
      rintro ⟨hA, -⟩
      have := Nat.le_trans (UInt32.le_iff_toNat_le.1 hA) (UInt32.le_iff_toNat_le.1 hc.2)
      exact absurd this (by decide)
    have hhead := hw c.toLower (by rw [String.toList_ofList]; rfl)
    rw [hlower, hc] at hhead
    cases hhead

/-- **A decimal text is read as its value.** -/
theorem parse_decimalText (neg : Bool) (hne : whole ≠ []) (hne' : fraction ≠ []) :
    parse (String.ofList (decimalText neg whole fraction)) = some (ofMagnitude neg
      (magnitudeOfRatio (digitsNumber (whole ++ fraction)) (10 ^ fraction.length))) := by
  have hsplit : splitSign (decimalText neg whole fraction) = (neg, whole ++ '.' :: fraction) := by
    cases neg with
    | true => rfl
    | false =>
      cases whole with
      | nil => exact absurd rfl hne
      | cons c cs =>
        have hc := hwhole c List.mem_cons_self
        show splitSign (c :: (cs ++ '.' :: fraction)) = _
        rw [splitSign.eq_3]
        · rfl
        · rintro _ h
          cases h
          exact absurd hc (by decide)
        · rintro _ h
          cases h
          exact absurd hc (by decide)
  rw [parse, String.toList_ofList, hsplit]
  show (if _ then _ else if _ then _ else _) = _
  rw [if_neg, if_neg, parseMagnitude_decimal hwhole hfraction hne hne']
  · rfl
  · exact lower_ne hwhole hne fun c hc => by rw [← Option.some.inj hc]; decide
  · rintro (h | h)
    · exact lower_ne hwhole hne (fun c hc => by rw [← Option.some.inj hc]; decide) h
    · exact lower_ne hwhole hne (fun c hc => by rw [← Option.some.inj hc]; decide) h

end

/-- A zero behind the fraction changes nothing. -/
theorem parse_append_zero {neg : Bool} {whole fraction : List Char}
    (hwhole : ∀ c ∈ whole, c.isDigit = true) (hfraction : ∀ c ∈ fraction, c.isDigit = true)
    (hne : whole ≠ []) (hne' : fraction ≠ []) :
    parse (String.ofList (decimalText neg whole (fraction ++ ['0']))) =
      parse (String.ofList (decimalText neg whole fraction)) := by
  have hfraction' : ∀ c ∈ fraction ++ ['0'], c.isDigit = true := by
    intro c hc
    rcases List.mem_append.1 hc with hc | hc
    · exact hfraction c hc
    · rw [List.mem_singleton.1 hc]
      decide
  rw [parse_decimalText hwhole hfraction' neg hne (by simp),
    parse_decimalText hwhole hfraction neg hne hne', ← List.append_assoc, digitsNumber_append_zero,
    List.length_append, List.length_singleton, Nat.pow_succ,
    magnitudeOfRatio_mul (by positivity) (by decide)]

end Lib.F64
