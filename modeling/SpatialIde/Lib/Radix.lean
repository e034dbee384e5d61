import Mathlib.Data.List.Induction
import SpatialIde.Lib.Bytes
import SpatialIde.Lib.Text

/-! # Numbers in positional notation

`number base` reads a list of digits, the most significant one first, and `fixed base width` writes
one of a given length; `padded` is the text of a number filled up with zeros on the left.

* `number_fixed` reads back what is written;
* `padded_eq` and `fixed_pairs` give the text of a number in base 16, whether it is written whole or
  byte by byte;
* `number_pieces` reads a list of digits in pieces of one length.
-/

namespace Lib.Radix

/-- `char::to_digit`. -/
def toDigit (base : Nat) (c : Char) : Option Nat :=
  let n := c.toNat
  let digit :=
    if 0x30 ≤ n ∧ n ≤ 0x39 then n - 0x30
    else if 0x61 ≤ n ∧ n ≤ 0x7A then n - 0x57
    else if 0x41 ≤ n ∧ n ≤ 0x5A then n - 0x37
    else base
  if digit < base then some digit else none

def number (base : Nat) (digits : List Nat) : Nat := digits.foldl (fun n d => base * n + d) 0

/-- The `width` low digits of a number. -/
def fixed (base : Nat) : Nat → Nat → List Nat
  | 0, _ => []
  | width + 1, n => fixed base width (n / base) ++ [n % base]

/-- The text of a number, filled up with zeros. -/
def padded (base width n : Nat) : List Char :=
  List.replicate (width - (Nat.toDigits base n).length) '0' ++ Nat.toDigits base n

section

variable {base : Nat}

@[simp] theorem number_nil : number base [] = 0 := rfl

theorem number_concat (digits : List Nat) (d : Nat) :
    number base (digits ++ [d]) = base * number base digits + d := by
  rw [number, List.foldl_append]
  rfl

theorem number_append (xs ys : List Nat) :
    number base (xs ++ ys) = base ^ ys.length * number base xs + number base ys := by
  induction ys using List.reverseRecOn with
  | nil => simp
  | append_singleton ys d ih =>
    rw [← List.append_assoc, number_concat, number_concat, ih, List.length_append,
      List.length_singleton, pow_succ]
    ring

theorem number_lt {digits : List Nat} (h : ∀ d ∈ digits, d < base) :
    number base digits < base ^ digits.length := by
  induction digits using List.reverseRecOn with
  | nil => simp
  | append_singleton digits d ih =>
    have hinit := ih fun d hd => h d (List.mem_append_left _ hd)
    have hlast := h d (List.mem_append_right _ (List.mem_singleton_self d))
    rw [number_concat, List.length_append, List.length_singleton, pow_succ]
    calc base * number base digits + d < base * number base digits + base := by omega
      _ = base * (number base digits + 1) := by ring
      _ ≤ base * base ^ digits.length := Nat.mul_le_mul_left _ hinit
      _ = base ^ digits.length * base := Nat.mul_comm _ _

@[simp] theorem length_fixed : ∀ width n : Nat, (fixed base width n).length = width := by
  intro width
  induction width with
  | zero => intro n; rfl
  | succ width ih => intro n; rw [fixed, List.length_append, ih, List.length_singleton]

theorem number_fixed : ∀ {width n : Nat}, n < base ^ width → number base (fixed base width n) = n := by
  intro width
  induction width with
  | zero => intro n hn; rw [pow_zero] at hn; rw [fixed, number_nil]; omega
  | succ width ih =>
    intro n hn
    rw [pow_succ] at hn
    rw [fixed, number_concat, ih (Nat.div_lt_of_lt_mul (by rwa [Nat.mul_comm])),
      Nat.div_add_mod]

theorem mem_fixed_lt (hbase : 0 < base) : ∀ {width n d : Nat}, d ∈ fixed base width n → d < base := by
  intro width
  induction width with
  | zero => intro n d hd; cases hd
  | succ width ih =>
    intro n d hd
    rcases List.mem_append.1 hd with hd | hd
    · exact ih hd
    · rw [List.mem_singleton.1 hd]
      exact Nat.mod_lt _ hbase

/-- **A padded text** is that of the low digits, once the number fits. -/
theorem padded_eq (hbase : 1 < base) : ∀ {width n : Nat}, n < base ^ (width + 1) →
    padded base (width + 1) n = (fixed base (width + 1) n).map Nat.digitChar := by
  intro width
  induction width with
  | zero =>
    intro n hn
    have hn : n < base := by rwa [Nat.zero_add, pow_one] at hn
    rw [padded, Nat.toDigits_of_lt_base hn, fixed, fixed, Nat.mod_eq_of_lt hn]
    rfl
  | succ width ih =>
    intro n hn
    have hdiv : n / base < base ^ (width + 1) := by
      rw [pow_succ] at hn
      exact Nat.div_lt_of_lt_mul (by rwa [Nat.mul_comm])
    rw [fixed, List.map_append, ← ih hdiv]
    by_cases hsmall : n < base
    · rw [padded, padded, Nat.toDigits_of_lt_base hsmall, Nat.div_eq_of_lt hsmall,
        Nat.toDigits_zero, Nat.mod_eq_of_lt hsmall]
      simp only [List.length_singleton, Nat.add_sub_cancel, List.map_cons, List.map_nil]
      rw [List.replicate_succ']
    · rw [padded, padded, Nat.toDigits_of_base_le hbase (by omega), List.length_append,
        List.length_singleton, Nat.add_sub_add_right, List.append_assoc]
      rfl

/-- Two digits of each byte. -/
theorem fixed_pairs (half : Nat) : ∀ width n : Nat,
    (fixed (half * half) width n).flatMap (fixed half 2) = fixed half (2 * width) n := by
  intro width
  induction width with
  | zero => intro n; rfl
  | succ width ih =>
    intro n
    have hhigh : n % (half * half) / half % half = n / half % half := by
      rw [Nat.mod_mul_right_div_self, Nat.mod_mod]
    have hlow : n % (half * half) % half = n % half := Nat.mod_mul_right_mod n half half
    have hpair : fixed half 2 (n % (half * half)) = [n / half % half, n % half] := by
      rw [fixed, fixed, fixed, hhigh, hlow]
      rfl
    rw [fixed, List.flatMap_append, ih, ← Nat.div_div_eq_div_mul, List.flatMap_singleton, hpair,
      Nat.mul_succ, fixed, fixed, List.append_assoc]
    rfl

/-- The bytes of a number, the most significant one first. -/
theorem bytesOf_eq : ∀ width n : Nat,
    (bytesOf false width n).map UInt8.toNat = fixed 256 width n := by
  intro width
  induction width with
  | zero => intro n; rfl
  | succ width ih =>
    intro n
    have hlow : (UInt8.ofNat (n % 256)).toNat = n % 256 := by
      rw [UInt8.toNat_ofNat']
      omega
    have hinit := ih (n / 256)
    simp only [bytesOf, Bool.false_eq_true, if_false] at hinit ⊢
    rw [leBytes, List.reverse_cons, List.map_append, hinit, fixed, List.map_singleton, hlow]

/-- The value of bytes, the most significant one first. -/
theorem valueOf_eq (bs : List UInt8) : valueOf false bs = number 256 (bs.map UInt8.toNat) := by
  induction bs using List.reverseRecOn with
  | nil => rfl
  | append_singleton bs b ih =>
    simp only [valueOf, Bool.false_eq_true, if_false] at ih ⊢
    rw [List.reverse_append, List.reverse_singleton, List.singleton_append, leValue, ih,
      List.map_append, List.map_singleton, number_concat, Nat.add_comm]

/-- **A number in pieces**: digits read `width` at a time are digits to a greater base. -/
theorem number_pieces (base width : Nat) (pieces : List (List Nat))
    (h : ∀ p ∈ pieces, p.length = width) :
    number (base ^ width) (pieces.map (number base)) = number base pieces.flatten := by
  induction pieces using List.reverseRecOn with
  | nil => rfl
  | append_singleton pieces p ih =>
    have hp := h p (List.mem_append_right _ (List.mem_singleton_self p))
    rw [List.map_append, List.map_singleton, number_concat,
      ih fun q hq => h q (List.mem_append_left _ hq), List.flatten_append, List.flatten_singleton,
      number_append, hp]

/-- A list cut into windows. -/
theorem flatten_windows {α : Type} (l : List α) (width count : Nat) :
    ((List.range count).map fun i => (l.drop (i * width)).take width).flatten =
      l.take (count * width) := by
  induction count with
  | zero => rw [Nat.zero_mul]; rfl
  | succ count ih =>
    rw [List.range_succ, List.map_append, List.flatten_append, ih, List.map_singleton,
      List.flatten_singleton, Nat.succ_mul, List.take_add]

/-! ### Hexadecimal digits -/

theorem toDigit_digitChar {d : Nat} (h : d < 16) : toDigit 16 (Nat.digitChar d) = some d := by
  have hall : ∀ d < 16, toDigit 16 (Nat.digitChar d) = some d := by decide
  exact hall d h

theorem digitChar_lower {d : Nat} (h : d < 16) : Text.isLowerHex (Nat.digitChar d) = true := by
  have hall : ∀ d < 16, Text.isLowerHex (Nat.digitChar d) = true := by decide
  exact hall d h

theorem toNat_lt_of_lower {c : Char} (h : Text.isLowerHex c = true) : c.toNat < 128 := by
  simp only [Text.isLowerHex, Bool.or_eq_true, Bool.and_eq_true, decide_eq_true_eq, Char.le_def,
    UInt32.le_iff_toNat_le] at h
  change c.val.toNat < 128
  rcases h with h | h
  · exact Nat.lt_of_le_of_lt h.2 (by decide)
  · exact Nat.lt_of_le_of_lt h.2 (by decide)

/-- A lowercase digit is the one its value is written as. -/
theorem digit_of_lower {c : Char} (h : Text.isLowerHex c = true) :
    ∃ d < 16, c = Nat.digitChar d := by
  have hall : ∀ k < 128, Text.isLowerHex (Char.ofNat k) = true →
      ∃ d < 16, Char.ofNat k = Nat.digitChar d := by decide
  have hc := hall c.toNat (toNat_lt_of_lower h)
  rw [Char.ofNat_toNat] at hc
  exact hc h

/-- Lowercase digits as the numbers they stand for. -/
theorem digits_of_lower {cs : List Char} (h : ∀ c ∈ cs, Text.isLowerHex c = true) :
    ∃ ds : List Nat, (∀ d ∈ ds, d < 16) ∧ cs = ds.map Nat.digitChar := by
  induction cs with
  | nil => exact ⟨[], nofun, rfl⟩
  | cons c cs ih =>
    obtain ⟨hc, hcs⟩ := List.forall_mem_cons.1 h
    obtain ⟨d, hd, rfl⟩ := digit_of_lower hc
    obtain ⟨ds, hds, rfl⟩ := ih hcs
    exact ⟨d :: ds, List.forall_mem_cons.2 ⟨hd, hds⟩, rfl⟩

theorem mapM_toDigit {ds : List Nat} (h : ∀ d ∈ ds, d < 16) :
    (ds.map Nat.digitChar).mapM (toDigit 16) = some ds := by
  induction ds with
  | nil => rfl
  | cons d ds ih =>
    obtain ⟨hd, hds⟩ := List.forall_mem_cons.1 h
    rw [List.map_cons, List.mapM_cons, toDigit_digitChar hd, ih hds]
    rfl

end

end Lib.Radix
