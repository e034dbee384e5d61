import Mathlib.Data.List.Basic
import Mathlib.Tactic.Ring

/-! # Fixed-width integers as bytes

A fixed-width unsigned integer is written least significant byte first
(`leBytes`) or in the opposite order.  `bytesOf` and `valueOf` take the order as
a flag, the way a format that carries a byte-order mark does.

* `valueOf_bytesOf` reads back what was written, up to the width;
* `bytesOf_valueOf` writes back what was read, so on byte strings of one length
  the two are inverse and a value has exactly one encoding in each order.
-/

namespace Lib

/-- The value of a byte string, least significant byte first. -/
def leValue : List UInt8 → Nat
  | [] => 0
  | b :: bs => b.toNat + 256 * leValue bs

/-- The `n` low bytes of a number, least significant byte first. -/
def leBytes : Nat → Nat → List UInt8
  | 0, _ => []
  | n + 1, v => UInt8.ofNat (v % 256) :: leBytes n (v / 256)

/-- The `n` low bytes of a number in the order the flag names. -/
def bytesOf (little : Bool) (n v : Nat) : List UInt8 :=
  if little then leBytes n v else (leBytes n v).reverse

/-- The value of a byte string in the order the flag names. -/
def valueOf (little : Bool) (bs : List UInt8) : Nat :=
  if little then leValue bs else leValue bs.reverse

@[simp] theorem length_leBytes : ∀ (n v : Nat), (leBytes n v).length = n := by
  intro n
  induction n with
  | zero => intro v; rfl
  | succ n ih => intro v; rw [leBytes, List.length_cons, ih]

theorem leValue_lt : ∀ bs : List UInt8, leValue bs < 256 ^ bs.length := by
  intro bs
  induction bs with
  | nil => simp [leValue]
  | cons b bs ih =>
    have hb : b.toNat < 256 := b.toNat_lt
    rw [leValue, List.length_cons, pow_succ]
    omega

theorem leValue_leBytes : ∀ (n v : Nat), v < 256 ^ n → leValue (leBytes n v) = v := by
  intro n
  induction n with
  | zero => intro v hv; simp only [leBytes, leValue]; omega
  | succ n ih =>
    intro v hv
    have hdiv : v / 256 < 256 ^ n := by
      rw [pow_succ] at hv
      exact Nat.div_lt_of_lt_mul (by omega)
    have hlow : (UInt8.ofNat (v % 256)).toNat = v % 256 := by
      rw [UInt8.toNat_ofNat']
      omega
    rw [leBytes, leValue, ih _ hdiv, hlow]
    omega

theorem leBytes_leValue : ∀ bs : List UInt8, leBytes bs.length (leValue bs) = bs := by
  intro bs
  induction bs with
  | nil => rfl
  | cons b bs ih =>
    have hb : b.toNat < 256 := b.toNat_lt
    have hlow : (b.toNat + 256 * leValue bs) % 256 = b.toNat := by omega
    have hhigh : (b.toNat + 256 * leValue bs) / 256 = leValue bs := by omega
    rw [leValue, List.length_cons, leBytes, hlow, hhigh, ih, UInt8.ofNat_toNat]

@[simp] theorem length_bytesOf (little : Bool) (n v : Nat) : (bytesOf little n v).length = n := by
  cases little <;> simp [bytesOf]

theorem valueOf_lt (little : Bool) (bs : List UInt8) : valueOf little bs < 256 ^ bs.length := by
  cases little with
  | false =>
    have h := leValue_lt bs.reverse
    rwa [List.length_reverse] at h
  | true => exact leValue_lt bs

/-- **What is written is read back**, as long as it fits the width. -/
theorem valueOf_bytesOf (little : Bool) {n v : Nat} (hv : v < 256 ^ n) :
    valueOf little (bytesOf little n v) = v := by
  cases little with
  | false => simp [valueOf, bytesOf, leValue_leBytes n v hv]
  | true => simp [valueOf, bytesOf, leValue_leBytes n v hv]

/-- **What is read is written back**: a byte string is the encoding of its value. -/
theorem bytesOf_valueOf (little : Bool) (bs : List UInt8) :
    bytesOf little bs.length (valueOf little bs) = bs := by
  cases little with
  | false =>
    have h := leBytes_leValue bs.reverse
    rw [List.length_reverse] at h
    simp [valueOf, bytesOf, h]
  | true => simp [valueOf, bytesOf, leBytes_leValue]

/-! ### Two halves -/

theorem leBytes_add : ∀ (m n v : Nat), leBytes (m + n) v = leBytes m v ++ leBytes n (v / 256 ^ m) := by
  intro m
  induction m with
  | zero => intro n v; rw [Nat.zero_add, pow_zero, Nat.div_one]; rfl
  | succ m ih =>
    intro n v
    rw [Nat.succ_add, leBytes, ih, leBytes, List.cons_append, Nat.div_div_eq_div_mul, pow_succ,
      Nat.mul_comm 256]

theorem leBytes_mod : ∀ (n v : Nat), leBytes n (v % 256 ^ n) = leBytes n v := by
  intro n
  induction n with
  | zero => intro v; rfl
  | succ n ih =>
    intro v
    have hlow : v % 256 ^ (n + 1) % 256 = v % 256 :=
      Nat.mod_mod_of_dvd v (Dvd.intro_left (256 ^ n) (pow_succ 256 n).symm)
    have hhigh : v % 256 ^ (n + 1) / 256 = v / 256 % 256 ^ n := by
      rw [pow_succ, Nat.mul_comm, Nat.mod_mul_right_div_self]
    rw [leBytes, leBytes, hlow, hhigh, ih]

/-- A number as its high bytes and then its low bytes. -/
theorem bytesOf_add (m n v : Nat) :
    bytesOf false (m + n) v =
      bytesOf false m (v / 256 ^ n % 256 ^ m) ++ bytesOf false n (v % 256 ^ n) := by
  simp only [bytesOf, Bool.false_eq_true, if_false]
  rw [leBytes_mod, leBytes_mod, Nat.add_comm, leBytes_add, List.reverse_append]

/-! ### Arrays that are written in place -/

/-- The items of an array from an offset on are those that are set there. -/
def setAt {α : Type} (array items : List α) (offset : Nat) : List α :=
  array.take offset ++ items ++ array.drop (offset + items.length)

theorem take_setAt {α : Type} {array items : List α} {offset : Nat} (h : offset ≤ array.length) :
    (setAt array items offset).take (offset + items.length) = array.take offset ++ items := by
  have hlen : (array.take offset ++ items).length = offset + items.length := by
    rw [List.length_append, List.length_take_of_le h]
  rw [setAt, ← hlen, List.take_left]

theorem length_setAt {α : Type} {array items : List α} {offset : Nat}
    (h : offset + items.length ≤ array.length) : (setAt array items offset).length = array.length := by
  rw [setAt, List.length_append, List.length_append, List.length_take, List.length_drop]
  omega

theorem setAt_append {α : Type} (front back items : List α) :
    setAt (front ++ back) items front.length = front ++ items ++ back.drop items.length := by
  rw [setAt, List.take_left, ← List.drop_drop, List.drop_left]

end Lib
