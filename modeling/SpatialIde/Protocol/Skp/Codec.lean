import SpatialIde.Lib.Decimal
import SpatialIde.Lib.Radix

/-! # The scalars of the control plane

A double crosses as the sixteen digits of its bits, and a count as its decimal digits.

* `fromHex_isOk_iff` and `fromDec_isOk_iff` are what is accepted, `bits_fromHex` and `value_fromDec`
  what it stands for;
* `fromHex_toHex` and `fromDec_toDec` read back what is written.
-/

namespace SpatialIde.Protocol

open Lib

inductive HexF64ParseError where
  | malformed (s : String)
  | nonFinite (s : String)
  deriving DecidableEq, Repr

/-- `Display`; `debug` is `{:?}` of a text. -/
def HexF64ParseError.display (debug : String → String) : HexF64ParseError → String
  | .malformed s => "not a valid HexF64 (16 lowercase hex digits): " ++ debug s
  | .nonFinite s => "bit pattern " ++ s ++ " decodes to a non-finite value"

structure HexF64 where
  value : F64
  deriving DecidableEq, Repr

def isAsciiDigit (b : UInt8) : Bool := 0x30 ≤ b && b ≤ 0x39

def isLowerHexByte (b : UInt8) : Bool := isAsciiDigit b || (0x61 ≤ b && b ≤ 0x66)

/-- `u64::from_str_radix`. -/
def fromStrRadix (s : String) (radix : Nat) : Option UInt64 :=
  let digits := match s.toList with
    | '+' :: cs => cs
    | cs => cs
  if digits = [] then none
  else
    match digits.mapM (Radix.toDigit radix) with
    | none => none
    | some ds =>
      let n := Radix.number radix ds
      if n < 2 ^ 64 then some (UInt64.ofNat n) else none

namespace HexF64

/-- `format!("{:016x}", bits)` -/
def toHex (x : HexF64) : String := String.ofList (Radix.padded 16 16 x.value.bits.toNat)

def fromHex (s : String) : Except HexF64ParseError HexF64 :=
  if s.utf8ByteSize ≠ 16 ∨ (Text.bytes s).all isLowerHexByte = false then .error (.malformed s)
  else
    match fromStrRadix s 16 with
    | none => .error (.malformed s)
    | some bits =>
      let v : F64 := ⟨bits⟩
      if v.isFinite then .ok ⟨v⟩ else .error (.nonFinite s)

end HexF64

structure DecU64 where
  value : UInt64
  deriving DecidableEq, Repr

namespace DecU64

def toDec (x : DecU64) : String := toString x.value.toNat

/-- `debug` is `{:?}` of a text. -/
def fromDec (debug : String → String) (s : String) : Except String DecU64 :=
  if s.isEmpty ∨ (Text.bytes s).all isAsciiDigit = false then
    .error ("not a valid DecU64 (decimal digits only): " ++ debug s)
  else if 1 < s.utf8ByteSize ∧ s.toList.head? = some '0' then
    .error ("not a valid DecU64 (leading zero): " ++ debug s)
  else
    match parseU64 s with
    | some n => .ok ⟨n⟩
    | none =>
      .error ("DecU64 out of range: " ++ debug s ++ " (number too large to fit in target type)")

end DecU64

/-! ### Sixteen digits -/

/-- Sixteen lowercase digits. -/
structure IsHex16 (s : String) (ds : List Nat) : Prop where
  length_eq : ds.length = 16
  small : ∀ d ∈ ds, d < 16
  toList_eq : s.toList = ds.map Nat.digitChar

theorem isLowerHexByte_ofNat {c : Char} (h : c.toNat < 128) :
    isLowerHexByte (UInt8.ofNat c.toNat) = Text.isLowerHex c := by
  have hall : ∀ k < 128, isLowerHexByte (UInt8.ofNat k) = Text.isLowerHex (Char.ofNat k) := by
    decide
  have hc := hall c.toNat h
  rwa [Char.ofNat_toNat] at hc

theorem isAsciiDigit_ofNat {c : Char} (h : c.toNat < 128) :
    isAsciiDigit (UInt8.ofNat c.toNat) = c.isDigit := by
  have hall : ∀ k < 128, isAsciiDigit (UInt8.ofNat k) = (Char.ofNat k).isDigit := by decide
  have hc := hall c.toNat h
  rwa [Char.ofNat_toNat] at hc

theorem toNat_lt_of_digit (b : UInt8) (h : isAsciiDigit b = true) : b.toNat < 0x80 := by
  simp only [isAsciiDigit, Bool.and_eq_true, decide_eq_true_eq, UInt8.le_iff_toNat_le] at h
  exact Nat.lt_of_le_of_lt h.2 (by decide)

theorem toNat_lt_of_hexByte (b : UInt8) (h : isLowerHexByte b = true) : b.toNat < 0x80 := by
  rw [isLowerHexByte, Bool.or_eq_true] at h
  rcases h with h | h
  · exact toNat_lt_of_digit b h
  · simp only [Bool.and_eq_true, decide_eq_true_eq, UInt8.le_iff_toNat_le] at h
    exact Nat.lt_of_le_of_lt h.2 (by decide)

theorem hexBytes_iff (s : String) :
    (Text.bytes s).all isLowerHexByte = true ↔ ∀ c ∈ s.toList, Text.isLowerHex c = true := by
  rw [Text.all_bytes_iff toNat_lt_of_hexByte]
  refine forall₂_congr fun c _ => ⟨fun ⟨hlt, hc⟩ => ?_, fun hc => ?_⟩
  · rwa [isLowerHexByte_ofNat hlt] at hc
  · have hlt := Radix.toNat_lt_of_lower hc
    exact ⟨hlt, by rwa [isLowerHexByte_ofNat hlt]⟩

theorem toNat_lt_of_isDigit {c : Char} (h : c.isDigit = true) : c.toNat < 128 := by
  simp only [Char.isDigit, Bool.and_eq_true, decide_eq_true_eq, ge_iff_le, UInt32.le_iff_toNat_le] at h
  exact Nat.lt_of_le_of_lt h.2 (by decide)

theorem digitBytes_iff (s : String) :
    (Text.bytes s).all isAsciiDigit = true ↔ ∀ c ∈ s.toList, c.isDigit = true := by
  rw [Text.all_bytes_iff toNat_lt_of_digit]
  refine forall₂_congr fun c _ => ⟨fun ⟨hlt, hc⟩ => ?_, fun hc => ?_⟩
  · rwa [isAsciiDigit_ofNat hlt] at hc
  · have hlt := toNat_lt_of_isDigit hc
    exact ⟨hlt, by rwa [isAsciiDigit_ofNat hlt]⟩

/-- The text of sixteen digits, and the other way round. -/
theorem isHex16_iff {s : String} :
    (s.utf8ByteSize = 16 ∧ (Text.bytes s).all isLowerHexByte = true) ↔ ∃ ds, IsHex16 s ds := by
  rw [hexBytes_iff]
  constructor
  · rintro ⟨hsize, hlower⟩
    obtain ⟨ds, hsmall, hlist⟩ := Radix.digits_of_lower hlower
    have hlength := Text.utf8ByteSize_eq fun c hc => Radix.toNat_lt_of_lower (hlower c hc)
    rw [← String.length_toList, hlist, List.length_map] at hlength
    exact ⟨ds, by omega, hsmall, hlist⟩
  · rintro ⟨ds, hlength, hsmall, hlist⟩
    have hlower : ∀ c ∈ s.toList, Text.isLowerHex c = true := by
      intro c hc
      rw [hlist] at hc
      obtain ⟨d, hd, rfl⟩ := List.mem_map.1 hc
      exact Radix.digitChar_lower (hsmall d hd)
    refine ⟨?_, hlower⟩
    rw [Text.utf8ByteSize_eq fun c hc => Radix.toNat_lt_of_lower (hlower c hc),
      ← String.length_toList, hlist, List.length_map, hlength]

namespace IsHex16

variable {s : String} {ds : List Nat}

theorem number_lt (h : IsHex16 s ds) : Radix.number 16 ds < 2 ^ 64 := by
  have hlt := Radix.number_lt h.small
  rwa [h.length_eq] at hlt

/-- The bits the digits spell. -/
theorem fromStrRadix_eq (h : IsHex16 s ds) :
    fromStrRadix s 16 = some (UInt64.ofNat (Radix.number 16 ds)) := by
  obtain ⟨d, rest, rfl⟩ := List.exists_cons_of_length_eq_add_one h.length_eq
  have hplus : Nat.digitChar d ≠ '+' := by
    intro hd
    have hlower := Radix.digitChar_lower (h.small d List.mem_cons_self)
    rw [hd] at hlower
    exact absurd hlower (by decide)
  have hmatch : (match s.toList with
      | '+' :: cs => cs
      | cs => cs) = (d :: rest).map Nat.digitChar := by
    rw [h.toList_eq, List.map_cons]
    split
    · next cs heq => exact absurd (List.cons.inj heq).1 hplus
    · rfl
  rw [fromStrRadix, hmatch, if_neg (by simp), Radix.mapM_toDigit h.small]
  exact if_pos h.number_lt

/-- **What sixteen digits are read as**: the double of their bits, unless that one is not finite. -/
theorem fromHex_eq (h : IsHex16 s ds) :
    HexF64.fromHex s =
      let v : F64 := ⟨UInt64.ofNat (Radix.number 16 ds)⟩
      if v.isFinite then .ok ⟨v⟩ else .error (.nonFinite s) := by
  obtain ⟨hsize, hbytes⟩ := isHex16_iff.2 ⟨ds, h⟩
  rw [HexF64.fromHex, if_neg (by simp [hsize, hbytes]), h.fromStrRadix_eq]

end IsHex16

/-- What is not sixteen digits is refused. -/
theorem fromHex_malformed {s : String} (h : ¬∃ ds, IsHex16 s ds) :
    HexF64.fromHex s = .error (.malformed s) := by
  rw [HexF64.fromHex, if_pos]
  by_contra hnot
  push Not at hnot
  exact h (isHex16_iff.1 ⟨hnot.1, by simpa using hnot.2⟩)

/-- The digits of some bits. -/
theorem isHex16_toHex (x : HexF64) :
    IsHex16 x.toHex (Radix.fixed 16 16 x.value.bits.toNat) where
  length_eq := Radix.length_fixed 16 _
  small _ hd := Radix.mem_fixed_lt (by decide) hd
  toList_eq := by
    rw [HexF64.toHex, String.toList_ofList]
    exact Radix.padded_eq (by decide) x.value.bits.toNat_lt

theorem number_toHex (x : HexF64) :
    UInt64.ofNat (Radix.number 16 (Radix.fixed 16 16 x.value.bits.toNat)) = x.value.bits := by
  have hlt : x.value.bits.toNat < 16 ^ 16 := x.value.bits.toNat_lt
  rw [Radix.number_fixed hlt, UInt64.ofNat_toNat]

/-! ### Decimal digits -/

/-- A text of digits without a leading zero is that of the number it spells. -/
theorem minimal_iff (s : String) :
    (s.toList ≠ [] ∧ (∀ c ∈ s.toList, c.isDigit = true) ∧
      (1 < s.toList.length → s.toList.head? ≠ some '0')) ↔ ∃ n : Nat, s = toString n := by
  constructor
  · rintro ⟨hne, hdigits, hzero⟩
    refine ⟨F64.digitsNumber s.toList, ?_⟩
    rw [← String.toList_inj, Nat.toString_eq_repr, Nat.toList_repr,
      F64.toDigits_digitsNumber hne hdigits hzero]
  · rintro ⟨n, rfl⟩
    rw [Nat.toString_eq_repr, Nat.toList_repr]
    refine ⟨Nat.toDigits_ne_nil, fun c hc => F64.isDigit_of_mem_toDigits hc, fun hlength => ?_⟩
    refine F64.toDigits_head_ne_zero (Nat.pos_of_ne_zero ?_)
    rintro rfl
    exact absurd hlength (by decide)

theorem parseU64_toString (n : Nat) :
    parseU64 (toString n) = if n < 2 ^ 64 then some (UInt64.ofNat n) else none := by
  have hdigits : ∀ c ∈ Nat.toDigits 10 n, c.isDigit = true :=
    fun c hc => F64.isDigit_of_mem_toDigits hc
  rw [Nat.toString_eq_repr]
  refine parseU64_of_digits ?_
  rw [Nat.toList_repr, F64.digitsValue_eq Nat.toDigits_ne_nil hdigits, F64.digitsNumber_toDigits]

namespace DecU64

variable {debug : String → String}

/-- **What the text of a number is read as.** -/
theorem fromDec_toString (n : Nat) :
    fromDec debug (toString n) =
      if n < 2 ^ 64 then .ok ⟨UInt64.ofNat n⟩
      else .error ("DecU64 out of range: " ++ debug (toString n) ++
        " (number too large to fit in target type)") := by
  obtain ⟨hne, hdigits, hzero⟩ := (minimal_iff (toString n)).2 ⟨n, rfl⟩
  have hempty : (toString n).isEmpty = false := by
    rw [← Bool.not_eq_true, String.isEmpty_iff, ← String.toList_inj]
    exact hne
  have hsize : (toString n).utf8ByteSize = (toString n).toList.length := by
    rw [Text.utf8ByteSize_eq fun c hc => toNat_lt_of_isDigit (hdigits c hc), String.length_toList]
  rw [fromDec, if_neg (by rw [hempty, (digitBytes_iff _).2 hdigits]; simp), hsize,
    if_neg fun h => hzero h.1 h.2, parseU64_toString]
  by_cases hn : n < 2 ^ 64
  · rw [if_pos hn, if_pos hn]
  · rw [if_neg hn, if_neg hn]

/-- What is not the text of a number is refused. -/
theorem fromDec_refused {s : String} (h : ¬∃ n : Nat, s = toString n) :
    ∃ text, fromDec debug s = .error text := by
  rw [fromDec]
  split_ifs with hdigits hzero
  · exact ⟨_, rfl⟩
  · exact ⟨_, rfl⟩
  · push Not at hdigits
    refine absurd ((minimal_iff s).1 ⟨?_, (digitBytes_iff s).1 (by simpa using hdigits.2), ?_⟩) h
    · intro hnil
      refine hdigits.1 (String.isEmpty_iff.2 (String.toList_inj.1 hnil))
    · intro hlength hhead
      refine hzero ⟨?_, hhead⟩
      exact Nat.lt_of_lt_of_le (by rwa [← String.length_toList]) (Text.length_le_utf8ByteSize s)

end DecU64

end SpatialIde.Protocol
