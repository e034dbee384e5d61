import SpatialIde.Lib.Regex
import SpatialIde.Protocol.Skp.Codec

/-! # The scalars of the control plane, in the shell

The sibling of the protocol's codec.  Both sides read and write sixteen hexadecimal digits alike
(`decodeHexF64_eq`, `encodeHexF64_eq`).  Decimal digits are read alike below 2 ^ 64, and the shell
has no bound above (`scalars_agree`).
-/

namespace SpatialIde.Shell.Skp

open Lib SpatialIde.Protocol

/-! ### Doubles -/

/-- White space and line ends. -/
def isStrWhiteSpace (c : Char) : Bool :=
  (Text.isWhitespace c && c.toNat != 0x85) || c.toNat == 0xFEFF

/-- `parseInt`; `none` is NaN. -/
def parseInt (text : List Char) (radix : Nat) : Option Int :=
  let (neg, unsigned) := splitSign (text.dropWhile isStrWhiteSpace)
  let body :=
    match unsigned with
    | '0' :: 'x' :: cs => if radix = 16 then cs else unsigned
    | '0' :: 'X' :: cs => if radix = 16 then cs else unsigned
    | cs => cs
  match (body.takeWhile fun c => (Radix.toDigit radix c).isSome).mapM (Radix.toDigit radix) with
  | some (d :: ds) =>
    let n : Int := Radix.number radix (d :: ds)
    some (if neg then -n else n)
  | _ => none

/-- What an element of a `Uint8Array` makes of a number. -/
def toUint8 : Option Int → UInt8
  | none => 0
  | some n => UInt8.ofNat (n % 256).toNat

/-- `DataView.getFloat64`, big-endian. -/
def getFloat64 (bytes : List UInt8) : F64 := ⟨UInt64.ofNat (valueOf false bytes)⟩

/-- `/^[0-9a-f]{16}$/` -/
def hexPattern : Regex Char := .times 16 (.cls Text.isLowerHex)

/-- The bytes are those of `DataView.setFloat64`, big-endian. -/
def encodeHexF64 (value : F64) : String :=
  String.ofList ((bytesOf false 8 value.bits.toNat).flatMap fun b => Radix.padded 16 2 b.toNat)

section

-- `JSON.stringify` of a text.
variable (stringify : String → String)

def decodeHexF64 (hex : String) : Except String F64 :=
  if hexPattern.test hex.toList = false then
    .error ("not a valid HexF64 (16 lowercase hex digits): " ++ stringify hex)
  else
    let bytes := (List.range 8).map fun i =>
      toUint8 (parseInt ((hex.toList.drop (i * 2)).take 2) 16)
    let value := getFloat64 bytes
    if value.isFinite then .ok value
    else .error ("bit pattern " ++ hex ++ " decodes to a non-finite value")

/-! ### Counts -/

def encodeDecU64 (value : Int) : Except String String :=
  if value < 0 then .error ("DecU64 must be non-negative: " ++ toString value)
  else .ok (toString value)

/-- `/^(0|[1-9][0-9]*)$/` -/
def decPattern : Regex Char :=
  .alt (.chr '0') (.seq (.cls fun c => c.isDigit && c != '0') (.star (.cls Char.isDigit)))

def decodeDecU64 (dec : String) : Except String Int :=
  if decPattern.test dec.toList = false then
    .error ("not a valid DecU64 (decimal, no leading zero): " ++ stringify dec)
  else .ok (F64.digitsNumber dec.toList)

end

/-! ### Sixteen digits -/

theorem hexPattern_iff (s : String) :
    hexPattern.test s.toList = true ↔ ∃ ds, IsHex16 s ds := by
  rw [Regex.test_iff, hexPattern, Regex.matches_times_cls]
  constructor
  · rintro ⟨hlength, hlower⟩
    obtain ⟨ds, hsmall, hlist⟩ := Radix.digits_of_lower hlower
    exact ⟨ds, by rw [← hlength, hlist, List.length_map], hsmall, hlist⟩
  · rintro ⟨ds, hlength, hsmall, hlist⟩
    rw [hlist, List.length_map]
    refine ⟨hlength, fun c hc => ?_⟩
    obtain ⟨d, hd, rfl⟩ := List.mem_map.1 hc
    exact Radix.digitChar_lower (hsmall d hd)

/-- Two digits are a byte. -/
theorem toUint8_parseInt {a b : Nat} (ha : a < 16) (hb : b < 16) :
    (toUint8 (parseInt ([a, b].map Nat.digitChar) 16)).toNat = Radix.number 16 [a, b] := by
  have hall : ∀ a < 16, ∀ b < 16,
      (toUint8 (parseInt ([a, b].map Nat.digitChar) 16)).toNat = Radix.number 16 [a, b] := by
    decide +kernel
  exact hall a ha b hb

section

variable {stringify : String → String} {s : String} {ds : List Nat}

/-- The eight bytes spell what the digits spell. -/
theorem valueOf_bytes (h : IsHex16 s ds) :
    valueOf false ((List.range 8).map fun i =>
      toUint8 (parseInt ((s.toList.drop (i * 2)).take 2) 16)) = Radix.number 16 ds := by
  have hpieces : ∀ i < 8, ((ds.drop (i * 2)).take 2).length = 2 := by
    intro i hi
    rw [List.length_take, List.length_drop, h.length_eq]
    omega
  have hbytes : ((List.range 8).map fun i =>
      toUint8 (parseInt ((s.toList.drop (i * 2)).take 2) 16)).map UInt8.toNat =
      ((List.range 8).map fun i => (ds.drop (i * 2)).take 2).map (Radix.number 16) := by
    rw [List.map_map, List.map_map]
    refine List.map_congr_left fun i hi => ?_
    obtain ⟨a, b, hab⟩ := List.length_eq_two.1 (hpieces i (List.mem_range.1 hi))
    have hmem : ∀ d ∈ [a, b], d < 16 := by
      rw [← hab]
      exact fun d hd => h.small d (List.mem_of_mem_drop (List.mem_of_mem_take hd))
    have hsame := toUint8_parseInt (hmem a (by simp)) (hmem b (by simp))
    rw [Function.comp, Function.comp, h.toList_eq, ← List.map_drop, ← List.map_take, hab, hsame]
  rw [Radix.valueOf_eq, hbytes]
  have hwhole := Radix.number_pieces 16 2 ((List.range 8).map fun i => (ds.drop (i * 2)).take 2)
    (by
      intro p hp
      obtain ⟨i, hi, rfl⟩ := List.mem_map.1 hp
      exact hpieces i (List.mem_range.1 hi))
  rw [Radix.flatten_windows, List.take_of_length_le (by rw [h.length_eq])] at hwhole
  exact hwhole

/-- **Sixteen digits are read alike**. -/
theorem decodeHexF64_eq (h : IsHex16 s ds) :
    decodeHexF64 stringify s =
      let v : F64 := ⟨UInt64.ofNat (Radix.number 16 ds)⟩
      if v.isFinite then .ok v
      else .error ("bit pattern " ++ s ++ " decodes to a non-finite value") := by
  have htest := (hexPattern_iff s).2 ⟨ds, h⟩
  rw [decodeHexF64, if_neg (by simp [htest])]
  simp only [getFloat64, valueOf_bytes h]

theorem decodeHexF64_refused (h : ¬∃ ds, IsHex16 s ds) :
    ∃ text, decodeHexF64 stringify s = .error text := by
  have htest : hexPattern.test s.toList = false := by
    rw [← Bool.not_eq_true]
    exact fun ht => h ((hexPattern_iff s).1 ht)
  exact ⟨_, by rw [decodeHexF64, if_pos htest]⟩

/-- **Both sides write the same digits**. -/
theorem encodeHexF64_eq (x : F64) : encodeHexF64 x = (HexF64.mk x).toHex := by
  have hbyte : (bytesOf false 8 x.bits.toNat).flatMap (fun b => Radix.padded 16 2 b.toNat) =
      (((bytesOf false 8 x.bits.toNat).map UInt8.toNat).flatMap (Radix.fixed 16 2)).map
        Nat.digitChar := by
    rw [List.flatMap_map, List.map_flatMap]
    refine List.flatMap_congr fun b _ => ?_
    exact Radix.padded_eq (by decide) b.toNat_lt
  have hlt : x.bits.toNat < 16 ^ (15 + 1) := x.bits.toNat_lt
  rw [encodeHexF64, hbyte, Radix.bytesOf_eq, Radix.fixed_pairs 16 8, HexF64.toHex,
    Radix.padded_eq (by decide) hlt]

/-- Both sides read back what is written. -/
theorem decoded_toHex {x : F64} (h : x.isFinite = true) :
    HexF64.fromHex (HexF64.mk x).toHex = .ok ⟨x⟩ ∧
      decodeHexF64 stringify (HexF64.mk x).toHex = .ok x := by
  have hx := isHex16_toHex ⟨x⟩
  have hbits : (⟨UInt64.ofNat (Radix.number 16 (Radix.fixed 16 16 x.bits.toNat))⟩ : F64) = x :=
    congrArg F64.mk (number_toHex ⟨x⟩)
  rw [hx.fromHex_eq, decodeHexF64_eq hx]
  simp only [hbits, h, if_true, and_self]

end

/-! ### Decimal digits -/

theorem decPattern_iff (s : String) :
    decPattern.test s.toList = true ↔ ∃ n : Nat, s = toString n := by
  rw [Regex.test_iff, decPattern, Regex.matches_alt, Regex.chr, Regex.matches_cls,
    Regex.matches_seq, ← minimal_iff]
  simp only [Regex.matches_cls, Regex.matches_star_cls]
  constructor
  · rintro (⟨c, hs, hc⟩ | ⟨u, v, hs, ⟨c, rfl, hc⟩, hv⟩)
    · rw [hs, of_decide_eq_true hc]
      exact ⟨by simp, by simp [Char.isDigit], by simp⟩
    · rw [Bool.and_eq_true] at hc
      rw [hs]
      refine ⟨by simp, ?_, fun _ hhead => ?_⟩
      · exact List.forall_mem_cons.2 ⟨hc.1, hv⟩
      · cases hhead
        exact absurd hc.2 (by decide)
  · rintro ⟨hne, hdigits, hzero⟩
    obtain ⟨c, cs, hs⟩ := List.exists_cons_of_ne_nil hne
    rw [hs] at hdigits hzero ⊢
    obtain ⟨hc, hcs⟩ := List.forall_mem_cons.1 hdigits
    by_cases hz : c = '0'
    · subst hz
      have hnil : cs = [] := by
        by_contra hcs
        have := List.length_pos_of_ne_nil hcs
        exact hzero (by rw [List.length_cons]; omega) rfl
      exact .inl ⟨'0', by rw [hnil], by decide⟩
    · exact .inr ⟨[c], cs, rfl, ⟨c, rfl, by simp [hc, hz]⟩, hcs⟩

section

variable {debug stringify : String → String}

theorem decodeDecU64_toString (n : Nat) : decodeDecU64 stringify (toString n) = .ok (n : Int) := by
  have htest := (decPattern_iff (toString n)).2 ⟨n, rfl⟩
  rw [decodeDecU64, htest, if_neg (by decide), Nat.toString_eq_repr, Nat.toList_repr,
    F64.digitsNumber_toDigits]

theorem decodeDecU64_refused {s : String} (h : ¬∃ n : Nat, s = toString n) :
    ∃ text, decodeDecU64 stringify s = .error text := by
  have htest : decPattern.test s.toList = false := by
    rw [← Bool.not_eq_true]
    exact fun ht => h ((decPattern_iff s).1 ht)
  exact ⟨_, by rw [decodeDecU64, if_pos htest]⟩

theorem encodeDecU64_ofNat (n : Nat) : encodeDecU64 n = .ok (toString n) :=
  if_neg (by omega)

/-! ### The two codecs -/

/-- Both accept the text, as the same double, or both refuse it. -/
def HexAlike (stringify : String → String) (s : String) : Prop :=
  (HexF64.fromHex s).toOption.map HexF64.value = (decodeHexF64 stringify s).toOption

/-- Both accept the text, as the same number, or both refuse it. -/
def DecAlike (debug stringify : String → String) (s : String) : Prop :=
  (DecU64.fromDec debug s).toOption.map (fun x => (x.value.toNat : Int)) =
    (decodeDecU64 stringify s).toOption

/-- What the shell writes of a number is accepted. -/
def Accepted (debug : String → String) (value : Int) : Prop :=
  ∀ s, encodeDecU64 value = .ok s → ∃ x, DecU64.fromDec debug s = .ok x

theorem hexAlike (s : String) : HexAlike stringify s := by
  by_cases h : ∃ ds, IsHex16 s ds
  · obtain ⟨ds, h⟩ := h
    rw [HexAlike, h.fromHex_eq, decodeHexF64_eq h]
    dsimp only
    split <;> rfl
  · obtain ⟨text, ht⟩ := @decodeHexF64_refused stringify _ h
    rw [HexAlike, fromHex_malformed h, ht]
    rfl

theorem decAlike_iff (s : String) :
    DecAlike debug stringify s ↔ ∀ n : Nat, s = toString n → n < 2 ^ 64 := by
  by_cases h : ∃ n : Nat, s = toString n
  · obtain ⟨n, rfl⟩ := h
    rw [DecAlike, DecU64.fromDec_toString, decodeDecU64_toString]
    by_cases hn : n < 2 ^ 64
    · rw [if_pos hn]
      refine iff_of_true ?_ fun m hm => ?_
      · have hvalue : (UInt64.ofNat n).toNat = n := Nat.mod_eq_of_lt hn
        exact congrArg (fun k : Nat => some (k : Int)) hvalue
      · have hsame := @decodeDecU64_toString stringify n
        rw [hm, decodeDecU64_toString] at hsame
        have := Int.ofNat.inj (Except.ok.inj hsame)
        omega
    · rw [if_neg hn]
      exact iff_of_false nofun fun hall => hn (hall n rfl)
  · obtain ⟨text, ht⟩ := @DecU64.fromDec_refused debug _ h
    obtain ⟨text', ht'⟩ := @decodeDecU64_refused stringify _ h
    rw [DecAlike, ht, ht']
    exact iff_of_true rfl fun n hn => absurd ⟨n, hn⟩ h

theorem accepted_iff (value : Int) : Accepted debug value ↔ value < 2 ^ 64 := by
  by_cases hneg : value < 0
  · refine iff_of_true (fun s hs => ?_) (by omega)
    rw [encodeDecU64, if_pos hneg] at hs
    cases hs
  · obtain ⟨n, rfl⟩ := Int.eq_ofNat_of_zero_le (not_lt.1 hneg)
    have hcast : ((n : Int) < 2 ^ 64) ↔ n < 2 ^ 64 := by omega
    rw [Accepted, hcast]
    constructor
    · intro h
      obtain ⟨x, hx⟩ := h _ (encodeDecU64_ofNat n)
      rw [DecU64.fromDec_toString] at hx
      by_contra hn
      rw [if_neg hn] at hx
      cases hx
    · intro hn s hs
      cases (encodeDecU64_ofNat n).symm.trans hs
      rw [DecU64.fromDec_toString, if_pos hn]
      exact ⟨_, rfl⟩

end

/-- **The two codecs**: doubles cross unchanged in either direction, every text is read alike as a
double, and counts are read and written alike exactly below 2 ^ 64. -/
theorem scalars_agree (debug stringify : String → String) :
    (∀ s, HexAlike stringify s) ∧
    (∀ x : F64, x.isFinite = true → ∀ text ∈ [(HexF64.mk x).toHex, encodeHexF64 x],
      HexF64.fromHex text = .ok ⟨x⟩ ∧ decodeHexF64 stringify text = .ok x) ∧
    (∀ s, DecAlike debug stringify s ↔ ∀ n : Nat, s = toString n → n < 2 ^ 64) ∧
    ∀ value, Accepted debug value ↔ value < 2 ^ 64 := by
  refine ⟨hexAlike, fun x hx text htext => ?_, decAlike_iff, accepted_iff⟩
  rw [encodeHexF64_eq, List.mem_cons, List.mem_singleton, or_self] at htext
  subst htext
  exact decoded_toHex hx

/-- The shell reads and writes the first count that does not fit, which the protocol refuses. -/
theorem scalars_differ :
    ¬DecAlike id id "18446744073709551616" ∧ ¬Accepted id 18446744073709551616 := by
  refine ⟨?_, ?_⟩
  · rw [DecAlike]
    decide +kernel
  · intro h
    obtain ⟨x, hx⟩ := h "18446744073709551616" (by decide +kernel)
    have hrefused : (DecU64.fromDec id "18446744073709551616").toOption = none := by decide +kernel
    rw [hx] at hrefused
    cases hrefused

end SpatialIde.Shell.Skp
