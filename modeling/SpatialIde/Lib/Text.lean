import Mathlib.Data.List.Basic
import Mathlib.Data.List.TakeWhile

/-! # Texts

What is cut off a text, and the bytes it has.  A character is white space as Unicode has it.
-/

namespace Lib.Text

/-- The `White_Space` property. -/
def isWhitespace (c : Char) : Bool :=
  let n := c.toNat
  (0x09 ≤ n && n ≤ 0x0D) || n == 0x20 || n == 0x85 || n == 0xA0 || n == 0x1680 ||
    (0x2000 ≤ n && n ≤ 0x200A) || n == 0x2028 || n == 0x2029 || n == 0x202F || n == 0x205F ||
    n == 0x3000

variable (p : Char → Bool)

def trimStartOf (s : List Char) : List Char := s.dropWhile p

def trimEndOf (s : List Char) : List Char := (s.reverse.dropWhile p).reverse

def trimOf (s : List Char) : List Char := trimEndOf p (trimStartOf p s)

/-- `str::trim`. -/
def trim (s : String) : String := String.ofList (trimOf isWhitespace s.toList)

/-- `str::trim_end_matches` for one character. -/
def trimEndMatches (s : String) (c : Char) : String := String.ofList (trimEndOf (· == c) s.toList)

/-- `str::strip_prefix`. -/
def stripPrefix (s start : String) : Option String :=
  if start.toList.isPrefixOf s.toList then some (String.ofList (s.toList.drop start.length)) else none

def isLowerHex (c : Char) : Bool := ('0' ≤ c && c ≤ '9') || ('a' ≤ c && c ≤ 'f')

/-- Exactly `n` lowercase hexadecimal digits. -/
def isLowerHexOf (n : Nat) (s : String) : Bool := s.length == n && s.toList.all isLowerHex

example : trim " parcels\n" = "parcels" := by decide

theorem stripPrefix_eq_some {s start rest : String} :
    stripPrefix s start = some rest ↔ s = start ++ rest := by
  rw [stripPrefix, ← String.toList_inj, String.toList_append]
  constructor
  · intro h
    split_ifs at h with hstart
    · cases h
      obtain ⟨t, ht⟩ := List.isPrefixOf_iff_prefix.1 hstart
      rw [String.toList_ofList, ← ht, ← String.length_toList, List.drop_left]
  · intro h
    rw [if_pos (List.isPrefixOf_iff_prefix.2 ⟨_, h.symm⟩), h, ← String.length_toList, List.drop_left,
      String.ofList_toList]

/-- What is cut off the end, and where it stops. -/
theorem trimEndOf_spec (s : List Char) :
    ∃ tail, s = trimEndOf p s ++ tail ∧ (∀ c ∈ tail, p c = true) ∧
      ∀ c, (trimEndOf p s).getLast? = some c → p c = false := by
  refine ⟨(s.reverse.takeWhile p).reverse, ?_, ?_, ?_⟩
  · rw [trimEndOf, ← List.reverse_append, List.takeWhile_append_dropWhile, List.reverse_reverse]
  · intro c hc
    exact List.mem_takeWhile_imp (List.mem_reverse.1 hc)
  · intro c hc
    rw [trimEndOf, List.getLast?_reverse] at hc
    have hhead := List.head?_dropWhile_not p s.reverse
    rw [hc] at hhead
    exact hhead

/-! ### The bytes of a text

`str::as_bytes` and `str::from_utf8`.
-/

def bytes (s : String) : List UInt8 := s.toByteArray.data.toList

/-- `str::from_utf8`. -/
def fromUtf8 (bs : List UInt8) : Option String := String.fromUTF8? ⟨bs.toArray⟩

theorem fromUtf8_bytes (s : String) : fromUtf8 (bytes s) = some s := by
  have hvalid : (⟨(bytes s).toArray⟩ : ByteArray).IsValidUTF8 := s.isValidUTF8
  rw [fromUtf8, String.fromUTF8?, dif_pos hvalid]
  rfl

theorem bytes_of_fromUtf8 {bs : List UInt8} {s : String} (h : fromUtf8 bs = some s) :
    bytes s = bs := by
  rw [fromUtf8, String.fromUTF8?] at h
  split_ifs at h with hvalid
  cases h
  rfl

@[simp] theorem length_bytes (s : String) : (bytes s).length = s.utf8ByteSize := rfl

theorem bytes_inj {s t : String} : bytes s = bytes t ↔ s = t := by
  refine ⟨fun h => ?_, fun h => h ▸ rfl⟩
  have := congrArg fromUtf8 h
  rw [fromUtf8_bytes, fromUtf8_bytes] at this
  exact Option.some.inj this

@[simp] theorem bytes_append (s t : String) : bytes (s ++ t) = bytes s ++ bytes t := by
  simp [bytes]

theorem bytes_eq (s : String) : bytes s = s.toList.flatMap String.utf8EncodeChar := by
  rw [bytes, ← String.utf8Encode_toList, List.utf8Encode]
  simp

theorem utf8ByteSize_le (s : String) : s.utf8ByteSize ≤ 4 * s.length := by
  rw [← length_bytes, bytes_eq, ← String.length_toList]
  induction s.toList with
  | nil => simp
  | cons c cs ih =>
    have := c.utf8Size_le_four
    simp only [List.flatMap_cons, List.length_append, String.length_utf8EncodeChar, List.length_cons]
    omega

theorem length_le_utf8ByteSize (s : String) : s.length ≤ s.utf8ByteSize := by
  rw [← length_bytes, bytes_eq, ← String.length_toList]
  induction s.toList with
  | nil => simp
  | cons c cs ih =>
    have := c.utf8Size_pos
    simp only [List.flatMap_cons, List.length_append, String.length_utf8EncodeChar, List.length_cons]
    omega

/-- A byte below `0x80` is a character. -/
theorem toNat_of_mem_encode {c : Char} {b : UInt8} (h : b ∈ String.utf8EncodeChar c)
    (hb : b.toNat < 0x80) : c.toNat = b.toNat := by
  have hc : c.toNat = c.val.toNat := rfl
  simp only [String.utf8EncodeChar] at h
  split_ifs at h with h₁ h₂ h₃ <;> simp only [List.mem_cons, List.not_mem_nil, or_false] at h
  · subst h
    rw [UInt8.toNat_ofNat', hc]
    omega
  all_goals
    exfalso
    rcases h with rfl | rfl | rfl | rfl | rfl
    all_goals
      rw [UInt8.toNat_ofNat'] at hb
      omega

theorem mem_of_mem_bytes {s : String} {b : UInt8} (h : b ∈ bytes s) (hb : b.toNat < 0x80) :
    ∃ c ∈ s.toList, c.toNat = b.toNat := by
  rw [bytes_eq, List.mem_flatMap] at h
  obtain ⟨c, hc, hmem⟩ := h
  exact ⟨c, hc, toNat_of_mem_encode hmem hb⟩

theorem encode_ascii {c : Char} (h : c.toNat < 0x80) :
    String.utf8EncodeChar c = [UInt8.ofNat c.toNat] := by
  have hc : c.val.toNat ≤ 0x7F := Nat.le_of_lt_succ h
  rw [String.utf8EncodeChar, if_pos hc]
  rfl

/-- **A text of ASCII bytes** is one of the characters they stand for. -/
theorem all_bytes_iff {p : UInt8 → Bool} (hp : ∀ b, p b = true → b.toNat < 0x80) (s : String) :
    (bytes s).all p = true ↔ ∀ c ∈ s.toList, c.toNat < 0x80 ∧ p (UInt8.ofNat c.toNat) = true := by
  rw [bytes_eq]
  induction s.toList with
  | nil => exact ⟨nofun, fun _ => rfl⟩
  | cons c cs ih =>
    rw [List.flatMap_cons, List.all_append, Bool.and_eq_true, ih, List.forall_mem_cons]
    refine and_congr_left fun _ => ⟨fun h => ?_, fun h => ?_⟩
    · obtain ⟨b, bs, hb⟩ := List.exists_cons_of_ne_nil (@String.utf8EncodeChar_ne_nil c)
      have hpb := List.all_eq_true.1 h b (hb ▸ List.mem_cons_self)
      have hc := toNat_of_mem_encode (hb ▸ List.mem_cons_self) (hp b hpb)
      rw [hc, UInt8.ofNat_toNat]
      exact ⟨hp b hpb, hpb⟩
    · rw [encode_ascii h.1, List.all_cons, h.2]
      rfl

/-- It has as many bytes as characters. -/
theorem utf8ByteSize_eq {s : String} (h : ∀ c ∈ s.toList, c.toNat < 0x80) :
    s.utf8ByteSize = s.length := by
  rw [← length_bytes, bytes_eq, ← String.length_toList]
  revert h
  induction s.toList with
  | nil => exact fun _ => rfl
  | cons c cs ih =>
    intro h
    obtain ⟨hc, hcs⟩ := List.forall_mem_cons.1 h
    rw [List.flatMap_cons, List.length_append, ih hcs, encode_ascii hc, List.length_singleton,
      List.length_cons, Nat.add_comm]

end Lib.Text

/-! ## Decoding bytes that may not be text

`TextDecoder.decode`: what is not UTF-8 becomes U+FFFD, and a byte order mark at the start is dropped.
-/

namespace Lib.Text

def REPLACEMENT : Char := '\uFFFD'

def BOM : Char := '\uFEFF'

/-- A sequence that has begun: what it has so far, how many bytes are to come, and the bounds of the
next of them. -/
structure Decoding where
  point : Nat
  needed : Nat
  lower : Nat
  upper : Nat
  deriving DecidableEq, Repr

def Decoding.idle : Decoding := ⟨0, 0, 0x80, 0xBF⟩

/-- The first byte of a sequence. -/
def Decoding.start (b : UInt8) : List Char × Decoding :=
  let n := b.toNat
  if n < 0x80 then ([Char.ofNat n], .idle)
  else if 0xC2 ≤ n ∧ n ≤ 0xDF then ([], ⟨n % 0x20, 1, 0x80, 0xBF⟩)
  else if n = 0xE0 then ([], ⟨n % 0x10, 2, 0xA0, 0xBF⟩)
  else if n = 0xED then ([], ⟨n % 0x10, 2, 0x80, 0x9F⟩)
  else if 0xE0 ≤ n ∧ n ≤ 0xEF then ([], ⟨n % 0x10, 2, 0x80, 0xBF⟩)
  else if n = 0xF0 then ([], ⟨n % 0x08, 3, 0x90, 0xBF⟩)
  else if n = 0xF4 then ([], ⟨n % 0x08, 3, 0x80, 0x8F⟩)
  else if 0xF0 ≤ n ∧ n ≤ 0xF4 then ([], ⟨n % 0x08, 3, 0x80, 0xBF⟩)
  else ([REPLACEMENT], .idle)

/-- The next byte; one that cannot go on the sequence starts another. -/
def Decoding.step (d : Decoding) (b : UInt8) : List Char × Decoding :=
  if d.needed = 0 then Decoding.start b
  else if d.lower ≤ b.toNat ∧ b.toNat ≤ d.upper then
    let point := d.point * 0x40 + b.toNat % 0x40
    if d.needed = 1 then ([Char.ofNat point], .idle)
    else ([], ⟨point, d.needed - 1, 0x80, 0xBF⟩)
  else
    let (out, d') := Decoding.start b
    (REPLACEMENT :: out, d')

def Decoding.run (d : Decoding) : List UInt8 → List Char
  | [] => if d.needed = 0 then [] else [REPLACEMENT]
  | b :: bs =>
    let (out, d') := d.step b
    out ++ d'.run bs

def dropBom : List Char → List Char
  | c :: cs => if c = BOM then cs else c :: cs
  | [] => []

/-- `new TextDecoder().decode`. -/
def decode (bs : List UInt8) : String := String.ofList (dropBom (Decoding.idle.run bs))

/-- `String::from_utf8_lossy`, which keeps a byte order mark. -/
def fromUtf8Lossy (bs : List UInt8) : String := String.ofList (Decoding.idle.run bs)

example : decode [0xEF, 0xBB, 0xBF, 0x61, 0xE2, 0x82, 0xAC, 0xC3, 0x28] = "a€\uFFFD(" := by decide +kernel

/-! ### Text -/

theorem run_cons (d : Decoding) (b : UInt8) (bs : List UInt8) :
    d.run (b :: bs) = (d.step b).1 ++ (d.step b).2.run bs := rfl

theorem toNat_ofNat {n : Nat} (h : n < 0x100) : (UInt8.ofNat n).toNat = n := by
  rw [UInt8.toNat_ofNat']
  omega

/-- A byte that goes on a sequence. -/
theorem run_more {point needed lower upper n : Nat} {bs : List UInt8} (hn : n < 0x40)
    (hlower : lower ≤ n + 0x80) (hupper : n + 0x80 ≤ upper) (hneeded : needed ≠ 0) :
    (Decoding.mk point (needed + 1) lower upper).run (UInt8.ofNat (n + 0x80) :: bs) =
      (Decoding.mk (point * 0x40 + n) needed 0x80 0xBF).run bs := by
  have hb : (UInt8.ofNat (n + 0x80)).toNat = n + 0x80 := toNat_ofNat (by omega)
  have hmod : (n + 0x80) % 0x40 = n := by omega
  rw [run_cons, Decoding.step]
  dsimp only
  rw [hb, if_neg (by omega), if_pos ⟨hlower, hupper⟩, if_neg (by omega), hmod]
  rfl

/-- The last byte of a sequence. -/
theorem run_last {point lower upper n : Nat} {bs : List UInt8} (hn : n < 0x40)
    (hlower : lower ≤ n + 0x80) (hupper : n + 0x80 ≤ upper) :
    (Decoding.mk point 1 lower upper).run (UInt8.ofNat (n + 0x80) :: bs) =
      Char.ofNat (point * 0x40 + n) :: Decoding.idle.run bs := by
  have hb : (UInt8.ofNat (n + 0x80)).toNat = n + 0x80 := toNat_ofNat (by omega)
  have hmod : (n + 0x80) % 0x40 = n := by omega
  rw [run_cons, Decoding.step]
  dsimp only
  rw [hb, if_neg (by omega), if_pos ⟨hlower, hupper⟩, if_pos rfl, hmod]
  rfl

theorem run_start {b : UInt8} {bs : List UInt8} {d : Decoding} (h : Decoding.start b = ([], d)) :
    Decoding.idle.run (b :: bs) = d.run bs := by
  have hstep : Decoding.idle.step b = Decoding.start b := if_pos rfl
  rw [run_cons, hstep, h]
  rfl

/-- The bounds of the byte behind a first byte of three. -/
theorem start_three {n : Nat} (h : n < 0x10) : ∃ lower upper,
    Decoding.start (UInt8.ofNat (n + 0xE0)) = ([], ⟨n, 2, lower, upper⟩) ∧
      lower = (if n = 0 then 0xA0 else 0x80) ∧ upper = (if n = 0xD then 0x9F else 0xBF) := by
  have hb : (UInt8.ofNat (n + 0xE0)).toNat = n + 0xE0 := toNat_ofNat (by omega)
  have hmod : (n + 0xE0) % 0x10 = n := by omega
  rw [Decoding.start]
  rw [hb, hmod, if_neg (by omega), if_neg (by omega)]
  by_cases h₀ : n = 0
  · rw [if_pos (by omega)]
    exact ⟨_, _, rfl, by rw [if_pos h₀], by rw [if_neg (by omega)]⟩
  by_cases h₁ : n = 0xD
  · rw [if_neg (by omega), if_pos (by omega)]
    exact ⟨_, _, rfl, by rw [if_neg h₀], by rw [if_pos h₁]⟩
  · rw [if_neg (by omega), if_neg (by omega), if_pos (by omega)]
    exact ⟨_, _, rfl, by rw [if_neg h₀], by rw [if_neg h₁]⟩

/-- The bounds of the byte behind a first byte of four. -/
theorem start_four {n : Nat} (h : n < 0x5) : ∃ lower upper,
    Decoding.start (UInt8.ofNat (n + 0xF0)) = ([], ⟨n, 3, lower, upper⟩) ∧
      lower = (if n = 0 then 0x90 else 0x80) ∧ upper = (if n = 4 then 0x8F else 0xBF) := by
  have hb : (UInt8.ofNat (n + 0xF0)).toNat = n + 0xF0 := toNat_ofNat (by omega)
  have hmod : (n + 0xF0) % 0x08 = n := by omega
  rw [Decoding.start]
  rw [hb, hmod, if_neg (by omega), if_neg (by omega), if_neg (by omega), if_neg (by omega),
    if_neg (by omega)]
  by_cases h₀ : n = 0
  · rw [if_pos (by omega)]
    exact ⟨_, _, rfl, by rw [if_pos h₀], by rw [if_neg (by omega)]⟩
  by_cases h₁ : n = 4
  · rw [if_neg (by omega), if_pos (by omega)]
    exact ⟨_, _, rfl, by rw [if_neg h₀], by rw [if_pos h₁]⟩
  · rw [if_neg (by omega), if_neg (by omega), if_pos (by omega)]
    exact ⟨_, _, rfl, by rw [if_neg h₀], by rw [if_neg h₁]⟩

/-- The bytes of a character decode to it. -/
theorem run_char (c : Char) (bs : List UInt8) :
    Decoding.idle.run (String.utf8EncodeChar c ++ bs) = c :: Decoding.idle.run bs := by
  have hvalid : c.val.toNat < 0xD800 ∨ 0xDFFF < c.val.toNat ∧ c.val.toNat < 0x110000 := c.valid
  have hchar : ∀ n, n = c.val.toNat → Char.ofNat n = c := by
    rintro n rfl
    exact Char.ofNat_toNat c
  generalize hv : c.val.toNat = v at hvalid hchar
  rw [String.utf8EncodeChar]
  rw [hv]
  by_cases h₁ : v ≤ 0x7F
  · -- One byte.
    have hb : (UInt8.ofNat v).toNat = v := toNat_ofNat (by omega)
    have hstep : Decoding.idle.step (UInt8.ofNat v) = ([Char.ofNat v], .idle) := by
      have hidle : Decoding.idle.step (UInt8.ofNat v) = Decoding.start (UInt8.ofNat v) := if_pos rfl
      rw [hidle, Decoding.start, hb, if_pos (by omega)]
    rw [if_pos h₁, List.cons_append, List.nil_append, run_cons, hstep, hchar v rfl]
    rfl
  by_cases h₂ : v ≤ 0x7FF
  · -- Two bytes.
    have hb : (UInt8.ofNat (v / 64 % 0x20 + 0xC0)).toNat = v / 64 + 0xC0 := by
      rw [toNat_ofNat (by omega)]
      omega
    have hstart : Decoding.start (UInt8.ofNat (v / 64 % 0x20 + 0xC0)) =
        ([], ⟨v / 64, 1, 0x80, 0xBF⟩) := by
      rw [Decoding.start, hb, if_neg (by omega), if_pos (by omega)]
      congr 2
      omega
    rw [if_neg h₁, if_pos h₂, List.cons_append, run_start hstart, List.cons_append,
      run_last (by omega) (by omega) (by omega), hchar _ (by omega)]
    rfl
  by_cases h₃ : v ≤ 0xFFFF
  · -- Three bytes.
    obtain ⟨lower, upper, hstart, hlower, hupper⟩ := @start_three (v / 4096 % 0x10) (by omega)
    have hlow : lower ≤ v / 64 % 0x40 + 0x80 := by
      rw [hlower]
      split_ifs <;> omega
    have hup : v / 64 % 0x40 + 0x80 ≤ upper := by
      rw [hupper]
      split_ifs <;> omega
    rw [if_neg h₁, if_neg h₂, if_pos h₃, List.cons_append, run_start hstart, List.cons_append,
      run_more (by omega) hlow hup (by decide), List.cons_append,
      run_last (by omega) (by omega) (by omega), hchar _ (by omega)]
    rfl
  · -- Four bytes.
    obtain ⟨lower, upper, hstart, hlower, hupper⟩ := @start_four (v / 262144 % 0x08) (by omega)
    have hlow : lower ≤ v / 4096 % 0x40 + 0x80 := by
      rw [hlower]
      split_ifs <;> omega
    have hup : v / 4096 % 0x40 + 0x80 ≤ upper := by
      rw [hupper]
      split_ifs <;> omega
    rw [if_neg h₁, if_neg h₂, if_neg h₃, List.cons_append, run_start hstart, List.cons_append,
      run_more (by omega) hlow hup (by decide), List.cons_append,
      run_more (by omega) (by omega) (by omega) (by decide), List.cons_append,
      run_last (by omega) (by omega) (by omega), hchar _ (by omega)]
    rfl

theorem run_bytes (s : String) : Decoding.idle.run (bytes s) = s.toList := by
  rw [bytes_eq]
  induction s.toList with
  | nil => rfl
  | cons c cs ih => rw [List.flatMap_cons, run_char, ih]

theorem decode_bytes (s : String) : decode (bytes s) = String.ofList (dropBom s.toList) := by
  rw [decode, run_bytes]

end Lib.Text
