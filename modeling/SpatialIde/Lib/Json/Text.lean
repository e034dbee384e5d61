import SpatialIde.Lib.Decimal
import SpatialIde.Lib.Json

/-! # JSON texts

The JSON grammar as a parser: blanks around every token, the eight short escapes and `\uXXXX` with
its surrogate pairs, numbers without leading zeros.  The members of an object are
in the order of the text, and a repeated key stays.

`Reads p t a` says that `p` reads `a` from the text `t` whatever ends the token
behind it.  `Reads.listOf` and `Reads.member` put the texts of items together;
`parse_eq_some` starts at a whole text.
-/

namespace Lib.Json

/-- A number as a double: an integer is rounded to the nearest. -/
def Value.asF64 : Value → Option F64
  | .number (.posInt n) => some (F64.ofMagnitude false (F64.magnitudeOfRatio n.toNat 1))
  | .number (.negInt n) =>
    some (F64.ofMagnitude (n.toInt < 0) (F64.magnitudeOfRatio n.toInt.natAbs 1))
  | .number (.float x) => some x
  | _ => none

def isBlank (c : Char) : Bool := c = ' ' || c = '\t' || c = '\n' || c = '\r'

def skipBlanks (s : List Char) : List Char := s.dropWhile isBlank

/-! ### Strings -/

def hexDigit (c : Char) : Option Nat :=
  let n := c.toNat
  if 0x30 ≤ n ∧ n ≤ 0x39 then some (n - 0x30)
  else if 0x41 ≤ n ∧ n ≤ 0x46 then some (n - 0x37)
  else if 0x61 ≤ n ∧ n ≤ 0x66 then some (n - 0x57)
  else none

/-- Four hexadecimal digits. -/
def hex4 : List Char → Option (Nat × List Char)
  | a :: b :: c :: d :: r => do
    let a ← hexDigit a
    let b ← hexDigit b
    let c ← hexDigit c
    let d ← hexDigit d
    return (((a * 16 + b) * 16 + c) * 16 + d, r)
  | _ => none

/-- The character of `\uXXXX`, behind the `u`: a high surrogate needs a low one after it. -/
def unescapeHex (s : List Char) : Option (Char × List Char) := do
  let (n, r) ← hex4 s
  if n < 0xD800 ∨ 0xDFFF < n then some (Char.ofNat n, r)
  else if 0xDC00 ≤ n then none
  else
    match r with
    | '\\' :: 'u' :: r => do
      let (m, r) ← hex4 r
      if 0xDC00 ≤ m ∧ m ≤ 0xDFFF then
        some (Char.ofNat (0x10000 + (n - 0xD800) * 0x400 + (m - 0xDC00)), r)
      else none
    | _ => none

/-- The escaped character, behind the backslash. -/
def unescape : List Char → Option (Char × List Char)
  | '"' :: r => some ('"', r)
  | '\\' :: r => some ('\\', r)
  | '/' :: r => some ('/', r)
  | 'b' :: r => some ('\x08', r)
  | 'f' :: r => some ('\x0C', r)
  | 'n' :: r => some ('\n', r)
  | 'r' :: r => some ('\r', r)
  | 't' :: r => some ('\t', r)
  | 'u' :: r => unescapeHex r
  | _ => none

/-- The characters up to the closing quote. -/
def scanString : Nat → List Char → Option (List Char × List Char)
  | 0, _ => none
  | _ + 1, [] => none
  | n + 1, c :: r =>
    if c = '"' then some ([], r)
    else if c = '\\' then do
      let (d, r) ← unescape r
      let (cs, r) ← scanString n r
      return (d :: cs, r)
    else if c.toNat < 0x20 then none
    else do
      let (cs, r) ← scanString n r
      return (c :: cs, r)

/-- A string, behind its opening quote. -/
def parseString (r : List Char) : Option (String × List Char) :=
  (scanString (r.length + 1) r).map fun (cs, r) => (String.ofList cs, r)

/-! ### Numbers -/

def isNumberChar (c : Char) : Bool :=
  c.isDigit || c = '-' || c = '+' || c = '.' || c = 'e' || c = 'E'

def isDigits (cs : List Char) : Bool := cs ≠ [] && cs.all Char.isDigit

/-- Digits without a leading zero. -/
def isInteger (cs : List Char) : Bool := isDigits cs && (cs.head? != some '0' || cs.length == 1)

/-- An exponent, from its mark on. -/
def isExponent (cs : List Char) : Bool := isDigits (splitSign (cs.drop 1)).2

/-- A number without its sign. -/
def isMagnitude (cs : List Char) : Bool :=
  let mantissa := cs.takeWhile fun c => !F64.isExponentMark c
  let exponent := cs.dropWhile fun c => !F64.isExponentMark c
  let fraction := mantissa.dropWhile (· ≠ '.')
  isInteger (mantissa.takeWhile (· ≠ '.')) && (fraction = [] || isDigits (fraction.drop 1)) &&
    (exponent = [] || isExponent exponent)

/-- What a number stands for: an integer where it is spelled as one of 64 bits. -/
def numberOf (cs : List Char) : Option Number :=
  let float := (F64.parse (String.ofList cs)).map Number.float
  match cs with
  | '-' :: ds =>
    match digitsValue ds with
    | some n => if 0 < n ∧ n ≤ 2 ^ 63 then some (.negInt (Int64.ofInt (-n))) else float
    | none => float
  | ds =>
    match digitsValue ds with
    | some n => if n < 2 ^ 64 then some (.posInt (UInt64.ofNat n)) else float
    | none => float

def isNumber (cs : List Char) : Bool := isMagnitude (if cs.head? = some '-' then cs.drop 1 else cs)

def parseNumber (s : List Char) : Option (Value × List Char) :=
  let token := s.takeWhile isNumberChar
  if isNumber token then
    (numberOf token).map fun n => (.number n, s.dropWhile isNumberChar)
  else none

/-! ### Values -/

def word (w : String) (v : Value) (s : List Char) : Option (Value × List Char) :=
  (w.toList.isPrefixOf? s).map fun r => (v, r)

def parseAtom (s : List Char) : Option (Value × List Char) :=
  word "null" .null s <|> word "true" (.bool true) s <|> word "false" (.bool false) s <|>
    parseNumber s

section

variable {α : Type} (item : List Char → Option (α × List Char)) (close : Char)

/-- Items with commas between them, and what closes them. -/
def parseItems : Nat → List Char → Option (List α × List Char)
  | 0, _ => none
  | n + 1, s => do
    let (a, r) ← item s
    match skipBlanks r with
    | [] => none
    | c :: r =>
      if c = close then some ([a], r)
      else if c = ',' then do
        let (as, r) ← parseItems n r
        return (a :: as, r)
      else none

/-- Any number of items, behind what opens them. -/
def listOf (s : List Char) : Option (List α × List Char) :=
  match skipBlanks s with
  | [] => none
  | c :: r => if c = close then some ([], r) else parseItems item close s.length s

def parseMember (s : List Char) : Option ((String × α) × List Char) :=
  match skipBlanks s with
  | '"' :: r => do
    let (key, r) ← parseString r
    match skipBlanks r with
    | ':' :: r => do
      let (a, r) ← item r
      return ((key, a), r)
    | _ => none
  | _ => none

end

/-- A value nested less than `n` deep. -/
def parseValue : Nat → List Char → Option (Value × List Char)
  | 0, _ => none
  | n + 1, s =>
    match skipBlanks s with
    | '"' :: r => (parseString r).map fun (text, r) => (.string text, r)
    | '[' :: r => (listOf (parseValue n) ']' r).map fun (items, r) => (.array items, r)
    | '{' :: r =>
      (listOf (parseMember (parseValue n)) '}' r).map fun (members, r) => (.object members, r)
    | s => parseAtom s

/-- The value of a whole text. -/
def parse (s : String) : Option Value :=
  match parseValue (s.length + 1) s.toList with
  | some (v, r) => if skipBlanks r = [] then some v else none
  | none => none

example : parse "\x7b\"a\" : [1, -2.50e1, \"\\u00e9\"]\x7d" =
    some (.object [("a", .array [.number (.posInt 1), .number (.float ⟨0xC039000000000000⟩),
      .string "é"])]) := by
  rfl

/-! ### Reading what is written -/

/-- What may stand behind a value: nothing, a comma or what closes a list. -/
def Ends (r : List Char) : Prop := ∀ c, r.head? = some c → c = ',' ∨ c = ']' ∨ c = '}'

theorem ends_nil : Ends [] := by
  intro c h
  cases h

theorem ends_cons {c : Char} (h : c = ',' ∨ c = ']' ∨ c = '}') (r : List Char) : Ends (c :: r) := by
  intro d hd
  cases hd
  exact h

/-- The text begins as a value does, without a blank. -/
def Opens (t : List Char) : Prop := ∃ c r, t = c :: r ∧ isBlank c = false ∧ c ≠ ']' ∧ c ≠ '}'

/-- The parser takes the text, and nothing of what stands behind it. -/
def Reads {α : Type} (p : List Char → Option (α × List Char)) (t : List Char) (a : α) : Prop :=
  ∀ r, Ends r → p (t ++ r) = some (a, r)

theorem skipBlanks_cons {c : Char} (h : isBlank c = false) (r : List Char) :
    skipBlanks (c :: r) = c :: r := by
  rw [skipBlanks, List.dropWhile_cons, h]
  rfl

theorem Opens.skipBlanks {t : List Char} (h : Opens t) (r : List Char) :
    skipBlanks (t ++ r) = t ++ r := by
  obtain ⟨c, t, rfl, hc, -⟩ := h
  exact skipBlanks_cons hc _

section

variable {α : Type} {item : List Char → Option (α × List Char)} {close : Char}

theorem Reads.items (hclose : close = ']' ∨ close = '}') : ∀ {ts : List (List Char)} {as : List α},
    List.Forall₂ (Reads item) ts as → ts ≠ [] → ∀ n r, ts.length ≤ n →
      parseItems item close n (List.intercalate [','] ts ++ close :: r) = some (as, r) := by
  have hcomma : ',' ≠ close := by
    rcases hclose with rfl | rfl <;> decide
  have hblank : isBlank close = false := by
    rcases hclose with rfl | rfl <;> decide
  intro ts as h
  induction h with
  | nil => intro hts; exact absurd rfl hts
  | @cons t a ts as hta hrest ih =>
    intro _ n r hn
    obtain ⟨n, rfl⟩ : ∃ m, n = m + 1 := ⟨n - 1, by simp only [List.length_cons] at hn; omega⟩
    cases hrest with
    | nil =>
      have hend := hta (close :: r) (ends_cons (.inr hclose) r)
      have htext : List.intercalate [','] [t] ++ close :: r = t ++ close :: r := by simp
      rw [htext, parseItems, hend]
      show (match skipBlanks (close :: r) with
        | [] => none
        | c :: r => if c = close then some ([a], r)
          else if c = ',' then _ else none) = _
      rw [skipBlanks_cons hblank]
      exact if_pos rfl
    | @cons t' a' ts as ht' hrest =>
      have htext : List.intercalate [','] (t :: t' :: ts) ++ close :: r =
          t ++ ',' :: (List.intercalate [','] (t' :: ts) ++ close :: r) := by
        simp [List.intercalate_cons_cons]
      have hgo := ih (by simp) n r (by simp only [List.length_cons] at hn ⊢; omega)
      rw [htext, parseItems, hta _ (ends_cons (.inl rfl) _)]
      show (match skipBlanks (',' :: _) with
        | [] => none
        | c :: r => if c = close then some ([a], r)
          else if c = ',' then _ else none) = _
      rw [skipBlanks_cons (by decide)]
      show (if ',' = close then _ else if ',' = ',' then _ else none) = _
      rw [if_neg hcomma, if_pos rfl, hgo]
      rfl

theorem length_le_intercalate (ts : List (List Char)) :
    ts.length ≤ (List.intercalate [','] ts).length + 1 := by
  induction ts with
  | nil => exact Nat.zero_le _
  | cons t ts ih =>
    cases ts with
    | nil => simp
    | cons t' ts =>
      rw [List.intercalate_cons_cons]
      simp only [List.length_cons, List.length_append] at ih ⊢
      omega

/-- A list of items is read whole. -/
theorem Reads.listOf (hclose : close = ']' ∨ close = '}') {ts : List (List Char)} {as : List α}
    (h : List.Forall₂ (Reads item) ts as) (hopens : ∀ t ∈ ts, Opens t) (r : List Char) :
    Json.listOf item close (List.intercalate [','] ts ++ close :: r) = some (as, r) := by
  cases h with
  | nil =>
    have hblank : isBlank close = false := by
      rcases hclose with rfl | rfl <;> decide
    show (match Json.skipBlanks (close :: r) with
      | [] => none
      | c :: r => if c = close then some ([], r) else _) = _
    rw [skipBlanks_cons hblank]
    exact if_pos rfl
  | @cons t a ts as hta hrest =>
    obtain ⟨c, t', rfl, hc, hc₁, hc₂⟩ := hopens t List.mem_cons_self
    have hhead : ∃ s, List.intercalate [','] ((c :: t') :: ts) ++ close :: r = c :: s := by
      cases ts with
      | nil => exact ⟨t' ++ close :: r, by simp⟩
      | cons t₂ ts => exact ⟨_, by rw [List.intercalate_cons_cons]; rfl⟩
    obtain ⟨s, hs⟩ := hhead
    have hne : c ≠ close := by
      rcases hclose with rfl | rfl <;> assumption
    have hlen := length_le_intercalate ((c :: t') :: ts)
    have hitems := Reads.items hclose (.cons hta hrest) (List.cons_ne_nil _ _)
      (List.intercalate [','] ((c :: t') :: ts) ++ close :: r).length r (by
        rw [List.length_append, List.length_cons (a := close)]
        omega)
    rw [hs] at hitems ⊢
    rw [Json.listOf, skipBlanks_cons hc]
    show (if c = close then _ else parseItems item close (c :: s).length (c :: s)) = _
    rw [if_neg hne, hitems]

theorem Reads.member {key : String} {k t : List Char} {a : α}
    (hkey : ∀ r, parseString (k ++ '"' :: r) = some (key, r)) (h : Reads item t a) :
    Reads (parseMember item) ('"' :: k ++ '"' :: ':' :: t) (key, a) := by
  intro r hr
  have htext : ('"' :: k ++ '"' :: ':' :: t) ++ r = '"' :: (k ++ '"' :: ':' :: (t ++ r)) := by simp
  rw [htext, parseMember, skipBlanks_cons (by decide)]
  show (parseString (k ++ '"' :: ':' :: (t ++ r))).bind _ = _
  rw [hkey]
  show (match skipBlanks (':' :: (t ++ r)) with
    | ':' :: r => (item r).bind _
    | _ => none) = _
  rw [skipBlanks_cons (by decide)]
  show (item (t ++ r)).bind _ = _
  rw [h r hr]
  rfl

end

/-- How a character may stand in a string. -/
def Escapes (t : List Char) (c : Char) : Prop :=
  (t = [c] ∧ c ≠ '"' ∧ c ≠ '\\' ∧ 0x20 ≤ c.toNat) ∨
    ∃ u, t = '\\' :: u ∧ ∀ r, unescape (u ++ r) = some (c, r)

theorem scanString_eq : ∀ {ts : List (List Char)} {cs : List Char}, List.Forall₂ Escapes ts cs →
    ∀ n r, cs.length < n → scanString n (ts.flatten ++ '"' :: r) = some (cs, r) := by
  intro ts cs h
  induction h with
  | nil =>
    intro n r hn
    obtain ⟨n, rfl⟩ : ∃ m, n = m + 1 := ⟨n - 1, by simp only [List.length_nil] at hn; omega⟩
    rfl
  | @cons t c ts cs htc _ ih =>
    intro n r hn
    obtain ⟨n, rfl⟩ : ∃ m, n = m + 1 := ⟨n - 1, by simp only [List.length_cons] at hn; omega⟩
    have hgo := ih n r (by simp only [List.length_cons] at hn; omega)
    rw [List.flatten_cons, List.append_assoc]
    rcases htc with ⟨rfl, hquote, hslash, hcontrol⟩ | ⟨u, rfl, hu⟩
    · rw [List.singleton_append, scanString, if_neg hquote, if_neg hslash, if_neg (by omega), hgo]
      rfl
    · rw [List.cons_append, scanString, if_neg (by decide), if_pos rfl, hu]
      show (scanString n (ts.flatten ++ '"' :: r)).bind _ = _
      rw [hgo]
      rfl

theorem length_le_flatten {ts : List (List Char)} {cs : List Char}
    (h : List.Forall₂ Escapes ts cs) : cs.length ≤ ts.flatten.length := by
  induction h with
  | nil => exact Nat.zero_le _
  | @cons t c ts cs htc _ ih =>
    rw [List.flatten_cons, List.length_append, List.length_cons]
    rcases htc with ⟨rfl, -⟩ | ⟨u, rfl, -⟩ <;> simp only [List.length_cons] <;> omega

/-- A string is read back character for character. -/
theorem parseString_eq {ts : List (List Char)} {cs : List Char} (h : List.Forall₂ Escapes ts cs)
    (r : List Char) : parseString (ts.flatten ++ '"' :: r) = some (String.ofList cs, r) := by
  have hlen := length_le_flatten h
  rw [parseString, scanString_eq h]
  · rfl
  · rw [List.length_append]
    omega

theorem isNumberChar_of_ends {c : Char} (h : c = ',' ∨ c = ']' ∨ c = '}') :
    isNumberChar c = false := by
  rcases h with rfl | rfl | rfl <;> decide

theorem reads_number {cs : List Char} {n : Number} (hchars : ∀ c ∈ cs, isNumberChar c = true)
    (hnumber : isNumber cs = true) (hvalue : numberOf cs = some n) :
    Reads parseNumber cs (.number n) := by
  intro r hr
  have hstop : ∀ c, r.head? = some c → isNumberChar c = false :=
    fun c hc => isNumberChar_of_ends (hr c hc)
  have htake : (cs ++ r).takeWhile isNumberChar = cs := by
    rw [List.takeWhile_append_of_pos hchars]
    cases r with
    | nil => simp
    | cons c r => rw [List.takeWhile_cons, hstop c rfl]; simp
  have hdrop : (cs ++ r).dropWhile isNumberChar = r := by
    rw [List.dropWhile_append_of_pos hchars]
    cases r with
    | nil => rfl
    | cons c r => rw [List.dropWhile_cons, hstop c rfl]; rfl
  rw [parseNumber, htake, hdrop, if_pos hnumber, hvalue]
  rfl

theorem word_of_ne {w : String} {v : Value} {c : Char} {r : List Char}
    (h : ∀ d, w.toList.head? = some d → d ≠ c) (hw : w.toList ≠ []) : word w v (c :: r) = none := by
  rw [word]
  cases hs : w.toList with
  | nil => exact absurd hs hw
  | cons d t =>
    have hne : (d == c) = false := beq_eq_false_iff_ne.2 (h d (by rw [hs]; rfl))
    rw [List.isPrefixOf?, hne]
    rfl

/-- How a number begins. -/
def OpensNumber (cs : List Char) : Prop := ∃ c r, cs = c :: r ∧ (c = '-' ∨ c.isDigit = true)

theorem OpensNumber.ne {c d : Char} (h : c = '-' ∨ c.isDigit = true) (hd : d.isDigit = false)
    (hd' : d ≠ '-') : d ≠ c := by
  rintro rfl
  rcases h with h | h
  · exact hd' h
  · rw [hd] at h
    cases h

theorem OpensNumber.opens {cs : List Char} (h : OpensNumber cs) : Opens cs := by
  obtain ⟨c, r, rfl, hc⟩ := h
  refine ⟨c, r, rfl, ?_, ?_, ?_⟩
  · have h₁ := OpensNumber.ne (d := ' ') hc (by decide) (by decide)
    have h₂ := OpensNumber.ne (d := '\t') hc (by decide) (by decide)
    have h₃ := OpensNumber.ne (d := '\n') hc (by decide) (by decide)
    have h₄ := OpensNumber.ne (d := '\r') hc (by decide) (by decide)
    simp [isBlank, h₁.symm, h₂.symm, h₃.symm, h₄.symm]
  · exact (OpensNumber.ne hc (by decide) (by decide)).symm
  · exact (OpensNumber.ne hc (by decide) (by decide)).symm

theorem parseAtom_eq_parseNumber {cs : List Char} (h : OpensNumber cs) (r : List Char) :
    parseAtom (cs ++ r) = parseNumber (cs ++ r) := by
  obtain ⟨c, t, rfl, hc⟩ := h
  have hne : ∀ d : Char, d = 'n' ∨ d = 't' ∨ d = 'f' → d ≠ c := by
    rintro d (rfl | rfl | rfl) <;> exact OpensNumber.ne hc (by decide) (by decide)
  have hnull : word "null" .null (c :: (t ++ r)) = none :=
    word_of_ne (fun d hd => hne d (.inl (Option.some.inj hd).symm)) (by decide)
  have htrue : word "true" (.bool true) (c :: (t ++ r)) = none :=
    word_of_ne (fun d hd => hne d (.inr (.inl (Option.some.inj hd).symm))) (by decide)
  have hfalse : word "false" (.bool false) (c :: (t ++ r)) = none :=
    word_of_ne (fun d hd => hne d (.inr (.inr (Option.some.inj hd).symm))) (by decide)
  rw [parseAtom, List.cons_append, hnull, htrue, hfalse]
  rfl

/-! ### Numbers as they are written -/

theorem isNumberChar_of_isDigit {c : Char} (h : c.isDigit = true) : isNumberChar c = true := by
  simp [isNumberChar, h]

/-- A text that the grammar takes for a number. -/
structure NumberText (cs : List Char) (n : Number) : Prop where
  opens : OpensNumber cs
  chars : ∀ c ∈ cs, isNumberChar c = true
  number : isNumber cs = true
  value : numberOf cs = some n

theorem NumberText.reads {cs : List Char} {n : Number} (h : NumberText cs n) :
    Reads parseNumber cs (.number n) := reads_number h.chars h.number h.value

theorem opensNumber_digits {cs : List Char} (hne : cs ≠ []) (h : ∀ c ∈ cs, c.isDigit = true) :
    OpensNumber cs := by
  cases cs with
  | nil => exact absurd rfl hne
  | cons c r => exact ⟨c, r, rfl, .inr (h c List.mem_cons_self)⟩

theorem head_ne_minus {cs : List Char} (h : ∀ c ∈ cs, c.isDigit = true) (r : List Char) :
    cs ≠ [] → (cs ++ r).head? ≠ some '-' := by
  intro hne
  cases cs with
  | nil => exact absurd rfl hne
  | cons c t =>
    intro hc
    have := h c List.mem_cons_self
    rw [Option.some.inj hc] at this
    cases this

theorem isDigits_iff {cs : List Char} :
    isDigits cs = true ↔ cs ≠ [] ∧ ∀ c ∈ cs, c.isDigit = true := by
  simp [isDigits]

theorem isInteger_iff {cs : List Char} : isInteger cs = true ↔
    (cs ≠ [] ∧ ∀ c ∈ cs, c.isDigit = true) ∧ (cs.head? = some '0' → cs.length = 1) := by
  rw [isInteger, Bool.and_eq_true, isDigits_iff]
  refine and_congr_right fun _ => ?_
  by_cases h : cs.head? = some '0' <;> simp [h]

section

variable {whole fraction : List Char} (hwhole : ∀ c ∈ whole, c.isDigit = true) (hne : whole ≠ [])
  (hhead : whole.head? = some '0' → whole.length = 1)

include hwhole hne hhead

theorem isMagnitude_integer : isMagnitude whole = true := by
  have hmark : ∀ c ∈ whole, F64.isExponentMark c = false := by
    intro c hc
    have h₁ : c ≠ 'e' := F64.digit_ne (hwhole c hc) (by decide)
    have h₂ : c ≠ 'E' := F64.digit_ne (hwhole c hc) (by decide)
    simp [F64.isExponentMark, h₁, h₂]
  have hpoint : ∀ c ∈ whole, decide (c ≠ '.') = true := fun c hc => F64.ne_point hwhole hc
  have htake : whole.takeWhile (fun c => !F64.isExponentMark c) = whole :=
    List.takeWhile_eq_self_iff.2 fun c hc => by rw [hmark c hc]; rfl
  have hdrop : whole.dropWhile (fun c => !F64.isExponentMark c) = [] :=
    List.dropWhile_eq_nil_iff.2 fun c hc => by rw [hmark c hc]; rfl
  rw [isMagnitude, htake, hdrop, List.takeWhile_eq_self_iff.2 hpoint,
    List.dropWhile_eq_nil_iff.2 hpoint, isInteger_iff.2 ⟨⟨hne, hwhole⟩, hhead⟩]
  rfl

theorem isMagnitude_decimal (hfraction : ∀ c ∈ fraction, c.isDigit = true) (hne' : fraction ≠ []) :
    isMagnitude (whole ++ '.' :: fraction) = true := by
  rw [isMagnitude, F64.takeWhile_mantissa hwhole hfraction, F64.dropWhile_mantissa hwhole hfraction,
    F64.takeWhile_point hwhole, F64.dropWhile_point hwhole,
    isInteger_iff.2 ⟨⟨hne, hwhole⟩, hhead⟩]
  show (true && (_ || isDigits fraction) && true) = true
  rw [isDigits_iff.2 ⟨hne', hfraction⟩]
  simp

end

theorem toDigits_head (n : Nat) :
    (Nat.toDigits 10 n).head? = some '0' → (Nat.toDigits 10 n).length = 1 := by
  intro h
  by_cases hn : n = 0
  · subst hn
    rfl
  · exact absurd h (F64.toDigits_head_ne_zero (Nat.pos_of_ne_zero hn))

theorem numberOf_unsigned {cs : List Char} (h : cs.head? ≠ some '-') :
    numberOf cs = match digitsValue cs with
      | some n => if n < 2 ^ 64 then some (.posInt (UInt64.ofNat n))
        else (F64.parse (String.ofList cs)).map .float
      | none => (F64.parse (String.ofList cs)).map .float := by
  rw [numberOf]
  rintro ds rfl
  exact h rfl

/-- A natural number. -/
theorem numberText_natural {n : Nat} (h : n < 2 ^ 64) :
    NumberText (Nat.toDigits 10 n) (.posInt (UInt64.ofNat n)) := by
  have hdigits : ∀ c ∈ Nat.toDigits 10 n, c.isDigit = true :=
    fun c hc => F64.isDigit_of_mem_toDigits hc
  have hne : Nat.toDigits 10 n ≠ [] := Nat.toDigits_ne_nil
  have hminus : (Nat.toDigits 10 n).head? ≠ some '-' := by
    simpa using head_ne_minus hdigits [] hne
  refine ⟨opensNumber_digits hne hdigits, fun c hc => isNumberChar_of_isDigit (hdigits c hc), ?_, ?_⟩
  · rw [isNumber, if_neg hminus]
    exact isMagnitude_integer hdigits hne (toDigits_head n)
  · rw [numberOf_unsigned hminus, F64.digitsValue_eq hne hdigits, F64.digitsNumber_toDigits]
    exact if_pos h

/-- A number below zero. -/
theorem numberText_negative {n : Nat} (h₀ : 0 < n) (h : n ≤ 2 ^ 63) :
    NumberText ('-' :: Nat.toDigits 10 n) (.negInt (Int64.ofInt (-n))) := by
  have hdigits : ∀ c ∈ Nat.toDigits 10 n, c.isDigit = true :=
    fun c hc => F64.isDigit_of_mem_toDigits hc
  have hne : Nat.toDigits 10 n ≠ [] := Nat.toDigits_ne_nil
  refine ⟨⟨'-', _, rfl, .inl rfl⟩, ?_, ?_, ?_⟩
  · intro c hc
    rcases List.mem_cons.1 hc with rfl | hc
    · decide
    · exact isNumberChar_of_isDigit (hdigits c hc)
  · exact isMagnitude_integer hdigits hne (toDigits_head n)
  · rw [numberOf, F64.digitsValue_eq hne hdigits, F64.digitsNumber_toDigits]
    exact if_pos ⟨h₀, h⟩

/-- A number with a point. -/
theorem numberText_decimal {neg : Bool} {whole fraction : List Char} {x : F64}
    (hwhole : ∀ c ∈ whole, c.isDigit = true) (hne : whole ≠ [])
    (hhead : whole.head? = some '0' → whole.length = 1)
    (hfraction : ∀ c ∈ fraction, c.isDigit = true) (hne' : fraction ≠ [])
    (hparse : F64.parse (String.ofList (F64.decimalText neg whole fraction)) = some x) :
    NumberText (F64.decimalText neg whole fraction) (.float x) := by
  have hmagnitude := isMagnitude_decimal hwhole hne hhead hfraction hne'
  have hnone : digitsValue (whole ++ '.' :: fraction) = none := by
    rw [digitsValue, if_neg]
    rintro ⟨-, hall⟩
    have := List.all_eq_true.1 hall '.' (by simp)
    cases this
  have hchars : ∀ c ∈ whole ++ '.' :: fraction, isNumberChar c = true := by
    intro c hc
    rcases List.mem_append.1 hc with hc | hc
    · exact isNumberChar_of_isDigit (hwhole c hc)
    · rcases List.mem_cons.1 hc with rfl | hc
      · decide
      · exact isNumberChar_of_isDigit (hfraction c hc)
  cases neg with
  | true =>
    refine ⟨⟨'-', _, rfl, .inl rfl⟩, ?_, hmagnitude, ?_⟩
    · intro c hc
      rcases List.mem_cons.1 hc with rfl | hc
      · decide
      · exact hchars c hc
    · show numberOf ('-' :: (whole ++ '.' :: fraction)) = _
      rw [numberOf, hnone]
      show (F64.parse _).map Number.float = _
      rw [show '-' :: (whole ++ '.' :: fraction) = F64.decimalText true whole fraction from rfl,
        hparse]
      rfl
  | false =>
    have hminus := head_ne_minus hwhole ('.' :: fraction) hne
    have hopens : OpensNumber (whole ++ '.' :: fraction) := by
      obtain ⟨c, r, hcr, hc⟩ := opensNumber_digits hne hwhole
      exact ⟨c, _, by rw [hcr, List.cons_append], hc⟩
    refine ⟨hopens, hchars, ?_, ?_⟩
    · show isNumber (whole ++ '.' :: fraction) = true
      rw [isNumber, if_neg hminus]
      exact hmagnitude
    · show numberOf (whole ++ '.' :: fraction) = _
      rw [numberOf_unsigned hminus, hnone]
      show (F64.parse (String.ofList (F64.decimalText false whole fraction))).map Number.float = _
      rw [hparse]
      rfl

/-! ### Values as they are written -/

section

variable {n : Nat}

theorem parseValue_succ (s : List Char) : parseValue (n + 1) s =
    match skipBlanks s with
    | '"' :: r => (parseString r).map fun (text, r) => (.string text, r)
    | '[' :: r => (listOf (parseValue n) ']' r).map fun (items, r) => (.array items, r)
    | '{' :: r =>
      (listOf (parseMember (parseValue n)) '}' r).map fun (members, r) => (.object members, r)
    | s => parseAtom s := rfl

theorem reads_null : Reads (parseValue (n + 1)) "null".toList .null := fun _ _ => rfl

theorem reads_bool (b : Bool) : Reads (parseValue (n + 1)) (toString b).toList (.bool b) := by
  intro r _
  cases b <;> rfl

theorem reads_numberText {cs : List Char} {m : Number} (h : NumberText cs m) :
    Reads (parseValue (n + 1)) cs (.number m) := by
  intro r hr
  have hgo := h.reads r hr
  rw [← parseAtom_eq_parseNumber h.opens] at hgo
  rw [parseValue_succ, h.opens.opens.skipBlanks]
  obtain ⟨c, t, rfl, hc⟩ := h.opens
  split
  · next heq =>
    cases heq
    exact absurd hc (by decide)
  · next heq =>
    cases heq
    exact absurd hc (by decide)
  · next heq =>
    cases heq
    exact absurd hc (by decide)
  · exact hgo

theorem reads_string {k : List Char} {text : String}
    (h : ∀ r, parseString (k ++ '"' :: r) = some (text, r)) :
    Reads (parseValue (n + 1)) ('"' :: k ++ ['"']) (.string text) := by
  intro r _
  have htext : ('"' :: k ++ ['"']) ++ r = '"' :: (k ++ '"' :: r) := by simp
  rw [htext, parseValue_succ, skipBlanks_cons (by decide)]
  show (parseString (k ++ '"' :: r)).map _ = _
  rw [h]
  rfl

theorem reads_array {ts : List (List Char)} {vs : List Value}
    (h : List.Forall₂ (Reads (parseValue n)) ts vs) (hopens : ∀ t ∈ ts, Opens t) :
    Reads (parseValue (n + 1)) ('[' :: List.intercalate [','] ts ++ [']']) (.array vs) := by
  intro r _
  have htext : ('[' :: List.intercalate [','] ts ++ [']']) ++ r =
      '[' :: (List.intercalate [','] ts ++ ']' :: r) := by simp
  rw [htext, parseValue_succ, skipBlanks_cons (by decide)]
  show (listOf (parseValue n) ']' (List.intercalate [','] ts ++ ']' :: r)).map _ = _
  rw [Reads.listOf (.inl rfl) h hopens]
  rfl

theorem reads_object {ts : List (List Char)} {ms : List (String × Value)}
    (h : List.Forall₂ (Reads (parseMember (parseValue n))) ts ms) (hopens : ∀ t ∈ ts, Opens t) :
    Reads (parseValue (n + 1)) ('{' :: List.intercalate [','] ts ++ ['}']) (.object ms) := by
  intro r _
  have htext : ('{' :: List.intercalate [','] ts ++ ['}']) ++ r =
      '{' :: (List.intercalate [','] ts ++ '}' :: r) := by simp
  rw [htext, parseValue_succ, skipBlanks_cons (by decide)]
  show (listOf (parseMember (parseValue n)) '}' (List.intercalate [','] ts ++ '}' :: r)).map _ = _
  rw [Reads.listOf (.inr rfl) h hopens]
  rfl

end

theorem parse_eq_some {s : String} {v : Value}
    (h : Reads (parseValue (s.length + 1)) s.toList v) : parse s = some v := by
  have hread := h [] ends_nil
  rw [List.append_nil] at hread
  rw [parse, hread]
  rfl

end Lib.Json
