import Mathlib.Data.List.Induction
import SpatialIde.Lib.Text

/-! # The tokens of an SQL text

A text is read character by character: `Mode` is what the characters behind the last token
have begun.  Quoted names and strings double their quote, a dollar quote ends where its tag
returns, a comment is `--` to the end of the line or stands between `/*` and `*/`, and a run of
operator characters is one operator.  `tokenize` is `none` where a quote or a comment is left open.

* `scan_start`: the tokens a text adds do not depend on what is in front of it;
* `At`: where a scan stands, by the kind of its mode and the depth of its brackets;
* `At.begins`: a character that ends the token in front begins as at the start of a text.
-/

namespace Lib.Sql

def QUOTE : Char := Char.ofNat 39

def NAME_QUOTE : Char := Char.ofNat 34

inductive Token where
  /-- A name without quotes, or a keyword. -/
  | word (cs : List Char)
  | name (cs : List Char)
  | string (cs : List Char)
  | number (cs : List Char)
  /-- `$` and a number or a name. -/
  | param (cs : List Char)
  | operator (cs : List Char)
  | punct (c : Char)
  | comment
  deriving DecidableEq, Repr

def isBlank (c : Char) : Bool := Text.isWhitespace c || c == Char.ofNat 0xFEFF

def isWordStart (c : Char) : Bool := c.isAlpha || c == '_' || (128 ≤ c.toNat && !isBlank c)

def isWordPart (c : Char) : Bool := isWordStart c || c.isDigit || c == '$'

def isOperator (c : Char) : Bool := c ∈ ['<', '>', '=', '!', '+', '*', '%', '|', '&', '^', '~']

/-- More of a number: a digit, the point, or an exponent and its sign. -/
def continuesNumber (cs : List Char) (c : Char) : Bool :=
  c.isDigit || c == '.' || (c ∈ ['e', 'E'] && !cs.any (· ∈ ['e', 'E'])) ||
    (c ∈ ['+', '-'] && cs.getLast?.any (· ∈ ['e', 'E']))

inductive Mode where
  | gap
  | word (cs : List Char)
  | number (cs : List Char)
  | name (cs : List Char)
  /-- Behind a quote inside of a quoted name: its end, or half of a doubled quote. -/
  | nameQuote (cs : List Char)
  | string (cs : List Char)
  | stringQuote (cs : List Char)
  | operator (cs : List Char)
  | dash
  | slash
  | dot
  /-- Behind `$`: what may be the tag of a dollar quote. -/
  | dollar (tag : List Char)
  | param (cs : List Char)
  /-- In a dollar quote: its tag, the text up to its last `$`, and what follows that one. -/
  | dollarQuote (tag body : List Char) (mark : Option (List Char))
  | lineComment
  /-- How many comments are open around this one, and the character before. -/
  | blockComment (depth : Nat) (last : Char)
  deriving DecidableEq, Repr

/-- The first character of a token. -/
def start (c : Char) : Mode × List Token :=
  if isBlank c then (.gap, [])
  else if isWordStart c then (.word [c], [])
  else if c.isDigit then (.number [c], [])
  else if c = NAME_QUOTE then (.name [], [])
  else if c = QUOTE then (.string [], [])
  else if c = '-' then (.dash, [])
  else if c = '/' then (.slash, [])
  else if c = '.' then (.dot, [])
  else if c = '$' then (.dollar [], [])
  else if isOperator c then (.operator [c], [])
  else (.gap, [.punct c])

/-- A `$` that opens no quote. -/
def dollarToken (tag : List Char) : Token := if tag = [] then .punct '$' else .param tag

/-- One character of a dollar quote, which ends at a `$` if its tag is what follows the last `$`. -/
def quoteStep (tag body : List Char) (mark : Option (List Char)) (c : Char) : Mode × List Token :=
  match mark with
  | none =>
    if c = '$' then (.dollarQuote tag body (some []), [])
    else (.dollarQuote tag (body ++ [c]) none, [])
  | some cs =>
    if c = '$' then
      if cs = tag then (.gap, [.string body])
      else (.dollarQuote tag (body ++ '$' :: cs) (some []), [])
    else (.dollarQuote tag body (some (cs ++ [c])), [])

/-- A token ends, and the character begins the next one. -/
def endToken (t : Token) (c : Char) : Mode × List Token := ((start c).1, t :: (start c).2)

def Mode.step (m : Mode) (c : Char) : Mode × List Token :=
  match m with
  | .gap => start c
  | .word cs => if isWordPart c then (.word (cs ++ [c]), []) else endToken (.word cs) c
  | .number cs => if continuesNumber cs c then (.number (cs ++ [c]), []) else endToken (.number cs) c
  | .name cs => if c = NAME_QUOTE then (.nameQuote cs, []) else (.name (cs ++ [c]), [])
  | .nameQuote cs => if c = NAME_QUOTE then (.name (cs ++ [c]), []) else endToken (.name cs) c
  | .string cs => if c = QUOTE then (.stringQuote cs, []) else (.string (cs ++ [c]), [])
  | .stringQuote cs => if c = QUOTE then (.string (cs ++ [c]), []) else endToken (.string cs) c
  | .operator cs => if isOperator c then (.operator (cs ++ [c]), []) else endToken (.operator cs) c
  | .dash => if c = '-' then (.lineComment, []) else endToken (.operator ['-']) c
  | .slash => if c = '*' then (.blockComment 0 ' ', []) else endToken (.operator ['/']) c
  | .dot => if c.isDigit then (.number ['.', c], []) else endToken (.punct '.') c
  | .dollar tag =>
    if c = '$' then (.dollarQuote tag [] none, [])
    else if isWordStart c || (c.isDigit && !tag.isEmpty) then (.dollar (tag ++ [c]), [])
    else if c.isDigit then (.param [c], [])
    else endToken (dollarToken tag) c
  | .param cs => if c.isDigit then (.param (cs ++ [c]), []) else endToken (.param cs) c
  | .dollarQuote tag body mark => quoteStep tag body mark c
  | .lineComment => if c = '\n' || c = '\r' then (.gap, [.comment]) else (.lineComment, [])
  | .blockComment depth last =>
    if last = '*' && c = '/' then
      if depth = 0 then (.gap, [.comment]) else (.blockComment (depth - 1) ' ', [])
    else if last = '/' && c = '*' then (.blockComment (depth + 1) ' ', [])
    else (.blockComment depth c, [])

/-- The token at the end of a text, if any; `none` where something is left open. -/
def Mode.pending : Mode → Option (List Token)
  | .gap => some []
  | .word cs => some [.word cs]
  | .number cs => some [.number cs]
  | .nameQuote cs => some [.name cs]
  | .stringQuote cs => some [.string cs]
  | .operator cs => some [.operator cs]
  | .dash => some [.operator ['-']]
  | .slash => some [.operator ['/']]
  | .dot => some [.punct '.']
  | .dollar tag => some [dollarToken tag]
  | .param cs => some [.param cs]
  | .lineComment => some [.comment]
  | .name _ => none
  | .string _ => none
  | .dollarQuote _ _ _ => none
  | .blockComment _ _ => none

/-- Inside of a quote or of a comment. -/
def Mode.inside : Mode → Bool
  | .name _ => true
  | .string _ => true
  | .dollarQuote _ _ _ => true
  | .lineComment => true
  | .blockComment _ _ => true
  | _ => false

/-- A mode, and the tokens that are complete. -/
abbrev Scan := Mode × List Token

def read (s : Scan) (c : Char) : Scan := ((s.1.step c).1, s.2 ++ (s.1.step c).2)

def scan (s : Scan) (text : List Char) : Scan := text.foldl read s

def tokenize (text : List Char) : Option (List Token) :=
  (scan (.gap, []) text).1.pending.map fun last => (scan (.gap, []) text).2 ++ last

example : tokenize "a>=-1".toList =
    some [.word ['a'], .operator ['>', '='], .operator ['-'], .number ['1']] := by decide

example : tokenize "$t$a$$b$t$".toList = some [.string ['a', '$', '$', 'b']] := by decide

theorem scan_append (s : Scan) (t u : List Char) : scan s (t ++ u) = scan (scan s t) u :=
  List.foldl_append

/-- **What is in front of a text does not change its tokens.** -/
theorem scan_start (m : Mode) (out out' : List Token) (text : List Char) :
    scan (m, out ++ out') text =
      ((scan (m, out') text).1, out ++ (scan (m, out') text).2) := by
  induction text generalizing m out' with
  | nil => rfl
  | cons c text ih =>
    show scan (read (m, out ++ out') c) text = _
    rw [read, List.append_assoc, ih]
    rfl

/-! ### Characters -/

/-- What is decided of each character of a list. -/
theorem forall_listed {p : Char → Prop} [DecidablePred p] {cs : List Char}
    (h : cs.all (fun c => decide (p c)) = true) : ∀ c ∈ cs, p c := by
  intro c hc
  exact of_decide_eq_true (List.all_eq_true.1 h c hc)

theorem isAlpha_range {c : Char} (h : c.isAlpha = true) : 65 ≤ c.toNat ∧ c.toNat ≤ 122 := by
  change (decide (c.val ≥ 'A'.val ∧ c.val ≤ 'Z'.val) ||
    (decide (c.val ≥ 'a'.val) && decide (c.val ≤ 'z'.val))) = true at h
  simp only [Bool.or_eq_true, Bool.and_eq_true, decide_eq_true_eq, ge_iff_le,
    UInt32.le_iff_toNat_le] at h
  have hA : 'A'.val.toNat = 65 := rfl
  have hZ : 'Z'.val.toNat = 90 := rfl
  have ha : 'a'.val.toNat = 97 := rfl
  have hz : 'z'.val.toNat = 122 := rfl
  have hc : c.toNat = c.val.toNat := rfl
  omega

theorem isDigit_range {c : Char} (h : c.isDigit = true) : 48 ≤ c.toNat ∧ c.toNat ≤ 57 := by
  simp only [Char.isDigit, Bool.and_eq_true, decide_eq_true_eq, ge_iff_le,
    UInt32.le_iff_toNat_le] at h
  have h0 : '0'.val.toNat = 48 := rfl
  have h9 : '9'.val.toNat = 57 := rfl
  have hc : c.toNat = c.val.toNat := rfl
  omega

theorem isBlank_range {c : Char} (h : isBlank c = true) : c.toNat ≤ 32 ∨ 128 ≤ c.toNat := by
  simp only [isBlank, Text.isWhitespace, Bool.or_eq_true, Bool.and_eq_true, decide_eq_true_eq,
    beq_iff_eq] at h
  rcases h with h | rfl
  · omega
  · exact .inr (by decide)

/-- A character of another code is another character. -/
theorem ne_of_toNat {c d : Char} (h : c.toNat ≠ d.toNat) : c ≠ d := fun hcd => h (by rw [hcd])

theorem isBlank_eq_false {c : Char} (h : 33 ≤ c.toNat) (h' : c.toNat ≤ 127) :
    isBlank c = false := by
  by_contra hb
  have := isBlank_range (eq_true_of_ne_false hb)
  omega

theorem start_of_isDigit {c : Char} (h : c.isDigit = true) : start c = (.number [c], []) := by
  have hrange := isDigit_range h
  have hblank : isBlank c = false := isBlank_eq_false (by omega) (by omega)
  have halpha : c.isAlpha = false := by
    by_contra halpha
    have := isAlpha_range (eq_true_of_ne_false halpha)
    omega
  have hword : isWordStart c = false := by
    have hlow : ¬128 ≤ c.toNat := by omega
    have hline : c ≠ '_' := ne_of_toNat (by have : '_'.toNat = 95 := rfl; omega)
    simp [isWordStart, halpha, hline, hlow]
  rw [start, hblank, hword, if_neg Bool.false_ne_true, if_neg Bool.false_ne_true, if_pos h]

/-! ### Brackets -/

/-- The depth behind a token; `none` where a bracket closes that none has opened. -/
def Token.nest (depth : Nat) (t : Token) : Option Nat :=
  if t = .punct '(' then some (depth + 1)
  else if t = .punct ')' then if depth = 0 then none else some (depth - 1)
  else some depth

def nesting (depth : Nat) (ts : List Token) : Option Nat := ts.foldlM Token.nest depth

theorem nesting_append (depth : Nat) (ts us : List Token) :
    nesting depth (ts ++ us) = (nesting depth ts).bind (nesting · us) :=
  List.foldlM_append

/-- Neither a comment nor the end of a statement. -/
def Token.Harmless (t : Token) : Prop := t ≠ .comment ∧ t ≠ .punct ';'

/-- Tokens that can stand in brackets: all of theirs are matched among themselves. -/
structure Enclosable (ts : List Token) : Prop where
  harmless : ∀ t ∈ ts, t.Harmless
  balanced : nesting 0 ts = some 0

/-! ### Where a scan stands -/

inductive Kind where
  | gap
  | word
  | number
  | name
  | nameQuote
  | string
  | stringQuote
  | operator
  | dash
  | slash
  | dot
  | dollar
  | param
  | dollarQuote
  | comment
  deriving DecidableEq, Repr

def Mode.kind : Mode → Kind
  | .gap => .gap
  | .word _ => .word
  | .number _ => .number
  | .name _ => .name
  | .nameQuote _ => .nameQuote
  | .string _ => .string
  | .stringQuote _ => .stringQuote
  | .operator _ => .operator
  | .dash => .dash
  | .slash => .slash
  | .dot => .dot
  | .dollar _ => .dollar
  | .param _ => .param
  | .dollarQuote _ _ _ => .dollarQuote
  | .lineComment => .comment
  | .blockComment _ _ => .comment

/-- A mode of one of the kinds, behind harmless tokens that leave brackets open to a depth. -/
structure At (ks : List Kind) (depth : Nat) (s : Scan) : Prop where
  kind : s.1.kind ∈ ks
  harmless : ∀ t ∈ s.2, t.Harmless
  nests : nesting 0 s.2 = some depth

theorem At.mono {ks ks' : List Kind} {depth : Nat} {s : Scan} (h : At ks depth s)
    (hks : ks ⊆ ks') : At ks' depth s :=
  ⟨hks h.kind, h.harmless, h.nests⟩

/-- The character is not part of a token of the kind that is in front of it. -/
def Kind.endsAt (k : Kind) (c : Char) : Bool :=
  match k with
  | .gap => true
  | .word => !isWordPart c
  | .number => !(c.isDigit || c ∈ ['.', 'e', 'E', '+', '-'])
  | .nameQuote => c ≠ NAME_QUOTE
  | .stringQuote => c ≠ QUOTE
  | .operator => !isOperator c
  | .dash => c ≠ '-'
  | .slash => c ≠ '*'
  | .dot => !c.isDigit
  | .dollar => !isWordPart c
  | .param => !c.isDigit
  | _ => false

/-- A token that is held back until its end counts for nothing among brackets. -/
def Token.Neutral (t : Token) : Prop := t.Harmless ∧ ∀ depth, t.nest depth = some depth

theorem neutral_of_ne {t : Token} (hcomment : t ≠ .comment)
    (hpunct : ∀ c, t = .punct c → c ∈ ['.', '$']) : t.Neutral := by
  refine ⟨⟨hcomment, fun h => absurd (hpunct _ h) (by decide)⟩, fun depth => ?_⟩
  rw [Token.nest, if_neg (fun h => absurd (hpunct _ h) (by decide)),
    if_neg (fun h => absurd (hpunct _ h) (by decide))]

/-- What a character does that ends the token in front of it. -/
theorem step_of_endsAt {m : Mode} {c : Char} (h : m.kind.endsAt c = true) :
    ∃ last, m.pending = some last ∧ m.step c = ((start c).1, last ++ (start c).2) ∧
      ∀ t ∈ last, t.Neutral := by
  have hone : ∀ t : Token, t ≠ .comment → (∀ c, t = .punct c → c ∈ ['.', '$']) →
      ∀ u ∈ [t], u.Neutral := by
    intro t hcomment hpunct u hu
    rw [List.mem_singleton.1 hu]
    exact neutral_of_ne hcomment hpunct
  cases m with
  | gap => exact ⟨[], rfl, rfl, fun t ht => absurd ht List.not_mem_nil⟩
  | word cs =>
    have hc : isWordPart c = false := by simpa [Mode.kind, Kind.endsAt] using h
    refine ⟨[.word cs], rfl, ?_, hone _ nofun nofun⟩
    simp [Mode.step, hc, endToken]
  | number cs =>
    have hc : continuesNumber cs c = false := by
      simp only [Mode.kind, Kind.endsAt, Bool.not_eq_true', Bool.or_eq_false_iff,
        decide_eq_false_iff_not, List.mem_cons, not_or] at h
      simp [continuesNumber, h]
    refine ⟨[.number cs], rfl, ?_, hone _ nofun nofun⟩
    simp [Mode.step, hc, endToken]
  | nameQuote cs =>
    have hc : c ≠ NAME_QUOTE := by simpa [Mode.kind, Kind.endsAt] using h
    refine ⟨[.name cs], rfl, ?_, hone _ nofun nofun⟩
    simp [Mode.step, hc, endToken]
  | stringQuote cs =>
    have hc : c ≠ QUOTE := by simpa [Mode.kind, Kind.endsAt] using h
    refine ⟨[.string cs], rfl, ?_, hone _ nofun nofun⟩
    simp [Mode.step, hc, endToken]
  | operator cs =>
    have hc : isOperator c = false := by simpa [Mode.kind, Kind.endsAt] using h
    refine ⟨[.operator cs], rfl, ?_, hone _ nofun nofun⟩
    simp [Mode.step, hc, endToken]
  | dash =>
    have hc : c ≠ '-' := by simpa [Mode.kind, Kind.endsAt] using h
    refine ⟨[.operator ['-']], rfl, ?_, hone _ nofun nofun⟩
    simp [Mode.step, hc, endToken]
  | slash =>
    have hc : c ≠ '*' := by simpa [Mode.kind, Kind.endsAt] using h
    refine ⟨[.operator ['/']], rfl, ?_, hone _ nofun nofun⟩
    simp [Mode.step, hc, endToken]
  | dot =>
    have hc : c.isDigit = false := by simpa [Mode.kind, Kind.endsAt] using h
    refine ⟨[.punct '.'], rfl, ?_, hone _ nofun ?_⟩
    · simp [Mode.step, hc, endToken]
    · rintro c ⟨⟩
      decide
  | dollar tag =>
    have hc : isWordPart c = false := by simpa [Mode.kind, Kind.endsAt] using h
    simp only [isWordPart, Bool.or_eq_false_iff, beq_eq_false_iff_ne] at hc
    obtain ⟨⟨hstart, hdigit⟩, hdollar⟩ := hc
    refine ⟨[dollarToken tag], rfl, ?_, hone _ ?_ ?_⟩
    · simp [Mode.step, hstart, hdigit, hdollar, endToken]
    · unfold dollarToken
      split <;> nofun
    · intro c hc
      unfold dollarToken at hc
      split at hc <;> cases hc
      decide
  | param cs =>
    have hc : c.isDigit = false := by simpa [Mode.kind, Kind.endsAt] using h
    refine ⟨[.param cs], rfl, ?_, hone _ nofun nofun⟩
    simp [Mode.step, hc, endToken]
  | name cs => cases h
  | string cs => cases h
  | dollarQuote tag body mark => cases h
  | lineComment => cases h
  | blockComment depth last => cases h

theorem nesting_neutral {ts : List Token} (h : ∀ t ∈ ts, t.Neutral) (depth : Nat) :
    nesting depth ts = some depth := by
  induction ts with
  | nil => rfl
  | cons t ts ih =>
    rw [nesting, List.foldlM_cons, (h t List.mem_cons_self).2 depth]
    exact ih fun u hu => h u (List.mem_cons_of_mem _ hu)

variable {ks : List Kind} {depth : Nat} {s : Scan} {c : Char}

/-- **A character that ends the token in front of it** begins as at the start of a text. -/
theorem At.begins (h : At ks depth s) (hends : ∀ k ∈ ks, k.endsAt c = true) :
    ∃ out, read s c = ((start c).1, out ++ (start c).2) ∧ (∀ t ∈ out, t.Harmless) ∧
      nesting 0 out = some depth := by
  obtain ⟨last, _, hstep, hneutral⟩ := step_of_endsAt (hends _ h.kind)
  refine ⟨s.2 ++ last, ?_, fun t ht => ?_, ?_⟩
  · rw [read, hstep, List.append_assoc]
  · rcases List.mem_append.1 ht with ht | ht
    · exact h.harmless t ht
    · exact (hneutral t ht).1
  · rw [nesting_append, h.nests]
    exact nesting_neutral hneutral depth

/-- It begins a token that is not complete. -/
theorem At.opens (h : At ks depth s) (hends : ∀ k ∈ ks, k.endsAt c = true) {k : Kind}
    (hstart : (start c).1.kind = k ∧ (start c).2 = []) : At [k] depth (read s c) := by
  obtain ⟨out, hread, hharmless, hnest⟩ := h.begins hends
  rw [hstart.2, List.append_nil] at hread
  rw [hread]
  exact ⟨by rw [hstart.1]; exact List.mem_cons_self, hharmless, hnest⟩

/-- It is a token by itself. -/
theorem At.puts (h : At ks depth s) (hends : ∀ k ∈ ks, k.endsAt c = true) {t : Token}
    (hstart : start c = (.gap, [t])) (ht : t.Harmless) {depth' : Nat}
    (hnest : t.nest depth = some depth') : At [.gap] depth' (read s c) := by
  obtain ⟨out, hread, hharmless, hout⟩ := h.begins hends
  rw [hstart] at hread
  rw [hread]
  refine ⟨List.mem_cons_self, fun u hu => ?_, ?_⟩
  · rcases List.mem_append.1 hu with hu | hu
    · exact hharmless u hu
    · rw [List.mem_singleton.1 hu]
      exact ht
  · rw [nesting_append, hout]
    show (nesting depth [t]) = _
    rw [nesting, List.foldlM_cons, hnest]
    rfl

/-- A character inside of a token. -/
theorem At.stays {k k' : Kind} (h : At [k] depth s)
    (hstep : ∀ m : Mode, m.kind = k → (m.step c).1.kind = k' ∧ (m.step c).2 = []) :
    At [k'] depth (read s c) := by
  obtain ⟨hkind, hnone⟩ := hstep s.1 (List.mem_singleton.1 h.kind)
  refine ⟨by rw [read, hkind]; exact List.mem_cons_self, ?_, ?_⟩
  · rw [read, hnone, List.append_nil]
    exact h.harmless
  · rw [read, hnone, List.append_nil]
    exact h.nests

end Lib.Sql
