import SpatialIde.Lib.Runs
import SpatialIde.Lib.SqlTokens
import SpatialIde.Shell.Workspace.FilterClauses

/-! # Cards next to each other

`AdvancedAlone` says of the cards that one that is on and no simple form is the only one
that is on; every change keeps it.  A text of a simple form is a sequence of whole tokens whose
brackets match (`simple_tokens`), so that in the combined filter each card stays between its own
brackets.  `run_combined` is the result.
-/

namespace SpatialIde.Shell.Workspace

open Canvas (Filter)
open Lib
open Lib.Sql

/-! ### The characters of the simple forms -/

/-- Nothing is open: a bracket that follows closes the text. -/
def closed : List Kind :=
  [.gap, .word, .number, .nameQuote, .stringQuote, .operator, .dash, .slash, .dot]

theorem isBlank_of_isSpace {c : Char} (h : isSpace c = true) : isBlank c = true := by
  simp only [isSpace, Bool.or_eq_true, Bool.and_eq_true] at h
  simp only [isBlank, Bool.or_eq_true]
  tauto

/-- A blank is no part of a token outside of quotes and comments. -/
theorem endsAt_blank {c : Char} (h : isBlank c = true) : ∀ k ∈ closed, k.endsAt c = true := by
  have hrange := isBlank_range h
  have halpha : c.isAlpha = false := by
    by_contra hc
    have := isAlpha_range (eq_true_of_ne_false hc)
    omega
  have hdigit : c.isDigit = false := by
    by_contra hc
    have := isDigit_range (eq_true_of_ne_false hc)
    omega
  have hne : ∀ d : Char, 33 ≤ d.toNat → d.toNat ≤ 127 → c ≠ d := by
    intro d hlo hhi
    apply ne_of_toNat
    omega
  have hpart : isWordPart c = false := by
    have h_ : c ≠ '_' := hne _ (by decide) (by decide)
    have hdollar : c ≠ '$' := hne _ (by decide) (by decide)
    simp [isWordPart, isWordStart, halpha, hdigit, h_, hdollar, h]
  have hmark : ∀ ds : List Char, (∀ d ∈ ds, 33 ≤ d.toNat ∧ d.toNat ≤ 127) → c ∉ ds :=
    fun ds hds hmem => hne c (hds c hmem).1 (hds c hmem).2 rfl
  have hop : isOperator c = false := by
    rw [isOperator, decide_eq_false_iff_not]
    exact hmark _ (forall_listed (by decide))
  have hnum : c ∉ ['.', 'e', 'E', '+', '-'] := hmark _ (forall_listed (by decide))
  intro k hk
  cases k <;> simp only [Kind.endsAt, hpart, hdigit, hop, Bool.not_false, Bool.false_or,
    decide_eq_true_eq, Bool.not_eq_true', decide_eq_false_iff_not]
  case number => exact hnum
  case nameQuote => exact hne _ (by decide) (by decide)
  case stringQuote => exact hne _ (by decide) (by decide)
  case dash => exact hne _ (by decide) (by decide)
  case slash => exact hne _ (by decide) (by decide)
  all_goals exact absurd hk (by decide)

/-! ### The pieces of the simple forms -/

variable {ks : List Kind} {depth : Nat}

/-- A blank behind anything that is closed. -/
theorem leads_space (hks : ks ⊆ closed) :
    Regex.Leads read (At ks depth) (.cls isSpace) (At [.gap] depth) := by
  apply Regex.Leads.cls
  intro c hc s hs
  have hblank := isBlank_of_isSpace hc
  have hstart : start c = (.gap, []) := by rw [start, if_pos hblank]
  apply hs.opens fun k hk => endsAt_blank hblank k (hks hk)
  rw [hstart]
  exact ⟨rfl, rfl⟩

theorem leads_spaces (hgap : Kind.gap ∈ ks) (hks : ks ⊆ closed) :
    Regex.Leads read (At ks depth) spaces (At ks depth) := by
  apply Regex.Leads.star
  apply (leads_space hks).weaken
  exact fun s hs => hs.mono fun k hk => List.mem_singleton.1 hk ▸ hgap

/-- The blanks behind what is among the kinds they lead to. -/
theorem leads_spaces_from {ks' : List Kind} (hsub : ks ⊆ ks') (hgap : Kind.gap ∈ ks')
    (hks : ks' ⊆ closed) : Regex.Leads read (At ks depth) spaces (At ks' depth) := by
  apply (leads_spaces hgap hks).imp
  · exact fun s hs => hs.mono hsub
  · exact fun _ hs => hs

theorem leads_someSpaces (hks : ks ⊆ closed) :
    Regex.Leads read (At ks depth) someSpaces (At [.gap] depth) := by
  apply Regex.Leads.plus (leads_space hks)
  exact leads_space (by decide)

theorem start_of_isWordStart {c : Char} (h : isWordStart c = true) (hb : isBlank c = false) :
    start c = (.word [c], []) := by
  rw [start, hb, if_neg Bool.false_ne_true, if_pos h]

/-- A letter or an underscore begins a word in a gap, and goes on with one. -/
theorem at_word {c : Char} {s : Scan} (h : At ks depth s) (hks : ks = [.gap] ∨ ks = [.word])
    (hc : isNameStart c = true) : At [.word] depth (read s c) := by
  have hstart : isWordStart c = true := by
    simp only [isNameStart, Bool.or_eq_true] at hc
    simp only [isWordStart, Bool.or_eq_true]
    exact .inl hc
  rcases hks with rfl | rfl
  · have hblank : isBlank c = false := by
      simp only [isNameStart, Bool.or_eq_true, beq_iff_eq] at hc
      rcases hc with hc | rfl
      · have hrange := isAlpha_range hc
        exact isBlank_eq_false (by omega) (by omega)
      · decide
    apply h.opens (by simp [Kind.endsAt])
    rw [start_of_isWordStart hstart hblank]
    exact ⟨rfl, rfl⟩
  · apply h.stays
    intro m hm
    cases m <;> cases hm
    simp [Mode.step, isWordPart, hstart, Mode.kind]

theorem leads_letter {c : Char} (hks : ks = [.gap] ∨ ks = [.word])
    (hc : isNameStart c = true ∧ isNameStart c.toLower = true) :
    Regex.Leads read (At ks depth) (letter c) (At [.word] depth) := by
  apply Regex.Leads.cls
  intro d hd s hs
  apply at_word hs hks
  rcases (by simpa using hd : d = c ∨ d = c.toLower) with rfl | rfl
  · exact hc.1
  · exact hc.2

theorem leads_keyword {capitals : String} (first : Char) (rest : List Char)
    (hlist : capitals.toList = first :: rest)
    (hc : ∀ c ∈ first :: rest, isNameStart c = true ∧ isNameStart c.toLower = true)
    (hks : ks = [.gap] ∨ ks = [.word]) :
    Regex.Leads read (At ks depth) (keyword capitals) (At [.word] depth) := by
  rw [keyword, hlist]
  apply Regex.Leads.all_cons (leads_letter hks (hc first List.mem_cons_self))
  apply Regex.Leads.all
  intro r hr
  obtain ⟨c, hmem, rfl⟩ := List.mem_map.1 hr
  exact leads_letter (.inr rfl) (hc c (List.mem_cons_of_mem _ hmem))

/-- A quoted text, from what its quotes do. -/
theorem leads_quoted {q : Char} (inside : Kind) {behind : Kind}
    (hopen : ∀ s, At ks depth s → At [inside] depth (read s q))
    (hpart : ∀ c, c ≠ q → ∀ s, At [inside] depth s → At [inside] depth (read s c))
    (hquote : ∀ s, At [inside] depth s → At [behind] depth (read s q))
    (hdouble : ∀ s, At [behind] depth s → At [inside] depth (read s q)) :
    Regex.Leads read (At ks depth) (quoted q) (At [behind] depth) := by
  apply Regex.Leads.seq (Regex.Leads.chr hopen)
  apply Regex.Leads.seq _ (Regex.Leads.chr hquote)
  apply Regex.Leads.star
  apply Regex.Leads.alt
  · apply Regex.Leads.cls
    intro c hc
    exact hpart c (by simpa using hc)
  · exact (Regex.Leads.chr hquote).seq (Regex.Leads.chr hdouble)

theorem leads_quotedName :
    Regex.Leads read (At [.gap] depth) (quoted DOUBLE_QUOTE) (At [.nameQuote] depth) := by
  apply leads_quoted .name
  · exact fun s hs => hs.opens (by decide) (by decide)
  · intro c hc s hs
    apply hs.stays
    intro m hm
    cases m <;> cases hm
    have hc' : c ≠ NAME_QUOTE := hc
    simp [Mode.step, hc', Mode.kind]
  · intro s hs
    apply hs.stays
    intro m hm
    cases m <;> cases hm
    exact ⟨rfl, rfl⟩
  · intro s hs
    apply hs.stays
    intro m hm
    cases m <;> cases hm
    exact ⟨rfl, rfl⟩

theorem leads_STRING :
    Regex.Leads read (At [.gap, .operator] depth) STRING (At [.stringQuote] depth) := by
  apply leads_quoted .string
  · exact fun s hs => hs.opens (by decide) (by decide)
  · intro c hc s hs
    apply hs.stays
    intro m hm
    cases m <;> cases hm
    have hc' : c ≠ QUOTE := hc
    simp [Mode.step, hc', Mode.kind]
  · intro s hs
    apply hs.stays
    intro m hm
    cases m <;> cases hm
    exact ⟨rfl, rfl⟩
  · intro s hs
    apply hs.stays
    intro m hm
    cases m <;> cases hm
    exact ⟨rfl, rfl⟩

theorem leads_NAME :
    Regex.Leads read (At [.gap] depth) NAME (At [.word, .nameQuote] depth) := by
  apply Regex.Leads.alt
  · apply Regex.Leads.seq (R := At [.word] depth)
    · apply Regex.Leads.cls
      exact fun c hc s hs => at_word hs (.inl rfl) hc
    · have hpart : Regex.Leads read (At [.word] depth) (.cls isNamePart) (At [.word] depth) := by
        apply Regex.Leads.cls
        intro c hc s hs
        have hword : isWordPart c = true := by
          simp only [isNamePart, isNameStart, Bool.or_eq_true] at hc
          simp only [isWordPart, isWordStart, Bool.or_eq_true]
          tauto
        apply hs.stays
        intro m hm
        cases m <;> cases hm
        simp [Mode.step, hword, Mode.kind]
      exact hpart.star.weaken fun s hs => hs.mono (by decide)
  · exact leads_quotedName.weaken fun s hs => hs.mono (by decide)

/-- Digits begin a number, or go on with one. -/
theorem leads_digits (hks : ks ⊆ [.gap, .operator, .dash] ∨ ks = [.number]) :
    Regex.Leads read (At ks depth) digits (At [.number] depth) := by
  have hmore : Regex.Leads read (At [.number] depth) (.cls Char.isDigit) (At [.number] depth) := by
    apply Regex.Leads.cls
    intro c hc s hs
    apply hs.stays
    intro m hm
    cases m <;> cases hm
    simp [Mode.step, continuesNumber, hc, Mode.kind]
  rcases hks with hks | rfl
  · apply Regex.Leads.plus _ hmore
    apply Regex.Leads.cls
    intro c hc s hs
    have hrange := isDigit_range hc
    have hne : ∀ d : Char, d.toNat < 48 ∨ 57 < d.toNat → c ≠ d := by
      intro d hd
      apply ne_of_toNat
      omega
    have hop : isOperator c = false := by
      rw [isOperator, decide_eq_false_iff_not]
      intro hmem
      have hall : ∀ d ∈ ['<', '>', '=', '!', '+', '*', '%', '|', '&', '^', '~'],
          d.toNat < 48 ∨ 57 < d.toNat := forall_listed (by decide)
      exact hne c (hall c hmem) rfl
    apply hs.opens
    · intro k hk
      rcases List.mem_cons.1 (hks hk) with rfl | hk
      · rfl
      · rcases List.mem_cons.1 hk with rfl | hk
        · simp [Kind.endsAt, hop]
        · obtain rfl := List.mem_singleton.1 hk
          have hdash : c ≠ '-' := hne _ (by decide)
          simp [Kind.endsAt, hdash]
    · rw [start_of_isDigit hc]
      exact ⟨rfl, rfl⟩
  · exact hmore.plus hmore

theorem leads_NUMBER :
    Regex.Leads read (At [.gap, .operator] depth) NUMBER (At [.number] depth) := by
  apply Regex.Leads.seq (R := At [.gap, .operator, .dash] depth)
  · apply Regex.Leads.opt
    · apply Regex.Leads.chr
      intro s hs
      exact (hs.opens (k := .dash) (by decide) (by decide)).mono (by decide)
    · exact fun s hs => hs.mono (by decide)
  · apply Regex.Leads.seq (leads_digits (.inl (List.Subset.refl _)))
    apply Regex.Leads.opt _ fun s hs => hs
    apply Regex.Leads.seq _ (leads_digits (.inr rfl))
    apply Regex.Leads.chr
    intro s hs
    apply hs.stays
    intro m hm
    cases m <;> cases hm
    simp [Mode.step, continuesNumber, Mode.kind]

theorem leads_LITERAL :
    Regex.Leads read (At [.gap, .operator] depth) LITERAL (At [.number, .stringQuote] depth) := by
  apply Regex.Leads.alt
  · exact leads_NUMBER.weaken fun s hs => hs.mono (by decide)
  · exact leads_STRING.weaken fun s hs => hs.mono (by decide)

theorem leads_COMPARISON :
    Regex.Leads read (At [.word, .nameQuote, .gap] depth) COMPARISON (At [.operator] depth) := by
  have hfirst : ∀ c ∈ ['=', '<', '>', '!'],
      Regex.Leads read (At [.word, .nameQuote, .gap] depth) (.chr c) (At [.operator] depth) := by
    intro c hc
    apply Regex.Leads.chr
    intro s hs
    have hends : ∀ c ∈ ['=', '<', '>', '!'], ∀ k ∈ [Kind.word, .nameQuote, .gap],
        k.endsAt c = true := forall_listed (by decide)
    have hstart : ∀ c ∈ ['=', '<', '>', '!'], start c = (.operator [c], []) := forall_listed (by decide)
    apply hs.opens (hends c hc)
    rw [hstart c hc]
    exact ⟨rfl, rfl⟩
  have hsecond : ∀ c ∈ ['=', '>'],
      Regex.Leads read (At [.operator] depth) (.chr c) (At [.operator] depth) := by
    intro c hc
    apply Regex.Leads.chr
    intro s hs
    apply hs.stays
    intro m hm
    have hop : ∀ c ∈ ['=', '>'], isOperator c = true := forall_listed (by decide)
    cases m <;> cases hm
    simp [Mode.step, hop c hc, Mode.kind]
  apply Regex.Leads.any
  intro r hr
  have hpair : ∀ {c d : Char}, c ∈ ['=', '<', '>', '!'] → d ∈ ['=', '>'] →
      Regex.Leads read (At [.word, .nameQuote, .gap] depth) (.all [.chr c, .chr d])
        (At [.operator] depth) :=
    fun hc hd => (hfirst _ hc).seq (hsecond _ hd)
  simp only [List.mem_cons, List.not_mem_nil, or_false] at hr
  rcases hr with rfl | rfl | rfl | rfl | rfl | rfl | rfl | rfl
  · exact hpair (by decide) (by decide)
  · exact hpair (by decide) (by decide)
  · exact hpair (by decide) (by decide)
  · exact hpair (by decide) (by decide)
  · exact hpair (by decide) (by decide)
  · exact hfirst _ (by decide)
  · exact hfirst _ (by decide)
  · exact hfirst _ (by decide)

theorem leads_optionalNot :
    Regex.Leads read (At [.gap] depth) optionalNot (At [.gap] depth) := by
  apply Regex.Leads.opt _ fun s hs => hs
  exact (leads_keyword 'N' ['O', 'T'] rfl (forall_listed (by decide)) (.inl rfl)).seq
    (leads_someSpaces (by decide))

/-- A bracket or a comma by itself, behind anything that is closed. -/
theorem leads_punct {c : Char} (hc : c ∈ ['(', ')', ',']) (hks : ks ⊆ closed) (depth' : Nat)
    (hnest : (Token.punct c).nest depth = some depth') :
    Regex.Leads read (At ks depth) (.chr c) (At [.gap] depth') := by
  apply Regex.Leads.chr
  intro s hs
  have hends : ∀ c ∈ ['(', ')', ','], ∀ k ∈ closed, k.endsAt c = true := forall_listed (by decide)
  have hstart : ∀ c ∈ ['(', ')', ','], start c = (.gap, [.punct c]) := forall_listed (by decide)
  have hharmless : ∀ c ∈ ['(', ')', ','], Token.punct c ≠ .punct ';' := forall_listed (by decide)
  exact hs.puts (fun k hk => hends c hc k (hks hk)) (hstart c hc)
    ⟨nofun, hharmless c hc⟩ hnest

/-- The members of a list, and what is between them. -/
theorem leads_members :
    Regex.Leads read (At [.number, .stringQuote] 1)
      (.star (.all [spaces, .chr ',', spaces, LITERAL])) (At [.number, .stringQuote] 1) := by
  apply Regex.Leads.star
  apply Regex.Leads.all_cons (R := At [.number, .stringQuote, .gap] 1)
  · exact leads_spaces_from (by decide) (by decide) (by decide)
  apply Regex.Leads.all_cons (leads_punct (by decide) (by decide) _ rfl)
  apply Regex.Leads.all_cons (leads_spaces (by decide) (by decide))
  exact leads_LITERAL.imp (fun s hs => hs.mono (by decide)) fun _ hs => hs

/-- A form that begins with a name. -/
theorem leads_form {rs : List (Regex Char)}
    (h : Regex.Leads read (At [.word, .nameQuote] 0) (.all rs) (At closed 0)) :
    Regex.Leads read (At [.gap] 0) (.all (spaces :: NAME :: rs)) (At closed 0) := by
  apply Regex.Leads.all_cons (leads_spaces (by decide) (by decide))
  exact Regex.Leads.all_cons leads_NAME h

/-- The blanks at the end. -/
theorem leads_end (hks : ks ⊆ closed) :
    Regex.Leads read (At ks 0) (.all [spaces]) (At closed 0) :=
  leads_spaces_from hks (by decide) (List.Subset.refl _)

theorem leads_comparison :
    Regex.Leads read (At [.word, .nameQuote] 0)
      (.all [spaces, COMPARISON, spaces, LITERAL, spaces]) (At closed 0) := by
  apply Regex.Leads.all_cons (R := At [.word, .nameQuote, .gap] 0)
  · exact leads_spaces_from (by decide) (by decide) (by decide)
  apply Regex.Leads.all_cons leads_COMPARISON
  apply Regex.Leads.all_cons (R := At [.gap, .operator] 0)
  · exact leads_spaces_from (by decide) (by decide) (by decide)
  exact Regex.Leads.all_cons leads_LITERAL (leads_end (by decide))

theorem leads_null :
    Regex.Leads read (At [.word, .nameQuote] 0)
      (.all [someSpaces, keyword "IS", someSpaces, optionalNot, keyword "NULL", spaces])
      (At closed 0) := by
  apply Regex.Leads.all_cons (leads_someSpaces (by decide))
  apply Regex.Leads.all_cons
    (leads_keyword 'I' ['S'] rfl (forall_listed (by decide)) (.inl rfl))
  apply Regex.Leads.all_cons (leads_someSpaces (by decide))
  apply Regex.Leads.all_cons leads_optionalNot
  apply Regex.Leads.all_cons
    (leads_keyword 'N' ['U', 'L', 'L'] rfl (forall_listed (by decide)) (.inl rfl))
  exact leads_end (by decide)

theorem leads_in :
    Regex.Leads read (At [.word, .nameQuote] 0)
      (.all [someSpaces, optionalNot, keyword "IN", spaces, .chr '(', spaces, LITERAL,
        .star (.all [spaces, .chr ',', spaces, LITERAL]), spaces, .chr ')', spaces])
      (At closed 0) := by
  apply Regex.Leads.all_cons (leads_someSpaces (by decide))
  apply Regex.Leads.all_cons leads_optionalNot
  apply Regex.Leads.all_cons
    (leads_keyword 'I' ['N'] rfl (forall_listed (by decide)) (.inl rfl))
  apply Regex.Leads.all_cons (R := At [.word, .gap] 0)
  · exact leads_spaces_from (by decide) (by decide) (by decide)
  apply Regex.Leads.all_cons (leads_punct (by decide) (by decide) 1 rfl)
  apply Regex.Leads.all_cons (leads_spaces (by decide) (by decide))
  apply Regex.Leads.all_cons
  · exact leads_LITERAL.imp (fun s hs => hs.mono (by decide)) fun _ hs => hs
  apply Regex.Leads.all_cons leads_members
  apply Regex.Leads.all_cons (R := At [.number, .stringQuote, .gap] 1)
  · exact leads_spaces_from (by decide) (by decide) (by decide)
  apply Regex.Leads.all_cons (leads_punct (by decide) (by decide) 0 rfl)
  exact leads_end (by decide)

theorem leads_between :
    Regex.Leads read (At [.word, .nameQuote] 0)
      (.all [someSpaces, optionalNot, keyword "BETWEEN", someSpaces, LITERAL, someSpaces,
        keyword "AND", someSpaces, LITERAL, spaces]) (At closed 0) := by
  have hliteral : Regex.Leads read (At [.gap] 0) LITERAL (At [.number, .stringQuote] 0) :=
    leads_LITERAL.imp (fun s hs => hs.mono (by decide)) fun _ hs => hs
  apply Regex.Leads.all_cons (leads_someSpaces (by decide))
  apply Regex.Leads.all_cons leads_optionalNot
  apply Regex.Leads.all_cons
    (leads_keyword 'B' ['E', 'T', 'W', 'E', 'E', 'N'] rfl (forall_listed (by decide)) (.inl rfl))
  apply Regex.Leads.all_cons (leads_someSpaces (by decide))
  apply Regex.Leads.all_cons hliteral
  apply Regex.Leads.all_cons (leads_someSpaces (by decide))
  apply Regex.Leads.all_cons
    (leads_keyword 'A' ['N', 'D'] rfl (forall_listed (by decide)) (.inl rfl))
  apply Regex.Leads.all_cons (leads_someSpaces (by decide))
  exact Regex.Leads.all_cons hliteral (leads_end (by decide))

theorem leads_like :
    Regex.Leads read (At [.word, .nameQuote] 0)
      (.all [someSpaces, optionalNot, .opt (letter 'I'), keyword "LIKE", someSpaces, STRING, spaces])
      (At closed 0) := by
  apply Regex.Leads.all_cons (leads_someSpaces (by decide))
  apply Regex.Leads.all_cons leads_optionalNot
  -- The letter may or may not be there; the keyword follows either.
  have hlike : ∀ {ks : List Kind}, ks = [.gap] ∨ ks = [.word] →
      Regex.Leads read (At ks 0) (keyword "LIKE") (At [.word] 0) :=
    leads_keyword 'L' ['I', 'K', 'E'] rfl (forall_listed (by decide))
  apply Regex.Leads.all_cons (R := fun s => At [.gap] 0 s ∨ At [.word] 0 s)
  · apply Regex.Leads.opt
    · exact (leads_letter (.inl rfl) (by decide)).weaken fun s hs => .inr hs
    · exact fun s hs => .inl hs
  apply Regex.Leads.all_cons (R := At [.word] 0)
  · constructor
    rintro w hw s (hs | hs)
    · exact (hlike (.inl rfl)).run w hw s hs
    · exact (hlike (.inr rfl)).run w hw s hs
  apply Regex.Leads.all_cons (leads_someSpaces (by decide))
  apply Regex.Leads.all_cons
  · exact leads_STRING.imp (fun s hs => hs.mono (by decide)) fun _ hs => hs
  exact leads_end (by decide)

/-- **A text of a simple form leaves nothing open**, and neither brackets nor comments nor the
end of a statement come out of it. -/
theorem simple_at {text : String} (h : recognizeSimple text = true) :
    At closed 0 (scan (.gap, []) text.toList) := by
  obtain ⟨form, hform, htest⟩ := List.any_eq_true.1 h
  have hstart : At [.gap] 0 (Mode.gap, ([] : List Token)) :=
    ⟨List.mem_cons_self, fun t ht => absurd ht List.not_mem_nil, rfl⟩
  have hleads : Regex.Leads read (At [.gap] 0) form (At closed 0) := by
    simp only [SIMPLE_FORMS, List.mem_cons, List.not_mem_nil, or_false] at hform
    rcases hform with rfl | rfl | rfl | rfl | rfl
    · exact leads_form leads_comparison
    · exact leads_form leads_null
    · exact leads_form leads_in
    · exact leads_form leads_between
    · exact leads_form leads_like
  exact hleads.run text.toList (Regex.test_iff.1 htest) _ hstart

/-! ### Combined texts -/

/-- A sequence of tokens in one pair of brackets. -/
def enclose (ts : List Token) : List Token := .punct '(' :: ts ++ [.punct ')']

def AND : Token := .word ['A', 'N', 'D']

/-- The tokens of a text of a simple form, and what a bracket behind it makes of it. -/
theorem simple_tokens {text : String} (h : recognizeSimple text = true) :
    ∃ ts, tokenize text.toList = some ts ∧ Enclosable ts ∧
      read (scan (.gap, []) text.toList) ')' = (.gap, ts ++ [.punct ')']) := by
  have hat := simple_at h
  have hends : ∀ k ∈ closed, k.endsAt ')' = true := by decide
  obtain ⟨last, hlast, hstep, hneutral⟩ := step_of_endsAt (hends _ hat.kind)
  refine ⟨(scan (.gap, []) text.toList).2 ++ last, ?_, ⟨fun t ht => ?_, ?_⟩, ?_⟩
  · rw [tokenize, hlast]
    rfl
  · rcases List.mem_append.1 ht with ht | ht
    · exact hat.harmless t ht
    · exact (hneutral t ht).1
  · rw [nesting_append, hat.nests]
    exact nesting_neutral hneutral 0
  · have hclose : start ')' = (.gap, [.punct ')']) := by decide
    unfold Sql.read
    rw [hstep, hclose, List.append_assoc]

theorem scan_enclosed {text : String} {ts : List Token}
    (h : read (scan (.gap, []) text.toList) ')' = (.gap, ts ++ [.punct ')'])) (out : List Token) :
    scan (.gap, out) ("(" ++ text ++ ")").toList = (.gap, out ++ enclose ts) := by
  have hopen : read (.gap, []) '(' = (.gap, [.punct '(']) := by decide
  have htext : ("(" ++ text ++ ")").toList = '(' :: (text.toList ++ [')']) := by simp
  have hall : scan (.gap, [Token.punct '(']) (text.toList ++ [')']) = (.gap, enclose ts) := by
    have hsplit := scan_start .gap [Token.punct '('] [] (text.toList ++ [')'])
    rw [List.append_nil] at hsplit
    rw [hsplit, scan_append]
    show ((read (scan (.gap, []) text.toList) ')').1, _ ++ (read (scan (.gap, []) text.toList) ')').2) = _
    rw [h]
    rfl
  have hfront := scan_start .gap out [] ("(" ++ text ++ ")").toList
  rw [List.append_nil] at hfront
  have hword : scan (.gap, []) ("(" ++ text ++ ")").toList = (.gap, enclose ts) := by
    rw [htext]
    show scan (read (.gap, []) '(') _ = _
    rw [hopen, hall]
  rw [hfront, hword]

theorem scan_and (out : List Token) : scan (.gap, out) " AND ".toList = (.gap, out ++ [AND]) := by
  have hfront := scan_start .gap out [] " AND ".toList
  rw [List.append_nil] at hfront
  rw [hfront]
  have hand : scan (.gap, []) " AND ".toList = (.gap, [AND]) := by decide
  rw [hand]

/-- Each text stays between its own brackets. -/
theorem scan_combined {texts : List String} {tokens : List (List Token)}
    (h : List.Forall₂ (fun text ts =>
      read (scan (.gap, []) text.toList) ')' = (.gap, ts ++ [.punct ')'])) texts tokens)
    (out : List Token) :
    scan (.gap, out) (" AND ".intercalate (texts.map fun text => "(" ++ text ++ ")")).toList =
      (.gap, out ++ [AND].intercalate (tokens.map enclose)) := by
  induction h generalizing out with
  | nil => simp [scan]
  | @cons text ts texts tokens hone hall ih =>
    cases hall with
    | nil => simpa using scan_enclosed hone out
    | @cons text' ts' texts tokens hone' hall =>
      have hnext := ih (out ++ enclose ts ++ [AND])
      simp only [List.map_cons, String.intercalate_cons_cons, String.toList_append] at hnext ⊢
      rw [scan_append, scan_append]
      have hfirst := scan_enclosed hone out
      rw [String.toList_append, String.toList_append] at hfirst
      rw [hfirst, scan_and, hnext]
      simp [List.intercalate_cons_cons]

/-! ### Changes -/

/-- The cards that are on. -/
def on (clauses : List FilterClause) : List FilterClause := clauses.filter FilterClause.enabled

theorem mem_on {clauses : List FilterClause} {c : FilterClause} :
    c ∈ on clauses ↔ c ∈ clauses ∧ c.enabled = true := List.mem_filter

/-- No two cards share an id, and beside an advanced card that is on no other is. -/
structure AdvancedAlone (clauses : List FilterClause) : Prop where
  ids : (clauses.map FilterClause.id).Nodup
  alone : ∀ c ∈ on clauses, recognizeSimple c.text = false → ∀ c' ∈ on clauses, c' = c

/-- One request, the id that is minted for it, and whether the cards become what is proposed. -/
structure Change where
  request : ClauseRequest
  mintId : ClauseId
  applied : Bool

def applyChange (clauses : List FilterClause) (e : Change) : Option (List FilterClause) :=
  match proposeClauseChange clauses e.request e.mintId with
  | .propose next _ _ => some (if e.applied then next else clauses)
  | .refuse _ => some clauses

/-- An id is minted once in a view. -/
def Fresh (clauses : List FilterClause) (e : Change) : Prop :=
  ∀ text, e.request = .add text → ∀ c ∈ clauses, c.id ≠ e.mintId

/-- Nothing blocks a simple card but an advanced one, and nothing blocks an advanced card where
no card is on. -/
theorem blockerOf_eq_none {candidate : FilterClause} {others : List FilterClause}
    (h : blockerOf candidate others = none) :
    (recognizeSimple candidate.text = true ∧ ∀ c ∈ on others, recognizeSimple c.text = true) ∨
      (recognizeSimple candidate.text = false ∧ on others = []) := by
  unfold blockerOf at h
  cases hsimple : recognizeSimple candidate.text with
  | true =>
    rw [if_pos hsimple] at h
    refine .inl ⟨rfl, fun c hc => ?_⟩
    simpa using List.find?_eq_none.1 h c hc
  | false =>
    rw [if_neg (by simp [hsimple])] at h
    exact .inr ⟨rfl, List.head?_eq_none_iff.1 h⟩

/-- A card that nothing blocks can be on beside the others. -/
theorem alone_of_unblocked {candidate : FilterClause} {others next : List FilterClause}
    (h : blockerOf candidate others = none)
    (hnext : ∀ c ∈ on next, c.text = candidate.text ∧ c.id = candidate.id ∧
      c.enabled = candidate.enabled ∨ c ∈ on others) :
    ∀ c ∈ on next, recognizeSimple c.text = false → ∀ c' ∈ on next, c' = c := by
  intro c hc hadv c' hc'
  rcases blockerOf_eq_none h with ⟨hsimple, hothers⟩ | ⟨_, hothers⟩
  · rcases hnext c hc with ⟨htext, _⟩ | hmem
    · rw [htext, hsimple] at hadv
      cases hadv
    · rw [hothers c hmem] at hadv
      cases hadv
  · rw [hothers] at hnext
    rcases hnext c hc with ⟨ht, hi, he⟩ | hmem
    · rcases hnext c' hc' with ⟨ht', hi', he'⟩ | hmem'
      · obtain ⟨id, text, enabled⟩ := c
        obtain ⟨id', text', enabled'⟩ := c'
        simp only at ht hi he ht' hi' he'
        rw [ht, hi, he, ht', hi', he']
      · exact absurd hmem' List.not_mem_nil
    · exact absurd hmem List.not_mem_nil

/-- Fewer cards that are on. -/
theorem AdvancedAlone.fewer {clauses next : List FilterClause} (h : AdvancedAlone clauses)
    (hids : (next.map FilterClause.id).Nodup) (hon : ∀ c ∈ on next, c ∈ on clauses) :
    AdvancedAlone next :=
  ⟨hids, fun c hc hadv c' hc' => h.alone c (hon c hc) hadv c' (hon c' hc')⟩

theorem AdvancedAlone.add {clauses : List FilterClause} (h : AdvancedAlone clauses) {id : ClauseId}
    {text : String} (hid : ∀ c ∈ clauses, c.id ≠ id)
    (hblocker : blockerOf ⟨id, text, true⟩ clauses = none) :
    AdvancedAlone (clauses ++ [⟨id, text, true⟩]) := by
  constructor
  · rw [List.map_append, List.nodup_append]
    refine ⟨h.ids, List.nodup_singleton _, fun a ha b hb => ?_⟩
    obtain ⟨c, hc, rfl⟩ := List.mem_map.1 ha
    rw [List.mem_singleton.1 hb]
    exact hid c hc
  · apply alone_of_unblocked hblocker
    intro c hc
    obtain ⟨hmem, hon⟩ := mem_on.1 hc
    rcases List.mem_append.1 hmem with hmem | hmem
    · exact .inr (mem_on.2 ⟨hmem, hon⟩)
    · rw [List.mem_singleton.1 hmem]
      exact .inl ⟨rfl, rfl, rfl⟩

theorem AdvancedAlone.remove {clauses : List FilterClause} (h : AdvancedAlone clauses)
    (clause : ClauseId) : AdvancedAlone (clauses.filter fun c => c.id ≠ clause) := by
  apply h.fewer (h.ids.sublist (List.filter_sublist.map _))
  intro c hc
  obtain ⟨hmem, hon⟩ := mem_on.1 hc
  exact mem_on.2 ⟨List.mem_of_mem_filter hmem, hon⟩

/-- The cards with one of them switched. -/
def switch (clauses : List FilterClause) (clause : ClauseId) (enabled : Bool) : List FilterClause :=
  clauses.map fun c => if c.id = clause then { c with enabled := enabled } else c

theorem ids_switch (clauses : List FilterClause) (clause : ClauseId) (enabled : Bool) :
    (switch clauses clause enabled).map FilterClause.id = clauses.map FilterClause.id := by
  rw [switch, List.map_map]
  apply List.map_congr_left
  intro c _
  show (if c.id = clause then { c with enabled := enabled } else c).id = c.id
  split <;> rfl

/-- A card after the switch: the one that was meant, or another one as it was. -/
theorem mem_switch {clauses : List FilterClause} {clause : ClauseId} {enabled : Bool}
    {c : FilterClause} (h : c ∈ switch clauses clause enabled) :
    (∃ c₀ ∈ clauses, c₀.id = clause ∧ c = { c₀ with enabled := enabled }) ∨
      c ∈ clauses ∧ c.id ≠ clause := by
  obtain ⟨c₀, hmem, hc⟩ := List.mem_map.1 h
  by_cases hid : c₀.id = clause
  · rw [if_pos hid] at hc
    exact .inl ⟨c₀, hmem, hid, hc.symm⟩
  · rw [if_neg hid] at hc
    subst hc
    exact .inr ⟨hmem, hid⟩

theorem AdvancedAlone.switchOff {clauses : List FilterClause} (h : AdvancedAlone clauses)
    (clause : ClauseId) : AdvancedAlone (switch clauses clause false) := by
  apply h.fewer (by rw [ids_switch]; exact h.ids)
  intro c hc
  obtain ⟨hmem, hon⟩ := mem_on.1 hc
  rcases mem_switch hmem with ⟨c₀, _, _, rfl⟩ | ⟨hmem, _⟩
  · cases hon
  · exact mem_on.2 ⟨hmem, hon⟩

theorem AdvancedAlone.switchOn {clauses : List FilterClause} (h : AdvancedAlone clauses)
    {clause : ClauseId} {target : FilterClause}
    (htarget : (clauses.find? fun c => c.id = clause) = some target)
    (hblocker : blockerOf target (clauses.filter fun c => c.id ≠ clause) = none) :
    AdvancedAlone (switch clauses clause true) := by
  have htid : target.id = clause := by simpa using List.find?_some htarget
  refine ⟨by rw [ids_switch]; exact h.ids, ?_⟩
  have hsame : blockerOf { target with enabled := true } (clauses.filter fun c => c.id ≠ clause) =
      none := hblocker
  apply alone_of_unblocked hsame
  intro c hc
  obtain ⟨hmem, hon⟩ := mem_on.1 hc
  rcases mem_switch hmem with ⟨c₀, hc₀, hid, rfl⟩ | ⟨hmem, hid⟩
  · have heq : c₀ = target :=
      List.inj_on_of_nodup_map h.ids hc₀ (List.mem_of_find?_eq_some htarget) (hid.trans htid.symm)
    exact .inl ⟨by rw [heq], by rw [heq], rfl⟩
  · exact .inr (mem_on.2 ⟨List.mem_filter.2 ⟨hmem, by simpa using hid⟩, hon⟩)

/-- A switch that no card stands in the way of. -/
theorem AdvancedAlone.setEnabled {clauses : List FilterClause} (h : AdvancedAlone clauses)
    {clause : ClauseId} {enabled : Bool}
    (hblocker : (if enabled then (clauses.find? fun c => c.id = clause).bind fun target =>
      blockerOf target (clauses.filter fun c => c.id ≠ clause) else none) = none) :
    AdvancedAlone (switch clauses clause enabled) := by
  cases enabled with
  | false => exact h.switchOff clause
  | true =>
    cases htarget : clauses.find? fun c => c.id = clause with
    | none =>
      -- No card has the id, so that nothing is switched.
      have hnone : switch clauses clause true = clauses := by
        rw [switch, List.map_congr_left (g := id), List.map_id]
        intro c hc
        have hne : c.id ≠ clause := by simpa using List.find?_eq_none.1 htarget c hc
        rw [if_neg hne]
        rfl
      rw [hnone]
      exact h
    | some target =>
      rw [if_pos rfl, htarget] at hblocker
      exact h.switchOn htarget hblocker

/-- **Every change keeps an advanced card alone.** -/
theorem AdvancedAlone.change {clauses next : List FilterClause} (h : AdvancedAlone clauses)
    {e : Change} (hfresh : Fresh clauses e) (hstep : applyChange clauses e = some next) :
    AdvancedAlone next := by
  have hgo : ∀ {proposed : List FilterClause} {filter : Option Filter} {step : ClauseStep},
      proposeClauseChange clauses e.request e.mintId = .propose proposed filter step →
      AdvancedAlone proposed → AdvancedAlone next := by
    intro proposed filter step hproposal hproposed
    unfold applyChange at hstep
    rw [hproposal] at hstep
    cases hstep
    cases e.applied with
    | true => exact hproposed
    | false => exact h
  have hstay : ∀ {blocking : ClauseId},
      proposeClauseChange clauses e.request e.mintId = .refuse blocking → AdvancedAlone next := by
    intro blocking hproposal
    unfold applyChange at hstep
    rw [hproposal] at hstep
    cases hstep
    exact h
  cases hrequest : e.request with
  | add text =>
    rw [hrequest] at hgo hstay
    cases hblocker : blockerOf ⟨e.mintId, text, true⟩ clauses with
    | none =>
      apply hgo (by simp only [proposeClauseChange, hblocker]; rfl)
      exact h.add (hfresh text hrequest) hblocker
    | some blocker => exact hstay (by simp only [proposeClauseChange, hblocker]; rfl)
  | setEnabled clause enabled =>
    rw [hrequest] at hgo hstay
    cases hblocker : (if enabled then (clauses.find? fun c => c.id = clause).bind fun target =>
      blockerOf target (clauses.filter fun c => c.id ≠ clause) else none) with
    | none =>
      apply hgo (by simp only [proposeClauseChange, hblocker]; rfl)
      exact h.setEnabled hblocker
    | some blocker => exact hstay (by simp only [proposeClauseChange, hblocker]; rfl)
  | remove clause =>
    rw [hrequest] at hgo
    exact hgo rfl (h.remove clause)

theorem AdvancedAlone.on_eq {clauses : List FilterClause} (h : AdvancedAlone clauses)
    {c : FilterClause} (hc : c ∈ clauses) (henabled : c.enabled = true)
    (hadv : recognizeSimple c.text = false) : on clauses = [c] := by
  have hmem := mem_on.2 ⟨hc, henabled⟩
  have hall := h.alone c hmem hadv
  have hnodup : (on clauses).Nodup := h.ids.of_map.filter _
  cases hon : on clauses with
  | nil => rw [hon] at hmem; cases hmem
  | cons a rest =>
    rw [hon] at hall hnodup
    obtain rfl := hall a List.mem_cons_self
    cases rest with
    | nil => rfl
    | cons b rest =>
      obtain rfl := hall b (by simp)
      simp at hnodup

/-- Beside each other, all cards that are on are simple. -/
theorem AdvancedAlone.simple {clauses : List FilterClause} (h : AdvancedAlone clauses)
    (hmany : 2 ≤ (on clauses).length) {c : FilterClause} (hc : c ∈ on clauses) :
    recognizeSimple c.text = true := by
  obtain ⟨hmem, henabled⟩ := mem_on.1 hc
  by_contra hadv
  rw [h.on_eq hmem henabled (eq_false_of_ne_true hadv)] at hmany
  simp at hmany

theorem exists_tokens {cards : List FilterClause}
    (h : ∀ c ∈ cards, recognizeSimple c.text = true) :
    ∃ tokens, List.Forall₂ (fun c ts => tokenize c.text.toList = some ts ∧ Enclosable ts ∧
      read (scan (.gap, []) c.text.toList) ')' = (.gap, ts ++ [.punct ')'])) cards tokens := by
  induction cards with
  | nil => exact ⟨[], .nil⟩
  | cons c cards ih =>
    obtain ⟨ts, hts⟩ := simple_tokens (h c List.mem_cons_self)
    obtain ⟨tokens, htokens⟩ := ih fun c' hc' => h c' (List.mem_cons_of_mem _ hc')
    exact ⟨ts :: tokens, .cons hts htokens⟩

/-- **Combining cards does not change what a card means.**  After every run of changes, a card
that is on and no simple form is the only one that is on; and where two or more are on, the
tokens of the combined filter are those of each card, in order, each between a pair of brackets
that match, with `AND` between them. -/
theorem run_combined {es : List Change} (hes : Meets applyChange Fresh NO_CLAUSES es)
    {clauses : List FilterClause} (h : runFrom applyChange NO_CLAUSES es = some clauses) :
    (∀ c ∈ clauses, c.enabled = true → recognizeSimple c.text = false → on clauses = [c]) ∧
    (2 ≤ (on clauses).length → ∃ (predicate : String) (tokens : List (List Token)),
      combineClauses clauses = some ⟨predicate, FILTER_DIALECT_DUCKDB_EXPR_0⟩ ∧
      List.Forall₂ (fun c ts => tokenize c.text.toList = some ts ∧ Enclosable ts)
        (on clauses) tokens ∧
      tokenize predicate.toList = some ([AND].intercalate (tokens.map enclose))) := by
  have hstart : AdvancedAlone NO_CLAUSES := ⟨List.nodup_nil, fun c hc => absurd hc List.not_mem_nil⟩
  have hsound : AdvancedAlone clauses :=
    runFrom_keeps hstart (fun _ _ _ ht he hstep => ht.change he hstep) hes h
  refine ⟨fun c hc henabled hadv => hsound.on_eq hc henabled hadv, fun hmany => ?_⟩
  obtain ⟨tokens, htokens⟩ := exists_tokens fun c hc => hsound.simple hmany hc
  have hclosed : List.Forall₂ (fun text ts =>
      read (scan (.gap, []) text.toList) ')' = (.gap, ts ++ [.punct ')']))
      ((on clauses).map FilterClause.text) tokens :=
    List.forall₂_map_left_iff.2 (htokens.imp fun _ _ h => h.2.2)
  have hscan := scan_combined hclosed []
  refine ⟨" AND ".intercalate (((on clauses).map FilterClause.text).map fun text =>
    "(" ++ text ++ ")"), tokens, ?_, htokens.imp fun _ _ h => ⟨h.1, h.2.1⟩, ?_⟩
  · rw [combineClauses, enabledTexts]
    change (combineTexts ((on clauses).map FilterClause.text)).map _ = _
    cases htexts : (on clauses).map FilterClause.text with
    | nil =>
      rw [List.map_eq_nil_iff.1 htexts] at hmany
      cases hmany
    | cons text rest =>
      cases rest with
      | nil =>
        have hlength := congrArg List.length htexts
        rw [List.length_map, List.length_singleton] at hlength
        omega
      | cons text' rest => rfl
  · rw [tokenize, hscan]
    simp [Mode.pending]

/-- A bracket and a comment inside of a string. -/
def inString : FilterClause := ⟨⟨0⟩, "a=')--'", true⟩

def atLeast : FilterClause := ⟨⟨1⟩, "b>=-1", true⟩

def twoAdds : List Change :=
  [⟨.add inString.text, inString.id, true⟩, ⟨.add atLeast.text, atLeast.id, true⟩]

theorem run_combined_two : runFrom applyChange NO_CLAUSES twoAdds = some [inString, atLeast] ∧
    (∀ c ∈ [inString, atLeast], c.enabled = true → recognizeSimple c.text = false →
      on [inString, atLeast] = [c]) ∧
    (2 ≤ (on [inString, atLeast]).length → ∃ (predicate : String) (tokens : List (List Token)),
      combineClauses [inString, atLeast] = some ⟨predicate, FILTER_DIALECT_DUCKDB_EXPR_0⟩ ∧
      List.Forall₂ (fun c ts => tokenize c.text.toList = some ts ∧ Enclosable ts)
        (on [inString, atLeast]) tokens ∧
      tokenize predicate.toList = some ([AND].intercalate (tokens.map enclose))) := by
  have hfirst : applyChange NO_CLAUSES ⟨.add inString.text, inString.id, true⟩ =
      some [inString] := by decide +kernel
  have hsecond : applyChange [inString] ⟨.add atLeast.text, atLeast.id, true⟩ =
      some [inString, atLeast] := by decide +kernel
  have hrun : runFrom applyChange NO_CLAUSES twoAdds = some [inString, atLeast] := by
    rw [runFrom, twoAdds, List.foldlM_cons, hfirst]
    show List.foldlM applyChange [inString] _ = _
    rw [List.foldlM_cons, hsecond]
    rfl
  refine ⟨hrun, @run_combined twoAdds ?_ _ hrun⟩
  refine .cons ?_ hfirst (.cons ?_ hsecond meets_nil)
  · intro text _ c hc
    cases hc
  · intro text _ c hc
    rw [List.mem_singleton.1 hc]
    decide

end SpatialIde.Shell.Workspace
