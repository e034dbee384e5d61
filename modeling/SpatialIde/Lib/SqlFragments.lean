import SpatialIde.Lib.SqlTokens

/-! # Texts composed of whole tokens

A statement is put together from pieces.  A quiet text behind an open quote or comment stays
in it (`ended_quiet`); behind anything else a bracket begins as at the start of a text, so that
a text between brackets keeps its tokens to itself (`tokenize_between`).  `Writes` is a piece
that adds tokens of its own wherever what is in front of it is of one of some kinds.
-/

namespace Lib.Sql

/-! ### Inside of quotes and comments -/

/-- The tokens so far, if the text ends here. -/
def ended (s : Scan) : Option (List Token) := s.1.pending.map (s.2 ++ ·)

theorem tokenize_eq (text : List Char) : tokenize text = ended (scan (.gap, []) text) := rfl

/-- The characters that can end a quote or a comment, or open one in it. -/
def LOUD : List Char := [QUOTE, NAME_QUOTE, '$', '\n', '\r', '*', '/']

theorem step_quiet {m : Mode} {c : Char} (hm : m.inside = true) (hc : c ∉ LOUD) :
    ∃ m', m.step c = (m', []) ∧ m'.inside = true ∧ m'.pending = m.pending := by
  simp only [LOUD, List.mem_cons, List.not_mem_nil, or_false, not_or] at hc
  obtain ⟨hquote, hname, hdollar, hline, hreturn, hstar, hslash⟩ := hc
  cases m with
  | name cs => exact ⟨_, if_neg hname, rfl, rfl⟩
  | string cs => exact ⟨_, if_neg hquote, rfl, rfl⟩
  | dollarQuote tag body mark =>
    cases mark with
    | none => exact ⟨_, if_neg hdollar, rfl, rfl⟩
    | some cs => exact ⟨_, if_neg hdollar, rfl, rfl⟩
  | lineComment =>
    refine ⟨.lineComment, ?_, rfl, rfl⟩
    simp [Mode.step, hline, hreturn]
  | blockComment depth last =>
    refine ⟨.blockComment depth c, ?_, rfl, rfl⟩
    simp [Mode.step, hslash, hstar]
  | _ => cases hm

/-- **A quiet text stays in the quote or comment** that it is in, and adds no token. -/
theorem ended_quiet {m : Mode} {text : List Char} (hm : m.inside = true)
    (htext : ∀ c ∈ text, c ∉ LOUD) (out : List Token) :
    ended (scan (m, out) text) = ended (m, out) := by
  induction text generalizing m with
  | nil => rfl
  | cons c text ih =>
    obtain ⟨m', hstep, hinside, hpending⟩ := step_quiet hm (htext c List.mem_cons_self)
    have hread : read (m, out) c = (m', out) := by
      rw [read, hstep, List.append_nil]
    show ended (scan (read (m, out) c) text) = _
    rw [hread, ih hinside fun d hd => htext d (List.mem_cons_of_mem _ hd)]
    show m'.pending.map _ = m.pending.map _
    rw [hpending]

/-! ### Outside of them -/

/-- The kinds of a mode outside of quotes and comments. -/
def outside : List Kind :=
  [.gap, .word, .number, .nameQuote, .stringQuote, .operator, .dash, .slash, .dot, .dollar, .param]

theorem kind_mem_outside {m : Mode} : m.kind ∈ outside ↔ m.inside = false := by
  cases m <;> simp [outside, Mode.kind, Mode.inside]

/-- A piece of a text that adds tokens of its own behind some kinds, and what it leaves. -/
def Writes (ks : List Kind) (text : List Char) (ts : List Token) (ks' : List Kind) : Prop :=
  ∀ s : Scan, s.1.kind ∈ ks → ∀ out, ended s = some out →
    (scan s text).1.kind ∈ ks' ∧ ended (scan s text) = some (out ++ ts)

theorem writes_nil (ks : List Kind) : Writes ks [] [] ks := by
  intro s hs out hout
  exact ⟨hs, by rw [List.append_nil]; exact hout⟩

theorem Writes.append {ks ks' ks'' : List Kind} {t u : List Char} {ts us : List Token}
    (ht : Writes ks t ts ks') (hu : Writes ks' u us ks'') :
    Writes ks (t ++ u) (ts ++ us) ks'' := by
  intro s hs out hout
  obtain ⟨hkind, hended⟩ := ht s hs out hout
  rw [scan_append, ← List.append_assoc]
  exact hu _ hkind _ hended

theorem Writes.mono {ks ks₀ ks' ks'' : List Kind} {t : List Char} {ts : List Token}
    (h : Writes ks t ts ks') (hks : ks₀ ⊆ ks) (hks' : ks' ⊆ ks'') : Writes ks₀ t ts ks'' := by
  intro s hs out hout
  obtain ⟨hkind, hended⟩ := h s (hks hs) out hout
  exact ⟨hks' hkind, hended⟩

/-- Behind a token that its first character ends, a text has the tokens it has by itself. -/
theorem writes_of_tokenize {ks ks' : List Kind} {c : Char} {text : List Char} {ts : List Token}
    (hends : ∀ k ∈ ks, k.endsAt c = true) (hts : tokenize (c :: text) = some ts)
    (hkind : (scan (.gap, []) (c :: text)).1.kind ∈ ks') : Writes ks (c :: text) ts ks' := by
  intro s hs out hout
  obtain ⟨last, hpending, hstep, _⟩ := step_of_endsAt (hends _ hs)
  have hout' : s.2 ++ last = out := by
    rw [ended, hpending] at hout
    exact Option.some.inj hout
  have hread : scan s (c :: text) = scan ((start c).1, out ++ (start c).2) text := by
    show scan (read s c) text = _
    rw [read, hstep, ← List.append_assoc, hout']
  have hfirst : scan (.gap, []) (c :: text) = scan (start c) text := rfl
  rw [hfirst] at hkind
  rw [tokenize_eq, hfirst, ended] at hts
  obtain ⟨rest, hrest, rfl⟩ := Option.map_eq_some_iff.1 hts
  rw [hread, scan_start]
  refine ⟨hkind, ?_⟩
  show Option.map _ (scan (start c) text).1.pending = _
  rw [hrest, ← List.append_assoc]
  rfl

/-! ### Names, numbers and lists of pieces -/

/-- A fixed text. -/
theorem writes_text {ks ks' : List Kind} {text : String} {ts : List Token}
    (hends : ∀ k ∈ ks, text.toList.head?.any (k.endsAt ·) = true)
    (hts : tokenize text.toList = some ts)
    (hkind : (scan (.gap, []) text.toList).1.kind ∈ ks') : Writes ks text.toList ts ks' := by
  cases htext : text.toList with
  | nil =>
    intro s hs
    have := hends _ hs
    rw [htext] at this
    cases this
  | cons c rest =>
    rw [htext] at hends hts hkind
    exact writes_of_tokenize (fun k hk => hends k hk) hts hkind

/-- A name in quotes, each quote in it doubled. -/
def quoteName (name : List Char) : List Char :=
  NAME_QUOTE :: name.flatMap (fun c => if c = NAME_QUOTE then [c, c] else [c]) ++ [NAME_QUOTE]

theorem scan_doubled (out : List Token) (name cs : List Char) :
    scan (.name cs, out) (name.flatMap fun c => if c = NAME_QUOTE then [c, c] else [c]) =
      (.name (cs ++ name), out) := by
  induction name generalizing cs with
  | nil => simp [scan]
  | cons c name ih =>
    rw [List.flatMap_cons, scan_append]
    by_cases hc : c = NAME_QUOTE
    · rw [if_pos hc, hc]
      have hread : scan (.name cs, out) [NAME_QUOTE, NAME_QUOTE] =
          (.name (cs ++ [NAME_QUOTE]), out) := by
        simp [scan, read, Mode.step]
      rw [hread, ih, List.append_assoc]
      rfl
    · rw [if_neg hc]
      have hread : scan (.name cs, out) [c] = (.name (cs ++ [c]), out) := by
        simp [scan, read, Mode.step, hc]
      rw [hread, ih, List.append_assoc]
      rfl

theorem scan_quoteName (name : List Char) :
    scan (.gap, []) (quoteName name) = (.nameQuote name, []) := by
  have hopen : scan (.gap, []) [NAME_QUOTE] = (.name [], []) := by decide
  have hclose : scan (.name name, []) [NAME_QUOTE] = (.nameQuote name, []) := by
    simp [scan, read, Mode.step]
  have hinner := scan_doubled [] name []
  rw [List.nil_append] at hinner
  rw [quoteName, ← List.singleton_append, List.append_assoc, scan_append, hopen, scan_append, hinner,
    hclose]

/-- A quoted name is one token behind all that a quote ends. -/
theorem writes_quoteName {ks : List Kind} (hends : ∀ k ∈ ks, k.endsAt NAME_QUOTE = true)
    (name : List Char) : Writes ks (quoteName name) [.name name] [.nameQuote] := by
  have hscan := scan_quoteName name
  apply writes_of_tokenize hends
  · exact congrArg ended hscan
  · exact (congrArg (fun s => s.1.kind ∈ [Kind.nameQuote]) hscan).mpr List.mem_cons_self

theorem scan_digits (out : List Token) (digits cs : List Char)
    (hdigits : ∀ c ∈ digits, c.isDigit = true) :
    scan (.number cs, out) digits = (.number (cs ++ digits), out) := by
  induction digits generalizing cs with
  | nil => simp [scan]
  | cons c digits ih =>
    have hc := hdigits c List.mem_cons_self
    have hread : read (.number cs, out) c = (.number (cs ++ [c]), out) := by
      simp [read, Mode.step, continuesNumber, hc]
    show scan (read (.number cs, out) c) digits = _
    rw [hread, ih _ fun d hd => hdigits d (List.mem_cons_of_mem _ hd), List.append_assoc]
    rfl

/-- The digits of a number. -/
theorem writes_digits (n : Nat) :
    Writes [.gap] (toString n).toList [.number (toString n).toList] [.number] := by
  have hlist : (toString n).toList = Nat.toDigits 10 n := by simp
  have hdigits : ∀ c ∈ (toString n).toList, c.isDigit = true := by
    intro c hc
    rw [hlist] at hc
    exact Nat.isDigit_of_mem_toDigits (by decide) (by decide) hc
  cases htext : (toString n).toList with
  | nil =>
    have hpos : 0 < (Nat.toDigits 10 n).length := Nat.length_toDigits_pos
    rw [← hlist, htext] at hpos
    exact absurd hpos (by decide)
  | cons c digits =>
    rw [htext] at hdigits
    have hscan : scan (.gap, []) (c :: digits) = (.number (c :: digits), []) := by
      show scan (read (.gap, []) c) digits = _
      rw [read, Mode.step, start_of_isDigit (hdigits c List.mem_cons_self)]
      exact scan_digits [] digits [c] fun d hd => hdigits d (List.mem_cons_of_mem _ hd)
    apply writes_of_tokenize (by simp [Kind.endsAt])
    · rw [tokenize_eq, hscan]
      rfl
    · rw [hscan]
      exact List.mem_cons_self

/-- Pieces with a separator between them. -/
theorem writes_intercalate {α : Type} {ks ks₁ ks' : List Kind} {sep : String} {sepTs : List Token}
    {text : α → String} {ts : α → List Token} {items : List α}
    (hitem : ∀ a ∈ items, Writes ks (text a).toList (ts a) ks₁)
    (hsep : Writes ks₁ sep.toList sepTs ks) (hks : ks ⊆ ks') (hks₁ : ks₁ ⊆ ks') :
    Writes ks (sep.intercalate (items.map text)).toList (sepTs.intercalate (items.map ts)) ks' := by
  induction items with
  | nil => exact (writes_nil ks).mono (List.Subset.refl _) hks
  | cons a items ih =>
    have ha := hitem a List.mem_cons_self
    have hrest := ih fun b hb => hitem b (List.mem_cons_of_mem _ hb)
    cases items with
    | nil => simpa using ha.mono (List.Subset.refl _) hks₁
    | cons b items =>
      simp only [List.map_cons, String.intercalate_cons_cons, String.toList_append,
        List.intercalate_cons_cons] at hrest ⊢
      exact (ha.append hsep).append hrest

theorem Writes.tokenize {text : List Char} {ts : List Token} {ks' : List Kind}
    (h : Writes [.gap] text ts ks') : tokenize text = some ts := by
  have := (h (.gap, []) List.mem_cons_self [] rfl).2
  rwa [List.nil_append] at this

/-- **A text between pieces keeps its tokens to itself**, if it is outside of quotes and comments
at its end and what is behind it ends every token. -/
theorem tokenize_between {before text behind : List Char} {ts us : List Token} {ks' : List Kind}
    (hbefore : Writes [.gap] before ts [.gap]) (htext : (scan (.gap, []) text).1.inside = false)
    (hbehind : Writes outside behind us ks') :
    ∃ inner, tokenize text = some inner ∧
      tokenize (before ++ text ++ behind) = some (ts ++ inner ++ us) := by
  have hkind := kind_mem_outside.2 htext
  obtain ⟨hgap, hended⟩ := hbefore (.gap, []) List.mem_cons_self [] rfl
  have hmode : (scan (.gap, []) before).1 = .gap := by
    generalize (scan (.gap, []) before).1 = m at hgap
    cases m <;> first | rfl | exact absurd hgap (by simp [Mode.kind])
  have hfront : scan (.gap, []) before = (.gap, ts ++ []) := by
    rw [ended, hmode] at hended
    exact Prod.ext hmode (by simpa [Mode.pending] using hended)
  obtain ⟨last, hlast, _⟩ := step_of_endsAt (show _ = true from
    (by decide : ∀ k ∈ outside, k.endsAt ')' = true) _ hkind)
  have hinner : tokenize text = some ((scan (.gap, []) text).2 ++ last) := by
    rw [Sql.tokenize, hlast]
    rfl
  refine ⟨_, hinner, ?_⟩
  rw [tokenize_eq, scan_append, scan_append, hfront, scan_start]
  have hended : ended ((scan (.gap, []) text).1, ts ++ (scan (.gap, []) text).2) =
      some (ts ++ ((scan (.gap, []) text).2 ++ last)) := by
    rw [← List.append_assoc]
    show Option.map _ (scan (.gap, []) text).1.pending = _
    rw [hlast]
    rfl
  exact (hbehind (_, ts ++ _) hkind _ hended).2

end Lib.Sql
