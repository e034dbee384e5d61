import SpatialIde.Kernel.SessionHistory.Reader

/-! # The scan for duplicate keys

On a text of the JSON grammar the scan says whether an object of its value has a key twice.  It goes
over the text token by token as the grammar does: `Spans` is a string's token, and an item, a member
or a value is scanned as `Scanned` says.
-/

namespace SpatialIde.Kernel.SessionHistory

open Lib Lib.Json

/-! ### Strings -/

/-- A part of a string that the scan goes over, whatever follows it. -/
def Spans (t : List Char) : Prop :=
  ∀ r, stringSpan (t ++ r) = (stringSpan r).map fun s => (t ++ s.1, s.2)

theorem spans_nil : Spans [] := by
  intro r
  rw [List.nil_append]
  cases stringSpan r <;> rfl

theorem Spans.append {t u : List Char} (ht : Spans t) (hu : Spans u) : Spans (t ++ u) := by
  intro r
  rw [List.append_assoc, ht, hu, Option.map_map]
  congr 1
  funext s
  simp

theorem spans_char {c : Char} (hquote : c ≠ '"') (hescape : c ≠ '\\') : Spans [c] := by
  intro r
  show stringSpan (c :: r) = _
  rw [stringSpan.eq_4 c r (fun h => hquote h)]
  · rfl
  · rintro _ _ rfl
    exact absurd rfl hescape

theorem spans_escaped (c : Char) : Spans ['\\', c] := by
  intro r
  show stringSpan ('\\' :: c :: r) = _
  rw [stringSpan]
  rfl

theorem spans_plain {t : List Char} (h : ∀ c ∈ t, c ≠ '"' ∧ c ≠ '\\') : Spans t := by
  induction t with
  | nil => exact spans_nil
  | cons c t ih =>
    obtain ⟨hquote, hescape⟩ := h c List.mem_cons_self
    exact (spans_char hquote hescape).append (ih fun d hd => h d (List.mem_cons_of_mem _ hd))

theorem hexDigit_plain {c : Char} {n : Nat} (h : hexDigit c = some n) : c ≠ '"' ∧ c ≠ '\\' := by
  constructor
  · rintro rfl
    cases h
  · rintro rfl
    cases h

/-- Four digits, whatever follows them. -/
theorem hex4_local {s r : List Char} {n : Nat} (h : hex4 s = some (n, r)) :
    ∃ t, s = t ++ r ∧ (∀ r', hex4 (t ++ r') = some (n, r')) ∧ ∀ c ∈ t, c ≠ '"' ∧ c ≠ '\\' := by
  match s, h with
  | a :: b :: c :: d :: s, h =>
    simp only [hex4, Option.bind_eq_bind, Option.bind_eq_some_iff, Option.pure_def,
      Option.some.injEq, Prod.mk.injEq] at h
    obtain ⟨na, ha, nb, hb, nc, hc, nd, hd, rfl, rfl⟩ := h
    refine ⟨[a, b, c, d], rfl, fun r' => ?_, ?_⟩
    · simp [hex4, ha, hb, hc, hd]
    · simp only [List.mem_cons, List.not_mem_nil, or_false]
      rintro x (rfl | rfl | rfl | rfl)
      · exact hexDigit_plain ha
      · exact hexDigit_plain hb
      · exact hexDigit_plain hc
      · exact hexDigit_plain hd

theorem unescapeHex_local {s r : List Char} {d : Char} (h : unescapeHex s = some (d, r)) :
    ∃ t, s = t ++ r ∧ (∀ r', unescapeHex (t ++ r') = some (d, r')) ∧ Spans t := by
  rw [unescapeHex] at h
  obtain ⟨⟨n, r₁⟩, hn, h₁⟩ := Option.bind_eq_some_iff.1 h
  obtain ⟨t, rfl, hlocal, hplain⟩ := hex4_local hn
  dsimp only at h₁
  split_ifs at h₁ with hsingle hlow
  · cases h₁
    refine ⟨t, rfl, fun r' => ?_, spans_plain hplain⟩
    rw [unescapeHex, hlocal]
    exact if_pos hsingle
  · split at h₁
    · next r₂ =>
      obtain ⟨⟨m, r₃⟩, hm, h₂⟩ := Option.bind_eq_some_iff.1 h₁
      obtain ⟨u, rfl, hlocal', hplain'⟩ := hex4_local hm
      dsimp only at h₂
      split_ifs at h₂ with hrange
      rw [Option.some.injEq, Prod.mk.injEq] at h₂
      obtain ⟨rfl, rfl⟩ := h₂
      refine ⟨t ++ (['\\', 'u'] ++ u), by simp, fun r' => ?_, ?_⟩
      · rw [List.append_assoc, List.append_assoc, unescapeHex, hlocal]
        simp only [Option.bind_eq_bind, Option.bind_some, if_neg hsingle, if_neg hlow,
          List.cons_append, List.nil_append, hlocal', if_pos hrange]
      · exact (spans_plain hplain).append ((spans_escaped 'u').append (spans_plain hplain'))
    · cases h₁

/-- An escape, whatever follows it. -/
theorem unescape_local {s r : List Char} {d : Char} (h : unescape s = some (d, r)) :
    ∃ t, s = t ++ r ∧ (∀ r', unescape (t ++ r') = some (d, r')) ∧ Spans ('\\' :: t) := by
  unfold unescape at h
  split at h
  any_goals
    cases h
    exact ⟨[_], rfl, fun r' => rfl, spans_escaped _⟩
  · next s' =>
    obtain ⟨t, rfl, hlocal, hspans⟩ := unescapeHex_local h
    exact ⟨'u' :: t, rfl, hlocal, (spans_escaped 'u').append hspans⟩
  · cases h

/-- A string is its token, which the scan goes over whole. -/
theorem scanString_local {n : Nat} {s cs r : List Char} (h : scanString n s = some (cs, r)) :
    ∃ t, s = t ++ '"' :: r ∧ Spans t ∧
      ∀ m r', t.length < m → scanString m (t ++ '"' :: r') = some (cs, r') := by
  induction n generalizing s cs with
  | zero => cases h
  | succ n ih =>
    cases s with
    | nil => cases h
    | cons c s =>
      rw [scanString] at h
      split_ifs at h with hquote hescape hcontrol
      · cases h
        refine ⟨[], by rw [hquote]; rfl, spans_nil, fun m r' hm => ?_⟩
        obtain ⟨m, rfl⟩ : ∃ k, m = k + 1 := ⟨m - 1, by simp at hm; omega⟩
        rfl
      · obtain ⟨⟨d, s₁⟩, hd, h⟩ := Option.bind_eq_some_iff.1 h
        obtain ⟨⟨ds, s₂⟩, hds, h⟩ := Option.bind_eq_some_iff.1 h
        cases h
        obtain ⟨t, rfl, hlocal, hspans⟩ := unescape_local hd
        obtain ⟨u, rfl, hspans', hrest⟩ := ih hds
        refine ⟨'\\' :: t ++ u, by rw [hescape]; simp, hspans.append hspans', fun m r' hm => ?_⟩
        obtain ⟨m, rfl⟩ : ∃ k, m = k + 1 := ⟨m - 1, by omega⟩
        rw [List.append_assoc, List.cons_append, scanString, if_neg (by decide), if_pos rfl, hlocal]
        show ((scanString m (u ++ '"' :: r')).bind _) = _
        rw [hrest m r' (by simp at hm; omega)]
        rfl
      · obtain ⟨⟨ds, s₂⟩, hds, h⟩ := Option.bind_eq_some_iff.1 h
        cases h
        obtain ⟨u, rfl, hspans', hrest⟩ := ih hds
        refine ⟨c :: u, rfl, (spans_char hquote hescape).append hspans', fun m r' hm => ?_⟩
        obtain ⟨m, rfl⟩ : ∃ k, m = k + 1 := ⟨m - 1, by omega⟩
        rw [List.cons_append, scanString, if_neg hquote, if_neg hescape, if_neg hcontrol]
        show ((scanString m (u ++ '"' :: r')).bind _) = _
        rw [hrest m r' (by simp at hm; omega)]
        rfl

/-- The token of a string, and what it spells. -/
theorem parseString_local {s r : List Char} {key : String} (h : parseString s = some (key, r)) :
    ∃ t, s = t ++ r ∧ stringSpan s = some (t, r) ∧ parse (String.ofList ('"' :: t)) = some (.string key) := by
  rw [parseString] at h
  cases hscan : scanString (s.length + 1) s with
  | none =>
    rw [hscan] at h
    cases h
  | some p =>
    rw [hscan] at h
    cases h
    obtain ⟨t, hs, hspans, hlocal⟩ := scanString_local hscan
    refine ⟨t ++ ['"'], by simp [hs], ?_, ?_⟩
    · rw [hs, hspans]
      rfl
    · have hparse : parseString (t ++ ['"']) = some (String.ofList p.1, []) := by
        rw [parseString, hlocal _ _ (by rw [List.length_append, List.length_singleton]; omega)]
        rfl
      have hvalue : parseValue ((String.ofList ('"' :: (t ++ ['"']))).length + 1)
          ('"' :: (t ++ ['"'])) = some (.string (String.ofList p.1), []) := by
        rw [parseValue, skipBlanks_cons (by decide)]
        show (parseString (t ++ ['"'])).map _ = _
        rw [hparse]
        rfl
      rw [parse, String.toList_ofList, hvalue]
      rfl

/-! ### The scan without its fuel -/

theorem length_of_stringSpan {s t rest : List Char} (h : stringSpan s = some (t, rest)) :
    rest.length < s.length := by
  induction s using stringSpan.induct generalizing t with
  | case1 => cases h
  | case2 rest' =>
    cases h
    exact Nat.lt_succ_self _
  | case3 c s ih =>
    rw [stringSpan] at h
    obtain ⟨p, hp, h⟩ := Option.map_eq_some_iff.1 h
    cases h
    have := ih hp
    simp only [List.length_cons]
    omega
  | case4 c s hquote hescape ih =>
    rw [stringSpan.eq_4 c s hquote hescape] at h
    obtain ⟨p, hp, h⟩ := Option.map_eq_some_iff.1 h
    cases h
    have := ih hp
    simp only [List.length_cons]
    omega

section

variable {r : Reader}

/-- Fuel for the text is fuel enough. -/
theorem scanKeys_fuel {fuel fuel' : Nat} {stack : List (Option (List String))} {s : List Char}
    (h : s.length ≤ fuel) (h' : s.length ≤ fuel') :
    scanKeys r fuel stack s = scanKeys r fuel' stack s := by
  induction fuel generalizing fuel' stack s with
  | zero =>
    obtain rfl := List.length_eq_zero_iff.1 (Nat.le_zero.1 h)
    cases fuel' <;> rfl
  | succ fuel ih =>
    cases s with
    | nil => cases fuel' <;> rfl
    | cons c s =>
      obtain ⟨fuel', rfl⟩ : ∃ k, fuel' = k + 1 := ⟨fuel' - 1, by simp at h'; omega⟩
      simp only [List.length_cons, Nat.add_le_add_iff_right] at h h'
      rw [scanKeys, scanKeys]
      congr 1
      · exact ih h h'
      congr 1
      · exact ih h h'
      congr 1
      · exact ih h h'
      congr 1
      · split
        · rfl
        · next text rest hspan =>
          have hlen := length_of_stringSpan hspan
          have hrest : ∀ stack, scanKeys r fuel stack rest = scanKeys r fuel' stack rest :=
            fun stack => ih (by omega) (by omega)
          dsimp only
          split
          · rw [hrest]
          · exact hrest _
      · exact ih h h'

variable (r)

/-- The scan, with fuel enough. -/
def scan (stack : List (Option (List String))) (s : List Char) : Bool := scanKeys r s.length stack s

theorem hasDuplicateKey_eq_scan (text : String) :
    hasDuplicateKey r text = scan r [] text.toList := by
  rw [hasDuplicateKey, scan, String.length_toList]

variable {r} {stack : List (Option (List String))}

theorem scan_nil : scan r stack [] = false := rfl

theorem scan_object (s : List Char) : scan r stack ('\x7b' :: s) = scan r (some [] :: stack) s := rfl

theorem scan_array (s : List Char) : scan r stack ('[' :: s) = scan r (none :: stack) s := rfl

theorem scan_close {c : Char} (h : c = ']' ∨ c = '\x7d') (s : List Char) :
    scan r stack (c :: s) = scan r stack.tail s := by
  rcases h with rfl | rfl <;> rfl

/-- A character that the scan passes. -/
def Ordinary (c : Char) : Prop :=
  c ≠ '\x7b' ∧ c ≠ '[' ∧ c ≠ '\x7d' ∧ c ≠ ']' ∧ c ≠ '"'

instance (c : Char) : Decidable (Ordinary c) := inferInstanceAs (Decidable (_ ∧ _))

theorem ordinary_of_all {t : List Char} (h : (t.all fun c => decide (Ordinary c)) = true) :
    ∀ c ∈ t, Ordinary c := fun c hc => of_decide_eq_true (List.all_eq_true.1 h c hc)

theorem scan_cons {c : Char} (h : Ordinary c) (s : List Char) :
    scan r stack (c :: s) = scan r stack s := by
  obtain ⟨h₁, h₂, h₃, h₄, h₅⟩ := h
  rw [scan, List.length_cons, scanKeys, if_neg h₁, if_neg h₂, if_neg (by simp [h₃, h₄]), if_neg h₅]
  rfl

theorem scan_append {t : List Char} (h : ∀ c ∈ t, Ordinary c) (s : List Char) :
    scan r stack (t ++ s) = scan r stack s := by
  induction t with
  | nil => rfl
  | cons c t ih =>
    rw [List.cons_append, scan_cons (h c List.mem_cons_self),
      ih fun d hd => h d (List.mem_cons_of_mem _ hd)]

/-- A text behind which no colon comes. -/
def NoColon (s : List Char) : Prop := (Text.trimStartOf Text.isWhitespace s).head? ≠ some ':'

/-- A string that is a value. -/
theorem scan_string {s t rest : List Char} (hspan : stringSpan s = some (t, rest))
    (h : NoColon rest) : scan r stack ('"' :: s) = scan r stack rest := by
  have hlen := length_of_stringSpan hspan
  rw [scan, List.length_cons, scanKeys, if_neg (by decide), if_neg (by decide), if_neg (by decide),
    if_pos rfl, hspan]
  dsimp only
  rw [beq_eq_false_iff_ne.2 h]
  exact scanKeys_fuel (by omega) (Nat.le_refl _)

/-- A string that is a key. -/
theorem scan_key {s t rest : List Char} {keys : List String} {key : String}
    (hspan : stringSpan s = some (t, rest))
    (hcolon : (Text.trimStartOf Text.isWhitespace rest).head? = some ':')
    (hkey : r.stringFromStr (String.ofList ('"' :: t)) = .ok key) :
    scan r (some keys :: stack) ('"' :: s) =
      (decide (key ∈ keys) || scan r (some (keys ++ [key]) :: stack) rest) := by
  have hlen := length_of_stringSpan hspan
  rw [scan, List.length_cons, scanKeys, if_neg (by decide), if_neg (by decide), if_neg (by decide),
    if_pos rfl, hspan]
  dsimp only
  rw [hcolon, beq_self_eq_true, hkey]
  dsimp only
  by_cases hmem : key ∈ keys
  · simp [hmem]
  · rw [if_neg hmem, decide_eq_false hmem, Bool.false_or]
    exact scanKeys_fuel (by omega) (Nat.le_refl _)

/-! ### Blanks and what ends a value -/

theorem ordinary_of_isBlank {c : Char} (h : isBlank c = true) : Ordinary c := by
  simp only [isBlank, Bool.or_eq_true, decide_eq_true_eq] at h
  rcases h with ((rfl | rfl) | rfl) | rfl <;> decide

theorem scan_skipBlanks (s : List Char) : scan r stack (skipBlanks s) = scan r stack s := by
  conv_rhs => rw [← List.takeWhile_append_dropWhile (p := isBlank) (l := s)]
  exact (scan_append (fun c hc => ordinary_of_isBlank (List.mem_takeWhile_imp hc)) _).symm

theorem isWhitespace_of_isBlank {c : Char} (h : isBlank c = true) : Text.isWhitespace c = true := by
  simp only [isBlank, Bool.or_eq_true, decide_eq_true_eq] at h
  rcases h with ((rfl | rfl) | rfl) | rfl <;> decide

/-- Behind the blanks stands the first character that is no white space. -/
theorem trimStart_of_skipBlanks {s rest : List Char} {c : Char} (h : skipBlanks s = c :: rest)
    (hc : Text.isWhitespace c = false) : Text.trimStartOf Text.isWhitespace s = c :: rest := by
  rw [Text.trimStartOf, ← List.takeWhile_append_dropWhile (p := isBlank) (l := s),
    List.dropWhile_append_of_pos fun d hd => isWhitespace_of_isBlank (List.mem_takeWhile_imp hd)]
  show (skipBlanks s).dropWhile _ = _
  rw [h, List.dropWhile_cons_of_neg (by rw [hc]; decide)]

theorem noColon_of_skipBlanks {s rest : List Char} {c : Char} (h : skipBlanks s = c :: rest)
    (hc : c = ',' ∨ c = ']' ∨ c = '\x7d') : NoColon s := by
  rw [NoColon, trimStart_of_skipBlanks h (by rcases hc with rfl | rfl | rfl <;> decide)]
  rcases hc with rfl | rfl | rfl <;> simp

theorem noColon_of_blank {s : List Char} (h : skipBlanks s = []) : NoColon s := by
  rw [NoColon, Text.trimStartOf, ← List.takeWhile_append_dropWhile (p := isBlank) (l := s),
    List.dropWhile_append_of_pos fun d hd => isWhitespace_of_isBlank (List.mem_takeWhile_imp hd)]
  show ((skipBlanks s).dropWhile _).head? ≠ _
  rw [h]
  simp

end

/-! ### Values -/

mutual

/-- Whether an object of a value has a key twice. -/
def repeats : Value → Bool
  | .array items => repeatsItems items
  | .object members => repeatsMembers [] members
  | _ => false
termination_by structural v => v

def repeatsItems : List Value → Bool
  | [] => false
  | v :: items => repeats v || repeatsItems items
termination_by structural items => items

/-- The members behind those whose keys are `keys`. -/
def repeatsMembers (keys : List String) : List (String × Value) → Bool
  | [] => false
  | (key, v) :: members => decide (key ∈ keys) || repeats v || repeatsMembers (keys ++ [key]) members
termination_by structural members => members

end

theorem repeatsMembers_eq_false {members : List (String × Value)} {keys : List String}
    (hnodup : (keys ++ members.map Prod.fst).Nodup)
    (h : ∀ m ∈ members, repeats m.2 = false) : repeatsMembers keys members = false := by
  induction members generalizing keys with
  | nil => rfl
  | cons m members ih =>
    have hm : m.1 ∉ keys := by
      intro hmem
      rw [List.map_cons, List.nodup_append] at hnodup
      exact hnodup.2.2 m.1 hmem m.1 List.mem_cons_self rfl
    rw [repeatsMembers, decide_eq_false hm, h m List.mem_cons_self, Bool.or_self, Bool.false_or]
    refine ih ?_ fun m' hm' => h m' (List.mem_cons_of_mem _ hm')
    rw [List.append_assoc]
    exact hnodup

theorem repeatsItems_eq_false {items : List Value} (h : ∀ v ∈ items, repeats v = false) :
    repeatsItems items = false := by
  induction items with
  | nil => rfl
  | cons v items ih =>
    rw [repeatsItems, h v List.mem_cons_self, ih fun w hw => h w (List.mem_cons_of_mem _ hw)]
    rfl

theorem of_repeatsMembers {members : List (String × Value)} {keys : List String}
    (h : repeatsMembers keys members = false) (hkeys : keys.Nodup) :
    (keys ++ members.map Prod.fst).Nodup ∧ ∀ m ∈ members, repeats m.2 = false := by
  induction members generalizing keys with
  | nil => exact ⟨by simpa using hkeys, by simp⟩
  | cons m members ih =>
    rw [repeatsMembers, Bool.or_eq_false_iff, Bool.or_eq_false_iff, decide_eq_false_iff_not] at h
    obtain ⟨⟨hkey, hm⟩, hrest⟩ := h
    obtain ⟨hnodup, hmembers⟩ := ih hrest (List.nodup_append.2
      ⟨hkeys, List.nodup_singleton _, by rintro a ha b hb rfl; exact hkey (List.mem_singleton.1 hb ▸ ha)⟩)
    refine ⟨by simpa using hnodup, fun m' hm' => ?_⟩
    rcases List.mem_cons.1 hm' with rfl | hm'
    · exact hm
    · exact hmembers m' hm'

theorem of_repeatsItems {items : List Value} (h : repeatsItems items = false) :
    ∀ v ∈ items, repeats v = false := by
  induction items with
  | nil => simp
  | cons v items ih =>
    rw [repeatsItems, Bool.or_eq_false_iff] at h
    intro w hw
    rcases List.mem_cons.1 hw with rfl | hw
    · exact h.1
    · exact ih h.2 w hw

/-- `serde_json::from_str::<String>` reads what the token of a string spells. -/
def Decodes (r : Reader) : Prop :=
  ∀ {text key : String}, parse text = some (.string key) → r.stringFromStr text = .ok key

section

variable {r : Reader} {stack : List (Option (List String))} {α σ : Type}

/-- How the scan goes over an item: `top` is what is on the stack for the list it stands in. -/
def Scanned (r : Reader) (top : σ → Option (List String)) (found : σ → α → Bool) (next : σ → α → σ)
    (item : List Char → Option (α × List Char)) : Prop :=
  ∀ s rest a, item s = some (a, rest) → NoColon rest → ∀ st stack,
    scan r (top st :: stack) s = (found st a || scan r (top (next st a) :: stack) rest)

/-- Whether one of the items is found. -/
def foundIn (found : σ → α → Bool) (next : σ → α → σ) : σ → List α → Bool
  | _, [] => false
  | st, a :: as => found st a || foundIn found next (next st a) as

variable {top : σ → Option (List String)} {found : σ → α → Bool} {next : σ → α → σ}
  {item : List Char → Option (α × List Char)} {close : Char}

theorem Scanned.items (hclose : close = ']' ∨ close = '\x7d') (h : Scanned r top found next item)
    {n : Nat} {s rest : List Char} {as : List α} (hs : parseItems item close n s = some (as, rest))
    (st : σ) : scan r (top st :: stack) s = (foundIn found next st as || scan r stack rest) := by
  induction n generalizing s as st with
  | zero => cases hs
  | succ n ih =>
    obtain ⟨⟨a, s₁⟩, ha, hs⟩ := Option.bind_eq_some_iff.1 hs
    dsimp only at hs
    split at hs
    · cases hs
    · next c s₂ hblank =>
      have hskip := @scan_skipBlanks r (top (next st a) :: stack) s₁
      rw [hblank] at hskip
      split_ifs at hs with hc hcomma
      · cases hs
        have hnone := noColon_of_skipBlanks hblank (hc ▸ .inr hclose)
        rw [h _ _ _ ha hnone st stack, ← hskip, scan_close (hc ▸ hclose), List.tail_cons, foundIn, foundIn,
          Bool.or_false]
      · obtain ⟨⟨as', s₃⟩, has, hs⟩ := Option.bind_eq_some_iff.1 hs
        cases hs
        have hnone := noColon_of_skipBlanks hblank (.inl hcomma)
        rw [h _ _ _ ha hnone st stack, ← hskip, scan_cons (by rw [hcomma]; decide), ih has (next st a),
          foundIn, Bool.or_assoc]

theorem Scanned.listOf (hclose : close = ']' ∨ close = '\x7d') (h : Scanned r top found next item)
    {s rest : List Char} {as : List α} (hs : listOf item close s = some (as, rest)) (st : σ) :
    scan r (top st :: stack) s = (foundIn found next st as || scan r stack rest) := by
  rw [Json.listOf] at hs
  split at hs
  · cases hs
  · next c s₁ hblank =>
    split_ifs at hs with hc
    · cases hs
      rw [← scan_skipBlanks, hblank, scan_close (hc ▸ hclose)]
      rfl
    · exact h.items hclose hs st

/-- A member adds its key to those of its object. -/
theorem Scanned.member (hdecodes : Decodes r) {item : List Char → Option (Value × List Char)}
    (h : ∀ {s rest : List Char} {v : Value}, item s = some (v, rest) → NoColon rest → ∀ stack,
      scan r stack s = (repeats v || scan r stack rest)) :
    Scanned r some (fun keys (m : String × Value) => decide (m.1 ∈ keys) || repeats m.2)
      (fun keys m => keys ++ [m.1]) (parseMember item) := by
  intro s rest m hs hnone keys stack
  rw [parseMember] at hs
  split at hs
  · next s₁ hblank =>
    obtain ⟨⟨key, s₂⟩, hkey, hs⟩ := Option.bind_eq_some_iff.1 hs
    dsimp only at hs
    split at hs
    · next s₃ hcolon =>
      obtain ⟨⟨v, s₄⟩, hv, hs⟩ := Option.bind_eq_some_iff.1 hs
      cases hs
      obtain ⟨t, -, hspan, hspells⟩ := parseString_local hkey
      have hskip := @scan_skipBlanks r (some (keys ++ [key]) :: stack) s₂
      rw [hcolon, scan_cons (by decide), h hv hnone] at hskip
      rw [← scan_skipBlanks, hblank, scan_key hspan ?_ (hdecodes hspells), ← hskip, Bool.or_assoc]
      rw [trimStart_of_skipBlanks hcolon (by decide)]
      rfl
    · cases hs
  · cases hs

theorem foundIn_items (items : List Value) :
    foundIn (fun (_ : Unit) v => repeats v) (fun u _ => u) () items = repeatsItems items := by
  induction items with
  | nil => rfl
  | cons v items ih => rw [foundIn, ih, repeatsItems]

theorem foundIn_members (members : List (String × Value)) (keys : List String) :
    foundIn (fun keys (m : String × Value) => decide (m.1 ∈ keys) || repeats m.2)
      (fun keys m => keys ++ [m.1]) keys members = repeatsMembers keys members := by
  induction members generalizing keys with
  | nil => rfl
  | cons m members ih => rw [foundIn, ih, repeatsMembers]

/-- A word or a number holds no bracket and no quote. -/
theorem parseAtom_ordinary {s rest : List Char} {v : Value} (h : parseAtom s = some (v, rest)) :
    repeats v = false ∧ ∃ t, s = t ++ rest ∧ ∀ c ∈ t, Ordinary c := by
  have hword : ∀ {w : String} {u : Value}, repeats u = false → (∀ c ∈ w.toList, Ordinary c) →
      word w u s = some (v, rest) →
        repeats v = false ∧ ∃ t, s = t ++ rest ∧ ∀ c ∈ t, Ordinary c := by
    intro w u hu hw h
    obtain ⟨s', hs', heq⟩ := Option.map_eq_some_iff.1 h
    cases heq
    exact ⟨hu, w.toList, List.isPrefixOf?_eq_some_iff_append_eq.1 hs' |>.symm, hw⟩
  rw [parseAtom] at h
  rcases (Option.orElse_eq_some _ _ _).1 h with h | ⟨-, h⟩
  · exact hword rfl (ordinary_of_all rfl) h
  rcases (Option.orElse_eq_some _ _ _).1 h with h | ⟨-, h⟩
  · exact hword rfl (ordinary_of_all rfl) h
  rcases (Option.orElse_eq_some _ _ _).1 h with h | ⟨-, h⟩
  · exact hword rfl (ordinary_of_all rfl) h
  · rw [parseNumber] at h
    split_ifs at h with hnumber
    obtain ⟨n, -, heq⟩ := Option.map_eq_some_iff.1 h
    cases heq
    refine ⟨rfl, s.takeWhile isNumberChar, List.takeWhile_append_dropWhile.symm, fun c hc => ?_⟩
    have := List.mem_takeWhile_imp hc
    refine ⟨?_, ?_, ?_, ?_, ?_⟩ <;> · rintro rfl; exact absurd this (by decide)

/-- **The scan goes over a value** and finds whether one of its objects has a key twice. -/
theorem scan_value (hdecodes : Decodes r) {n : Nat} {s rest : List Char} {v : Value}
    (h : parseValue n s = some (v, rest)) (hnone : NoColon rest)
    (stack : List (Option (List String))) :
    scan r stack s = (repeats v || scan r stack rest) := by
  induction n generalizing s rest v stack with
  | zero => cases h
  | succ n ih =>
    rw [← scan_skipBlanks]
    rw [parseValue] at h
    split at h
    · next s' hblank =>
      obtain ⟨⟨text, s₁⟩, htext, heq⟩ := Option.map_eq_some_iff.1 h
      cases heq
      obtain ⟨t, -, hspan, -⟩ := parseString_local htext
      rw [hblank, scan_string hspan hnone]
      rfl
    · next s' hblank =>
      obtain ⟨⟨items, s₁⟩, hitems, heq⟩ := Option.map_eq_some_iff.1 h
      cases heq
      have hscanned : Scanned r (fun _ : Unit => none) (fun _ v => repeats v) (fun u _ => u)
          (parseValue n) := fun _ _ _ hs hnone _ _ => ih hs hnone _
      rw [hblank, scan_array, hscanned.listOf (.inl rfl) hitems (), foundIn_items]
      rfl
    · next s' hblank =>
      obtain ⟨⟨members, s₁⟩, hmembers, heq⟩ := Option.map_eq_some_iff.1 h
      cases heq
      have hscanned := Scanned.member hdecodes fun hs hnone stack => ih hs hnone stack
      rw [hblank, scan_object, hscanned.listOf (.inr rfl) hmembers [], foundIn_members]
      rfl
    · obtain ⟨hv, t, ht, hplain⟩ := parseAtom_ordinary h
      rw [ht, scan_append hplain, hv, Bool.false_or]

/-- **The scan is exact**: on a text of the grammar it says whether an object of the value has a key
twice. -/
theorem hasDuplicateKey_eq (hdecodes : Decodes r) {text : String} {v : Value}
    (h : parse text = some v) : hasDuplicateKey r text = repeats v := by
  rw [parse] at h
  split at h
  · next v' rest hvalue =>
    split_ifs at h with hblank
    cases h
    rw [hasDuplicateKey_eq_scan, scan_value hdecodes hvalue (noColon_of_blank hblank),
      ← scan_skipBlanks, hblank, scan_nil, Bool.or_false]
  · cases h

end

end SpatialIde.Kernel.SessionHistory
