import SpatialIde.Kernel.SessionHistory.Keys

/-! # The scan over the bytes of a line

`hasDuplicateKeyOf` is the scan as it runs: an index into the bytes of the text, which slices the
text behind every string, and a panic wherever it leaves the bytes or cuts a character.  On a text
whose strings all close (`Closes`) it is the scan over the characters, and the strings of a text of
the grammar all close.
-/

namespace SpatialIde.Kernel.SessionHistory

open Lib Lib.Json

/-! ### The scan as it runs -/

/-- The byte of an ASCII character. -/
def ascii (c : Char) : UInt8 := UInt8.ofNat c.toNat

/-- `text[i..]`, which panics past the end and inside a character. -/
def sliceFrom (bytes : List UInt8) (i : Nat) : Option String :=
  if i ≤ bytes.length then Text.fromUtf8 (bytes.drop i) else none

/-- `text[start..=i]`. -/
def sliceTo (bytes : List UInt8) (start i : Nat) : Option String :=
  if start ≤ i + 1 ∧ i < bytes.length then
    Text.fromUtf8 ((bytes.drop start).take (i + 1 - start))
  else none

/-- Where the quote stands that closes a string whose bytes from `i` on are left. -/
def stringEnd (bytes : List UInt8) : Nat → Nat → Option Nat
  | 0, _ => none
  | fuel + 1, i => do
    let b ← bytes[i]?
    if b = ascii '"' then return i
    else stringEnd bytes fuel (if b = ascii '\\' then i + 2 else i + 1)

section

variable (r : Reader)

/-- `from_str::<String>(token).unwrap_or_default()`. -/
def keyOf (token : String) : String :=
  match r.stringFromStr token with
  | .ok key => key
  | .error _ => ""

/-- The scan from the byte at `i` on.  None is a panic, or a loop that outlasts its fuel. -/
def scanFrom (bytes : List UInt8) : Nat → List (Option (List String)) → Nat → Option Bool
  | 0, _, _ => none
  | fuel + 1, stack, i =>
    match bytes[i]? with
    | none => some false
    | some b =>
      if b = ascii '\x7b' then scanFrom bytes fuel (some [] :: stack) (i + 1)
      else if b = ascii '[' then scanFrom bytes fuel (none :: stack) (i + 1)
      else if b = ascii '\x7d' ∨ b = ascii ']' then scanFrom bytes fuel stack.tail (i + 1)
      else if b = ascii '"' then do
        let last ← stringEnd bytes fuel (i + 1)
        let rest ← sliceFrom bytes (last + 1)
        let isKey := (Text.trimStartOf Text.isWhitespace rest.toList).head? == some ':'
        match isKey, stack with
        | true, some keys :: stack => do
          let token ← sliceTo bytes i last
          let key := keyOf r token
          if key ∈ keys then return true
          else scanFrom bytes fuel (some (keys ++ [key]) :: stack) (last + 1)
        | _, stack => scanFrom bytes fuel stack (last + 1)
      else scanFrom bytes fuel stack (i + 1)

/-- `has_duplicate_key`.  Every turn of its loop passes a byte. -/
def hasDuplicateKeyOf (text : String) : Option Bool :=
  scanFrom r (Text.bytes text) ((Text.bytes text).length + 1) [] 0

end

/-! ### Bytes and characters -/

/-- The bytes of some characters. -/
def encode (s : List Char) : List UInt8 := s.flatMap String.utf8EncodeChar

theorem encode_cons (c : Char) (s : List Char) :
    encode (c :: s) = String.utf8EncodeChar c ++ encode s := rfl

theorem encode_append (s t : List Char) : encode (s ++ t) = encode s ++ encode t :=
  List.flatMap_append

theorem fromUtf8_encode (s : List Char) : Text.fromUtf8 (encode s) = some (String.ofList s) := by
  rw [encode, ← String.toList_ofList (l := s), ← Text.bytes_eq, String.ofList_toList]
  exact Text.fromUtf8_bytes _

theorem toNat_ascii {c : Char} (h : c.toNat < 0x80) : (ascii c).toNat = c.toNat := by
  rw [ascii, UInt8.toNat_ofNat']
  omega

/-- The byte of an ASCII character is in no other character. -/
theorem eq_of_ascii_mem {c d : Char} (hd : d.toNat < 0x80)
    (h : ascii d ∈ String.utf8EncodeChar c) : c = d := by
  have hnat := Text.toNat_of_mem_encode h (by rw [toNat_ascii hd]; exact hd)
  rw [toNat_ascii hd] at hnat
  exact Char.toNat_inj.1 hnat

/-- Behind the first byte of a character no byte is ASCII. -/
theorem encode_char (c : Char) : ∃ b bs, String.utf8EncodeChar c = b :: bs ∧
    ∀ x ∈ bs, 0x80 ≤ x.toNat := by
  have hsize := c.utf8Size_pos
  rw [← String.length_utf8EncodeChar] at hsize
  obtain ⟨b, bs, hbytes⟩ := List.exists_cons_of_length_pos hsize
  refine ⟨b, bs, hbytes, fun x hx => ?_⟩
  by_contra hlow
  have hmem : x ∈ String.utf8EncodeChar c := hbytes ▸ List.mem_cons_of_mem b hx
  have hc := Text.toNat_of_mem_encode hmem (by omega)
  have hval : c.toNat = c.val.toNat := rfl
  -- An ASCII character is one byte.
  rw [String.utf8EncodeChar, if_pos (by omega)] at hbytes
  rw [List.cons.injEq] at hbytes
  rw [← hbytes.2] at hx
  exact absurd hx List.not_mem_nil

section

variable {bytes bs ds : List UInt8} {b : UInt8} {i : Nat}

theorem getElem?_of_drop (h : bytes.drop i = b :: bs) : bytes[i]? = some b := by
  have hfirst : (bytes.drop i)[0]? = bytes[i + 0]? := List.getElem?_drop
  rw [h] at hfirst
  exact hfirst.symm

theorem drop_of_drop (h : bytes.drop i = bs ++ ds) : bytes.drop (i + bs.length) = ds := by
  rw [← List.drop_drop, h, List.drop_left]

theorem drop_succ_of_drop (h : bytes.drop i = b :: bs) : bytes.drop (i + 1) = bs := by
  have hfirst : bytes.drop i = [b] ++ bs := h
  exact drop_of_drop hfirst

/-! ### Strings -/

theorem stringEnd_step {fuel : Nat} (h : bytes.drop i = b :: bs) (hquote : b ≠ ascii '"') :
    stringEnd bytes (fuel + 1) i =
      stringEnd bytes fuel (if b = ascii '\\' then i + 2 else i + 1) := by
  rw [stringEnd, getElem?_of_drop h]
  exact if_neg hquote

theorem stringEnd_pass (hplain : ∀ x ∈ bs, x ≠ ascii '"' ∧ x ≠ ascii '\\')
    (h : bytes.drop i = bs ++ ds) (fuel : Nat) :
    stringEnd bytes (bs.length + fuel) i = stringEnd bytes fuel (i + bs.length) := by
  induction bs generalizing i with
  | nil =>
    rw [List.length_nil, Nat.zero_add, Nat.add_zero]
  | cons b bs ih =>
    obtain ⟨hquote, hescape⟩ := hplain b List.mem_cons_self
    have hfuel : (b :: bs).length + fuel = bs.length + fuel + 1 := by
      rw [List.length_cons]
      omega
    rw [hfuel, stringEnd_step h hquote, if_neg hescape,
      ih (fun x hx => hplain x (List.mem_cons_of_mem _ hx)) (drop_succ_of_drop h), List.length_cons,
      Nat.add_assoc, Nat.add_comm 1]

theorem plain_of_high {x : UInt8} (h : 0x80 ≤ x.toNat) : x ≠ ascii '"' ∧ x ≠ ascii '\\' := by
  constructor
  · rintro rfl
    exact absurd h (by decide)
  · rintro rfl
    exact absurd h (by decide)

/-- The end of a string is where its token ends. -/
theorem stringEnd_of_span {s t rest : List Char} (hspan : stringSpan s = some (t, rest))
    (h : bytes.drop i = encode s) {fuel : Nat} (hfuel : (encode s).length ≤ fuel) :
    ∃ last, stringEnd bytes fuel i = some last ∧ last + 1 = i + (encode t).length := by
  induction s using stringSpan.induct generalizing i t fuel with
  | case1 => cases hspan
  | case2 s =>
    cases hspan
    have hbytes : bytes.drop i = ascii '"' :: encode rest := h
    obtain ⟨fuel, rfl⟩ : ∃ k, fuel = k + 1 := ⟨fuel - 1, by
      have : (encode ('"' :: rest)).length = (encode rest).length + 1 := rfl
      omega⟩
    refine ⟨i, ?_, rfl⟩
    rw [stringEnd, getElem?_of_drop hbytes]
    rfl
  | case3 c s ih =>
    rw [stringSpan] at hspan
    obtain ⟨⟨t', rest'⟩, hspan', heq⟩ := Option.map_eq_some_iff.1 hspan
    cases heq
    obtain ⟨b, bs, hc, hhigh⟩ := encode_char c
    have hs : encode ('\\' :: c :: s) = ascii '\\' :: b :: (bs ++ encode s) := by
      rw [encode_cons, encode_cons, hc]
      rfl
    have ht : encode ('\\' :: c :: t') = ascii '\\' :: b :: (bs ++ encode t') := by
      rw [encode_cons, encode_cons, hc]
      rfl
    rw [hs] at h hfuel
    simp only [List.length_cons, List.length_append] at hfuel
    obtain ⟨k, rfl⟩ : ∃ k, fuel = bs.length + k + 1 := ⟨fuel - bs.length - 1, by omega⟩
    -- The scan goes on behind the first byte of the escaped character.
    have hfirst : bytes.drop i = [ascii '\\', b] ++ (bs ++ encode s) := h
    have hrest : bytes.drop (i + 2) = bs ++ encode s := drop_of_drop hfirst
    have hk : (encode s).length ≤ k := by omega
    obtain ⟨last, hlast, hat⟩ := ih hspan' (drop_of_drop hrest) hk
    refine ⟨last, ?_, ?_⟩
    · rw [stringEnd_step h (by decide), if_pos rfl,
        stringEnd_pass (fun x hx => plain_of_high (hhigh x hx)) hrest, hlast]
    · rw [ht, hat]
      simp only [List.length_cons, List.length_append]
      omega
  | case4 c s hquote hescape ih =>
    rw [stringSpan.eq_4 c s hquote hescape] at hspan
    obtain ⟨⟨t', rest'⟩, hspan', heq⟩ := Option.map_eq_some_iff.1 hspan
    cases heq
    rw [encode_cons] at h hfuel
    rw [List.length_append] at hfuel
    obtain ⟨k, rfl⟩ : ∃ k, fuel = (String.utf8EncodeChar c).length + k :=
      ⟨fuel - (String.utf8EncodeChar c).length, by omega⟩
    have hne : c ≠ '\\' := by
      rintro rfl
      cases s with
      | nil => cases hspan'
      | cons d s => exact hescape d s rfl rfl
    have hplain : ∀ x ∈ String.utf8EncodeChar c, x ≠ ascii '"' ∧ x ≠ ascii '\\' := by
      intro x hx
      constructor
      · rintro rfl
        exact hquote (eq_of_ascii_mem (by decide) hx)
      · rintro rfl
        exact hne (eq_of_ascii_mem (by decide) hx)
    have hk : (encode s).length ≤ k := by omega
    obtain ⟨last, hlast, hat⟩ := ih hspan' (drop_of_drop h) hk
    refine ⟨last, ?_, ?_⟩
    · rw [stringEnd_pass hplain h, hlast]
    · show last + 1 = i + (encode (c :: t')).length
      rw [encode_cons, hat, List.length_append]
      omega

end

/-! ### Texts whose strings close -/

/-- Every string of a text closes. -/
inductive Closes : List Char → Prop where
  | nil : Closes []
  | char {c : Char} {s : List Char} : c ≠ '"' → Closes s → Closes (c :: s)
  | string {s t rest : List Char} : stringSpan s = some (t, rest) → Closes rest → Closes ('"' :: s)

theorem Closes.append {t s : List Char} (ht : ∀ c ∈ t, c ≠ '"') (hs : Closes s) :
    Closes (t ++ s) := by
  induction t with
  | nil => exact hs
  | cons c t ih =>
    exact .char (ht c List.mem_cons_self) (ih fun d hd => ht d (List.mem_cons_of_mem _ hd))

theorem closes_of_skipBlanks {s : List Char} (h : Closes (skipBlanks s)) : Closes s := by
  rw [← List.takeWhile_append_dropWhile (p := isBlank) (l := s)]
  refine h.append fun c hc => ?_
  exact (ordinary_of_isBlank (List.mem_takeWhile_imp hc)).2.2.2.2

/-- What is in front of an item closes where what is behind it does. -/
def Closing {α : Type} (item : List Char → Option (α × List Char)) : Prop :=
  ∀ s rest a, item s = some (a, rest) → Closes rest → Closes s

section

variable {α : Type} {item : List Char → Option (α × List Char)} {close : Char}

theorem Closing.items (hclose : close ≠ '"') (h : Closing item) {n : Nat} :
    Closing (parseItems item close n) := by
  induction n with
  | zero =>
    intro s rest as hs
    cases hs
  | succ n ih =>
    intro s rest as hs hrest
    obtain ⟨⟨a, s₁⟩, ha, hs⟩ := Option.bind_eq_some_iff.1 hs
    dsimp only at hs
    split at hs
    · cases hs
    · next c s₂ hblank =>
      refine h _ _ _ ha (closes_of_skipBlanks ?_)
      rw [hblank]
      split_ifs at hs with hc hcomma
      · cases hs
        exact .char (hc ▸ hclose) hrest
      · obtain ⟨⟨as', s₃⟩, has, hs⟩ := Option.bind_eq_some_iff.1 hs
        cases hs
        exact .char (by rw [hcomma]; decide) (ih _ _ _ has hrest)

theorem Closing.listOf (hclose : close ≠ '"') (h : Closing item) : Closing (listOf item close) := by
  intro s rest as hs hrest
  rw [Json.listOf] at hs
  split at hs
  · cases hs
  · next c s₁ hblank =>
    split_ifs at hs with hc
    · cases hs
      refine closes_of_skipBlanks ?_
      rw [hblank]
      exact .char (hc ▸ hclose) hrest
    · exact h.items hclose _ _ _ hs hrest

theorem Closing.member (h : Closing item) : Closing (parseMember item) := by
  intro s rest m hs hrest
  rw [parseMember] at hs
  split at hs
  · next s₁ hblank =>
    obtain ⟨⟨key, s₂⟩, hkey, hs⟩ := Option.bind_eq_some_iff.1 hs
    dsimp only at hs
    split at hs
    · next s₃ hcolon =>
      obtain ⟨⟨a, s₄⟩, ha, hs⟩ := Option.bind_eq_some_iff.1 hs
      cases hs
      obtain ⟨t, -, hspan, -⟩ := parseString_local hkey
      refine closes_of_skipBlanks ?_
      rw [hblank]
      refine .string hspan (closes_of_skipBlanks ?_)
      rw [hcolon]
      exact .char (by decide) (h _ _ _ ha hrest)
    · cases hs
  · cases hs

end

theorem closing_value (n : Nat) : Closing (parseValue n) := by
  induction n with
  | zero =>
    intro s rest v h
    cases h
  | succ n ih =>
    intro s rest v h hrest
    refine closes_of_skipBlanks ?_
    rw [parseValue] at h
    split at h
    · next s' hblank =>
      obtain ⟨⟨text, s₁⟩, htext, heq⟩ := Option.map_eq_some_iff.1 h
      cases heq
      obtain ⟨t, -, hspan, -⟩ := parseString_local htext
      rw [hblank]
      exact .string hspan hrest
    · next s' hblank =>
      obtain ⟨⟨items, s₁⟩, hitems, heq⟩ := Option.map_eq_some_iff.1 h
      cases heq
      rw [hblank]
      exact .char (by decide) (ih.listOf (by decide) _ _ _ hitems hrest)
    · next s' hblank =>
      obtain ⟨⟨members, s₁⟩, hmembers, heq⟩ := Option.map_eq_some_iff.1 h
      cases heq
      rw [hblank]
      exact .char (by decide) (ih.member.listOf (by decide) _ _ _ hmembers hrest)
    · obtain ⟨-, t, ht, hplain⟩ := parseAtom_ordinary h
      rw [ht]
      exact hrest.append fun c hc => (hplain c hc).2.2.2.2

/-- The strings of a text of the grammar close. -/
theorem closes_of_parse {text : String} {v : Value} (h : parse text = some v) :
    Closes text.toList := by
  rw [parse] at h
  split at h
  · next v' rest hvalue =>
    split_ifs at h with hblank
    refine closing_value _ _ _ _ hvalue (closes_of_skipBlanks ?_)
    rw [hblank]
    exact .nil
  · cases h

/-! ### The two scans -/

section

variable {r : Reader} {bytes bs ds : List UInt8} {b : UInt8} {i fuel : Nat}
  {stack : List (Option (List String))}

/-- A byte that the scan passes. -/
def Passed (b : UInt8) : Prop :=
  b ≠ ascii '\x7b' ∧ b ≠ ascii '[' ∧ ¬(b = ascii '\x7d' ∨ b = ascii ']') ∧ b ≠ ascii '"'

theorem passed_of_ordinary {c : Char} (h : Ordinary c) {b : UInt8}
    (hb : b ∈ String.utf8EncodeChar c) : Passed b := by
  obtain ⟨h₁, h₂, h₃, h₄, h₅⟩ := h
  have hne : ∀ d : Char, d.toNat < 0x80 → c ≠ d → b ≠ ascii d := by
    rintro d hd hcd rfl
    exact hcd (eq_of_ascii_mem hd hb)
  exact ⟨hne _ (by decide) h₁, hne _ (by decide) h₂,
    not_or.2 ⟨hne _ (by decide) h₃, hne _ (by decide) h₄⟩, hne _ (by decide) h₅⟩

theorem scanFrom_pass (hpassed : ∀ x ∈ bs, Passed x) (h : bytes.drop i = bs ++ ds) (fuel : Nat) :
    scanFrom r bytes (bs.length + fuel) stack i = scanFrom r bytes fuel stack (i + bs.length) := by
  induction bs generalizing i with
  | nil => rw [List.length_nil, Nat.zero_add, Nat.add_zero]
  | cons b bs ih =>
    obtain ⟨h₁, h₂, h₃, h₄⟩ := hpassed b List.mem_cons_self
    have hfuel : (b :: bs).length + fuel = bs.length + fuel + 1 := by
      rw [List.length_cons]
      omega
    rw [hfuel, scanFrom, getElem?_of_drop h]
    dsimp only
    rw [if_neg h₁, if_neg h₂, if_neg h₃, if_neg h₄,
      ih (fun x hx => hpassed x (List.mem_cons_of_mem _ hx)) (drop_succ_of_drop h), List.length_cons,
      Nat.add_assoc, Nat.add_comm 1]

/-- The scan over the characters, at a string. -/
theorem scan_quote {s t rest : List Char} (hspan : stringSpan s = some (t, rest)) :
    scan r stack ('"' :: s) =
      match (Text.trimStartOf Text.isWhitespace rest).head? == some ':', stack with
      | true, some keys :: stack =>
        let key := keyOf r (String.ofList ('"' :: t))
        if key ∈ keys then true else scan r (some (keys ++ [key]) :: stack) rest
      | _, stack => scan r stack rest := by
  have hlen := length_of_stringSpan hspan
  have hfuel : ∀ stack, scanKeys r s.length stack rest = scan r stack rest :=
    fun stack => scanKeys_fuel (by omega) (Nat.le_refl _)
  rw [scan, List.length_cons, scanKeys, if_neg (by decide), if_neg (by decide), if_neg (by decide),
    if_pos rfl, hspan]
  dsimp only
  cases (Text.trimStartOf Text.isWhitespace rest).head? == some ':' with
  | false => exact hfuel _
  | true =>
    rcases stack with _ | ⟨_ | keys, stack⟩
    · exact hfuel _
    · exact hfuel _
    · dsimp only
      rw [hfuel]
      rfl

theorem stringSpan_append {s t rest : List Char} (h : stringSpan s = some (t, rest)) :
    s = t ++ rest := by
  induction s using stringSpan.induct generalizing t with
  | case1 => cases h
  | case2 s =>
    cases h
    rfl
  | case3 c s ih =>
    rw [stringSpan] at h
    obtain ⟨⟨t', rest'⟩, h', heq⟩ := Option.map_eq_some_iff.1 h
    cases heq
    rw [ih h']
    rfl
  | case4 c s hquote hescape ih =>
    rw [stringSpan.eq_4 c s hquote hescape] at h
    obtain ⟨⟨t', rest'⟩, h', heq⟩ := Option.map_eq_some_iff.1 h
    cases heq
    rw [ih h']
    rfl

/-- **The scan over the bytes is the scan over the characters**: where every string closes it stays
within the bytes, and its slices begin and end between characters. -/
theorem scanFrom_eq {s : List Char} (hs : Closes s) (h : bytes.drop i = encode s)
    (hfuel : (encode s).length < fuel) : scanFrom r bytes fuel stack i = some (scan r stack s) := by
  induction hs generalizing i fuel stack with
  | nil =>
    obtain ⟨fuel, rfl⟩ : ∃ k, fuel = k + 1 := ⟨fuel - 1, by omega⟩
    have hend : bytes[i]? = none := by
      rw [List.getElem?_eq_none_iff, ← List.drop_eq_nil_iff]
      exact h
    rw [scanFrom, hend]
    rfl
  | @char c s hquote _ ih =>
    by_cases hplain : Ordinary c
    · rw [encode_cons] at h hfuel
      rw [List.length_append] at hfuel
      obtain ⟨k, rfl⟩ : ∃ k, fuel = (String.utf8EncodeChar c).length + k :=
        ⟨fuel - (String.utf8EncodeChar c).length, by omega⟩
      rw [scanFrom_pass (fun x hx => passed_of_ordinary hplain hx) h,
        ih (drop_of_drop h) (by omega), scan_cons hplain]
    · have hc : c = '\x7b' ∨ c = '[' ∨ c = '\x7d' ∨ c = ']' := by
        by_contra hnone
        push Not at hnone
        exact hplain ⟨hnone.1, hnone.2.1, hnone.2.2.1, hnone.2.2.2, hquote⟩
      obtain ⟨fuel, rfl⟩ : ∃ k, fuel = k + 1 := ⟨fuel - 1, by omega⟩
      -- Each of the four is one byte.
      have hnext : ∀ stack, String.utf8EncodeChar c = [ascii c] →
          scanFrom r bytes fuel stack (i + 1) = some (scan r stack s) := by
        intro stack hbyte
        rw [encode_cons, hbyte] at h hfuel
        exact ih (drop_succ_of_drop h) (by simpa using hfuel)
      rcases hc with rfl | rfl | rfl | rfl
      · rw [scanFrom, getElem?_of_drop h, scan_object]
        exact hnext _ rfl
      · rw [scanFrom, getElem?_of_drop h, scan_array]
        exact hnext _ rfl
      · rw [scanFrom, getElem?_of_drop h, scan_close (.inr rfl)]
        exact hnext _ rfl
      · rw [scanFrom, getElem?_of_drop h, scan_close (.inl rfl)]
        exact hnext _ rfl
  | @string s t rest hspan _ ih =>
    obtain ⟨fuel, rfl⟩ : ∃ k, fuel = k + 1 := ⟨fuel - 1, by omega⟩
    have hs := stringSpan_append hspan
    have hbytes : bytes.drop i = encode ('"' :: t) ++ encode rest := by
      rw [h, hs, ← encode_append]
      rfl
    have hhead : bytes.drop i = ascii '"' :: encode s := h
    have hcons : (encode ('"' :: t)).length = (encode t).length + 1 := rfl
    have hlen : (encode s).length = (encode t).length + (encode rest).length := by
      rw [hs, encode_append, List.length_append]
    have htotal : bytes.length - i = (encode s).length + 1 := by
      rw [← List.length_drop, hhead, List.length_cons]
    replace hfuel : (encode s).length + 1 < fuel + 1 := hfuel
    have henough : (encode s).length ≤ fuel := by omega
    obtain ⟨last, hlast, hat⟩ := stringEnd_of_span hspan (drop_succ_of_drop hhead) henough
    have hrest : bytes.drop (last + 1) = encode rest := by
      rw [hat, Nat.add_assoc, Nat.add_comm 1, ← hcons]
      exact drop_of_drop hbytes
    have hfrom : sliceFrom bytes (last + 1) = some (String.ofList rest) := by
      rw [sliceFrom, if_pos (by omega), hrest, fromUtf8_encode]
    have hto : sliceTo bytes i last = some (String.ofList ('"' :: t)) := by
      rw [sliceTo, if_pos (by omega), hbytes, show last + 1 - i = (encode ('"' :: t)).length by omega,
        List.take_left, fromUtf8_encode]
    rw [scanFrom, getElem?_of_drop hhead, scan_quote hspan]
    simp only [if_neg (show ascii '"' ≠ ascii '\x7b' by decide),
      if_neg (show ascii '"' ≠ ascii '[' by decide),
      if_neg (show ¬(ascii '"' = ascii '\x7d' ∨ ascii '"' = ascii ']') by decide), if_true, hlast,
      hfrom, hto, Option.bind_eq_bind, Option.bind_some, String.toList_ofList]
    split
    · split_ifs
      · rfl
      · exact ih hrest (by omega)
    · exact ih hrest (by omega)

/-- On a text of the grammar the scan comes to its end. -/
theorem hasDuplicateKeyOf_eq {text : String} {v : Value} (h : parse text = some v) :
    hasDuplicateKeyOf r text = some (hasDuplicateKey r text) := by
  have hbytes : Text.bytes text = encode text.toList := Text.bytes_eq text
  rw [hasDuplicateKey_eq_scan, hasDuplicateKeyOf, hbytes]
  exact scanFrom_eq (closes_of_parse h) rfl (Nat.lt_succ_self _)

end

/-! ### Objects inside a value -/

/-- `Within u v`: the value `u` stands somewhere in `v`. -/
inductive Within : Value → Value → Prop where
  | self (v : Value) : Within v v
  | item {u v : Value} {items : List Value} : v ∈ items → Within u v → Within u (.array items)
  | member {u : Value} {m : String × Value} {members : List (String × Value)} :
      m ∈ members → Within u m.2 → Within u (.object members)

/-- Some object of a value, at whatever depth, has two members with one key. -/
def HasRepeatedKey (v : Value) : Prop :=
  ∃ members, Within (.object members) v ∧ ¬(members.map Prod.fst).Nodup

theorem repeats_eq_false_iff {v : Value} : repeats v = false ↔
    ∀ members, Within (.object members) v → (members.map Prod.fst).Nodup := by
  constructor
  · intro h members hwithin
    generalize hu : Value.object members = u at hwithin
    induction hwithin with
    | self =>
      rw [← hu, repeats] at h
      exact (of_repeatsMembers h List.nodup_nil).1
    | item hmem _ ih =>
      rw [repeats] at h
      exact ih (of_repeatsItems h _ hmem)
    | member hmem _ ih =>
      rw [repeats] at h
      exact ih ((of_repeatsMembers h List.nodup_nil).2 _ hmem)
  · intro h
    induction v using Value.ind with
    | null => rfl
    | bool => rfl
    | number => rfl
    | string => rfl
    | array items ih =>
      rw [repeats]
      exact repeatsItems_eq_false fun v hv => ih v hv fun _ hwithin => h _ (.item hv hwithin)
    | object members ih =>
      rw [repeats]
      refine repeatsMembers_eq_false (h _ (.self _)) fun m hm => ?_
      exact ih m hm fun _ hwithin => h _ (.member hm hwithin)

theorem repeats_iff {v : Value} : repeats v = true ↔ HasRepeatedKey v := by
  rw [← Bool.not_eq_false, repeats_eq_false_iff, HasRepeatedKey]
  push Not
  rfl

/-! ### Texts that parse -/

/-- What `serde_json` accepts as a value is a text of the grammar. -/
def OfGrammar (r : Reader) : Prop :=
  ∀ {text : String} {w : Value}, r.fromStr text = .ok w → ∃ v, parse text = some v

/-- **The scan is exact.**  On every text that parses it ends without a panic and finds whether an
object of the text, at whatever depth, has two members whose keys decode to one; another text of the
same tree, its strings spelled in whatever way, gets the same answer. -/
theorem hasDuplicateKeyOf_exact {r : Reader} (hdecodes : Decodes r) (hgrammar : OfGrammar r)
    {text : String} {w : Value} (h : r.fromStr text = .ok w) :
    ∃ v found, parse text = some v ∧ hasDuplicateKeyOf r text = some found ∧
      (found = true ↔ HasRepeatedKey v) ∧
      ∀ text', parse text' = some v → hasDuplicateKeyOf r text' = some found := by
  obtain ⟨v, hv⟩ := hgrammar h
  have hfound : ∀ text', parse text' = some v → hasDuplicateKeyOf r text' = some (repeats v) :=
    fun text' hv' => by rw [hasDuplicateKeyOf_eq hv', hasDuplicateKey_eq hdecodes hv']
  exact ⟨v, repeats v, hv, hfound text hv, repeats_iff, hfound⟩

/-- An object inside a list that spells one key in two ways, with brackets, a quote and a colon in
its strings. -/
def spelledTwice : String :=
  "\x7b\"a\": [\x7b\"b\": \"\\\"\x7d]:\", \"\\u0062\" : 1\x7d]\x7d"

/-- A library that reads this text: of two members under one key the last stays. -/
def lastStays : Reader where
  fromStr text :=
    if text = spelledTwice then
      .ok (.object [("a", .array [.object [("b", .number (.posInt 1))]])])
    else .error ""
  stringFromStr text := match parse text with
    | some (.string s) => .ok s
    | _ => .error ""
  display _ := ""
  debug _ := ""

theorem decodes_lastStays : Decodes lastStays := by
  intro text key h
  show (match parse text with | some (.string s) => _ | _ => _) = _
  rw [h]

theorem ofGrammar_lastStays : OfGrammar lastStays := by
  intro text w h
  replace h : (if text = spelledTwice then _ else .error "") = Except.ok w := h
  split_ifs at h with htext
  rw [htext]
  exact ⟨_, rfl⟩

theorem hasDuplicateKeyOf_exact_spelledTwice :
    ∃ v found, parse spelledTwice = some v ∧
      hasDuplicateKeyOf lastStays spelledTwice = some found ∧ (found = true ↔ HasRepeatedKey v) ∧
      ∀ text', parse text' = some v → hasDuplicateKeyOf lastStays text' = some found :=
  hasDuplicateKeyOf_exact decodes_lastStays ofGrammar_lastStays
    (w := .object [("a", .array [.object [("b", .number (.posInt 1))]])]) rfl

example : hasDuplicateKeyOf lastStays spelledTwice = some true := by decide +kernel

end SpatialIde.Kernel.SessionHistory
