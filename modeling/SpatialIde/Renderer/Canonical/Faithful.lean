import SpatialIde.Lib.Except
import SpatialIde.Lib.Json.Text
import SpatialIde.Renderer.Canonical

/-! # The canonical form says the whole tree

What the writer accepts (`Admissible`), and that the JSON grammar reads its text
back as the tree's value: keys in order, strings and integers as they are, doubles
bit for bit but for the sign of zero.
-/

namespace SpatialIde.Renderer

open Lib Lib.Json

/-! ### Trees -/

namespace Json

theorem ind {P : Json → Prop} (null : P null) (bool : ∀ b, P (bool b)) (int : ∀ i, P (int i))
    (uint : ∀ u, P (uint u)) (double : ∀ d, P (double d)) (str : ∀ s, P (str s))
    (arr : ∀ items, (∀ v ∈ items, P v) → P (arr items))
    (obj : ∀ members, (∀ m ∈ members, P m.2) → P (obj members)) (v : Json) : P v := by
  refine @Json.rec P (fun items => ∀ v ∈ items, P v) (fun members => ∀ m ∈ members, P m.2)
    (fun m => P m.2) null bool int uint double str arr obj ?_ ?_ ?_ ?_ (fun _ _ h => h) v
  · intro v hv
    cases hv
  · intro v items hv ih w hw
    rcases List.mem_cons.1 hw with rfl | hw
    · exact hv
    · exact ih w hw
  · intro m hm
    cases hm
  · intro m members hm ih m' hm'
    rcases List.mem_cons.1 hm' with rfl | hm'
    · exact hm
    · exact ih m' hm'

mutual

/-- The value the tree stands for: one spelling for an integer, one zero. -/
def value : Json → Value
  | .null => .null
  | .bool b => .bool b
  | .int i => .number (if i.toInt < 0 then .negInt i else .posInt (UInt64.ofNat i.toInt.toNat))
  | .uint u => .number (.posInt u)
  | .double d => .number (.float (positiveZero d))
  | .str s => .string s
  | .arr items => .array (values items)
  | .obj members => .object (memberValues members)
termination_by structural v => v

def values : List Json → List Value
  | [] => []
  | v :: items => v.value :: values items
termination_by structural v => v

def memberValues : List (String × Json) → List (String × Value)
  | [] => []
  | (k, v) :: members => (k, v.value) :: memberValues members
termination_by structural v => v

end

theorem values_eq (items : List Json) : values items = items.map value := by
  induction items with
  | nil => rfl
  | cons v items ih => rw [values, ih, List.map_cons]

theorem memberValues_eq (members : List (String × Json)) :
    memberValues members = members.map fun m => (m.1, m.2.value) := by
  induction members with
  | nil => rfl
  | cons m members ih => rw [memberValues, ih, List.map_cons]

mutual

/-- How deep a tree is nested; a scalar is one deep. -/
def depth : Json → Nat
  | .arr items => itemsDepth items + 1
  | .obj members => membersDepth members + 1
  | _ => 1
termination_by structural v => v

def itemsDepth : List Json → Nat
  | [] => 0
  | v :: items => max v.depth (itemsDepth items)
termination_by structural v => v

def membersDepth : List (String × Json) → Nat
  | [] => 0
  | (_, v) :: members => max v.depth (membersDepth members)
termination_by structural v => v

end

theorem depth_le_itemsDepth {v : Json} {items : List Json} (h : v ∈ items) :
    v.depth ≤ itemsDepth items := by
  induction items with
  | nil => cases h
  | cons w items ih =>
    rw [itemsDepth]
    rcases List.mem_cons.1 h with rfl | h
    · exact Nat.le_max_left _ _
    · exact Nat.le_trans (ih h) (Nat.le_max_right _ _)

theorem depth_le_membersDepth {m : String × Json} {members : List (String × Json)}
    (h : m ∈ members) : m.2.depth ≤ membersDepth members := by
  induction members with
  | nil => cases h
  | cons m' members ih =>
    rw [membersDepth]
    rcases List.mem_cons.1 h with rfl | h
    · exact Nat.le_max_left _ _
    · exact Nat.le_trans (ih h) (Nat.le_max_right _ _)

/-- The declared domain of a double. -/
def InDomain (d : F64) : Prop :=
  d.isFinite = true ∧ (d.eq F64.zero = true ∨
    MIN_ABS_DOUBLE.le d.abs = true ∧ d.abs.lt MAX_ABS_DOUBLE = true)

/-- No object has a repeated key, and every double is in its domain. -/
inductive Admissible : Json → Prop
  | null : Admissible .null
  | bool (b : Bool) : Admissible (.bool b)
  | int (i : Int64) : Admissible (.int i)
  | uint (u : UInt64) : Admissible (.uint u)
  | double {d : F64} (h : InDomain d) : Admissible (.double d)
  | str (s : String) : Admissible (.str s)
  | arr {items : List Json} (h : ∀ v ∈ items, Admissible v) : Admissible (.arr items)
  | obj {members : List (String × Json)} (hkeys : (members.map Prod.fst).Nodup)
      (h : ∀ m ∈ members, Admissible m.2) : Admissible (.obj members)

end Json

/-! ### Doubles -/

theorem dropZeros_eq : ∀ {g : List Char} (r : List Char), g ≠ [] → (∀ c ∈ g, c.isDigit = true) →
    ∃ k g', g' ≠ [] ∧ g = List.replicate k '0' ++ g' ∧
      dropZeros (g ++ '.' :: r) = g' ++ '.' :: r := by
  intro g
  induction g with
  | nil => intro r h; exact absurd rfl h
  | cons c g ih =>
    intro r _ hdigits
    by_cases hc : c = '0'
    · subst hc
      cases g with
      | nil => exact ⟨0, ['0'], by decide, rfl, rfl⟩
      | cons d g =>
        have hd : ¬d = '.' := F64.digit_ne (hdigits d (by simp)) (by decide)
        obtain ⟨k, g', hne, hg, hdrop⟩ := ih r (by simp) fun c hc =>
          hdigits c (List.mem_cons_of_mem _ hc)
        refine ⟨k + 1, g', hne, by rw [hg, List.replicate_succ, List.cons_append], ?_⟩
        rw [← hdrop, List.cons_append, List.cons_append, dropZeros]
        exact if_neg fun h => hd (Option.some.inj h)
    · refine ⟨0, c :: g, by simp, rfl, ?_⟩
      rw [List.cons_append, dropZeros.eq_2]
      rintro _ h
      cases h
      exact hc rfl

/-- The trimmed text has a fraction, which only lacks zeros at its end. -/
theorem trimFraction_decimalText (neg : Bool) (whole : List Char) {fraction : List Char}
    (hne : fraction ≠ []) (hfraction : ∀ c ∈ fraction, c.isDigit = true) :
    ∃ k fraction', fraction' ≠ [] ∧ fraction = fraction' ++ List.replicate k '0' ∧
      trimFraction (F64.decimalText neg whole fraction) =
        F64.decimalText neg whole fraction' := by
  obtain ⟨k, g, hg, hsplit, hdrop⟩ := @dropZeros_eq fraction.reverse
    ((if neg then ['-'] else []) ++ whole).reverse (by simpa using hne) (by simpa using hfraction)
  refine ⟨k, g.reverse, by simpa using hg, ?_, ?_⟩
  · rw [← List.reverse_reverse fraction, hsplit, List.reverse_append, List.reverse_replicate]
  · have hrev : (F64.decimalText neg whole fraction).reverse =
        fraction.reverse ++ '.' :: ((if neg then ['-'] else []) ++ whole).reverse := by
      simp [F64.decimalText]
    rw [trimFraction, if_pos (by simp [F64.decimalText]), hrev, hdrop]
    simp [F64.decimalText]

theorem parse_append_zeros {neg : Bool} {whole fraction : List Char} (k : Nat)
    (hwhole : ∀ c ∈ whole, c.isDigit = true) (hne : whole ≠ [])
    (hfraction : ∀ c ∈ fraction, c.isDigit = true) (hne' : fraction ≠ []) :
    F64.parse (String.ofList (F64.decimalText neg whole (fraction ++ List.replicate k '0'))) =
      F64.parse (String.ofList (F64.decimalText neg whole fraction)) := by
  induction k with
  | zero => rw [List.replicate_zero, List.append_nil]
  | succ k ih =>
    rw [List.replicate_succ', ← List.append_assoc, F64.parse_append_zero hwhole ?_ hne ?_, ih]
    · intro c hc
      rcases List.mem_append.1 hc with hc | hc
      · exact hfraction c hc
      · rw [List.eq_of_mem_replicate hc]
        decide
    · exact List.append_ne_nil_of_left_ne_nil hne' _

/-- The text of a double: a decimal without needless zeros in front. -/
structure DecimalOf (d : F64) (text : List Char) (whole fraction : List Char) : Prop where
  text_eq : text = F64.decimalText d.negative whole fraction
  whole_digits : ∀ c ∈ whole, c.isDigit = true
  whole_ne : whole ≠ []
  whole_head : whole.head? = some '0' → whole.length = 1
  fraction_digits : ∀ c ∈ fraction, c.isDigit = true
  fraction_ne : fraction ≠ []
  reads : F64.parse (String.ofList text) = some d

theorem spellAt_eq_some {d : F64} {precision : Nat} {text : List Char}
    (h : spellAt d precision = some text) : ∃ whole fraction, DecimalOf d text whole fraction := by
  have hdigits : ∀ c ∈ F64.paddedDigits (d.scaledTo precision % 10 ^ precision) precision,
      c.isDigit = true := fun _ hc => F64.isDigit_of_mem_paddedDigits hc
  have hwhole : ∀ c ∈ Nat.toDigits 10 (d.scaledTo precision / 10 ^ precision),
      c.isDigit = true := fun _ hc => F64.isDigit_of_mem_toDigits hc
  obtain ⟨k, fraction, hne, hfraction, htrim⟩ := trimFraction_decimalText d.negative
    (Nat.toDigits 10 (d.scaledTo precision / 10 ^ precision)) (F64.paddedDigits_ne_nil _ _) hdigits
  have hdigits' : ∀ c ∈ fraction, c.isDigit = true := fun c hc =>
    hdigits c (by rw [hfraction]; exact List.mem_append_left _ hc)
  rw [spellAt] at h
  cases hparse : F64.parse (String.ofList (F64.fixed d precision)) with
  | none =>
    simp only [hparse] at h
    cases h
  | some x =>
    simp only [hparse] at h
    by_cases hx : x.eq d = true
    · rw [if_pos hx] at h
      cases h
      refine ⟨_, fraction, htrim, hwhole, Nat.toDigits_ne_nil, toDigits_head _, hdigits', hne, ?_⟩
      have hread : F64.parse (String.ofList (trimFraction (F64.fixed d precision))) = some x := by
        rw [← hparse, F64.fixed, htrim, hfraction,
          parse_append_zeros k hwhole Nat.toDigits_ne_nil hdigits' hne]
      have hsign : x.negative = d.negative := by
        rw [F64.fixed, F64.parse_decimalText hwhole hdigits _ Nat.toDigits_ne_nil
          (F64.paddedDigits_ne_nil _ _)] at hparse
        cases hparse
        exact F64.negative_ofMagnitude (F64.magnitudeOfRatio_le _ _)
      rw [hread, F64.eq_of_eq hx hsign]
    · rw [if_neg hx] at h
      cases h

theorem domain_of_not_refused {d : F64} (hfinite : d.isFinite = true)
    (h : ¬(!(positiveZero d).eq F64.zero && ((positiveZero d).abs.lt MIN_ABS_DOUBLE ||
      MAX_ABS_DOUBLE.le (positiveZero d).abs)) = true) :
    d.eq F64.zero = true ∨ MIN_ABS_DOUBLE.le d.abs = true ∧ d.abs.lt MAX_ABS_DOUBLE = true := by
  by_cases hzero : d.eq F64.zero = true
  · exact .inl hzero
  · have hsame : positiveZero d = d := if_neg hzero
    have hnan : d.abs.isNaN = false := by
      rw [F64.isNaN, F64.magnitude_abs]
      exact F64.isNaN_eq_false_of_isFinite hfinite
    have hmin : MIN_ABS_DOUBLE.isNaN = false := by decide
    have hmax : MAX_ABS_DOUBLE.isNaN = false := by decide
    rw [hsame] at h
    simp only [Bool.and_eq_true, Bool.not_eq_true', Bool.or_eq_true, F64.lt_iff, F64.le_iff, hnan,
      hmin, hmax, true_and] at h
    simp only [F64.lt_iff, F64.le_iff, hnan, hmin, hmax, true_and]
    have hfalse : d.eq F64.zero = false := by simpa using hzero
    right
    constructor
    · by_contra hlt
      exact h ⟨hfalse, .inl (by omega)⟩
    · by_contra hle
      exact h ⟨hfalse, .inr (by omega)⟩

theorem writeDouble_eq_ok {d : F64} {loc : String} {text : List Char}
    (h : writeDouble d loc = .ok text) :
    Json.InDomain d ∧ ∃ whole fraction, DecimalOf (positiveZero d) text whole fraction := by
  rw [writeDouble] at h
  by_cases hfinite : d.isFinite = true
  · rw [if_neg (by rw [hfinite]; decide)] at h
    by_cases hdomain : (!(positiveZero d).eq F64.zero && ((positiveZero d).abs.lt MIN_ABS_DOUBLE ||
        MAX_ABS_DOUBLE.le (positiveZero d).abs)) = true
    · simp only [hdomain, if_true] at h
      cases h
    · simp only [hdomain, Bool.false_eq_true, if_false] at h
      cases hspell : (List.range' 1 30).findSome? (spellAt (positiveZero d)) with
      | none =>
        simp only [hspell] at h
        cases h
      | some s =>
        simp only [hspell] at h
        cases h
        obtain ⟨precision, -, hs⟩ := List.exists_of_findSome?_eq_some hspell
        exact ⟨⟨hfinite, domain_of_not_refused hfinite hdomain⟩, spellAt_eq_some hs⟩
  · rw [if_pos (by simpa using hfinite)] at h
    cases h

/-! ### Strings -/

theorem hexDigit_hexChar {n : Nat} (h : n < 16) : hexDigit (hexChar n) = some n := by
  interval_cases n <;> decide

theorem unescape_control {c : Char} (h : c.toNat < 0x20) (r : List Char) :
    unescape ('u' :: '0' :: '0' :: hexChar (c.toNat / 16) :: hexChar (c.toNat % 16) :: r) =
      some (c, r) := by
  have hhigh := hexDigit_hexChar (n := c.toNat / 16) (by omega)
  have hlow := hexDigit_hexChar (n := c.toNat % 16) (by omega)
  have hzero : hexDigit '0' = some 0 := by decide
  have hfour : hex4 ('0' :: '0' :: hexChar (c.toNat / 16) :: hexChar (c.toNat % 16) :: r) =
      some (c.toNat, r) := by
    rw [hex4, hzero, hhigh, hlow]
    show some (((0 * 16 + 0) * 16 + c.toNat / 16) * 16 + c.toNat % 16, r) = _
    rw [show ((0 * 16 + 0) * 16 + c.toNat / 16) * 16 + c.toNat % 16 = c.toNat by omega]
  rw [unescape, unescapeHex, hfour]
  show (if c.toNat < 0xD800 ∨ 0xDFFF < c.toNat then some (Char.ofNat c.toNat, r) else _) = _
  rw [if_pos (by omega), Char.ofNat_toNat]

theorem escapes_escape (c : Char) : Escapes (escape c) c := by
  rw [escape]
  split_ifs with h₁ h₂ h₃ h₄ h₅ h₆ h₇ h₈
  · exact .inr ⟨_, rfl, fun r => by rw [h₁]; rfl⟩
  · exact .inr ⟨_, rfl, fun r => by rw [h₂]; rfl⟩
  · exact .inr ⟨_, rfl, fun r => by rw [h₃]; rfl⟩
  · exact .inr ⟨_, rfl, fun r => by rw [h₄]; rfl⟩
  · exact .inr ⟨_, rfl, fun r => by rw [h₅]; rfl⟩
  · exact .inr ⟨_, rfl, fun r => by rw [h₆]; rfl⟩
  · exact .inr ⟨_, rfl, fun r => by rw [h₇]; rfl⟩
  · exact .inr ⟨_, rfl, unescape_control h₈⟩
  · exact .inl ⟨rfl, h₁, h₂, by omega⟩

theorem parseString_writeString (s : String) (r : List Char) :
    parseString ((s.toList.map escape).flatten ++ '"' :: r) = some (s, r) := by
  have h : List.Forall₂ Escapes (s.toList.map escape) s.toList := by
    rw [List.forall₂_map_left_iff, List.forall₂_same]
    exact fun c _ => escapes_escape c
  rw [parseString_eq h, String.ofList_toList]

theorem hexChar_plain {n : Nat} (h : n < 16) : 0x20 ≤ (hexChar n).toNat := by
  interval_cases n <;> decide

theorem plain_of_all {text : List Char} (h : (text.all fun c => 0x20 ≤ c.toNat) = true) :
    ∀ c ∈ text, 0x20 ≤ c.toNat := fun c hc => of_decide_eq_true (List.all_eq_true.1 h c hc)

theorem escape_plain {c d : Char} (h : d ∈ escape c) : 0x20 ≤ d.toNat := by
  rw [escape] at h
  split_ifs at h with h₁ h₂ h₃ h₄ h₅ h₆ h₇ h₈
  · exact plain_of_all rfl d h
  · exact plain_of_all rfl d h
  · exact plain_of_all rfl d h
  · exact plain_of_all rfl d h
  · exact plain_of_all rfl d h
  · exact plain_of_all rfl d h
  · exact plain_of_all rfl d h
  · simp only [List.mem_cons, List.not_mem_nil, or_false] at h
    rcases h with rfl | rfl | rfl | rfl | rfl | rfl
    · decide
    · decide
    · decide
    · decide
    · exact hexChar_plain (by omega)
    · exact hexChar_plain (by omega)
  · rw [List.mem_singleton.1 h]
    omega

theorem writeString_plain {s : String} {c : Char} (h : c ∈ writeString s) : 0x20 ≤ c.toNat := by
  rw [writeString, List.cons_append, List.mem_cons, List.mem_append, List.mem_singleton] at h
  rcases h with rfl | h | rfl
  · decide
  · obtain ⟨t, ht, hc⟩ := List.mem_flatten.1 h
    obtain ⟨d, -, rfl⟩ := List.mem_map.1 ht
    exact escape_plain hc
  · decide

/-! ### Lists -/

/-- What stands behind the first item. -/
def commaBefore (ts : List (List Char)) : List Char := (ts.map (',' :: ·)).flatten

theorem intercalate_cons (t : List Char) (ts : List (List Char)) :
    List.intercalate [','] (t :: ts) = t ++ commaBefore ts := by
  induction ts generalizing t with
  | nil => simp [commaBefore]
  | cons t' ts ih =>
    rw [List.intercalate_cons_cons, ih]
    simp [commaBefore]

theorem length_intercalate_le (ts : List (List Char)) :
    (List.intercalate [','] ts).length ≤ (commaBefore ts).length := by
  cases ts with
  | nil => exact Nat.zero_le _
  | cons t ts =>
    rw [intercalate_cons]
    simp only [commaBefore, List.map_cons, List.flatten_cons, List.length_append, List.length_cons]
    omega

theorem plain_intercalate {ts : List (List Char)} (h : ∀ t ∈ ts, ∀ c ∈ t, 0x20 ≤ c.toNat) {c : Char}
    (hc : c ∈ List.intercalate [','] ts) : 0x20 ≤ c.toNat := by
  cases ts with
  | nil => cases hc
  | cons t ts =>
    rw [intercalate_cons] at hc
    rcases List.mem_append.1 hc with hc | hc
    · exact h t List.mem_cons_self c hc
    · obtain ⟨u, hu, hc⟩ := List.mem_flatten.1 hc
      obtain ⟨t', ht', rfl⟩ := List.mem_map.1 hu
      rcases List.mem_cons.1 hc with rfl | hc
      · decide
      · exact h t' (List.mem_cons_of_mem _ ht') c hc

section

variable {α β : Type} {R : α → β → Prop} {as : List α} {bs : List β}

theorem exists_right (h : List.Forall₂ R as bs) {a : α} (ha : a ∈ as) : ∃ b ∈ bs, R a b := by
  induction h with
  | nil => cases ha
  | cons hab _ ih =>
    rcases List.mem_cons.1 ha with rfl | ha
    · exact ⟨_, List.mem_cons_self, hab⟩
    · obtain ⟨b, hb, hr⟩ := ih ha
      exact ⟨b, List.mem_cons_of_mem _ hb, hr⟩

theorem flip_of_mem {S : β → α → Prop} (h : List.Forall₂ R as bs)
    (himp : ∀ a ∈ as, ∀ b, R a b → S b a) : List.Forall₂ S bs as := by
  induction h with
  | nil => exact .nil
  | cons hab _ ih =>
    exact .cons (himp _ List.mem_cons_self _ hab)
      (ih fun a ha => himp a (List.mem_cons_of_mem _ ha))

theorem exists_left (h : List.Forall₂ R as bs) {b : β} (hb : b ∈ bs) : ∃ a ∈ as, R a b := by
  obtain ⟨a, ha, hr⟩ := exists_right (flip_of_mem (S := fun b a => R a b) h fun _ _ _ h => h) hb
  exact ⟨a, ha, hr⟩

end

theorem writeItems_eq_ok {loc : String} : ∀ {items : List Json} {i : Nat} {text : List Char},
    writeItems loc i items = .ok text →
      ∃ ts, List.Forall₂ (fun v t => ∃ loc, writeValue loc v = .ok t) items ts ∧
        text = if i = 0 then List.intercalate [','] ts else commaBefore ts := by
  intro items
  induction items with
  | nil =>
    intro i text h
    cases h
    refine ⟨[], .nil, ?_⟩
    by_cases hi : i = 0
    · rw [if_pos hi]
      rfl
    · rw [if_neg hi]
      rfl
  | cons v items ih =>
    intro i text h
    rw [writeItems] at h
    obtain ⟨t, ht, h⟩ := bind_eq_ok.1 h
    obtain ⟨rest, hrest, h⟩ := bind_eq_ok.1 h
    cases h
    obtain ⟨ts, hts, htext⟩ := ih hrest
    rw [if_neg (Nat.succ_ne_zero i)] at htext
    refine ⟨t :: ts, .cons ⟨_, ht⟩ hts, ?_⟩
    rw [htext]
    by_cases hi : i = 0
    · rw [if_pos hi, intercalate_cons, if_neg (by omega)]
      rfl
    · rw [if_neg hi, if_pos (by omega)]
      simp [commaBefore]

theorem writeMembers_eq_ok {loc : String} :
    ∀ {members : List (String × Json)} {seen : List String} {text : List Char},
    writeMembers loc seen members = .ok text →
      (members.map Prod.fst).Nodup ∧ (∀ k ∈ members.map Prod.fst, k ∉ seen) ∧
        ∃ ts, List.Forall₂ (fun m t => ∃ loc u, writeValue loc m.2 = .ok u ∧
          t = writeString m.1 ++ ':' :: u) members ts ∧
            text = if seen = [] then List.intercalate [','] ts else commaBefore ts := by
  intro members
  induction members with
  | nil =>
    intro seen text h
    cases h
    refine ⟨List.nodup_nil, fun k hk => (by cases hk), [], .nil, ?_⟩
    by_cases hseen : seen = []
    · rw [if_pos hseen]
      rfl
    · rw [if_neg hseen]
      rfl
  | cons m members ih =>
    intro seen text h
    obtain ⟨k, v⟩ := m
    rw [writeMembers] at h
    by_cases hk : k ∈ seen
    · rw [if_pos hk] at h
      cases h
    · rw [if_neg hk] at h
      obtain ⟨u, hu, h⟩ := bind_eq_ok.1 h
      obtain ⟨rest, hrest, h⟩ := bind_eq_ok.1 h
      cases h
      obtain ⟨hnodup, hfresh, ts, hts, htext⟩ := ih hrest
      rw [if_neg (by simp)] at htext
      refine ⟨?_, ?_, (writeString k ++ ':' :: u) :: ts, .cons ⟨_, u, hu, rfl⟩ hts, ?_⟩
      · rw [List.map_cons, List.nodup_cons]
        exact ⟨fun hmem => hfresh k hmem (by simp), hnodup⟩
      · intro k' hk'
        rcases List.mem_cons.1 hk' with rfl | hk'
        · exact hk
        · exact fun hmem => hfresh k' hk' (List.mem_append_left _ hmem)
      · rw [htext]
        by_cases hseen : seen = []
        · rw [if_pos hseen, if_pos hseen, intercalate_cons]
          simp
        · rw [if_neg hseen, if_neg hseen]
          simp [commaBefore]

/-! ### The whole tree -/

/-- What the writer's text says of a tree. -/
structure Spells (v : Json) (text : List Char) : Prop where
  admissible : v.Admissible
  plain : ∀ c ∈ text, 0x20 ≤ c.toNat
  opens : Opens text
  deep : v.depth ≤ text.length
  reads : ∀ n, v.depth ≤ n → Reads (parseValue n) text v.value

theorem exists_succ_of_depth {v : Json} {n : Nat} (hv : 0 < v.depth) (h : v.depth ≤ n) :
    ∃ m, n = m + 1 := ⟨n - 1, by omega⟩

/-- A scalar, by its text alone. -/
theorem spells_scalar {v : Json} {text : List Char} (hadm : v.Admissible) (hdepth : v.depth = 1)
    (hplain : ∀ c ∈ text, 0x20 ≤ c.toNat) (hopens : Opens text)
    (hreads : ∀ n, Reads (parseValue (n + 1)) text v.value) : Spells v text where
  admissible := hadm
  plain := hplain
  opens := hopens
  deep := by
    obtain ⟨c, t, rfl, -⟩ := hopens
    rw [hdepth, List.length_cons]
    omega
  reads := by
    intro n hn
    obtain ⟨m, rfl⟩ := exists_succ_of_depth (by omega) hn
    exact hreads m

theorem numberChar_plain {c : Char} (h : isNumberChar c = true) : 0x20 ≤ c.toNat := by
  simp only [isNumberChar, Bool.or_eq_true, decide_eq_true_eq] at h
  rcases h with ((((h | rfl) | rfl) | rfl) | rfl) | rfl
  · rw [Char.isDigit, Bool.and_eq_true, decide_eq_true_eq] at h
    have := UInt32.le_iff_toNat_le.1 h.1
    exact Nat.le_trans (by decide) this
  · decide
  · decide
  · decide
  · decide
  · decide

theorem spells_number {v : Json} {text : List Char} {n : Number} (hadm : v.Admissible)
    (hdepth : v.depth = 1) (hvalue : v.value = .number n) (h : NumberText text n) :
    Spells v text :=
  spells_scalar hadm hdepth (fun c hc => numberChar_plain (h.chars c hc)) h.opens.opens fun m => by
    rw [hvalue]
    exact reads_numberText h

theorem numberText_int (i : Int64) : NumberText (toString i.toInt).toList
    (if i.toInt < 0 then .negInt i else .posInt (UInt64.ofNat i.toInt.toNat)) := by
  have hlow := i.le_toInt
  have hhigh := i.toInt_lt
  rw [Int.toString_eq_repr, Int.repr_eq_if]
  by_cases hi : i.toInt < 0
  · rw [if_neg (by omega), if_pos hi, String.toList_append, Nat.toList_repr]
    have hback : Int64.ofInt (-((-i.toInt).toNat : Int)) = i := by
      rw [show -((-i.toInt).toNat : Int) = i.toInt by omega, Int64.ofInt_toInt]
    have h := numberText_negative (n := (-i.toInt).toNat) (by omega) (by omega)
    rw [hback] at h
    exact h
  · rw [if_pos (by omega), if_neg hi, Nat.toList_repr]
    exact numberText_natural (by omega)

theorem itemsDepth_le {items : List Json} {ts : List (List Char)}
    (h : List.Forall₂ Spells items ts) :
    Json.itemsDepth items ≤ (List.intercalate [','] ts).length := by
  induction h with
  | nil => exact Nat.zero_le _
  | @cons v t items ts hv _ ih =>
    have hcomma := length_intercalate_le ts
    have hdeep := hv.deep
    rw [Json.itemsDepth, intercalate_cons, List.length_append]
    omega

/-- The text of a member. -/
structure SpellsMember (m : String × Json) (t : List Char) : Prop where
  exists_value : ∃ u, t = writeString m.1 ++ ':' :: u ∧ Spells m.2 u

theorem SpellsMember.opens {m : String × Json} {t : List Char} (h : SpellsMember m t) :
    Opens t := by
  obtain ⟨u, rfl, -⟩ := h.exists_value
  exact ⟨'"', _, rfl, by decide, by decide, by decide⟩

theorem SpellsMember.plain {m : String × Json} {t : List Char} (h : SpellsMember m t) {c : Char}
    (hc : c ∈ t) : 0x20 ≤ c.toNat := by
  obtain ⟨u, rfl, hu⟩ := h.exists_value
  rcases List.mem_append.1 hc with hc | hc
  · exact writeString_plain hc
  · rcases List.mem_cons.1 hc with rfl | hc
    · decide
    · exact hu.plain c hc

theorem SpellsMember.reads {m : String × Json} {t : List Char} (h : SpellsMember m t) {n : Nat}
    (hn : m.2.depth ≤ n) : Reads (parseMember (parseValue n)) t (m.1, m.2.value) := by
  obtain ⟨u, rfl, hu⟩ := h.exists_value
  have hread := Reads.member (parseString_writeString m.1) (hu.reads n hn)
  have htext : writeString m.1 ++ ':' :: u =
      '"' :: (m.1.toList.map escape).flatten ++ '"' :: ':' :: u := by
    simp [writeString]
  rw [htext]
  exact hread

theorem membersDepth_le {members : List (String × Json)} {ts : List (List Char)}
    (h : List.Forall₂ SpellsMember members ts) :
    Json.membersDepth members ≤ (List.intercalate [','] ts).length := by
  induction h with
  | nil => exact Nat.zero_le _
  | @cons m t members ts hm _ ih =>
    have hcomma := length_intercalate_le ts
    obtain ⟨k, v⟩ := m
    obtain ⟨u, rfl, hu⟩ := hm.exists_value
    have hdeep : v.depth ≤ u.length := hu.deep
    rw [Json.membersDepth, intercalate_cons, List.length_append, List.length_append,
      List.length_cons]
    omega

theorem plain_enclosed {before after : Char} {text : List Char} (hbefore : 0x20 ≤ before.toNat)
    (hafter : 0x20 ≤ after.toNat) (h : ∀ c ∈ text, 0x20 ≤ c.toNat) :
    ∀ c ∈ before :: text ++ [after], 0x20 ≤ c.toNat := by
  intro c hc
  rw [List.cons_append, List.mem_cons, List.mem_append, List.mem_singleton] at hc
  rcases hc with rfl | hc | rfl
  · exact hbefore
  · exact h c hc
  · exact hafter

theorem spells_array {items : List Json} {ts : List (List Char)}
    (h : List.Forall₂ Spells items ts) :
    Spells (.arr items) ('[' :: List.intercalate [','] ts ++ [']']) where
  admissible := .arr fun v hv => by
    obtain ⟨t, -, ht⟩ := exists_right h hv
    exact ht.admissible
  plain := plain_enclosed (by decide) (by decide) fun c hc => plain_intercalate (fun t ht c hc => by
    obtain ⟨v, -, hv⟩ := exists_left h ht
    exact hv.plain c hc) hc
  opens := ⟨'[', _, rfl, by decide, by decide, by decide⟩
  deep := by
    have := itemsDepth_le h
    rw [Json.depth, List.cons_append, List.length_cons]
    simp only [List.length_append]
    omega
  reads := by
    intro n hn
    rw [Json.depth] at hn
    obtain ⟨m, rfl⟩ : ∃ m, n = m + 1 := ⟨n - 1, by omega⟩
    rw [Json.value, Json.values_eq]
    refine reads_array ?_ fun t ht => ?_
    · rw [List.forall₂_map_right_iff]
      exact flip_of_mem h fun v hv t ht =>
        ht.reads m (Nat.le_trans (Json.depth_le_itemsDepth hv) (by omega))
    · obtain ⟨v, -, hv⟩ := exists_left h ht
      exact hv.opens

theorem spells_object {members : List (String × Json)} {ts : List (List Char)}
    (hkeys : (members.map Prod.fst).Nodup) (h : List.Forall₂ SpellsMember members ts) :
    Spells (.obj members) ('{' :: List.intercalate [','] ts ++ ['}']) where
  admissible := .obj hkeys fun m hm => by
    obtain ⟨t, -, ht⟩ := exists_right h hm
    obtain ⟨u, -, hu⟩ := ht.exists_value
    exact hu.admissible
  plain := plain_enclosed (by decide) (by decide) fun c hc => plain_intercalate (fun t ht c hc => by
    obtain ⟨m, -, hm⟩ := exists_left h ht
    exact hm.plain hc) hc
  opens := ⟨'{', _, rfl, by decide, by decide, by decide⟩
  deep := by
    have := membersDepth_le h
    rw [Json.depth, List.cons_append, List.length_cons]
    simp only [List.length_append]
    omega
  reads := by
    intro n hn
    rw [Json.depth] at hn
    obtain ⟨d, rfl⟩ : ∃ d, n = d + 1 := ⟨n - 1, by omega⟩
    rw [Json.value, Json.memberValues_eq]
    refine reads_object ?_ fun t ht => ?_
    · rw [List.forall₂_map_right_iff]
      exact flip_of_mem h fun m hm t ht =>
        ht.reads (Nat.le_trans (Json.depth_le_membersDepth hm) (by omega))
    · obtain ⟨m, -, hm⟩ := exists_left h ht
      exact hm.opens

theorem forall₂_of_mem {α β : Type} {R S : α → β → Prop} {as : List α} {bs : List β}
    (h : List.Forall₂ R as bs) (himp : ∀ a ∈ as, ∀ b, R a b → S a b) : List.Forall₂ S as bs :=
  (flip_of_mem (S := flip S) h himp).flip

/-- **Every text of the writer spells its tree.** -/
theorem spells_of_writeValue (v : Json) : ∀ {loc : String} {text : List Char},
    writeValue loc v = .ok text → Spells v text := by
  induction v using Json.ind with
  | null =>
    intro loc text h
    cases h
    exact spells_scalar .null rfl (plain_of_all rfl) ⟨'n', _, rfl, by decide⟩ fun _ => reads_null
  | bool b =>
    intro loc text h
    cases b with
    | true =>
      cases h
      exact spells_scalar (.bool _) rfl (plain_of_all rfl) ⟨'t', _, rfl, by decide⟩ fun _ =>
        reads_bool true
    | false =>
      cases h
      exact spells_scalar (.bool _) rfl (plain_of_all rfl) ⟨'f', _, rfl, by decide⟩ fun _ =>
        reads_bool false
  | int i =>
    intro loc text h
    cases h
    exact spells_number (.int i) rfl rfl (numberText_int i)
  | uint u =>
    intro loc text h
    cases h
    rw [show (toString u.toNat).toList = Nat.toDigits 10 u.toNat from Nat.toList_repr]
    have htext := numberText_natural u.toNat_lt
    rw [UInt64.ofNat_toNat] at htext
    exact spells_number (.uint u) rfl rfl htext
  | double d =>
    intro loc text h
    obtain ⟨hdomain, whole, fraction, hd⟩ := writeDouble_eq_ok h
    obtain ⟨htext, hwhole, hne, hhead, hfraction, hne', hreads⟩ := hd
    subst htext
    exact spells_number (.double hdomain) rfl rfl
      (numberText_decimal hwhole hne hhead hfraction hne' hreads)
  | str s =>
    intro loc text h
    cases h
    exact spells_scalar (.str s) rfl (fun c hc => writeString_plain hc)
      ⟨'"', _, rfl, by decide⟩ fun _ => reads_string (parseString_writeString s)
  | arr items ih =>
    intro loc text h
    obtain ⟨t, ht, h⟩ := bind_eq_ok.1 h
    cases h
    obtain ⟨ts, hts, rfl⟩ := writeItems_eq_ok ht
    refine spells_array (forall₂_of_mem hts fun v hv t ht => ?_)
    obtain ⟨loc, hloc⟩ := ht
    exact ih v hv hloc
  | obj members ih =>
    intro loc text h
    obtain ⟨t, ht, h⟩ := bind_eq_ok.1 h
    cases h
    obtain ⟨hkeys, -, ts, hts, rfl⟩ := writeMembers_eq_ok ht
    refine spells_object hkeys (forall₂_of_mem hts fun m hm t ht => ?_)
    obtain ⟨loc, u, hu, rfl⟩ := ht
    exact ⟨u, rfl, ih m hm hu⟩

theorem toCanonicalString_eq_ok {v : Json} {text : String} (h : toCanonicalString v = .ok text) :
    Spells v text.toList := by
  rw [toCanonicalString] at h
  cases hv : writeValue "$" v with
  | error e =>
    rw [hv] at h
    cases h
  | ok t =>
    rw [hv] at h
    cases h
    rw [String.toList_ofList]
    exact spells_of_writeValue v hv

/-- The tree can be read off its text. -/
theorem parse_of_toCanonicalString {v : Json} {text : String} (h : toCanonicalString v = .ok text) :
    parse text = some v.value := by
  have hspells := toCanonicalString_eq_ok h
  have hdeep := hspells.deep
  rw [String.length_toList] at hdeep
  exact parse_eq_some (hspells.reads _ (by omega))

/-- **The canonical form is faithful.**  A text is written only of an admissible tree, holds no
character below U+0020, and the grammar reads the tree's value off it; so trees with one text have
one value. -/
theorem toCanonicalString_faithful {v : Json} {text : String}
    (h : toCanonicalString v = .ok text) :
    v.Admissible ∧ (∀ c ∈ text.toList, 0x20 ≤ c.toNat) ∧ parse text = some v.value ∧
      ∀ w, toCanonicalString w = .ok text → w.value = v.value := by
  have hspells := toCanonicalString_eq_ok h
  have hparse := parse_of_toCanonicalString h
  refine ⟨hspells.admissible, hspells.plain, hparse, fun w hw => ?_⟩
  have hparse' := parse_of_toCanonicalString hw
  rw [hparse] at hparse'
  exact (Option.some.inj hparse').symm

theorem toCanonicalString_faithful_document :
    (Json.obj [("b", .int (-3)), ("a", .arr [.str "x\n", .null])]).Admissible ∧
      (∀ c ∈ "\x7b\"b\":-3,\"a\":[\"x\\n\",null]\x7d".toList, 0x20 ≤ c.toNat) ∧
      parse "\x7b\"b\":-3,\"a\":[\"x\\n\",null]\x7d" =
        some (.object [("b", .number (.negInt (-3))), ("a", .array [.string "x\n", .null])]) ∧
      ∀ w, toCanonicalString w = .ok "\x7b\"b\":-3,\"a\":[\"x\\n\",null]\x7d" →
        w.value = .object [("b", .number (.negInt (-3))), ("a", .array [.string "x\n", .null])] :=
  toCanonicalString_faithful (v := .obj [("b", .int (-3)), ("a", .arr [.str "x\n", .null])]) rfl

/-- An array in an array, and so on. -/
def nested : Nat → Json
  | 0 => .null
  | n + 1 => .arr [nested n]

theorem depth_nested (n : Nat) : (nested n).depth = n + 1 := by
  induction n with
  | zero => rfl
  | succ n ih => rw [nested, Json.depth, Json.itemsDepth, ih, Json.itemsDepth]; omega

theorem writeValue_nested (n : Nat) : ∀ loc, ∃ text, writeValue loc (nested n) = .ok text := by
  induction n with
  | zero => exact fun loc => ⟨_, rfl⟩
  | succ n ih =>
    intro loc
    obtain ⟨text, htext⟩ := ih (loc ++ "[" ++ toString 0 ++ "]")
    refine ⟨'[' :: ([] ++ text ++ []) ++ [']'], ?_⟩
    rw [nested, writeValue, writeItems, htext]
    rfl

/-- There is no bound on the depth of a document, and the characters from U+007F to U+009F are
written as they are. -/
theorem toCanonicalString_deep_and_raw :
    (¬∃ limit, ∀ v text, toCanonicalString v = .ok text → v.depth ≤ limit) ∧
      toCanonicalString (.str "\x7F") = .ok "\"\x7F\"" := by
  refine ⟨?_, rfl⟩
  rintro ⟨limit, h⟩
  obtain ⟨text, htext⟩ := writeValue_nested limit "$"
  have hdeep := h (nested limit) (String.ofList text) (by rw [toCanonicalString, htext]; rfl)
  rw [depth_nested] at hdeep
  omega

end SpatialIde.Renderer
