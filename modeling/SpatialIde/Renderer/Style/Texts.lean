import SpatialIde.Renderer.Style.Alike

/-! # The texts of a style

`fromStr` is `serde_json::from_str`: it reads texts of the grammar, and of two members under one key
the last, in any order of the keys.  It promises no more than a best effort for a double, so that a
canonical form gives its style back where `fromStr` reads the doubles of the form as they are: what is
read is then exactly the form (`Exact`), of which the schema holds as it does of the form
(`RootOf.exact`).
-/

namespace SpatialIde.Renderer.Style

open Lib
open Lib.Json (Denotes Distinct Exact SameDoubles Whole lastOf denotes_lastOf sameDoubles_lastOf)

/-! ### Equal documents -/

variable {T : Type}

structure CategoricalMatch.Same (r : T → T → Prop) (m m' : CategoricalMatch T) : Prop where
  column : m.column = m'.column
  cases : List.Forall₂ (fun c c' => c.1 = c'.1 ∧ r c.2 c'.2) m.cases m'.cases
  onNull : r m.onNull m'.onNull
  onUnmatched : r m.onUnmatched m'.onUnmatched

inductive Value.Same (r : T → T → Prop) : Value T → Value T → Prop
  | literal {t t' : T} (h : r t t') : Same r (.literal t) (.literal t')
  | matching {m m' : CategoricalMatch T} (h : m.Same r m') : Same r (.matching m) (.matching m')

/-- The documents are `==`: their doubles are. -/
structure StyleDocument.Same (d d' : StyleDocument) : Prop where
  fillColor : d.fillColor = d'.fillColor
  fillOpacity : d.fillOpacity.Same (fun x y => x.eq y = true) d'.fillOpacity
  outlineColor : d.outlineColor = d'.outlineColor
  outlineWidth : d.outlineWidth.Same (fun x y => x.eq y = true) d'.outlineWidth

theorem same_map {L : Json.Value → T → Prop} {r : T → T → Prop} {g : T → T}
    (hleaf : ∀ u t, L u t → r t (g t)) {v : Json.Value} {x : Value T} (h : ValueOf L v x) :
    x.Same r (x.map g) := by
  cases h with
  | @literal _ u t _ _ _ ht => exact .literal (hleaf u t ht)
  | @matching _ u m _ _ _ hm =>
    obtain ⟨_, _, _, _, -, -, -, -, -, -, hv₁, -, hv₂⟩ := hm.members
    refine .matching ⟨rfl, ?_, hleaf _ _ hv₁, hleaf _ _ hv₂⟩
    show List.Forall₂ _ m.cases (m.cases.map _)
    rw [List.forall₂_map_right_iff, List.forall₂_same]
    intro c hc
    obtain ⟨u, hu⟩ := exists_leaf hm c hc
    exact ⟨rfl, hleaf u c.2 hu⟩

theorem same_oneZero {root : Json.Value} {d : StyleDocument} (h : RootOf root d) :
    d.Same d.oneZero := by
  obtain ⟨_, _, layer, -, -, -, -, -, hlayer⟩ := h
  obtain ⟨_, -, hfo⟩ := hlayer.fillOpacity
  obtain ⟨_, -, how⟩ := hlayer.outlineWidth
  exact ⟨rfl, same_map (fun _ _ hx => hx.eq_positiveZero) hfo, rfl,
    same_map (fun _ _ hx => hx.eq_positiveZero) how⟩

/-! ### Exact readings -/

/-- What holds of a value holds of what is read of it. -/
def Carries (L : Json.Value → T → Prop) : Prop :=
  ∀ ⦃v w t⦄, L v t → Exact v w → L w t

theorem carries_colorOf : Carries ColorOf := by
  rintro v w c ⟨s, rfl, hc⟩ h
  exact ⟨s, h.string, hc⟩

theorem carries_numberOf (min max : F64) : Carries (NumberOf min max) := by
  rintro v w x ⟨hx, hrange⟩ h
  cases v with
  | number n =>
    obtain rfl := h.number
    exact ⟨hx, hrange⟩
  | _ => cases hx

theorem Known.exact {map map' : ObjMap} {allowed : List String} (hknown : Known map allowed)
    (h : Exact.Members map map') : Known map' allowed := by
  intro m hm
  have hsome : (map.lookup m.1).isSome = true := by
    rw [← h.keys, List.lookup_isSome_iff]
    exact ⟨m, hm, beq_self_eq_true m.1⟩
  obtain ⟨v, hv⟩ := Option.isSome_iff_exists.1 hsome
  exact hknown (m.1, v) (Json.Value.mem_of_lookup hv)

theorem lookup_none_of_exact {map map' : ObjMap} {key : String} (h : Exact.Members map map')
    (hnone : map.lookup key = none) : map'.lookup key = none := by
  rw [← Option.isNone_iff_eq_none, ← Option.isSome_eq_false_iff, h.keys, hnone]
  rfl

theorem lookup_string_of_exact {map map' : ObjMap} {key s : String} (h : Exact.Members map map')
    (hs : map.lookup key = some (.string s)) : map'.lookup key = some (.string s) := by
  obtain ⟨w, hw, hexact⟩ := h.under hs
  rw [hw, hexact.string]

variable {L : Json.Value → T → Prop}

theorem carries_caseOf (hL : Carries L) : Carries (CaseOf L) := by
  rintro v w c ⟨map, u, rfl, hknown, hwhen, hthen, hu⟩ h
  obtain ⟨map', rfl, hmap⟩ := h.object
  obtain ⟨u', hthen', hu'⟩ := hmap.under hthen
  exact ⟨map', u', rfl, hknown.exact hmap, lookup_string_of_exact hmap hwhen, hthen', hL hu hu'⟩

theorem forall₂_of_exact {S : Type} {R : Json.Value → S → Prop} (hR : Carries R)
    {items items' : List Json.Value} {ts : List S} (h : List.Forall₂ R items ts)
    (hitems : List.Forall₂ Exact items items') : List.Forall₂ R items' ts := by
  induction hitems generalizing ts with
  | nil => exact h
  | cons hexact _ ih =>
    cases h with
    | cons ht hts => exact .cons (hR ht hexact) (ih hts)

theorem carries_matchOf (hL : Carries L) : Carries (MatchOf L) := by
  rintro v w m ⟨⟨map, items, v₁, v₂, rfl, hknown, hcolumn, hcases, hitems, hv₁, ht₁, hv₂, ht₂⟩,
    hrest₁, hrest₂, hrest₃, hrest₄⟩ h
  obtain ⟨map', rfl, hmap⟩ := h.object
  obtain ⟨u, hcases', hu⟩ := hmap.under hcases
  obtain ⟨items', rfl, hitems'⟩ := hu.array
  obtain ⟨w₁, hw₁, h₁⟩ := hmap.under hv₁
  obtain ⟨w₂, hw₂, h₂⟩ := hmap.under hv₂
  exact ⟨⟨map', items', w₁, w₂, rfl, hknown.exact hmap, lookup_string_of_exact hmap hcolumn, hcases',
    forall₂_of_exact (carries_caseOf hL) hitems hitems', hw₁, hL ht₁ h₁, hw₂, hL ht₂ h₂⟩, hrest₁,
    hrest₂, hrest₃, hrest₄⟩

theorem carries_valueOf (hL : Carries L) : Carries (ValueOf L) := by
  intro v w x hx h
  cases hx with
  | literal hknown hliteral hmatch ht =>
    obtain ⟨map', rfl, hmap⟩ := h.object
    obtain ⟨u', hliteral', hu'⟩ := hmap.under hliteral
    exact .literal (hknown.exact hmap) hliteral' (lookup_none_of_exact hmap hmatch) (hL ht hu')
  | matching hknown hliteral hmatch hm =>
    obtain ⟨map', rfl, hmap⟩ := h.object
    obtain ⟨u', hmatch', hu'⟩ := hmap.under hmatch
    exact .matching (hknown.exact hmap) (lookup_none_of_exact hmap hliteral) hmatch'
      (carries_matchOf hL hm hu')

theorem valueUnder_of_exact (hL : Carries L) {layer layer' : ObjMap} {key : String} {x : Value T}
    (hmap : Exact.Members layer layer') (hx : ∃ v, layer.lookup key = some v ∧ ValueOf L v x) :
    ∃ v, layer'.lookup key = some v ∧ ValueOf L v x := by
  obtain ⟨v, hv, hvalue⟩ := hx
  obtain ⟨v', hv', hexact⟩ := hmap.under hv
  exact ⟨v', hv', carries_valueOf hL hvalue hexact⟩

theorem LayerOf.exact {layer layer' : ObjMap} {d : StyleDocument} (hlayer : LayerOf layer d)
    (h : Exact.Members layer layer') : LayerOf layer' d where
  known := hlayer.known.exact h
  geometry := lookup_string_of_exact h hlayer.geometry
  fillColor := valueUnder_of_exact carries_colorOf h hlayer.fillColor
  fillOpacity := valueUnder_of_exact (carries_numberOf _ _) h hlayer.fillOpacity
  outlineColor := valueUnder_of_exact carries_colorOf h hlayer.outlineColor
  outlineWidth := valueUnder_of_exact (carries_numberOf _ _) h hlayer.outlineWidth
  oneMatch := hlayer.oneMatch

/-- **An exact reading of a document is that document.** -/
theorem RootOf.exact {v w : Json.Value} {d : StyleDocument} (hroot : RootOf v d)
    (h : Exact v w) : RootOf w d := by
  obtain ⟨map, version, layer, rfl, hknown, hversion, hone, hlayer, hd⟩ := hroot
  obtain ⟨map', rfl, hmap⟩ := h.object
  obtain ⟨version', hversion', hnumber⟩ := hmap.under hversion
  obtain ⟨u, hlayer', hu⟩ := hmap.under hlayer
  obtain ⟨layer', rfl, hmembers⟩ := hu.object
  refine ⟨map', version', layer', rfl, hknown.exact hmap, hversion', ?_, hlayer', hd.exact hmembers⟩
  cases version with
  | number n => rw [hnumber.number, hone]
  | _ => cases hone

/-- What the writer spells has no key twice. -/
theorem distinct_value {j : Renderer.Json} (h : j.Admissible) : Distinct j.value := by
  induction h with
  | null => exact .null
  | bool b => exact .bool b
  | int i =>
    rw [Json.value]
    split_ifs <;> exact .number _
  | uint u => exact .number _
  | double => exact .number _
  | str s => exact .string s
  | arr _ ih =>
    rw [Json.value, Json.values_eq]
    refine .array fun v hv => ?_
    obtain ⟨w, hw, rfl⟩ := List.mem_map.1 hv
    exact ih w hw
  | obj hkeys _ ih =>
    rw [Json.value, Json.memberValues_eq]
    refine .object ?_ fun m hm => ?_
    · rw [List.map_map]
      exact hkeys
    · obtain ⟨m', hm', rfl⟩ := List.mem_map.1 hm
      exact ih m' hm'

/-! ### Reading texts -/

/-- What `serde_json` reads. -/
def ReadsGrammar (fromStr : String → Except String Json.Value) : Prop :=
  ∀ {text w}, fromStr text = .ok w → ∃ v, Lib.Json.parse text = some v ∧ Denotes v w

variable {fromStr : String → Except String Json.Value}

theorem parse_eq_ok {text : String} {d : StyleDocument} :
    parse fromStr text = .ok d ↔ ∃ w, fromStr text = .ok w ∧ RootOf w d := by
  rw [parse, bind_eq_ok]
  simp only [parseRoot_eq_ok]
  cases fromStr text <;> simp [Except.mapError]

/-- The doubles of a text are read as they are written. -/
def ReadsDoubles (fromStr : String → Except String Json.Value) (text : String) : Prop :=
  ∀ v w, Lib.Json.parse text = some v → fromStr text = .ok w → SameDoubles v w

/-- A canonical form whose doubles are read as they are is read exactly. -/
theorem exact_of_canonical (hreads : ReadsGrammar fromStr) {d : StyleDocument} {c : String}
    {w : Json.Value} (hc : d.canonical = .ok c) (hdoubles : ReadsDoubles fromStr c)
    (hw : fromStr c = .ok w) : Exact d.toCanonicalJson.value w := by
  obtain ⟨hadmissible, -, hparse, -⟩ := toCanonicalString_faithful (canonical_eq_ok.1 hc)
  obtain ⟨v, hv, hdenotes⟩ := hreads hw
  rw [hparse] at hv
  cases hv
  exact ⟨hdenotes.whole (distinct_value hadmissible), hdoubles _ _ hparse hw⟩

/-- **The canonical form of a style is faithful.**  Where it is read, and its doubles as they are, it
gives an equal style back, whose canonical form it is.  Texts that repeat no key have one canonical
form only where what is read of them, which is all of both, is alike. -/
theorem canonical_faithful (hreads : ReadsGrammar fromStr) :
    (∀ text d c w, parse fromStr text = .ok d → d.canonical = .ok c → fromStr c = .ok w →
      ReadsDoubles fromStr c →
      ∃ d', parse fromStr c = .ok d' ∧ d.Same d' ∧ d'.canonical = .ok c) ∧
    (∀ text text' d d' c, parse fromStr text = .ok d → parse fromStr text' = .ok d' →
      d.canonical = .ok c → d'.canonical = .ok c →
      ∃ v v' w w', Lib.Json.parse text = some v ∧ fromStr text = .ok w ∧
        Lib.Json.parse text' = some v' ∧ fromStr text' = .ok w' ∧
        (Distinct v → Distinct v' → Whole v w ∧ Alike [] w w' ∧ Whole v' w')) := by
  refine ⟨fun text d c w hd hc hw hdoubles => ?_, fun text text' d d' c hd hd' hc hc' => ?_⟩
  · obtain ⟨_, -, hroot⟩ := parse_eq_ok.1 hd
    have hexact := exact_of_canonical hreads hc hdoubles hw
    have hback := (rootOf_canonical hroot).exact hexact
    refine ⟨d.oneZero, parse_eq_ok.2 ⟨w, hw, hback⟩, same_oneZero hroot, ?_⟩
    rw [canonical_oneZero, hc]
  · obtain ⟨w, hw, hroot⟩ := parse_eq_ok.1 hd
    obtain ⟨w', hw', hroot'⟩ := parse_eq_ok.1 hd'
    obtain ⟨v, hv, hdenotes⟩ := hreads hw
    obtain ⟨v', hv', hdenotes'⟩ := hreads hw'
    refine ⟨v, v', w, w', hv, hw, hv', hw', fun hdistinct hdistinct' => ?_⟩
    exact ⟨hdenotes.whole hdistinct, alike_root hroot hroot' (oneZero_of_canonical hroot hroot' hc
      hc'), hdenotes'.whole hdistinct'⟩

/-! ### Texts -/

/-- The grammar as `serde_json`, with its members in the order of their keys and its doubles rounded to
the nearest. -/
def readLast (text : String) : Except String Json.Value :=
  match Lib.Json.parse text with
  | some v => .ok (lastOf v)
  | none => .error ""

theorem readsGrammar_readLast : ReadsGrammar readLast := by
  intro text w h
  rw [readLast] at h
  split at h
  · next v hv =>
    cases h
    exact ⟨v, hv, denotes_lastOf v⟩
  · cases h

theorem readsDoubles_readLast {text : String} (h : ∀ v, Lib.Json.parse text = some v → Distinct v) :
    ReadsDoubles readLast text := by
  intro v w hv hw
  rw [readLast, hv] at hw
  cases hw
  exact sameDoubles_lastOf (h v hv)

/-- A document of literals, with `before` in front of its fill colour. -/
def styleText (before color opacity width : String) : String :=
  "\x7b\"style_version\":1,\"layer\":\x7b\"geometry\":\"polygon\"," ++ before ++
    "\"fill_color\":\x7b\"literal\":\"" ++ color ++ "\"\x7d,\"fill_opacity\":\x7b\"literal\":" ++
    opacity ++ "\x7d,\"outline_color\":\x7b\"literal\":\"#000000\"\x7d,\"outline_width\":" ++
    "\x7b\"literal\":" ++ width ++ "\x7d\x7d\x7d"

/-- The document of `styleText`. -/
def styleOf (opacity : F64) : StyleDocument where
  fillColor := .literal ⟨10, 10, 10⟩
  fillOpacity := .literal opacity
  outlineColor := .literal ⟨0, 0, 0⟩
  outlineWidth := .literal MAX_OPACITY

/-- Two spellings of one document: the first gives itself back, and the second is alike. -/
theorem canonical_faithful_styleText :
    (∃ d', parse readLast (styleText "" "#0a0a0a" "0.5" "1.0") = .ok d' ∧
      (styleOf ⟨0x3FE0000000000000⟩).Same d' ∧
      d'.canonical = .ok (styleText "" "#0a0a0a" "0.5" "1.0")) ∧
    ∃ v v' w w', Lib.Json.parse (styleText "" "#0A0a0A" "5e-1" "1") = some v ∧
      readLast (styleText "" "#0A0a0A" "5e-1" "1") = .ok w ∧
      Lib.Json.parse (styleText "" "#0a0a0a" "0.5" "1.0") = some v' ∧
      readLast (styleText "" "#0a0a0a" "0.5" "1.0") = .ok w' ∧
      (Distinct v → Distinct v' → Whole v w ∧ Alike [] w w' ∧ Whole v' w') := by
  have hparse : parse readLast (styleText "" "#0A0a0A" "5e-1" "1") =
      .ok (styleOf ⟨0x3FE0000000000000⟩) := by decide +kernel
  have hparse' : parse readLast (styleText "" "#0a0a0a" "0.5" "1.0") =
      .ok (styleOf ⟨0x3FE0000000000000⟩) := by decide +kernel
  have hcanonical : (styleOf ⟨0x3FE0000000000000⟩).canonical =
      .ok (styleText "" "#0a0a0a" "0.5" "1.0") := by decide +kernel
  obtain ⟨hback, halike⟩ := canonical_faithful readsGrammar_readLast
  obtain ⟨w, hw, -⟩ := parse_eq_ok.1 hparse'
  have hdistinct : ∀ v, Lib.Json.parse (styleText "" "#0a0a0a" "0.5" "1.0") = some v → Distinct v := by
    intro v hv
    obtain ⟨hadmissible, -, hspelled, -⟩ :=
      toCanonicalString_faithful (canonical_eq_ok.1 hcanonical)
    cases hspelled.symm.trans hv
    exact distinct_value hadmissible
  exact ⟨hback _ _ _ w hparse hcanonical hw (readsDoubles_readLast hdistinct),
    halike _ _ _ _ _ hparse hparse' hcanonical hcanonical⟩

/-- A style with an opacity that has no canonical spelling has no canonical form, and a member that
is repeated leaves no trace in the canonical form. -/
theorem styleText_unfaithful :
    (∃ d, parse readLast (styleText "" "#0a0a0a" "1e-7" "1.0") = .ok d ∧ d.canonical =
      .error (.canonical (.outOfDomain "$.layer.fill_opacity.literal" ⟨0x3E7AD7F29ABCAF48⟩))) ∧
    ∃ d c, parse readLast (styleText "" "#0a0a0a" "0.5" "1.0") = .ok d ∧
      parse readLast (styleText "\"fill_color\":\x7b\"literal\":\"#ffffff\"\x7d," "#0a0a0a" "0.5"
        "1.0") = .ok d ∧ d.canonical = .ok c :=
  ⟨⟨styleOf ⟨0x3E7AD7F29ABCAF48⟩, by decide +kernel, by decide +kernel⟩,
    styleOf ⟨0x3FE0000000000000⟩, styleText "" "#0a0a0a" "0.5" "1.0", by decide +kernel,
    by decide +kernel, by decide +kernel⟩

end SpatialIde.Renderer.Style
