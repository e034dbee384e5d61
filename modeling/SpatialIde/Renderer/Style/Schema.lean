import SpatialIde.Renderer.Style

/-! # The schema of a style document

What `parse` accepts as a document, stated of the value that `serde_json` reads: an object whose
members are those of the schema, each of them there.  `parseRoot` reads exactly that
(`parseRoot_eq_ok`).
-/

namespace SpatialIde.Renderer.Style

open Lib
open Lib.Json.Value (asF64)

variable {T : Type} {loc : String}

/-! ### Leaves -/

def ColorOf (v : Json.Value) (c : Rgb) : Prop := ∃ s, v = .string s ∧ Rgb.parse s = some c

def NumberOf (min max : F64) (v : Json.Value) (x : F64) : Prop :=
  asF64 v = some x ∧ x.isFinite = true ∧ x.lt min = false ∧ max.lt x = false

/-- What a leaf accepts, wherever it stands. -/
def Reads (leaf : Json.Value → String → Except StyleError T) (L : Json.Value → T → Prop) :
    Prop :=
  ∀ v loc t, leaf v loc = .ok t ↔ L v t

theorem reads_parseColor : Reads parseColor ColorOf := by
  intro v loc c
  rw [parseColor, bind_eq_ok]
  simp only [okOr_eq_ok]
  constructor
  · rintro ⟨s, hs, hc⟩
    cases v <;> cases hs
    exact ⟨s, rfl, hc⟩
  · rintro ⟨s, rfl, hc⟩
    exact ⟨s, rfl, hc⟩

theorem reads_number (min max : F64) : Reads (number min max) (NumberOf min max) := by
  intro v loc x
  rw [number, bind_eq_ok]
  simp only [okOr_eq_ok]
  constructor
  · rintro ⟨y, hy, h⟩
    split_ifs at h with hrange
    cases h
    simp only [Bool.or_eq_true, Bool.not_eq_true', not_or, Bool.not_eq_true, Bool.not_eq_false]
      at hrange
    exact ⟨hy, hrange.1.1, hrange.1.2, hrange.2⟩
  · rintro ⟨hx, hfinite, hmin, hmax⟩
    exact ⟨x, hx, if_neg (by simp [hfinite, hmin, hmax])⟩

/-! ### Objects -/

def Known (map : ObjMap) (allowed : List String) : Prop := ∀ m ∈ map, m.1 ∈ allowed

theorem obj_eq_ok {v : Json.Value} {map : ObjMap} : obj v loc = .ok map ↔ v = .object map := by
  rw [obj, okOr_eq_ok]
  cases v <;> simp [Json.Value.asObject]

theorem knownKeys_eq_ok {map : ObjMap} {allowed : List String} :
    knownKeys map loc allowed = .ok () ↔ Known map allowed := by
  rw [knownKeys]
  cases h : map.find? fun m => m.1 ∉ allowed with
  | none =>
    refine ⟨fun _ m hm => ?_, fun _ => rfl⟩
    simpa using List.find?_eq_none.1 h m hm
  | some m =>
    refine ⟨fun hok => (by cases hok), fun hknown => ?_⟩
    have hm := List.find?_some h
    simp only [decide_eq_true_eq] at hm
    exact absurd (hknown m (List.mem_of_find?_eq_some h)) hm

theorem required_eq_ok {map : ObjMap} {key : String} {v : Json.Value} :
    required map loc key = .ok v ↔ map.lookup key = some v := okOr_eq_ok

theorem asStr_eq_some {v : Json.Value} {s : String} : v.asStr = some s ↔ v = .string s := by
  cases v <;> simp [Json.Value.asStr]

theorem asArray_eq_some {v : Json.Value} {items : List Json.Value} :
    v.asArray = some items ↔ v = .array items := by
  cases v <;> simp [Json.Value.asArray]

/-! ### Properties -/

section

variable (L : Json.Value → T → Prop)

def CaseOf (v : Json.Value) (c : String × T) : Prop :=
  ∃ map u, v = .object map ∧ Known map ["when", "then"] ∧
    map.lookup "when" = some (.string c.1) ∧ map.lookup "then" = some u ∧ L u c.2

structure MatchOf (v : Json.Value) (m : CategoricalMatch T) : Prop where
  members : ∃ map items onNull onUnmatched, v = .object map ∧
    Known map ["column", "cases", "on_null", "on_unmatched"] ∧
    map.lookup "column" = some (.string m.column) ∧
    map.lookup "cases" = some (.array items) ∧ List.Forall₂ (CaseOf L) items m.cases ∧
    map.lookup "on_null" = some onNull ∧ L onNull m.onNull ∧
    map.lookup "on_unmatched" = some onUnmatched ∧ L onUnmatched m.onUnmatched
  column : m.column ≠ ""
  nonempty : m.cases ≠ []
  atMost : m.cases.length ≤ MAX_MATCH_CASES
  distinct : (m.cases.map Prod.fst).Nodup

inductive ValueOf : Json.Value → Value T → Prop
  | literal {map : ObjMap} {u : Json.Value} {t : T} (hknown : Known map ["literal", "match"])
      (hliteral : map.lookup "literal" = some u) (hmatch : map.lookup "match" = none)
      (ht : L u t) : ValueOf (.object map) (.literal t)
  | matching {map : ObjMap} {u : Json.Value} {m : CategoricalMatch T}
      (hknown : Known map ["literal", "match"]) (hliteral : map.lookup "literal" = none)
      (hmatch : map.lookup "match" = some u) (hm : MatchOf L u m) : ValueOf (.object map) (.matching m)

end

variable {leaf : Json.Value → String → Except StyleError T} {L : Json.Value → T → Prop}

theorem parseCases_eq_ok (hleaf : Reads leaf L) {items : List Json.Value} {i : Nat}
    {seen : List String} {cs : List (String × T)} :
    parseCases loc leaf i seen items = .ok cs ↔ List.Forall₂ (CaseOf L) items cs ∧
      (cs.map Prod.fst).Nodup ∧ ∀ c ∈ cs, c.1 ∉ seen := by
  induction items generalizing i seen cs with
  | nil =>
    rw [parseCases, List.forall₂_nil_left_iff, Except.ok.injEq]
    constructor
    · rintro rfl
      exact ⟨rfl, List.nodup_nil, fun c hc => (by cases hc)⟩
    · rintro ⟨rfl, -⟩
      rfl
  | cons c rest ih =>
    rw [parseCases]
    simp only [bind_eq_ok, obj_eq_ok, required_eq_ok, okOr_eq_ok, asStr_eq_some]
    constructor
    · rintro ⟨map, rfl, _, hknown, _, hwhen, value, rfl, h⟩
      split_ifs at h with hseen
      obtain ⟨u, hu, h⟩ := bind_eq_ok.1 h
      obtain ⟨t, ht, h⟩ := bind_eq_ok.1 h
      obtain ⟨cs', hcs', h⟩ := bind_eq_ok.1 h
      cases h
      obtain ⟨hforall, hnodup, hfresh⟩ := ih.1 hcs'
      refine ⟨.cons ⟨map, u, rfl, knownKeys_eq_ok.1 hknown, hwhen, required_eq_ok.1 hu, (hleaf _ _ _).1 ht⟩
        hforall, ?_, ?_⟩
      · rw [List.map_cons, List.nodup_cons]
        refine ⟨fun hmem => ?_, hnodup⟩
        obtain ⟨c', hc', heq⟩ := List.mem_map.1 hmem
        exact hfresh c' hc' (heq ▸ List.mem_cons_self)
      · intro c' hc'
        rcases List.mem_cons.1 hc' with rfl | hc'
        · exact hseen
        · exact fun hmem => hfresh c' hc' (List.mem_cons_of_mem _ hmem)
    · rintro ⟨hforall, hnodup, hfresh⟩
      cases hforall with
      | @cons _ c' _ cs' hc hforall =>
        obtain ⟨map, u, rfl, hknown, hwhen, hu, ht⟩ := hc
        rw [List.map_cons, List.nodup_cons] at hnodup
        refine ⟨map, rfl, _, knownKeys_eq_ok.2 hknown, _, hwhen, c'.1, rfl, ?_⟩
        rw [if_neg (hfresh c' List.mem_cons_self)]
        refine bind_eq_ok.2 ⟨u, required_eq_ok.2 hu, bind_eq_ok.2 ⟨c'.2, (hleaf _ _ _).2 ht, ?_⟩⟩
        refine bind_eq_ok.2 ⟨cs', ih.2 ⟨hforall, hnodup.2, fun d hd hmem => ?_⟩, rfl⟩
        rcases List.mem_cons.1 hmem with heq | hmem
        · exact hnodup.1 (heq ▸ List.mem_map_of_mem hd)
        · exact hfresh d (List.mem_cons_of_mem _ hd) hmem

theorem parseMatch_eq_ok (hleaf : Reads leaf L) {v : Json.Value} {m : CategoricalMatch T} :
    parseMatch v loc leaf = .ok m ↔ MatchOf L v m := by
  rw [parseMatch]
  simp only [bind_eq_ok, obj_eq_ok, required_eq_ok, okOr_eq_ok, asStr_eq_some]
  constructor
  · rintro ⟨map, rfl, _, hknown, _, hcolumn, column, rfl, h⟩
    split_ifs at h with hempty
    obtain ⟨_, hcases, h⟩ := bind_eq_ok.1 h
    obtain ⟨items, hitems, hrest⟩ := bind_eq_ok.1 h
    cases asArray_eq_some.1 (okOr_eq_ok.1 hitems)
    split_ifs at hrest with hnone hmany
    obtain ⟨cases, hparse, h⟩ := bind_eq_ok.1 hrest
    obtain ⟨v₁, hv₁, h⟩ := bind_eq_ok.1 h
    obtain ⟨onNull, honNull, h⟩ := bind_eq_ok.1 h
    obtain ⟨v₂, hv₂, h⟩ := bind_eq_ok.1 h
    obtain ⟨onUnmatched, honUnmatched, h⟩ := bind_eq_ok.1 h
    cases h
    obtain ⟨hforall, hnodup, -⟩ := (parseCases_eq_ok hleaf).1 hparse
    refine ⟨⟨map, items, v₁, v₂, rfl, knownKeys_eq_ok.1 hknown, hcolumn, required_eq_ok.1 hcases,
      hforall, required_eq_ok.1 hv₁, (hleaf _ _ _).1 honNull, required_eq_ok.1 hv₂, (hleaf _ _ _).1 honUnmatched⟩,
      hempty, ?_, ?_, hnodup⟩
    · rintro rfl
      cases hforall
      exact hnone rfl
    · rw [← hforall.length_eq]
      exact Nat.le_of_not_lt hmany
  · rintro ⟨⟨map, items, v₁, v₂, rfl, hknown, hcolumn, hcases, hforall, hv₁, honNull, hv₂,
      honUnmatched⟩, hempty, hnonempty, hmany, hnodup⟩
    refine ⟨map, rfl, _, knownKeys_eq_ok.2 hknown, _, hcolumn, m.column, rfl, ?_⟩
    rw [if_neg hempty]
    refine bind_eq_ok.2 ⟨_, required_eq_ok.2 hcases,
      bind_eq_ok.2 ⟨items, okOr_eq_ok.2 rfl, ?_⟩⟩
    have hitems : items.isEmpty = false := by
      cases items with
      | nil => exact absurd (List.forall₂_nil_left_iff.1 hforall) hnonempty
      | cons _ _ => rfl
    rw [hitems, if_neg (by decide), if_neg (by rw [hforall.length_eq]; exact Nat.not_lt.2 hmany)]
    refine bind_eq_ok.2 ⟨m.cases, (parseCases_eq_ok hleaf).2 ⟨hforall, hnodup,
      fun _ _ => List.not_mem_nil⟩, ?_⟩
    refine bind_eq_ok.2 ⟨v₁, required_eq_ok.2 hv₁, bind_eq_ok.2 ⟨_, (hleaf _ _ _).2 honNull, ?_⟩⟩
    exact bind_eq_ok.2 ⟨v₂, required_eq_ok.2 hv₂, bind_eq_ok.2 ⟨_, (hleaf _ _ _).2 honUnmatched, rfl⟩⟩

/-- Whether a property is a match. -/
def Value.isMatch : Value T → Bool
  | literal _ => false
  | matching _ => true

/-- Where a match has been found, behind a property. -/
def siteAfter (loc key : String) (site : Option String) (x : Value T) : Option String :=
  if x.isMatch then some (loc ++ "." ++ key ++ ".match") else site

/-- A property is read where it is one, and a match where there has been none; then it is the one
that has been found. -/
theorem value_eq_ok (hleaf : Reads leaf L) {layer : ObjMap} {key : String} {site site' : Option String}
    {x : Value T} : value layer loc key site leaf = .ok (x, site') ↔
      (∃ v, layer.lookup key = some v ∧ ValueOf L v x) ∧ (x.isMatch = true → site = none) ∧
        site' = siteAfter loc key site x := by
  rw [value]
  simp only [bind_eq_ok, obj_eq_ok, required_eq_ok]
  constructor
  · rintro ⟨v, hv, map, rfl, _, hknown, h⟩
    replace hknown := knownKeys_eq_ok.1 hknown
    split at h
    · cases h
    · next u hliteral hmatch =>
      obtain ⟨t, ht, h⟩ := bind_eq_ok.1 h
      cases h
      exact ⟨⟨_, hv, .literal hknown hliteral hmatch ((hleaf _ _ _).1 ht)⟩, fun h => (by cases h), rfl⟩
    · next u hliteral hmatch =>
      split at h
      · cases h
      · obtain ⟨m, hm, h⟩ := bind_eq_ok.1 h
        cases h
        exact ⟨⟨_, hv, .matching hknown hliteral hmatch ((parseMatch_eq_ok hleaf).1 hm)⟩,
          fun _ => rfl, rfl⟩
    · cases h
  · rintro ⟨⟨v, hv, hvalue⟩, hsite, rfl⟩
    cases hvalue with
    | @literal map u t hknown hliteral hmatch ht =>
      refine ⟨_, hv, map, rfl, _, knownKeys_eq_ok.2 hknown, ?_⟩
      rw [hliteral, hmatch]
      exact bind_eq_ok.2 ⟨t, (hleaf _ _ _).2 ht, rfl⟩
    | @matching map u m hknown hliteral hmatch hm =>
      refine ⟨_, hv, map, rfl, _, knownKeys_eq_ok.2 hknown, ?_⟩
      rw [hliteral, hmatch, hsite rfl]
      exact bind_eq_ok.2 ⟨m, (parseMatch_eq_ok hleaf).2 hm, rfl⟩

/-! ### Documents -/

/-- How many properties are matches. -/
def StyleDocument.matches (d : StyleDocument) : Nat :=
  [d.fillColor.isMatch, d.fillOpacity.isMatch, d.outlineColor.isMatch, d.outlineWidth.isMatch].count
    true

/-- Of four at most one, as they are found in order. -/
theorem count_le_one : ∀ a b c e : Bool, [a, b, c, e].count true ≤ 1 ↔ (b = true → a = false) ∧
    (c = true → a = false ∧ b = false) ∧ (e = true → a = false ∧ b = false ∧ c = false) := by
  decide

structure LayerOf (layer : ObjMap) (d : StyleDocument) : Prop where
  known : Known layer ["geometry", "fill_color", "fill_opacity", "outline_color", "outline_width"]
  geometry : layer.lookup "geometry" = some (.string GEOMETRY_POLYGON)
  fillColor : ∃ v, layer.lookup "fill_color" = some v ∧ ValueOf ColorOf v d.fillColor
  fillOpacity : ∃ v, layer.lookup "fill_opacity" = some v ∧
    ValueOf (NumberOf F64.zero MAX_OPACITY) v d.fillOpacity
  outlineColor : ∃ v, layer.lookup "outline_color" = some v ∧ ValueOf ColorOf v d.outlineColor
  outlineWidth : ∃ v, layer.lookup "outline_width" = some v ∧
    ValueOf (NumberOf F64.zero MAX_OUTLINE_WIDTH) v d.outlineWidth
  oneMatch : d.matches ≤ 1

theorem parseLayer_eq_ok {layer : ObjMap} {d : StyleDocument} :
    parseLayer layer = .ok d ↔ LayerOf layer d := by
  rw [parseLayer]
  simp only [bind_eq_ok, required_eq_ok, okOr_eq_ok, asStr_eq_some]
  constructor
  · rintro ⟨_, hknown, _, hgeometry, geometry, rfl, h⟩
    split_ifs at h with hpolygon
    simp only [bind_eq_ok, Prod.exists, value_eq_ok reads_parseColor,
      value_eq_ok (reads_number _ _)] at h
    obtain ⟨fc, s₁, ⟨hfc, -, hs₁⟩, fo, s₂, ⟨hfo, hn₁, hs₂⟩, oc, s₃, ⟨hoc, hn₂, hs₃⟩, ow, s₄,
      ⟨how, hn₃, -⟩, h⟩ := h
    cases h
    refine ⟨knownKeys_eq_ok.1 hknown, by rw [hgeometry, not_not.1 hpolygon], hfc, hfo, hoc, how, ?_⟩
    rw [StyleDocument.matches, count_le_one]
    rw [siteAfter] at hs₁ hs₂ hs₃
    cases hm₁ : fc.isMatch <;> cases hm₂ : fo.isMatch <;> cases hm₃ : oc.isMatch <;> simp_all
  · rintro ⟨hknown, hgeometry, hfc, hfo, hoc, how, hone⟩
    refine ⟨_, knownKeys_eq_ok.2 hknown, _, hgeometry, _, rfl, ?_⟩
    rw [if_neg (by simp)]
    simp only [bind_eq_ok, Prod.exists, value_eq_ok reads_parseColor,
      value_eq_ok (reads_number _ _)]
    have hsites := (count_le_one _ _ _ _).1 hone
    refine ⟨d.fillColor, siteAfter _ _ none _, ⟨hfc, fun _ => trivial, rfl⟩, d.fillOpacity,
      siteAfter _ _ _ _, ⟨hfo, fun h => ?_, rfl⟩, d.outlineColor, siteAfter _ _ _ _,
      ⟨hoc, fun h => ?_, rfl⟩, d.outlineWidth, siteAfter _ _ _ _, ⟨how, fun h => ?_, rfl⟩, rfl⟩
    · rw [siteAfter, hsites.1 h]
      rfl
    · rw [siteAfter, siteAfter, (hsites.2.1 h).1, (hsites.2.1 h).2]
      rfl
    · rw [siteAfter, siteAfter, siteAfter, (hsites.2.2 h).1, (hsites.2.2 h).2.1, (hsites.2.2 h).2.2]
      rfl

def RootOf (root : Json.Value) (d : StyleDocument) : Prop :=
  ∃ map version layer, root = .object map ∧ Known map ["style_version", "layer"] ∧
    map.lookup "style_version" = some version ∧ version.asI64 = some STYLE_VERSION.toInt ∧
    map.lookup "layer" = some (.object layer) ∧ LayerOf layer d

/-- **`parse` accepts the schema.** -/
theorem parseRoot_eq_ok {root : Json.Value} {d : StyleDocument} :
    parseRoot root = .ok d ↔ RootOf root d := by
  rw [parseRoot]
  simp only [bind_eq_ok, obj_eq_ok, required_eq_ok, okOr_eq_ok]
  constructor
  · rintro ⟨map, rfl, _, hknown, v, hversion, version, hone, h⟩
    split_ifs at h with hne
    obtain ⟨_, hlayer, h⟩ := bind_eq_ok.1 h
    obtain ⟨layer, hobj, h⟩ := bind_eq_ok.1 h
    cases obj_eq_ok.1 hobj
    exact ⟨map, v, layer, rfl, knownKeys_eq_ok.1 hknown, hversion, by rw [hone, not_not.1 hne],
      required_eq_ok.1 hlayer, parseLayer_eq_ok.1 h⟩
  · rintro ⟨map, v, layer, rfl, hknown, hversion, hone, hlayer, h⟩
    refine ⟨map, rfl, _, knownKeys_eq_ok.2 hknown, v, hversion, _, hone, ?_⟩
    rw [if_neg (by simp)]
    exact bind_eq_ok.2 ⟨_, required_eq_ok.2 hlayer, bind_eq_ok.2 ⟨layer, obj_eq_ok.2 rfl,
      parseLayer_eq_ok.2 h⟩⟩

end SpatialIde.Renderer.Style
