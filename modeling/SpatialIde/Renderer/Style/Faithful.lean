import SpatialIde.Renderer.Canonical.Faithful
import SpatialIde.Renderer.Style.Schema

/-! # The canonical form of a style is faithful

The value of a canonical form is in the schema, with one zero in place of both
(`rootOf_canonical`).  So a canonical form whose numbers are read back gives the style back, and two
documents with one canonical form are alike: they differ in the order of members, in the case of the
letters of colours and in how numbers are spelled (`Alike`).
-/

namespace SpatialIde.Renderer.Style

open Lib

variable {T : Type} {L : Json.Value → T → Prop}

/-! ### Leaves -/

theorem byte_digits (b : UInt8) :
    Rgb.byte (hexChar (b.toNat / 16)) (hexChar (b.toNat % 16)) = some b := by
  have hb := b.toNat_lt
  rw [Rgb.byte, hexDigit_hexChar (by omega), hexDigit_hexChar (by omega)]
  show some (UInt8.ofNat (16 * (b.toNat / 16) + b.toNat % 16)) = some b
  rw [Nat.div_add_mod, UInt8.ofNat_toNat]

theorem parse_toHex (c : Rgb) : Rgb.parse c.toHex = some c := by
  rw [Rgb.parse, Rgb.toHex, String.toList_ofList]
  simp only [Rgb.digits, List.cons_append, List.nil_append, byte_digits]
  rfl

theorem colorOf_value (c : Rgb) : ColorOf (colorJson c).value c := ⟨c.toHex, rfl, parse_toHex c⟩

theorem NumberOf.positiveZero {min max : F64} {v : Json.Value} {x : F64}
    (h : NumberOf min max v x) :
    NumberOf min max (Json.double x).value (Renderer.positiveZero x) := by
  obtain ⟨-, hfinite, hmin, hmax⟩ := h
  refine ⟨rfl, ?_⟩
  rw [Renderer.positiveZero]
  split_ifs with hzero
  · -- Both zeros are at the same place.
    obtain ⟨hnan, -, hkey⟩ := F64.eq_iff.1 hzero
    refine ⟨by decide, ?_, ?_⟩
    · rw [← hmin, F64.lt, F64.lt, hnan, hkey]
      rfl
    · rw [← hmax, F64.lt, F64.lt, hnan, hkey]
      rfl
  · exact ⟨hfinite, hmin, hmax⟩

theorem NumberOf.eq_positiveZero {min max : F64} {v : Json.Value} {x : F64}
    (h : NumberOf min max v x) : x.eq (Renderer.positiveZero x) = true := by
  rw [Renderer.positiveZero]
  split_ifs with hzero
  · exact hzero
  · have hnan := F64.isNaN_eq_false_of_isFinite h.2.1
    exact F64.eq_iff.2 ⟨hnan, hnan, rfl⟩

/-! ### One zero -/

def CategoricalMatch.map (g : T → T) (m : CategoricalMatch T) : CategoricalMatch T where
  column := m.column
  cases := m.cases.map fun c => (c.1, g c.2)
  onNull := g m.onNull
  onUnmatched := g m.onUnmatched

def Value.map (g : T → T) : Value T → Value T
  | literal t => literal (g t)
  | matching m => matching (m.map g)

/-- The document with one zero in place of both. -/
def StyleDocument.oneZero (d : StyleDocument) : StyleDocument where
  fillColor := d.fillColor
  fillOpacity := d.fillOpacity.map positiveZero
  outlineColor := d.outlineColor
  outlineWidth := d.outlineWidth.map positiveZero

theorem Value.isMatch_map (g : T → T) (x : Value T) : (x.map g).isMatch = x.isMatch := by
  cases x <;> rfl

theorem Value.map_id (x : Value T) : x.map (fun t => t) = x := by
  cases x with
  | literal t => rfl
  | matching m =>
    rw [Value.map, CategoricalMatch.map]
    simp

/-! ### The canonical form is in the schema -/

theorem exists_leaf {v : Json.Value} {m : CategoricalMatch T} (h : MatchOf L v m) :
    ∀ c ∈ m.cases, ∃ u, L u c.2 := by
  obtain ⟨_, items, _, _, -, -, -, -, hforall, -⟩ := h.members
  intro c hc
  obtain ⟨item, -, _, u, -, -, -, -, hu⟩ := exists_left hforall hc
  exact ⟨u, hu⟩

theorem known_of_keys {map : ObjMap} (keys : List String) {allowed : List String}
    (h : map.map Prod.fst = keys) (hkeys : ∀ key ∈ keys, key ∈ allowed) : Known map allowed := by
  intro m hm
  exact hkeys m.1 (h ▸ List.mem_map_of_mem hm)

theorem caseOf_value {leafJson : T → Json} {g : T → T} {c : String × T}
    (h : L (leafJson c.2).value (g c.2)) : CaseOf L (caseJson leafJson c).value (c.1, g c.2) := by
  exact ⟨[("when", .string c.1), ("then", (leafJson c.2).value)], _, rfl,
    known_of_keys ["when", "then"] rfl (by decide), rfl, rfl, h⟩

theorem valueOf_value {leafJson : T → Json} {g : T → T}
    (hleaf : ∀ u t, L u t → L (leafJson t).value (g t)) {v : Json.Value} {x : Value T}
    (h : ValueOf L v x) : ValueOf L (valueJson leafJson x).value (x.map g) := by
  cases h with
  | @literal _ u t _ _ _ ht =>
    exact .literal (known_of_keys ["literal"] rfl (by decide)) rfl rfl (hleaf u t ht)
  | @matching _ u m _ _ _ hm =>
    obtain ⟨_, items, v₁, v₂, -, -, -, -, -, -, hv₁, -, hv₂⟩ := hm.members
    have hcases : List.Forall₂ (CaseOf L) (m.cases.map fun c => (caseJson leafJson c).value)
        (m.cases.map fun c => (c.1, g c.2)) := by
      rw [List.forall₂_map_left_iff, List.forall₂_map_right_iff, List.forall₂_same]
      intro c hc
      obtain ⟨u, hu⟩ := exists_leaf hm c hc
      exact caseOf_value (hleaf u c.2 hu)
    refine .matching (known_of_keys ["match"] rfl (by decide)) rfl rfl
      ⟨⟨_, _, _, _, rfl, known_of_keys ["column", "cases", "on_null", "on_unmatched"] rfl (by decide),
        rfl, ?_, hcases, rfl, hleaf _ _ hv₁, rfl, hleaf _ _ hv₂⟩, hm.column, ?_, ?_, ?_⟩
    · show some (Json.Value.array (Json.values (m.cases.map (caseJson leafJson)))) = _
      rw [Json.values_eq, List.map_map]
      rfl
    · exact fun h => hm.nonempty (List.map_eq_nil_iff.1 h)
    · exact (List.length_map _).trans_le hm.atMost
    · show ((m.cases.map fun c => (c.1, g c.2)).map Prod.fst).Nodup
      rw [List.map_map]
      exact hm.distinct

/-- **The canonical form of a document is in the schema**, with one zero. -/
theorem rootOf_canonical {root : Json.Value} {d : StyleDocument} (h : RootOf root d) :
    RootOf d.toCanonicalJson.value d.oneZero := by
  obtain ⟨_, _, layer, -, -, -, -, -, hlayer⟩ := h
  obtain ⟨_, -, hfc⟩ := hlayer.fillColor
  obtain ⟨_, -, hfo⟩ := hlayer.fillOpacity
  obtain ⟨_, -, hoc⟩ := hlayer.outlineColor
  obtain ⟨_, -, how⟩ := hlayer.outlineWidth
  refine ⟨_, _, _, rfl, known_of_keys ["style_version", "layer"] rfl (by decide), rfl, rfl, rfl,
    known_of_keys ["geometry", "fill_color", "fill_opacity", "outline_color", "outline_width"] rfl
      (by decide), rfl, ⟨_, rfl, ?_⟩, ⟨_, rfl, ?_⟩, ⟨_, rfl, ?_⟩, ⟨_, rfl, ?_⟩, ?_⟩
  · have hvalue : ValueOf ColorOf (valueJson colorJson d.fillColor).value (d.fillColor.map fun c => c) :=
      valueOf_value (fun _ c _ => colorOf_value c) hfc
    rwa [Value.map_id] at hvalue
  · exact valueOf_value (fun _ _ hx => hx.positiveZero) hfo
  · have hvalue : ValueOf ColorOf (valueJson colorJson d.outlineColor).value (d.outlineColor.map fun c => c) :=
      valueOf_value (fun _ c _ => colorOf_value c) hoc
    rwa [Value.map_id] at hvalue
  · exact valueOf_value (fun _ _ hx => hx.positiveZero) how
  · rw [StyleDocument.matches, StyleDocument.oneZero]
    simp only [Value.isMatch_map]
    exact hlayer.oneMatch

/-! ### One canonical form for both zeros -/

theorem writeDouble_positiveZero (x : F64) (loc : String) :
    writeDouble (positiveZero x) loc = writeDouble x loc := by
  by_cases h : x.eq F64.zero = true
  · have hzero : positiveZero x = F64.zero := if_pos h
    have hfinite : x.isFinite = true := by
      obtain ⟨-, -, hkey⟩ := F64.eq_iff.1 h
      rw [F64.isFinite_iff, hkey]
      decide
    have hsame : positiveZero F64.zero = F64.zero := by decide
    rw [hzero, writeDouble, writeDouble, hfinite, hzero, hsame]
    rfl
  · have hsame : positiveZero x = x := if_neg h
    rw [hsame]

theorem writeItems_map (loc : String) (cases : List (String × F64)) (i : Nat) :
    writeItems loc i ((cases.map fun c => (c.1, positiveZero c.2)).map (caseJson .double)) =
      writeItems loc i (cases.map (caseJson .double)) := by
  induction cases generalizing i with
  | nil => rfl
  | cons c cases ih =>
    simp only [List.map_cons, caseJson, writeItems, writeValue, writeMembers,
      writeDouble_positiveZero]
    rw [← ih]

theorem writeValue_map (loc : String) (x : Value F64) :
    writeValue loc (valueJson .double (x.map positiveZero)) =
      writeValue loc (valueJson .double x) := by
  cases x with
  | literal t => simp only [Value.map, valueJson, writeValue, writeMembers, writeDouble_positiveZero]
  | matching m =>
    simp only [Value.map, CategoricalMatch.map, valueJson, writeValue, writeMembers,
      writeDouble_positiveZero, writeItems_map]

theorem canonical_oneZero (d : StyleDocument) : d.oneZero.canonical = d.canonical := by
  simp only [StyleDocument.canonical, toCanonicalString, StyleDocument.toCanonicalJson,
    StyleDocument.oneZero, writeValue, writeMembers, writeValue_map]

theorem canonical_eq_ok {d : StyleDocument} {text : String} :
    d.canonical = .ok text ↔ toCanonicalString d.toCanonicalJson = .ok text := by
  rw [StyleDocument.canonical]
  cases toCanonicalString d.toCanonicalJson <;> simp [Except.mapError]

/-- Documents with one canonical form are one but for the sign of a zero. -/
theorem oneZero_of_canonical {root root' : Json.Value} {d d' : StyleDocument} {text : String}
    (h : RootOf root d) (h' : RootOf root' d') (htext : d.canonical = .ok text)
    (htext' : d'.canonical = .ok text) : d.oneZero = d'.oneZero := by
  have hvalue := parse_of_toCanonicalString (canonical_eq_ok.1 htext)
  rw [parse_of_toCanonicalString (canonical_eq_ok.1 htext'), Option.some.injEq] at hvalue
  have hparse := parseRoot_eq_ok.2 (rootOf_canonical h)
  rw [← hvalue, parseRoot_eq_ok.2 (rootOf_canonical h')] at hparse
  exact (Except.ok.inj hparse).symm

end SpatialIde.Renderer.Style
