import SpatialIde.Lib.Except
import SpatialIde.Lib.Json
import SpatialIde.Lib.Text

/-! # The CRS of a dataset

Where it comes from, and what an open checks of a caller's assertion before it
admits one.
-/

namespace SpatialIde.Engine

open Lib Lib.Json

def MAX_CRS_DEFINITION_BYTES : Nat := 65536

/-- What an open says of a CRS it does not admit. -/
inductive CrsRefusal where
  | crsAssertionIdentifierBlank
  | crsAssertionDefinitionTooLarge (limit saw : Nat)
  | geoMetadata (detail : String)
  | axisOrderUnestablished (detail : String)
  | axisOrderUnsupported (established : String)
  | crsAssertionConflict (declared asserted : String)
  | crsUndeclared (detail : String)
  deriving DecidableEq, Repr

inductive CrsSource where
  | file
  | callerAsserted
  | formatRule
  deriving DecidableEq, Repr

inductive AxisOrder where
  | eastingNorthing
  | northingEasting
  | longitudeLatitude
  | latitudeLongitude
  deriving DecidableEq, Repr

namespace AxisOrder

def asStr : AxisOrder → String
  | eastingNorthing => "easting,northing"
  | northingEasting => "northing,easting"
  | longitudeLatitude => "longitude,latitude"
  | latitudeLongitude => "latitude,longitude"

def isXFirst : AxisOrder → Bool
  | eastingNorthing | longitudeLatitude => true
  | northingEasting | latitudeLongitude => false

end AxisOrder

/-- A caller's assertion about a file. -/
structure CrsAssertion where
  identifier : String
  definitionJson : Option String
  deriving DecidableEq, Repr

structure DatasetCrs where
  identifier : String
  definitionJson : Option String
  source : CrsSource
  axisOrder : AxisOrder
  deriving DecidableEq, Repr

def DatasetCrs.recordedAsFormatRule (c : DatasetCrs) : DatasetCrs := { c with source := .formatRule }

def validateAssertionShape (a : CrsAssertion) : Except CrsRefusal Unit :=
  if Text.trim a.identifier = "" then .error .crsAssertionIdentifierBlank
  else
    match a.definitionJson with
    | some d =>
      if d.utf8ByteSize > MAX_CRS_DEFINITION_BYTES then
        .error (.crsAssertionDefinitionTooLarge MAX_CRS_DEFINITION_BYTES d.utf8ByteSize)
      else .ok ()
    | none => .ok ()

/-- `str::contains`. -/
def contains (s part : String) : Bool := s.toList.tails.any fun r => part.toList.isPrefixOf r

def axisOrderFromProjjson (crs : Value) : Except CrsRefusal AxisOrder :=
  match ((crs.get "coordinate_system").bind (·.get "axis")).bind Value.asArray with
  | none => .error (.axisOrderUnestablished "PROJJSON carries no \x60coordinate_system.axis\x60")
  | some axes =>
    if axes.length < 2 then
      .error (.axisOrderUnestablished
        ("PROJJSON declares " ++ toString axes.length ++ " axis/axes"))
    else
      let text (key : String) (i : Nat) : String :=
        String.ofList ((((axes[i]?.bind (·.get key)).bind Value.asStr).getD "").toList.map
          Char.toLower)
      let dir := text "direction"
      let name := text "name"
      let geographic := contains (name 0) "longitude" || contains (name 0) "latitude" ||
        contains (name 1) "longitude" || contains (name 1) "latitude"
      if dir 0 = "east" ∧ dir 1 = "north" then
        .ok (if geographic then .longitudeLatitude else .eastingNorthing)
      else if dir 0 = "north" ∧ dir 1 = "east" then
        .ok (if geographic then .latitudeLongitude else .northingEasting)
      else .error (.axisOrderUnestablished
        ("axis directions (" ++ dir 0 ++ ", " ++ dir 1 ++ ") are not a planar east/north pair"))

/-- `crs::admit`. -/
def admitCrs (declared : Option (String × Option String × AxisOrder))
    (asserted : Option CrsAssertion) (assertedAxisOrder : Option AxisOrder) :
    Except CrsRefusal DatasetCrs :=
  match declared, asserted with
  | some (id, definition, axis), none => .ok ⟨id, definition, .file, axis⟩
  | some (id, _, _), some a => .error (.crsAssertionConflict id a.identifier)
  | none, some a =>
    match assertedAxisOrder with
    | none => .error (.axisOrderUnestablished
        "the caller's assertion carries no coordinate system to establish axis order from")
    | some axis => .ok ⟨a.identifier, a.definitionJson, .callerAsserted, axis⟩
  | none, none =>
    .error (.crsUndeclared "no \x60geo\x60 metadata CRS on the primary geometry column")

/-- What the reader of the format found in a file. -/
structure FormatSemantics where
  admissibleCrs : Option (String × Option String × AxisOrder)
  /-- The CRS is the format's own default. -/
  formatDefault : Bool
  undeclaredDetail : Option String
  deriving DecidableEq, Repr

/-! ### The CRS part of an open

`fromStr` is `serde_json::from_str`. -/

section

variable (fromStr : String → Except String Value)

/-- The axis order of the caller's own definition. -/
def assertedAxis (a : CrsAssertion) : Except CrsRefusal (Option AxisOrder) :=
  match a.definitionJson with
  | some d =>
    match fromStr d with
    | .error e => .error (.geoMetadata ("asserted definition: " ++ e))
    | .ok v => (axisOrderFromProjjson v).map some
  | none => .ok none

/-- The CRS that was admitted, in an order the engine can emit. -/
def recorded (semantics : FormatSemantics) (crs : DatasetCrs) : Except CrsRefusal DatasetCrs :=
  if !crs.axisOrder.isXFirst then .error (.axisOrderUnsupported crs.axisOrder.asStr)
  else if crs.source = .file ∧ semantics.formatDefault = true then .ok crs.recordedAsFormatRule
  else .ok crs

/-- From `Dataset::open_inner`. -/
def openCrs (semantics : FormatSemantics) : Option CrsAssertion → Except CrsRefusal DatasetCrs
  | some a => do
    validateAssertionShape a
    let axis ← assertedAxis fromStr a
    let declared := if semantics.formatDefault then none else semantics.admissibleCrs
    let crs ← admitCrs declared (some a) axis
    recorded semantics crs
  | none =>
    match semantics.undeclaredDetail with
    | some detail => .error (.crsUndeclared detail)
    | none => do
      let crs ← admitCrs semantics.admissibleCrs none none
      recorded semantics crs

theorem recorded_eq_ok {semantics : FormatSemantics} {crs crs' : DatasetCrs}
    (h : recorded semantics crs = .ok crs') :
    crs.source = .file ∧ crs'.source ≠ .callerAsserted ∨ crs' = crs := by
  rw [recorded] at h
  split_ifs at h with _ hfile
  · cases h
    exact .inl ⟨hfile.1, by simp [DatasetCrs.recordedAsFormatRule]⟩
  · cases h
    exact .inr rfl

theorem validateAssertionShape_eq_ok {a : CrsAssertion} (h : validateAssertionShape a = .ok ()) :
    Text.trim a.identifier ≠ "" ∧
      ∀ d ∈ a.definitionJson, d.utf8ByteSize ≤ MAX_CRS_DEFINITION_BYTES := by
  rw [validateAssertionShape] at h
  split_ifs at h with hblank
  refine ⟨hblank, fun d hd => ?_⟩
  rw [Option.mem_def.1 hd] at h
  dsimp only at h
  split_ifs at h with hlarge
  exact Nat.not_lt.1 hlarge

/-- An axis order is read off a definition. -/
theorem assertedAxis_eq_some {a : CrsAssertion} {axis : AxisOrder}
    (h : assertedAxis fromStr a = .ok (some axis)) :
    ∃ d v, a.definitionJson = some d ∧ fromStr d = .ok v := by
  unfold assertedAxis at h
  cases hd : a.definitionJson with
  | none =>
    rw [hd] at h
    cases h
  | some d =>
    rw [hd] at h
    dsimp only at h
    cases hv : fromStr d with
    | error e =>
      rw [hv] at h
      cases h
    | ok v => exact ⟨d, v, rfl, hv⟩

/-- A CRS that the caller asserted has an identifier, and a definition that was read. -/
theorem openCrs_asserted {semantics : FormatSemantics} {assertion : Option CrsAssertion}
    {crs : DatasetCrs} (h : openCrs fromStr semantics assertion = .ok crs)
    (hsource : crs.source = .callerAsserted) :
    Text.trim crs.identifier ≠ "" ∧ ∃ d v, crs.definitionJson = some d ∧
      d.utf8ByteSize ≤ MAX_CRS_DEFINITION_BYTES ∧ fromStr d = .ok v := by
  cases assertion with
  | none =>
    unfold openCrs at h
    dsimp only at h
    split at h
    · cases h
    obtain ⟨found, hfound, hrecorded⟩ := bind_eq_ok.1 h
    unfold admitCrs at hfound
    -- without an assertion the source is the file
    cases hdeclared : semantics.admissibleCrs with
    | none =>
      rw [hdeclared] at hfound
      cases hfound
    | some declared =>
      rw [hdeclared] at hfound
      cases hfound
      obtain ⟨-, hne⟩ | rfl := recorded_eq_ok hrecorded
      · exact absurd hsource hne
      · cases hsource
  | some a =>
    unfold openCrs at h
    obtain ⟨⟨⟩, hshape, h⟩ := bind_eq_ok.1 h
    obtain ⟨axis, haxis, h⟩ := bind_eq_ok.1 h
    obtain ⟨found, hfound, hrecorded⟩ := bind_eq_ok.1 h
    obtain ⟨hidentifier, hsize⟩ := validateAssertionShape_eq_ok hshape
    unfold admitCrs at hfound
    split at hfound
    · next hnone => cases hnone
    · cases hfound
    · next a' _ hsome =>
      cases hsome
      cases axis with
      | none => cases hfound
      | some axis =>
        cases hfound
        obtain ⟨hfile, -⟩ | rfl := recorded_eq_ok hrecorded
        · cases hfile
        · obtain ⟨d, v, hd, hv⟩ := assertedAxis_eq_some fromStr haxis
          exact ⟨hidentifier, d, v, hd, hsize d hd, hv⟩
    · cases hfound

end

end SpatialIde.Engine
