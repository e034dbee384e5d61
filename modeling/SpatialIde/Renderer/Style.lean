import SpatialIde.Lib.Except
import SpatialIde.Lib.Json.Text
import SpatialIde.Renderer.Canonical

/-! # The style document

Style v0: four properties over polygons, each a literal or a categorical match over a text column,
of which a document may have one.  `parse` reads a document from the value that `serde_json` reads,
and refuses what the schema does not have; `toCanonicalJson` writes it in the declared order.
-/

namespace SpatialIde.Renderer.Style

open Lib
open Lib.Json.Value (asF64)

def STYLE_VERSION : Int64 := 1

def GEOMETRY_POLYGON : String := "polygon"

/-- `64.0`. -/
def MAX_OUTLINE_WIDTH : F64 := ⟨0x4050000000000000⟩

/-- `1.0`. -/
def MAX_OPACITY : F64 := ⟨0x3FF0000000000000⟩

example : F64.parse "64.0" = some MAX_OUTLINE_WIDTH ∧ F64.parse "1.0" = some MAX_OPACITY := by
  decide +kernel

def MAX_MATCH_CASES : Nat := 64

/-- Keys that name what style v0 excludes, with what they name. -/
def V0_EXCLUDED : List (String × String) :=
  [("label", "labels"), ("labels", "labels"), ("text", "labels"), ("icon", "icons"),
    ("icons", "icons"), ("marker", "icons"), ("min_zoom", "scale-dependent rules"),
    ("max_zoom", "scale-dependent rules"), ("zoom", "scale-dependent rules"),
    ("scale", "scale-dependent rules"), ("expression", "an expression language"),
    ("expr", "an expression language"), ("filter", "an expression language"),
    ("case", "an expression language"), ("interpolate", "an expression language")]

/-! ### Documents -/

/-- An opaque colour. -/
structure Rgb where
  r : UInt8
  g : UInt8
  b : UInt8
  deriving DecidableEq, Repr

namespace Rgb

/-- The two lowercase hex digits of a byte. -/
def digits (b : UInt8) : List Char := [hexChar (b.toNat / 16), hexChar (b.toNat % 16)]

def toHex (c : Rgb) : String := String.ofList ('#' :: (digits c.r ++ digits c.g ++ digits c.b))

/-- The byte of two hex digits. -/
def byte (hi lo : Char) : Option UInt8 := do
  let hi ← Json.hexDigit hi
  let lo ← Json.hexDigit lo
  return UInt8.ofNat (16 * hi + lo)

/-- `#` and six hex digits, in either case. -/
def parse (s : String) : Option Rgb :=
  match s.toList with
  | ['#', r₁, r₀, g₁, g₀, b₁, b₀] => do
    let r ← byte r₁ r₀
    let g ← byte g₁ g₀
    let b ← byte b₁ b₀
    return ⟨r, g, b⟩
  | _ => none

end Rgb

/-- A match over one column; the cases are in the order of their declaration. -/
structure CategoricalMatch (T : Type) where
  column : String
  cases : List (String × T)
  onNull : T
  onUnmatched : T
  deriving DecidableEq

inductive Value (T : Type) where
  | literal (t : T)
  | matching (m : CategoricalMatch T)
  deriving DecidableEq

structure StyleDocument where
  fillColor : Value Rgb
  fillOpacity : Value F64
  outlineColor : Value Rgb
  outlineWidth : Value F64
  deriving DecidableEq

/-- `loc` is the place in the document, `$` at the root. -/
inductive StyleError where
  | notJson (detail : String)
  | unsupportedVersion (found supported : Int)
  | missingKey (loc key : String)
  | unknownKey (loc key : String) (excludedConstruct : Option String)
  | typeMismatch (loc expected : String)
  | badColor (loc found : String)
  | outOfRange (loc : String) (value min max : F64)
  | moreThanOneMatch (firstAt secondAt : String)
  | duplicateCase (loc value : String)
  | matchHasNoCases (loc : String)
  | tooManyCases (loc : String) (cases limit : Nat)
  | canonical (e : CanonicalError)
  deriving DecidableEq, Repr

/-! ### Parsing -/

/-- The members of an object, each key once. -/
abbrev ObjMap := List (String × Json.Value)

variable {T : Type}

def obj (v : Json.Value) (loc : String) : Except StyleError ObjMap :=
  okOr (.typeMismatch loc "an object") v.asObject

/-- `eq_ignore_ascii_case`. -/
def sameIgnoringCase (s t : String) : Bool := s.toList.map Char.toLower = t.toList.map Char.toLower

def knownKeys (map : ObjMap) (loc : String) (allowed : List String) : Except StyleError Unit :=
  match map.find? fun m => m.1 ∉ allowed with
  | none => .ok ()
  | some m => .error (.unknownKey loc m.1
      ((V0_EXCLUDED.find? fun e => sameIgnoringCase e.1 m.1).map Prod.snd))

/-- The member that must be there. -/
def required (map : ObjMap) (loc key : String) : Except StyleError Json.Value :=
  okOr (.missingKey loc key) (map.lookup key)

def parseColor (v : Json.Value) (loc : String) : Except StyleError Rgb := do
  let s ← okOr (.typeMismatch loc "a \x60#rrggbb\x60 string") v.asStr
  okOr (.badColor loc s) (Rgb.parse s)

def number (min max : F64) (v : Json.Value) (loc : String) : Except StyleError F64 := do
  let n ← okOr (.typeMismatch loc "a number") (asF64 v)
  if !n.isFinite || n.lt min || max.lt n then .error (.outOfRange loc n min max)
  else return n

/-- The cases from the `i`th on, behind those whose values are `seen`. -/
def parseCases (loc : String) (leaf : Json.Value → String → Except StyleError T) (i : Nat)
    (seen : List String) : List Json.Value → Except StyleError (List (String × T))
  | [] => .ok []
  | c :: rest => do
    let caseAt := loc ++ ".cases[" ++ toString i ++ "]"
    let map ← obj c caseAt
    knownKeys map caseAt ["when", "then"]
    let v ← required map caseAt "when"
    let value ← okOr (.typeMismatch (caseAt ++ ".when")
      "a string — style v0 matches on text columns only") v.asStr
    if value ∈ seen then .error (.duplicateCase loc value)
    else
      let v ← required map caseAt "then"
      let t ← leaf v (caseAt ++ ".then")
      let rest ← parseCases loc leaf (i + 1) (value :: seen) rest
      return (value, t) :: rest

def parseMatch (v : Json.Value) (loc : String)
    (leaf : Json.Value → String → Except StyleError T) :
    Except StyleError (CategoricalMatch T) := do
  let map ← obj v loc
  knownKeys map loc ["column", "cases", "on_null", "on_unmatched"]
  let v ← required map loc "column"
  let column ← okOr (.typeMismatch (loc ++ ".column") "a column name string") v.asStr
  if column = "" then .error (.typeMismatch (loc ++ ".column") "a non-empty column name")
  else
    let v ← required map loc "cases"
    let items ← okOr (.typeMismatch (loc ++ ".cases") "an array of \x7bwhen, then\x7d objects")
      v.asArray
    if items.isEmpty then .error (.matchHasNoCases loc)
    else if items.length > MAX_MATCH_CASES then
      .error (.tooManyCases loc items.length MAX_MATCH_CASES)
    else
      let cases ← parseCases loc leaf 0 [] items
      let v ← required map loc "on_null"
      let onNull ← leaf v (loc ++ ".on_null")
      let v ← required map loc "on_unmatched"
      let onUnmatched ← leaf v (loc ++ ".on_unmatched")
      return { column, cases, onNull, onUnmatched }

/-- One property, and where a match has been found so far. -/
def value (layer : ObjMap) (layerAt key : String) (matchSite : Option String)
    (leaf : Json.Value → String → Except StyleError T) :
    Except StyleError (Value T × Option String) := do
  let loc := layerAt ++ "." ++ key
  let v ← required layer layerAt key
  let map ← obj v loc
  knownKeys map loc ["literal", "match"]
  match map.lookup "literal", map.lookup "match" with
  | some _, some _ =>
    .error (.typeMismatch loc "exactly one of \x60literal\x60 or \x60match\x60, not both")
  | some v, none =>
    let t ← leaf v (loc ++ ".literal")
    return (.literal t, matchSite)
  | none, some v =>
    let matchAt := loc ++ ".match"
    match matchSite with
    | some first => .error (.moreThanOneMatch first matchAt)
    | none =>
      let m ← parseMatch v matchAt leaf
      return (.matching m, some matchAt)
  | none, none => .error (.missingKey loc "literal\x60 or \x60match")

def parseLayer (layer : ObjMap) : Except StyleError StyleDocument := do
  knownKeys layer "$.layer"
    ["geometry", "fill_color", "fill_opacity", "outline_color", "outline_width"]
  let v ← required layer "$.layer" "geometry"
  let geometry ← okOr (.typeMismatch "$.layer.geometry" "the string \"polygon\"") v.asStr
  if geometry ≠ GEOMETRY_POLYGON then
    .error (.typeMismatch "$.layer.geometry" "the string \"polygon\" — style v0 is polygons only")
  else
    let (fillColor, site) ← value layer "$.layer" "fill_color" none parseColor
    let (fillOpacity, site) ← value layer "$.layer" "fill_opacity" site (number F64.zero MAX_OPACITY)
    let (outlineColor, site) ← value layer "$.layer" "outline_color" site parseColor
    let (outlineWidth, _) ← value layer "$.layer" "outline_width" site
      (number F64.zero MAX_OUTLINE_WIDTH)
    return { fillColor, fillOpacity, outlineColor, outlineWidth }

def parseRoot (root : Json.Value) : Except StyleError StyleDocument := do
  let root ← obj root "$"
  knownKeys root "$" ["style_version", "layer"]
  let v ← required root "$" "style_version"
  let version ← okOr (.typeMismatch "$.style_version" "an integer") v.asI64
  if version ≠ STYLE_VERSION.toInt then
    .error (.unsupportedVersion version STYLE_VERSION.toInt)
  else
    let v ← required root "$" "layer"
    let layer ← obj v "$.layer"
    parseLayer layer

/-- `parse`.  `fromStr` is `serde_json::from_str`, with the text of its error. -/
def parse (fromStr : String → Except String Json.Value) (src : String) :
    Except StyleError StyleDocument := do
  let root ← (fromStr src).mapError .notJson
  parseRoot root

/-! ### The canonical form -/

def colorJson (c : Rgb) : Json := .str c.toHex

def caseJson (leaf : T → Json) (c : String × T) : Json :=
  .obj [("when", .str c.1), ("then", leaf c.2)]

def valueJson (leaf : T → Json) : Value T → Json
  | .literal t => .obj [("literal", leaf t)]
  | .matching m => .obj [("match", .obj [
      ("column", .str m.column),
      ("cases", .arr (m.cases.map (caseJson leaf))),
      ("on_null", leaf m.onNull),
      ("on_unmatched", leaf m.onUnmatched)])]

def StyleDocument.toCanonicalJson (d : StyleDocument) : Json :=
  .obj [("style_version", .int STYLE_VERSION),
    ("layer", .obj [
      ("geometry", .str GEOMETRY_POLYGON),
      ("fill_color", valueJson colorJson d.fillColor),
      ("fill_opacity", valueJson .double d.fillOpacity),
      ("outline_color", valueJson colorJson d.outlineColor),
      ("outline_width", valueJson .double d.outlineWidth)])]

/-- The canonical text, of which the bundle carries the hash. -/
def StyleDocument.canonical (d : StyleDocument) : Except StyleError String :=
  (toCanonicalString d.toCanonicalJson).mapError .canonical

end SpatialIde.Renderer.Style
