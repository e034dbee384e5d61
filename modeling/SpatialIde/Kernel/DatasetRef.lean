import SpatialIde.Engine.Crs
import SpatialIde.Renderer.Canonical

/-! # The lasting dataset reference

A format: what `DatasetRef.parse` reads of a JSON value, and the tree `DatasetRef.toJson` writes.
-/

namespace SpatialIde.Kernel

open Lib Lib.Json SpatialIde.Renderer
open SpatialIde.Engine (MAX_CRS_DEFINITION_BYTES)

def DATASET_URI_PREFIX : String := "spatial://dataset/ref/"

def URI_HEX_LEN : Nat := 32

def MAX_REF_LOCATORS : Nat := 8

def MAX_REF_STRING_BYTES : Nat := 4096

/-- `2 ^ 53 - 1`. -/
def MAX_EXACT_INTEGER : Nat := 2 ^ 53 - 1

/-! ### Refusals -/

/-- `path` is the member's path, `$` at the root. -/
inductive RefParseError where
  | unknownMember (path : String)
  | missingMember (path : String)
  | unknownState (path value : String)
  | overCeiling (path : String) (ceiling : Nat)
  | malformed (path detail : String)
  deriving DecidableEq, Repr

def malformed {α : Type} (path detail : String) : Except RefParseError α :=
  .error (.malformed path detail)

def unknownState {α : Type} (path value : String) : Except RefParseError α :=
  .error (.unknownState path value)

def refOver {α : Type} (path : String) (ceiling : Nat) : Except RefParseError α :=
  .error (.overCeiling path ceiling)

/-- The path of a member. -/
def joinKey (path key : String) : String := path ++ "." ++ key

/-- `map[key]`, for a key that is there. -/
def index (o : List (String × Value)) (key : String) : Value := (o.lookup key).getD .null

/-- An object with exactly `keys`. -/
def closed (v : Value) (path : String) (keys : List String) :
    Except RefParseError (List (String × Value)) :=
  match v.asObject with
  | none => malformed path "expected an object"
  | some obj =>
    match obj.find? fun m => m.1 ∉ keys with
    | some m => .error (.unknownMember (joinKey path m.1))
    | none =>
      match keys.find? fun k => (obj.lookup k).isNone with
      | some k => .error (.missingMember (joinKey path k))
      | none => .ok obj

theorem closed_eq_ok {v : Value} {path : String} {keys : List String}
    {o : List (String × Value)} (h : closed v path keys = .ok o) :
    v = .object o ∧ (∀ m ∈ o, m.1 ∈ keys) ∧ ∀ k ∈ keys, (o.lookup k).isSome := by
  rw [closed] at h
  split at h
  · cases h
  · next obj hobj =>
    split at h
    · cases h
    · next hknown =>
      split at h
      · cases h
      · next hpresent =>
        cases h
        refine ⟨?_, by simpa using hknown, by simpa using hpresent⟩
        cases v <;> cases hobj
        rfl

/-- A string of at most `ceiling` bytes. -/
def bounded (v : Value) (path : String) (ceiling : Nat) : Except RefParseError String :=
  match v.asStr with
  | none => malformed path "expected a string"
  | some s => if s.utf8ByteSize > ceiling then refOver path ceiling else .ok s

theorem bounded_eq_ok {v : Value} {path : String} {ceiling : Nat} {s : String}
    (h : bounded v path ceiling = .ok s) : v = .string s ∧ s.utf8ByteSize ≤ ceiling := by
  rw [bounded] at h
  split at h
  · cases h
  · next s' hs =>
    split_ifs at h with hlen
    · cases h
    · cases h
      refine ⟨?_, Nat.le_of_not_lt hlen⟩
      cases v <;> cases hs
      rfl

/-- A text that is bounded and not blank. -/
def claim (v : Value) (path : String) (ceiling : Nat) : Except RefParseError String := do
  let s ← bounded v path ceiling
  if Text.trim s = "" then malformed path "an empty claim is not recorded" else .ok s

def expectWord (v : Value) (path word : String) : Except RefParseError Unit := do
  let got ← bounded v path MAX_REF_STRING_BYTES
  if got = word then .ok () else unknownState path got

/-! ### Named states -/

/-- The word, and the text this writer writes beside it. -/
abbrev NamedState := String × String

def NOT_TAKEN : NamedState := ("not-taken",
  "a linked file is not read into a hash; the observation beside the six members is a change " ++
    "detector and not a content hash")

def NONE_PINNED : NamedState := ("none-pinned",
  "this engine pins no revision of a linked file; the observation beside the six members is a " ++
    "change detector and not a revision")

def NOT_REPORTED : NamedState := ("not-reported",
  "the filesystem reported no modification time for this file when it was opened")

def NOT_READ_OVER_CEILING : NamedState := ("not-read-over-ceiling",
  "the footer was over the declared ceiling and was not read or hashed")

def stateJson (state : NamedState) : Renderer.Json :=
  .obj [("state", .str state.1), ("basis", .str state.2)]

/-- The word is closed; the text is free, bounded and not blank. -/
def expectState (v : Value) (path : String) (state : NamedState) : Except RefParseError Unit := do
  let obj ← closed v path ["state", "basis"]
  expectWord (index obj "state") (joinKey path "state") state.1
  let _ ← claim (index obj "basis") (joinKey path "basis") MAX_REF_STRING_BYTES
  return ()

/-- A string, or the state that stands for its absence. -/
def stringOrState (v : Value) (path : String) (state : NamedState) :
    Except RefParseError (Option String) :=
  if v.asObject.isSome then do
    expectState v path state
    return none
  else do
    let s ← bounded v path MAX_REF_STRING_BYTES
    return some s

def exactInteger (v : Value) (path : String) : Except RefParseError UInt64 :=
  match v.asU64 with
  | none => malformed path "expected a non-negative integer"
  | some n => if n.toNat > MAX_EXACT_INTEGER then refOver path MAX_EXACT_INTEGER else .ok n

/-! ### The reference -/

/-- `SourceObservation`. -/
structure SourceObservation where
  byteSize : UInt64
  /-- Nanoseconds since the epoch, below `2 ^ 128`. -/
  modifiedNanos : Option Nat
  footerLength : UInt64
  footerHash : Option String
  deriving DecidableEq, Repr

inductive Locator where
  | projectRelative (location : String)
  /-- The reference's own URI. -/
  | machineRecorded
  deriving DecidableEq, Repr

structure CrsAssertion where
  identifier : String
  definitionJson : String
  deriving DecidableEq, Repr

structure IdentityDeclaration where
  column : String
  deriving DecidableEq, Repr

/-- The claims an open was admitted under. -/
structure Admission where
  crsAssertion : Option CrsAssertion
  identity : Option IdentityDeclaration
  deriving DecidableEq, Repr

structure DatasetRef where
  uri : String
  locators : List Locator
  observed : SourceObservation
  admission : Admission
  deriving DecidableEq, Repr

/-! ### Reading -/

def parseUri (s path : String) : Except RefParseError String :=
  match Text.stripPrefix s DATASET_URI_PREFIX with
  | some hex =>
    if Text.isLowerHexOf URI_HEX_LEN hex then .ok s
    else malformed path ("expected \x60" ++ DATASET_URI_PREFIX ++ "\x60 and " ++
      toString URI_HEX_LEN ++ " lowercase hex characters")
  | none => malformed path ("expected \x60" ++ DATASET_URI_PREFIX ++ "\x60 and " ++
      toString URI_HEX_LEN ++ " lowercase hex characters")

/-- On the text alone. -/
def inCanonicalForm (location path : String) : Except RefParseError Unit :=
  if location.toList.any (fun c => c = '\\' || c = ':') ||
      (location.toList.splitOn '/').any
        (fun s => s = [] || s = ['.'] || s = ['.', '.']) then
    malformed path "a project-relative locator is in canonical form"
  else .ok ()

def parseLocator (uri locatorsPath : String) (item : Value) (i : Nat) :
    Except RefParseError Locator := do
  let itemPath := locatorsPath ++ "[" ++ toString i ++ "]"
  let o ← closed item itemPath ["kind", "at"]
  let kindPath := joinKey itemPath "kind"
  let locationPath := joinKey itemPath "at"
  let location ← bounded (index o "at") locationPath MAX_REF_STRING_BYTES
  let kind ← bounded (index o "kind") kindPath MAX_REF_STRING_BYTES
  if kind = "project-relative" then do
    inCanonicalForm location locationPath
    return .projectRelative location
  else if kind = "machine-recorded" then
    if location = uri then .ok .machineRecorded
    else malformed locationPath "a machine-recorded locator names the reference's own URI"
  else unknownState kindPath kind

def parseResource (v : Value) (path : String) : Except RefParseError (String × List Locator) := do
  let obj ← closed v path ["logical_uri", "content_hash", "source_revision", "locators",
    "cache_status", "portability_policy"]
  let uriPath := joinKey path "logical_uri"
  let uriText ← bounded (index obj "logical_uri") uriPath MAX_REF_STRING_BYTES
  let uri ← parseUri uriText uriPath
  let hashPath := joinKey path "content_hash"
  if (index obj "content_hash").asStr.isSome then
    malformed hashPath
      "a sealed copy's hash belongs to a snapshot reference, which this version does not read"
  expectState (index obj "content_hash") hashPath NOT_TAKEN
  expectState (index obj "source_revision") (joinKey path "source_revision") NONE_PINNED
  expectWord (index obj "cache_status") (joinKey path "cache_status") "linked"
  expectWord (index obj "portability_policy") (joinKey path "portability_policy") "linked-live-file"
  let locatorsPath := joinKey path "locators"
  match (index obj "locators").asArray with
  | none => malformed locatorsPath "expected an array"
  | some items =>
    if items = [] then malformed locatorsPath "a reference holds at least one locator"
    if items.length > MAX_REF_LOCATORS then refOver locatorsPath MAX_REF_LOCATORS
    let locators ← items.zipIdx.mapM fun item => parseLocator uri locatorsPath item.1 item.2
    return (uri, locators)

/-- `str::parse::<u128>`. -/
def parseU128 (s : String) : Option Nat :=
  let cs := match s.toList with
    | '+' :: cs => cs
    | cs => cs
  match digitsValue cs with
  | some n => if n < 2 ^ 128 then some n else none
  | none => none

def parseObserved (v : Value) (path : String) : Except RefParseError SourceObservation := do
  let obj ← closed v path ["byte_size", "modified_ns", "footer_length", "footer_sha256"]
  let mtimePath := joinKey path "modified_ns"
  let mtime ← stringOrState (index obj "modified_ns") mtimePath NOT_REPORTED
  let modifiedNanos ← match mtime with
    | none => .ok none
    | some s =>
      match parseU128 s with
      | some n =>
        if toString n = s then .ok (some n)
        else malformed mtimePath "expected a decimal string in minimal form"
      | none => malformed mtimePath "expected a decimal string in minimal form"
  let hashPath := joinKey path "footer_sha256"
  let hash ← stringOrState (index obj "footer_sha256") hashPath NOT_READ_OVER_CEILING
  let footerHash ← match hash with
    | some s =>
      if Text.isLowerHexOf 64 s then .ok (some s)
      else malformed hashPath "expected 64 lowercase hex characters"
    | none => .ok none
  let byteSize ← exactInteger (index obj "byte_size") (joinKey path "byte_size")
  let footerLength ← exactInteger (index obj "footer_length") (joinKey path "footer_length")
  return ⟨byteSize, modifiedNanos, footerLength, footerHash⟩

/-- `null`, or a closed object. -/
def claimObject (obj : List (String × Value)) (path key : String) (keys : List String) :
    Except RefParseError (Option (List (String × Value))) :=
  match index obj key with
  | .null => .ok none
  | v => do
    let o ← closed v (joinKey path key) keys
    return some o

def parseAdmission (v : Value) (path : String) : Except RefParseError Admission := do
  let obj ← closed v path ["crs_assertion", "identity"]
  let text (o : List (String × Value)) (parent key : String) (ceiling : Nat) :=
    claim (index o key) (joinKey (joinKey path parent) key) ceiling
  let crs ← claimObject obj path "crs_assertion" ["identifier", "definition_json"]
  let crsAssertion ← match crs with
    | none => .ok none
    | some o => do
      let identifier ← text o "crs_assertion" "identifier" MAX_REF_STRING_BYTES
      let definitionJson ← text o "crs_assertion" "definition_json" MAX_CRS_DEFINITION_BYTES
      .ok (some ⟨identifier, definitionJson⟩)
  let id ← claimObject obj path "identity" ["column"]
  let identity ← match id with
    | none => .ok none
    | some o => do
      let column ← text o "identity" "column" MAX_REF_STRING_BYTES
      .ok (some ⟨column⟩)
  return ⟨crsAssertion, identity⟩

def DatasetRef.parse (v : Value) : Except RefParseError DatasetRef := do
  let entry ← closed v "$" ["resource", "observed", "admission"]
  let (uri, locators) ← parseResource (index entry "resource") "$.resource"
  let observed ← parseObserved (index entry "observed") "$.observed"
  let admission ← parseAdmission (index entry "admission") "$.admission"
  return ⟨uri, locators, observed, admission⟩

/-! ### Writing -/

def observedJson (o : SourceObservation) : Renderer.Json :=
  .obj [
    ("byte_size", .uint o.byteSize),
    ("modified_ns", match o.modifiedNanos with
      | none => stateJson NOT_REPORTED
      | some n => .str (toString n)),
    ("footer_length", .uint o.footerLength),
    ("footer_sha256", match o.footerHash with
      | none => stateJson NOT_READ_OVER_CEILING
      | some s => .str s)]

def Locator.toJson (uri : String) : Locator → Renderer.Json
  | projectRelative location => .obj [("kind", .str "project-relative"), ("at", .str location)]
  | machineRecorded => .obj [("kind", .str "machine-recorded"), ("at", .str uri)]

def Admission.toJson (a : Admission) : Renderer.Json :=
  .obj [
    ("crs_assertion", match a.crsAssertion with
      | none => .null
      | some c => .obj [("identifier", .str c.identifier), ("definition_json", .str c.definitionJson)]),
    ("identity", match a.identity with
      | none => .null
      | some i => .obj [("column", .str i.column)])]

def DatasetRef.toJson (r : DatasetRef) : Renderer.Json :=
  .obj [
    ("resource", .obj [
      ("logical_uri", .str r.uri),
      ("content_hash", stateJson NOT_TAKEN),
      ("source_revision", stateJson NONE_PINNED),
      ("locators", .arr (r.locators.map (Locator.toJson r.uri))),
      ("cache_status", .str "linked"),
      ("portability_policy", .str "linked-live-file")]),
    ("observed", observedJson r.observed),
    ("admission", r.admission.toJson)]

end SpatialIde.Kernel
