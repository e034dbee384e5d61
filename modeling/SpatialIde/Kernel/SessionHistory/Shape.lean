import SpatialIde.Kernel.DatasetRef
import SpatialIde.Lib.Json.Text

/-! # The shapes of a steps file

Closed key sets, named words and named states: `Shape` says what a member may hold, `check` walks a
value along its shape and names the path of the member that breaks it.
-/

namespace SpatialIde.Kernel.SessionHistory

open Lib Lib.Json
open Lib.Json.Value (asF64)

def MAX_STEP_LINE_BYTES : Nat := 262144

def MAX_HEADER_LINE_BYTES : Nat := 1048576

def MAX_SESSION_HISTORY_BYTES : Nat := 33554432

/-- The actions this kernel registers. -/
def ACTIONS : Nat := 2

def MAX_TEXT : Nat := 4096

def MAX_ITEMS : Nat := 1024

def MAX_PREDICATE_BYTES : Nat := 4096

/-- `64.0`. -/
def MAX_OUTLINE_WIDTH : F64 := ⟨0x4050000000000000⟩

/-- `1.0`. -/
def MAX_OPACITY : F64 := ⟨0x3FF0000000000000⟩

example : F64.parse "64.0" = some MAX_OUTLINE_WIDTH ∧ F64.parse "1.0" = some MAX_OPACITY := by
  decide +kernel

/-- A member's shape. -/
inductive Shape where
  | null
  | any
  | text (max : Nat)
  /-- A start and this many lowercase hex characters. -/
  | hex (start : String) (n : Nat)
  /-- `YYYY-MM-DDTHH:MM:SSZ`. -/
  | timestamp
  | observed
  | word (words : List String)
  | int (lo hi : Nat)
  | num (max : F64)
  | state (words : List String)
  | obj (members : List (String × Shape))
  /-- A closed object whose tag member picks the other members. -/
  | tagged (tag : String) (variants : List (String × List (String × Shape)))
  | list (item : Shape) (max : Nat)
  | or (a b : Shape)
  /-- A named state when the object has a `state` member, the shape otherwise. -/
  | stateOr (inner : Shape)

namespace Shape

def TEXT : Shape := .text MAX_TEXT

def ID : Shape := .hex "step_" 32

def HASH : Shape := .hex "sha256:" 64

def COLOUR : Shape := .hex "#" 6

def WIDTH : Shape := .obj [("value", .num MAX_OUTLINE_WIDTH), ("unit", .word ["px"])]

def FILTER : Shape :=
  .obj [("predicate", .text MAX_PREDICATE_BYTES), ("dialect", .word ["duckdb-expr/0"])]

/-- Each registered action's name, its `kind` and the shape of its `params`. -/
def REGISTRY : List (String × String × Shape) := [
  ("filter.apply", "data", .obj [("filter", .or .null FILTER)]),
  ("style.set", "style", .tagged "property" [
    ("fillColor", [("value", COLOUR)]),
    ("outlineColor", [("value", COLOUR)]),
    ("fillOpacity", [("value", .num MAX_OPACITY)]),
    ("outlineWidth", [("value", WIDTH)])])]

example : REGISTRY.length = ACTIONS := rfl

def HEADER : Shape :=
  .obj [
    ("format", .word ["spatial-steps"]),
    ("version", .int 1 1),
    ("purpose", .word ["session-history"]),
    ("project", .or (.state ["not-yet-saved"]) (.hex "spatial://project/" 32)),
    ("actions", .int 1 1000000),
    ("datasets", .list .any 8),
    ("lineage", .null)]

def REVERSIBILITY : Shape := .word ["reversible", "compensatable", "irreversible"]

def DEPENDENCIES : Shape :=
  .obj [
    ("fields", .stateOr (.list (.obj [("name", TEXT), ("type", TEXT)]) MAX_ITEMS)),
    ("crs", .stateOr (.obj [
      ("identifier", TEXT),
      ("provenance", .word ["crs:declared", "crs:asserted", "crs:format-default"]),
      ("definition", .or (.state ["none-admitted"]) HASH)])),
    ("geometry_types", .or (.state ["not-declared"]) (.list TEXT MAX_ITEMS))]

def LINK : Shape :=
  .tagged "rel" [
    ("audit-record", [("ref", TEXT), ("held", .word ["machine"])]),
    ("snapshot", [("ref", HASH)])]

def STEP : Shape :=
  .obj [
    ("id", ID),
    ("parent", .or .null ID),
    ("at", .timestamp),
    ("kind", .word ["data", "scope", "style", "snapshot", "export"]),
    ("effect", .tagged "class" [
      ("workspace-mutation", []),
      ("pure-transformation", []),
      ("external-side-effect", [("reversibility", REVERSIBILITY)])]),
    ("actor", .tagged "kind" [
      ("user", []),
      ("ai", [("id", TEXT)]),
      ("plugin", [("id", TEXT)])]),
    ("intent", .obj [("action", TEXT), ("params", .any)]),
    ("dependencies", DEPENDENCIES),
    ("data", .obj [
      ("dataset", .hex "spatial://dataset/ref/" 32),
      ("identity", .or (.obj [("observed", .observed)]) (.obj [("content_hash", HASH)]))]),
    ("scope", .obj [("kind", .word ["layer"])]),
    ("links", .list LINK 16)]

def MARK : Shape :=
  .tagged "kind" [
    ("saved-here", [("after", ID), ("at", .timestamp)]),
    ("restored", [("to", ID), ("at", .timestamp)])]

end Shape

/-- `v[key]` of a value: null where there is no such member. -/
def member (v : Value) (key : String) : Value := (v.get key).getD .null

/-- `{words:?}` for words without anything to escape. -/
def debugWords (words : List String) : String :=
  "[" ++ ", ".intercalate (words.map fun w => "\"" ++ w ++ "\"") ++ "]"

/-- The character that must stand at a place of a timestamp, where it is not a digit. -/
def timestampMark : Nat → Option Char
  | 4 | 7 => some '-'
  | 10 => some 'T'
  | 13 | 16 => some ':'
  | 19 => some 'Z'
  | _ => none

def isTimestamp (s : String) : Bool :=
  s.length == 20 && s.toList.zipIdx.all fun c =>
    match timestampMark c.2 with
    | some mark => mark == c.1
    | none => c.1.isDigit

section

-- `Display` of a double.
variable (display : F64 → String)

def checkText (v : Value) (path : String) (max : Nat) : Except RefParseError Unit := do
  let s ← bounded v path max
  if s = "" then malformed path "expected text" else .ok ()

def checkHex (v : Value) (path start : String) (n : Nat) : Except RefParseError Unit := do
  let s ← bounded v path MAX_TEXT
  if ((Text.stripPrefix s start).map (Text.isLowerHexOf n)).getD false then .ok ()
  else malformed path ("expected \x60" ++ start ++ "\x60 and " ++ toString n ++
    " lowercase hex characters")

def checkTimestamp (v : Value) (path : String) : Except RefParseError Unit := do
  let s ← bounded v path 32
  if isTimestamp s then .ok () else malformed path "expected RFC 3339, UTC, whole seconds"

def checkWord (v : Value) (path : String) (words : List String) : Except RefParseError Unit := do
  let w ← bounded v path MAX_TEXT
  if w ∈ words then .ok ()
  else malformed path ("\x60" ++ w ++ "\x60 is not one of " ++ debugWords words)

def checkInt (v : Value) (path : String) (lo hi : Nat) : Except RefParseError Unit :=
  if (v.asU64.map fun n => decide (lo ≤ n.toNat ∧ n.toNat ≤ hi)).getD false then .ok ()
  else malformed path ("expected an integer from " ++ toString lo ++ " to " ++ toString hi)

def checkNum (v : Value) (path : String) (max : F64) : Except RefParseError Unit :=
  if ((asF64 v).map fun x => F64.zero.le x && x.le max).getD false then .ok ()
  else malformed path ("expected a number from 0 to " ++ display max)

def checkState (v : Value) (path : String) (words : List String) : Except RefParseError Unit := do
  let o ← closed v path ["state", "basis"]
  let word ← bounded (index o "state") (joinKey path "state") MAX_TEXT
  if word = "" ∨ ¬(words = [] ∨ word ∈ words) then
    malformed path ("\x60" ++ word ++ "\x60 is not a state word here")
  else checkText (index o "basis") (joinKey path "basis") MAX_TEXT

mutual

/-- Check a value against a shape. -/
def check (v : Value) (path : String) : Shape → Except RefParseError Unit
  | .null => if v.isNull then .ok () else malformed path "expected null"
  | .any => .ok ()
  | .text max => checkText v path max
  | .hex start n => checkHex v path start n
  | .timestamp => checkTimestamp v path
  | .observed => do
    let _ ← parseObserved v path
    return ()
  | .word words => checkWord v path words
  | .int lo hi => checkInt v path lo hi
  | .num max => checkNum display v path max
  | .state words => checkState v path words
  | .obj members => do
    let o ← closed v path (members.map Prod.fst)
    checkMembers o path members
  | .tagged tag variants => do
    let w ← bounded (member v tag) (joinKey path tag) MAX_TEXT
    checkVariants v path tag w variants
  | .list item max =>
    match v.asArray with
    | none => malformed path ("expected at most " ++ toString max ++ " entries")
    | some items =>
      if items.length ≤ max then
        items.zipIdx.forM fun x => check x.1 (path ++ "[" ++ toString x.2 ++ "]") item
      else malformed path ("expected at most " ++ toString max ++ " entries")
  | .or a b =>
    match check v path a with
    | .ok () => .ok ()
    | .error _ => check v path b
  | .stateOr inner => if (v.get "state").isSome then checkState v path [] else check v path inner
termination_by structural shape => shape

/-- The members of a closed object, each against its own shape. -/
def checkMembers (o : List (String × Value)) (path : String) :
    List (String × Shape) → Except RefParseError Unit
  | [] => .ok ()
  | (key, shape) :: members => do
    check (index o key) (joinKey path key) shape
    checkMembers o path members
termination_by structural members => members

/-- The variant under the word `w`. -/
def checkVariants (v : Value) (path tag w : String) :
    List (String × List (String × Shape)) → Except RefParseError Unit
  | [] => malformed (joinKey path tag) ("\x60" ++ w ++ "\x60 is not a known " ++ tag)
  | (name, members) :: variants =>
    if name = w then do
      let o ← closed v path (tag :: members.map Prod.fst)
      checkMembers o path members
    else checkVariants v path tag w variants
termination_by structural variants => variants

end

/-! ### What a check gives -/

variable {display} {v : Value} {path : String}

theorem member_object (o : List (String × Value)) (key : String) :
    member (.object o) key = index o key := rfl

theorem checkHex_eq_ok {start : String} {n : Nat} (h : checkHex v path start n = .ok ()) :
    ∃ s, v = .string s ∧ ∃ hex, Text.stripPrefix s start = some hex ∧
      Text.isLowerHexOf n hex = true := by
  obtain ⟨s, hs, h⟩ := bind_eq_ok.1 h
  refine ⟨s, (bounded_eq_ok hs).1, ?_⟩
  split_ifs at h with hhex
  · cases hstrip : Text.stripPrefix s start with
    | none =>
      rw [hstrip] at hhex
      cases hhex
    | some hex =>
      rw [hstrip] at hhex
      exact ⟨hex, rfl, hhex⟩
  · cases h

theorem checkMembers_eq_ok {o : List (String × Value)} {members : List (String × Shape)}
    (h : checkMembers display o path members = .ok ()) :
    ∀ m ∈ members, check display (index o m.1) (joinKey path m.1) m.2 = .ok () := by
  induction members with
  | nil =>
    intro m hm
    cases hm
  | cons m members ih =>
    rw [checkMembers] at h
    obtain ⟨_, hfirst, hrest⟩ := bind_eq_ok.1 h
    intro m' hm'
    rcases List.mem_cons.1 hm' with rfl | hm'
    · exact hfirst
    · exact ih hrest m' hm'

/-- A closed object has its members, each in its shape. -/
theorem check_obj_eq_ok {members : List (String × Shape)}
    (h : check display v path (.obj members) = .ok ()) :
    ∃ o, v = .object o ∧ (∀ m ∈ o, m.1 ∈ members.map Prod.fst) ∧
      ∀ m ∈ members, check display (index o m.1) (joinKey path m.1) m.2 = .ok () := by
  rw [check] at h
  obtain ⟨o, hclosed, h⟩ := bind_eq_ok.1 h
  obtain ⟨hv, hkeys, -⟩ := closed_eq_ok hclosed
  exact ⟨o, hv, hkeys, checkMembers_eq_ok h⟩

theorem checkVariants_eq_ok {tag w : String} {variants : List (String × List (String × Shape))}
    (h : checkVariants display v path tag w variants = .ok ()) :
    ∃ o members, v = .object o ∧ (w, members) ∈ variants ∧
      ∀ m ∈ members, check display (index o m.1) (joinKey path m.1) m.2 = .ok () := by
  induction variants with
  | nil =>
    rw [checkVariants] at h
    cases h
  | cons variant variants ih =>
    rw [checkVariants] at h
    split_ifs at h with hname
    · obtain ⟨o, hclosed, h⟩ := bind_eq_ok.1 h
      obtain ⟨hv, -, -⟩ := closed_eq_ok hclosed
      exact ⟨o, variant.2, hv, by rw [← hname]; exact List.mem_cons_self, checkMembers_eq_ok h⟩
    · obtain ⟨o, members, hv, hmem, hmembers⟩ := ih h
      exact ⟨o, members, hv, List.mem_cons_of_mem _ hmem, hmembers⟩

/-- A tagged object names one of the variants and has its members. -/
theorem check_tagged_eq_ok {tag : String} {variants : List (String × List (String × Shape))}
    (h : check display v path (.tagged tag variants) = .ok ()) :
    ∃ o w members, v = .object o ∧ index o tag = .string w ∧ (w, members) ∈ variants ∧
      ∀ m ∈ members, check display (index o m.1) (joinKey path m.1) m.2 = .ok () := by
  rw [check] at h
  obtain ⟨w, hw, h⟩ := bind_eq_ok.1 h
  obtain ⟨o, members, rfl, hmem, hmembers⟩ := checkVariants_eq_ok h
  exact ⟨o, w, members, rfl, (bounded_eq_ok hw).1, hmem, hmembers⟩

end

end SpatialIde.Kernel.SessionHistory
