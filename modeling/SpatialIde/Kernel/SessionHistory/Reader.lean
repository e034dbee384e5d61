import SpatialIde.Kernel.SessionHistory.Shape
import SpatialIde.Lib.Lines

/-! # The reader of a session history

`recoverBytes` reads the longest valid prefix of a history: the lines, from the header on, that end
in LF, hold no NUL, parse, have their shapes, and chain.  The first line that fails is named and
nothing behind it is read.
-/

namespace SpatialIde.Kernel.SessionHistory

open Lib Lib.Json

/-- LF. -/
def LF : UInt8 := 10

/-- What the reader uses of its libraries. -/
structure Reader where
  /-- `serde_json::from_str::<Value>`, its error as its text. -/
  fromStr : String → Except String Value
  /-- `serde_json::from_str::<String>`. -/
  stringFromStr : String → Except String String
  /-- The `Display` of a double. -/
  display : F64 → String
  /-- The `Display` of a refusal, which is its `Debug`. -/
  debug : RefParseError → String

structure Header where
  actions : Nat
  datasets : List DatasetRef
  deriving DecidableEq, Repr

/-- `line` counts from one. -/
structure Failure where
  line : Nat
  rule : String
  deriving DecidableEq, Repr

/-- The header, the kept lines without their LF, and the first line that failed. -/
structure Recovered where
  header : Option Header
  lines : List String
  failure : Option Failure
  deriving DecidableEq, Repr

/-- Where a line chains. -/
structure Chain where
  actions : Nat
  /-- The ids of the steps. -/
  seen : List String
  last : Option String
  /-- What the next step's `parent` must be. -/
  parent : Option String
  deriving DecidableEq, Repr

def Chain.default : Chain := ⟨0, [], none, none⟩

/-! ### Duplicate keys -/

/-- A string from behind its first quote to its last, and what is behind it. -/
def stringSpan : List Char → Option (List Char × List Char)
  | [] => none
  | '"' :: rest => some (['"'], rest)
  | '\\' :: c :: rest => (stringSpan rest).map fun s => ('\\' :: c :: s.1, s.2)
  | c :: rest => (stringSpan rest).map fun s => (c :: s.1, s.2)

section

variable (r : Reader)

/-- The scan of a text for an object with two equal keys; an open object has the list of its keys on
the stack.  The characters it looks for are ASCII, so they stand for the bytes.  `fuel` is at least
the length of the text. -/
def scanKeys : Nat → List (Option (List String)) → List Char → Bool
  | 0, _, _ => false
  | _, _, [] => false
  | fuel + 1, stack, c :: rest =>
    if c = '\x7b' then scanKeys fuel (some [] :: stack) rest
    else if c = '[' then scanKeys fuel (none :: stack) rest
    else if c = '\x7d' ∨ c = ']' then scanKeys fuel stack.tail rest
    else if c = '"' then
      match stringSpan rest with
      -- Beyond the end of the text, where a text that is JSON does not get.
      | none => false
      | some (text, rest) =>
        let isKey := (Text.trimStartOf Text.isWhitespace rest).head? == some ':'
        match isKey, stack with
        | true, some keys :: stack =>
          let key := match r.stringFromStr (String.ofList ('"' :: text)) with
            | .ok key => key
            | .error _ => ""
          if key ∈ keys then true else scanKeys fuel (some (keys ++ [key]) :: stack) rest
        | _, stack => scanKeys fuel stack rest
    else scanKeys fuel stack rest

def hasDuplicateKey (text : String) : Bool := scanKeys r text.length [] text.toList

/-! ### Members -/

/-- The closed shape of a header, then each dataset entry. -/
def checkHeader (v : Value) : Except RefParseError (List DatasetRef) := do
  check r.display v "$" Shape.HEADER
  match (member v "datasets").asArray with
  | some (item :: items) => (item :: items).mapM DatasetRef.parse
  | _ => malformed "$.datasets" "expected one to eight entries"

/-- A registered action's `params` against its shape; an action that is not registered only where
the file registers more actions than this reader. -/
def checkIntent (intent : Value) (kind : String) (actions : Nat) : Except RefParseError Unit :=
  let action := (intent.getStr "action").getD ""
  match Shape.REGISTRY.find? fun a => a.1 = action with
  | some (_, k, params) =>
    if k = kind then check r.display (member intent "params") "$.step.intent.params" params
    else malformed "$.step.kind" ("\x60" ++ action ++ "\x60 is a \x60" ++ k ++ "\x60 step")
  | none =>
    if actions > ACTIONS then .ok ()
    else malformed "$.step.intent.action" ("\x60" ++ action ++
      "\x60 is not registered, and \x60actions\x60 " ++ toString actions ++
      " is not greater than " ++ toString ACTIONS)

def checkStep (step : Value) (actions : Nat) : Except RefParseError Unit := do
  check r.display step "$.step" Shape.STEP
  checkIntent r (member step "intent") ((step.getStr "kind").getD "") actions

/-! ### Lines -/

/-- The most bytes of a line, without its LF. -/
def lineCeiling (first : Bool) : Nat := if first then MAX_HEADER_LINE_BYTES else MAX_STEP_LINE_BYTES

/-- The text of a line: it ends in LF, is within its ceiling, holds no NUL and is UTF-8. -/
def lineText (raw : List UInt8) (first : Bool) : Except RefParseError String :=
  if raw.getLast? ≠ some LF then malformed "$" "the line does not end in LF: a torn write"
  else
    let body := raw.dropLast
    let ceiling := lineCeiling first
    if body.length > ceiling then malformed "$" ("the line passes " ++ toString ceiling ++ " bytes")
    else if 0 ∈ body then malformed "$" "the line holds a NUL"
    else
      match Text.fromUtf8 body with
      | none => malformed "$" "the line is not UTF-8"
      | some text => .ok text

/-- The value of a line: it parses, and no object holds a key twice. -/
def lineValue (text : String) : Except RefParseError Value :=
  match r.fromStr text with
  | .error e => malformed "$" ("not JSON: " ++ e)
  | .ok v =>
    if hasDuplicateKey r text then
      malformed "$" "an object holds a duplicate key (ADR-036 §2)"
    else .ok v

/-- The key of an object with one member. -/
def onlyKey (v : Value) : Option String :=
  match v with
  | .object [m] => some m.1
  | _ => none

/-- The chain behind a step. -/
def readStep (step : Value) (chain : Chain) : Except RefParseError Chain := do
  checkStep r step chain.actions
  if step.getStr "parent" ≠ chain.parent then
    malformed "$.step.parent" ("a step's parent is the id of the step before it or, after a " ++
      "restored mark, the mark's \x60to\x60")
  else
    let last := step.getStr "id"
    return { chain with last := last, seen := chain.seen ++ last.toList, parent := last }

/-- The chain behind a mark. -/
def readMark (mark : Value) (chain : Chain) : Except RefParseError Chain := do
  check r.display mark "$.mark" Shape.MARK
  if mark.getStr "kind" = some "saved-here" ∧ mark.getStr "after" ≠ chain.last then
    malformed "$.mark.after" "\x60after\x60 is the last step before the mark"
  else if mark.getStr "kind" = some "restored" then
    let target := (mark.getStr "to").getD ""
    if target ∉ chain.seen then
      malformed "$.mark.to" "\x60to\x60 is the id of a step before the mark"
    else return { chain with parent := some target }
  else return chain

/-- One line: its text, and the chain and the header behind it. -/
def readLine (raw : List UInt8) (first : Bool) (chain : Chain) (header : Option Header) :
    Except RefParseError (String × Chain × Option Header) := do
  let text ← lineText raw first
  let v ← lineValue r text
  if first then
    let datasets ← checkHeader r v
    let actions := ((member v "actions").asU64.map UInt64.toNat).getD 0
    return (text, { chain with actions := actions }, some ⟨actions, datasets⟩)
  else if onlyKey v = some "step" then
    let chain ← readStep r (member v "step") chain
    return (text, chain, header)
  else if onlyKey v = some "mark" then
    let chain ← readMark r (member v "mark") chain
    return (text, chain, header)
  else malformed "$" "a line holds exactly one of \x60step\x60 or \x60mark\x60"

/-- The lines behind the first `n`, which have `total` bytes. -/
def recoverLines (n total : Nat) (chain : Chain) (out : Recovered) : List (List UInt8) → Recovered
  | [] =>
    if n = 0 then { out with failure := some ⟨1, "the file holds no header line"⟩ } else out
  | raw :: raws =>
    let total := total + raw.length
    let line := if total > MAX_SESSION_HISTORY_BYTES then
        malformed "$" ("the history passes " ++ toString MAX_SESSION_HISTORY_BYTES ++ " bytes")
      else readLine r raw (n == 0) chain out.header
    match line with
    | .ok (text, chain, header) =>
      recoverLines (n + 1) total chain { out with header := header, lines := out.lines ++ [text] }
        raws
    | .error e => { out with failure := some ⟨n + 1, r.debug e⟩ }

/-- `recover_bytes`. -/
def recoverBytes (bytes : List UInt8) : Recovered :=
  recoverLines r 0 0 Chain.default ⟨none, [], none⟩ (splitInclusive LF bytes)

end

end SpatialIde.Kernel.SessionHistory
