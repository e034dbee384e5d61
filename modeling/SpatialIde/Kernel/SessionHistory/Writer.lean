import SpatialIde.Kernel.SessionHistory.Reader
import SpatialIde.Kernel.Skp.Error

/-! # The writer of a session history

One record: a header, then one line for each step that was recorded.  A line is checked against the
reader's rules and its ceilings before it is written; after a write or a flush has failed no later
line is taken.
-/

namespace SpatialIde.Kernel.SessionHistory

open Lib Lib.Json SpatialIde.Kernel.Skp

/-! ### Lines -/

/-- A step, as far as the record does not know it. -/
structure StepParts where
  id : String
  written : String
  kind : String
  intent : Renderer.Json
  dependencies : Renderer.Json
  observed : SourceObservation

def oneMember (key value : String) : Renderer.Json := .obj [(key, .str value)]

def stepObject (id : String) (parent : Option String) (written kind : String)
    (intent dependencies data : Renderer.Json) : Renderer.Json :=
  .obj [
    ("id", .str id),
    ("parent", match parent with
      | none => .null
      | some p => .str p),
    ("at", .str written),
    ("kind", .str kind),
    ("effect", oneMember "class" "workspace-mutation"),
    ("actor", oneMember "kind" "user"),
    ("intent", intent),
    ("dependencies", dependencies),
    ("data", data),
    ("scope", oneMember "kind" "layer"),
    ("links", .arr [])]

def headerObject (datasetEntry : Renderer.Json) : Renderer.Json :=
  .obj [
    ("format", .str "spatial-steps"),
    ("version", .int 1),
    ("purpose", .str "session-history"),
    ("project", stateJson ("not-yet-saved", "this session has not saved a project")),
    ("actions", .uint (UInt64.ofNat ACTIONS)),
    ("datasets", .arr [datasetEntry]),
    ("lineage", .null)]

section

-- `lowerExp` spells a double with an exponent.
variable (r : Reader) (lowerExp : F64 → String)

def canonical (j : Renderer.Json) : Except SkpError String :=
  match Renderer.toCanonicalString j with
  | .ok text => .ok text
  | .error e => .error (.sessionHistoryUnwritable ("no canonical spelling: " ++ e.message lowerExp))

/-- Refuse a line that the reader would refuse. -/
def readerAccepts (line : String) (header : Bool) : Except SkpError Unit :=
  let which := if header then "the header line" else "the step line"
  let refuse (rule : String) : Except SkpError Unit :=
    .error (.sessionHistoryUnwritable
      (which ++ " breaks a rule the reader holds, so it is not written: " ++ rule))
  match r.fromStr line with
  | .error e => refuse ("not JSON: " ++ e)
  | .ok v =>
    let found := if header then (checkHeader r v).map fun _ => () else
      checkStep r (member v "step") ACTIONS
    match found with
    | .ok () => .ok ()
    | .error e => refuse (r.debug e)

/-! ### The file -/

/-- What became of a write and its flush. -/
inductive Written where
  | done
  /-- Only the first `kept` bytes reached the file. -/
  | failed (kept : Nat) (detail : String)

structure History where
  /-- The bytes of the lines that were taken. -/
  bytes : Nat
  stopped : Bool
  /-- What has reached the file. -/
  file : List UInt8

def History.new : History := ⟨0, false, []⟩

/-- Write one line and its LF.  The ceilings are those of `new`. -/
def History.append (h : History) (line : String) (header : Bool) (written : Written) :
    History × Except SkpError Unit :=
  let saw := line.utf8ByteSize
  let ceiling := lineCeiling header
  if h.stopped then (h, .error .sessionHistoryStopped)
  else if saw > ceiling ∧ header = true then
    (h, .error (.sessionHistoryUnwritable ("the header is " ++ toString saw ++ " bytes")))
  else if saw > ceiling then (h, .error (.stepLineOverCeiling saw ceiling))
  else if h.bytes + saw + 1 > MAX_SESSION_HISTORY_BYTES then
    (h, .error (.sessionHistoryFull MAX_SESSION_HISTORY_BYTES))
  else
    let bytes := Text.bytes line ++ [LF]
    match written with
    | .failed kept detail =>
      ({ h with stopped := true, file := h.file ++ bytes.take kept },
        .error (.sessionHistoryUnwritable detail))
    | .done => ({ h with bytes := h.bytes + saw + 1, file := h.file ++ bytes }, .ok ())

/-- One opened file's history. -/
structure Record where
  uri : String
  history : History
  lastStep : Option String

/-- A new record, with its header.  `files` is how the folder, `locations.json` and the lock turned
out; a failure removes what was made. -/
def create (reference : DatasetRef) (files : Except SkpError Unit) (written : Written) :
    Except SkpError Record := do
  let header ← canonical lowerExp (headerObject reference.toJson)
  readerAccepts r header true
  files
  let (history, reply) := History.new.append header true written
  reply
  return ⟨reference.uri, history, none⟩

/-- A call of `record_step`: what was prepared of its step, or its refusal before the record is
reached; and how its write will turn out. -/
structure Call where
  prepared : Except SkpError StepParts
  written : Written

/-- The line of a step, which the reader accepts. -/
def stepLineOf (rec : Record) (parts : StepParts) : Except SkpError String := do
  let data := .obj [("dataset", .str rec.uri),
    ("identity", .obj [("observed", observedJson parts.observed)])]
  let step := stepObject parts.id rec.lastStep parts.written parts.kind parts.intent
    parts.dependencies data
  let line ← canonical lowerExp (.obj [("step", step)])
  readerAccepts r line false
  return line

/-- The step and its line that a call brings to the file. -/
def attempt (rec : Record) (call : Call) : Except SkpError (StepParts × String) := do
  let parts ← call.prepared
  let line ← stepLineOf r lowerExp rec parts
  return (parts, line)

def recordStep (rec : Record) (call : Call) : Record × Except SkpError Unit :=
  match attempt r lowerExp rec call with
  | .error e => (rec, .error e)
  | .ok (parts, line) =>
    let (history, reply) := rec.history.append line false call.written
    match reply with
    | .ok () => ({ rec with history := history, lastStep := some parts.id }, .ok ())
    | .error e => ({ rec with history := history }, .error e)

/-! ### Runs -/

/-- A record with what its callers have been told: the lines of the steps that were acknowledged,
and the line whose write failed, with how much of it reached the file. -/
structure Session where
  record : Record
  acknowledged : List String
  failed : Option (String × Nat)

/-- One call. -/
def Session.step (s : Session) (call : Call) : Session :=
  let (rec, reply) := recordStep r lowerExp s.record call
  match attempt r lowerExp s.record call, reply, call.written with
  | .ok (_, line), .ok (), _ => ⟨rec, s.acknowledged ++ [line], s.failed⟩
  | .ok (_, line), .error _, .failed kept _ =>
    if rec.history.stopped && !s.record.history.stopped then ⟨rec, s.acknowledged, some (line, kept)⟩
    else ⟨rec, s.acknowledged, s.failed⟩
  | _, _, _ => ⟨rec, s.acknowledged, s.failed⟩

/-- The calls of one record, one after the other. -/
def Session.run (s : Session) (calls : List Call) : Session := calls.foldl (Session.step r lowerExp) s

end

end SpatialIde.Kernel.SessionHistory
