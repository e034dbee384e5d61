import SpatialIde.Lib.Json
import SpatialIde.Lib.Lines
import SpatialIde.Lib.OrderedMap
import SpatialIde.Lib.Text

/-! # The audit log's reader

`render_audit_log` reads a log line by line, pairs an outcome with the intent that waits for it and
says every line in plain words.  An intent and an outcome keep the number of their line here; no
sentence shows it.  `serde_json::from_str` is a parameter.
-/

namespace SpatialIde.Kernel.Permission.Audit

open Lib Lib.Json

def AUDIT_SCHEMA : String := "spatial-audit/1"

structure Intent where
  «at» : String
  destination : String
  deriving DecidableEq, Repr

def Intent.fromJson (v : Value) : Option Intent := do
  return ⟨← v.getStr "at", ← v.getStr "destination"⟩

structure Outcome where
  «at» : String
  outcome : String
  errorKind : Option String
  approvalRoute : Option String
  rows : Option UInt64
  partitions : Option UInt64
  deriving DecidableEq, Repr

def Outcome.fromJson (v : Value) : Option Outcome := do
  return {
    «at» := ← v.getStr "at"
    outcome := ← v.getStr "outcome"
    errorKind := v.getStr "error_kind"
    -- `approval` is the earlier spelling, read only where the later one is absent.
    approvalRoute := ((v.get "approval_route").or (v.get "approval")).bind Value.asStr
    rows := (v.get "rows").bind Value.asU64
    partitions := (v.get "partitions").bind Value.asU64 }

/-! ### Plain words -/

/-- The characters before a byte offset that falls between two characters, and the others. -/
def splitAtByte : Nat → List Char → Option (List Char × List Char)
  | 0, cs => some ([], cs)
  | _ + 1, [] => none
  | n + 1, c :: cs =>
    if c.utf8Size ≤ n + 1 then (splitAtByte (n + 1 - c.utf8Size) cs).map fun (l, r) => (c :: l, r)
    else none

def plainDate (time : String) : String :=
  match splitAtByte 16 time.toList with
  | some (head, _) =>
    match splitAtByte 10 head with
    | some (date, 'T' :: minutes) => String.ofList date ++ " " ++ String.ofList minutes
    | _ => time
  | none => time

def plainRoute (route : String) : String :=
  match route with
  | "shell-dialog" => "shell dialog"
  | "interactive" => "an interactive prompt"
  | "flag" => "the --approve flag"
  | other => other

/-- What `plain_reason` says of the error kinds it knows. -/
def REASONS : List (String × String) :=
  [
    ("NoGrant", "no grant authorized this publish"),
    ("GrantScopeMismatch", "the grant did not cover this operation"),
    ("GrantExpired", "the matching grant had expired"),
    ("GrantCeilingExceeded", "the declared grant ceiling was reached"),
    ("GrantLifetimeExceeded", "the requested grant lifetime exceeded the declared ceiling"),
    ("DestinationUnresolvable", "the destination could not be resolved"),
    ("ApprovalRefused",
      "the confirmation did not match the destination (wrong phrase, or none given)"),
    ("ApprovalUnavailable", "the approval channel failed (not an operator decision)"),
    ("AuditUnwritable", "the audit log itself could not be written"),
    ("AuditLogInsideDestination", "the audit log path resolved inside the destination"),
    ("AuditRotationFailed", "the audit log could not be rotated"),
    ("AuditControlCharacterInField", "a record field contained a control character"),
    ("AuditCredentialInRecord", "a credential was found in the record and refused"),
    ("AuditCanonical", "the record could not be serialized"),
    ("DestinationExists", "the destination already exists"),
    ("DestinationNotWritable", "the destination was not writable"),
    ("InsufficientSpace", "there was not enough disk space"),
    ("Io", "an I/O error occurred"),
    ("SourceNotPinned", "the source was not content-pinned before publishing"),
    ("LicenseNotCarryable", "the source's license could not be carried forward"),
    ("LicenseDeclaredTwice", "a license was declared twice"),
    ("OperatorLicenseEmpty", "an empty operator license was declared"),
    ("ViewerAssetPathRejected", "a viewer asset path was rejected"),
    ("ViewerLicenseIncomplete", "the viewer license was incomplete"),
    ("ViewerLicenseNoticeMissing", "the viewer's own notice file was missing"),
    ("CorrespondingSourceNotDurable", "the corresponding-source route was not durable"),
    ("DatasetNameRejected", "the dataset name was rejected"),
    ("RowFilterNotRecordable", "the active row filter cannot be recorded in this bundle format"),
    ("GeographicCrsNotPublishable",
      "the dataset's coordinates are in degrees, which the bundled viewer cannot render"),
    ("CeilingExceeded", "a declared ceiling was exceeded"),
    ("RedactionFinding",
      "the redaction scan found a local filesystem path, user name, machine identifier or " ++
      "credential in the staged bundle"),
    ("StagingNotRemoved", "the operation failed and left a staging directory behind"),
    ("Engine", "an engine-level error occurred"),
    ("Style", "a style error occurred"),
    ("Canonical", "the operation could not be serialized")]

def plainReason (kind : String) : String :=
  (REASONS.lookup kind).getD
    ("\x60" ++ kind ++ "\x60 (not one of the reasons this reader recognizes)")

def renderPair (intent : Intent) (outcome : Outcome) : String :=
  let head := plainDate outcome.at ++ " — publish to " ++ intent.destination ++ " —"
  let reason := (outcome.errorKind.map plainReason).getD "no reason was recorded"
  match outcome.outcome with
  | "success" =>
    let rows := (outcome.rows.map fun r => toString r.toNat).getD "an unrecorded number of"
    let partitions := (outcome.partitions.getD 0).toNat
    let noun := if partitions = 1 then "partition" else "partitions"
    let route := (outcome.approvalRoute.map plainRoute).getD "an unrecorded route"
    head ++ " APPROVED via " ++ route ++ " and SUCCEEDED (" ++ rows ++ " rows, " ++
      toString partitions ++ " " ++ noun ++ ")"
  | "refused" => head ++ " REFUSED: " ++ reason
  | "cancelled" =>
    head ++ " CANCELLED — the operation was stopped before it finished (an operator's own " ++
      "cancel, or a Ctrl-C)"
  | "failed" => head ++ " FAILED: " ++ reason
  | other =>
    head ++ " outcome \x60" ++ other ++ "\x60 (not one of success/refused/cancelled/failed this " ++
      "reader recognizes — reported as itself, not guessed at)"

def renderOrphanIntent (intent : Intent) : String :=
  plainDate intent.at ++ " — publish to " ++ intent.destination ++
    " — intent recorded, no outcome (interrupted?)"

def renderOrphanOutcome (attempt : String) (outcome : Outcome) : String :=
  plainDate outcome.at ++ " — attempt " ++ attempt ++
    " — outcome recorded with no matching intent (destination unknown) — outcome: " ++ outcome.outcome

def describe : Option String → String
  | some s => "\x60" ++ s ++ "\x60"
  | none => "absent"

/-! ### Reading a line -/

/-- What a line reads as. -/
inductive Reading where
  | blank
  | corrupt (what : String)
  | intent (attempt : String) (intent : Intent)
  | outcome (attempt : String) (outcome : Outcome)
  deriving DecidableEq, Repr

section

variable (fromStr : String → Except String Value)

/-- One turn of the loop, up to what it does with the record. -/
def readLine (raw : String) : Reading :=
  if Text.trim raw = "" then .blank
  else
    match fromStr raw with
    | .error e => .corrupt ("does not parse as JSON (" ++ e ++ ")")
    | .ok value =>
      let schema := value.getStr "schema"
      if schema ≠ some AUDIT_SCHEMA then
        .corrupt ("not a " ++ AUDIT_SCHEMA ++ " record (schema is " ++ describe schema ++ ")")
      else
        match value.getStr "attempt" with
        | none => .corrupt ("a " ++ AUDIT_SCHEMA ++ " record with no \x60attempt\x60 id")
        | some attempt =>
          match value.getStr "phase" with
          | some "intent" =>
            match Intent.fromJson value with
            | some intent => .intent attempt intent
            | none => .corrupt "an intent record missing \x60at\x60 or \x60destination\x60"
          | some "outcome" =>
            match Outcome.fromJson value with
            | some outcome => .outcome attempt outcome
            | none => .corrupt "an outcome record missing \x60at\x60 or \x60outcome\x60"
          | other =>
            .corrupt ("a " ++ AUDIT_SCHEMA ++ " record with an unrecognized \x60phase\x60 (" ++
              describe other ++ ")")

end

/-! ### Pairing -/

/-- A record with the number of its line. -/
structure Numbered (α : Type) where
  lineNo : Nat
  record : α
  deriving DecidableEq, Repr

/-- One line of the output. -/
inductive Sentence where
  | corrupt (lineNo : Nat) (what : String)
  | pair (intent : Numbered Intent) (outcome : Numbered Outcome)
  | orphanIntent (intent : Numbered Intent)
  | orphanOutcome (attempt : String) (outcome : Numbered Outcome)
  deriving DecidableEq, Repr

def Sentence.render : Sentence → String
  | corrupt lineNo what =>
    "line " ++ toString lineNo ++ ": CORRUPT — " ++ what ++ "; reported, not skipped"
  | pair intent outcome => renderPair intent.record outcome.record
  | orphanIntent intent => renderOrphanIntent intent.record
  | orphanOutcome attempt outcome => renderOrphanOutcome attempt outcome.record

/-- The locals of the loop. -/
structure State where
  pending : OrderedMap String (Numbered Intent)
  /-- The attempts that had a pending intent, as they were first seen. -/
  order : List String
  out : List Sentence

def State.new : State := ⟨OrderedMap.empty, [], []⟩

def State.push (st : State) (sentence : Sentence) : State :=
  { st with out := st.out ++ [sentence] }

/-- What the loop does with the record of a line. -/
def State.take (st : State) : Reading × Nat → State
  | (.blank, _) => st
  | (.corrupt what, lineNo) => st.push (.corrupt lineNo what)
  | (.intent attempt intent, lineNo) =>
    { st with
      order := if attempt ∈ st.pending.keys then st.order else st.order ++ [attempt]
      pending := st.pending.set attempt ⟨lineNo, intent⟩ }
  | (.outcome attempt outcome, lineNo) =>
    match st.pending.get attempt with
    | some intent =>
      { st with pending := st.pending.delete attempt }.push (.pair intent ⟨lineNo, outcome⟩)
    | none => st.push (.orphanOutcome attempt ⟨lineNo, outcome⟩)

/-- The pass after the loop, for one attempt of `order`. -/
def State.orphan (st : State) (attempt : String) : State :=
  match st.pending.get attempt with
  | some intent => { st with pending := st.pending.delete attempt }.push (.orphanIntent intent)
  | none => st

/-- The loop over the lines, which are numbered from 1. -/
def scan (readings : List Reading) : State := (readings.zipIdx 1).foldl State.take State.new

def sentences (readings : List Reading) : List Sentence :=
  ((scan readings).order.foldl State.orphan (scan readings)).out

/-- `str::lines`. -/
def lines (text : String) : List String :=
  (splitInclusive '\n' text.toList).map fun line =>
    String.ofList
      (if line.getLast? = some '\n' then
        if line.dropLast.getLast? = some '\r' then line.dropLast.dropLast else line.dropLast
      else line)

section

variable (fromStr : String → Except String Value)

def readings (text : String) : List Reading := (lines text).map (readLine fromStr)

def renderAuditLog (text : String) : List String :=
  (sentences (readings fromStr text)).map Sentence.render

/-- The log's bytes as `audit_show_lines` hands them on: `read_to_string` refuses a file that is not
UTF-8. -/
def readLog (bytes : List UInt8) : Option (List Reading) :=
  (Text.fromUtf8 bytes).map (readings fromStr)

end

end SpatialIde.Kernel.Permission.Audit
