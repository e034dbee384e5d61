import SpatialIde.Kernel.Permission.Grant
import SpatialIde.Kernel.Publish.Error
import SpatialIde.Lib.Prog
import SpatialIde.Lib.Text

/-! # The class-3 boundary

Grant, approval, intent record, execution, outcome record, and no other way through.  `execute` is a
program that asks its environment: the preflight, the file system, the clocks, the audit log, the
approval channel and the publish itself answer as they like.
-/

namespace SpatialIde.Kernel.Permission

open Lib SpatialIde.Kernel.Publish

/-! ### Records -/

inductive Outcome where
  | success
  | refused
  | cancelled
  | failed
  deriving DecidableEq, Repr

/-- The channel an approval was sought through. -/
inductive ApprovalRoute where
  | interactive
  | flag
  | shellDialog
  deriving DecidableEq, Repr

structure IntentRecord where
  attempt : String
  writtenAt : String
  operation : String
  cls : Nat
  reversibility : String
  principalKind : String
  principalName : String
  sourceName : String
  sourceContentHash : String
  destination : String
  styleHash : String
  deriving DecidableEq, Repr

structure OutcomeRecord where
  attempt : String
  writtenAt : String
  outcome : Outcome
  /-- The name of the refusal's variant, never its text. -/
  errorKind : Option String
  grantorKind : Option String
  grantorName : Option String
  grantLifetimeS : Option Nat
  grantRemainingS : Option Nat
  approvalRoute : Option ApprovalRoute
  operationDigest : Option String
  manifestHash : Option String
  rows : Option Nat
  partitions : Option Nat
  deriving DecidableEq, Repr

/-! ### Approval -/

structure ApprovalPrompt where
  operation : String
  cls : Nat
  reversibility : String
  sourceName : String
  sourceContentHash : String
  styleHash : String
  destinationDisplay : String
  /-- What must be typed. -/
  confirmationPhrase : String
  grantor : String
  grantRemainingS : Nat
  deriving DecidableEq, Repr

/-- An answer as it was given. -/
structure Approval where
  answer : String
  deriving DecidableEq, Repr

/-- The one comparison. -/
def check (prompt : ApprovalPrompt) (given : Approval) : Except PermissionError Unit :=
  if Text.trim given.answer = prompt.confirmationPhrase then .ok ()
  else .error (.approvalRefused .notMatched prompt.confirmationPhrase)

theorem check_eq_ok {prompt : ApprovalPrompt} {given : Approval} (h : check prompt given = .ok ()) :
    Text.trim given.answer = prompt.confirmationPhrase := by
  by_contra hne
  rw [check, if_neg hne] at h
  cases h

/-! ### Attempts -/

/-- What a preflight yields. -/
structure PublishPreflight where
  pinHash : String
  styleHash : String
  deriving DecidableEq, Repr

def PublishPreflight.sourceContentHash (pre : PublishPreflight) : String := "sha256:" ++ pre.pinHash

structure PublishOutcome where
  bundlePath : Path
  operationDigest : String
  rows : Nat
  partitions : Nat
  deriving DecidableEq, Repr

inductive BoundaryError where
  | permission (e : PermissionError)
  | audit (e : AuditError)
  | publish (e : PublishError)
  /-- The publish succeeded and its outcome record could not be written. -/
  | outcomeNotAudited (outcome : PublishOutcome) (path detail : String)
  deriving DecidableEq, Repr

structure PublishAttempt where
  datasetName : String
  destination : Path
  grants : GrantSet
  principal : Principal
  /-- The path of the open audit log. -/
  audit : Path

/-- What depends on the machine: how a path is recorded and shown, and how a double is spelled with
an exponent. -/
structure Machine where
  normalizeDestination : Path → String
  toStringLossy : Path → String
  windows : Bool
  lowerExp : F64 → String

def OPERATION_CLASS : Nat := 3

def REVERSIBILITY_CLASS : String := "irreversible"

/-- What `execute` asks. -/
inductive Question where
  | preflight
  | canonicalize (path : Path)
  | randomSuffix
  /-- The time of day, as text. -/
  | clock
  /-- The monotonic clock. -/
  | now
  | appendIntent (r : IntentRecord)
  | route
  | respond (prompt : ApprovalPrompt)
  | publishPrepared (pre : PublishPreflight)
  | manifestHash (bundle : Path)
  | appendOutcome (r : OutcomeRecord)
  | eprintln (text : String)

@[reducible] def Answer : Question → Type
  | .preflight => Except PublishError PublishPreflight
  | .canonicalize _ => Except String Path
  | .randomSuffix => String
  | .clock => String
  | .now => Nat
  | .appendIntent _ => Except AuditError Unit
  | .route => ApprovalRoute
  | .respond _ => Except PermissionError Approval
  | .publishPrepared _ => Except PublishError PublishOutcome
  | .manifestHash _ => Option String
  | .appendOutcome _ => Except AuditError Unit
  | .eprintln _ => Unit

abbrev Boundary := Prog Answer BoundaryError

def ask (q : Question) : Boundary (Answer q) := .query q

/-! ### What an error means -/

def permissionKind : PermissionError → String
  | .noGrant _ => "NoGrant"
  | .grantScopeMismatch _ => "GrantScopeMismatch"
  | .grantExpired _ _ => "GrantExpired"
  | .grantCeilingExceeded _ _ => "GrantCeilingExceeded"
  | .grantLifetimeExceeded _ _ => "GrantLifetimeExceeded"
  | .destinationUnresolvable _ _ => "DestinationUnresolvable"
  | .approvalRefused _ _ => "ApprovalRefused"
  | .approvalUnavailable _ => "ApprovalUnavailable"

def auditKind : AuditError → String
  | .unwritable _ _ => "AuditUnwritable"
  | .logInsideDestination _ _ => "AuditLogInsideDestination"
  | .rotationFailed _ _ => "AuditRotationFailed"
  | .controlCharacterInField _ => "AuditControlCharacterInField"
  | .credentialInRecord _ _ => "AuditCredentialInRecord"
  | .canonical _ => "AuditCanonical"

def publishKind : PublishError → String
  | .destinationExists _ => "DestinationExists"
  | .destinationNotWritable _ _ _ => "DestinationNotWritable"
  | .insufficientSpace _ _ _ => "InsufficientSpace"
  | .io _ _ _ => "Io"
  | .sourceNotPinned => "SourceNotPinned"
  | .licenseNotCarryable _ _ => "LicenseNotCarryable"
  | .licenseDeclaredTwice _ _ => "LicenseDeclaredTwice"
  | .operatorLicenseEmpty => "OperatorLicenseEmpty"
  | .viewerAssetPathRejected _ _ => "ViewerAssetPathRejected"
  | .viewerLicenseIncomplete _ => "ViewerLicenseIncomplete"
  | .viewerLicenseNoticeMissing _ _ _ => "ViewerLicenseNoticeMissing"
  | .correspondingSourceNotDurable _ => "CorrespondingSourceNotDurable"
  | .datasetNameRejected _ _ => "DatasetNameRejected"
  | .rowFilterNotRecordable => "RowFilterNotRecordable"
  | .geographicCrsNotPublishable _ _ => "GeographicCrsNotPublishable"
  | .geometryEncodingNotPublishable _ _ => "GeometryEncodingNotPublishable"
  | .sessionIdentityNotPublishable => "SessionIdentityNotPublishable"
  | .redactionFinding _ _ _ _ => "RedactionFinding"
  | .ceilingExceeded _ _ _ => "CeilingExceeded"
  | .readerCeilingExceeded _ _ _ _ => "ReaderCeilingExceeded"
  | .cancelled => "Cancelled"
  | .stagingNotRemoved _ _ _ => "StagingNotRemoved"
  | .engine _ => "Engine"
  | .style _ => "Style"
  | .canonical _ => "Canonical"

def errorKind : BoundaryError → String
  | .permission e => permissionKind e
  | .audit e => auditKind e
  | .publish e => publishKind e
  | .outcomeNotAudited _ _ _ => "OutcomeNotAudited"

/-- A failed cleanup counts as what it is wrapped around. -/
def publishOutcome : PublishError → Outcome
  | .cancelled => .cancelled
  | .stagingNotRemoved after _ _ => publishOutcome after
  | .destinationExists _ | .sourceNotPinned | .licenseNotCarryable _ _ | .licenseDeclaredTwice _ _
  | .operatorLicenseEmpty | .viewerAssetPathRejected _ _ | .viewerLicenseIncomplete _
  | .viewerLicenseNoticeMissing _ _ _ | .correspondingSourceNotDurable _
  | .datasetNameRejected _ _ | .rowFilterNotRecordable | .geographicCrsNotPublishable _ _
  | .geometryEncodingNotPublishable _ _ | .sessionIdentityNotPublishable
  | .redactionFinding _ _ _ _ | .ceilingExceeded _ _ _ | .readerCeilingExceeded _ _ _ _ => .refused
  | .destinationNotWritable _ _ _ | .insufficientSpace _ _ _ | .io _ _ _ | .engine _ | .style _
  | .canonical _ => .failed

def outcomeOf : BoundaryError → Outcome
  | .permission (.approvalUnavailable _) => .failed
  | .permission _ => .refused
  | .publish e => publishOutcome e
  | .audit _ | .outcomeNotAudited _ _ _ => .failed

/-! ### The boundary -/

section

variable (machine : Machine)

/-- Whether a path is `root` or lies beneath it, by their texts. -/
def isInside (path root : Path) : Bool :=
  let norm (p : Path) : String :=
    let slashes := (machine.toStringLossy p).map fun c => if c = '\\' then '/' else c
    let trimmed := Text.trimEndMatches slashes '/'
    if machine.windows then trimmed.map Char.toLower else trimmed
  norm path == norm root || (norm root ++ "/").toList.isPrefixOf (norm path).toList

/-- A destination that does not exist yet: its parent as the file system has it, and its name. -/
def resolveDestination (destination : Path) : Boundary Path :=
  let unresolvable (detail : String) : BoundaryError :=
    .permission (.destinationUnresolvable (machine.toStringLossy destination) detail)
  match destination.fileName with
  | none => .throw (unresolvable "it has no final path component to name a bundle")
  | some name => do
    let parent := destination.parent.getD Path.here
    let parent := if parent.isEmpty then Path.here else parent
    let resolved ← ask (.canonicalize parent)
    match resolved with
    | .error e => .throw (unresolvable ("its parent directory could not be resolved: " ++ e))
    | .ok parent => return parent.join name

/-- The phrase an operator must type: the last component. -/
def confirmationPhrase (resolved : Path) : String := resolved.fileName.getD "(unnamed)"

/-- What the outcome record knows by the time a terminal is reached. -/
structure OutcomeContext where
  attemptId : String
  grantorKind : Option String
  grantorName : Option String
  grantLifetimeS : Option Nat
  grantRemainingS : Option Nat
  approvalRoute : Option ApprovalRoute

def OutcomeContext.noteGrant (ctx : OutcomeContext) (grant : PublishGrant) (now : Nat) :
    OutcomeContext :=
  { ctx with
    grantorKind := some grant.grantedBy.kind.asStr
    grantorName := some grant.grantedBy.id
    grantLifetimeS := some (asSecs grant.lifetime)
    grantRemainingS := some (asSecs (grant.remaining now)) }

/-- The record of a failing terminal. -/
def OutcomeContext.failureRecord (ctx : OutcomeContext) (writtenAt : String) (e : BoundaryError) :
    OutcomeRecord :=
  { attempt := ctx.attemptId
    writtenAt := writtenAt
    outcome := outcomeOf e
    errorKind := some (errorKind e)
    grantorKind := ctx.grantorKind
    grantorName := ctx.grantorName
    grantLifetimeS := ctx.grantLifetimeS
    grantRemainingS := ctx.grantRemainingS
    approvalRoute := ctx.approvalRoute
    operationDigest := none
    manifestHash := none
    rows := none
    partitions := none }

/-- The record of a publish that succeeded. -/
def OutcomeContext.successRecord (ctx : OutcomeContext) (writtenAt : String)
    (manifestHash : Option String) (outcome : PublishOutcome) : OutcomeRecord :=
  { attempt := ctx.attemptId
    writtenAt := writtenAt
    outcome := .success
    errorKind := none
    grantorKind := ctx.grantorKind
    grantorName := ctx.grantorName
    grantLifetimeS := ctx.grantLifetimeS
    grantRemainingS := ctx.grantRemainingS
    approvalRoute := ctx.approvalRoute
    operationDigest := some outcome.operationDigest
    manifestHash := manifestHash
    rows := some outcome.rows
    partitions := some outcome.partitions }

variable (attempt : PublishAttempt)

/-- Write the outcome record of a failing terminal.  A failure to write it is shown and replaces
nothing. -/
def finish (ctx : OutcomeContext) (e : BoundaryError) : Boundary BoundaryError := do
  let writtenAt ← ask .clock
  let written ← ask (.appendOutcome (ctx.failureRecord writtenAt e))
  match written with
  | .ok () => return e
  | .error audit => do
    ask (.eprintln ("[publish] the outcome record could not be written to " ++
      machine.normalizeDestination attempt.audit ++ ": " ++ audit.message machine.lowerExp ++
      ". The audit log now shows an attempt with no ending"))
    return e

/-- `return Err(finish(..))`. -/
def refuse (ctx : OutcomeContext) (e : BoundaryError) : Boundary PublishOutcome := do
  let e ← finish machine attempt ctx e
  .throw e

/-- A publish succeeded. -/
def succeed (ctx : OutcomeContext) (outcome : PublishOutcome) : Boundary PublishOutcome := do
  let manifestHash ← ask (.manifestHash outcome.bundlePath)
  let writtenAt ← ask .clock
  let written ← ask (.appendOutcome (ctx.successRecord writtenAt manifestHash outcome))
  match written with
  | .ok () => return outcome
  | .error e => .throw (.outcomeNotAudited outcome (machine.normalizeDestination attempt.audit)
      (e.message machine.lowerExp))

/-- The operation itself, once it is authorized and confirmed. -/
def operate (ctx : OutcomeContext) (pre : PublishPreflight) : Boundary PublishOutcome := do
  let result ← ask (.publishPrepared pre)
  match result with
  | .ok outcome => succeed machine attempt ctx outcome
  | .error e => refuse machine attempt ctx (.publish e)

/-- The approval, and the grant again against a fresh clock. -/
def confirm (ctx : OutcomeContext) (pre : PublishPreflight) (facts : OperationFacts)
    (grant : PublishGrant) (now : Nat) : Boundary PublishOutcome := do
  let prompt : ApprovalPrompt :=
    { operation := OPERATION
      cls := OPERATION_CLASS
      reversibility := REVERSIBILITY_CLASS
      sourceName := attempt.datasetName
      sourceContentHash := facts.contentHash
      styleHash := pre.styleHash
      destinationDisplay := machine.toStringLossy facts.destination
      confirmationPhrase := confirmationPhrase facts.destination
      grantor := grant.grantedBy.kind.asStr ++ " " ++ grant.grantedBy.id
      grantRemainingS := asSecs (grant.remaining now) }
  let route ← ask .route
  let ctx := { ctx with approvalRoute := some route }
  let given ← ask (.respond prompt)
  match given with
  | .error e => refuse machine attempt ctx (.permission e)
  | .ok given =>
    match check prompt given with
    | .error e => refuse machine attempt ctx (.permission e)
    | .ok () => do
      let now ← ask .now
      match attempt.grants.find machine.normalizeDestination facts now with
      | .error e => refuse machine attempt ctx (.permission e)
      | .ok grant => operate machine attempt (ctx.noteGrant grant now) pre

/-- What follows the intent record: every way out of it writes an outcome record. -/
def gated (attemptId : String) (pre : PublishPreflight) (facts : OperationFacts) :
    Boundary PublishOutcome := do
  let ctx : OutcomeContext := ⟨attemptId, none, none, none, none, none⟩
  let now ← ask .now
  match attempt.grants.find machine.normalizeDestination facts now with
  | .error e => refuse machine attempt ctx (.permission e)
  | .ok grant => confirm machine attempt (ctx.noteGrant grant now) pre facts grant now

/-- The intent record, and what follows it. -/
def record (pre : PublishPreflight) (facts : OperationFacts) : Boundary PublishOutcome := do
  let attemptId ← ask .randomSuffix
  let writtenAt ← ask .clock
  let written ← ask (.appendIntent
    { attempt := attemptId
      writtenAt := writtenAt
      operation := OPERATION
      cls := OPERATION_CLASS
      reversibility := REVERSIBILITY_CLASS
      principalKind := attempt.principal.kind.asStr
      principalName := attempt.principal.id
      sourceName := attempt.datasetName
      sourceContentHash := facts.contentHash
      destination := machine.normalizeDestination facts.destination
      styleHash := pre.styleHash })
  match written with
  | .error e => .throw (.audit e)
  | .ok () => gated machine attempt attemptId pre facts

/-- Run one operation through the boundary. -/
def execute : Boundary PublishOutcome := do
  let pre ← ask .preflight
  match pre with
  | .error e => .throw (.publish e)
  | .ok pre => do
    let destination ← resolveDestination machine attempt.destination
    let facts : OperationFacts :=
      { operation := .publish
        datasetName := attempt.datasetName
        contentHash := pre.sourceContentHash
        destination := destination }
    if isInside machine attempt.audit destination then
      .throw (.audit (.logInsideDestination (machine.normalizeDestination attempt.audit)
        (machine.normalizeDestination destination)))
    else record machine attempt pre facts

end

end SpatialIde.Kernel.Permission
