import SpatialIde.Kernel.Permission.Boundary
import SpatialIde.Lib.OrderedMap

/-! # The shell's publish seam

`prepare_with_query` mints a grant into a shared set and stashes a pending attempt;
`execute_with_progress` takes the attempt, copies its grant into a set of its own and runs the
boundary.  Calls of both overlap: each critical section of the two stores is one step, and so is
each stretch of a call between them.  A grant is numbered by the prompt it was minted for; no step
compares the number with anything but itself.
-/

namespace SpatialIde.Shell.Publish

open Lib SpatialIde.Kernel SpatialIde.Kernel.Permission SpatialIde.Kernel.Publish

deriving instance DecidableEq for Question

/-- Ten minutes. -/
def PENDING_ATTEMPT_TTL : Nat := 600 * NANOS_PER_SEC

/-! ### The shared grants -/

structure Minted where
  call : Nat
  grant : PublishGrant
  deriving DecidableEq, Repr

/-- A `GrantSet` whose grants are numbered. -/
structure Held where
  minted : List Minted
  length_le : minted.length ≤ MAX_GRANTS

namespace Held

def empty : Held := ⟨[], Nat.zero_le _⟩

/-- The set itself. -/
def set (held : Held) : GrantSet :=
  ⟨held.minted.map Minted.grant, by rw [List.length_map]; exact held.length_le⟩

def calls (held : Held) : List Nat := held.minted.map Minted.call

def add (held : Held) (m : Minted) : Except PermissionError Held :=
  if h : held.minted.length < MAX_GRANTS then
    .ok ⟨held.minted ++ [m], by rw [List.length_append]; exact h⟩
  else .error (.grantCeilingExceeded "MAX_GRANTS" MAX_GRANTS)

def pruneExpired (held : Held) (now : Nat) : Held :=
  ⟨held.minted.filter fun m => !m.grant.expired now,
    Nat.le_trans (List.length_filter_le _ _) held.length_le⟩

variable (normalize : Path → String)

def removeMatching (held : Held) (facts : OperationFacts) : Held :=
  ⟨held.minted.filter fun m =>
      m.grant.operation != facts.operation || (m.grant.scopeMismatch normalize facts).isSome,
    Nat.le_trans (List.length_filter_le _ _) held.length_le⟩

/-- The grant `GrantSet::find` finds, where it finds one. -/
def find (held : Held) (facts : OperationFacts) (now : Nat) : Option Minted :=
  held.minted.find? fun m =>
    (m.grant.operation == facts.operation && (m.grant.scopeMismatch normalize facts).isNone) &&
      !m.grant.expired now

/-! The numbers change nothing. -/

theorem mem_removeMatching {held : Held} {facts : OperationFacts} {m : Minted} :
    m ∈ (held.removeMatching normalize facts).minted ↔
      m ∈ held.minted ∧ ¬m.grant.Covers facts := by
  rw [removeMatching, List.mem_filter, @PublishGrant.covers_iff normalize]
  refine and_congr_right fun _ => ?_
  rw [Bool.or_eq_true, bne_iff_ne, not_and_or, Option.isSome_iff_ne_none]

theorem of_find {held : Held} {facts : OperationFacts} {now : Nat} {m : Minted}
    (h : held.find normalize facts now = some m) :
    m ∈ held.minted ∧ m.grant.Covers facts ∧ m.grant.expired now = false := by
  have hp := List.find?_some h
  rw [Bool.and_eq_true, Bool.and_eq_true, beq_iff_eq, Option.isNone_iff_eq_none] at hp
  exact ⟨List.mem_of_find?_eq_some h,
    (@PublishGrant.covers_iff normalize _ _).2 hp.1, by simpa using hp.2⟩

end Held

/-! ### Attempts -/

/-- What `prepare` was asked to publish. -/
structure Request where
  datasetName : String
  destination : Path
  principal : Principal
  deriving DecidableEq, Repr

structure PendingAttempt where
  call : Nat
  request : Request
  createdAt : Nat
  deriving DecidableEq, Repr

abbrev PendingAttempts := OrderedMap String PendingAttempt

namespace PendingAttempts

def insert (store : PendingAttempts) (id : String) (attempt : PendingAttempt) (now : Nat) :
    PendingAttempts :=
  (store.retain fun a => now - a.createdAt ≤ PENDING_ATTEMPT_TTL).set id attempt

/-- The attempt is gone afterwards, also where it has expired. -/
def take (store : PendingAttempts) (id : String) (now : Nat) :
    PendingAttempts × Option PendingAttempt :=
  match store.get id with
  | none => (store, none)
  | some attempt =>
    (store.delete id, if PENDING_ATTEMPT_TTL < now - attempt.createdAt then none else some attempt)

end PendingAttempts

section

variable (machine : Machine)

/-- `resolve_destination`, with the file system's answers. -/
def resolveDestination (canonicalize : Path → Except String Path) (destination : Path) :
    Except PermissionError Path :=
  let unresolvable (detail : String) : PermissionError :=
    .destinationUnresolvable (machine.toStringLossy destination) detail
  match destination.fileName with
  | none => .error (unresolvable "it has no final path component to name a bundle")
  | some name =>
    let parent := destination.parent.getD Path.here
    let parent := if parent.isEmpty then Path.here else parent
    match canonicalize parent with
    | .error e => .error (unresolvable ("its parent directory could not be resolved: " ++ e))
    | .ok parent => .ok (parent.join name)

/-- It is the boundary's own. -/
theorem eval_resolveDestination (ans : (q : Question) → Answer q) (destination : Path) :
    (Prog.eval ans (Permission.resolveDestination machine destination)).2 =
      (resolveDestination machine (fun p => ans (.canonicalize p)) destination).mapError
        BoundaryError.permission := by
  rw [Permission.resolveDestination, resolveDestination]
  cases destination.fileName with
  | none => rfl
  | some name =>
    simp only [ask, Prog.query, bind, Prog.bind, Prog.eval]
    split
    · next e he =>
      simp only [he]
      rfl
    · next parent hparent =>
      simp only [hparent]
      rfl

inductive Refusal where
  | publish (e : PublishError)
  | permission (e : PermissionError)
  | audit (e : AuditError)
  | boundary (e : BoundaryError)
  /-- The OS CSPRNG could not be read. -/
  | randomness (detail : String)
  deriving DecidableEq, Repr

/-- The part of `prepare_with_query` in front of its critical section.  The destination is resolved
for the prompt and once more for the grant. -/
def mintGrant (request : Request) (pre : Except PublishError PublishPreflight)
    (forPrompt forScope : Path → Except String Path) (now : Nat) : Except Refusal PublishGrant := do
  let pre ← pre.mapError .publish
  let _ ← (resolveDestination machine forPrompt request.destination).mapError .permission
  let resolved ← (resolveDestination machine forScope request.destination).mapError .permission
  (PublishGrant.new .publish ⟨request.datasetName, pre.sourceContentHash⟩ (.exact resolved)
    request.principal PENDING_ATTEMPT_TTL now).mapError .permission

end

/-! ### Calls -/

/-- A call of `prepare_with_query` in front of its next step. -/
inductive Preparing where
  | holding (request : Request) (grant : PublishGrant)
  | naming (request : Request)
  | stashing (id : String) (attempt : PendingAttempt)
  deriving DecidableEq, Repr

/-- The grants the boundary reads. -/
inductive Authority where
  /-- A set of the call's own. -/
  | own (set : GrantSet)
  /-- The shared set, under its guard. -/
  | shared

/-- Where a call of `execute_with_progress` is. -/
inductive Stage where
  | resolving
  | auditing (facts : OperationFacts)
  | consuming (facts : OperationFacts) (e : AuditError)
  | authorizing (facts : OperationFacts) (audit : Path)
  | authorized (facts : OperationFacts) (audit : Path) (authority : Authority)
  /-- `boundary::execute` has been called. -/
  | running (facts : OperationFacts) (audit : Path) (authority : Authority)

structure Executing where
  id : String
  attempt : PendingAttempt
  stage : Stage

inductive ExecuteOutcome where
  | success (outcome : PublishOutcome)
  | succeededUnaudited (outcome : PublishOutcome) (path detail : String)
  | refused (e : Refusal)
  deriving DecidableEq, Repr

def executeOutcome : Except BoundaryError PublishOutcome → ExecuteOutcome
  | .ok outcome => .success outcome
  | .error (.outcomeNotAudited outcome path detail) => .succeededUnaudited outcome path detail
  | .error (.publish e) => .refused (.publish e)
  | .error e => .refused (.boundary e)

/-- What `prepare` hands out: an attempt id, and which call it is from. -/
structure Prompt where
  id : String
  call : Nat
  deriving DecidableEq, Repr

/-- An attempt that was taken. -/
structure Taken where
  prompt : Prompt
  createdAt : Nat
  time : Nat
  deriving DecidableEq, Repr

/-- An `execute` call that took an attempt and has returned; `facts` where it got as far as finding
them. -/
structure Returned where
  call : Nat
  facts : Option OperationFacts
  outcome : ExecuteOutcome
  deriving DecidableEq, Repr

/-- The two stores with the calls under way, and what has happened so far: the requests a grant was
minted for, by number, the prompts handed out, the grants that came into the shared set, the attempts taken, those that reached `boundary::execute` and when, the grants
copied into a set of a call's own and when, one entry a publish, and the `execute` calls that have
returned. -/
structure State where
  clock : Nat
  requests : List Request
  held : Held
  /-- The call that holds the guard of the shared set. -/
  guard : Option Nat
  store : PendingAttempts
  preparing : OrderedMap Nat Preparing
  executing : OrderedMap Nat Executing
  prompted : List Prompt
  minted : List Minted
  taken : List Taken
  entered : List (Taken × Nat)
  copied : List (Minted × Nat)
  published : List Nat
  returned : List Returned

def State.new : State :=
  ⟨0, [], .empty, none, .empty, .empty, .empty, [], [], [], [], [], [], []⟩

inductive Event where
  /-- A call of `prepare_with_query`, with the answers it gets. -/
  | prepare (request : Request) (pre : Except PublishError PublishPreflight)
      (forPrompt forScope : Path → Except String Path)
  | hold (call : Nat)
  | name (call : Nat) (id : Except String String)
  | stash (call : Nat)
  | take (id : String)
  /-- The file system and the dataset's pin as they are then. -/
  | resolve (call : Nat) (canonicalize : Path → Except String Path) (contentPin : Option String)
  | openAudit (call : Nat) (log : Except AuditError Path)
  | consume (call : Nat)
  | authorize (call : Nat)
  | enter (call : Nat)
  /-- The boundary's questions with their answers. -/
  | leave (call : Nat) (tr : List (Lib.Event Answer))

namespace State

def isPublish : Question → Bool
  | .publishPrepared _ => true
  | _ => false

/-- An `execute` call goes on. -/
def advance (s : State) (call : Nat) (e : Executing) (stage : Stage) : State :=
  { s with executing := s.executing.set call { e with stage := stage } }

/-- An `execute` call returns. -/
def finish (s : State) (call : Nat) (facts : Option OperationFacts) (outcome : ExecuteOutcome) :
    State :=
  { s with
    executing := s.executing.delete call
    returned := s.returned ++ [⟨call, facts, outcome⟩] }

variable (machine : Machine)

def prepare (s : State) (request : Request) (pre : Except PublishError PublishPreflight)
    (forPrompt forScope : Path → Except String Path) : State :=
  match mintGrant machine request pre forPrompt forScope s.clock with
  | .error _ => s
  | .ok grant =>
    { s with
      requests := s.requests ++ [request]
      preparing := s.preparing.set s.requests.length (.holding request grant) }

def hold (s : State) (call : Nat) : Option State :=
  if s.guard.isSome then none
  else
    match s.preparing.get call with
    | some (.holding request grant) =>
      let held := s.held.pruneExpired s.clock
      match held.add ⟨call, grant⟩ with
      | .error _ => some { s with held := held, preparing := s.preparing.delete call }
      | .ok held =>
        some { s with
          held := held
          preparing := s.preparing.set call (.naming request)
          minted := s.minted ++ [⟨call, grant⟩] }
    | _ => none

def name (s : State) (call : Nat) (id : Except String String) : Option State :=
  match s.preparing.get call with
  | some (.naming request) =>
    match id with
    | .error _ => some { s with preparing := s.preparing.delete call }
    | .ok id =>
      some { s with preparing := s.preparing.set call (.stashing id ⟨call, request, s.clock⟩) }
  | _ => none

def stash (s : State) (call : Nat) : Option State :=
  match s.preparing.get call with
  | some (.stashing id attempt) =>
    some { s with
      store := PendingAttempts.insert s.store id attempt s.clock
      preparing := s.preparing.delete call
      prompted := s.prompted ++ [⟨id, call⟩] }
  | _ => none

def take (s : State) (id : String) : State :=
  match PendingAttempts.take s.store id s.clock with
  | (store, none) => { s with store := store }
  | (store, some attempt) =>
    { s with
      store := store
      executing := s.executing.set attempt.call ⟨id, attempt, .resolving⟩
      taken := s.taken ++ [⟨⟨id, attempt.call⟩, attempt.createdAt, s.clock⟩] }

def resolve (s : State) (call : Nat) (canonicalize : Path → Except String Path)
    (contentPin : Option String) : Option State :=
  match s.executing.get call with
  | some e =>
    match e.stage with
    | .resolving =>
      match resolveDestination machine canonicalize e.attempt.request.destination with
      | .error err => some (s.finish call none (.refused (.permission err)))
      | .ok resolved =>
        let facts : OperationFacts :=
          { operation := .publish
            datasetName := e.attempt.request.datasetName
            contentHash := (contentPin.map ("sha256:" ++ ·)).getD ""
            destination := resolved }
        some (s.advance call e (.auditing facts))
    | _ => none
  | none => none

def openAudit (s : State) (call : Nat) (log : Except AuditError Path) : Option State :=
  match s.executing.get call with
  | some e =>
    match e.stage with
    | .auditing facts =>
      match log with
      | .error err => some (s.advance call e (.consuming facts err))
      | .ok audit => some (s.advance call e (.authorizing facts audit))
    | _ => none
  | none => none

/-- `consume_grant`, and the refusal behind it. -/
def consume (s : State) (call : Nat) : Option State :=
  if s.guard.isSome then none
  else
    match s.executing.get call with
    | some e =>
      match e.stage with
      | .consuming facts err =>
        some ({ s with held := s.held.removeMatching machine.normalizeDestination facts }.finish
          call (some facts) (.refused (.audit err)))
      | _ => none
    | none => none

/-- The critical section that finds the attempt's grant. -/
def authorize (s : State) (call : Nat) : Option State :=
  if s.guard.isSome then none
  else
    match s.executing.get call with
    | some e =>
      match e.stage with
      | .authorizing facts audit =>
        let found := s.held.find machine.normalizeDestination facts s.clock
        let own := found.bind fun m => (GrantSet.empty.add m.grant).toOption
        match found, own with
        | some m, some one =>
          some ({ s with
              held := s.held.removeMatching machine.normalizeDestination facts
              copied := s.copied ++ [(m, s.clock)] }.advance call e (.authorized facts audit (.own one)))
        | _, _ =>
          some ({ s with guard := some call }.advance call e (.authorized facts audit .shared))
      | _ => none
    | none => none

def enter (s : State) (call : Nat) : Option State :=
  match s.executing.get call with
  | some e =>
    match e.stage, s.taken.find? fun t => t.prompt.call = call with
    | .authorized facts audit authority, some t =>
      some ({ s with entered := s.entered ++ [(t, s.clock)] }.advance call e
        (.running facts audit authority))
    | _, _ => none
  | none => none

/-- What the boundary is given. -/
def publishAttempt (s : State) (attempt : PendingAttempt) (audit : Path) (authority : Authority) :
    PublishAttempt :=
  { datasetName := attempt.request.datasetName
    destination := attempt.request.destination
    grants :=
      match authority with
      | .own one => one
      | .shared => s.held.set
    principal := attempt.request.principal
    audit := audit }

def leave (s : State) (call : Nat) (tr : List (Lib.Event Answer)) : Option State :=
  match s.executing.get call with
  | some e =>
    match e.stage with
    | .running facts audit authority =>
      match (execute machine (s.publishAttempt e.attempt audit authority)).replay tr with
      | none => none
      | some r =>
        let published := s.published ++ List.replicate (tr.countP fun e => isPublish e.1) call
        match authority with
        | .own _ => some ({ s with published := published }.finish call (some facts) (executeOutcome r))
        | .shared =>
          some ({ s with
              published := published
              held := s.held.removeMatching machine.normalizeDestination facts
              guard := none }.finish call (some facts) (executeOutcome r))
    | _ => none
  | none => none

def act (s : State) : Event → Option State
  | .prepare request pre forPrompt forScope =>
    some (s.prepare machine request pre forPrompt forScope)
  | .hold call => s.hold call
  | .name call id => s.name call id
  | .stash call => s.stash call
  | .take id => some (s.take id)
  | .resolve call canonicalize contentPin => s.resolve machine call canonicalize contentPin
  | .openAudit call log => s.openAudit call log
  | .consume call => s.consume machine call
  | .authorize call => s.authorize machine call
  | .enter call => s.enter call
  | .leave call tr => s.leave machine call tr

/-- An event at a reading of the clock, which never goes back. -/
def step (s : State) (e : Nat × Event) : Option State :=
  if e.1 < s.clock then none else { s with clock := e.1 }.act machine e.2

end State

end SpatialIde.Shell.Publish
