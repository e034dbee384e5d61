import SpatialIde.Shell.Streaming.ViewportStreamManager
import SpatialIde.Shell.Workspace.WorkspaceState

/-! # The queries of an open dataset

The first look, the pans that have settled, the Applies of the panel and the changes of the cards
all go through one stream manager.  An Apply and a card change wait for what their query comes to,
and commit their filter if it was issued.  What follows an answer runs in microtasks, before any
other event: a step goes from an answer to the next await.
-/

namespace SpatialIde.Shell.App

open Canvas (Bbox Filter)
open Streaming Workspace
open Streaming.ViewportStreamManager (Await Answer Sink)

/-- Nothing typed is no filter; anything else goes as it is. -/
def predicateTextToFilter (text : String) : Option Filter :=
  if text = "" then none else some ⟨text, FILTER_DIALECT_DUCKDB_EXPR_0⟩

/-! ### The state -/

/-- What a call of `requestViewport` is at: its next await, its outcome or what it throws. -/
inductive Attempt where
  | pending (await : Await)
  | returned (outcome : RequestOutcome)
  | threw
  deriving DecidableEq, Repr

/-- What the call is at that took the manager from one state to another. -/
def Attempt.of (before after : ViewportStreamManager.State) : Attempt :=
  match after.awaiting.drop before.awaiting.length with
  | await :: _ => .pending await
  | [] =>
    match (after.calls.drop before.calls.length).getLast? with
    | some (.returned outcome) => .returned outcome
    | _ => .threw

/-- A call of `applyFilter` that has not returned: for the panel, or for the step of a card
change. -/
structure ApplyCall where
  newFilter : Option Filter
  transition : ViewTransition
  clauseStep : Option ClauseStep
  /-- The last successfully issued query is issued again, after a refusal. -/
  recovering : Bool
  retried : Bool
  /-- What its query waits for; nothing while the retry waits. -/
  await : Option Await
  deriving DecidableEq, Repr

inductive Entry where
  | started (sink : Sink)
  | forwarded (sink : Sink)
  | committed (filter : Option Filter) (clauses : List FilterClause)
  deriving DecidableEq, Repr

/-- A batch that was handed on, with the filter it was said to be of. -/
def Entry.forwarded? : ViewportStreamManager.Effect → Option Entry
  | .onBatch stream _ _ filter => some (.forwarded ⟨stream, filter⟩)
  | _ => none

/-- The streams started and the batches forwarded on the way from one state of the manager to
another. -/
def heard (before after : ViewportStreamManager.State) : List Entry :=
  (after.streams.drop before.streams.length).map .started ++
    (after.calls.drop before.calls.length).filterMap Entry.forwarded?

structure State where
  manager : ViewportStreamManager.State
  /-- `activeFilterRef.current` -/
  activeFilter : Option Filter
  view : ViewState
  /-- `workspaceRef.current`: the view at the last render. -/
  rendered : ViewState
  lastViewportBbox : Option Bbox
  /-- The pan that waits to settle. -/
  debounced : Option Bbox
  clausePending : Bool
  calls : List ApplyCall
  log : List Entry

namespace State

/-! ### Issuing a query -/

def issueViewportQuery (s : State) (bbox : Option Bbox) (filter : Option Filter) (nowMs : Int) :
    State :=
  { s with manager := s.manager.requestViewport bbox none nowMs filter }

def commitFilterChange (s : State) (filter : Option Filter) (transition : ViewTransition) : State :=
  let view := applyViewTransition s.view transition
  { s with
    activeFilter := filter
    view := view
    log := s.log ++ [.committed filter (viewClauses view)] }

/-- A call returns; that of a card change lets the next one in. -/
def finish (s : State) (call : ApplyCall) : State :=
  { s with clausePending := s.clausePending && call.clauseStep.isNone }

/-- A call goes on with what its query came to. -/
def proceed (s : State) (call : ApplyCall) : Attempt → State
  | .pending await => { s with calls := s.calls ++ [{ call with await := some await }] }
  | .returned .throttled =>
    if call.retried then s.finish call
    else { s with calls := s.calls ++ [{ call with retried := true, await := none }] }
  | .returned (.issued _) =>
    if call.recovering then s.finish call
    else (s.commitFilterChange call.newFilter call.transition).finish call
  | .returned _ => s.finish call
  | .threw => s.finish call

/-- An attempt: of the new filter over everything, or of the filter in force over the last view. -/
def attempt (s : State) (call : ApplyCall) (nowMs : Int) : State :=
  let issued :=
    if call.recovering then s.issueViewportQuery s.lastViewportBbox s.activeFilter nowMs
    else s.issueViewportQuery none call.newFilter nowMs
  issued.proceed call (.of s.manager issued.manager)

/-- A refusal is recovered from, once. -/
def settle (s : State) (call : ApplyCall) (attempt : Attempt) (refused : Bool) (nowMs : Int) :
    State :=
  if attempt = .threw ∧ refused = true ∧ call.recovering = false then
    s.attempt { call with recovering := true, retried := false, await := none } nowMs
  else s.proceed call attempt

/-! ### What a user does -/

def applyFilter (s : State) (filter : Option Filter) (transition : ViewTransition)
    (clauseStep : Option ClauseStep) (nowMs : Int) : State :=
  { s with debounced := none }.attempt ⟨filter, transition, clauseStep, false, false, none⟩ nowMs

def handleApplyFilter (s : State) (filter : Option Filter) (nowMs : Int) : State :=
  s.applyFilter filter (.filterApply filter) none nowMs

/-- One change at a time; its cards and its new id are those of the last render. -/
def changeClauses (s : State) (request : ClauseRequest) (nowMs : Int) : State :=
  if s.clausePending then s
  else
    let mintId : ClauseId := ⟨viewNextClauseNumber s.rendered⟩
    match proposeClauseChange (viewClauses s.rendered) request mintId with
    | .refuse _ => s
    | .propose clauses filter clauseStep =>
      { s with clausePending := true }.applyFilter filter (.filterClausesSet clauses)
        (some clauseStep) nowMs

/-! ### Answers -/

/-- The manager goes on; who waited for the answer goes on with it. -/
def answer (s : State) (await : Await) (answer : Answer) (refused : Bool) (nowMs : Int) :
    Option State := do
  let manager ← ViewportStreamManager.step s.manager (.answer await answer)
  let before := { s.manager with awaiting := s.manager.awaiting.erase await }
  let heard := { s with manager := manager, log := s.log ++ heard s.manager manager }
  match s.calls.find? fun call => call.await = some await with
  | none => some heard
  | some call =>
    some ({ heard with calls := s.calls.erase call }.settle call (.of before manager) refused nowMs)

/-- Everything else that happens to the manager: a request comes from here only. -/
def manage (s : State) : ViewportStreamManager.Event → Option State
  | .requestViewport .. => none
  | .answer .. => none
  | e => do
    let manager ← ViewportStreamManager.step s.manager e
    some { s with manager := manager, log := s.log ++ heard s.manager manager }

/-- A dataset is admitted: the view is bound to it, and the first look is issued. -/
def opened (dataset : String) (columns : Option (List String)) (view : ViewState) (nowMs : Int) :
    State :=
  State.issueViewportQuery
    { manager := .new dataset columns
      activeFilter := none
      view := view.rebind dataset
      rendered := view.rebind dataset
      lastViewportBbox := none
      debounced := none
      clausePending := false
      calls := []
      log := [] } none none nowMs

end State

/-! ### Steps -/

inductive Event where
  | viewportChanged (bbox : Bbox)
  | viewportWithinLastQuery (bbox : Bbox)
  /-- The time of a pan is over. -/
  | settled (nowMs : Int)
  | apply (text : String) (nowMs : Int)
  | changeClauses (request : ClauseRequest) (nowMs : Int)
  /-- The wait of a throttled call is over. -/
  | retry (call : ApplyCall) (nowMs : Int)
  /-- An answer; where it is a rejection, whether a refusal of the kernel. -/
  | answer (await : Await) (answer : Answer) (refused : Bool) (nowMs : Int)
  | manager (e : ViewportStreamManager.Event)
  | render
  /-- A transition of another kind than these two. -/
  | transition (t : ViewTransition)
  deriving DecidableEq, Repr

/-- The transitions that go with a filter. -/
def setsFilter : ViewTransition → Bool
  | .filterApply _ => true
  | .filterClausesSet _ => true
  | _ => false

def step (s : State) : Event → Option State
  | .viewportChanged bbox => some { s with lastViewportBbox := some bbox, debounced := some bbox }
  | .viewportWithinLastQuery bbox => some { s with lastViewportBbox := some bbox }
  | .settled nowMs =>
    match s.debounced with
    | none => none
    | some bbox =>
      some ({ s with debounced := none }.issueViewportQuery (some bbox) s.activeFilter nowMs)
  | .apply text nowMs => some (s.handleApplyFilter (predicateTextToFilter text) nowMs)
  | .changeClauses request nowMs => some (s.changeClauses request nowMs)
  | .retry call nowMs =>
    if call ∈ s.calls ∧ call.await = none then
      some ({ s with calls := s.calls.erase call }.attempt call nowMs)
    else none
  | .answer await answer refused nowMs => s.answer await answer refused nowMs
  | .manager e => s.manage e
  | .render => some { s with rendered := s.view }
  | .transition t =>
    if setsFilter t then none else some { s with view := applyViewTransition s.view t }

end SpatialIde.Shell.App
