import SpatialIde.Shell.Workspace.ViewTransitions

/-! # The state of the workspace

One reducer over the views and the resources they are bound to.  A view or an export run is a consumer
of a resource, which may be closed once it has none.
-/

namespace SpatialIde.Shell.Workspace

open Lib Canvas

/-- What holds a resource open; an export run is `export-<n>`. -/
inductive ConsumerId where
  | view (id : ViewId)
  | exportRun (number : Nat)
  deriving DecidableEq, Repr

/-- An open of the kernel. -/
structure Admitted where
  dataset : ResourceKey
  session : String
  deriving DecidableEq, Repr

structure ResourceEntry where
  admitted : Admitted
  generationEnded : Bool
  consumers : List ConsumerId
  closed : Bool
  deriving DecidableEq, Repr

structure WorkspaceState where
  views : OrderedMap ViewId ViewState
  resources : OrderedMap ResourceKey ResourceEntry
  drawOrder : List ViewId
  nextViewNumber : Nat

inductive WorkspaceAction where
  | resourceAdmitted (admitted : Admitted)
  | resourceGenerationEnded (resource : ResourceKey)
  | consumerAcquired (resource : ResourceKey) (consumer : ConsumerId)
  | consumerReleased (resource : ResourceKey) (consumer : ConsumerId)
  | resourceClosed (resource : ResourceKey)
  | viewTransition (view : ViewId) (transition : ViewTransition)
  deriving DecidableEq, Repr

def initialWorkspaceState : WorkspaceState := ⟨.empty, .empty, [], 1⟩

def ResourceEntry.leave (entry : ResourceEntry) (consumer : ConsumerId) : ResourceEntry :=
  { entry with consumers := entry.consumers.filter fun c => c ≠ consumer }

def ResourceEntry.join (entry : ResourceEntry) (consumer : ConsumerId) : ResourceEntry :=
  if consumer ∈ entry.consumers then entry
  else { entry with consumers := entry.consumers ++ [consumer] }

/-- The view is bound to another open: its selection and inspection end, unless it is the same, and
its filter and cards are reset. -/
def ViewState.rebind (view : ViewState) (key : ResourceKey) : ViewState :=
  let bound := if view.resource = key then view else endViewGeneration view .reopened
  { bound with clauses := none, resource := key, filter := none }

def admitted (state : WorkspaceState) (admitted : Admitted) : WorkspaceState :=
  let key := admitted.dataset
  let target := (state.resources.get key).getD ⟨admitted, false, [], false⟩
  match state.drawOrder with
  | [] =>
    let id : ViewId := ⟨state.nextViewNumber⟩
    { views := state.views.set id (.mint id key)
      resources := state.resources.set key
        { target with consumers := target.consumers ++ [.view id] }
      drawOrder := state.drawOrder ++ [id]
      nextViewNumber := state.nextViewNumber + 1 }
  | viewId :: _ =>
    match state.views.get viewId with
    -- A view that is drawn is held.
    | none => state
    | some view =>
      let resources :=
        match state.resources.get view.resource with
        | some old =>
          if view.resource ≠ key then
            state.resources.set view.resource (old.leave (.view viewId))
          else state.resources
        | none => state.resources
      { state with
        views := state.views.set viewId (view.rebind key)
        resources := resources.set key (target.join (.view viewId)) }

def endGeneration (state : WorkspaceState) (key : ResourceKey) : WorkspaceState :=
  match state.resources.get key with
  | none => state
  | some entry =>
    if entry.generationEnded then state
    else
      { state with
        views := state.views.mapValues fun view =>
          if view.resource = key then endViewGeneration view .sourceChanged else view
        resources := state.resources.set key { entry with generationEnded := true } }

def withResource (state : WorkspaceState) (key : ResourceKey)
    (change : ResourceEntry → ResourceEntry) : WorkspaceState :=
  match state.resources.get key with
  | none => state
  | some entry => { state with resources := state.resources.set key (change entry) }

def workspaceReducer (state : WorkspaceState) : WorkspaceAction → WorkspaceState
  | .resourceAdmitted a => admitted state a
  | .resourceGenerationEnded resource => endGeneration state resource
  | .consumerAcquired resource consumer =>
    withResource state resource fun entry => entry.join consumer
  | .consumerReleased resource consumer =>
    withResource state resource fun entry => entry.leave consumer
  | .resourceClosed resource => withResource state resource fun entry => { entry with closed := true }
  | .viewTransition id transition =>
    match state.views.get id with
    | none => state
    | some view => { state with views := state.views.set id (applyViewTransition view transition) }

/-- The resources to close now. -/
def selectClosable (state : WorkspaceState) : List ResourceKey :=
  (state.resources.entries.filter fun e => e.2.consumers.isEmpty && !e.2.closed).map Prod.fst

end SpatialIde.Shell.Workspace
