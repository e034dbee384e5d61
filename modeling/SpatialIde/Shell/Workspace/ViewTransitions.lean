import SpatialIde.Shell.Workspace.FilterClauses
import SpatialIde.Shell.Workspace.Selection

/-! # The transitions of a view

A view is changed by typed, pure transitions.  A member that is absent has its default, and is read
through its reader.
-/

namespace SpatialIde.Shell.Workspace

open Lib Canvas

/-- `view-<n>` -/
structure ViewId where
  number : Nat
  deriving DecidableEq, Repr

/-- The dataset handle. -/
abbrev ResourceKey := String

inductive Tool where
  | navigate
  | select
  deriving DecidableEq, Repr

structure StyleState where
  fillColor : String
  fillOpacity : F64
  outlineColor : String
  outlineWidth : F64
  deriving DecidableEq, Repr

/-- The opacity is `180 / 255`. -/
def DEFAULT_STYLE_STATE : StyleState :=
  ⟨"#4285f4", ⟨0x3FE6969696969697⟩, "#000000", ⟨0⟩⟩

structure InspectedPick where
  streamHandle : String
  batchSeq : Nat
  id : Int
  anchor : Option Position
  deriving DecidableEq, Repr

structure InspectedFeature where
  pick : InspectedPick
  bounds : AuthoritativeBbox
  row : AttributeRow
  deriving DecidableEq, Repr

structure ViewState where
  id : ViewId
  resource : ResourceKey
  filter : Option Filter
  style : StyleState
  tool : Option Tool
  selectionMode : Option SelectionMode
  selection : Option SelectionMembers
  selectionNotice : Option SelectionNotice
  inspected : Option InspectedFeature
  pinned : Option Bool
  clauses : Option (List FilterClause)
  clauseCounter : Option Nat

/-- A view as it is minted. -/
def ViewState.mint (id : ViewId) (resource : ResourceKey) : ViewState where
  id := id
  resource := resource
  filter := none
  style := DEFAULT_STYLE_STATE
  tool := none
  selectionMode := none
  selection := none
  selectionNotice := none
  inspected := none
  pinned := none
  clauses := none
  clauseCounter := none

def DEFAULT_TOOL : Tool := .navigate

def DEFAULT_SELECTION_MODE : SelectionMode := .toggle

def viewTool (view : ViewState) : Tool := view.tool.getD DEFAULT_TOOL
def viewSelectionMode (view : ViewState) : SelectionMode :=
  view.selectionMode.getD DEFAULT_SELECTION_MODE
def viewSelection (view : ViewState) : SelectionMembers := view.selection.getD NO_MEMBERS
def viewInspected (view : ViewState) : Option InspectedFeature := view.inspected
def viewPinned (view : ViewState) : Bool := view.pinned.getD false
def viewClauses (view : ViewState) : List FilterClause := view.clauses.getD NO_CLAUSES
def viewNextClauseNumber (view : ViewState) : Nat := view.clauseCounter.getD 1

inductive StyleSet where
  | fillColor (value : String)
  | fillOpacity (value : F64)
  | outlineColor (value : String)
  | outlineWidth (value : F64)
  deriving DecidableEq, Repr

/-- The click of a `selection.apply`. -/
structure SelectionClick where
  mode : SelectionMode
  id : Int
  input : SelectionInput
  deriving DecidableEq, Repr

inductive ViewTransition where
  | filterApply (filter : Option Filter)
  | filterClausesSet (clauses : List FilterClause)
  | styleSet (set : StyleSet)
  | toolSet (tool : Tool)
  | modeSet (mode : SelectionMode)
  | selectionApply (click : SelectionClick)
  | selectionClear
  | selectionEnd (reason : SelectionEndReason) (dropped : Nat)
  | inspectSet (feature : Option InspectedFeature)
  | inspectPin (pinned : Bool)
  deriving DecidableEq, Repr

def applyStyleSet (style : StyleState) : StyleSet → StyleState
  | .fillColor value => { style with fillColor := value }
  | .fillOpacity value => { style with fillOpacity := value }
  | .outlineColor value => { style with outlineColor := value }
  | .outlineWidth value => { style with outlineWidth := value }

def applySelection (view : ViewState) (click : SelectionClick) : ViewState :=
  match applySelectionMode (viewSelection view) click.mode click.id click.input with
  | .refused _ refusal => { view with selectionNotice := some (.refused refusal) }
  | .changed members => { view with selection := some members, selectionNotice := none }
  | .unchanged members =>
    if view.selectionNotice = none then view
    else { view with selection := some members, selectionNotice := none }

/-- The next number after some cards. -/
def nextClauseNumber (next : Nat) (clauses : List FilterClause) : Nat :=
  (clauses.map fun clause => clause.id.number + 1).foldl max next

def applyViewTransition (view : ViewState) : ViewTransition → ViewState
  | .filterApply none => { view with filter := none, clauses := some NO_CLAUSES }
  | .filterApply (some filter) =>
    let number := viewNextClauseNumber view
    { view with
      filter := some filter
      clauses := some [⟨⟨number⟩, filter.predicate, true⟩]
      clauseCounter := some (number + 1) }
  | .filterClausesSet clauses =>
    { view with
      filter := combineClauses clauses
      clauses := some clauses
      clauseCounter := some (nextClauseNumber (viewNextClauseNumber view) clauses) }
  | .styleSet set => { view with style := applyStyleSet view.style set }
  | .toolSet tool => if viewTool view = tool then view else { view with tool := some tool }
  | .modeSet mode =>
    if viewSelectionMode view = mode then view else { view with selectionMode := some mode }
  | .selectionApply click => applySelection view click
  | .selectionClear =>
    if (viewSelection view).size = 0 ∧ view.selectionNotice = none then view
    else { view with selection := some NO_MEMBERS, selectionNotice := none }
  | .selectionEnd reason dropped =>
    let notice := if 0 < dropped then some (SelectionNotice.ended reason dropped) else none
    if (viewSelection view).size = 0 ∧ view.selectionNotice = none ∧ notice = none then view
    else { view with selection := some NO_MEMBERS, selectionNotice := notice }
  | .inspectSet none =>
    if viewInspected view = none ∧ viewPinned view = false then view
    else { view with inspected := none, pinned := some false }
  | .inspectSet (some feature) => { view with inspected := some feature }
  | .inspectPin pinned =>
    let pinned := pinned && (viewInspected view).isSome
    if viewPinned view = pinned then view else { view with pinned := some pinned }

def endViewGeneration (view : ViewState) (reason : SelectionEndReason) : ViewState :=
  let ended := applyViewTransition view (.selectionEnd reason (viewSelection view).size)
  applyViewTransition ended (.inspectSet none)

end SpatialIde.Shell.Workspace
