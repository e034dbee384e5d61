import SpatialIde.Lib.OrderedMap
import SpatialIde.Shell.Canvas.Pick

/-! # The selection of a view

The members are features by their ids, each with what the click kept of it.
-/

namespace SpatialIde.Shell.Workspace

open Lib Canvas

def SELECTION_MAX_FEATURES : Nat := 10000

def CAPTURED_ROW_MAX_BYTES : Nat := 16384

inductive SelectionMode where
  | toggle
  | replace
  | add
  | remove
  deriving DecidableEq, Repr

/-- What a member kept of its row: all of it, or its leading cells and the number cut. -/
inductive CapturedRow where
  | whole (row : AttributeRow)
  | cut (cut : List AttributeCell) (omitted : Nat)
  deriving DecidableEq, Repr

structure SelectionMember where
  bounds : AuthoritativeBbox
  row : CapturedRow
  filter : Option Filter
  deriving DecidableEq, Repr

/-- What one click offers a selection. -/
structure SelectionInput where
  bounds : AuthoritativeBbox
  row : AttributeRow
  filter : Option Filter
  deriving DecidableEq, Repr

abbrev SelectionMembers := OrderedMap Int SelectionMember

def NO_MEMBERS : SelectionMembers := .empty

/-- `length` of a string, in UTF-16 units. -/
def utf16Length (text : String) : Nat :=
  (text.toList.map fun c => if c.toNat < 0x10000 then 1 else 2).sum

def cellBytes (cell : AttributeCell) : Nat :=
  utf16Length cell.name * 3 +
    match cell.value with
    | .text text => utf16Length text * 3
    | .integer integer => (toString integer).length
    | .float32 _ => 8
    | .float64 _ => 8
    | .boolean _ => 1
    | .null => 0

/-- The first cell that takes the total past the ceiling. -/
def cutIndex (total : Nat) : List AttributeCell → Option Nat
  | [] => none
  | cell :: cells =>
    if CAPTURED_ROW_MAX_BYTES < total + cellBytes cell then some 0
    else (cutIndex (total + cellBytes cell) cells).map (· + 1)

def capturedRow (row : AttributeRow) : CapturedRow :=
  match row with
  | .cells cells =>
    match cutIndex 0 cells with
    | none => .whole row
    | some i => .cut (cells.take i) (cells.length - i)
  | _ => .whole row

def memberOf (input : SelectionInput) : SelectionMember :=
  ⟨input.bounds, capturedRow input.row, input.filter⟩

/-- `selection.ceiling` -/
structure SelectionRefusal where
  max : Nat
  attempted : Nat
  deriving DecidableEq, Repr

inductive SelectionOutcome where
  | changed (members : SelectionMembers)
  | unchanged (members : SelectionMembers)
  | refused (members : SelectionMembers) (refusal : SelectionRefusal)

inductive SelectionEndReason where
  | sourceChanged
  | reopened
  deriving DecidableEq, Repr

inductive SelectionNotice where
  | ended (reason : SelectionEndReason) (dropped : Nat)
  | refused (refusal : SelectionRefusal)
  deriving DecidableEq, Repr

def withMember (members : SelectionMembers) (id : Int) (input : SelectionInput) :
    SelectionOutcome :=
  if SELECTION_MAX_FEATURES < members.size + 1 then
    .refused members ⟨SELECTION_MAX_FEATURES, members.size + 1⟩
  else .changed (members.set id (memberOf input))

def withoutMember (members : SelectionMembers) (id : Int) : SelectionOutcome :=
  .changed (members.delete id)

def applySelectionMode (members : SelectionMembers) (mode : SelectionMode) (id : Int)
    (input : SelectionInput) : SelectionOutcome :=
  let present := (members.get id).isSome
  match mode with
  | .toggle => if present then withoutMember members id else withMember members id input
  | .replace =>
    if present && members.size = 1 then .unchanged members
    else .changed (NO_MEMBERS.set id (memberOf input))
  | .add => if present then .unchanged members else withMember members id input
  | .remove => if present then withoutMember members id else .unchanged members

end SpatialIde.Shell.Workspace
