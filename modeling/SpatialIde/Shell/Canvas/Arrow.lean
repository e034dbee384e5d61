import SpatialIde.Lib.Binary64

/-! # Arrow tables, as the shell reads them

A table is its schema's metadata and its columns, each of the values its rows hold.
The package that reads and writes the IPC stream is `Ipc`, a parameter.
-/

namespace SpatialIde.Shell.Canvas

open Lib

inductive Precision where
  | half
  | single
  | double
  deriving DecidableEq, Repr

/-- A value of a list column: what iterating over it yields, level by level. -/
inductive Nested where
  | number (x : F64)
  | list (items : List Nested)
  deriving Repr

/-- The values of a column by its type; `none` is a null. -/
inductive Cells where
  | utf8 (cells : List (Option String))
  | bool (cells : List (Option Bool))
  /-- Of any width: what `BigInt` makes of a value. -/
  | int (cells : List (Option Int))
  | float (precision : Precision) (cells : List (Option F64))
  | nested (cells : List (Option Nested))
  deriving Repr

namespace Cells

def length : Cells → Nat
  | utf8 cells => cells.length
  | bool cells => cells.length
  | int cells => cells.length
  | float _ cells => cells.length
  | nested cells => cells.length

/-- Whether `get` returns nothing, a row beyond the column included. -/
def isNull : Cells → Nat → Bool
  | utf8 cells, i => (cells.getD i none).isNone
  | bool cells, i => (cells.getD i none).isNone
  | int cells, i => (cells.getD i none).isNone
  | float _ cells, i => (cells.getD i none).isNone
  | nested cells, i => (cells.getD i none).isNone

end Cells

structure Column where
  name : String
  cells : Cells
  deriving Repr

/-- A table, every column as long as the table. -/
structure Table where
  metadata : List (String × String)
  columns : List Column
  numRows : Nat
  filled : ∀ c ∈ columns, c.cells.length = numRows

namespace Table

def fieldNames (t : Table) : List String := t.columns.map Column.name

/-- The first column of a name. -/
def getChild (t : Table) (name : String) : Option Column := t.columns.find? fun c => c.name = name

/-- The last column of a name, the one `select` takes. -/
def lastChild (t : Table) (name : String) : Option Column :=
  t.columns.findRev? fun c => c.name = name

theorem mem_of_lastChild {t : Table} {name : String} {c : Column} (h : t.lastChild name = some c) :
    c ∈ t.columns ∧ c.name = name := by
  rw [lastChild, List.findRev?_eq_find?_reverse] at h
  refine ⟨List.mem_reverse.1 (List.mem_of_find?_eq_some h), ?_⟩
  simpa using List.find?_some h

/-- The table of some columns alone. -/
def select (t : Table) (names : List String) : Table where
  metadata := t.metadata
  columns := names.filterMap t.lastChild
  numRows := t.numRows
  filled := by
    intro c hc
    obtain ⟨name, _, hname⟩ := List.mem_filterMap.1 hc
    exact t.filled c (mem_of_lastChild hname).1

/-- In a selection, a name stands for the column that was selected under it. -/
theorem getChild_select {t : Table} {names : List String} {name : String} (h : name ∈ names) :
    (t.select names).getChild name = t.lastChild name := by
  show (names.filterMap t.lastChild).find? (fun c => c.name = name) = t.lastChild name
  induction names with
  | nil => cases h
  | cons n names ih =>
    by_cases hn : n = name
    · -- The first name that can give the column.
      cases hlast : t.lastChild n with
      | none =>
        rw [List.filterMap_cons_none hlast]
        by_cases hmem : name ∈ names
        · exact ih hmem
        · rw [← hn, hlast]
          refine List.find?_eq_none.2 ?_
          intro c hc heq
          obtain ⟨m, hm, hc⟩ := List.mem_filterMap.1 hc
          have hname := (mem_of_lastChild hc).2
          rw [of_decide_eq_true heq] at hname
          exact hmem (hn ▸ hname ▸ hm)
      | some c =>
        rw [List.filterMap_cons_some hlast, ← hn, hlast]
        exact List.find?_cons_of_pos (decide_eq_true (mem_of_lastChild hlast).2)
    · have hmem : name ∈ names := (List.mem_cons.1 h).resolve_left (Ne.symm hn)
      cases hlast : t.lastChild n with
      | none => rw [List.filterMap_cons_none hlast, ih hmem]
      | some c =>
        rw [List.filterMap_cons_some hlast, List.find?_cons_of_neg, ih hmem]
        intro heq
        exact hn ((mem_of_lastChild hlast).2.symm.trans (of_decide_eq_true heq))

end Table

/-- What reads and writes the IPC stream. -/
structure Ipc where
  tableFromIPC : List UInt8 → Except String Table
  tableToIPC : Table → List UInt8

end SpatialIde.Shell.Canvas
