import SpatialIde.Shell.Table.TableSource
import SpatialIde.Shell.Workspace.Selection

/-! # The selected features that pass the filter

What a click kept, what is resident and what the table shows each tell of some members whether they
pass; of the others nothing is said.
-/

namespace SpatialIde.Shell.Table

open Lib Canvas Workspace

/-- Whether two filters are the same text of the same dialect. -/
def sameFilter : Option Filter → Option Filter → Bool
  | none, none => true
  | some a, some b => a.predicate == b.predicate && a.dialect == b.dialect
  | _, _ => false

theorem sameFilter_iff {a b : Option Filter} : sameFilter a b = true ↔ a = b := by
  cases a with
  | none => cases b <;> simp [sameFilter]
  | some a =>
    cases b with
    | none => simp [sameFilter]
    | some b =>
      obtain ⟨predicate, dialect⟩ := a
      obtain ⟨predicate', dialect'⟩ := b
      simp [sameFilter]

def resultIsComplete (t : TableSnapshot) : Bool := t.phase = .completed ∧ t.count < TABLE_MAX_ROWS

/-- `ids.has(id)` -/
def TableSnapshot.hasId (t : TableSnapshot) (id : Int) : Bool := ∃ u ∈ t.ids, (u.toNat : Int) = id

/-- What is said of a member. -/
inductive Verdict where
  | listed
  | failed
  | notEstablished
  deriving DecidableEq, Repr

def verdict (viewFilter : Option Filter) (first : TableSnapshot) (residentUnderView : Finset Int)
    (id : Int) (member : SelectionMember) : Verdict :=
  let firstForView := sameFilter first.filter viewFilter
  let complete := firstForView && resultIsComplete first
  if viewFilter = none ∨ sameFilter member.filter viewFilter ∨ id ∈ residentUnderView ∨
      (firstForView && first.hasId id) then .listed
  else if complete then .failed
  else .notEstablished

structure SecondScope where
  listed : List Int
  failed : Nat
  notEstablished : Nat
  deriving DecidableEq, Repr

def SecondScope.count (scope : SecondScope) (id : Int) : Verdict → SecondScope
  | .listed => { scope with listed := scope.listed ++ [id] }
  | .failed => { scope with failed := scope.failed + 1 }
  | .notEstablished => { scope with notEstablished := scope.notEstablished + 1 }

def secondScope (members : SelectionMembers) (viewFilter : Option Filter) (first : TableSnapshot)
    (residentUnderView : Finset Int) : SecondScope :=
  members.entries.foldl (fun scope e =>
    scope.count e.1 (verdict viewFilter first residentUnderView e.1 e.2)) ⟨[], 0, 0⟩

/-! ### One verdict for each member -/

/-- The members of one verdict, in the order of the selection. -/
def membersOf (v : Verdict) (members : SelectionMembers) (viewFilter : Option Filter)
    (first : TableSnapshot) (residentUnderView : Finset Int) : List Int :=
  (members.entries.filter fun e => verdict viewFilter first residentUnderView e.1 e.2 = v).map Prod.fst

theorem secondScope_eq (members : SelectionMembers) (viewFilter : Option Filter)
    (first : TableSnapshot) (residentUnderView : Finset Int) :
    secondScope members viewFilter first residentUnderView =
      ⟨membersOf .listed members viewFilter first residentUnderView,
        (membersOf .failed members viewFilter first residentUnderView).length,
        (membersOf .notEstablished members viewFilter first residentUnderView).length⟩ := by
  rw [secondScope, membersOf, membersOf, membersOf, List.length_map, List.length_map]
  induction members.entries using List.reverseRecOn with
  | nil => rfl
  | append_singleton es e ih =>
    rw [List.foldl_append, ih]
    simp only [List.foldl_cons, List.foldl_nil, List.filter_append, List.map_append,
      List.length_append]
    cases h : verdict viewFilter first residentUnderView e.1 e.2 <;>
      simp [SecondScope.count, h]

theorem mem_membersOf {v : Verdict} {members : SelectionMembers} {viewFilter : Option Filter}
    {first : TableSnapshot} {residentUnderView : Finset Int} {id : Int} :
    id ∈ membersOf v members viewFilter first residentUnderView ↔
      ∃ m, members.get id = some m ∧ verdict viewFilter first residentUnderView id m = v := by
  rw [membersOf, List.mem_map]
  constructor
  · rintro ⟨⟨id, m⟩, hmem, rfl⟩
    obtain ⟨hentry, hv⟩ := List.mem_filter.1 hmem
    exact ⟨m, OrderedMap.lookup_of_mem members.nodup hentry, of_decide_eq_true hv⟩
  · rintro ⟨m, hget, hv⟩
    exact ⟨(id, m), List.mem_filter.2 ⟨OrderedMap.mem_of_lookup hget, decide_eq_true hv⟩, rfl⟩

/-- Every member is of one verdict. -/
theorem perm_membersOf (members : SelectionMembers) (viewFilter : Option Filter)
    (first : TableSnapshot) (residentUnderView : Finset Int) :
    (membersOf .listed members viewFilter first residentUnderView ++
      membersOf .failed members viewFilter first residentUnderView ++
      membersOf .notEstablished members viewFilter first residentUnderView).Perm members.keys := by
  rw [membersOf, membersOf, membersOf, ← List.map_append, ← List.map_append, OrderedMap.keys]
  refine List.Perm.map _ ?_
  induction members.entries with
  | nil => exact .nil
  | cons e es ih =>
    cases h : verdict viewFilter first residentUnderView e.1 e.2 with
    | listed =>
      simp only [List.filter_cons, h, reduceCtorEq, decide_true, decide_false, if_true, if_false,
        List.cons_append, Bool.false_eq_true]
      exact ih.cons e
    | failed =>
      simp only [List.filter_cons, h, reduceCtorEq, decide_true, decide_false, if_true, if_false,
        List.append_assoc, List.cons_append, Bool.false_eq_true]
      rw [List.append_assoc] at ih
      exact List.perm_middle.trans (ih.cons e)
    | notEstablished =>
      simp only [List.filter_cons, h, reduceCtorEq, decide_true, decide_false, if_true, if_false,
        Bool.false_eq_true]
      exact List.perm_middle.trans (ih.cons e)

end SpatialIde.Shell.Table
