import Mathlib.Data.List.Basic
import SpatialIde.Engine.Types

/-! # The names a file writes

`parquet_schema` lists the file's schema tree, each node in front of its children and with their
number.  `readFileNames` rebuilds the tree with a stack of the nodes that are still open.  What it
has on the stack is the beginning of a listing (`StackListing`), and a tree that is listed is read back
(`read_listing`), so it accepts the listings of trees and nothing else.
-/

namespace SpatialIde.Engine

/-- One node of the file's own schema tree: the name the file writes, never the one DuckDB binds. -/
inductive NameNode where
  | mk (name : String) (children : List NameNode)

namespace NameNode

def name : NameNode → String
  | mk name _ => name

def children : NameNode → List NameNode
  | mk _ children => children

def push : NameNode → NameNode → NameNode
  | mk name children, node => mk name (children ++ [node])

/-- A tree has a property that passes from all children of a node to the node. -/
@[elab_as_elim] theorem ind {motive : NameNode → Prop}
    (mk : ∀ name children, (∀ node ∈ children, motive node) → motive (.mk name children))
    (node : NameNode) : motive node :=
  NameNode.rec (motive_1 := motive) (motive_2 := fun nodes => ∀ node ∈ nodes, motive node)
    (fun name children => mk name children) (by simp)
    (fun _ _ hnode hnodes => List.forall_mem_cons.2 ⟨hnode, hnodes⟩) node

end NameNode

/-- A row of `parquet_schema`: the name and the number of children, which a leaf may not have. -/
abbrev SchemaRow := String × Option Int64

/-- A node that is open, and how many of its children are to come. -/
structure OpenNode where
  node : NameNode
  left : Int64

/-- Why no tree is returned: the refusal, or where a checked build panics. -/
inductive ReadStop where
  | refused (e : EngineError)
  | subtractOverflow
  deriving DecidableEq, Repr

def notATree : ReadStop :=
  .refused (.internalInconsistency
    ("the rows of parquet_schema do not form one schema tree; which column each name " ++
      "reads could not be decided"))

/-- `*left -= 1`. -/
def subOne (left : Int64) : Except ReadStop Int64 :=
  if left = Int64.minValue then .error .subtractOverflow else .ok (left - 1)

/-- Nodes are taken from the stack as long as the last of them is complete, each into the one in
front of it; the first node of all is the root. -/
def closeDone (last : OpenNode) :
    List OpenNode → Except ReadStop (List OpenNode × Option NameNode)
  | [] => .ok (if last.left = 0 then ([], some last.node) else ([last], none))
  | parent :: stack =>
    if last.left = 0 then
      match subOne parent.left with
      | .error e => .error e
      | .ok left => closeDone ⟨parent.node.push last.node, left⟩ stack
    else .ok (last :: parent :: stack, none)

/-- The nodes that are open, the last of them first, and the root once it is complete. -/
abbrev ReadState := List OpenNode × Option NameNode

def readRow (st : ReadState) (row : SchemaRow) : Except ReadStop ReadState :=
  let left := row.2.getD 0
  if st.2.isSome ∨ left < 0 then .error notATree
  else closeDone ⟨.mk row.1 [], left⟩ st.1

/-- `listed` is what the one statement returns. -/
def readFileNames (listed : Except EngineError (List SchemaRow)) : Except ReadStop NameNode :=
  match listed with
  | .error e => .error (.refused e)
  | .ok rows =>
    match rows.foldlM readRow ([], none) with
    | .error e => .error e
    | .ok ([], some root) => .ok root
    | .ok _ => .error notATree

/-! ### Listings -/

mutual

/-- Each node in front of its children, with their number. -/
def NameNode.listing : NameNode → List (String × Int)
  | .mk name children => (name, (children.length : Int)) :: listings children

def listings : List NameNode → List (String × Int)
  | [] => []
  | node :: nodes => node.listing ++ listings nodes

end

theorem listings_append (nodes nodes' : List NameNode) :
    listings (nodes ++ nodes') = listings nodes ++ listings nodes' := by
  induction nodes with
  | nil => rfl
  | cons node nodes ih => rw [List.cons_append, listings, listings, ih, List.append_assoc]

@[simp] theorem listings_singleton (node : NameNode) : listings [node] = node.listing := by
  rw [listings, listings, List.append_nil]

/-- What a row says; no number is none. -/
def counted (row : SchemaRow) : String × Int := (row.1, (row.2.getD 0).toInt)

/-- The row of an open node, with the children it will have, and the rows behind it so far. -/
def OpenNode.listing (o : OpenNode) : List (String × Int) :=
  (o.node.name, o.node.children.length + o.left.toInt) :: listings o.node.children

/-- The rows that led to a stack. -/
def StackListing : List OpenNode → List (String × Int)
  | [] => []
  | o :: stack => StackListing stack ++ o.listing

/-- The rows that led to a state. -/
def stateListing (st : ReadState) : List (String × Int) :=
  StackListing st.1 ++ (st.2.elim [] NameNode.listing)

/-! ### One row -/

/-- The open nodes wait for children, and a root is read when none of them is left. -/
structure Sound (st : ReadState) : Prop where
  waiting : ∀ o ∈ st.1, 0 < o.left.toInt
  root : st.2.isSome → st.1 = []

theorem sound_start : Sound ([], none) := ⟨by simp, by simp⟩

theorem toInt_sub_one {left : Int64} (h : left ≠ Int64.minValue) :
    (left - 1).toInt = left.toInt - 1 := by
  have hne : left.toInt ≠ -2 ^ 63 := by
    intro heq
    exact h (Int64.toInt_inj.1 (heq.trans (by decide)))
  have hlo := Int64.le_toInt left
  have hhi := Int64.toInt_lt left
  rw [Int64.toInt_sub, Int64.toInt_one]
  rw [Int.bmod_eq_of_le] <;> omega

theorem ne_minValue {left : Int64} (h : 0 < left.toInt) : left ≠ Int64.minValue := by
  rintro rfl
  exact absurd h (by decide)

theorem toInt_eq_zero_iff {left : Int64} : left.toInt = 0 ↔ left = 0 := by
  rw [← Int64.toInt_zero, Int64.toInt_inj]

/-- A node that waits for a child takes it. -/
theorem subOne_eq {left : Int64} (h : 0 < left.toInt) :
    subOne left = .ok (left - 1) ∧ (left - 1).toInt = left.toInt - 1 :=
  ⟨if_neg (ne_minValue h), toInt_sub_one (ne_minValue h)⟩

theorem closeDone_of_ne {last : OpenNode} (h : last.left ≠ 0) (stack : List OpenNode) :
    closeDone last stack = .ok (last :: stack, none) := by
  cases stack with
  | nil => rw [closeDone, if_neg h]
  | cons parent stack => rw [closeDone, if_neg h]

theorem listing_of_left_eq_zero {last : OpenNode} (h : last.left = 0) :
    last.listing = last.node.listing := by
  obtain ⟨⟨name, children⟩, left⟩ := last
  subst h
  rw [OpenNode.listing, NameNode.listing, Int64.toInt_zero, Int.add_zero]
  rfl

theorem listing_push {parent : OpenNode} {node : NameNode} {left : Int64}
    (hleft : left.toInt = parent.left.toInt - 1) :
    OpenNode.listing ⟨parent.node.push node, left⟩ = parent.listing ++ node.listing := by
  obtain ⟨⟨name, children⟩, left'⟩ := parent
  simp only [OpenNode.listing, NameNode.push, NameNode.children, NameNode.name, hleft,
    listings_append, listings_singleton, List.length_append, List.length_singleton,
    List.cons_append]
  congr 2
  push_cast
  omega

/-- Nothing is lost when complete nodes are taken from the stack, and no counter is below zero. -/
theorem closeDone_sound {last : OpenNode} {stack : List OpenNode} (hlast : 0 ≤ last.left.toInt)
    (hstack : ∀ o ∈ stack, 0 < o.left.toInt) :
    ∃ st, closeDone last stack = .ok st ∧ Sound st ∧
      stateListing st = StackListing stack ++ last.listing := by
  by_cases hzero : last.left = 0
  · induction stack generalizing last with
    | nil =>
      refine ⟨([], some last.node), by rw [closeDone, if_pos hzero], ⟨by simp, by simp⟩, ?_⟩
      rw [stateListing, listing_of_left_eq_zero hzero]
      rfl
    | cons parent stack ih =>
      obtain ⟨hparent, hstack⟩ := List.forall_mem_cons.1 hstack
      obtain ⟨hsub, hleft⟩ := subOne_eq hparent
      have hlisting : StackListing stack ++
          OpenNode.listing ⟨parent.node.push last.node, parent.left - 1⟩ =
          StackListing (parent :: stack) ++ last.listing := by
        rw [listing_push hleft, listing_of_left_eq_zero hzero, StackListing, List.append_assoc]
      have hclose : closeDone last (parent :: stack) =
          closeDone ⟨parent.node.push last.node, parent.left - 1⟩ stack := by
        rw [closeDone, if_pos hzero, hsub]
      rw [hclose, ← hlisting]
      by_cases hnext : parent.left - 1 = 0
      · exact ih (by rw [hleft]; omega) hstack hnext
      · refine ⟨_, closeDone_of_ne hnext stack, ⟨?_, by simp⟩, ?_⟩
        · refine List.forall_mem_cons.2 ⟨?_, hstack⟩
          have hne : (parent.left - 1).toInt ≠ 0 := fun h => hnext (toInt_eq_zero_iff.1 h)
          change 0 < (parent.left - 1).toInt
          omega
        · rw [stateListing, StackListing, Option.elim_none, List.append_nil]
  · refine ⟨_, closeDone_of_ne hzero stack, ⟨?_, by simp⟩, ?_⟩
    · refine List.forall_mem_cons.2 ⟨?_, hstack⟩
      have hne : last.left.toInt ≠ 0 := fun h => hzero (toInt_eq_zero_iff.1 h)
      omega
    · rw [stateListing, StackListing, Option.elim_none, List.append_nil]

theorem lt_zero_iff {left : Int64} : left < 0 ↔ left.toInt < 0 := by
  rw [Int64.lt_iff_toInt_lt, Int64.toInt_zero]

/-- A row is put behind the rows so far, or the list is refused. -/
theorem readRow_sound {st : ReadState} (h : Sound st) (row : SchemaRow) :
    readRow st row = .error notATree ∨ ∃ st', readRow st row = .ok st' ∧ Sound st' ∧
      stateListing st' = stateListing st ++ [counted row] := by
  rw [readRow]
  by_cases hrefused : st.2.isSome ∨ row.2.getD 0 < 0
  · exact .inl (if_pos hrefused)
  · rw [if_neg hrefused]
    obtain ⟨hroot, hcount⟩ := not_or.1 hrefused
    rw [lt_zero_iff] at hcount
    obtain ⟨st', hclose, hsound, hlisting⟩ :=
      @closeDone_sound ⟨.mk row.1 [], row.2.getD 0⟩ st.1 (Int.not_lt.1 hcount) h.waiting
    refine .inr ⟨st', hclose, hsound, ?_⟩
    have hst : st.2 = none := Option.not_isSome_iff_eq_none.1 hroot
    rw [hlisting, stateListing, hst, Option.elim_none, List.append_nil]
    simp [OpenNode.listing, NameNode.name, NameNode.children, listings, counted]

/-- What is read is what was listed. -/
theorem readRows_sound {st : ReadState} (h : Sound st) (rows : List SchemaRow) :
    rows.foldlM readRow st = .error notATree ∨ ∃ st', rows.foldlM readRow st = .ok st' ∧ Sound st' ∧
      stateListing st' = stateListing st ++ rows.map counted := by
  induction rows generalizing st with
  | nil => exact .inr ⟨st, rfl, h, by simp⟩
  | cons row rows ih =>
    rw [List.foldlM_cons]
    obtain hrow | ⟨st₁, hrow, hsound, hlisting⟩ := readRow_sound h row
    · exact .inl (by rw [hrow]; rfl)
    · rw [hrow]
      obtain hrows | ⟨st', hrows, hsound', hlisting'⟩ := ih hsound
      · exact .inl hrows
      · refine .inr ⟨st', hrows, hsound', ?_⟩
        rw [hlisting', hlisting, List.map_cons, List.append_assoc, List.singleton_append]

/-! ### A listing is read -/

/-- With the rows of its missing children an open node is complete. -/
theorem read_children {nodes : List NameNode}
    (hnodes : ∀ node ∈ nodes, ∀ (stack : List OpenNode) (rows rest : List SchemaRow),
      rows.map counted = node.listing →
      (rows ++ rest).foldlM readRow (stack, none) =
        closeDone ⟨node, 0⟩ stack >>= rest.foldlM readRow)
    {name : String} {done : List NameNode} {left : Int64} {stack : List OpenNode}
    {rows rest : List SchemaRow} (hrows : rows.map counted = listings nodes)
    (hleft : left.toInt = nodes.length) :
    (closeDone ⟨.mk name done, left⟩ stack >>= (rows ++ rest).foldlM readRow) =
      closeDone ⟨.mk name (done ++ nodes), 0⟩ stack >>= rest.foldlM readRow := by
  induction nodes generalizing done left rows with
  | nil =>
    obtain rfl := toInt_eq_zero_iff.1 hleft
    obtain rfl := List.map_eq_nil_iff.1 hrows
    rw [List.append_nil, List.nil_append]
  | cons node nodes ih =>
    obtain ⟨hnode, hnodes⟩ := List.forall_mem_cons.1 hnodes
    rw [listings] at hrows
    obtain ⟨rows₁, rows₂, rfl, hrows₁, hrows₂⟩ := List.map_eq_append_iff.1 hrows
    rw [List.length_cons] at hleft
    have hne : left ≠ 0 := by
      rintro rfl
      simp at hleft
      omega
    obtain ⟨hsub, hpred⟩ := @subOne_eq left (by omega)
    have hchild : closeDone ⟨node, 0⟩ (⟨.mk name done, left⟩ :: stack) =
        closeDone ⟨.mk name (done ++ [node]), left - 1⟩ stack := by
      rw [closeDone, if_pos rfl, hsub]
      rfl
    have hpred' : (left - 1).toInt = nodes.length := by omega
    calc (closeDone ⟨.mk name done, left⟩ stack >>= (rows₁ ++ rows₂ ++ rest).foldlM readRow)
        = (rows₁ ++ (rows₂ ++ rest)).foldlM readRow (⟨.mk name done, left⟩ :: stack, none) := by
          rw [closeDone_of_ne hne, List.append_assoc]; rfl
      _ = closeDone ⟨.mk name (done ++ [node]), left - 1⟩ stack >>=
            (rows₂ ++ rest).foldlM readRow := by
          rw [hnode _ _ _ hrows₁, hchild]
      _ = closeDone ⟨.mk name (done ++ node :: nodes), 0⟩ stack >>= rest.foldlM readRow := by
          rw [ih hnodes hrows₂ hpred', List.append_assoc, List.singleton_append]

/-- A tree that is listed is complete when its rows are read. -/
theorem read_listing (node : NameNode) : ∀ (stack : List OpenNode) (rows rest : List SchemaRow),
    rows.map counted = node.listing →
    (rows ++ rest).foldlM readRow (stack, none) =
      closeDone ⟨node, 0⟩ stack >>= rest.foldlM readRow := by
  induction node using NameNode.ind with
  | mk name children ih =>
    intro stack rows rest hrows
    rw [NameNode.listing] at hrows
    obtain ⟨row, rows, rfl, hrow, hrows⟩ := List.map_eq_cons_iff.1 hrows
    obtain ⟨hname, hcount⟩ := Prod.mk.injEq .. ▸ hrow
    have hread : readRow (stack, none) row = closeDone ⟨.mk name [], row.2.getD 0⟩ stack := by
      rw [readRow, if_neg, hname]
      rw [lt_zero_iff, hcount]
      simp
    rw [List.cons_append, List.foldlM_cons, hread]
    exact read_children ih hrows hcount

/-! ### The rebuild -/

/-- The listings of trees are accepted, and the tree is returned. -/
theorem readFileNames_eq_ok_iff (rows : List SchemaRow) (root : NameNode) :
    readFileNames (.ok rows) = .ok root ↔ root.listing = rows.map counted := by
  constructor
  · intro h
    rw [readFileNames] at h
    obtain hrows | ⟨st, hrows, -, hlisting⟩ := readRows_sound sound_start rows
    · rw [hrows] at h
      cases h
    · rw [hrows] at h
      obtain ⟨_ | ⟨o, stack⟩, _ | root'⟩ := st
      · cases h
      · obtain rfl := Except.ok.inj h
        simpa [stateListing, StackListing] using hlisting
      · cases h
      · cases h
  · intro h
    have hread := read_listing root [] rows [] h.symm
    rw [List.append_nil] at hread
    rw [readFileNames, hread]
    rfl

/-- What is not accepted is refused; no counter is decremented below its least value. -/
theorem readFileNames_refused (rows : List SchemaRow) :
    readFileNames (.ok rows) = .error notATree ∨ ∃ root, readFileNames (.ok rows) = .ok root := by
  rw [readFileNames]
  obtain hrows | ⟨⟨stack, root⟩, hrows, -, -⟩ := readRows_sound sound_start rows
  · exact .inl (by rw [hrows])
  · rw [hrows]
    cases stack with
    | nil =>
      cases root with
      | none => exact .inl rfl
      | some root => exact .inr ⟨root, rfl⟩
    | cons o stack => exact .inl rfl

/-- A list of rows is accepted where it lists one tree, and is then read as that tree; every other
list is refused. -/
theorem readFileNames_exact (rows : List SchemaRow) :
    (∀ root, readFileNames (.ok rows) = .ok root ↔ root.listing = rows.map counted) ∧
    ((∃ root, readFileNames (.ok rows) = .ok root) ↔
      ∃! root : NameNode, root.listing = rows.map counted) ∧
    (readFileNames (.ok rows) = .error notATree ∨ ∃ root, readFileNames (.ok rows) = .ok root) := by
  refine ⟨readFileNames_eq_ok_iff rows, ?_, readFileNames_refused rows⟩
  constructor
  · rintro ⟨root, hroot⟩
    refine ⟨root, (readFileNames_eq_ok_iff rows root).1 hroot, fun other hother => ?_⟩
    have hread := (readFileNames_eq_ok_iff rows other).2 hother
    exact Except.ok.inj (hread.symm.trans hroot)
  · rintro ⟨root, hroot, -⟩
    exact ⟨root, (readFileNames_eq_ok_iff rows root).2 hroot⟩

-- A struct of two leaves behind a leaf, then one row too few, one too many, and a negative count.
example : readFileNames (.ok [("root", some 2), ("id", none), ("bbox", some 2), ("xmin", some 0),
    ("xmax", none)]) =
    .ok (.mk "root" [.mk "id" [], .mk "bbox" [.mk "xmin" [], .mk "xmax" []]]) := rfl

example : readFileNames (.ok [("root", some 2), ("id", none)]) = .error notATree := rfl

example : readFileNames (.ok [("root", some 0), ("id", none)]) = .error notATree := rfl

example : readFileNames (.ok [("root", some (-1))]) = .error notATree := rfl

end SpatialIde.Engine
