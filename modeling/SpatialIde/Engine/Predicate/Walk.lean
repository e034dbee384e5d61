import SpatialIde.Lib.Except
import SpatialIde.Lib.Json

/-! # The structural walk over a predicate

`walkExpr` goes through the tree that the parser made of a predicate, against a list of
what may be in it, and collects the columns it names.  Whatever it does not recognize
it refuses.
-/

namespace SpatialIde.Engine.Predicate

open Lib Lib.Json

/-! ### Refusals

The variants of `FilterError` that the parse of a predicate and the walks over it raise.
-/

/-- Why the types of an operand pair, or of one operand, are refused. -/
inductive TypeRefusalReason where
  | textWithNonText
  | booleanConversion
  | literalOutOfBounds
  | conversionCanFail
  | conversionRounds
  deriving DecidableEq, Repr

inductive FilterError where
  /-- The parser refused the text, or could not be asked. -/
  | unparsable (detail : String)
  | notASingleExpression (statements : Nat)
  /-- A node the allowlist does not recognize by name. -/
  | constructNotAdmitted (construct : String)
  | unknownColumn (column : String)
  | tooDeep (limit saw : Nat)
  | typeNotAdmitted (construct : String) (operandTypes : List String) (reason : TypeRefusalReason)
  deriving DecidableEq, Repr

/-! ### The walk -/

def MAX_PREDICATE_DEPTH : Nat := 32

def ADMITTED_ARITHMETIC_FUNCTIONS : List String := ["+", "-", "*", "/"]

/-- `LIKE` and `ILIKE`. -/
def ADMITTED_PATTERN_FUNCTIONS : List String := ["~~", "~~*"]

def notAdmitted {α : Type} (construct : String) : Except FilterError α :=
  .error (.constructNotAdmitted construct)

def missingField (what : String) : FilterError :=
  .constructNotAdmitted ("a node missing `" ++ what ++ "`")

def expectChildren (node : Value) : Except FilterError (List Value) :=
  okOr (.constructNotAdmitted "a node with no `children` array")
    ((node.get "children").bind Value.asArray)

/-- The name of a column reference, behind the columns collected so far. -/
def columnRef (node : Value) (columns : List String) : Except FilterError (List String) := do
  let names ← okOr (.constructNotAdmitted "a COLUMN_REF with no column_names")
    ((node.get "column_names").bind Value.asArray)
  match names with
  | [name] =>
    match name.asStr with
    | some name => return columns ++ [name]
    | none => notAdmitted "a COLUMN_REF whose name is not a string"
  | _ => notAdmitted "a qualified column reference (table.column) — this predicate names no table"

def isConstant (node : Value) : Bool := node.getStr "class" == some "CONSTANT"

/-- The one operand of `NOT` and of `IS [NOT] NULL`. -/
def onlyChild (opType : String) (node : Value) : Except FilterError Value := do
  let children ← expectChildren node
  match children with
  | [child] => return child
  | _ => notAdmitted (opType ++ " with " ++ toString children.length ++ " operand(s)")

/-- The needle of `IN`, and its members. -/
def needleAndMembers (node : Value) : Except FilterError (Value × List Value) := do
  let children ← expectChildren node
  match children with
  | needle :: member :: members => return (needle, member :: members)
  | _ => notAdmitted "IN with an empty list"

/-- The operand of `LIKE` and `ILIKE`, and the pattern, which is a literal. -/
def operandAndPattern (name : String) (children : List Value) :
    Except FilterError (Value × Value) :=
  match children with
  | [operand, pattern] =>
    if !isConstant pattern then
      notAdmitted ("`" ++ name ++ "` (LIKE/ILIKE) with a non-literal pattern")
    else .ok (operand, pattern)
  | _ => notAdmitted ("`" ++ name ++ "` (LIKE/ILIKE) with " ++ toString children.length ++
      " operand(s)")

mutual

/-- The walk from a node that stands `depth` deep. -/
def walkExpr (node : Value) (depth : Nat) (columns : List String) :
    Except FilterError (List String) :=
  if depth > MAX_PREDICATE_DEPTH then .error (.tooDeep MAX_PREDICATE_DEPTH depth)
  else
    match node.getStr "class" with
    | none => notAdmitted "an expression node with no `class`"
    | some "CONSTANT" => .ok columns
    | some "COLUMN_REF" => columnRef node columns
    | some "CONJUNCTION" => do
      let children ← expectChildren node
      walkAll children (depth + 1) columns
    | some "COMPARISON" => do
      let left ← okOr (missingField "COMPARISON.left") (node.get "left")
      let right ← okOr (missingField "COMPARISON.right") (node.get "right")
      let columns ← walkExpr left (depth + 1) columns
      walkExpr right (depth + 1) columns
    | some "BETWEEN" => do
      let input ← okOr (missingField "BETWEEN.input") (node.get "input")
      let lower ← okOr (missingField "BETWEEN.lower") (node.get "lower")
      let upper ← okOr (missingField "BETWEEN.upper") (node.get "upper")
      let columns ← walkExpr input (depth + 1) columns
      let columns ← walkExpr lower (depth + 1) columns
      walkExpr upper (depth + 1) columns
    | some "OPERATOR" =>
      let opType := (node.getStr "type").getD "<missing type>"
      if opType = "OPERATOR_NOT" ∨ opType = "OPERATOR_IS_NULL" ∨ opType = "OPERATOR_IS_NOT_NULL" then do
        let child ← onlyChild opType node
        walkExpr child (depth + 1) columns
      else if opType = "COMPARE_IN" then do
        let (needle, members) ← needleAndMembers node
        let columns ← walkExpr needle (depth + 1) columns
        walkMembers members (depth + 1) columns
      else notAdmitted ("OPERATOR::" ++ opType)
    | some "FUNCTION" => do
      let name := (node.getStr "function_name").getD "<missing name>"
      let isOperator := ((node.get "is_operator").bind Value.asBool).getD false
      let children ← expectChildren node
      if isOperator ∧ name ∈ ADMITTED_ARITHMETIC_FUNCTIONS then walkAll children (depth + 1) columns
      else if isOperator ∧ name ∈ ADMITTED_PATTERN_FUNCTIONS then do
        let (operand, pattern) ← operandAndPattern name children
        let columns ← walkExpr operand (depth + 1) columns
        walkExpr pattern (depth + 1) columns
      else notAdmitted ("a function call (`" ++ name ++ "`)")
    | some "CAST" => notAdmitted "CAST"
    | some "SUBQUERY" => notAdmitted "a subquery"
    | some "PARAMETER" => notAdmitted "a bind parameter placeholder"
    | some "STAR" => notAdmitted "a star expression"
    | some other => notAdmitted ("an unrecognized node class `" ++ other ++
        "` — refused, never admitted, because this module cannot name what it would be admitting")
termination_by (MAX_PREDICATE_DEPTH + 1 - depth, 0)

/-- One child after the other. -/
def walkAll (children : List Value) (depth : Nat) (columns : List String) :
    Except FilterError (List String) :=
  match children with
  | [] => .ok columns
  | child :: children => do
    let columns ← walkExpr child depth columns
    walkAll children depth columns
termination_by (MAX_PREDICATE_DEPTH + 1 - depth, children.length + 1)

/-- The members of `IN`, each of which is a literal. -/
def walkMembers (members : List Value) (depth : Nat) (columns : List String) :
    Except FilterError (List String) :=
  match members with
  | [] => .ok columns
  | member :: members =>
    if !isConstant member then notAdmitted "IN with a non-literal list member"
    else do
      let columns ← walkExpr member depth columns
      walkMembers members depth columns
termination_by (MAX_PREDICATE_DEPTH + 1 - depth, members.length + 1)

end

/-! ### What may be in an admitted tree -/

/-- The children of a node, from left to right, along the edges of the constructs. -/
def operands (node : Value) : List Value :=
  match node.getStr "class" with
  | some "COMPARISON" => [node.get "left", node.get "right"].filterMap id
  | some "BETWEEN" => [node.get "input", node.get "lower", node.get "upper"].filterMap id
  | some "CONJUNCTION" | some "OPERATOR" | some "FUNCTION" =>
    ((node.get "children").bind Value.asArray).getD []
  | _ => []

theorem operands_constant {node : Value} (h : node.getStr "class" = some "CONSTANT") :
    operands node = [] := by
  unfold operands
  rw [h]
  rfl

theorem operands_columnRef {node : Value} (h : node.getStr "class" = some "COLUMN_REF") :
    operands node = [] := by
  unfold operands
  rw [h]
  rfl

theorem operands_conjunction {node : Value} (h : node.getStr "class" = some "CONJUNCTION") :
    operands node = ((node.get "children").bind Value.asArray).getD [] := by
  unfold operands
  rw [h]
  rfl

theorem operands_operator {node : Value} (h : node.getStr "class" = some "OPERATOR") :
    operands node = ((node.get "children").bind Value.asArray).getD [] := by
  unfold operands
  rw [h]
  rfl

theorem operands_function {node : Value} (h : node.getStr "class" = some "FUNCTION") :
    operands node = ((node.get "children").bind Value.asArray).getD [] := by
  unfold operands
  rw [h]
  rfl

theorem operands_comparison {node left right : Value}
    (h : node.getStr "class" = some "COMPARISON") (hleft : node.get "left" = some left)
    (hright : node.get "right" = some right) : operands node = [left, right] := by
  unfold operands
  rw [h, hleft, hright]
  rfl

theorem operands_between {node input lower upper : Value}
    (h : node.getStr "class" = some "BETWEEN") (hinput : node.get "input" = some input)
    (hlower : node.get "lower" = some lower) (hupper : node.get "upper" = some upper) :
    operands node = [input, lower, upper] := by
  unfold operands
  rw [h, hinput, hlower, hupper]
  rfl

theorem sizeOf_lt_of_mem_operands {node c : Value} (h : c ∈ operands node) :
    sizeOf c < sizeOf node := by
  have hchildren : c ∈ ((node.get "children").bind Value.asArray).getD [] →
      sizeOf c < sizeOf node := by
    intro hc
    cases hget : node.get "children" with
    | none => rw [hget] at hc; cases hc
    | some v =>
      rw [hget] at hc
      cases harr : v.asArray with
      | none =>
        rw [Option.bind_some, harr] at hc
        cases hc
      | some items =>
        rw [Option.bind_some, harr] at hc
        exact lt_trans (Value.sizeOf_lt_of_mem_asArray harr hc) (Value.sizeOf_lt_of_get hget)
  unfold operands at h
  split at h
  · simp only [List.mem_filterMap, List.mem_cons, List.not_mem_nil, or_false, id] at h
    obtain ⟨o, rfl | rfl, ho⟩ := h
    · exact Value.sizeOf_lt_of_get ho
    · exact Value.sizeOf_lt_of_get ho
  · simp only [List.mem_filterMap, List.mem_cons, List.not_mem_nil, or_false, id] at h
    obtain ⟨o, rfl | rfl | rfl, ho⟩ := h
    · exact Value.sizeOf_lt_of_get ho
    · exact Value.sizeOf_lt_of_get ho
    · exact Value.sizeOf_lt_of_get ho
  · exact hchildren h
  · exact hchildren h
  · exact hchildren h
  · cases h

/-- The name of a node that is a column reference. -/
def columnName (node : Value) : Option String :=
  if node.getStr "class" = some "COLUMN_REF" then
    match (node.get "column_names").bind Value.asArray with
    | some [name] => name.asStr
    | _ => none
  else none

/-- The column names of a tree, from left to right. -/
def columnsOf (node : Value) : List String :=
  (columnName node).toList ++ (operands node).attach.flatMap fun c => columnsOf c.1
termination_by sizeOf node
decreasing_by exact sizeOf_lt_of_mem_operands c.2

theorem columnsOf_eq (node : Value) :
    columnsOf node = (columnName node).toList ++ (operands node).flatMap columnsOf := by
  rw [columnsOf]
  congr 1
  rw [List.flatMap_subtype fun _ _ => rfl, List.unattach_attach]

/-- **One node of an admitted tree**: a class of the allowlist, in the shape that goes with it. -/
inductive Admitted (node : Value) : Prop
  | constant (isClass : node.getStr "class" = some "CONSTANT")
  | column (name : String) (isClass : node.getStr "class" = some "COLUMN_REF")
      (names : (node.get "column_names").bind Value.asArray = some [.string name])
  | conjunction (children : List Value) (isClass : node.getStr "class" = some "CONJUNCTION")
      (hasChildren : (node.get "children").bind Value.asArray = some children)
  | comparison (left right : Value) (isClass : node.getStr "class" = some "COMPARISON")
      (hasLeft : node.get "left" = some left) (hasRight : node.get "right" = some right)
  | between (input lower upper : Value) (isClass : node.getStr "class" = some "BETWEEN")
      (hasInput : node.get "input" = some input) (hasLower : node.get "lower" = some lower)
      (hasUpper : node.get "upper" = some upper)
  | operator (opType : String) (child : Value) (isClass : node.getStr "class" = some "OPERATOR")
      (isType : node.getStr "type" = some opType)
      (named : opType = "OPERATOR_NOT" ∨ opType = "OPERATOR_IS_NULL" ∨ opType = "OPERATOR_IS_NOT_NULL")
      (hasChild : (node.get "children").bind Value.asArray = some [child])
  | isIn (needle : Value) (members : List Value) (isClass : node.getStr "class" = some "OPERATOR")
      (isType : node.getStr "type" = some "COMPARE_IN")
      (hasChildren : (node.get "children").bind Value.asArray = some (needle :: members))
      (nonempty : members ≠ []) (literal : ∀ m ∈ members, isConstant m = true)
  | arithmetic (name : String) (children : List Value)
      (isClass : node.getStr "class" = some "FUNCTION")
      (isName : node.getStr "function_name" = some name)
      (isOperator : (node.get "is_operator").bind Value.asBool = some true)
      (named : name ∈ ADMITTED_ARITHMETIC_FUNCTIONS)
      (hasChildren : (node.get "children").bind Value.asArray = some children)
  | pattern (name : String) (operand pattern : Value)
      (isClass : node.getStr "class" = some "FUNCTION")
      (isName : node.getStr "function_name" = some name)
      (isOperator : (node.get "is_operator").bind Value.asBool = some true)
      (named : name ∈ ADMITTED_PATTERN_FUNCTIONS)
      (hasChildren : (node.get "children").bind Value.asArray = some [operand, pattern])
      (literal : isConstant pattern = true)

/-- `v` stands at `e` in the tree whose root `node` stands at `d`. -/
inductive Reaches : Value → Nat → Value → Nat → Prop
  | refl (node : Value) (d : Nat) : Reaches node d node d
  | down {node c v : Value} {d e : Nat} (child : c ∈ operands node) (rest : Reaches c (d + 1) v e) :
      Reaches node d v e

/-! ### The walk, one node at a time -/

theorem expectChildren_eq_ok {node : Value} {children : List Value} :
    expectChildren node = .ok children ↔
      (node.get "children").bind Value.asArray = some children :=
  okOr_eq_ok

theorem columnRef_eq_ok {node : Value} {columns columns' : List String}
    (h : columnRef node columns = .ok columns') :
    ∃ name, (node.get "column_names").bind Value.asArray = some [.string name] ∧
      columns' = columns ++ [name] := by
  obtain ⟨names, hnames, hrest⟩ := bind_eq_ok.1 h
  rw [okOr_eq_ok.1 hnames]
  split at hrest
  · rename_i name
    cases name with
    | string name =>
      cases hrest
      exact ⟨name, rfl, rfl⟩
    | _ => cases hrest
  · cases hrest

theorem onlyChild_eq_ok {opType : String} {node child : Value}
    (h : onlyChild opType node = .ok child) :
    (node.get "children").bind Value.asArray = some [child] := by
  obtain ⟨children, hchildren, hrest⟩ := bind_eq_ok.1 h
  rw [expectChildren_eq_ok.1 hchildren]
  split at hrest
  · cases hrest
    rfl
  · cases hrest

theorem needleAndMembers_eq_ok {node needle : Value} {members : List Value}
    (h : needleAndMembers node = .ok (needle, members)) :
    (node.get "children").bind Value.asArray = some (needle :: members) ∧ members ≠ [] := by
  obtain ⟨children, hchildren, hrest⟩ := bind_eq_ok.1 h
  rw [expectChildren_eq_ok.1 hchildren]
  split at hrest
  · cases hrest
    exact ⟨rfl, List.cons_ne_nil _ _⟩
  · cases hrest

theorem operandAndPattern_eq_ok {name : String} {children : List Value} {operand pattern : Value}
    (h : operandAndPattern name children = .ok (operand, pattern)) :
    children = [operand, pattern] ∧ isConstant pattern = true := by
  unfold operandAndPattern at h
  split at h
  · split_ifs at h with hliteral
    · cases h
    · cases h
      exact ⟨rfl, by simpa using hliteral⟩
  · cases h

theorem walkAll_cons {child : Value} {children : List Value} {depth : Nat}
    {columns columns' : List String} :
    walkAll (child :: children) depth columns = .ok columns' ↔
      ∃ mid, walkExpr child depth columns = .ok mid ∧ walkAll children depth mid = .ok columns' := by
  rw [walkAll]
  exact bind_eq_ok

theorem walkAll_nil {depth : Nat} {columns columns' : List String} :
    walkAll [] depth columns = .ok columns' ↔ columns = columns' := by
  rw [walkAll, Except.ok.injEq]

theorem walkMembers_eq_ok : ∀ {members : List Value} {depth : Nat} {columns columns' : List String},
    walkMembers members depth columns = .ok columns' →
      (∀ m ∈ members, isConstant m = true) ∧ walkAll members depth columns = .ok columns' := by
  intro members
  induction members with
  | nil =>
    intro depth columns columns' h
    rw [walkMembers] at h
    exact ⟨fun m hm => absurd hm List.not_mem_nil, by rwa [walkAll]⟩
  | cons member members ih =>
    intro depth columns columns' h
    rw [walkMembers] at h
    split_ifs at h with hliteral
    · cases h
    · obtain ⟨mid, hmember, hrest⟩ := bind_eq_ok.1 h
      obtain ⟨hmembers, hall⟩ := ih hrest
      refine ⟨fun m hm => ?_, walkAll_cons.2 ⟨mid, hmember, hall⟩⟩
      rcases List.mem_cons.1 hm with rfl | hm
      · simpa using hliteral
      · exact hmembers m hm

theorem walkAll_one {child : Value} {depth : Nat} {columns columns' : List String} :
    walkAll [child] depth columns = .ok columns' ↔ walkExpr child depth columns = .ok columns' := by
  rw [walkAll_cons]
  constructor
  · rintro ⟨mid, hwalk, hnil⟩
    rwa [← walkAll_nil.1 hnil]
  · intro hwalk
    exact ⟨_, hwalk, walkAll_nil.2 rfl⟩

theorem walkAll_two {left right : Value} {depth : Nat} {columns columns' : List String} :
    walkAll [left, right] depth columns = .ok columns' ↔
      ∃ mid, walkExpr left depth columns = .ok mid ∧ walkExpr right depth mid = .ok columns' := by
  rw [walkAll_cons]
  exact exists_congr fun _ => and_congr_right fun _ => walkAll_one

/-- What is read with a default the node would not get past is there. -/
theorem eq_some_getD {α : Type} {o : Option α} {d : α} {P : α → Prop} (h : P (o.getD d))
    (hd : ¬P d) : o = some (o.getD d) := by
  cases o with
  | none => exact absurd h hd
  | some a => rfl

theorem columnName_eq_none {node : Value} {c : String} (hclass : node.getStr "class" = some c)
    (hne : c ≠ "COLUMN_REF") : columnName node = none := by
  rw [columnName, hclass, if_neg (by simpa using hne)]

/-- **One step of the walk**: an admitted node goes on to all its operands, from left to right. -/
theorem walkExpr_eq_ok {node : Value} {depth : Nat} {columns columns' : List String}
    (h : walkExpr node depth columns = .ok columns') :
    depth ≤ MAX_PREDICATE_DEPTH ∧ Admitted node ∧
      walkAll (operands node) (depth + 1) (columns ++ (columnName node).toList) = .ok columns' := by
  rw [walkExpr] at h
  by_cases hdepth : depth > MAX_PREDICATE_DEPTH
  · rw [if_pos hdepth] at h
    cases h
  rw [if_neg hdepth] at h
  refine ⟨Nat.le_of_not_gt hdepth, ?_⟩
  -- No other node names a column.
  have hname : ∀ {c : String}, node.getStr "class" = some c → c ≠ "COLUMN_REF" →
      columns ++ (columnName node).toList = columns := by
    intro c hclass hne
    rw [columnName_eq_none hclass hne, Option.toList_none, List.append_nil]
  split at h
  · cases h
  · rename_i hclass
    refine ⟨.constant hclass, ?_⟩
    rw [hname hclass (by decide), operands_constant hclass]
    exact walkAll_nil.2 (Except.ok.inj h)
  · rename_i hclass
    obtain ⟨name, hnames, rfl⟩ := columnRef_eq_ok h
    refine ⟨.column name hclass hnames, ?_⟩
    rw [columnName, if_pos hclass, hnames, operands_columnRef hclass]
    exact walkAll_nil.2 rfl
  · rename_i hclass
    obtain ⟨children, hchildren, hall⟩ := bind_eq_ok.1 h
    have hget := expectChildren_eq_ok.1 hchildren
    refine ⟨.conjunction children hclass hget, ?_⟩
    rw [hname hclass (by decide), operands_conjunction hclass, hget]
    exact hall
  · rename_i hclass
    obtain ⟨left, hleft, h⟩ := bind_eq_ok.1 h
    obtain ⟨right, hright, h⟩ := bind_eq_ok.1 h
    rw [okOr_eq_ok] at hleft hright
    refine ⟨.comparison left right hclass hleft hright, ?_⟩
    rw [hname hclass (by decide), operands_comparison hclass hleft hright]
    exact walkAll_two.2 (bind_eq_ok.1 h)
  · rename_i hclass
    obtain ⟨input, hinput, h⟩ := bind_eq_ok.1 h
    obtain ⟨lower, hlower, h⟩ := bind_eq_ok.1 h
    obtain ⟨upper, hupper, h⟩ := bind_eq_ok.1 h
    obtain ⟨mid, hwinput, h⟩ := bind_eq_ok.1 h
    rw [okOr_eq_ok] at hinput hlower hupper
    refine ⟨.between input lower upper hclass hinput hlower hupper, ?_⟩
    rw [hname hclass (by decide), operands_between hclass hinput hlower hupper]
    exact walkAll_cons.2 ⟨mid, hwinput, walkAll_two.2 (bind_eq_ok.1 h)⟩
  · rename_i hclass
    rw [hname hclass (by decide), operands_operator hclass]
    dsimp only at h
    split_ifs at h with hunary hin
    · obtain ⟨child, hchild, hwalk⟩ := bind_eq_ok.1 h
      have hget := onlyChild_eq_ok hchild
      have htype := eq_some_getD (P := fun t => t = "OPERATOR_NOT" ∨ t = "OPERATOR_IS_NULL" ∨
        t = "OPERATOR_IS_NOT_NULL") hunary (by decide)
      refine ⟨.operator _ child hclass htype hunary hget, ?_⟩
      rw [hget]
      exact walkAll_one.2 hwalk
    · obtain ⟨⟨needle, members⟩, hchildren, h⟩ := bind_eq_ok.1 h
      obtain ⟨mid, hneedle, hmembers⟩ := bind_eq_ok.1 h
      obtain ⟨hget, hnonempty⟩ := needleAndMembers_eq_ok hchildren
      obtain ⟨hliteral, hall⟩ := walkMembers_eq_ok hmembers
      have htype := eq_some_getD (P := fun t => t = "COMPARE_IN") hin (by decide)
      rw [hin] at htype
      refine ⟨.isIn needle members hclass htype hget hnonempty hliteral, ?_⟩
      rw [hget]
      exact walkAll_cons.2 ⟨mid, hneedle, hall⟩
    · cases h
  · rename_i hclass
    rw [hname hclass (by decide), operands_function hclass]
    obtain ⟨children, hchildren, h⟩ := bind_eq_ok.1 h
    have hget := expectChildren_eq_ok.1 hchildren
    have hoperator : ((node.get "is_operator").bind Value.asBool).getD false = true →
        (node.get "is_operator").bind Value.asBool = some true := by
      intro htrue
      have hbool := eq_some_getD (P := fun b => b = true) htrue (by decide)
      rwa [htrue] at hbool
    split_ifs at h with harith hpattern
    · have hnamed := eq_some_getD (P := fun n => n ∈ ADMITTED_ARITHMETIC_FUNCTIONS) harith.2
        (by decide)
      refine ⟨.arithmetic _ children hclass hnamed (hoperator harith.1) harith.2 hget, ?_⟩
      rw [hget]
      exact h
    · obtain ⟨⟨operand, pattern⟩, hpair, hwalk⟩ := bind_eq_ok.1 h
      obtain ⟨rfl, hliteral⟩ := operandAndPattern_eq_ok hpair
      have hnamed := eq_some_getD (P := fun n => n ∈ ADMITTED_PATTERN_FUNCTIONS) hpattern.2
        (by decide)
      refine ⟨.pattern _ operand pattern hclass hnamed (hoperator hpattern.1) hpattern.2 hget
        hliteral, ?_⟩
      rw [hget]
      exact walkAll_two.2 (bind_eq_ok.1 hwalk)
    · cases h
  all_goals cases h

/-! ### The whole walk -/

/-- Everything in the tree of `node` is admitted, and none of it stands too deep. -/
def Sound (node : Value) (depth : Nat) : Prop :=
  ∀ v e, Reaches node depth v e → Admitted v ∧ e ≤ MAX_PREDICATE_DEPTH

theorem walkAll_sound {depth : Nat} (ih : ∀ {node : Value} {columns columns' : List String},
      walkExpr node depth columns = .ok columns' →
        Sound node depth ∧ columns' = columns ++ columnsOf node) :
    ∀ {children : List Value} {columns columns' : List String},
      walkAll children depth columns = .ok columns' →
        (∀ c ∈ children, Sound c depth) ∧ columns' = columns ++ children.flatMap columnsOf := by
  intro children
  induction children with
  | nil =>
    intro columns columns' h
    rw [← walkAll_nil.1 h]
    exact ⟨fun c hc => absurd hc List.not_mem_nil, (List.append_nil _).symm⟩
  | cons child children ihc =>
    intro columns columns' h
    obtain ⟨mid, hchild, hrest⟩ := walkAll_cons.1 h
    obtain ⟨hsound, rfl⟩ := ih hchild
    obtain ⟨hall, rfl⟩ := ihc hrest
    refine ⟨fun c hc => ?_, by rw [List.flatMap_cons, List.append_assoc]⟩
    rcases List.mem_cons.1 hc with rfl | hc
    · exact hsound
    · exact hall c hc

theorem walkExpr_sound_of_room (room : Nat) : ∀ {depth : Nat} {node : Value}
    {columns columns' : List String}, MAX_PREDICATE_DEPTH + 1 - depth ≤ room →
      walkExpr node depth columns = .ok columns' →
        Sound node depth ∧ columns' = columns ++ columnsOf node := by
  induction room with
  | zero =>
    intro depth node columns columns' hroom h
    have := (walkExpr_eq_ok h).1
    omega
  | succ room ih =>
    intro depth node columns columns' hroom h
    obtain ⟨hdepth, hadmitted, hall⟩ := walkExpr_eq_ok h
    obtain ⟨hsound, hcolumns⟩ := walkAll_sound (fun h => ih (by omega) h) hall
    refine ⟨fun v e hreach => ?_, by rw [hcolumns, columnsOf_eq node, List.append_assoc]⟩
    cases hreach with
    | refl => exact ⟨hadmitted, hdepth⟩
    | down hchild hrest => exact hsound _ hchild v e hrest

/-- **The walk is sound and collects every column.**  Where it admits a tree, every node of it is of
an admitted class, none is deeper than the ceiling, the members of `IN` and the patterns of `LIKE`
are literals, and the columns are the names in the tree from left to right. -/
theorem walkExpr_sound {node : Value} {columns columns' : List String}
    (h : walkExpr node 1 columns = .ok columns') :
    (∀ v e, Reaches node 1 v e → Admitted v ∧ e ≤ MAX_PREDICATE_DEPTH) ∧
      columns' = columns ++ columnsOf node :=
  walkExpr_sound_of_room _ (Nat.le_refl _) h

def columnNode (name : String) : Value :=
  .object [("class", .string "COLUMN_REF"), ("column_names", .array [.string name])]

def textNode (text : String) : Value :=
  .object [("class", .string "CONSTANT"), ("value", .object [
    ("is_null", .bool false), ("type", .object [("id", .string "VARCHAR")]),
    ("value", .string text)])]

/-- `zone = 'residential'`. -/
def zoneNode : Value :=
  .object [("class", .string "COMPARISON"), ("type", .string "COMPARE_EQUAL"),
    ("left", columnNode "zone"), ("right", textNode "residential")]

theorem walkExpr_columnNode {name : String} {depth : Nat} {columns : List String}
    (h : depth ≤ MAX_PREDICATE_DEPTH) :
    walkExpr (columnNode name) depth columns = .ok (columns ++ [name]) := by
  rw [walkExpr, if_neg (Nat.not_lt.2 h)]
  rfl

theorem walkExpr_textNode {text : String} {depth : Nat} {columns : List String}
    (h : depth ≤ MAX_PREDICATE_DEPTH) :
    walkExpr (textNode text) depth columns = .ok columns := by
  rw [walkExpr, if_neg (Nat.not_lt.2 h)]
  rfl

theorem walkExpr_comparison {node left right : Value} {depth : Nat} {columns columns' mid : List String}
    (hdepth : depth ≤ MAX_PREDICATE_DEPTH) (hclass : node.getStr "class" = some "COMPARISON")
    (hleft : node.get "left" = some left) (hright : node.get "right" = some right)
    (hwleft : walkExpr left (depth + 1) columns = .ok mid)
    (hwright : walkExpr right (depth + 1) mid = .ok columns') :
    walkExpr node depth columns = .ok columns' := by
  rw [walkExpr, if_neg (Nat.not_lt.2 hdepth), hclass]
  refine bind_eq_ok.2 ⟨left, okOr_eq_ok.2 hleft, bind_eq_ok.2 ⟨right, okOr_eq_ok.2 hright, ?_⟩⟩
  exact bind_eq_ok.2 ⟨mid, hwleft, hwright⟩

theorem walkExpr_zoneNode : walkExpr zoneNode 1 [] = .ok ["zone"] :=
  walkExpr_comparison (by decide) rfl rfl rfl (walkExpr_columnNode (by decide))
    (walkExpr_textNode (by decide))

theorem walkExpr_sound_zoneNode :
    (∀ v e, Reaches zoneNode 1 v e → Admitted v ∧ e ≤ MAX_PREDICATE_DEPTH) ∧
      columnsOf zoneNode = ["zone"] := by
  obtain ⟨hsound, hcolumns⟩ := walkExpr_sound walkExpr_zoneNode
  rw [List.nil_append] at hcolumns
  exact ⟨hsound, hcolumns.symm⟩

end SpatialIde.Engine.Predicate
