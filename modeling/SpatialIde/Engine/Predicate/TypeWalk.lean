import SpatialIde.Engine.Predicate.Types

/-! # The type walk over a predicate

`typeWalk` goes once more through the operands that `walkExpr` admitted, and types them.  A node
in a boolean position goes through `checkBooleanOperand`, one in a value position through
`typeOfValue`.

The readers of a node give what they read together with the fact that it is smaller than the
node, on which the recursion rests.
-/

namespace SpatialIde.Engine.Predicate

open Lib Lib.Json

/-- A member of a node. -/
def memberOf (node : Value) (key what : String) : Except Fault {c : Value // sizeOf c < sizeOf node} :=
  match h : node.get key with
  | none => refuse (missingField what)
  | some c => .ok ⟨c, Value.sizeOf_lt_of_get h⟩

theorem sizeOf_lt_of_children {node : Value} {children : List Value}
    (h : (node.get "children").bind Value.asArray = some children) :
    sizeOf children < sizeOf node := by
  obtain ⟨v, hget, harray⟩ := Option.bind_eq_some_iff.1 h
  have hlt := Value.sizeOf_lt_of_get hget
  cases v with
  | array items =>
    cases harray
    simp only [Value.array.sizeOf_spec] at hlt
    omega
  | _ => cases harray

/-- `expect_children`. -/
def childrenOf (node : Value) : Except Fault {cs : List Value // sizeOf cs < sizeOf node} :=
  match h : (node.get "children").bind Value.asArray with
  | none => refuse (.constructNotAdmitted "a node with no `children` array")
  | some children => .ok ⟨children, sizeOf_lt_of_children h⟩

/-- The first of the children, and the others. -/
structure FirstChild (children : List Value) where
  first : Value
  rest : List Value
  first_lt : sizeOf first < sizeOf children
  rest_lt : sizeOf rest < sizeOf children

theorem sizeOf_head_lt (c : Value) (cs : List Value) : sizeOf c < sizeOf (c :: cs) := by
  simp only [List.cons.sizeOf_spec]
  omega

theorem sizeOf_tail_lt (c : Value) (cs : List Value) : sizeOf cs < sizeOf (c :: cs) := by
  simp only [List.cons.sizeOf_spec]
  omega

def firstChild (children : List Value) (what : String) : Except Fault (FirstChild children) :=
  match children with
  | [] => refuse (missingField what)
  | c :: cs => .ok ⟨c, cs, sizeOf_head_lt c cs, sizeOf_tail_lt c cs⟩

def typeOfColumn (ns : Namespace) (node : Value) : Except Fault Typed :=
  match (node.get "column_names").bind Value.asArray with
  | none => refuse (missingField "COLUMN_REF.column_names")
  | some names =>
    match names.head?.bind Value.asStr with
    | none => refuse (missingField "COLUMN_REF.column_names[0]")
    | some name =>
      match ns.get name with
      | none => refuse (.unknownColumn name)
      | some surrogate => Typed.column <$> engineTypeOfSurrogate surrogate

def junctionName (node : Value) : String :=
  if node.getStr "type" == some "CONJUNCTION_OR" then "OR" else "AND"

def patternName (functionName : String) : String := if functionName = "~~*" then "ILIKE" else "LIKE"

/-- `/` over operands of these types. -/
def divisionResult (left right : Typed) : Except Fault Typed :=
  if left.ty = .varchar ∨ right.ty = .varchar ∨ left.ty = .boolean ∨ right.ty = .boolean then
    refuse (.typeNotAdmitted "/" [left.render, right.render] (determineReason left right false))
  else if (left.ty = .real ∨ right.ty = .real) ∧ ¬ (left.ty = .double ∨ right.ty = .double) then
    .ok (.expression .real)
  else .ok (.expression .double)

/-- The operator with the one operand. -/
def unaryResult (op : String) (operand : Typed) : Except Fault Typed :=
  if operand.ty = .null then .ok (.expression .bigInt)
  else if isNumeric operand then .ok { operand with kind := .expression }
  else refuse (.typeNotAdmitted op [operand.render] (determineReason operand numericVirtual false))

/-- A decimal literal within the bounds, or a result that counts as one. -/
def isDecimalLiteralWithinBounds (t : Typed) : Bool :=
  t.ty.isDecimal && ((t.kind == .literal && t.withinBounds) || t.countsAsDecimalLiteral)

/-- `+`, `-` and `*` over two operands. -/
def binaryResult (op : String) (left right : Typed) : Except Fault Typed := do
  match ← admittedArithmeticResult left right with
  | some ty =>
    return { Typed.expression ty with
      withinBounds := left.withinBounds && right.withinBounds
      countsAsDecimalLiteral := (left.ty == .null && isDecimalLiteralWithinBounds right) ||
        (right.ty == .null && isDecimalLiteralWithinBounds left) }
  | none => refuse (.typeNotAdmitted op [left.render, right.render]
      (determineReason left right (isDecimalArithmeticPair left right)))

/-- `LIKE` and `ILIKE` over an operand and a pattern. -/
def patternResult (construct : String) (operand pattern : Typed) : Except Fault Unit :=
  if operand.ty = .varchar ∧ (pattern.ty = .varchar ∨ pattern.ty = .null) then .ok ()
  else refuse (.typeNotAdmitted construct [operand.render, pattern.render] .textWithNonText)

mutual

/-- The type of a node in a value position. -/
def typeOfValue (ns : Namespace) (node : Value) : Except Fault Typed :=
  match (node.getStr "class").getD "" with
  | "CONSTANT" => literalTyped node
  | "COLUMN_REF" => typeOfColumn ns node
  | "COMPARISON" => do
    checkComparison ns node
    return .expression .boolean
  | "BETWEEN" => do
    checkBetween ns node
    return .expression .boolean
  | "CONJUNCTION" => do
    let ⟨children, _⟩ ← childrenOf node
    checkJunctionChildren ns children (junctionName node)
    return .expression .boolean
  | "OPERATOR" =>
    match (node.getStr "type").getD "" with
    | "OPERATOR_NOT" => do
      let ⟨children, _⟩ ← childrenOf node
      checkJunctionChildren ns children "NOT"
      return .expression .boolean
    | "OPERATOR_IS_NULL" | "OPERATOR_IS_NOT_NULL" => do
      let ⟨children, _⟩ ← childrenOf node
      let ⟨operand, _, _, _⟩ ← firstChild children "OPERATOR.children[0]"
      let _ ← typeOfValue ns operand
      return .expression .boolean
    | "COMPARE_IN" => do
      checkIn ns node
      return .expression .boolean
    | other => refuse (.constructNotAdmitted ("OPERATOR::" ++ other ++ " in a value position"))
  | "FUNCTION" => do
    let name := (node.getStr "function_name").getD ""
    let ⟨children, _⟩ ← childrenOf node
    if name = "/" then typeOfDivision ns children
    else if name ∈ ADMITTED_ARITHMETIC_FUNCTIONS then typeOfArithmetic ns name children
    else if name ∈ ADMITTED_PATTERN_FUNCTIONS then do
      checkPattern ns name children
      return .expression .boolean
    else refuse (.constructNotAdmitted ("a function call (`" ++ name ++ "`)"))
  | other => refuse (.constructNotAdmitted ("an untyped node class `" ++ other ++
      "` in a value position"))
termination_by (sizeOf node, 1)

def typeOfDivision (ns : Namespace) (children : List Value) : Except Fault Typed :=
  match children with
  | [leftNode, rightNode] => do
    let left ← typeOfValue ns leftNode
    let right ← typeOfValue ns rightNode
    divisionResult left right
  | children => refuse (.constructNotAdmitted ("`/` with " ++ toString children.length ++ " operand(s)"))
termination_by (sizeOf children, 0)

def typeOfArithmetic (ns : Namespace) (op : String) (children : List Value) : Except Fault Typed :=
  match children with
  | [operandNode] => do
    let operand ← typeOfValue ns operandNode
    unaryResult op operand
  | leftNode :: rightNode :: _ => do
    let left ← typeOfValue ns leftNode
    let right ← typeOfValue ns rightNode
    binaryResult op left right
  | [] => .error .panicked
termination_by (sizeOf children, 0)

def checkComparison (ns : Namespace) (node : Value) : Except Fault Unit := do
  let construct ← comparisonConstructName ((node.getStr "type").getD "")
  let ⟨leftNode, _⟩ ← memberOf node "left" "COMPARISON.left"
  let ⟨rightNode, _⟩ ← memberOf node "right" "COMPARISON.right"
  let left ← typeOfValue ns leftNode
  let right ← typeOfValue ns rightNode
  checkPair construct left right false
termination_by (sizeOf node, 0)

/-- Every pair of the three operands. -/
def checkBetween (ns : Namespace) (node : Value) : Except Fault Unit := do
  let ⟨input, _⟩ ← memberOf node "input" "BETWEEN.input"
  let ⟨lower, _⟩ ← memberOf node "lower" "BETWEEN.lower"
  let ⟨upper, _⟩ ← memberOf node "upper" "BETWEEN.upper"
  let ti ← typeOfValue ns input
  let tl ← typeOfValue ns lower
  checkPair "BETWEEN" ti tl false
  let tu ← typeOfValue ns upper
  checkPair "BETWEEN" ti tu false
  checkPair "BETWEEN" tl tu false
termination_by (sizeOf node, 0)

def checkIn (ns : Namespace) (node : Value) : Except Fault Unit := do
  let ⟨children, _⟩ ← childrenOf node
  let ⟨needleNode, members, _, _⟩ ← firstChild children "COMPARE_IN.children[0]"
  let needle ← typeOfValue ns needleNode
  checkMembers ns needle members
termination_by (sizeOf node, 0)

/-- Each member of `IN` against the needle. -/
def checkMembers (ns : Namespace) (needle : Typed) (members : List Value) : Except Fault Unit :=
  match members with
  | [] => .ok ()
  | member :: members => do
    let tm ← typeOfValue ns member
    checkPair "IN" needle tm false
    checkMembers ns needle members
termination_by (sizeOf members, 0)

def checkPattern (ns : Namespace) (functionName : String) (children : List Value) :
    Except Fault Unit :=
  match children with
  | [operandNode, patternNode] => do
    let operand ← typeOfValue ns operandNode
    let pattern ← typeOfValue ns patternNode
    patternResult (patternName functionName) operand pattern
  | children => refuse (.constructNotAdmitted ("`" ++ patternName functionName ++ "` with " ++
      toString children.length ++ " operand(s)"))
termination_by (sizeOf children, 0)

def checkJunctionChildren (ns : Namespace) (children : List Value) (construct : String) :
    Except Fault Unit :=
  match children with
  | [] => .ok ()
  | child :: children => do
    checkBooleanOperand ns child construct
    checkJunctionChildren ns children construct
termination_by (sizeOf children, 0)

/-- One operand of a boolean context. -/
def checkBooleanOperand (ns : Namespace) (node : Value) (construct : String) : Except Fault Unit :=
  match (node.getStr "class").getD "" with
  | "COMPARISON" => checkComparison ns node
  | "BETWEEN" => checkBetween ns node
  | "CONJUNCTION" => do
    let ⟨children, _⟩ ← childrenOf node
    checkJunctionChildren ns children (junctionName node)
  | "OPERATOR" =>
    match (node.getStr "type").getD "" with
    | "OPERATOR_NOT" => do
      let ⟨children, _⟩ ← childrenOf node
      checkJunctionChildren ns children "NOT"
    | "OPERATOR_IS_NULL" | "OPERATOR_IS_NOT_NULL" => do
      let ⟨children, _⟩ ← childrenOf node
      let ⟨operand, _, _, _⟩ ← firstChild children "OPERATOR.children[0]"
      let _ ← typeOfValue ns operand
      return ()
    | "COMPARE_IN" => checkIn ns node
    | other => refuse (.constructNotAdmitted ("OPERATOR::" ++ other ++ " in a boolean context"))
  | "FUNCTION" => do
    let name := (node.getStr "function_name").getD ""
    if name ∈ ADMITTED_PATTERN_FUNCTIONS then do
      let ⟨children, _⟩ ← childrenOf node
      checkPattern ns name children
    else do
      let typed ← typeOfValue ns node
      requireBooleanOrNull typed construct
  | _ => do
    let typed ← typeOfValue ns node
    requireBooleanOrNull typed construct
termination_by (sizeOf node, 2)

end

/-- The type walk over the operands of a whole predicate. -/
def typeWalk (operands : List Value) (ns : Namespace) : Except Fault Unit :=
  checkJunctionChildren ns operands "AND"

end SpatialIde.Engine.Predicate
