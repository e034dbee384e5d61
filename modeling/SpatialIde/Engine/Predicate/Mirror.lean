import SpatialIde.Engine.Predicate.TypeWalk

/-! # The type walk mirrors the structural walk

Of operands that `walkExpr` admits, that name columns of the namespace and that are as the
serializer writes them (`Serialized`), the type walk refuses at most the types
(`typeWalk_mirrors`).

The induction is over a tree of which something holds everywhere (`Everywhere`), and carries both
positions a node can stand in at once.
-/

namespace SpatialIde.Engine.Predicate

open Lib Lib.Json

/-! ### What the serializer writes -/

/-- The value of an integer literal: a number, or two halves that are numbers. -/
inductive IntegerValue (id : String) (raw : Value) : Prop
  | signed (n : Int) (reads : raw.asI64 = some n)
  | unsigned (n : UInt64) (reads : raw.asU64 = some n)
  | split (lower : UInt64) (upper : Int) (readsLower : (raw.get "lower").bind Value.asU64 = some lower)
      (readsUpper : (raw.get "upper").bind Value.asI64 = some upper) (named : id ≠ "UHUGEINT")
  | splitUnsigned (lower upper : UInt64)
      (readsLower : (raw.get "lower").bind Value.asU64 = some lower)
      (readsUpper : (raw.get "upper").bind Value.asU64 = some upper) (named : id = "UHUGEINT")

/-- The literal kinds. -/
inductive LiteralKind (value : Value) : Prop
  | null (isNull : (value.get "is_null").bind Value.asBool = some true)
  | integer (ty : Value) (id : String) (raw : Value) (hasType : value.get "type" = some ty)
      (hasId : ty.getStr "id" = some id) (named : id ∈ ["INTEGER", "BIGINT", "HUGEINT", "UHUGEINT"])
      (hasValue : value.get "value" = some raw) (reads : IntegerValue id raw)
  | decimal (ty info : Value) (hasType : value.get "type" = some ty)
      (hasId : ty.getStr "id" = some "DECIMAL") (hasInfo : ty.get "type_info" = some info)
  | double (ty : Value) (hasType : value.get "type" = some ty)
      (hasId : ty.getStr "id" = some "DOUBLE")
  | varchar (ty : Value) (hasType : value.get "type" = some ty)
      (hasId : ty.getStr "id" = some "VARCHAR")

def COMPARISON_TYPES : List String :=
  ["COMPARE_EQUAL", "COMPARE_NOTEQUAL", "COMPARE_LESSTHAN", "COMPARE_LESSTHANOREQUALTO",
    "COMPARE_GREATERTHAN", "COMPARE_GREATERTHANOREQUALTO", "COMPARE_DISTINCT_FROM",
    "COMPARE_NOT_DISTINCT_FROM"]

/-- **One node as the serializer writes it.** -/
structure Serialized (node : Value) : Prop where
  literal : node.getStr "class" = some "CONSTANT" →
    ∃ value, node.get "value" = some value ∧ LiteralKind value
  comparison : node.getStr "class" = some "COMPARISON" →
    ∃ t ∈ COMPARISON_TYPES, node.getStr "type" = some t
  arity : node.getStr "class" = some "FUNCTION" → ∀ name ∈ ADMITTED_ARITHMETIC_FUNCTIONS,
    node.getStr "function_name" = some name →
      ∀ children, (node.get "children").bind Value.asArray = some children →
        children.length = 2 ∨ ((name = "-" ∨ name = "+") ∧ children.length = 1)

/-- What the type walk is promised of a node. -/
structure Typable (ns : Namespace) (node : Value) : Prop where
  admitted : Admitted node
  key : ∀ name, columnName node = some name → ∃ surrogate, ns.get name = some surrogate
  serialized : Serialized node

/-- `P` holds of every node of a tree. -/
inductive Everywhere (P : Value → Prop) : Value → Prop
  | mk {node : Value} (here : P node) (below : ∀ c ∈ operands node, Everywhere P c) :
      Everywhere P node

theorem everywhere_of_reaches {P : Value → Prop} {node : Value} {d : Nat}
    (h : ∀ v e, Reaches node d v e → P v) : Everywhere P node := by
  induction hn : sizeOf node using Nat.strong_induction_on generalizing node d with
  | _ n ih =>
    refine .mk (h _ _ (.refl node d)) fun c hc => ?_
    have hlt : sizeOf c < n := hn ▸ sizeOf_lt_of_mem_operands hc
    exact ih _ hlt (fun v e hreach => h v e (.down hc hreach)) rfl

/-! ### A result or a refusal by type -/

/-- The step gives a result, or refuses a type. -/
def Settles {α : Type} (x : Except Fault α) : Prop :=
  ∀ f, x = .error f → ∃ construct operandTypes reason,
    f = .refused (.typeNotAdmitted construct operandTypes reason)

section

variable {α β : Type}

theorem settles_ok {a : α} : Settles (.ok a : Except Fault α) := by
  intro f h
  cases h

theorem settles_of_eq_ok {x : Except Fault α} (h : ∃ a, x = .ok a) : Settles x := by
  obtain ⟨a, rfl⟩ := h
  exact settles_ok

theorem settles_refuse {construct : String} {operandTypes : List String}
    {reason : TypeRefusalReason} :
    Settles (refuse (.typeNotAdmitted construct operandTypes reason) : Except Fault α) := by
  intro f h
  cases h
  exact ⟨construct, operandTypes, reason, rfl⟩

theorem settles_bind {x : Except Fault α} {f : α → Except Fault β} (hx : Settles x)
    (hf : ∀ a, x = .ok a → Settles (f a)) : Settles (x >>= f) := by
  intro fault h
  rcases bind_eq_error h with h | ⟨a, ha, h⟩
  · exact hx fault h
  · exact hf a ha fault h

theorem settles_ok_bind {x : Except Fault α} {a : α} {f : α → Except Fault β} (hx : x = .ok a)
    (hf : Settles (f a)) : Settles (x >>= f) := by
  rw [hx]
  exact hf

end

theorem settles_ite {α : Type} {p : Prop} [Decidable p] {x y : Except Fault α} (hx : Settles x)
    (hy : Settles y) : Settles (if p then x else y) := by
  split_ifs
  · exact hx
  · exact hy

/-! ### The readers -/

theorem memberOf_ok {node c : Value} {key what : String} (h : node.get key = some c) :
    memberOf node key what = .ok ⟨c, Value.sizeOf_lt_of_get h⟩ := by
  unfold memberOf
  split
  · rename_i hnone
    rw [h] at hnone
    cases hnone
  · rename_i c' hsome
    rw [h] at hsome
    cases hsome
    rfl

theorem childrenOf_ok {node : Value} {children : List Value}
    (h : (node.get "children").bind Value.asArray = some children) :
    childrenOf node = .ok ⟨children, sizeOf_lt_of_children h⟩ := by
  unfold childrenOf
  split
  · rename_i hnone
    rw [h] at hnone
    cases hnone
  · rename_i c' hsome
    rw [h] at hsome
    cases hsome
    rfl

theorem integerLiteralValue_ok {id : String} {raw : Value} (h : IntegerValue id raw) :
    ∃ v, integerLiteralValue id (some raw) = .ok v := by
  unfold integerLiteralValue
  dsimp only
  split
  · exact ⟨_, rfl⟩
  · exact ⟨_, rfl⟩
  · rename_i hsigned hunsigned
    cases h with
    | signed n reads => rw [hsigned] at reads; cases reads
    | unsigned n reads => rw [hunsigned] at reads; cases reads
    | split lower upper readsLower readsUpper named =>
      rw [readsLower, readsUpper]
      exact ⟨_, if_neg named⟩
    | splitUnsigned lower upper readsLower readsUpper named =>
      rw [readsLower, readsUpper]
      exact ⟨_, if_pos named⟩

theorem literalTyped_ok {node value : Value} (hvalue : node.get "value" = some value)
    (h : LiteralKind value) : ∃ t, literalTyped node = .ok t := by
  unfold literalTyped
  rw [hvalue]
  dsimp only
  by_cases hnull : ((value.get "is_null").bind Value.asBool).getD false = true
  · rw [if_pos hnull]
    exact ⟨_, rfl⟩
  rw [if_neg hnull]
  cases h with
  | null isNull => rw [isNull] at hnull; exact absurd rfl hnull
  | integer ty id raw hasType hasId named hasValue reads =>
    obtain ⟨v, hv⟩ := integerLiteralValue_ok reads
    refine ⟨integerTyped id v, ?_⟩
    simp only [List.mem_cons, List.not_mem_nil, or_false] at named
    rcases named with rfl | rfl | rfl | rfl
    all_goals
      simp only [hasType, hasId, hasValue, Option.getD_some, hv]
      rfl
  | decimal ty info hasType hasId hasInfo =>
    simp only [hasType, hasId, hasInfo, Option.getD_some]
    exact ⟨_, rfl⟩
  | double ty hasType hasId =>
    simp only [hasType, hasId, Option.getD_some]
    exact ⟨_, rfl⟩
  | varchar ty hasType hasId =>
    simp only [hasType, hasId, Option.getD_some]
    exact ⟨_, rfl⟩

theorem comparisonConstructName_ok {t : String} (h : t ∈ COMPARISON_TYPES) :
    ∃ construct, comparisonConstructName t = .ok construct := by
  simp only [COMPARISON_TYPES, List.mem_cons, List.not_mem_nil, or_false] at h
  rcases h with rfl | rfl | rfl | rfl | rfl | rfl | rfl | rfl
  all_goals exact ⟨_, rfl⟩

/-! ### The rules for types -/

theorem exists_bits {t : Typed} (h : isInt t = true) : ∃ b, intBitsSigned t.ty = some b := by
  simp only [isInt, isInteger, Bool.and_eq_true] at h
  exact Option.isSome_iff_exists.1 h.1

theorem intPromote_ok {a b : EngineType} {x y : Nat × Bool} (ha : intBitsSigned a = some x)
    (hb : intBitsSigned b = some y) : ∃ t, intPromote a b = .ok t := by
  simp only [intPromote, ha, hb]
  split_ifs
  all_goals exact ⟨_, rfl⟩

theorem foldOrPromoteInteger_ok {l r : Typed} (hl : isInt l = true) (hr : isInt r = true) :
    ∃ t, foldOrPromoteInteger l r = .ok t := by
  obtain ⟨x, hx⟩ := exists_bits hl
  obtain ⟨y, hy⟩ := exists_bits hr
  unfold foldOrPromoteInteger
  split_ifs
  · exact ⟨_, rfl⟩
  · exact ⟨_, rfl⟩
  · exact intPromote_ok hx hy

theorem exists_ok_ite {α : Type} {p : Prop} [Decidable p] {x y : Except Fault α}
    (hx : p → ∃ a, x = .ok a) (hy : ∃ a, y = .ok a) : ∃ a, (if p then x else y) = .ok a := by
  by_cases hp : p
  · rw [if_pos hp]
    exact hx hp
  · rw [if_neg hp]
    exact hy

/-- No pair of operands makes the rules panic. -/
theorem admittedArithmeticResult_ok (l r : Typed) :
    ∃ o, admittedArithmeticResult l r = .ok o := by
  unfold admittedArithmeticResult
  iterate 4 refine exists_ok_ite (fun _ => ⟨_, rfl⟩) ?_
  refine exists_ok_ite (fun hint => ?_) ?_
  · obtain ⟨t, ht⟩ := foldOrPromoteInteger_ok hint.1 hint.2
    rw [ht]
    exact ⟨some t, rfl⟩
  -- no other rule promotes
  iterate 12 refine exists_ok_ite (fun _ => ⟨_, rfl⟩) ?_
  exact ⟨none, rfl⟩

theorem settles_checkPair {construct : String} {l r : Typed} :
    Settles (checkPair construct l r false) := by
  unfold checkPair
  exact settles_ok_bind rfl (settles_ite settles_ok settles_refuse)

theorem settles_requireBooleanOrNull {t : Typed} {construct : String} :
    Settles (requireBooleanOrNull t construct) :=
  settles_ite settles_ok settles_refuse

theorem settles_divisionResult {l r : Typed} : Settles (divisionResult l r) :=
  settles_ite settles_refuse (settles_ite settles_ok settles_ok)

theorem settles_unaryResult {op : String} {t : Typed} : Settles (unaryResult op t) :=
  settles_ite settles_ok (settles_ite settles_ok settles_refuse)

theorem settles_binaryResult {op : String} {l r : Typed} : Settles (binaryResult op l r) := by
  obtain ⟨o, ho⟩ := admittedArithmeticResult_ok l r
  refine settles_ok_bind ho ?_
  cases o with
  | none => exact settles_refuse
  | some ty => exact settles_ok

theorem settles_patternResult {construct : String} {operand pattern : Typed} :
    Settles (patternResult construct operand pattern) :=
  settles_ite settles_ok settles_refuse

/-! ### One node in both positions -/

/-- Both positions of a node settle. -/
def SettlesBoth (ns : Namespace) (node : Value) : Prop :=
  Settles (typeOfValue ns node) ∧ ∀ construct, Settles (checkBooleanOperand ns node construct)

section

variable {ns : Namespace}

theorem settles_checkJunctionChildren {construct : String} : ∀ {children : List Value},
    (∀ c ∈ children, SettlesBoth ns c) → Settles (checkJunctionChildren ns children construct) := by
  intro children
  induction children with
  | nil =>
    intro _
    rw [checkJunctionChildren]
    exact settles_ok
  | cons child children ih =>
    intro h
    rw [checkJunctionChildren]
    refine settles_bind ((h child List.mem_cons_self).2 construct) fun _ _ => ?_
    exact ih fun c hc => h c (List.mem_cons_of_mem _ hc)

theorem settles_checkMembers {needle : Typed} : ∀ {members : List Value},
    (∀ m ∈ members, SettlesBoth ns m) → Settles (checkMembers ns needle members) := by
  intro members
  induction members with
  | nil =>
    intro _
    rw [checkMembers]
    exact settles_ok
  | cons member members ih =>
    intro h
    rw [checkMembers]
    refine settles_bind (h member List.mem_cons_self).1 fun _ _ => ?_
    refine settles_bind settles_checkPair fun _ _ => ?_
    exact ih fun m hm => h m (List.mem_cons_of_mem _ hm)

theorem settles_two {l r : Value} {β : Type} {f : Typed → Typed → Except Fault β}
    (hl : SettlesBoth ns l) (hr : SettlesBoth ns r) (hf : ∀ x y, Settles (f x y)) :
    Settles (do let x ← typeOfValue ns l; let y ← typeOfValue ns r; f x y) :=
  settles_bind hl.1 fun x _ => settles_bind hr.1 fun y _ => hf x y

theorem settles_checkComparison {node left right : Value} {t : String}
    (hleft : node.get "left" = some left) (hright : node.get "right" = some right)
    (htype : node.getStr "type" = some t) (ht : t ∈ COMPARISON_TYPES)
    (hl : SettlesBoth ns left) (hr : SettlesBoth ns right) :
    Settles (checkComparison ns node) := by
  obtain ⟨construct, hconstruct⟩ := comparisonConstructName_ok ht
  rw [checkComparison, htype]
  refine settles_ok_bind hconstruct ?_
  refine settles_ok_bind (memberOf_ok hleft) (settles_ok_bind (memberOf_ok hright) ?_)
  exact settles_two hl hr fun _ _ => settles_checkPair

theorem settles_checkBetween {node input lower upper : Value}
    (hinput : node.get "input" = some input) (hlower : node.get "lower" = some lower)
    (hupper : node.get "upper" = some upper) (hi : SettlesBoth ns input)
    (hl : SettlesBoth ns lower) (hu : SettlesBoth ns upper) : Settles (checkBetween ns node) := by
  rw [checkBetween]
  refine settles_ok_bind (memberOf_ok hinput) (settles_ok_bind (memberOf_ok hlower)
    (settles_ok_bind (memberOf_ok hupper) ?_))
  refine settles_two hi hl fun _ _ => ?_
  refine settles_bind settles_checkPair fun _ _ => ?_
  refine settles_bind hu.1 fun _ _ => ?_
  exact settles_bind settles_checkPair fun _ _ => settles_checkPair

theorem settles_checkIn {node needle : Value} {members : List Value}
    (hchildren : (node.get "children").bind Value.asArray = some (needle :: members))
    (h : ∀ c ∈ needle :: members, SettlesBoth ns c) : Settles (checkIn ns node) := by
  rw [checkIn]
  refine settles_ok_bind (childrenOf_ok hchildren) (settles_ok_bind rfl ?_)
  refine settles_bind (h needle List.mem_cons_self).1 fun _ _ => ?_
  exact settles_checkMembers fun m hm => h m (List.mem_cons_of_mem _ hm)

theorem settles_checkPattern {name : String} {operand pattern : Value}
    (ho : SettlesBoth ns operand) (hp : SettlesBoth ns pattern) :
    Settles (checkPattern ns name [operand, pattern]) := by
  rw [checkPattern]
  exact settles_two ho hp fun _ _ => settles_patternResult

theorem settles_typeOfDivision {left right : Value} (hl : SettlesBoth ns left)
    (hr : SettlesBoth ns right) : Settles (typeOfDivision ns [left, right]) := by
  rw [typeOfDivision]
  exact settles_two hl hr fun _ _ => settles_divisionResult

theorem settles_typeOfArithmetic {op : String} {children : List Value}
    (hlength : children.length = 2 ∨ children.length = 1)
    (h : ∀ c ∈ children, SettlesBoth ns c) : Settles (typeOfArithmetic ns op children) := by
  match children, hlength with
  | [operand], _ =>
    rw [typeOfArithmetic]
    exact settles_bind (h operand List.mem_cons_self).1 fun _ _ => settles_unaryResult
  | [left, right], _ =>
    rw [typeOfArithmetic]
    exact settles_two (h left List.mem_cons_self)
      (h right (List.mem_cons_of_mem _ List.mem_cons_self)) fun _ _ => settles_binaryResult

theorem settles_typeOfColumn {node : Value} {name surrogate : String}
    (hnames : (node.get "column_names").bind Value.asArray = some [.string name])
    (hkey : ns.get name = some surrogate) : Settles (typeOfColumn ns node) := by
  obtain ⟨t, ht⟩ := Namespace.surrogate_ok hkey
  unfold typeOfColumn
  rw [hnames]
  simp only [List.head?_cons, Option.bind_some, Value.asStr]
  rw [hkey]
  dsimp only
  rw [ht]
  exact settles_ok

/-- **One step**: a node settles in both positions where its operands do. -/
theorem settles_typeOfValue {node : Value} (h : Typable ns node)
    (ih : ∀ c ∈ operands node, SettlesBoth ns c) : Settles (typeOfValue ns node) := by
  rw [typeOfValue]
  cases h.admitted with
  | constant isClass =>
    obtain ⟨value, hvalue, hkind⟩ := h.serialized.literal isClass
    rw [isClass]
    exact settles_of_eq_ok (literalTyped_ok hvalue hkind)
  | column name isClass names =>
    obtain ⟨surrogate, hkey⟩ := h.key name (by rw [columnName, if_pos isClass, names]; rfl)
    rw [isClass]
    exact settles_typeOfColumn names hkey
  | conjunction children isClass hasChildren =>
    rw [operands_conjunction isClass, hasChildren] at ih
    rw [isClass]
    refine settles_ok_bind (childrenOf_ok hasChildren) ?_
    exact settles_bind (settles_checkJunctionChildren ih) fun _ _ => settles_ok
  | comparison left right isClass hasLeft hasRight =>
    obtain ⟨t, ht, htype⟩ := h.serialized.comparison isClass
    rw [operands_comparison isClass hasLeft hasRight] at ih
    rw [isClass]
    refine settles_bind ?_ fun _ _ => settles_ok
    exact settles_checkComparison hasLeft hasRight htype ht (ih left (by simp)) (ih right (by simp))
  | between input lower upper isClass hasInput hasLower hasUpper =>
    rw [operands_between isClass hasInput hasLower hasUpper] at ih
    rw [isClass]
    refine settles_bind ?_ fun _ _ => settles_ok
    exact settles_checkBetween hasInput hasLower hasUpper (ih input (by simp))
      (ih lower (by simp)) (ih upper (by simp))
  | operator opType child isClass isType named hasChild =>
    rw [operands_operator isClass, hasChild] at ih
    rw [isClass]
    rcases named with rfl | rfl | rfl
    · simp only [Option.getD_some, isType]
      refine settles_ok_bind (childrenOf_ok hasChild) ?_
      exact settles_bind (settles_checkJunctionChildren ih) fun _ _ => settles_ok
    all_goals
      simp only [Option.getD_some, isType]
      refine settles_ok_bind (childrenOf_ok hasChild) (settles_ok_bind rfl ?_)
      exact settles_bind (ih child List.mem_cons_self).1 fun _ _ => settles_ok
  | isIn needle members isClass isType hasChildren nonempty literal =>
    rw [operands_operator isClass, hasChildren] at ih
    rw [isClass]
    simp only [Option.getD_some, isType]
    exact settles_bind (settles_checkIn hasChildren ih) fun _ _ => settles_ok
  | arithmetic name children isClass isName isOperator named hasChildren =>
    have harity := h.serialized.arity isClass name named isName children hasChildren
    rw [operands_function isClass, hasChildren] at ih
    rw [isClass]
    simp only [Option.getD_some, isName]
    refine settles_ok_bind (childrenOf_ok hasChildren) ?_
    dsimp only
    by_cases hdivision : name = "/"
    · rw [if_pos hdivision]
      rcases harity with htwo | ⟨hname, _⟩
      · obtain ⟨left, right, rfl⟩ := List.length_eq_two.1 htwo
        exact settles_typeOfDivision (ih left (by simp)) (ih right (by simp))
      · subst hdivision
        simp at hname
    · rw [if_neg hdivision, if_pos named]
      exact settles_typeOfArithmetic (harity.imp_right And.right) ih
  | pattern name operand pattern isClass isName isOperator named hasChildren literal =>
    rw [operands_function isClass, hasChildren] at ih
    rw [isClass]
    simp only [Option.getD_some, isName]
    refine settles_ok_bind (childrenOf_ok hasChildren) ?_
    have hnot : name ≠ "/" ∧ name ∉ ADMITTED_ARITHMETIC_FUNCTIONS := by
      simp only [ADMITTED_PATTERN_FUNCTIONS, List.mem_cons, List.not_mem_nil, or_false] at named
      rcases named with rfl | rfl
      · decide
      · decide
    dsimp only
    rw [if_neg hnot.1, if_neg hnot.2, if_pos named]
    refine settles_bind ?_ fun _ _ => settles_ok
    exact settles_checkPattern (ih operand (by simp)) (ih pattern (by simp))

theorem settles_checkBooleanOperand {node : Value} {construct : String} (h : Typable ns node)
    (ih : ∀ c ∈ operands node, SettlesBoth ns c) :
    Settles (checkBooleanOperand ns node construct) := by
  have hvalue : Settles (do
      let typed ← typeOfValue ns node
      requireBooleanOrNull typed construct) :=
    settles_bind (settles_typeOfValue h ih) fun _ _ => settles_requireBooleanOrNull
  rw [checkBooleanOperand]
  cases h.admitted with
  | constant isClass =>
    rw [isClass]
    exact hvalue
  | column name isClass names =>
    rw [isClass]
    exact hvalue
  | conjunction children isClass hasChildren =>
    rw [operands_conjunction isClass, hasChildren] at ih
    rw [isClass]
    exact settles_ok_bind (childrenOf_ok hasChildren) (settles_checkJunctionChildren ih)
  | comparison left right isClass hasLeft hasRight =>
    obtain ⟨t, ht, htype⟩ := h.serialized.comparison isClass
    rw [operands_comparison isClass hasLeft hasRight] at ih
    rw [isClass]
    exact settles_checkComparison hasLeft hasRight htype ht (ih left (by simp)) (ih right (by simp))
  | between input lower upper isClass hasInput hasLower hasUpper =>
    rw [operands_between isClass hasInput hasLower hasUpper] at ih
    rw [isClass]
    exact settles_checkBetween hasInput hasLower hasUpper (ih input (by simp))
      (ih lower (by simp)) (ih upper (by simp))
  | operator opType child isClass isType named hasChild =>
    rw [operands_operator isClass, hasChild] at ih
    rw [isClass]
    rcases named with rfl | rfl | rfl
    · simp only [Option.getD_some, isType]
      exact settles_ok_bind (childrenOf_ok hasChild) (settles_checkJunctionChildren ih)
    all_goals
      simp only [Option.getD_some, isType]
      refine settles_ok_bind (childrenOf_ok hasChild) (settles_ok_bind rfl ?_)
      exact settles_bind (ih child List.mem_cons_self).1 fun _ _ => settles_ok
  | isIn needle members isClass isType hasChildren nonempty literal =>
    rw [operands_operator isClass, hasChildren] at ih
    rw [isClass]
    simp only [Option.getD_some, isType]
    exact settles_checkIn hasChildren ih
  | arithmetic name children isClass isName isOperator named hasChildren =>
    have hnot : name ∉ ADMITTED_PATTERN_FUNCTIONS := by
      simp only [ADMITTED_ARITHMETIC_FUNCTIONS, List.mem_cons, List.not_mem_nil, or_false] at named
      rcases named with rfl | rfl | rfl | rfl
      all_goals decide
    rw [isClass]
    simp only [Option.getD_some, isName, if_neg hnot]
    exact hvalue
  | pattern name operand pattern isClass isName isOperator named hasChildren literal =>
    rw [operands_function isClass, hasChildren] at ih
    rw [isClass]
    simp only [Option.getD_some, isName, if_pos named]
    refine settles_ok_bind (childrenOf_ok hasChildren) ?_
    exact settles_checkPattern (ih operand (by simp)) (ih pattern (by simp))

theorem settlesBoth_of_everywhere {node : Value} (h : Everywhere (Typable ns) node) :
    SettlesBoth ns node := by
  induction h with
  | mk here below ih =>
    exact ⟨settles_typeOfValue here ih, fun _ => settles_checkBooleanOperand here ih⟩

end

/-! ### The whole walk -/

theorem mem_columnsOf_of_reaches {node v : Value} {d e : Nat} {name : String}
    (h : Reaches node d v e) (hname : columnName v = some name) : name ∈ columnsOf node := by
  induction h with
  | refl node d =>
    rw [columnsOf_eq, hname]
    exact List.mem_append_left _ List.mem_cons_self
  | down child rest ih =>
    rw [columnsOf_eq]
    exact List.mem_append_right _ (List.mem_flatMap.2 ⟨_, child, ih hname⟩)

/-- **The type walk mirrors the structural walk.**  It comes to an end, or refuses operands for
their types: no construct is left that it does not know, no column, and nothing to panic at. -/
theorem typeWalk_mirrors {ns : Namespace} {ops : List Value} {columns : List String}
    (hwalk : walkAll ops 1 [] = .ok columns)
    (hkeys : ∀ name ∈ columns, ∃ surrogate, ns.get name = some surrogate)
    (hserialized : ∀ op ∈ ops, ∀ v e, Reaches op 1 v e → Serialized v) :
    typeWalk ops ns = .ok () ∨ ∃ construct operandTypes reason,
      typeWalk ops ns = .error (.refused (.typeNotAdmitted construct operandTypes reason)) := by
  obtain ⟨hsound, hcolumns⟩ := walkAll_sound (fun h => walkExpr_sound h) hwalk
  have htypable : ∀ op ∈ ops, SettlesBoth ns op := by
    intro op hop
    refine settlesBoth_of_everywhere (everywhere_of_reaches (d := 1) fun v e hreach => ?_)
    refine ⟨(hsound op hop v e hreach).1, fun name hname => hkeys name ?_,
      hserialized op hop v e hreach⟩
    rw [hcolumns, List.nil_append]
    exact List.mem_flatMap.2 ⟨op, hop, mem_columnsOf_of_reaches hreach hname⟩
  have hsettles : Settles (typeWalk ops ns) := settles_checkJunctionChildren htypable
  cases hresult : typeWalk ops ns with
  | ok u => exact .inl rfl
  | error f =>
    obtain ⟨construct, operandTypes, reason, rfl⟩ := hsettles f hresult
    exact .inr ⟨construct, operandTypes, reason, rfl⟩

/-- The one column `zone`, a text. -/
def zones : Namespace :=
  ⟨[("zone", "VARCHAR")], fun e he => ⟨.utf8, by rw [List.mem_singleton.1 he]; rfl⟩⟩

/-- A node of one class is of no other. -/
theorem class_ne {node : Value} {c c' : String} {P : Prop} (h : node.getStr "class" = some c)
    (hne : c ≠ c') (h' : node.getStr "class" = some c') : P := by
  rw [h] at h'
  exact absurd (Option.some.inj h') hne

theorem serialized_columnNode (name : String) : Serialized (columnNode name) where
  literal := class_ne rfl (by decide)
  comparison := class_ne rfl (by decide)
  arity := class_ne rfl (by decide)

theorem serialized_textNode (text : String) : Serialized (textNode text) where
  literal _ := ⟨_, rfl, .varchar _ rfl rfl⟩
  comparison := class_ne rfl (by decide)
  arity := class_ne rfl (by decide)

theorem serialized_zoneNode : Serialized zoneNode where
  literal := class_ne rfl (by decide)
  comparison _ := ⟨"COMPARE_EQUAL", by decide, rfl⟩
  arity := class_ne rfl (by decide)

theorem typeWalk_mirrors_zones :
    typeWalk [zoneNode] zones = .ok () ∨ ∃ construct operandTypes reason,
      typeWalk [zoneNode] zones =
        .error (.refused (.typeNotAdmitted construct operandTypes reason)) := by
  have hoperands : operands zoneNode = [columnNode "zone", textNode "residential"] :=
    operands_comparison rfl rfl rfl
  refine typeWalk_mirrors (walkAll_cons.2 ⟨["zone"], walkExpr_zoneNode, walkAll_nil.2 rfl⟩)
    (fun name hname => ⟨"VARCHAR", ?_⟩) fun op hop v e hreach => ?_
  · rw [List.mem_singleton.1 hname]
    rfl
  · rw [List.mem_singleton.1 hop] at hreach
    cases hreach with
    | refl => exact serialized_zoneNode
    | down hchild hrest =>
      rw [hoperands] at hchild
      simp only [List.mem_cons, List.not_mem_nil, or_false] at hchild
      rcases hchild with rfl | rfl
      · cases hrest with
        | refl => exact serialized_columnNode "zone"
        | down hchild => rw [operands_columnRef rfl] at hchild; cases hchild
      · cases hrest with
        | refl => exact serialized_textNode "residential"
        | down hchild => rw [operands_constant rfl] at hchild; cases hchild

end SpatialIde.Engine.Predicate
