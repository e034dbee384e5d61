import SpatialIde.Engine.Predicate.Mirror

/-! # The type walk and the order of operands

Of two trees that differ in the order of operands (`Reordered`), the type walk
accepts both or neither, and gives corresponding values one type
(`typeWalk_reordered`).

The rules are mirrored clause by clause; `admittedArithmeticResult_comm` and
`isAdmittedComparison_comm` say that no mirror is missing.
-/

namespace SpatialIde.Engine.Predicate

open Lib Lib.Json

/-! ### The rules for two operands -/

theorem isAdmittedComparison_comm (l r : Typed) :
    isAdmittedComparison l r = isAdmittedComparison r l := by
  have hty : (l.ty == r.ty) = (r.ty == l.ty) := by
    rw [Bool.eq_iff_iff, beq_iff_eq, beq_iff_eq, eq_comm]
  unfold isAdmittedComparison
  rw [hty]
  ac_rfl

/-- Two clauses that mirror each other stand in either order. -/
theorem ite_pair_comm {α : Type} {p q : Prop} [Decidable p] [Decidable q] {x y z z' : α}
    (h : p → q → x = y) (hz : z = z') :
    (if p then x else if q then y else z) = (if q then y else if p then x else z') := by
  subst hz
  by_cases hp : p
  · by_cases hq : q
    · rw [if_pos hp, if_pos hq, h hp hq]
    · rw [if_pos hp, if_neg hq, if_pos hp]
  · rw [if_neg hp, if_neg hp]

theorem intPromote_comm (a b : EngineType) : intPromote a b = intPromote b a := by
  unfold intPromote
  cases ha : intBitsSigned a with
  | none => cases intBitsSigned b <;> rfl
  | some x =>
    cases hb : intBitsSigned b with
    | none => rfl
    | some y =>
      obtain ⟨abits, asig⟩ := x
      obtain ⟨bbits, bsig⟩ := y
      dsimp only
      cases asig <;> cases bsig <;> simp [Nat.max_comm]

theorem foldsTo_exclusive {l r : Typed} (h : foldsTo l r = true) : foldsTo r l = false := by
  simp only [foldsTo, Bool.and_eq_true, beq_iff_eq, bne_iff_ne] at h
  have hkind := h.1.2
  simp [foldsTo, hkind]

theorem foldOrPromoteInteger_comm (l r : Typed) :
    foldOrPromoteInteger l r = foldOrPromoteInteger r l := by
  unfold foldOrPromoteInteger
  refine ite_pair_comm (fun hl hr => ?_) (intPromote_comm l.ty r.ty)
  rw [foldsTo_exclusive hl] at hr
  cases hr

theorem isNumericLit_of_nonliteral {t : Typed} (h : isFloatNonliteral t = true) :
    isNumericLit t = false := by
  simp only [isFloatNonliteral, Bool.and_eq_true, bne_iff_ne] at h
  simp [isNumericLit, h.2]

theorem admittedArithmeticResult_comm (l r : Typed) :
    admittedArithmeticResult l r = admittedArithmeticResult r l := by
  unfold admittedArithmeticResult
  by_cases hsame : l.ty = r.ty ∧ isFloat l = true
  · have hfloat : isFloat r = true := by
      rw [isFloat, ← hsame.1]
      exact hsame.2
    rw [if_pos hsame, if_pos ⟨hsame.1.symm, hfloat⟩, hsame.1]
  have hsame' : ¬(r.ty = l.ty ∧ isFloat r = true) := by
    rintro ⟨hty, hfloat⟩
    rw [isFloat, hty] at hfloat
    exact hsame ⟨hty.symm, hfloat⟩
  rw [if_neg hsame, if_neg hsame']
  by_cases hnull : l.ty = .null ∧ r.ty = .null
  · rw [if_pos hnull, if_pos hnull.symm]
  have hnull' : ¬(r.ty = .null ∧ l.ty = .null) := fun h => hnull h.symm
  rw [if_neg hnull, if_neg hnull']
  refine ite_pair_comm (fun hl hr => absurd ⟨hl.1, hr.1⟩ hnull) ?_
  by_cases hint : isInt l = true ∧ isInt r = true
  · rw [if_pos hint, if_pos hint.symm, foldOrPromoteInteger_comm]
  have hint' : ¬(isInt r = true ∧ isInt l = true) := fun h => hint h.symm
  rw [if_neg hint, if_neg hint']
  refine ite_pair_comm (fun hl hr => ?_) ?_
  · have hnot := isNumericLit_of_nonliteral hl.1
    rw [hr.2] at hnot
    cases hnot
  iterate 5 refine ite_pair_comm (fun _ _ => rfl) ?_
  rfl

/-! ### Steps that give the same results -/

/-- Two steps that give the same results; their errors may differ. -/
def Same {α : Type} (x y : Except Fault α) : Prop := ∀ a, x = .ok a ↔ y = .ok a

section

variable {α β γ : Type} {x x' : Except Fault α} {y y' : Except Fault β}

theorem same_refl (x : Except Fault α) : Same x x := fun _ => Iff.rfl

theorem same_errors {e e' : Fault} : Same (.error e : Except Fault α) (.error e') := by
  intro a
  simp

theorem same_bind {f f' : α → Except Fault β} (hx : Same x x') (hf : ∀ a, Same (f a) (f' a)) :
    Same (x >>= f) (x' >>= f') := by
  intro b
  rw [bind_eq_ok, bind_eq_ok]
  exact exists_congr fun a => and_congr (hx a) (hf a b)

/-- Two steps that do not depend on each other, in either order. -/
theorem same_swap {f f' : α → β → Except Fault γ} (hx : Same x x') (hy : Same y y')
    (hf : ∀ a b, Same (f a b) (f' a b)) :
    Same (do let a ← x; let b ← y; f a b) (do let b ← y'; let a ← x'; f' a b) := by
  intro c
  constructor
  · intro h
    obtain ⟨a, ha, h⟩ := bind_eq_ok.1 h
    obtain ⟨b, hb, h⟩ := bind_eq_ok.1 h
    exact bind_eq_ok.2 ⟨b, (hy b).1 hb, bind_eq_ok.2 ⟨a, (hx a).1 ha, (hf a b c).1 h⟩⟩
  · intro h
    obtain ⟨b, hb, h⟩ := bind_eq_ok.1 h
    obtain ⟨a, ha, h⟩ := bind_eq_ok.1 h
    exact bind_eq_ok.2 ⟨a, (hx a).2 ha, bind_eq_ok.2 ⟨b, (hy b).2 hb, (hf a b c).2 h⟩⟩

end

theorem checkPair_eq_ok {construct : String} {l r : Typed} :
    checkPair construct l r false = .ok () ↔ isAdmittedComparison l r = true := by
  unfold checkPair
  dsimp only [bind, Except.bind, Bool.false_eq_true, if_false]
  by_cases h : isAdmittedComparison l r = true
  · simp [h, pure, Except.pure]
  · simp [h, refuse]

theorem same_checkPair (construct construct' : String) (l r : Typed) :
    Same (checkPair construct l r false) (checkPair construct' r l false) := by
  intro a
  rw [checkPair_eq_ok, checkPair_eq_ok, isAdmittedComparison_comm]

theorem same_binaryResult (op : String) (l r : Typed) :
    Same (binaryResult op l r) (binaryResult op r l) := by
  unfold binaryResult
  rw [admittedArithmeticResult_comm l r]
  refine same_bind (same_refl _) fun o => ?_
  cases o with
  | none => exact same_errors
  | some ty =>
    dsimp only
    rw [Bool.and_comm l.withinBounds, Bool.or_comm]
    exact same_refl _

theorem same_divisionResult (l r : Typed) : Same (divisionResult l r) (divisionResult r l) := by
  unfold divisionResult
  by_cases htext : l.ty = .varchar ∨ r.ty = .varchar ∨ l.ty = .boolean ∨ r.ty = .boolean
  · have htext' : r.ty = .varchar ∨ l.ty = .varchar ∨ r.ty = .boolean ∨ l.ty = .boolean := by tauto
    rw [if_pos htext, if_pos htext']
    exact same_errors
  · have htext' : ¬(r.ty = .varchar ∨ l.ty = .varchar ∨ r.ty = .boolean ∨ l.ty = .boolean) := by
      tauto
    rw [if_neg htext, if_neg htext']
    simp only [or_comm (a := r.ty = .real), or_comm (a := r.ty = .double)]
    exact same_refl _

/-! ### Trees in another order -/

/-- Two nodes that differ in the members `keys` alone. -/
def SameBut (keys : List String) (v v' : Value) : Prop := ∀ key, key ∉ keys → v'.get key = v.get key

/-- **The same tree with operands in another order**, at any of its nodes: the two of a comparison
and of a binary `+`, `-`, `*` or `/`, those of `AND` and `OR`, and the members of `IN`. -/
inductive Reordered : Value → Value → Prop
  | refl (v : Value) : Reordered v v
  | comparison {v v' left left' right right' : Value}
      (isClass : v.getStr "class" = some "COMPARISON") (same : SameBut ["left", "right"] v v')
      (hasLeft : v.get "left" = some left) (hasRight : v.get "right" = some right)
      (hasLeft' : v'.get "left" = some left') (hasRight' : v'.get "right" = some right')
      (hleft : Reordered left left') (hright : Reordered right right') : Reordered v v'
  | swapped {v v' left left' right right' : Value}
      (isClass : v.getStr "class" = some "COMPARISON") (same : SameBut ["left", "right"] v v')
      (hasLeft : v.get "left" = some left) (hasRight : v.get "right" = some right)
      (hasLeft' : v'.get "left" = some right') (hasRight' : v'.get "right" = some left')
      (hleft : Reordered left left') (hright : Reordered right right') : Reordered v v'
  | between {v v' input input' lower lower' upper upper' : Value}
      (isClass : v.getStr "class" = some "BETWEEN") (same : SameBut ["input", "lower", "upper"] v v')
      (hasInput : v.get "input" = some input) (hasLower : v.get "lower" = some lower)
      (hasUpper : v.get "upper" = some upper) (hasInput' : v'.get "input" = some input')
      (hasLower' : v'.get "lower" = some lower') (hasUpper' : v'.get "upper" = some upper')
      (hinput : Reordered input input') (hlower : Reordered lower lower')
      (hupper : Reordered upper upper') : Reordered v v'
  | junction {v v' : Value} {children mid children' : List Value}
      (isClass : v.getStr "class" = some "CONJUNCTION") (same : SameBut ["children"] v v')
      (hasChildren : (v.get "children").bind Value.asArray = some children)
      (hasChildren' : (v'.get "children").bind Value.asArray = some children')
      (h : List.Forall₂ Reordered children mid) (hperm : mid.Perm children') : Reordered v v'
  | operator {v v' : Value} {children children' : List Value}
      (isClass : v.getStr "class" = some "OPERATOR") (same : SameBut ["children"] v v')
      (hasChildren : (v.get "children").bind Value.asArray = some children)
      (hasChildren' : (v'.get "children").bind Value.asArray = some children')
      (h : List.Forall₂ Reordered children children') : Reordered v v'
  | members {v v' needle needle' : Value} {members members' : List Value}
      (isClass : v.getStr "class" = some "OPERATOR") (isType : v.getStr "type" = some "COMPARE_IN")
      (same : SameBut ["children"] v v')
      (hasChildren : (v.get "children").bind Value.asArray = some (needle :: members))
      (hasChildren' : (v'.get "children").bind Value.asArray = some (needle' :: members'))
      (hneedle : Reordered needle needle') (hperm : members.Perm members') : Reordered v v'
  | function {v v' : Value} {children children' : List Value}
      (isClass : v.getStr "class" = some "FUNCTION") (same : SameBut ["children"] v v')
      (hasChildren : (v.get "children").bind Value.asArray = some children)
      (hasChildren' : (v'.get "children").bind Value.asArray = some children')
      (h : List.Forall₂ Reordered children children') : Reordered v v'
  | binary {v v' left left' right right' : Value} {name : String}
      (isClass : v.getStr "class" = some "FUNCTION") (isName : v.getStr "function_name" = some name)
      (named : name ∈ ADMITTED_ARITHMETIC_FUNCTIONS) (same : SameBut ["children"] v v')
      (hasChildren : (v.get "children").bind Value.asArray = some [left, right])
      (hasChildren' : (v'.get "children").bind Value.asArray = some [right', left'])
      (hleft : Reordered left left') (hright : Reordered right right') : Reordered v v'

theorem SameBut.getStr {keys : List String} {v v' : Value} (h : SameBut keys v v') {key : String}
    (hkey : key ∉ keys) : v'.getStr key = v.getStr key := by
  rw [Value.getStr, Value.getStr, h key hkey]

/-! ### The parts of the walk -/

/-- Both positions of two nodes give the same results. -/
def SameBoth (ns : Namespace) (v v' : Value) : Prop :=
  Same (typeOfValue ns v) (typeOfValue ns v') ∧
    ∀ construct, Same (checkBooleanOperand ns v construct) (checkBooleanOperand ns v' construct)

section

variable {ns : Namespace}

theorem sameBoth_refl (v : Value) : SameBoth ns v v := ⟨same_refl _, fun _ => same_refl _⟩

/-- Each child is accepted. -/
theorem checkJunctionChildren_eq_ok {construct : String} : ∀ {children : List Value},
    checkJunctionChildren ns children construct = .ok () ↔
      ∀ c ∈ children, checkBooleanOperand ns c construct = .ok () := by
  intro children
  induction children with
  | nil =>
    rw [checkJunctionChildren]
    simp
  | cons child children ih =>
    rw [checkJunctionChildren, bind_eq_ok, List.forall_mem_cons, ← ih]
    constructor
    · rintro ⟨⟨⟩, hchild, hrest⟩
      exact ⟨hchild, hrest⟩
    · rintro ⟨hchild, hrest⟩
      exact ⟨(), hchild, hrest⟩

/-- Each member may be compared with the needle. -/
theorem checkMembers_eq_ok {needle : Typed} : ∀ {members : List Value},
    checkMembers ns needle members = .ok () ↔
      ∀ m ∈ members, ∃ t, typeOfValue ns m = .ok t ∧ isAdmittedComparison needle t = true := by
  intro members
  induction members with
  | nil =>
    rw [checkMembers]
    simp
  | cons member members ih =>
    rw [checkMembers, bind_eq_ok, List.forall_mem_cons, ← ih]
    constructor
    · rintro ⟨t, ht, h⟩
      obtain ⟨⟨⟩, hpair, hrest⟩ := bind_eq_ok.1 h
      exact ⟨⟨t, ht, checkPair_eq_ok.1 hpair⟩, hrest⟩
    · rintro ⟨⟨t, ht, hpair⟩, hrest⟩
      exact ⟨t, ht, bind_eq_ok.2 ⟨(), checkPair_eq_ok.2 hpair, hrest⟩⟩

theorem same_unit {x y : Except Fault Unit} (h : x = .ok () ↔ y = .ok ()) : Same x y :=
  fun _ => h

theorem same_checkJunctionChildren {construct : String} {children mid children' : List Value}
    (h : List.Forall₂ (SameBoth ns) children mid) (hperm : mid.Perm children') :
    Same (checkJunctionChildren ns children construct)
      (checkJunctionChildren ns children' construct) := by
  refine same_unit ?_
  rw [checkJunctionChildren_eq_ok, checkJunctionChildren_eq_ok]
  have hmid : (∀ c ∈ children, checkBooleanOperand ns c construct = .ok ()) ↔
      ∀ c ∈ mid, checkBooleanOperand ns c construct = .ok () := by
    clear hperm
    induction h with
    | nil => exact Iff.rfl
    | cons hchild _ ih =>
      rw [List.forall_mem_cons, List.forall_mem_cons]
      exact and_congr (hchild.2 construct ()) ih
  rw [hmid]
  exact forall_congr' fun c => imp_congr_left hperm.mem_iff

theorem same_checkMembers {needle : Typed} {members mid members' : List Value}
    (h : List.Forall₂ (SameBoth ns) members mid) (hperm : mid.Perm members') :
    Same (checkMembers ns needle members) (checkMembers ns needle members') := by
  refine same_unit ?_
  rw [checkMembers_eq_ok, checkMembers_eq_ok]
  have hmid : (∀ m ∈ members, ∃ t, typeOfValue ns m = .ok t ∧
        isAdmittedComparison needle t = true) ↔
      ∀ m ∈ mid, ∃ t, typeOfValue ns m = .ok t ∧ isAdmittedComparison needle t = true := by
    clear hperm
    induction h with
    | nil => exact Iff.rfl
    | cons hmember _ ih =>
      rw [List.forall_mem_cons, List.forall_mem_cons]
      exact and_congr (exists_congr fun t => and_congr_left' (hmember.1 t)) ih
  rw [hmid]
  exact forall_congr' fun m => imp_congr_left hperm.mem_iff

theorem checkComparison_eq {node left right : Value} (hasLeft : node.get "left" = some left)
    (hasRight : node.get "right" = some right) : checkComparison ns node = (do
      let construct ← comparisonConstructName ((node.getStr "type").getD "")
      let l ← typeOfValue ns left
      let r ← typeOfValue ns right
      checkPair construct l r false) := by
  rw [checkComparison, memberOf_ok hasLeft, memberOf_ok hasRight]
  rfl

theorem checkBetween_eq {node input lower upper : Value} (hasInput : node.get "input" = some input)
    (hasLower : node.get "lower" = some lower) (hasUpper : node.get "upper" = some upper) :
    checkBetween ns node = (do
      let ti ← typeOfValue ns input
      let tl ← typeOfValue ns lower
      checkPair "BETWEEN" ti tl false
      let tu ← typeOfValue ns upper
      checkPair "BETWEEN" ti tu false
      checkPair "BETWEEN" tl tu false) := by
  rw [checkBetween, memberOf_ok hasInput, memberOf_ok hasLower, memberOf_ok hasUpper]
  rfl

theorem checkIn_eq {node : Value} {children : List Value}
    (hasChildren : (node.get "children").bind Value.asArray = some children) :
    checkIn ns node = (match children with
      | [] => refuse (missingField "COMPARE_IN.children[0]")
      | needleNode :: members => do
        let needle ← typeOfValue ns needleNode
        checkMembers ns needle members) := by
  rw [checkIn, childrenOf_ok hasChildren]
  cases children <;> rfl

/-- A comparison stands in either position alike. -/
theorem sameBoth_comparison {v v' : Value} (isClass : v.getStr "class" = some "COMPARISON")
    (isClass' : v'.getStr "class" = some "COMPARISON")
    (h : Same (checkComparison ns v) (checkComparison ns v')) : SameBoth ns v v' := by
  constructor
  · rw [typeOfValue, typeOfValue, isClass, isClass']
    exact same_bind h fun _ => same_refl _
  · intro construct
    rw [checkBooleanOperand, checkBooleanOperand, isClass, isClass']
    exact h

theorem sameBoth_between {v v' : Value} (isClass : v.getStr "class" = some "BETWEEN")
    (isClass' : v'.getStr "class" = some "BETWEEN")
    (h : Same (checkBetween ns v) (checkBetween ns v')) : SameBoth ns v v' := by
  constructor
  · rw [typeOfValue, typeOfValue, isClass, isClass']
    exact same_bind h fun _ => same_refl _
  · intro construct
    rw [checkBooleanOperand, checkBooleanOperand, isClass, isClass']
    exact h

theorem sameBoth_junction {v v' : Value} {children mid children' : List Value}
    (isClass : v.getStr "class" = some "CONJUNCTION") (same : SameBut ["children"] v v')
    (hasChildren : (v.get "children").bind Value.asArray = some children)
    (hasChildren' : (v'.get "children").bind Value.asArray = some children')
    (h : List.Forall₂ (SameBoth ns) children mid) (hperm : mid.Perm children') :
    SameBoth ns v v' := by
  have isClass' : v'.getStr "class" = some "CONJUNCTION" :=
    (same.getStr (by decide)).trans isClass
  have hname : junctionName v' = junctionName v := by
    rw [junctionName, junctionName, same.getStr (by decide)]
  constructor
  · rw [typeOfValue, typeOfValue, isClass, isClass']
    dsimp only [Option.getD_some]
    rw [childrenOf_ok hasChildren, childrenOf_ok hasChildren', hname]
    exact same_bind (same_checkJunctionChildren h hperm) fun _ => same_refl _
  · intro construct
    rw [checkBooleanOperand, checkBooleanOperand, isClass, isClass']
    dsimp only [Option.getD_some]
    rw [childrenOf_ok hasChildren, childrenOf_ok hasChildren', hname]
    exact same_checkJunctionChildren h hperm

/-- `IS [NOT] NULL` reads the first of its children. -/
theorem same_firstChild {α : Type} {children children' : List Value} {a : α}
    (h : List.Forall₂ (SameBoth ns) children children') :
    Same (do
        let ⟨operand, _, _, _⟩ ← firstChild children "OPERATOR.children[0]"
        let _ ← typeOfValue ns operand
        return a)
      (do
        let ⟨operand, _, _, _⟩ ← firstChild children' "OPERATOR.children[0]"
        let _ ← typeOfValue ns operand
        return a) := by
  cases h with
  | nil => exact same_refl _
  | cons hfirst _ => exact same_bind hfirst.1 fun _ => same_refl _

theorem same_checkIn {v v' : Value} {children children' : List Value}
    (hasChildren : (v.get "children").bind Value.asArray = some children)
    (hasChildren' : (v'.get "children").bind Value.asArray = some children')
    (h : List.Forall₂ (SameBoth ns) children children') :
    Same (checkIn ns v) (checkIn ns v') := by
  rw [checkIn_eq hasChildren, checkIn_eq hasChildren']
  cases h with
  | nil => exact same_refl _
  | cons hneedle hmembers =>
    exact same_bind hneedle.1 fun needle => same_checkMembers hmembers (List.Perm.refl _)

/-- An operator with its type, in both positions. -/
theorem sameBoth_operator {v v' : Value} {children children' : List Value}
    (isClass : v.getStr "class" = some "OPERATOR") (same : SameBut ["children"] v v')
    (hasChildren : (v.get "children").bind Value.asArray = some children)
    (hasChildren' : (v'.get "children").bind Value.asArray = some children')
    (hnot : ∀ construct, Same (checkJunctionChildren ns children construct)
      (checkJunctionChildren ns children' construct))
    (hfirst : ∀ {α : Type} (a : α), Same
      (do
        let ⟨operand, _, _, _⟩ ← firstChild children "OPERATOR.children[0]"
        let _ ← typeOfValue ns operand
        return a)
      (do
        let ⟨operand, _, _, _⟩ ← firstChild children' "OPERATOR.children[0]"
        let _ ← typeOfValue ns operand
        return a))
    (hin : Same (checkIn ns v) (checkIn ns v')) : SameBoth ns v v' := by
  have isClass' : v'.getStr "class" = some "OPERATOR" := (same.getStr (by decide)).trans isClass
  have htype : v'.getStr "type" = v.getStr "type" := same.getStr (by decide)
  constructor
  · rw [typeOfValue, typeOfValue, isClass, isClass', htype]
    simp only [Option.getD_some, childrenOf_ok hasChildren, childrenOf_ok hasChildren']
    split
    · exact same_bind (hnot "NOT") fun _ => same_refl _
    · exact hfirst _
    · exact hfirst _
    · exact same_bind hin fun _ => same_refl _
    · exact same_refl _
  · intro construct
    rw [checkBooleanOperand, checkBooleanOperand, isClass, isClass', htype]
    simp only [Option.getD_some, childrenOf_ok hasChildren, childrenOf_ok hasChildren']
    split
    · exact hnot "NOT"
    · exact hfirst _
    · exact hfirst _
    · exact hin
    · exact same_refl _

theorem sameBoth_in {v v' : Value} (isClass : v.getStr "class" = some "OPERATOR")
    (isType : v.getStr "type" = some "COMPARE_IN") (same : SameBut ["children"] v v')
    (h : Same (checkIn ns v) (checkIn ns v')) : SameBoth ns v v' := by
  have isClass' : v'.getStr "class" = some "OPERATOR" := (same.getStr (by decide)).trans isClass
  have isType' : v'.getStr "type" = some "COMPARE_IN" := (same.getStr (by decide)).trans isType
  constructor
  · rw [typeOfValue, typeOfValue, isClass, isClass', isType, isType']
    exact same_bind h fun _ => same_refl _
  · intro construct
    rw [checkBooleanOperand, checkBooleanOperand, isClass, isClass', isType, isType']
    exact h

theorem not_pattern_of_arithmetic {name : String} (h : name ∈ ADMITTED_ARITHMETIC_FUNCTIONS) :
    name ∉ ADMITTED_PATTERN_FUNCTIONS := by
  simp only [ADMITTED_ARITHMETIC_FUNCTIONS, List.mem_cons, List.not_mem_nil, or_false] at h
  rcases h with rfl | rfl | rfl | rfl
  all_goals decide

/-- The value of a function call. -/
def functionValue (ns : Namespace) (name : String) (children : List Value) : Except Fault Typed :=
  if name = "/" then typeOfDivision ns children
  else if name ∈ ADMITTED_ARITHMETIC_FUNCTIONS then typeOfArithmetic ns name children
  else if name ∈ ADMITTED_PATTERN_FUNCTIONS then do
    checkPattern ns name children
    return .expression .boolean
  else refuse (.constructNotAdmitted ("a function call (`" ++ name ++ "`)"))

theorem typeOfValue_function {v : Value} {children : List Value}
    (isClass : v.getStr "class" = some "FUNCTION")
    (hasChildren : (v.get "children").bind Value.asArray = some children) :
    typeOfValue ns v = functionValue ns ((v.getStr "function_name").getD "") children := by
  rw [typeOfValue, isClass]
  simp only [Option.getD_some, childrenOf_ok hasChildren]
  rfl

/-- A function call in both positions. -/
theorem sameBoth_function {v v' : Value} {children children' : List Value}
    (isClass : v.getStr "class" = some "FUNCTION") (same : SameBut ["children"] v v')
    (hasChildren : (v.get "children").bind Value.asArray = some children)
    (hasChildren' : (v'.get "children").bind Value.asArray = some children')
    (hvalue : Same (functionValue ns ((v.getStr "function_name").getD "") children)
      (functionValue ns ((v.getStr "function_name").getD "") children'))
    (hpattern : (v.getStr "function_name").getD "" ∈ ADMITTED_PATTERN_FUNCTIONS →
      Same (checkPattern ns ((v.getStr "function_name").getD "") children)
        (checkPattern ns ((v.getStr "function_name").getD "") children')) : SameBoth ns v v' := by
  have isClass' : v'.getStr "class" = some "FUNCTION" := (same.getStr (by decide)).trans isClass
  have hname : v'.getStr "function_name" = v.getStr "function_name" := same.getStr (by decide)
  have htype : Same (typeOfValue ns v) (typeOfValue ns v') := by
    rw [typeOfValue_function isClass hasChildren, typeOfValue_function isClass' hasChildren', hname]
    exact hvalue
  refine ⟨htype, fun construct => ?_⟩
  rw [checkBooleanOperand, checkBooleanOperand, isClass, isClass', hname]
  simp only [Option.getD_some, childrenOf_ok hasChildren, childrenOf_ok hasChildren']
  split_ifs with hnamed
  · exact hpattern hnamed
  · exact same_bind htype fun _ => same_refl _

theorem same_checkPattern {name : String} {children children' : List Value}
    (h : List.Forall₂ (SameBoth ns) children children') :
    Same (checkPattern ns name children) (checkPattern ns name children') := by
  have hlength := h.length_eq
  match children, children', h with
  | [operand, pattern], [operand', pattern'], .cons ho (.cons hp .nil) =>
    rw [checkPattern, checkPattern]
    exact same_bind ho.1 fun _ => same_bind hp.1 fun _ => same_refl _
  | [], [], _ => exact same_refl _
  | [a], [a'], _ =>
    rw [checkPattern, checkPattern]
    · exact same_errors
    · simp
    · simp
  | a :: b :: c :: rest, a' :: b' :: c' :: rest', _ =>
    rw [checkPattern, checkPattern]
    · exact same_errors
    · simp
    · simp

theorem same_typeOfDivision {children children' : List Value}
    (h : List.Forall₂ (SameBoth ns) children children') :
    Same (typeOfDivision ns children) (typeOfDivision ns children') := by
  match children, children', h with
  | [left, right], [left', right'], .cons hl (.cons hr .nil) =>
    rw [typeOfDivision, typeOfDivision]
    exact same_bind hl.1 fun _ => same_bind hr.1 fun _ => same_refl _
  | [], [], _ => exact same_refl _
  | [a], [a'], _ =>
    rw [typeOfDivision, typeOfDivision]
    · exact same_errors
    · simp
    · simp
  | a :: b :: c :: rest, a' :: b' :: c' :: rest', _ =>
    rw [typeOfDivision, typeOfDivision]
    · exact same_errors
    · simp
    · simp

theorem same_typeOfArithmetic {op : String} {children children' : List Value}
    (h : List.Forall₂ (SameBoth ns) children children') :
    Same (typeOfArithmetic ns op children) (typeOfArithmetic ns op children') := by
  match children, children', h with
  | [], [], _ => exact same_refl _
  | [operand], [operand'], .cons ho .nil =>
    rw [typeOfArithmetic, typeOfArithmetic]
    exact same_bind ho.1 fun _ => same_refl _
  | left :: right :: rest, left' :: right' :: rest', .cons hl (.cons hr _) =>
    rw [typeOfArithmetic, typeOfArithmetic]
    exact same_bind hl.1 fun _ => same_bind hr.1 fun _ => same_refl _

theorem same_functionValue {name : String} {children children' : List Value}
    (h : List.Forall₂ (SameBoth ns) children children') :
    Same (functionValue ns name children) (functionValue ns name children') := by
  unfold functionValue
  split_ifs
  · exact same_typeOfDivision h
  · exact same_typeOfArithmetic h
  · exact same_bind (same_checkPattern h) fun _ => same_refl _
  · exact same_refl _

/-- The two operands of an arithmetic call, in either order. -/
theorem same_functionValue_swap {name : String} {left left' right right' : Value}
    (named : name ∈ ADMITTED_ARITHMETIC_FUNCTIONS) (hl : SameBoth ns left left')
    (hr : SameBoth ns right right') :
    Same (functionValue ns name [left, right]) (functionValue ns name [right', left']) := by
  unfold functionValue
  by_cases hdivision : name = "/"
  · rw [if_pos hdivision, if_pos hdivision, typeOfDivision, typeOfDivision]
    exact same_swap hl.1 hr.1 fun a b => same_divisionResult a b
  · rw [if_neg hdivision, if_neg hdivision, if_pos named, if_pos named, typeOfArithmetic,
      typeOfArithmetic]
    exact same_swap hl.1 hr.1 fun a b => same_binaryResult name a b

/-! ### The whole tree -/

theorem forall₂_sameBoth {children children' : List Value}
    (h : List.Forall₂ Reordered children children')
    (ih : ∀ c ∈ children, ∀ c', Reordered c c' → SameBoth ns c c') :
    List.Forall₂ (SameBoth ns) children children' := by
  induction h with
  | nil => exact .nil
  | cons hchild _ ihrest =>
    refine .cons (ih _ List.mem_cons_self _ hchild) (ihrest fun c hc => ?_)
    exact ih c (List.mem_cons_of_mem _ hc)

theorem sizeOf_lt_of_mem_children {node c : Value} {children : List Value}
    (h : (node.get "children").bind Value.asArray = some children) (hc : c ∈ children) :
    sizeOf c < sizeOf node :=
  lt_trans (List.sizeOf_lt_of_mem hc) (sizeOf_lt_of_children h)

/-- **One node and everything under it**: the same results in both positions. -/
theorem sameBoth_of_reordered {v v' : Value} (h : Reordered v v') : SameBoth ns v v' := by
  induction hn : sizeOf v using Nat.strong_induction_on generalizing v v' with
  | _ n ih =>
    subst hn
    cases h with
    | refl => exact sameBoth_refl v
    | comparison isClass same hasLeft hasRight hasLeft' hasRight' hleft hright =>
      have hl := ih _ (Value.sizeOf_lt_of_get hasLeft) hleft rfl
      have hr := ih _ (Value.sizeOf_lt_of_get hasRight) hright rfl
      refine sameBoth_comparison isClass ((same.getStr (by decide)).trans isClass) ?_
      rw [checkComparison_eq hasLeft hasRight, checkComparison_eq hasLeft' hasRight',
        same.getStr (by decide)]
      exact same_bind (same_refl _) fun _ => same_bind hl.1 fun _ => same_bind hr.1 fun _ =>
        same_refl _
    | swapped isClass same hasLeft hasRight hasLeft' hasRight' hleft hright =>
      have hl := ih _ (Value.sizeOf_lt_of_get hasLeft) hleft rfl
      have hr := ih _ (Value.sizeOf_lt_of_get hasRight) hright rfl
      refine sameBoth_comparison isClass ((same.getStr (by decide)).trans isClass) ?_
      rw [checkComparison_eq hasLeft hasRight, checkComparison_eq hasLeft' hasRight',
        same.getStr (by decide)]
      exact same_bind (same_refl _) fun construct => same_swap hl.1 hr.1 fun a b =>
        same_checkPair construct construct a b
    | between isClass same hasInput hasLower hasUpper hasInput' hasLower' hasUpper' hinput hlower
        hupper =>
      have hi := ih _ (Value.sizeOf_lt_of_get hasInput) hinput rfl
      have hl := ih _ (Value.sizeOf_lt_of_get hasLower) hlower rfl
      have hu := ih _ (Value.sizeOf_lt_of_get hasUpper) hupper rfl
      refine sameBoth_between isClass ((same.getStr (by decide)).trans isClass) ?_
      rw [checkBetween_eq hasInput hasLower hasUpper, checkBetween_eq hasInput' hasLower' hasUpper']
      refine same_bind hi.1 fun _ => same_bind hl.1 fun _ => same_bind (same_refl _) fun _ => ?_
      exact same_bind hu.1 fun _ => same_refl _
    | junction isClass same hasChildren hasChildren' hchildren hperm =>
      refine sameBoth_junction isClass same hasChildren hasChildren' ?_ hperm
      exact forall₂_sameBoth hchildren fun c hc c' hreordered =>
        ih _ (sizeOf_lt_of_mem_children hasChildren hc) hreordered rfl
    | operator isClass same hasChildren hasChildren' hchildren =>
      have hboth := forall₂_sameBoth hchildren fun c hc c' hreordered =>
        ih _ (sizeOf_lt_of_mem_children hasChildren hc) hreordered rfl
      exact sameBoth_operator isClass same hasChildren hasChildren'
        (fun _ => same_checkJunctionChildren hboth (List.Perm.refl _))
        (fun _ => same_firstChild hboth) (same_checkIn hasChildren hasChildren' hboth)
    | members isClass isType same hasChildren hasChildren' hneedle hperm =>
      have hneedle' := ih _ (sizeOf_lt_of_mem_children hasChildren List.mem_cons_self) hneedle rfl
      refine sameBoth_in isClass isType same ?_
      rw [checkIn_eq hasChildren, checkIn_eq hasChildren']
      exact same_bind hneedle'.1 fun needle =>
        same_checkMembers (List.forall₂_same.2 fun m _ => sameBoth_refl m) hperm
    | function isClass same hasChildren hasChildren' hchildren =>
      have hboth := forall₂_sameBoth hchildren fun c hc c' hreordered =>
        ih _ (sizeOf_lt_of_mem_children hasChildren hc) hreordered rfl
      exact sameBoth_function isClass same hasChildren hasChildren' (same_functionValue hboth)
        fun _ => same_checkPattern hboth
    | binary isClass isName named same hasChildren hasChildren' hleft hright =>
      have hl := ih _ (sizeOf_lt_of_mem_children hasChildren (by simp)) hleft rfl
      have hr := ih _ (sizeOf_lt_of_mem_children hasChildren (by simp)) hright rfl
      refine sameBoth_function isClass same hasChildren hasChildren' ?_ ?_
      · rw [isName]
        exact same_functionValue_swap named hl hr
      · intro hpattern
        rw [isName, Option.getD_some] at hpattern
        exact absurd hpattern (not_pattern_of_arithmetic named)

end

/-- Two lists of operands with the same trees in another order. -/
def ReorderedAll (ops ops' : List Value) : Prop :=
  ∃ mid, List.Forall₂ Reordered ops mid ∧ mid.Perm ops'

/-- **The type walk does not depend on the order of operands.**  It accepts both lists or neither,
and a value node and its counterpart have one type, with the same bounds and decimal flags. -/
theorem typeWalk_reordered {ns : Namespace} {ops ops' : List Value} (h : ReorderedAll ops ops') :
    (typeWalk ops ns = .ok () ↔ typeWalk ops' ns = .ok ()) ∧
      ∀ v v', Reordered v v' → ∀ t, typeOfValue ns v = .ok t ↔ typeOfValue ns v' = .ok t := by
  obtain ⟨mid, hpoint, hperm⟩ := h
  refine ⟨?_, fun v v' hreordered => (sameBoth_of_reordered hreordered).1⟩
  have hboth : List.Forall₂ (SameBoth ns) ops mid :=
    forall₂_sameBoth hpoint fun _ _ _ hreordered => sameBoth_of_reordered hreordered
  exact same_checkJunctionChildren hboth hperm ()

/-- `'residential' = zone`. -/
def swappedZoneNode : Value :=
  .object [("class", .string "COMPARISON"), ("type", .string "COMPARE_EQUAL"),
    ("left", textNode "residential"), ("right", columnNode "zone")]

theorem reordered_zoneNode : Reordered zoneNode swappedZoneNode := by
  refine .swapped rfl (fun key hkey => ?_) rfl rfl rfl rfl (.refl _) (.refl _)
  simp only [List.mem_cons, List.not_mem_nil, or_false, not_or] at hkey
  have hleft : (key == "left") = false := beq_false_of_ne hkey.1
  have hright : (key == "right") = false := beq_false_of_ne hkey.2
  simp only [zoneNode, swappedZoneNode, Value.get, List.lookup_cons, hleft, hright]

theorem typeWalk_reordered_zone :
    (typeWalk [zoneNode] zones = .ok () ↔ typeWalk [swappedZoneNode] zones = .ok ()) ∧
      (typeOfValue zones zoneNode = .ok (.expression .boolean) ↔
        typeOfValue zones swappedZoneNode = .ok (.expression .boolean)) := by
  have h := @typeWalk_reordered zones [zoneNode] [swappedZoneNode]
    ⟨[swappedZoneNode], .cons reordered_zoneNode .nil, List.Perm.refl _⟩
  exact ⟨h.1, h.2 _ _ reordered_zoneNode _⟩

end SpatialIde.Engine.Predicate
