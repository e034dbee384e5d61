import SpatialIde.Engine.Predicate.Contained
import SpatialIde.Lib.SqlExpression

/-! # An admitted predicate is a conjunct

Where the parser follows the grammar of SQL expressions (`Follows`), the two probes say more of a
predicate than that its tokens stay its own: with what a plan appends, the condition of a
statement is the conjunction of the operands that were admitted and of the conditions of the plan
(`parse_composed`), whatever brackets the predicate closes and opens again.
`admitted_contained` is the result.
-/

namespace SpatialIde.Engine

open Lib
open Lib.Sql hiding scan

/-! ### The conditions of a plan -/

def FieldPath.expr (path : FieldPath) : Expr := .column (path.segments.map String.toList)

def IdTest.expr (col : String) : IdTest → Expr
  | .equals id => .compare ['='] (.column [col.toList]) (.constant (numberToken id.toNat))
  | .between lo hi => .between false (.column [col.toList]) (.constant (numberToken lo.toNat))
      (.constant (numberToken hi.toNat))

/-- The conjuncts of a condition of the plan. -/
def Condition.exprs (cols : SourceColumns) : Condition String → List Expr
  | .filter _ => []
  | .oneOf [] => []
  | .oneOf (test :: tests) =>
    [tests.foldl (fun l t => .or l (t.expr cols.identity)) (test.expr cols.identity)]
  | .meets _ =>
    [.compare ['<', '='] cols.covering.xmin.expr .param,
      .compare ['>', '='] cols.covering.xmax.expr .param,
      .compare ['<', '='] cols.covering.ymin.expr .param,
      .compare ['>', '='] cols.covering.ymax.expr .param]

/-- Not without alternatives. -/
def Condition.Told : Condition String → Prop
  | .filter _ => False
  | .oneOf tests => tests ≠ []
  | .meets _ => True

theorem symbols_names (name : String) (names : List String) :
    ([Token.punct '.'].intercalate ((name :: names).map fun n => [nameToken n])).filterMap
        Token.symbol =
      .operand (.column [name.toList]) :: pathSymbols (names.map String.toList) := by
  induction names generalizing name with
  | nil => rfl
  | cons name' names ih =>
    have hnext := ih name'
    simp only [List.map_cons, List.intercalate_cons_cons] at hnext ⊢
    rw [List.filterMap_append, hnext]
    rfl

theorem joins_bound (path : FieldPath) (op : List Char) (hop : operatorSymbol op = .compare op) :
    Joins ((boundTokens path op).filterMap Token.symbol) [.compare op path.expr .param] := by
  obtain ⟨segments, hne⟩ := path
  obtain ⟨name, names, rfl⟩ := List.exists_cons_of_ne_nil hne
  have hop' : [Token.operator op, .punct '?'].filterMap Token.symbol =
      [.compare op, .operand .param] := by
    simp [Token.symbol, hop, punctSymbol]
  rw [boundTokens, FieldPath.tokens, List.filterMap_append, symbols_names, hop']
  exact joins_comparison name.toList (names.map String.toList) op

theorem offers_idTest (col : String) (test : IdTest) :
    Offers ((test.tokens (nameToken col)).filterMap Token.symbol) (test.expr col) := by
  cases test with
  | equals id => exact offers_equals col.toList (numberToken id.toNat)
  | between lo hi =>
    exact offers_between col.toList (numberToken lo.toNat) (numberToken hi.toNat)

theorem symbols_tests (col : String) (test : IdTest) (tests : List IdTest) :
    ([wordToken "OR"].intercalate ((test :: tests).map (IdTest.tokens (nameToken col)))).filterMap
        Token.symbol =
      (test.tokens (nameToken col)).filterMap Token.symbol ++
        tests.flatMap fun t => .or :: (t.tokens (nameToken col)).filterMap Token.symbol := by
  induction tests generalizing test with
  | nil => simp
  | cons test' tests ih =>
    have hnext := ih test'
    have hor : [wordToken "OR"].filterMap Token.symbol = [.or] := rfl
    simp only [List.map_cons, List.intercalate_cons_cons] at hnext ⊢
    rw [List.filterMap_append, List.filterMap_append, hnext, hor, List.flatMap_cons]
    simp

/-- **A condition of the plan** adds its conjuncts. -/
theorem joins_condition (cols : SourceColumns) {c : Condition String} (hc : c.Told) :
    Joins ((c.tokens cols).filterMap Token.symbol) (c.exprs cols) := by
  have hand : [AND].filterMap Token.symbol = [.and] := rfl
  cases c with
  | filter predicate => exact hc.elim
  | oneOf tests =>
    obtain ⟨test, tests, rfl⟩ := List.exists_cons_of_ne_nil hc
    have hopen : [Token.punct '('].filterMap Token.symbol = [.openBracket] := rfl
    have hclose : [Token.punct ')'].filterMap Token.symbol = [.closeBracket] := rfl
    rw [Condition.tokens, List.filterMap_append, List.filterMap_append, symbols_tests, hopen, hclose]
    exact joins_alternatives fun t _ => offers_idTest cols.identity t
  | meets view =>
    have hbound := fun path op hop => joins_bound path op hop
    simp only [Condition.tokens, List.filterMap_append, hand]
    exact (((hbound cols.covering.xmin ['<', '='] rfl).append
      (hbound cols.covering.xmax ['>', '='] rfl)).append
      (hbound cols.covering.ymin ['<', '='] rfl)).append (hbound cols.covering.ymax ['>', '='] rfl)

/-- **The conditions of a plan behind a conjunction.** -/
theorem parse_andTokens (cols : SourceColumns) {planned : List (Condition String)}
    (hplanned : ∀ c ∈ planned, c.Told) {fs : List Frame} {e l : Expr}
    (h : reduce 2 fs e = ([], l)) :
    ∃ gs x, parseFrom ⟨fs, .holds e⟩ ((andTokens cols planned).filterMap Token.symbol) =
        some ⟨gs, .holds x⟩ ∧
      reduce 2 gs x = ([], (planned.flatMap (Condition.exprs cols)).foldl .and l) := by
  induction planned generalizing fs e l with
  | nil => exact ⟨fs, e, rfl, h⟩
  | cons c planned ih =>
    obtain ⟨gs, x, hrun, hreduce⟩ := joins_condition cols (hplanned c List.mem_cons_self) l
    obtain ⟨gs', x', hrun', hreduce'⟩ :=
      ih (fun c' hc' => hplanned c' (List.mem_cons_of_mem _ hc')) hreduce
    have hand : [AND].filterMap Token.symbol = [.and] := rfl
    refine ⟨gs', x', ?_, ?_⟩
    · rw [andTokens, List.filterMap_append, List.filterMap_append, hand, parseFrom_append,
        parseFrom_append, parseFrom_cons, step_and_of_reduce h, Option.bind_some, parseFrom_nil,
        Option.bind_some, hrun]
      exact hrun'
    · rw [List.flatMap_cons, List.foldl_append]
      exact hreduce'

theorem conjuncts_foldl_or {α : Type} (e : α → Expr) (items : List α) (l : Expr)
    (h : l.conjuncts = [l]) :
    (items.foldl (fun l a => .or l (e a)) l).conjuncts = [items.foldl (fun l a => .or l (e a)) l] := by
  induction items generalizing l with
  | nil => exact h
  | cons a items ih => exact ih _ rfl

theorem conjuncts_exprs (cols : SourceColumns) (c : Condition String) :
    (c.exprs cols).flatMap Expr.conjuncts = c.exprs cols := by
  cases c with
  | filter predicate => rfl
  | meets view => rfl
  | oneOf tests =>
    cases tests with
    | nil => rfl
    | cons test tests =>
      have htest : (test.expr cols.identity).conjuncts = [test.expr cols.identity] := by
        cases test <;> rfl
      rw [Condition.exprs, List.flatMap_singleton, conjuncts_foldl_or _ _ _ htest]

end SpatialIde.Engine

namespace SpatialIde.Engine.Predicate

open Lib Lib.Json
open Lib.Sql hiding scan

/-- The parser follows the grammar: behind a wrapper of the expected shape there is nothing but an
expression, whose conjuncts are the operands. -/
structure Follows (db : Serializer) (render : Expr → Value) : Prop where
  parses : ∀ {ts : List Token} {payload : Value} {cs : List Value},
    db.ofTokens ([wordToken "SELECT", numberToken 1, wordToken "WHERE"] ++ ts) = .ok payload →
    payloadChildren payload = .ok cs → ∃ e, parseExpr ts = some e ∧ cs = e.conjuncts.map render
  sentinel : ∀ {e : Expr} {value : Int}, isIntegerEqualitySentinel (render e) value = true →
    e.Sentinel

/-- A text in the brackets that it is composed in. -/
def enclosed (inner : List Token) : List Token := [.punct '('] ++ inner ++ [.punct ')']

/-- The tokens of a probe. -/
theorem tokenize_probe {predicate : String} {inner : List Token}
    (hinside : (Sql.scan (.gap, []) predicate.toList).1.inside = false)
    (hinner : tokenize predicate.toList = some inner) :
    tokenize (wrapWith predicate SENTINEL_A).toList =
      some ([wordToken "SELECT", numberToken 1, wordToken "WHERE"] ++
        (enclosed inner ++ [AND, numberToken 1, .operator ['='], numberToken 1])) := by
  have hopen : Writes [.gap] WRAPPER_OPEN.toList wrapperTokens [.gap] :=
    writes_text (by decide) (by decide) (by decide)
  have hbehind : Writes outside (") AND " ++ SENTINEL_A).toList
      [.punct ')', AND, numberToken 1, .operator ['='], numberToken 1] outside :=
    writes_text (by decide) (by decide) (by decide)
  have htext : wrapWith predicate SENTINEL_A =
      WRAPPER_OPEN ++ predicate ++ (") AND " ++ SENTINEL_A) := String.append_assoc
  obtain ⟨inner', hinner', hall⟩ := tokenize_between hopen hinside hbehind
  cases hinner.symm.trans hinner'
  rw [htext, String.toList_append, String.toList_append, hall]
  simp [wrapperTokens, enclosed]

/-- **The operands that are admitted** are the conjuncts of the predicate in its brackets, which
leaves nothing open that binds as strongly as `AND`. -/
theorem parse_admitted {db : Serializer} {render : Expr → Value} (hdb : Follows db render)
    {predicate : String} {ops : List Value} (h : differentialOperands db predicate = .ok ops)
    {inner : List Token} (hinner : tokenize predicate.toList = some inner) :
    ∃ fs e l, parseFrom ⟨[], .awaits⟩ ((enclosed inner).filterMap Token.symbol) =
        some ⟨fs, .holds e⟩ ∧ reduce 2 fs e = ([], l) ∧ ops = l.conjuncts.map render := by
  obtain ⟨children, _, last, _, hparse, _, hlast, _, hsentinel, _, rfl⟩ :=
    differentialOperands_eq_ok h
  obtain ⟨ts, payload, hts, hpayload, hchildren⟩ := exists_tokens_of_parse hparse
  cases (tokenize_probe (outside_of_admitted h) hinner).symm.trans hts
  obtain ⟨x, hx, rfl⟩ := hdb.parses hpayload hchildren
  rw [List.getLast?_map] at hlast
  obtain ⟨last', hlast', rfl⟩ := Option.map_eq_some_iff.1 hlast
  have htail : [AND, numberToken 1, .operator ['='], numberToken 1].filterMap Token.symbol =
      [.and] ++ [.operand (.constant (numberToken 1)), .compare ['='],
        .operand (.constant (numberToken 1))] := rfl
  rw [parseExpr, List.filterMap_append, htail, parseFrom_append, Option.bind_assoc] at hx
  obtain ⟨p, hp, hx⟩ := Option.bind_eq_some_iff.1 hx
  rw [parseFrom_append, Option.bind_assoc] at hx
  obtain ⟨q, hq, hx⟩ := Option.bind_eq_some_iff.1 hx
  obtain ⟨r, hr, hfinish⟩ := Option.bind_eq_some_iff.1 hx
  have hand : p.step .and = some q := by
    rw [parseFrom_cons] at hq
    simpa [parseFrom_nil] using hq
  obtain ⟨fs, e, l, rfl, hreduce, rfl⟩ :=
    and_of_run hand hr hfinish hlast' (hdb.sentinel hsentinel)
  refine ⟨fs, e, l, hp, hreduce, ?_⟩
  rw [Expr.conjuncts, List.map_append]
  exact List.dropLast_concat

/-! ### A parser that follows the grammar -/

/-- The type of a comparison. -/
def compareType (op : List Char) : String :=
  if op = ['='] ∨ op = ['=', '='] then "COMPARE_EQUAL"
  else if op = ['<', '>'] ∨ op = ['!', '='] then "COMPARE_NOTEQUAL"
  else if op = ['<'] then "COMPARE_LESSTHAN"
  else if op = ['>'] then "COMPARE_GREATERTHAN"
  else if op = ['<', '='] then "COMPARE_LESSTHANOREQUALTO"
  else "COMPARE_GREATERTHANOREQUALTO"

/-- A literal; a number that is no integer is left to its text. -/
def literal : Token → Value
  | .number cs =>
    if cs.all Char.isDigit then
      .number (.posInt (UInt64.ofNat (cs.foldl (fun n c => 10 * n + (c.toNat - 48)) 0)))
    else .string (String.ofList cs)
  | .string cs => .string (String.ofList cs)
  | .word cs => .string (String.ofList cs)
  | _ => .null

def node (class_ type : String) (members : List (String × Value)) : Value :=
  .object (("class", .string class_) :: ("type", .string type) :: members)

@[simp] theorem getStr_class_node (class_ type : String) (members : List (String × Value)) :
    (node class_ type members).getStr "class" = some class_ := rfl

@[simp] theorem getStr_type_node (class_ type : String) (members : List (String × Value)) :
    (node class_ type members).getStr "type" = some type := rfl

def callNode (name : List Char) (children : List Value) : Value :=
  node "FUNCTION" "FUNCTION" [("function_name", .string (String.ofList name)),
    ("is_operator", .bool true), ("children", .array children)]

/-- `NOT` around a node. -/
def negatedNode (negated : Bool) (v : Value) : Value :=
  if negated then node "OPERATOR" "OPERATOR_NOT" [("children", .array [v])] else v

mutual

def render : Expr → Value
  | .column path => node "COLUMN_REF" "COLUMN_REF"
      [("column_names", .array (path.map fun cs => .string (String.ofList cs)))]
  | .constant t => node "CONSTANT" "VALUE_CONSTANT" [("value", .object [("value", literal t)])]
  | .param => node "PARAMETER" "VALUE_PARAMETER" []
  | .or l r => node "CONJUNCTION" "CONJUNCTION_OR" [("children", .array [render l, render r])]
  | .and l r => node "CONJUNCTION" "CONJUNCTION_AND" [("children", .array [render l, render r])]
  | .not e => node "OPERATOR" "OPERATOR_NOT" [("children", .array [render e])]
  | .isNull negated e => node "OPERATOR"
      (if negated then "OPERATOR_IS_NOT_NULL" else "OPERATOR_IS_NULL")
      [("children", .array [render e])]
  | .compare op l r => node "COMPARISON" (compareType op) [("left", render l), ("right", render r)]
  | .between negated e lower upper => negatedNode negated (node "BETWEEN" "COMPARE_BETWEEN"
      [("input", render e), ("lower", render lower), ("upper", render upper)])
  | .oneOf negated e items => node "OPERATOR" (if negated then "COMPARE_NOT_IN" else "COMPARE_IN")
      [("children", .array (render e :: renderAll items))]
  | .like op negated e pattern => negatedNode negated (callNode op [render e, render pattern])
  | .sum op l r => callNode op [render l, render r]
  | .product op l r => callNode op [render l, render r]
  | .sign op e => callNode op [render e]

def renderAll : List Expr → List Value
  | [] => []
  | e :: es => render e :: renderAll es

end

/-- The condition: what `AND` joins is one node. -/
def conditionNode (e : Expr) : Value :=
  match e.conjuncts with
  | [c] => render c
  | cs => node "CONJUNCTION" "CONJUNCTION_AND" [("children", .array (cs.map render))]

/-- The wrapper's statement around a condition. -/
def selectNode (condition : Value) : Value :=
  .object [("type", .string "SELECT_NODE"), ("modifiers", .array []),
    ("cte_map", .object [("map", .array [])]),
    ("select_list", .array [render (.constant (numberToken 1))]),
    ("from_table", .object [("type", .string "EMPTY")]), ("where_clause", condition),
    ("group_expressions", .array []), ("group_sets", .array []),
    ("aggregate_handling", .string "STANDARD_HANDLING"), ("having", .null), ("sample", .null),
    ("qualify", .null)]

def statementPayload (condition : Value) : Value :=
  .object [("error", .bool false), ("statements", .array
    [.object [("node", selectNode condition), ("named_param_map", .array [])]])]

/-- A parser that knows the wrapper's statement and no other. -/
def wrapperParser : Serializer where
  ofTokens ts :=
    if ts.take 3 = [wordToken "SELECT", numberToken 1, wordToken "WHERE"] then
      match parseExpr (ts.drop 3) with
      | some e => .ok (statementPayload (conditionNode e))
      | none => .ok (errorPayload "syntax error")
    else .ok (errorPayload "syntax error")
  unterminated _ := "unterminated quoted string"

theorem payloadChildren_statement {condition : Value} {cs : List Value}
    (h : payloadChildren (statementPayload condition) = .ok cs) :
    condition.getStr "class" = some "CONJUNCTION" ∧
      condition.getStr "type" = some "CONJUNCTION_AND" ∧ expectChildren condition = .ok cs := by
  have hshape : payloadChildren (statementPayload condition) =
      expectWrapperShape (selectNode condition) := rfl
  rw [hshape] at h
  -- All that is in front of the condition is as the wrapper has it.
  iterate 12 obtain ⟨_, _, h⟩ := bind_eq_ok.1 h
  obtain ⟨whereClause, hwhere, h⟩ := bind_eq_ok.1 h
  obtain ⟨_, hconjunction, h⟩ := bind_eq_ok.1 h
  have hcondition : whereClause = condition := by
    have hsome : (some condition).filter (fun w => !w.isNull) = some whereClause :=
      okOr_eq_ok.1 hwhere
    exact (Option.some.inj (Option.filter_eq_some_iff.1 hsome).1).symm
  rw [hcondition] at hconjunction h
  have hboth := ensure_eq_ok.1 hconjunction
  rw [Bool.and_eq_true, beq_iff_eq, beq_iff_eq] at hboth
  exact ⟨hboth.1, hboth.2, h⟩

theorem mem_conjuncts (e : Expr) : ∀ c ∈ e.conjuncts, ∀ l r, c ≠ .and l r := by
  fun_induction Expr.conjuncts e with
  | case1 l r ihl ihr =>
    intro c hc
    rcases List.mem_append.1 hc with hc | hc
    · exact ihl c hc
    · exact ihr c hc
  | case2 e hne =>
    intro c hc l r heq
    rw [List.mem_singleton.1 hc] at heq
    exact hne l r heq

/-- Only an `AND` is written as one. -/
theorem render_and {e : Expr} (hclass : (render e).getStr "class" = some "CONJUNCTION")
    (htype : (render e).getStr "type" = some "CONJUNCTION_AND") : ∃ l r, e = .and l r := by
  cases e with
  | and l r => exact ⟨l, r, rfl⟩
  | between negated x lower upper => cases negated <;> simp [render, negatedNode] at hclass
  | like op negated x pattern => cases negated <;> simp [render, negatedNode, callNode] at hclass
  | or l r => simp [render] at htype
  | _ => simp [render, callNode] at hclass

theorem render_constant {e : Expr} {value : Int}
    (h : isIntegerConstant (some (render e)) value = true) : ∃ t, e = .constant t := by
  rw [isIntegerConstant, Bool.and_eq_true, beq_iff_eq] at h
  have hclass := h.1
  cases e with
  | constant t => exact ⟨t, rfl⟩
  | between negated x lower upper => cases negated <;> simp [render, negatedNode] at hclass
  | like op negated x pattern => cases negated <;> simp [render, negatedNode, callNode] at hclass
  | _ => simp [render, callNode] at hclass

theorem follows_wrapperParser : Follows wrapperParser render where
  parses := by
    intro ts payload cs hpayload hcs
    have hparse : wrapperParser.ofTokens
        ([wordToken "SELECT", numberToken 1, wordToken "WHERE"] ++ ts) =
        match parseExpr ts with
        | some e => .ok (statementPayload (conditionNode e))
        | none => .ok (errorPayload "syntax error") := rfl
    rw [hparse] at hpayload
    cases hexpr : parseExpr ts with
    | none =>
      rw [hexpr] at hpayload
      cases hpayload
      exact absurd hcs (payloadChildren_errorPayload _ _)
    | some e =>
      rw [hexpr] at hpayload
      cases hpayload
      obtain ⟨hclass, htype, hchildren⟩ := payloadChildren_statement hcs
      refine ⟨e, rfl, ?_⟩
      unfold conditionNode at hclass htype hchildren
      split at hchildren
      · rename_i c hconjuncts
        rw [hconjuncts] at hclass htype
        obtain ⟨l, r, hand⟩ := render_and hclass htype
        exact absurd hand (mem_conjuncts e c (by rw [hconjuncts]; exact List.mem_cons_self) l r)
      · cases hchildren
        rfl
  sentinel := by
    intro e value h
    simp only [isIntegerEqualitySentinel, Bool.and_eq_true, beq_iff_eq] at h
    obtain ⟨⟨⟨hclass, htype⟩, hleft⟩, hright⟩ := h
    cases e with
    | compare op l r =>
      obtain ⟨t, rfl⟩ := render_constant (e := l) hleft
      obtain ⟨u, rfl⟩ := render_constant (e := r) hright
      exact ⟨op, t, u, rfl⟩
    | between negated x lower upper => cases negated <;> simp [render, negatedNode] at hclass
    | like op negated x pattern => cases negated <;> simp [render, negatedNode, callNode] at hclass
    | _ => simp [render, callNode] at hclass

/-! ### The statements -/

/-- A row-group selection is what an index answers. -/
def Answered (src : PlanSource) : Prop :=
  ∀ total sel, src.admittedRowGroups = some (total, .ok sel) →
    ∃ (index : RowGroupIndex) (view : Bbox F64), index.rangesFor view = .ok sel

/-- Groups that are kept are ranges. -/
theorem ranges_of_kept {index : RowGroupIndex} {view : Bbox F64} {sel : RowGroupSelection}
    (h : index.rangesFor view = .ok sel) (hkept : sel.kept ≠ 0) : sel.ranges ≠ [] := by
  have hfold : ∀ (groups : List RowGroupEntry) (st : Nat × List (UInt64 × UInt64)),
      (st.1 ≠ 0 → st.2 ≠ []) → (groups.foldl (RowGroupIndex.keep view) st).1 ≠ 0 →
      (groups.foldl (RowGroupIndex.keep view) st).2 ≠ [] := by
    intro groups
    induction groups with
    | nil => exact fun st hst => hst
    | cons g groups ih =>
      intro st hst
      apply ih
      unfold RowGroupIndex.keep
      split
      · intro _
        unfold Intervals.extend
        split
        · split <;> simp
        · simp
      · exact hst
  obtain ⟨_, _, h⟩ := bind_eq_ok.1 h
  split at h
  · cases h
  · cases h
    exact hfold index.groups (0, []) (fun h => absurd rfl h) hkept

theorem told_of_buildSql {src : PlanSource} (hsrc : Answered src) {q : ViewportQuery String}
    {indexUse : IndexUse} {ordering : RowOrdering} {st : Statement String} {plan : FilterPlan}
    {predicate : String} (hfilter : q.filter = some predicate)
    (h : buildSql src q indexUse ordering = .ok (st, plan)) :
    ∀ c ∈ st.conditions.tail, c.Told := by
  have hnarrowing : ∀ view, ∀ tests ∈ (narrowing src view indexUse).1, tests ≠ [] := by
    intro view tests htests
    cases indexUse with
    | off => cases htests
    | experimental =>
      simp only [narrowing, indexPlan] at htests
      split at htests
      · cases htests
      · split at htests
        · cases htests
        · cases htests
        · rename_i ranges hne _
          cases htests
          exact fun hnil => hne (List.map_eq_nil_iff.1 hnil)
    | rowGroups =>
      simp only [narrowing, rowGroupPlan] at htests
      split at htests
      · cases htests
      · cases htests
      · rename_i total sel hsel
        split at htests
        · cases htests
        · split at htests
          · cases htests
          · split at htests
            · cases htests
            · rename_i hkept _ _
              cases htests
              obtain ⟨index, view', hranges⟩ := hsrc _ _ hsel
              simpa using ranges_of_kept hranges hkept
  unfold buildSql at h
  rw [hfilter] at h
  cases hbbox : q.bbox with
  | none =>
    rw [hbbox] at h
    cases h
    exact fun c hc => absurd hc List.not_mem_nil
  | some view =>
    rw [hbbox] at h
    cases hcovering : src.covering with
    | error detail =>
      rw [hcovering] at h
      cases h
    | ok u =>
      rw [hcovering] at h
      cases h
      intro c hc
      rcases List.mem_append.1 hc with hc | hc
      · obtain ⟨tests, htests, rfl⟩ := List.mem_map.1 hc
        exact hnarrowing view tests (Option.mem_toList.1 htests)
      · rw [List.mem_singleton.1 hc]
        trivial

theorem parseExpr_of_reduce {ts : List Token} {fs : List Frame} {e x : Expr}
    (hrun : parseFrom ⟨[], .awaits⟩ (ts.filterMap Token.symbol) = some ⟨fs, .holds e⟩)
    (hreduce : reduce 2 fs e = ([], x)) : parseExpr ts = some x := by
  rw [parseExpr, hrun]
  show (Parse.mk fs (.holds e)).finish = some x
  simp [Parse.finish, reduce_eq_nil hreduce (by decide : 1 ≤ 2)]

/-- What a predicate is in the statements that it is composed in. -/
structure Composes (db : Serializer) (predicate : String) (ops : List Value) : Prop where
  /-- At its end in the wrapper no quote and no comment is open. -/
  closed : (Sql.scan (.gap, []) (WRAPPER_OPEN ++ predicate).toList).1.inside = false
  /-- In a stream's statement. -/
  stream : ∀ (src : PlanSource) (q : ViewportQuery String) (indexUse : IndexUse)
    (ordering : RowOrdering) (st : Statement String) (plan : FilterPlan) (cols : SourceColumns),
    q.filter = some predicate → buildSql src q indexUse ordering = .ok (st, plan) →
    st.sqlText cols = beforeText cols ++ predicate ++
        behindText cols st.conditions.tail st.ordered st.limit ∧
      Contained (beforeText cols) predicate
        (behindText cols st.conditions.tail st.ordered st.limit)
  /-- In the statement that binds it. -/
  bound : ∀ ns : Namespace,
    bindText predicate ns = BEFORE_BOUND ++ predicate ++ behindBoundText ns ∧
      Contained BEFORE_BOUND predicate (behindBoundText ns)
  /-- By the grammar, the condition of either statement has the admitted operands as conjuncts, and
  behind them those of the plan; the order and the limit are behind the condition. -/
  conjoined : ∀ render : Expr → Value, Follows db render → ∃ inner l,
    tokenize predicate.toList = some inner ∧ ops = l.conjuncts.map render ∧
    parseExpr (enclosed inner) = some l ∧
    ∀ (src : PlanSource) (q : ViewportQuery String) (indexUse : IndexUse) (ordering : RowOrdering)
      (st : Statement String) (plan : FilterPlan) (cols : SourceColumns), Answered src →
      q.filter = some predicate → buildSql src q indexUse ordering = .ok (st, plan) →
      tokenize (st.sqlText cols).toList =
          some (selectTokens cols ++ (enclosed inner ++ andTokens cols st.conditions.tail) ++
            orderTokens cols st.ordered ++ limitTokens st.limit) ∧
        ∃ x, parseExpr (enclosed inner ++ andTokens cols st.conditions.tail) = some x ∧
          x.conjuncts = l.conjuncts ++ st.conditions.tail.flatMap (Condition.exprs cols)

theorem composed_stream {predicate : String}
    (hinside : (Sql.scan (.gap, []) predicate.toList).1.inside = false) {src : PlanSource}
    {q : ViewportQuery String} {indexUse : IndexUse} {ordering : RowOrdering} {st : Statement String}
    {plan : FilterPlan} (cols : SourceColumns) (hfilter : q.filter = some predicate)
    (h : buildSql src q indexUse ordering = .ok (st, plan)) :
    st.sqlText cols = beforeText cols ++ predicate ++
        behindText cols st.conditions.tail st.ordered st.limit ∧
      ∃ inner, tokenize predicate.toList = some inner ∧
        tokenize (st.sqlText cols).toList = some (beforeTokens cols ++ inner ++
          behindTokens cols st.conditions.tail st.ordered st.limit) := by
  obtain ⟨planned, rfl, hplanned⟩ := conditions_of_buildSql hfilter h
  have htext := sqlText_eq cols predicate planned (ordering = .byIdentityAscending) q.limit
  obtain ⟨inner, hinner, hall⟩ := tokenize_between (writes_beforeText cols) hinside
    (writes_behindText cols hplanned (ordering = .byIdentityAscending) q.limit)
  refine ⟨htext, inner, hinner, ?_⟩
  rw [htext, String.toList_append, String.toList_append]
  exact hall

/-- **What is composed with an admitted predicate is not absorbed.** -/
theorem admitted_composes {db : Serializer} {predicate : String} {ops : List Value}
    (h : differentialOperands db predicate = .ok ops) : Composes db predicate ops := by
  have hinside := outside_of_admitted h
  refine ⟨wrapper_inside hinside, ?_, fun ns => ⟨bindText_eq predicate ns,
    contained writes_BEFORE_BOUND hinside (writes_behindBoundText ns)⟩, ?_⟩
  · intro src q indexUse ordering st plan cols hfilter hplan
    obtain ⟨planned, rfl, hplanned⟩ := conditions_of_buildSql hfilter hplan
    exact ⟨sqlText_eq cols predicate planned _ _,
      contained (writes_beforeText cols) hinside (writes_behindText cols hplanned _ _)⟩
  · intro render hdb
    obtain ⟨inner, hinner, _⟩ := tokenize_between writes_BEFORE_BOUND hinside
      (writes_behindBoundText ⟨[], nofun⟩)
    obtain ⟨fs, e, l, hrun, hreduce, hops⟩ := parse_admitted hdb h hinner
    refine ⟨inner, l, hinner, hops, parseExpr_of_reduce hrun hreduce, ?_⟩
    intro src q indexUse ordering st plan cols hsrc hfilter hplan
    constructor
    · obtain ⟨_, inner', hinner', htokens⟩ := composed_stream hinside cols hfilter hplan
      cases hinner.symm.trans hinner'
      rw [htokens]
      simp [beforeTokens, behindTokens, enclosed]
    · obtain ⟨gs, x, hrun', hreduce'⟩ :=
        parse_andTokens cols (told_of_buildSql hsrc hfilter hplan) hreduce
      have hall : parseFrom ⟨[], .awaits⟩
          ((enclosed inner ++ andTokens cols st.conditions.tail).filterMap Token.symbol) =
          some ⟨gs, .holds x⟩ := by
        rw [List.filterMap_append, parseFrom_append, hrun]
        exact hrun'
      refine ⟨_, parseExpr_of_reduce hall hreduce', ?_⟩
      rw [conjuncts_foldl_and, List.flatMap_assoc]
      simp only [conjuncts_exprs]

/-- It closes its bracket and opens another. -/
def ZONE : String := "zone = 'x') AND (id < 7"

theorem admitted_composes_zone : Follows wrapperParser render ∧
    ∃ ops, differentialOperands wrapperParser ZONE = .ok ops ∧ ops.length = 2 ∧
      Composes wrapperParser ZONE ops := by
  have hadmitted : (match differentialOperands wrapperParser ZONE with
      | .ok ops => ops.length == 2
      | .error _ => false) = true := by decide +kernel
  refine ⟨follows_wrapperParser, ?_⟩
  cases h : differentialOperands wrapperParser ZONE with
  | error e =>
    rw [h] at hadmitted
    cases hadmitted
  | ok ops =>
    rw [h] at hadmitted
    exact ⟨ops, rfl, beq_iff_eq.1 hadmitted, admitted_composes h⟩

end SpatialIde.Engine.Predicate
