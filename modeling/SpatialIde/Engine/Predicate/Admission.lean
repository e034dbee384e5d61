import SpatialIde.Engine.Predicate.Walk
import SpatialIde.Lib.SqlTokens

/-! # The two probes of a predicate

`differentialOperands` has the database parse a predicate twice, each time in brackets and
behind them `AND` and a sentinel of its own.  The operands that it admits are those in front
of the sentinel; both parses have to agree on them.

What the parser makes of a statement is a function of its tokens (`Serializer`).
-/

namespace SpatialIde.Engine.Predicate

open Lib Lib.Json
open Lib.Sql (Token tokenize)

/-- DuckDB's `json_serialize_sql`: what it makes of the tokens of a statement, and its message
where a quote or a comment is left open, so that there are no tokens. -/
structure Serializer where
  ofTokens : List Token → Except String Value
  unterminated : String → String

def SENTINEL_A : String := "1=1"

def SENTINEL_A_VALUE : Int := 1

def SENTINEL_B : String := "2=2"

def SENTINEL_B_VALUE : Int := 2

def wrapWith (predicate sentinel : String) : String :=
  "SELECT 1 WHERE (" ++ predicate ++ ") AND " ++ sentinel

/-- The payload of a statement that the parser refuses. -/
def errorPayload (message : String) : Value :=
  .object [("error", .bool true), ("error_type", .string "parser"),
    ("error_message", .string message)]

/-- A call that fails is an error; a statement that does not parse is a payload. -/
def serializeSql (db : Serializer) (wrapped : String) : Except FilterError Value :=
  match tokenize wrapped.toList with
  | none => .ok (errorPayload (db.unterminated wrapped))
  | some tokens =>
    match db.ofTokens tokens with
    | .ok payload => .ok payload
    | .error detail => .error (.unparsable detail)

/-! ### The shape of the wrapper -/

def KNOWN_SELECT_NODE_KEYS : List String :=
  ["type", "modifiers", "cte_map", "select_list", "from_table", "where_clause",
    "group_expressions", "group_sets", "aggregate_handling", "having", "sample", "qualify"]

def KNOWN_STATEMENT_KEYS : List String := ["node", "named_param_map"]

def refuseUnknownKeys (value : Value) (known : List String) (what : String) :
    Except FilterError Unit :=
  match value.asObject with
  | none => notAdmitted ("a malformed " ++ what ++ " (not a JSON object)")
  | some members =>
    match members.find? fun m => !known.contains m.1 with
    | none => .ok ()
    | some (key, _) => notAdmitted ("an unrecognized " ++ what ++ " key `" ++ key ++
        "` — a shape this module does not know how to check, refused rather than silently passed")

def emptyArray (node : Value) (key : String) : Bool :=
  match (node.get key).bind Value.asArray with
  | some [] => true
  | _ => false

/-- There, and null. -/
def isNullAt (node : Value) (key : String) : Bool :=
  match node.get key with
  | some v => v.isNull
  | none => false

/-- One column, which is a constant. -/
def selectsConstant (selectList : List Value) : Bool :=
  match selectList with
  | [column] => column.getStr "class" == some "CONSTANT"
  | _ => false

/-- One check, which refuses by the construct that it finds. -/
def ensure (holds : Bool) (construct : String) : Except FilterError Unit :=
  if holds then .ok () else notAdmitted construct

/-- The wrapper's statement with nothing attached to it; its conjuncts, the sentinel among
them. -/
def expectWrapperShape (node : Value) : Except FilterError (List Value) := do
  let nodeType := (node.getStr "type").getD "<missing type>"
  ensure (nodeType == "SELECT_NODE")
    ("a top-level statement of type `" ++ nodeType ++ "`, not a bare SELECT")
  refuseUnknownKeys node KNOWN_SELECT_NODE_KEYS "SELECT_NODE"
  ensure (emptyArray node "modifiers")
    "a query modifier (DISTINCT/ORDER BY/LIMIT on the wrapper's own SELECT)"
  ensure ((node.get "cte_map").any (emptyArray · "map")) "a WITH / common table expression"
  let selectList ← okOr (.constructNotAdmitted "a malformed select_list")
    ((node.get "select_list").bind Value.asArray)
  ensure (selectsConstant selectList) "the wrapper's own `SELECT 1` was altered"
  ensure ((node.get "from_table").bind (·.getStr "type") == some "EMPTY") "a FROM clause"
  ensure (emptyArray node "group_expressions" && emptyArray node "group_sets") "a GROUP BY clause"
  ensure (node.getStr "aggregate_handling" == some "STANDARD_HANDLING")
    "non-standard aggregate handling"
  ensure (isNullAt node "having") "a HAVING clause"
  ensure (isNullAt node "sample") "a SAMPLE clause"
  ensure (isNullAt node "qualify") "a QUALIFY clause"
  let whereClause ← okOr
    (.constructNotAdmitted "an empty predicate (no WHERE expression at all)")
    ((node.get "where_clause").filter fun w => !w.isNull)
  ensure (whereClause.getStr "class" == some "CONJUNCTION" &&
      whereClause.getStr "type" == some "CONJUNCTION_AND")
    ("the predicate does not compose with this module's own AND-sentinel the way real " ++
      "composition, `(<predicate>) AND <bbox>`, would — the caller's text re-associated across " ++
      "the paren this module added")
  expectChildren whereClause

/-- What does not say that there was no error counts as one. -/
def reportsError (payload : Value) : Bool := ((payload.get "error").bind Value.asBool).getD true

/-- The conjuncts of a payload. -/
def payloadChildren (payload : Value) : Except FilterError (List Value) :=
  if reportsError payload then
    .error (.unparsable ((payload.getStr "error_message").getD
      "json_serialize_sql reported an error with no error_message field"))
  else
    match (payload.get "statements").bind Value.asArray with
    | none => .error (.unparsable "json_serialize_sql's payload carries no `statements` array")
    | some [stmt] => do
      refuseUnknownKeys stmt KNOWN_STATEMENT_KEYS "statement"
      ensure (emptyArray stmt "named_param_map")
        "a bind parameter (the statement's named_param_map is non-empty)"
      let node ← okOr (.constructNotAdmitted "a statement with no `node`") (stmt.get "node")
      expectWrapperShape node
    | some statements => .error (.notASingleExpression statements.length)

def parseAndChildren (db : Serializer) (predicate sentinel : String) :
    Except FilterError (List Value) := do
  let payload ← serializeSql db (wrapWith predicate sentinel)
  payloadChildren payload

/-! ### The sentinels -/

def isIntegerConstant (node : Option Value) (value : Int) : Bool :=
  match node with
  | some n => n.getStr "class" == some "CONSTANT" &&
      ((n.get "value").bind (·.get "value")).bind Value.asI64 == some value
  | none => false

def isIntegerEqualitySentinel (node : Value) (value : Int) : Bool :=
  node.getStr "class" == some "COMPARISON" && node.getStr "type" == some "COMPARE_EQUAL" &&
    isIntegerConstant (node.get "left") value && isIntegerConstant (node.get "right") value

/-- The construct that a probe is refused by. -/
def mismatch (detail : String) : String :=
  "the predicate does not provably compose with this module's own AND-sentinel the way real " ++
    "composition, `(<predicate>) AND <bbox>`, would (" ++ detail ++ ") — the caller's text " ++
    "re-associated, truncated, or forged a sentinel across the paren this module added"

def sameNumber : Number → Number → Bool
  | .posInt m, .posInt n => m == n
  | .negInt m, .negInt n => m == n
  | .float x, .float y => x.eq y
  | _, _ => false

mutual

/-- Equality of two trees, value for value. -/
def sameValue : Value → Value → Bool
  | .null, .null => true
  | .bool b, .bool b' => b == b'
  | .number n, .number n' => sameNumber n n'
  | .string s, .string s' => s == s'
  | .array items, .array items' => sameValues items items'
  | .object members, .object members' => sameMembers members members'
  | _, _ => false

def sameValues : List Value → List Value → Bool
  | [], [] => true
  | v :: vs, v' :: vs' => sameValue v v' && sameValues vs vs'
  | _, _ => false

def sameMembers : List (String × Value) → List (String × Value) → Bool
  | [], [] => true
  | (key, v) :: ms, (key', v') :: ms' => key == key' && sameValue v v' && sameMembers ms ms'
  | _, _ => false

end

/-- The operands in front of the sentinel, if both probes end in the sentinel of their own and
agree on what is in front of it. -/
def differentialOperands (db : Serializer) (predicate : String) :
    Except FilterError (List Value) := do
  let childrenA ← parseAndChildren db predicate SENTINEL_A
  let childrenB ← parseAndChildren db predicate SENTINEL_B
  let lastA ← okOr (.constructNotAdmitted (mismatch "probe A's top-level AND has no operands"))
    childrenA.getLast?
  let lastB ← okOr (.constructNotAdmitted (mismatch "probe B's top-level AND has no operands"))
    childrenB.getLast?
  ensure (isIntegerEqualitySentinel lastA SENTINEL_A_VALUE)
    (mismatch "probe A's last operand is not this module's own 1=1 sentinel")
  ensure (isIntegerEqualitySentinel lastB SENTINEL_B_VALUE)
    (mismatch "probe B's last operand is not this module's own 2=2 sentinel")
  ensure (sameValues childrenA.dropLast childrenB.dropLast)
    (mismatch "the two differentially-sentineled parses disagree on everything before the sentinel")
  return childrenA.dropLast

theorem ensure_eq_ok {holds : Bool} {construct : String} :
    ensure holds construct = .ok () ↔ holds = true := by
  cases holds <;> simp [ensure, notAdmitted]

/-- What two probes that are admitted have come to. -/
theorem differentialOperands_eq_ok {db : Serializer} {predicate : String} {ops : List Value}
    (h : differentialOperands db predicate = .ok ops) :
    ∃ childrenA childrenB lastA lastB,
      parseAndChildren db predicate SENTINEL_A = .ok childrenA ∧
      parseAndChildren db predicate SENTINEL_B = .ok childrenB ∧
      childrenA.getLast? = some lastA ∧ childrenB.getLast? = some lastB ∧
      isIntegerEqualitySentinel lastA SENTINEL_A_VALUE = true ∧
      isIntegerEqualitySentinel lastB SENTINEL_B_VALUE = true ∧ ops = childrenA.dropLast := by
  obtain ⟨childrenA, hA, h⟩ := bind_eq_ok.1 h
  obtain ⟨childrenB, hB, h⟩ := bind_eq_ok.1 h
  obtain ⟨lastA, hlastA, h⟩ := bind_eq_ok.1 h
  obtain ⟨lastB, hlastB, h⟩ := bind_eq_ok.1 h
  obtain ⟨_, hsentA, h⟩ := bind_eq_ok.1 h
  obtain ⟨_, hsentB, h⟩ := bind_eq_ok.1 h
  obtain ⟨_, _, h⟩ := bind_eq_ok.1 h
  cases h
  exact ⟨childrenA, childrenB, lastA, lastB, hA, hB, okOr_eq_ok.1 hlastA, okOr_eq_ok.1 hlastB,
    ensure_eq_ok.1 hsentA, ensure_eq_ok.1 hsentB, rfl⟩

end SpatialIde.Engine.Predicate
