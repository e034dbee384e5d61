import SpatialIde.Engine.Predicate.Types
import SpatialIde.Engine.Query
import SpatialIde.Engine.Stream.Columns
import SpatialIde.Lib.SqlFragments

/-! # The text of a statement

`Statement.sqlText` is the SQL of the statement that `buildSql` plans, and `bindText` that of
the statement by which a predicate is bound.  In both the predicate stands between brackets:
`sqlText_eq` and `bindText_eq` say what is in front of it and what is behind it, and
`writes_behind` and its like that both are whole tokens.
-/

namespace SpatialIde.Engine

open Lib Lib.Sql

def quoteIdent (name : String) : String := String.ofList (quoteName name.toList)

/-- The path of a column in a struct. -/
structure FieldPath where
  segments : List String
  nonempty : segments ≠ []

def FieldPath.toSql (path : FieldPath) : String :=
  ".".intercalate (path.segments.map quoteIdent)

/-- What a statement names of its file. -/
structure SourceColumns where
  /-- The source column of the identity. -/
  identity : String
  geometry : String
  attributes : List String
  covering : Bbox FieldPath

/-! ### The stream's statement -/

def IdTest.text (col : String) : IdTest → String
  | .equals id => col ++ " = " ++ toString id.toNat
  | .between lo hi => col ++ " BETWEEN " ++ toString lo.toNat ++ " AND " ++ toString hi.toNat

def Condition.text (cols : SourceColumns) : Condition String → String
  | .filter predicate => "(" ++ predicate ++ ")"
  | .oneOf tests => "(" ++ " OR ".intercalate (tests.map (IdTest.text (quoteIdent cols.identity))) ++ ")"
  | .meets _ => cols.covering.xmin.toSql ++ " <= ? AND " ++ cols.covering.xmax.toSql ++
      " >= ? AND " ++ cols.covering.ymin.toSql ++ " <= ? AND " ++ cols.covering.ymax.toSql ++ " >= ?"

/-- The conditions behind the first. -/
def andTexts (cols : SourceColumns) : List (Condition String) → String
  | [] => ""
  | c :: cs => " AND " ++ c.text cols ++ andTexts cols cs

def whereText (cols : SourceColumns) : List (Condition String) → String
  | [] => ""
  | c :: cs => " WHERE " ++ c.text cols ++ andTexts cols cs

def attributesText : List String → String
  | [] => ""
  | name :: names => ", " ++ quoteIdent name ++ attributesText names

def projectionText (cols : SourceColumns) : String :=
  quoteIdent cols.identity ++ " AS " ++ quoteIdent ID_COLUMN ++ ", " ++ quoteIdent cols.geometry ++
    attributesText cols.attributes

def orderText (cols : SourceColumns) (ordered : Bool) : String :=
  if ordered then " ORDER BY " ++ quoteIdent cols.identity ++ " ASC" else ""

def limitText : Option Nat → String
  | none => ""
  | some n => " LIMIT " ++ toString n

def Statement.sqlText (cols : SourceColumns) (st : Statement String) : String :=
  "SELECT " ++ projectionText cols ++ " FROM read_parquet(?)" ++ whereText cols st.conditions ++
    orderText cols st.ordered ++ limitText st.limit

/-! ### The statement that binds a predicate -/

def surrogateText (column : String × String) : String :=
  "CAST(NULL AS " ++ column.2 ++ ") AS " ++ quoteIdent column.1

def surrogatesText (ns : Predicate.Namespace) : String :=
  match ns.surrogates with
  | [] => "1 AS " ++ quoteIdent "__surrogate_anchor"
  | columns => ", ".intercalate (columns.map surrogateText)

def bindText (predicate : String) (ns : Predicate.Namespace) : String :=
  "SELECT (" ++ predicate ++ ") AS " ++ quoteIdent "__predicate_result" ++ " FROM (SELECT " ++
    surrogatesText ns ++ ") AS " ++ quoteIdent "__surrogate" ++ " LIMIT 0"

/-! ### In front of the predicate and behind it -/

def beforeText (cols : SourceColumns) : String :=
  "SELECT " ++ projectionText cols ++ " FROM read_parquet(?) WHERE ("

/-- Behind the predicate: the conditions of the plan, the order and the limit. -/
def behindText (cols : SourceColumns) (planned : List (Condition String)) (ordered : Bool)
    (limit : Option Nat) : String :=
  ")" ++ andTexts cols planned ++ orderText cols ordered ++ limitText limit

theorem sqlText_eq (cols : SourceColumns) (predicate : String) (planned : List (Condition String))
    (ordered : Bool) (limit : Option Nat) :
    (Statement.mk (.filter predicate :: planned) ordered limit).sqlText cols =
      beforeText cols ++ predicate ++ behindText cols planned ordered limit := by
  have hopen : " FROM read_parquet(?) WHERE (" = " FROM read_parquet(?)" ++ " WHERE " ++ "(" := by
    decide
  simp only [Statement.sqlText, whereText, Condition.text, beforeText, behindText, hopen,
    String.append_assoc]

/-- In front of the predicate that is to be bound. -/
def BEFORE_BOUND : String := "SELECT ("

def behindBoundText (ns : Predicate.Namespace) : String :=
  ") AS " ++ quoteIdent "__predicate_result" ++ " FROM (SELECT " ++ surrogatesText ns ++ ") AS " ++
    quoteIdent "__surrogate" ++ " LIMIT 0"

theorem bindText_eq (predicate : String) (ns : Predicate.Namespace) :
    bindText predicate ns = BEFORE_BOUND ++ predicate ++ behindBoundText ns := by
  simp only [bindText, BEFORE_BOUND, behindBoundText, String.append_assoc]

/-! ### The tokens of the pieces -/

def nameToken (name : String) : Token := .name name.toList

def wordToken (word : String) : Token := .word word.toList

def numberToken (n : Nat) : Token := .number (toString n).toList

def FieldPath.tokens (path : FieldPath) : List Token :=
  [Token.punct '.'].intercalate (path.segments.map fun name => [nameToken name])

def IdTest.tokens (col : Token) : IdTest → List Token
  | .equals id => [col, .operator ['='], numberToken id.toNat]
  | .between lo hi =>
    [col, wordToken "BETWEEN", numberToken lo.toNat, wordToken "AND", numberToken hi.toNat]

/-- A comparison of a column with a parameter. -/
def boundTokens (path : FieldPath) (op : List Char) : List Token :=
  path.tokens ++ [.operator op, .punct '?']

def AND : Token := wordToken "AND"

/-- The tokens of a condition of the plan. -/
def Condition.tokens (cols : SourceColumns) : Condition String → List Token
  | .filter _ => []
  | .oneOf tests => [.punct '('] ++
      [wordToken "OR"].intercalate (tests.map (IdTest.tokens (nameToken cols.identity))) ++ [.punct ')']
  | .meets _ => boundTokens cols.covering.xmin ['<', '='] ++ [AND] ++
      boundTokens cols.covering.xmax ['>', '='] ++ [AND] ++
      boundTokens cols.covering.ymin ['<', '='] ++ [AND] ++
      boundTokens cols.covering.ymax ['>', '=']

def andTokens (cols : SourceColumns) : List (Condition String) → List Token
  | [] => []
  | c :: cs => [AND] ++ c.tokens cols ++ andTokens cols cs

def attributesTokens : List String → List Token
  | [] => []
  | name :: names => [.punct ','] ++ [nameToken name] ++ attributesTokens names

def orderTokens (cols : SourceColumns) (ordered : Bool) : List Token :=
  if ordered then
    [wordToken "ORDER", wordToken "BY"] ++ [nameToken cols.identity] ++ [wordToken "ASC"]
  else []

def limitTokens : Option Nat → List Token
  | none => []
  | some n => [wordToken "LIMIT"] ++ [numberToken n]

theorem writes_quoteIdent {ks : List Kind} (hends : ∀ k ∈ ks, k.endsAt NAME_QUOTE = true)
    (name : String) : Writes ks (quoteIdent name).toList [nameToken name] [.nameQuote] := by
  rw [quoteIdent, String.toList_ofList]
  exact writes_quoteName hends name.toList

theorem writes_ident (name : String) :
    Writes [.gap] (quoteIdent name).toList [nameToken name] [.nameQuote] :=
  writes_quoteIdent (by decide) name

theorem writes_toSql (path : FieldPath) :
    Writes [.gap] path.toSql.toList path.tokens outside := by
  have hpoint : Writes [.nameQuote] ".".toList [.punct '.'] [.gap, .dot] :=
    writes_text (by decide) (by decide) (by decide)
  have hname : ∀ name ∈ path.segments,
      Writes [.gap, .dot] (quoteIdent name).toList [nameToken name] [.nameQuote] :=
    fun name _ => writes_quoteIdent (by decide) name
  have hall : Writes [.gap, .dot] path.toSql.toList path.tokens outside :=
    writes_intercalate hname hpoint (by decide) (by decide)
  exact hall.mono (by decide) (List.Subset.refl _)

theorem writes_idTest (col : String) (test : IdTest) :
    Writes [.gap] (test.text (quoteIdent col)).toList (test.tokens (nameToken col)) [.number] := by
  have hcol := writes_ident col
  cases test with
  | equals id =>
    have heq : Writes [.nameQuote] " = ".toList [.operator ['=']] [.gap] :=
      writes_text (by decide) (by decide) (by decide)
    rw [IdTest.text, String.toList_append, String.toList_append]
    exact (hcol.append heq).append (writes_digits _)
  | between lo hi =>
    have hbetween : Writes [.nameQuote] " BETWEEN ".toList [wordToken "BETWEEN"] [.gap] :=
      writes_text (by decide) (by decide) (by decide)
    have hand : Writes [.number] " AND ".toList [wordToken "AND"] [.gap] :=
      writes_text (by decide) (by decide) (by decide)
    simp only [IdTest.text, String.toList_append]
    exact (((hcol.append hbetween).append (writes_digits _)).append hand).append (writes_digits _)

/-- What the plan adds to a filter. -/
def Condition.Planned : Condition String → Prop
  | .filter _ => False
  | _ => True

theorem writes_condition (cols : SourceColumns) {c : Condition String} (hc : c.Planned) :
    Writes [.gap] (c.text cols).toList (c.tokens cols) outside := by
  cases c with
  | filter predicate => exact hc.elim
  | oneOf tests =>
    have hopen : Writes [.gap] "(".toList [.punct '('] [.gap] :=
      writes_text (by decide) (by decide) (by decide)
    have hor : Writes [.number] " OR ".toList [wordToken "OR"] [.gap] :=
      writes_text (by decide) (by decide) (by decide)
    have hclose : Writes outside ")".toList [.punct ')'] outside :=
      writes_text (by decide) (by decide) (by decide)
    have htests : Writes [.gap]
        (" OR ".intercalate (tests.map (·.text (quoteIdent cols.identity)))).toList
        ([wordToken "OR"].intercalate (tests.map (·.tokens (nameToken cols.identity)))) outside :=
      writes_intercalate (fun test _ => writes_idTest cols.identity test) hor (by decide)
        (by decide)
    simp only [Condition.text, String.toList_append]
    exact (hopen.append htests).append hclose
  | meets view =>
    have hle : Writes outside " <= ? AND ".toList [.operator ['<', '='], .punct '?', AND] [.gap] :=
      writes_text (by decide) (by decide) (by decide)
    have hge : Writes outside " >= ? AND ".toList [.operator ['>', '='], .punct '?', AND] [.gap] :=
      writes_text (by decide) (by decide) (by decide)
    have hlast : Writes outside " >= ?".toList [.operator ['>', '='], .punct '?'] outside :=
      writes_text (by decide) (by decide) (by decide)
    have hall := (((writes_toSql cols.covering.xmin).append hle).append
      ((writes_toSql cols.covering.xmax).append hge)).append
      (((writes_toSql cols.covering.ymin).append hle).append
      ((writes_toSql cols.covering.ymax).append hlast))
    have htokens : (Condition.meets view).tokens cols =
        cols.covering.xmin.tokens ++ [.operator ['<', '='], .punct '?', AND] ++
        (cols.covering.xmax.tokens ++ [.operator ['>', '='], .punct '?', AND]) ++
        (cols.covering.ymin.tokens ++ [.operator ['<', '='], .punct '?', AND] ++
        (cols.covering.ymax.tokens ++ [.operator ['>', '='], .punct '?'])) := by
      simp [Condition.tokens, boundTokens]
    rw [htokens]
    simpa only [Condition.text, String.toList_append, List.append_assoc] using hall

theorem writes_andTexts (cols : SourceColumns) {planned : List (Condition String)}
    (hplanned : ∀ c ∈ planned, c.Planned) :
    Writes outside (andTexts cols planned).toList (andTokens cols planned) outside := by
  induction planned with
  | nil => exact writes_nil outside
  | cons c planned ih =>
    have hand : Writes outside " AND ".toList [AND] [.gap] :=
      writes_text (by decide) (by decide) (by decide)
    have hc := writes_condition cols (hplanned c List.mem_cons_self)
    simp only [andTexts, andTokens, String.toList_append]
    exact (hand.append hc).append (ih fun c' hc' => hplanned c' (List.mem_cons_of_mem _ hc'))

theorem writes_orderText (cols : SourceColumns) (ordered : Bool) :
    Writes outside (orderText cols ordered).toList (orderTokens cols ordered) outside := by
  cases ordered with
  | false => exact writes_nil outside
  | true =>
    have horder : Writes outside " ORDER BY ".toList [wordToken "ORDER", wordToken "BY"] [.gap] :=
      writes_text (by decide) (by decide) (by decide)
    have hcol := writes_ident cols.identity
    have hasc : Writes [.nameQuote] " ASC".toList [wordToken "ASC"] outside :=
      writes_text (by decide) (by decide) (by decide)
    show Writes outside (" ORDER BY " ++ quoteIdent cols.identity ++ " ASC").toList _ outside
    simp only [String.toList_append]
    exact (horder.append hcol).append hasc

theorem writes_limitText (limit : Option Nat) :
    Writes outside (limitText limit).toList (limitTokens limit) outside := by
  cases limit with
  | none => exact writes_nil outside
  | some n =>
    have hlimit : Writes outside " LIMIT ".toList [wordToken "LIMIT"] [.gap] :=
      writes_text (by decide) (by decide) (by decide)
    simp only [limitText, limitTokens, String.toList_append]
    exact hlimit.append ((writes_digits n).mono (List.Subset.refl _) (by decide))

def behindTokens (cols : SourceColumns) (planned : List (Condition String)) (ordered : Bool)
    (limit : Option Nat) : List Token :=
  [.punct ')'] ++ andTokens cols planned ++ orderTokens cols ordered ++ limitTokens limit

/-- **What is behind the predicate** is whole tokens, which a bracket begins. -/
theorem writes_behindText (cols : SourceColumns) {planned : List (Condition String)}
    (hplanned : ∀ c ∈ planned, c.Planned) (ordered : Bool) (limit : Option Nat) :
    Writes outside (behindText cols planned ordered limit).toList
      (behindTokens cols planned ordered limit) outside := by
  have hclose : Writes outside ")".toList [.punct ')'] outside :=
    writes_text (by decide) (by decide) (by decide)
  simp only [behindText, behindTokens, String.toList_append]
  exact ((hclose.append (writes_andTexts cols hplanned)).append
    (writes_orderText cols ordered)).append (writes_limitText limit)

theorem writes_attributesText (names : List String) :
    Writes [.nameQuote] (attributesText names).toList (attributesTokens names) [.nameQuote] := by
  induction names with
  | nil => exact writes_nil _
  | cons name names ih =>
    have hcomma : Writes [.nameQuote] ", ".toList [.punct ','] [.gap] :=
      writes_text (by decide) (by decide) (by decide)
    have hname := writes_ident name
    simp only [attributesText, attributesTokens, String.toList_append]
    exact (hcomma.append hname).append ih

def projectionTokens (cols : SourceColumns) : List Token :=
  [nameToken cols.identity] ++ [wordToken "AS"] ++ [nameToken ID_COLUMN] ++ [.punct ','] ++
    [nameToken cols.geometry] ++ attributesTokens cols.attributes

theorem writes_projectionText (cols : SourceColumns) :
    Writes [.gap] (projectionText cols).toList (projectionTokens cols) [.nameQuote] := by
  have has : Writes [.nameQuote] " AS ".toList [wordToken "AS"] [.gap] :=
    writes_text (by decide) (by decide) (by decide)
  have hcomma : Writes [.nameQuote] ", ".toList [.punct ','] [.gap] :=
    writes_text (by decide) (by decide) (by decide)
  have hname := writes_ident
  simp only [projectionText, projectionTokens, String.toList_append]
  exact (((((hname _).append has).append (hname _)).append hcomma).append (hname _)).append
    (writes_attributesText _)

/-- In front of the conditions. -/
def selectTokens (cols : SourceColumns) : List Token :=
  [wordToken "SELECT"] ++ projectionTokens cols ++
    [wordToken "FROM", wordToken "read_parquet", .punct '(', .punct '?', .punct ')',
      wordToken "WHERE"]

def beforeTokens (cols : SourceColumns) : List Token := selectTokens cols ++ [.punct '(']

/-- **What is in front of the predicate** is whole tokens, whatever the columns are called. -/
theorem writes_beforeText (cols : SourceColumns) :
    Writes [.gap] (beforeText cols).toList (beforeTokens cols) [.gap] := by
  have hselect : Writes [.gap] "SELECT ".toList [wordToken "SELECT"] [.gap] :=
    writes_text (by decide) (by decide) (by decide)
  have hfrom : Writes [.nameQuote] " FROM read_parquet(?) WHERE (".toList
      [wordToken "FROM", wordToken "read_parquet", .punct '(', .punct '?', .punct ')',
        wordToken "WHERE", .punct '('] [.gap] :=
    writes_text (by decide) (by decide) (by decide)
  have htokens : beforeTokens cols = [wordToken "SELECT"] ++ projectionTokens cols ++
      [wordToken "FROM", wordToken "read_parquet", .punct '(', .punct '?', .punct ')',
        wordToken "WHERE", .punct '('] := by
    rw [beforeTokens, selectTokens, List.append_assoc]
    rfl
  rw [htokens, beforeText, String.toList_append, String.toList_append]
  exact (hselect.append (writes_projectionText cols)).append hfrom

/-! ### The tokens of the statement that binds -/

def surrogateTokens (column : String × String) : List Token :=
  [wordToken "CAST", .punct '(', wordToken "NULL", wordToken "AS"] ++ [wordToken column.2] ++
    [.punct ')', wordToken "AS"] ++ [nameToken column.1]

def surrogatesTokens (ns : Predicate.Namespace) : List Token :=
  match ns.surrogates with
  | [] => [numberToken 1, wordToken "AS"] ++ [nameToken "__surrogate_anchor"]
  | columns => [Token.punct ','].intercalate (columns.map surrogateTokens)

theorem writes_typeName {ty : DataType} {name : String}
    (h : Predicate.duckdbTypeName ty = some name) :
    Writes [.gap] name.toList [wordToken name] [.word] := by
  unfold Predicate.duckdbTypeName at h
  split at h <;> cases h
  all_goals exact writes_text (by decide) (by decide) (by decide)

theorem writes_surrogateText {column : String × String} {ty : DataType}
    (h : Predicate.duckdbTypeName ty = some column.2) :
    Writes [.gap] (surrogateText column).toList (surrogateTokens column) [.nameQuote] := by
  have hcast : Writes [.gap] "CAST(NULL AS ".toList
      [wordToken "CAST", .punct '(', wordToken "NULL", wordToken "AS"] [.gap] :=
    writes_text (by decide) (by decide) (by decide)
  have has : Writes [.word] ") AS ".toList [.punct ')', wordToken "AS"] [.gap] :=
    writes_text (by decide) (by decide) (by decide)
  simp only [surrogateText, surrogateTokens, String.toList_append]
  exact ((hcast.append (writes_typeName h)).append has).append
    (writes_quoteIdent (by decide) column.1)

theorem writes_surrogatesText (ns : Predicate.Namespace) :
    Writes [.gap] (surrogatesText ns).toList (surrogatesTokens ns) [.gap, .nameQuote] := by
  have hnamed := ns.named
  unfold surrogatesText surrogatesTokens
  cases hcolumns : ns.surrogates with
  | nil =>
    have hone : Writes [.gap] "1 AS ".toList [numberToken 1, wordToken "AS"] [.gap] :=
      writes_text (by decide) (by decide) (by decide)
    rw [String.toList_append]
    exact (hone.append (writes_ident _)).mono
      (List.Subset.refl _) (by decide)
  | cons column columns =>
    have hcomma : Writes [.nameQuote] ", ".toList [.punct ','] [.gap] :=
      writes_text (by decide) (by decide) (by decide)
    refine writes_intercalate (fun c hc => ?_) hcomma (by decide) (by decide)
    obtain ⟨ty, hty⟩ := hnamed c (by rw [hcolumns]; exact hc)
    exact writes_surrogateText hty

def behindBoundTokens (ns : Predicate.Namespace) : List Token :=
  [.punct ')', wordToken "AS"] ++ [nameToken "__predicate_result"] ++
    [wordToken "FROM", .punct '(', wordToken "SELECT"] ++ surrogatesTokens ns ++
    [.punct ')', wordToken "AS"] ++ [nameToken "__surrogate"] ++ [wordToken "LIMIT", numberToken 0]

theorem writes_behindBoundText (ns : Predicate.Namespace) :
    Writes outside (behindBoundText ns).toList (behindBoundTokens ns) outside := by
  have has : Writes outside ") AS ".toList [.punct ')', wordToken "AS"] [.gap] :=
    writes_text (by decide) (by decide) (by decide)
  have hfrom : Writes [.nameQuote] " FROM (SELECT ".toList
      [wordToken "FROM", .punct '(', wordToken "SELECT"] [.gap] :=
    writes_text (by decide) (by decide) (by decide)
  have hlimit : Writes [.nameQuote] " LIMIT 0".toList [wordToken "LIMIT", numberToken 0] outside :=
    writes_text (by decide) (by decide) (by decide)
  have hname := writes_ident
  have hsurrogates := (writes_surrogatesText ns).append (has.mono (by decide) (List.Subset.refl _))
  simp only [behindBoundText, behindBoundTokens, String.toList_append]
  have hall := ((((has.append (hname "__predicate_result")).append hfrom).append
    hsurrogates).append (hname "__surrogate")).append hlimit
  simpa only [List.append_assoc] using hall

end SpatialIde.Engine
