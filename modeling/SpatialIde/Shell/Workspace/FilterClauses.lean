import SpatialIde.Lib.Regex
import SpatialIde.Lib.Text
import SpatialIde.Shell.Canvas.DecodeBatch

/-! # The filter cards of a view

A card is a condition as it was typed, switched on or off; the cards that are on combine into the one
filter the kernel receives.  `recognizeSimple` tells the texts that can stand next to others: a text
it does not accept is an advanced card, and `proposeClauseChange` lets such a card be on alone only.
-/

namespace SpatialIde.Shell.Workspace

open Canvas (Filter)
open Lib

def FILTER_DIALECT_DUCKDB_EXPR_0 : String := "duckdb-expr/0"

/-- `clause-<n>` -/
structure ClauseId where
  number : Nat
  deriving DecidableEq, Repr

structure FilterClause where
  id : ClauseId
  text : String
  enabled : Bool
  deriving DecidableEq, Repr

def NO_CLAUSES : List FilterClause := []

/-- One text goes as it is, several each in one pair of brackets. -/
def combineTexts : List String → Option String
  | [] => none
  | [text] => some text
  | texts => some (" AND ".intercalate (texts.map fun text => "(" ++ text ++ ")"))

/-- The texts of the cards that are on, in list order. -/
def enabledTexts (clauses : List FilterClause) : List String :=
  (clauses.filter FilterClause.enabled).map FilterClause.text

def combineClauses (clauses : List FilterClause) : Option Filter :=
  (combineTexts (enabledTexts clauses)).map fun predicate =>
    ⟨predicate, FILTER_DIALECT_DUCKDB_EXPR_0⟩

/-- A card alone sends its text. -/
theorem combineClauses_alone {clause : FilterClause} (h : clause.enabled = true) :
    combineClauses [clause] = some ⟨clause.text, FILTER_DIALECT_DUCKDB_EXPR_0⟩ := by
  rw [combineClauses, enabledTexts, List.filter_cons_of_pos h]
  rfl

/-! ### The recognizer -/

/-- `\s` -/
def isSpace (c : Char) : Bool :=
  (Text.isWhitespace c && c != Char.ofNat 0x85) || c == Char.ofNat 0xFEFF

def isNameStart (c : Char) : Bool := c.isAlpha || c == '_'

def isNamePart (c : Char) : Bool := isNameStart c || c.isDigit

def APOSTROPHE : Char := Char.ofNat 39

def DOUBLE_QUOTE : Char := Char.ofNat 34

/-- `\s*` -/
def spaces : Regex Char := .star (.cls isSpace)

/-- `\s+` -/
def someSpaces : Regex Char := .plus (.cls isSpace)

/-- A letter in either case, from its capital. -/
def letter (c : Char) : Regex Char := .cls fun d => d = c || d = c.toLower

def keyword (capitals : String) : Regex Char := .all (capitals.toList.map letter)

/-- `q(?:[^q]|qq)*q` -/
def quoted (q : Char) : Regex Char :=
  .seq (.chr q) (.seq (.star (.alt (.cls fun c => c != q) (.seq (.chr q) (.chr q)))) (.chr q))

def NAME : Regex Char :=
  .alt (.seq (.cls isNameStart) (.star (.cls isNamePart))) (quoted DOUBLE_QUOTE)

def digits : Regex Char := .plus (.cls Char.isDigit)

def NUMBER : Regex Char :=
  .seq (.opt (.chr '-')) (.seq digits (.opt (.seq (.chr '.') digits)))

def STRING : Regex Char := quoted APOSTROPHE

def LITERAL : Regex Char := .alt NUMBER STRING

def COMPARISON : Regex Char :=
  .any [.all [.chr '=', .chr '='], .all [.chr '<', .chr '>'], .all [.chr '!', .chr '='],
    .all [.chr '<', .chr '='], .all [.chr '>', .chr '='], .chr '=', .chr '<', .chr '>']

/-- `(?:NOT\s+)?` -/
def optionalNot : Regex Char := .opt (.seq (keyword "NOT") someSpaces)

def SIMPLE_FORMS : List (Regex Char) := [
  .all [spaces, NAME, spaces, COMPARISON, spaces, LITERAL, spaces],
  .all [spaces, NAME, someSpaces, keyword "IS", someSpaces, optionalNot, keyword "NULL", spaces],
  .all [spaces, NAME, someSpaces, optionalNot, keyword "IN", spaces, .chr '(', spaces, LITERAL,
    .star (.all [spaces, .chr ',', spaces, LITERAL]), spaces, .chr ')', spaces],
  .all [spaces, NAME, someSpaces, optionalNot, keyword "BETWEEN", someSpaces, LITERAL, someSpaces,
    keyword "AND", someSpaces, LITERAL, spaces],
  .all [spaces, NAME, someSpaces, optionalNot, .opt (letter 'I'), keyword "LIKE", someSpaces,
    STRING, spaces]]

/-- Whether a text is one of the simple forms. -/
def recognizeSimple (text : String) : Bool := SIMPLE_FORMS.any fun form => form.test text.toList

/-! ### Changes -/

/-- What a user asked of the cards. -/
inductive ClauseRequest where
  | add (text : String)
  | setEnabled (clause : ClauseId) (enabled : Bool)
  | remove (clause : ClauseId)
  deriving DecidableEq, Repr

inductive ClauseStep where
  | add (clause : ClauseId)
  | setEnabled (clause : ClauseId) (enabled : Bool)
  | remove (clause : ClauseId)
  deriving DecidableEq, Repr

inductive ClauseProposal where
  | propose (clauses : List FilterClause) (filter : Option Filter) (step : ClauseStep)
  /-- `advanced-alone`: a card that is on stands in the way. -/
  | refuse (blocking : ClauseId)

def propose (next : List FilterClause) (step : ClauseStep) : ClauseProposal :=
  .propose next (combineClauses next) step

/-- The card, if any, that stops a candidate from being on beside the cards that are on. -/
def blockerOf (candidate : FilterClause) (others : List FilterClause) : Option FilterClause :=
  let on := others.filter FilterClause.enabled
  if recognizeSimple candidate.text then on.find? fun clause => !recognizeSimple clause.text
  else on.head?

/-- What the cards would be, or why the shell will not send it. -/
def proposeClauseChange (clauses : List FilterClause) (request : ClauseRequest)
    (mintId : ClauseId) : ClauseProposal :=
  match request with
  | .add text =>
    let added : FilterClause := ⟨mintId, text, true⟩
    match blockerOf added clauses with
    | none => propose (clauses ++ [added]) (.add added.id)
    | some blocker => .refuse blocker.id
  | .setEnabled clause enabled =>
    let target := clauses.find? fun c => c.id = clause
    let others := clauses.filter fun c => c.id ≠ clause
    let blocker := if enabled then target.bind fun target => blockerOf target others else none
    match blocker with
    | some blocker => .refuse blocker.id
    | none =>
      propose (clauses.map fun c => if c.id = clause then { c with enabled := enabled } else c)
        (.setEnabled clause enabled)
  | .remove clause => propose (clauses.filter fun c => c.id ≠ clause) (.remove clause)

end SpatialIde.Shell.Workspace
