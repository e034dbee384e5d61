import SpatialIde.Engine.Arrow
import SpatialIde.Engine.Predicate.Walk

/-! # The types of operands

What the type walk knows of an operand (`Typed`), which pairs of operands a comparison or an
arithmetic operator admits, and the reason a refused pair is refused.

A function of this stage either refuses or panics: `expect`, `unreachable!` and an index out of
range are `Fault.panicked`.
-/

namespace SpatialIde.Engine.Predicate

open Lib Lib.Json

inductive Fault where
  | refused (e : FilterError)
  | panicked
  deriving DecidableEq, Repr

def refuse {α : Type} (e : FilterError) : Except Fault α := .error (.refused e)

/-- The digits of the integer part of a literal, its sign left out. -/
def MAX_INTEGER_LITERAL_DIGITS : Nat := 20

def MAX_DECIMAL_LITERAL_SCALE : Nat := 18

inductive EngineType where
  | varchar
  | boolean
  | tinyInt
  | smallInt
  | integer
  | bigInt
  | uTinyInt
  | uSmallInt
  | uInteger
  | uBigInt
  | hugeInt
  | uHugeInt
  | real
  | double
  | decimal (width scale : UInt32)
  | null
  deriving DecidableEq, Repr

namespace EngineType

def display : EngineType → String
  | varchar => "VARCHAR"
  | boolean => "BOOLEAN"
  | tinyInt => "TINYINT"
  | smallInt => "SMALLINT"
  | integer => "INTEGER"
  | bigInt => "BIGINT"
  | uTinyInt => "UTINYINT"
  | uSmallInt => "USMALLINT"
  | uInteger => "UINTEGER"
  | uBigInt => "UBIGINT"
  | hugeInt => "HUGEINT"
  | uHugeInt => "UHUGEINT"
  | real => "REAL"
  | double => "DOUBLE"
  | decimal width scale => "DECIMAL(" ++ toString width ++ "," ++ toString scale ++ ")"
  | null => "NULL"

def isDecimal : EngineType → Bool
  | decimal .. => true
  | _ => false

end EngineType

inductive OperandKind where
  | column
  | literal
  | expression
  deriving DecidableEq, Repr

/-- An operand that the walk has classified. -/
structure Typed where
  ty : EngineType
  kind : OperandKind
  withinBounds : Bool
  /-- The value of an integer literal. -/
  literalIntValue : Option Int
  /-- Of a `NULL` beside a decimal literal: the result counts as that literal. -/
  countsAsDecimalLiteral : Bool
  deriving DecidableEq, Repr

namespace Typed

def column (ty : EngineType) : Typed := ⟨ty, .column, true, none, false⟩

def expression (ty : EngineType) : Typed := ⟨ty, .expression, true, none, false⟩

def literal (ty : EngineType) (withinBounds : Bool) (value : Option Int) : Typed :=
  ⟨ty, .literal, withinBounds, value, false⟩

def render (t : Typed) : String :=
  match t.kind with
  | .column => t.ty.display
  | .literal => t.ty.display ++ " literal"
  | .expression => t.ty.display ++ " expression"

end Typed

def booleanVirtual : Typed := .column .boolean

def numericVirtual : Typed := .column .double

/-- The width of an integer type, and whether it is signed. -/
def intBitsSigned : EngineType → Option (Nat × Bool)
  | .tinyInt => some (8, true)
  | .smallInt => some (16, true)
  | .integer => some (32, true)
  | .bigInt => some (64, true)
  | .hugeInt => some (128, true)
  | .uTinyInt => some (8, false)
  | .uSmallInt => some (16, false)
  | .uInteger => some (32, false)
  | .uBigInt => some (64, false)
  | .uHugeInt => some (128, false)
  | _ => none

def isInteger (t : Typed) : Bool := (intBitsSigned t.ty).isSome

def isNumeric (t : Typed) : Bool :=
  isInteger t || t.ty == .real || t.ty == .double || t.ty.isDecimal

def bitsSignedToType (bits : Nat) (signed : Bool) : EngineType :=
  match bits, signed with
  | 8, true => .tinyInt
  | 16, true => .smallInt
  | 32, true => .integer
  | 64, true => .bigInt
  | _, true => .hugeInt
  | 8, false => .uTinyInt
  | 16, false => .uSmallInt
  | 32, false => .uInteger
  | 64, false => .uBigInt
  | _, false => .uHugeInt

def fitsIntType (v : Int) (ty : EngineType) : Bool :=
  match intBitsSigned ty with
  | none => false
  | some (128, true) => true
  | some (128, false) => decide (0 ≤ v)
  | some (bits, true) => decide (-(2 ^ (bits - 1) : Int) ≤ v ∧ v < (2 ^ (bits - 1) : Int))
  | some (bits, false) => decide (0 ≤ v ∧ v < (2 ^ bits : Int))

/-- The type two integers promote to. -/
def intPromote (a b : EngineType) : Except Fault EngineType :=
  match intBitsSigned a, intBitsSigned b with
  | some (abits, asig), some (bbits, bsig) =>
    if asig = bsig then .ok (bitsSignedToType (max abits bbits) asig)
    else
      let sbits := if asig then abits else bbits
      let ubits := if asig then bbits else abits
      if sbits > ubits then .ok (bitsSignedToType sbits true)
      else if ubits ≥ 64 then .ok .hugeInt
      else .ok .bigInt
  | _, _ => .error .panicked

/-- Whether the literal `a` folds down to the type of `b`, which is no literal. -/
def foldsTo (a b : Typed) : Bool :=
  a.kind == .literal && b.kind != .literal &&
    match a.literalIntValue with
    | some v => fitsIntType v b.ty
    | none => false

def foldOrPromoteInteger (l r : Typed) : Except Fault EngineType :=
  if foldsTo l r then .ok r.ty
  else if foldsTo r l then .ok l.ty
  else intPromote l.ty r.ty

/-- The name the surrogate relation gives the type of a column. -/
def duckdbTypeName : DataType → Option String
  | .utf8 | .largeUtf8 | .utf8View => some "VARCHAR"
  | .boolean => some "BOOLEAN"
  | .int8 => some "TINYINT"
  | .int16 => some "SMALLINT"
  | .int32 => some "INTEGER"
  | .int64 => some "BIGINT"
  | .uInt8 => some "UTINYINT"
  | .uInt16 => some "USMALLINT"
  | .uInt32 => some "UINTEGER"
  | .uInt64 => some "UBIGINT"
  | .float64 => some "DOUBLE"
  | .float32 => some "REAL"
  | _ => none

def engineTypeOfSurrogate (name : String) : Except Fault EngineType :=
  match name with
  | "VARCHAR" => .ok .varchar
  | "BOOLEAN" => .ok .boolean
  | "TINYINT" => .ok .tinyInt
  | "SMALLINT" => .ok .smallInt
  | "INTEGER" => .ok .integer
  | "BIGINT" => .ok .bigInt
  | "UTINYINT" => .ok .uTinyInt
  | "USMALLINT" => .ok .uSmallInt
  | "UINTEGER" => .ok .uInteger
  | "UBIGINT" => .ok .uBigInt
  | "DOUBLE" => .ok .double
  | "REAL" => .ok .real
  | _ => .error .panicked

/-- The columns a predicate may name, each with the name of its type. -/
structure Namespace where
  surrogates : List (String × String)
  named : ∀ e ∈ surrogates, ∃ ty, duckdbTypeName ty = some e.2

namespace Namespace

def get (ns : Namespace) (name : String) : Option String := ns.surrogates.lookup name

end Namespace

theorem engineTypeOfSurrogate_ok {ty : DataType} {name : String} (h : duckdbTypeName ty = some name) :
    ∃ t, engineTypeOfSurrogate name = .ok t := by
  unfold duckdbTypeName at h
  split at h
  all_goals
    cases h
    try exact ⟨_, rfl⟩

theorem Namespace.surrogate_ok {ns : Namespace} {name surrogate : String}
    (h : ns.get name = some surrogate) : ∃ t, engineTypeOfSurrogate surrogate = .ok t := by
  obtain ⟨ty, hty⟩ := ns.named _ (Value.mem_of_lookup h)
  exact engineTypeOfSurrogate_ok hty

/-! ### Literals -/

/-- The value of an integer literal: a number, or the two halves of a 128-bit one. -/
def integerLiteralValue (id : String) (raw : Option Value) : Except Fault Int :=
  match raw with
  | none => refuse (missingField "CONSTANT.value.value")
  | some raw =>
    match raw.asI64, raw.asU64 with
    | some n, _ => .ok n
    | none, some n => .ok n.toNat
    | none, none =>
      match (raw.get "lower").bind Value.asU64 with
      | none => refuse (missingField "CONSTANT.value.value.lower")
      | some lower =>
        if id = "UHUGEINT" then
          match (raw.get "upper").bind Value.asU64 with
          | none => refuse (missingField "CONSTANT.value.value.upper")
          | some upper =>
            -- beyond `i128`, where the bounds have refused it anyway
            .ok (min (upper.toNat * 2 ^ 64 + lower.toNat : Int) (2 ^ 127 - 1))
        else
          match (raw.get "upper").bind Value.asI64 with
          | none => refuse (missingField "CONSTANT.value.value.upper")
          | some upper => .ok (upper * 2 ^ 64 + lower.toNat)

/-- `width` or `scale` of a decimal type. -/
def typeInfo (info : Value) (key : String) : UInt32 :=
  (((info.get key).bind Value.asU64).getD 0).toUInt32

def integerTyped (id : String) (v : Int) : Typed :=
  let ty := match id with
    | "INTEGER" => .integer
    | "BIGINT" => .bigInt
    | "HUGEINT" => .hugeInt
    | _ => .uHugeInt
  .literal ty (decide ((toString v.natAbs).length ≤ MAX_INTEGER_LITERAL_DIGITS)) (some v)

def decimalTyped (width scale : UInt32) : Typed :=
  .literal (.decimal width scale)
    (decide (scale.toNat ≤ MAX_DECIMAL_LITERAL_SCALE) &&
      decide (width.toNat - scale.toNat ≤ MAX_INTEGER_LITERAL_DIGITS)) none

def literalTyped (node : Value) : Except Fault Typed :=
  match node.get "value" with
  | none => refuse (missingField "CONSTANT.value")
  | some value =>
    if ((value.get "is_null").bind Value.asBool).getD false then .ok (.literal .null true none)
    else
      match value.get "type" with
      | none => refuse (missingField "CONSTANT.value.type")
      | some ty =>
        let id := (ty.getStr "id").getD ""
        match id with
        | "INTEGER" | "BIGINT" | "HUGEINT" | "UHUGEINT" =>
          integerTyped id <$> integerLiteralValue id (value.get "value")
        | "DECIMAL" =>
          match ty.get "type_info" with
          | none => refuse (missingField "CONSTANT.value.type.type_info")
          | some info => .ok (decimalTyped (typeInfo info "width") (typeInfo info "scale"))
        | "DOUBLE" => .ok (.literal .double true none)
        | "VARCHAR" => .ok (.literal .varchar true none)
        | other => refuse (.constructNotAdmitted ("a literal of type `" ++ other ++ "`"))

/-! ### Which pairs are admitted -/

/-- An integer within the bounds. -/
def isInt (t : Typed) : Bool := isInteger t && t.withinBounds

def isFloat (t : Typed) : Bool := t.ty == .real || t.ty == .double

def isFloatNonliteral (t : Typed) : Bool := isFloat t && t.kind != .literal

def isDoubleLiteral (t : Typed) : Bool := t.ty == .double && t.kind == .literal

/-- An integer of at most `bits` bits that is no literal. -/
def intLe (t : Typed) (bits : Nat) : Bool :=
  t.kind != .literal && isInt t &&
    match intBitsSigned t.ty with
    | some (b, _) => decide (b ≤ bits)
    | none => false

def isNumericLit (t : Typed) : Bool :=
  t.kind == .literal && t.withinBounds && (isInteger t || t.ty.isDecimal || t.ty == .double)

/-- The result type of `l + r`, `l - r` and `l * r`, or nothing where the pair is refused. -/
def admittedArithmeticResult (l r : Typed) : Except Fault (Option EngineType) :=
  -- 1: the same float type
  if l.ty = r.ty ∧ isFloat l then .ok (some l.ty)
  -- 2: a null literal beside another, or beside a number
  else if l.ty = .null ∧ r.ty = .null then .ok (some .bigInt)
  else if l.ty = .null ∧ isNumeric r then .ok (some r.ty)
  else if r.ty = .null ∧ isNumeric l then .ok (some l.ty)
  -- 3: two integers
  else if isInt l ∧ isInt r then some <$> foldOrPromoteInteger l r
  -- 6: a float beside a literal
  else if isFloatNonliteral l ∧ isNumericLit r then
    .ok (some (if isDoubleLiteral r then .double else l.ty))
  else if isFloatNonliteral r ∧ isNumericLit l then
    .ok (some (if isDoubleLiteral l then .double else r.ty))
  -- 7: a float beside an integer that fits it, or beside the other float
  else if l.ty = .real ∧ isFloatNonliteral l ∧ intLe r 16 then .ok (some .real)
  else if r.ty = .real ∧ isFloatNonliteral r ∧ intLe l 16 then .ok (some .real)
  else if l.ty = .double ∧ isFloatNonliteral l ∧ intLe r 32 then .ok (some .double)
  else if r.ty = .double ∧ isFloatNonliteral r ∧ intLe l 32 then .ok (some .double)
  else if l.ty = .real ∧ isFloatNonliteral l ∧ r.ty = .double ∧ isFloatNonliteral r then
    .ok (some .double)
  else if r.ty = .real ∧ isFloatNonliteral r ∧ l.ty = .double ∧ isFloatNonliteral l then
    .ok (some .double)
  -- 5: a double literal beside an integer that fits it
  else if isDoubleLiteral l ∧ intLe r 32 then .ok (some .double)
  else if isDoubleLiteral r ∧ intLe l 32 then .ok (some .double)
  -- two literals
  else if isDoubleLiteral l ∧ isNumericLit r then .ok (some .double)
  else if isDoubleLiteral r ∧ isNumericLit l then .ok (some .double)
  else .ok none

def isDecimalArithmeticPair (l r : Typed) : Bool :=
  (l.ty.isDecimal && (isInteger r || r.ty.isDecimal)) ||
    (r.ty.isDecimal && (isInteger l || l.ty.isDecimal))

def literalOrCounts (t : Typed) : Bool := t.kind == .literal || t.countsAsDecimalLiteral

def isDecimalLiteral (t : Typed) : Bool :=
  t.ty.isDecimal && literalOrCounts t && t.withinBounds

def isNumericLiteralWithinBounds (t : Typed) : Bool :=
  literalOrCounts t && t.withinBounds && (isInteger t || t.ty.isDecimal || t.ty == .double)

def isIntLiteral (t : Typed) : Bool := isInt t && t.kind == .literal

def int64OrLiteral (t : Typed) : Bool :=
  isInt t && (t.kind == .literal ||
    match intBitsSigned t.ty with
    | some (b, _) => decide (b ≤ 64)
    | none => false)

/-- Whether `l` may be compared with `r`. -/
def isAdmittedComparison (l r : Typed) : Bool :=
  -- 1, 2: the same type, or a null literal
  l.ty == r.ty || l.ty == .null || r.ty == .null ||
  -- 3: two integers
  (isInt l && isInt r) ||
  -- 4: an integer beside a decimal literal, or two of those
  (int64OrLiteral l && isDecimalLiteral r) || (int64OrLiteral r && isDecimalLiteral l) ||
  (isDecimalLiteral l && isDecimalLiteral r) ||
  -- 5: a double literal beside an integer that fits it
  (isDoubleLiteral l && intLe r 32) || (isDoubleLiteral r && intLe l 32) ||
  -- 6: a float, or a double literal, beside a literal
  (isFloatNonliteral l && isNumericLiteralWithinBounds r) ||
  (isFloatNonliteral r && isNumericLiteralWithinBounds l) ||
  (isDoubleLiteral l && (isIntLiteral r || isDecimalLiteral r)) ||
  (isDoubleLiteral r && (isIntLiteral l || isDecimalLiteral l)) ||
  -- 7: a float beside an integer that fits it, or beside the other float
  (l.ty == .real && isFloatNonliteral l && intLe r 16) ||
  (r.ty == .real && isFloatNonliteral r && intLe l 16) ||
  (l.ty == .double && isFloatNonliteral l && intLe r 32) ||
  (r.ty == .double && isFloatNonliteral r && intLe l 32) ||
  (l.ty == .real && isFloatNonliteral l && r.ty == .double && isFloatNonliteral r) ||
  (r.ty == .real && isFloatNonliteral r && l.ty == .double && isFloatNonliteral l)

/-- `a` is of type `ty`, and `b` is neither that nor null. -/
def onlyLeftIs (ty : EngineType) (a b : Typed) : Bool := a.ty == ty && b.ty != ty && b.ty != .null

/-- An integer wider than 64 bits that is no literal. -/
def isWideInt (t : Typed) : Bool :=
  t.kind != .literal &&
    match intBitsSigned t.ty with
    | some (b, _) => decide (b > 64)
    | none => false

/-- Why a refused pair is refused. -/
def determineReason (l r : Typed) (isArithmetic : Bool) : TypeRefusalReason :=
  if onlyLeftIs .varchar l r || onlyLeftIs .varchar r l then .textWithNonText
  else if onlyLeftIs .boolean l r || onlyLeftIs .boolean r l then .booleanConversion
  else if !l.withinBounds || !r.withinBounds then .literalOutOfBounds
  else if (l.ty.isDecimal && literalOrCounts l && isWideInt r) ||
      (r.ty.isDecimal && literalOrCounts r && isWideInt l) then .conversionCanFail
  else if isArithmetic && isDecimalArithmeticPair l r then .conversionCanFail
  else .conversionRounds

def comparisonConstructName (cmpType : String) : Except Fault String :=
  match cmpType with
  | "COMPARE_EQUAL" => .ok "="
  | "COMPARE_NOTEQUAL" => .ok "<>"
  | "COMPARE_LESSTHAN" => .ok "<"
  | "COMPARE_LESSTHANOREQUALTO" => .ok "<="
  | "COMPARE_GREATERTHAN" => .ok ">"
  | "COMPARE_GREATERTHANOREQUALTO" => .ok ">="
  | "COMPARE_DISTINCT_FROM" => .ok "IS DISTINCT FROM"
  | "COMPARE_NOT_DISTINCT_FROM" => .ok "IS NOT DISTINCT FROM"
  | other => refuse (.constructNotAdmitted ("a comparison type `" ++ other ++ "`"))

def checkPair (construct : String) (l r : Typed) (isArithmetic : Bool) : Except Fault Unit := do
  let admitted ←
    if isArithmetic then Option.isSome <$> admittedArithmeticResult l r
    else .ok (isAdmittedComparison l r)
  if admitted then return ()
  else refuse (.typeNotAdmitted construct [l.render, r.render] (determineReason l r isArithmetic))

def requireBooleanOrNull (t : Typed) (construct : String) : Except Fault Unit :=
  if t.ty = .boolean ∨ t.ty = .null then .ok ()
  else refuse (.typeNotAdmitted construct [t.render] (determineReason t booleanVirtual false))

end SpatialIde.Engine.Predicate
