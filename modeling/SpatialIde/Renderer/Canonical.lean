import SpatialIde.Lib.Decimal

/-! # Canonical JSON

The writer of the one canonical form: keys in the order of the document, doubles as the shortest
fixed-point decimal that reads back, and a refusal for what the form cannot say.
-/

namespace SpatialIde.Renderer

open Lib

/-- A JSON value that remembers the order of its keys. -/
inductive Json where
  | null
  | bool (b : Bool)
  | int (i : Int64)
  | uint (u : UInt64)
  | double (d : F64)
  | str (s : String)
  | arr (items : List Json)
  | obj (members : List (String × Json))

/-- `loc` is the path of the value, `$` at the root. -/
inductive CanonicalError where
  | nonFinite (loc : String)
  | outOfDomain (loc : String) (value : F64)
  | duplicateKey (loc key : String)
  | notRoundTrippable (loc : String) (value : F64)
  deriving DecidableEq, Repr

/-- `1e-6`, the lowest magnitude that is not zero. -/
def MIN_ABS_DOUBLE : F64 := ⟨0x3EB0C6F7A0B5ED8D⟩

/-- `1e15`, the first magnitude beyond. -/
def MAX_ABS_DOUBLE : F64 := ⟨0x430C6BF526340000⟩

example : F64.parse "1e-6" = some MIN_ABS_DOUBLE ∧ F64.parse "1e15" = some MAX_ABS_DOUBLE := by
  decide +kernel

/-- The `Display` text.  `lowerExp` spells a double with an exponent. -/
def CanonicalError.message (lowerExp : F64 → String) : CanonicalError → String
  | nonFinite loc => "canonical json: the value at " ++ loc ++
      " is NaN or infinite, which has no canonical spelling; substituting null would be a silent " ++
      "conversion"
  | outOfDomain loc value => "canonical json: " ++ lowerExp value ++ " at " ++ loc ++
      " is outside the admissible domain (0, or " ++ lowerExp MIN_ABS_DOUBLE ++ " <= |v| < " ++
      lowerExp MAX_ABS_DOUBLE ++ "); the declared grammar writes no exponent and cannot express it"
  | duplicateKey loc key => "canonical json: object at " ++ loc ++ " has two members named \x60" ++
      key ++ "\x60"
  | notRoundTrippable loc value => "canonical json: no fixed-point decimal round-trips " ++
      lowerExp value ++ " at " ++ loc

/-! ### Doubles -/

/-- The text, reversed, without the zeros in front of the one next to the point. -/
def dropZeros : List Char → List Char
  | '0' :: r => if r.head? = some '.' then '0' :: r else dropZeros r
  | s => s

/-- The text without the zeros at its end, but for one behind the point. -/
def trimFraction (s : List Char) : List Char :=
  if '.' ∈ s then (dropZeros s.reverse).reverse else s ++ ".0".toList

/-- Both zeros are `0.0`. -/
def positiveZero (d : F64) : F64 := if d.eq F64.zero then F64.zero else d

/-- The text at one precision, if it reads back. -/
def spellAt (d : F64) (precision : Nat) : Option (List Char) :=
  let s := F64.fixed d precision
  match F64.parse (String.ofList s) with
  | some x => if x.eq d then some (trimFraction s) else none
  | none => none

def writeDouble (d : F64) (loc : String) : Except CanonicalError (List Char) :=
  if !d.isFinite then .error (.nonFinite loc)
  else
    let d := positiveZero d
    let mag := d.abs
    if !d.eq F64.zero && (mag.lt MIN_ABS_DOUBLE || MAX_ABS_DOUBLE.le mag) then
      .error (.outOfDomain loc d)
    else
      match (List.range' 1 30).findSome? (spellAt d) with
      | some s => .ok s
      | none => .error (.notRoundTrippable loc d)

example : writeDouble ⟨0x4143EF3C10000000⟩ "$" = .ok "2612856.125".toList := by rfl

/-! ### Strings -/

def hexChar (n : Nat) : Char := Char.ofNat (if n < 10 then 0x30 + n else 0x57 + n)

def escape (c : Char) : List Char :=
  if c = '"' then ['\\', '"']
  else if c = '\\' then ['\\', '\\']
  else if c = '\x08' then ['\\', 'b']
  else if c = '\x09' then ['\\', 't']
  else if c = '\x0A' then ['\\', 'n']
  else if c = '\x0C' then ['\\', 'f']
  else if c = '\x0D' then ['\\', 'r']
  else if c.toNat < 0x20 then
    ['\\', 'u', '0', '0', hexChar (c.toNat / 16), hexChar (c.toNat % 16)]
  else [c]

def writeString (s : String) : List Char := '"' :: (s.toList.map escape).flatten ++ ['"']

/-! ### Values -/

mutual

def writeValue (loc : String) : Json → Except CanonicalError (List Char)
  | .null => .ok "null".toList
  | .bool true => .ok "true".toList
  | .bool false => .ok "false".toList
  | .int i => .ok (toString i.toInt).toList
  | .uint u => .ok (toString u.toNat).toList
  | .double d => writeDouble d loc
  | .str s => .ok (writeString s)
  | .arr items => do
    let text ← writeItems loc 0 items
    return '[' :: text ++ [']']
  | .obj members => do
    let text ← writeMembers loc [] members
    return '{' :: text ++ ['}']
termination_by structural v => v

/-- The items from the `i`th on. -/
def writeItems (loc : String) (i : Nat) : List Json → Except CanonicalError (List Char)
  | [] => .ok []
  | item :: items => do
    let text ← writeValue (loc ++ "[" ++ toString i ++ "]") item
    let rest ← writeItems loc (i + 1) items
    return (if i > 0 then [','] else []) ++ text ++ rest
termination_by structural v => v

/-- The members behind those whose keys are `seen`. -/
def writeMembers (loc : String) (seen : List String) :
    List (String × Json) → Except CanonicalError (List Char)
  | [] => .ok []
  | (k, v) :: members =>
    if k ∈ seen then .error (.duplicateKey loc k)
    else do
      let text ← writeValue (loc ++ "." ++ k) v
      let rest ← writeMembers loc (seen ++ [k]) members
      return (if seen = [] then [] else [',']) ++ writeString k ++ ':' :: text ++ rest
termination_by structural v => v

end

def toCanonicalString (v : Json) : Except CanonicalError String :=
  (writeValue "$" v).map String.ofList

example : toCanonicalString (.obj [("zebra", .int (-1)), ("alpha", .arr [.null, .str "\n"])]) =
    .ok "\x7b\"zebra\":-1,\"alpha\":[null,\"\\n\"]\x7d" := by rfl

end SpatialIde.Renderer
