import SpatialIde.Engine.Wkb.Builders

/-! # WKB geometries and their encodings

What the decoders are for: a 2D geometry as nested position lists, the ISO WKB
bytes that denote it under a choice of byte orders, and the strictness the
decoders ask for.  Nothing here reads bytes.

The outer geometry and every part carry a byte order of their own, so an
encoding is `encode outer orders g` with one entry of `orders` for each part.
-/

namespace SpatialIde.Engine.Wkb

open Lib

structure Position where
  x : F64
  y : F64
  deriving DecidableEq, Repr

/-- The two-dimensional geometries of the five encodings. -/
inductive Geometry where
  | point (p : Position)
  | lineString (ps : List Position)
  | polygon (rings : List (List Position))
  | multiLineString (parts : List (List Position))
  | multiPolygon (parts : List (List (List Position)))
  deriving DecidableEq, Repr

/-- The parts that carry a header of their own. -/
def Geometry.headedParts : Geometry → Nat
  | .multiLineString parts => parts.length
  | .multiPolygon parts => parts.length
  | _ => 0

/-! ### Encodings -/

def encodePosition (little : Bool) (p : Position) : List UInt8 :=
  bytesOf little 8 p.x.bits.toNat ++ bytesOf little 8 p.y.bits.toNat

/-- A count, then the positions: the body of a line and of a ring. -/
def encodePositions (little : Bool) (ps : List Position) : List UInt8 :=
  bytesOf little 4 ps.length ++ ps.flatMap (encodePosition little)

/-- A ring count, then the rings: the body of a polygon. -/
def encodeRings (little : Bool) (rings : List (List Position)) : List UInt8 :=
  bytesOf little 4 rings.length ++ rings.flatMap (encodePositions little)

/-- A byte-order byte and a type code. -/
def encodeHeader (little : Bool) (code : UInt32) : List UInt8 :=
  orderByte little :: bytesOf little 4 code.toNat

/-- The ISO WKB bytes of a geometry: its own byte order, and one for each of its parts. -/
def Geometry.encode (outer : Bool) (orders : List Bool) : Geometry → List UInt8
  | .point p => encodeHeader outer WKB_POINT ++ encodePosition outer p
  | .lineString ps => encodeHeader outer WKB_LINESTRING ++ encodePositions outer ps
  | .polygon rings => encodeHeader outer WKB_POLYGON ++ encodeRings outer rings
  | .multiLineString parts => encodeHeader outer WKB_MULTILINESTRING ++
      (bytesOf outer 4 parts.length ++ (orders.zip parts).flatMap fun part =>
        encodeHeader part.1 WKB_LINESTRING ++ encodePositions part.1 part.2)
  | .multiPolygon parts => encodeHeader outer WKB_MULTIPOLYGON ++
      (bytesOf outer 4 parts.length ++ (orders.zip parts).flatMap fun part =>
        encodeHeader part.1 WKB_POLYGON ++ encodeRings part.1 part.2)

/-! ### Strictness -/

/-- The first and the last position compare equal. -/
def closed (ps : List Position) : Bool :=
  match ps.head?, ps.getLast? with
  | some p, some q => p.x.eq q.x && p.y.eq q.y
  | _, _ => false

/-- A count that a WKB count field can hold. -/
def IsCount (n : Nat) : Prop := n < 2 ^ 32

def StrictLine (ps : List Position) : Prop := 2 ≤ ps.length ∧ IsCount ps.length

def StrictRing (ps : List Position) : Prop :=
  4 ≤ ps.length ∧ IsCount ps.length ∧ closed ps = true

def StrictPolygon (rings : List (List Position)) : Prop :=
  rings ≠ [] ∧ IsCount rings.length ∧ ∀ ring ∈ rings, StrictRing ring

/-- **The strict 2D grammar**: no NaN point, no short line, no short or open ring, no empty
count. -/
def Geometry.Strict : Geometry → Prop
  | .point p => p.x.isNaN = false ∧ p.y.isNaN = false
  | .lineString ps => StrictLine ps
  | .polygon rings => StrictPolygon rings
  | .multiLineString parts =>
      parts ≠ [] ∧ IsCount parts.length ∧ ∀ ps ∈ parts, StrictLine ps
  | .multiPolygon parts =>
      parts ≠ [] ∧ IsCount parts.length ∧ ∀ rings ∈ parts, StrictPolygon rings

instance (n : Nat) : Decidable (IsCount n) := inferInstanceAs (Decidable (_ < _))

instance (ps : List Position) : Decidable (StrictLine ps) := inferInstanceAs (Decidable (_ ∧ _))

instance (ps : List Position) : Decidable (StrictRing ps) := inferInstanceAs (Decidable (_ ∧ _))

instance (rings : List (List Position)) : Decidable (StrictPolygon rings) :=
  inferInstanceAs (Decidable (_ ∧ _))

instance : (g : Geometry) → Decidable g.Strict
  | .point _ => inferInstanceAs (Decidable (_ ∧ _))
  | .lineString _ => inferInstanceAs (Decidable (StrictLine _))
  | .polygon _ => inferInstanceAs (Decidable (StrictPolygon _))
  | .multiLineString _ => inferInstanceAs (Decidable (_ ∧ _))
  | .multiPolygon _ => inferInstanceAs (Decidable (_ ∧ _))

/-- The types the builder of an encoding reads. -/
def Readable : GeometryEncoding → Geometry → Prop
  | .polygon, .polygon _ => True
  | .multiPolygon, .polygon _ => True
  | .multiPolygon, .multiPolygon _ => True
  | .point, .point _ => True
  | .lineString, .lineString _ => True
  | .multiLineString, .lineString _ => True
  | .multiLineString, .multiLineString _ => True
  | _, _ => False

/-- What a geometry becomes under an encoding: a single one is one part under the Multi encodings. -/
def normal : GeometryEncoding → Geometry → Geometry
  | .multiPolygon, .polygon rings => .multiPolygon [rings]
  | .multiLineString, .lineString ps => .multiLineString [ps]
  | _, g => g

end SpatialIde.Engine.Wkb
