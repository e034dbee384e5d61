import Mathlib.Tactic.TypeStar

/-! # What the engine's parts share

The failures they raise, the boxes they compare, the encodings a geometry travels in, and the
descriptor of a source.
-/

namespace SpatialIde.Engine

/-! ### Typed failures

The variants of `EngineError` that the modelled functions raise, with the data each one carries.
-/

/-- A refusal is a value, never a log line and never a default. -/
inductive EngineError where
  /-- The file could not be opened or read at all. -/
  | source (detail : String)
  /-- A geometry value that the strict decode refuses. -/
  | wkb (detail : String)
  /-- What was built is not what is claimed. -/
  | encodingMismatch (claimed found : String)
  | query (detail : String)
  | arrow (detail : String)
  | cancelled
  | ceilingExceeded (ceiling : String) (limit saw : Nat)
  /-- The source changed between open and the end of a read. -/
  | sourceChanged (detail : String)
  /-- One feature is larger than a whole batch may be. -/
  | featureTooLarge (id : UInt64) (limit saw : Nat)
  | connectionSetup (detail : String)
  /-- A viewport query on a file that has no covering boxes. -/
  | noCoveringBbox (detail : String)
  /-- The declared or native identity column cannot serve as stable feature identity. -/
  | identityUnusable (column detail : String) (candidateColumns : List String)
  /-- The `geo` metadata is absent, unreadable or names what it should not. -/
  | geoMetadata (detail : String)
  /-- A column that no bundle and no query may carry. -/
  | attributeUnpublishable (column detail : String)
  /-- The coordinates contradict the reference system that a format rule supplied. -/
  | formatDefaultContradicted (detail : String)
  /-- Two readings of one file do not agree. -/
  | internalInconsistency (detail : String)
  /-- A level of detail that is not built. -/
  | lodRefused (refusal detail : String)
  deriving DecidableEq, Repr

/-! ### Boxes

The four bounds of a box, in the order in which the engine writes them.  A viewport and an envelope
have numbers for bounds, the footer of a row group has texts.
-/

structure Bbox (β : Type) where
  xmin : β
  ymin : β
  xmax : β
  ymax : β
  deriving DecidableEq, Repr

/-! ### GeoArrow encodings

The encoding a dataset's geometry travels in is a fact of the open: it is chosen once and never
varies per batch.
-/

def EXT_NAME_POLYGON : String := "geoarrow.polygon"
def EXT_NAME_MULTIPOLYGON : String := "geoarrow.multipolygon"
def EXT_NAME_POINT : String := "geoarrow.point"
def EXT_NAME_LINESTRING : String := "geoarrow.linestring"
def EXT_NAME_MULTILINESTRING : String := "geoarrow.multilinestring"

/-- The GeoArrow encoding a dataset's geometry travels in. -/
inductive GeometryEncoding where
  | polygon
  /-- A Polygon row is then a one-part MultiPolygon. -/
  | multiPolygon
  | point
  | lineString
  /-- A LineString row is then a one-part MultiLineString. -/
  | multiLineString
  deriving DecidableEq, Repr

/-! ### The structural descriptor of a source

Four components, read at open and again around every query.  A difference says that this is no
longer the file that was opened; no difference is not a claim that the file is the same.
-/

structure SourceDescriptor where
  byteSize : UInt64
  modifiedNanos : Option Nat
  footerLength : UInt64
  /-- Absent when the footer is over the declared ceiling and was not read. -/
  footerHash : Option String
  footerBytesRead : UInt64
  deriving DecidableEq, Repr

namespace SourceDescriptor

/-- `differing_components`: a modification time that is there on one side only differs, a footer
hash is compared only when both sides have one. -/
def componentsDifferingFrom (opened now : SourceDescriptor) : List String :=
  (if opened.byteSize ≠ now.byteSize then ["size"] else []) ++
  (match opened.modifiedNanos, now.modifiedNanos with
    | some a, some b => if a ≠ b then ["mtime"] else []
    | some _, none | none, some _ => ["mtime"]
    | none, none => []) ++
  (if opened.footerLength ≠ now.footerLength then ["footer-length"] else []) ++
  (match opened.footerHash, now.footerHash with
    | some a, some b => if a ≠ b then ["footer-hash"] else []
    | _, _ => [])

def refuseIfChanged (opened now : SourceDescriptor) : Except EngineError Unit :=
  let differing := opened.componentsDifferingFrom now
  if differing = [] then .ok ()
  else .error (.sourceChanged ("\x7b" ++ ", ".intercalate differing ++ "\x7d"))

end SourceDescriptor

end SpatialIde.Engine
