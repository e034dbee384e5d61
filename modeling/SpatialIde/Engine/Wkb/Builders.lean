import SpatialIde.Engine.Wkb.Reader

/-! # The five WKB builders

One builder per encoding a dataset can be opened under.  A `pushWkb` decodes one
WKB value into the buffers a GeoArrow array is made of: coordinates, and one
offsets buffer per nesting level.  Offsets are the running totals cast to `i32`,
and a cast that does not fit wraps, as `as i32` does.

A refused value leaves behind what its decoding had appended before the refusal,
except in the two line builders, which truncate.
-/

namespace SpatialIde.Engine.Wkb

open Lib

def WKB_POINT : UInt32 := 1
def WKB_LINESTRING : UInt32 := 2
def WKB_POLYGON : UInt32 := 3
def WKB_MULTILINESTRING : UInt32 := 5
def WKB_MULTIPOLYGON : UInt32 := 6

/-- A geometry-embedded SRID is a second CRS claim on a dataset that already has one. -/
def EWKB_SRID_FLAG : UInt32 := 0x20000000
def EWKB_Z_FLAG : UInt32 := 0x80000000
def EWKB_M_FLAG : UInt32 := 0x40000000
def EWKB_FLAGS : UInt32 := EWKB_SRID_FLAG ||| EWKB_Z_FLAG ||| EWKB_M_FLAG

/-- The buffers `read_ring` appends to. -/
structure RingBuffers where
  coords : List F64
  ringOffsets : List Int32
  deriving DecidableEq, Repr

/-- One position, appended with no arithmetic. -/
def readPosition : Decoder (List F64) Unit := do
  let x ← f64
  let y ← f64
  modifyOut (fun coords => coords ++ [x, y])

/-- `read_ring`: a position count, the positions, and closure of the first and last by `f64`
comparison. -/
def readRing (ring : Nat) : Decoder RingBuffers Unit := do
  let nPts := (← u32).toNat
  refuseIf (nPts < 4)
    (.wkb s!"ring {ring} has {nPts} positions; a closed ring needs at least 4")
  let first := (← getOut).coords.length
  forRange (fun _ => zoom RingBuffers.coords (fun c b => { b with coords := c }) readPosition)
    0 nPts
  let coords := (← getOut).coords
  let last := coords.length - 2
  -- Both indices are in range: at least four positions have just been appended.
  refuseIf (¬(coords.getD first default).eq (coords.getD last default) ∨
      ¬(coords.getD (first + 1) default).eq (coords.getD (last + 1) default))
    (.wkb s!"ring {ring} is not closed")
  modifyOut (fun b => { b with ringOffsets := b.ringOffsets ++ [Int32.ofNat (coords.length / 2)] })

/-- `read_line`: a position count of at least 2, then the positions. -/
def readLine (what : String) : Decoder (List F64) Unit := do
  let nPts := (← u32).toNat
  refuseIf (nPts < 2)
    (.wkb s!"[P6 placeholder] {what} has {nPts} positions; a line needs at least 2")
  forRange (fun _ => readPosition) 0 nPts

/-- Decode the whole of a WKB value into the buffers `s`. -/
def decodeAll {σ : Type} (bytes : List UInt8) (body : Decoder σ Unit) (s : σ) :
    Except EngineError Unit × σ :=
  match Reader.new bytes with
  | .error e => (.error e, s)
  | .ok r =>
    match body.run (r, s) with
    | .ok _ st => (.ok (), st.2)
    | .error e st => (.error e, st.2)

/-! ### Polygon -/

/-- The three buffers of a GeoArrow polygon array. -/
structure PolygonBuilder where
  /-- `x0, y0, x1, y1, …` across every ring of every polygon. -/
  coords : List F64
  /-- Start index, in vertices, of each ring. -/
  ringOffsets : List Int32
  /-- Start index, in rings, of each polygon. -/
  geomOffsets : List Int32
  deriving DecidableEq, Repr

namespace PolygonBuilder

def new : PolygonBuilder := ⟨[], [0], [0]⟩

def vertices (b : PolygonBuilder) : Nat := b.coords.length / 2

def rings (b : PolygonBuilder) : RingBuffers := ⟨b.coords, b.ringOffsets⟩

def setRings (r : RingBuffers) (b : PolygonBuilder) : PolygonBuilder :=
  { b with coords := r.coords, ringOffsets := r.ringOffsets }

def body : Decoder PolygonBuilder Unit := do
  let rawType ← u32
  refuseIf (rawType &&& EWKB_FLAGS ≠ 0)
    (.wkb ("EWKB flags (SRID/Z/M) present; a geometry-embedded CRS or a third dimension is " ++
      "refused rather than dropped"))
  refuseIf (rawType ≠ WKB_POLYGON)
    (.wkb (s!"[P6 placeholder] WKB geometry type {rawType} met; this open's encoding, " ++
      s!"{EXT_NAME_POLYGON}, reads WKB type {WKB_POLYGON} (Polygon) only"))
  let nRings := (← u32).toNat
  refuseIf (nRings = 0) (.wkb "polygon with zero rings")
  forRange (fun ring => zoom rings setRings (readRing ring)) 0 nRings
  modifyOut (fun b =>
    { b with geomOffsets := b.geomOffsets ++ [Int32.ofNat (b.ringOffsets.length - 1)] })
  expectEnd (fun r : Reader => .wkb s!"{r.remaining} trailing bytes after the polygon")

/-- Decode one WKB polygon and append it. -/
def pushWkb (b : PolygonBuilder) (bytes : List UInt8) : Except EngineError Unit × PolygonBuilder :=
  decodeAll bytes body b

end PolygonBuilder

/-! ### MultiPolygon -/

def ewkbFlagsRefusal : EngineError :=
  .wkb ("[P6 placeholder] EWKB flags (SRID/Z/M) present on the geometry type code; a " ++
    "geometry-embedded CRS or a third dimension is refused rather than dropped")

def trailingRefusal (what : String) (r : Reader) : EngineError :=
  .wkb s!"[P6 placeholder] {r.remaining} trailing bytes after the {what}"

/-- The four buffers of a GeoArrow multipolygon array. -/
structure MultiPolygonBuilder where
  coords : List F64
  ringOffsets : List Int32
  /-- Start index, in rings, of each part. -/
  partOffsets : List Int32
  /-- Start index, in parts, of each geometry. -/
  geomOffsets : List Int32
  deriving DecidableEq, Repr

/-- The header of a part: its own byte order, then its own type code, which must be exactly
`wanted`. -/
def readPartHeader {σ : Type} (multi single : String) (wanted : UInt32) (part : Nat) :
    Decoder σ Unit := do
  byteOrder
  let partType ← u32
  refuseIf (partType &&& EWKB_FLAGS ≠ 0)
    (.wkb (s!"[P6 placeholder] {multi} part {part} carries EWKB flags (SRID/Z/M); a " ++
      "geometry-embedded CRS or a third dimension is refused rather than dropped"))
  refuseIf (partType ≠ wanted)
    (.wkb (s!"[P6 placeholder] {multi} part {part} has WKB geometry type {partType}; a part " ++
      s!"must be WKB type {wanted} ({single})"))

namespace MultiPolygonBuilder

def new : MultiPolygonBuilder := ⟨[], [0], [0], [0]⟩

def vertices (b : MultiPolygonBuilder) : Nat := b.coords.length / 2

def rings (b : MultiPolygonBuilder) : RingBuffers := ⟨b.coords, b.ringOffsets⟩

def setRings (r : RingBuffers) (b : MultiPolygonBuilder) : MultiPolygonBuilder :=
  { b with coords := r.coords, ringOffsets := r.ringOffsets }

/-- One part: a polygon body (ring count, then the rings), after its header has been read. -/
def pushPart (part : Nat) : Decoder MultiPolygonBuilder Unit := do
  let nRings := (← u32).toNat
  refuseIf (nRings = 0) (.wkb s!"[P6 placeholder] MultiPolygon part {part} has zero rings")
  forRange (fun ring => zoom rings setRings (readRing ring)) 0 nRings
  modifyOut (fun b =>
    { b with partOffsets := b.partOffsets ++ [Int32.ofNat (b.ringOffsets.length - 1)] })

def pushParts : Decoder MultiPolygonBuilder Unit := do
  let nParts := (← u32).toNat
  refuseIf (nParts = 0) (.wkb "[P6 placeholder] MultiPolygon with zero parts")
  forRange (fun part => do
    readPartHeader "MultiPolygon" "Polygon" WKB_POLYGON part
    pushPart part) 0 nParts

def pushTyped (rawType : UInt32) : Decoder MultiPolygonBuilder Unit :=
  if rawType = WKB_POLYGON then pushPart 0
  else if rawType = WKB_MULTIPOLYGON then pushParts
  else fail (.wkb (s!"[P6 placeholder] WKB geometry type {rawType} met; this open's encoding, " ++
    s!"{EXT_NAME_MULTIPOLYGON}, reads WKB type {WKB_POLYGON} (Polygon) and type " ++
    s!"{WKB_MULTIPOLYGON} (MultiPolygon)"))

def body : Decoder MultiPolygonBuilder Unit := do
  let rawType ← u32
  refuseIf (rawType &&& EWKB_FLAGS ≠ 0) ewkbFlagsRefusal
  pushTyped rawType
  expectEnd (trailingRefusal "geometry")
  modifyOut (fun b =>
    { b with geomOffsets := b.geomOffsets ++ [Int32.ofNat (b.partOffsets.length - 1)] })

/-- Decode one WKB Polygon (one part) or MultiPolygon and append it. -/
def pushWkb (b : MultiPolygonBuilder) (bytes : List UInt8) :
    Except EngineError Unit × MultiPolygonBuilder :=
  decodeAll bytes body b

end MultiPolygonBuilder

/-! ### Point -/

/-- The one buffer of a GeoArrow point array. -/
structure PointBuilder where
  coords : List F64
  deriving DecidableEq, Repr

namespace PointBuilder

def new : PointBuilder := ⟨[]⟩

def vertices (b : PointBuilder) : Nat := b.coords.length / 2

def body : Decoder PointBuilder Unit := do
  let rawType ← u32
  refuseIf (rawType &&& EWKB_FLAGS ≠ 0) ewkbFlagsRefusal
  refuseIf (rawType ≠ WKB_POINT)
    (.wkb (s!"[P6 placeholder] WKB geometry type {rawType} met; this open's encoding, " ++
      s!"{EXT_NAME_POINT}, reads WKB type {WKB_POINT} (Point) only"))
  let x ← f64
  let y ← f64
  -- WKB's empty-Point convention is refused, never drawn, dropped or skipped.
  refuseIf (x.isNaN = true ∨ y.isNaN = true)
    (.wkb "[P6 placeholder] a Point with a NaN coordinate (WKB's empty Point) was met")
  expectEnd (trailingRefusal "point")
  modifyOut (fun b => ⟨b.coords ++ [x, y]⟩)

/-- Decode one WKB Point and append it. -/
def pushWkb (b : PointBuilder) (bytes : List UInt8) : Except EngineError Unit × PointBuilder :=
  decodeAll bytes body b

end PointBuilder

/-! ### LineString -/

/-- The two buffers of a GeoArrow linestring array. -/
structure LineStringBuilder where
  coords : List F64
  /-- Start index, in vertices, of each line. -/
  geomOffsets : List Int32
  deriving DecidableEq, Repr

namespace LineStringBuilder

def new : LineStringBuilder := ⟨[], [0]⟩

def vertices (b : LineStringBuilder) : Nat := b.coords.length / 2

def decode : Decoder LineStringBuilder Unit := do
  let rawType ← u32
  refuseIf (rawType &&& EWKB_FLAGS ≠ 0) ewkbFlagsRefusal
  refuseIf (rawType ≠ WKB_LINESTRING)
    (.wkb (s!"[P6 placeholder] WKB geometry type {rawType} met; this open's encoding, " ++
      s!"{EXT_NAME_LINESTRING}, reads WKB type {WKB_LINESTRING} (LineString) only"))
  zoom coords (fun c b => { b with coords := c }) (readLine "LineString")
  expectEnd (trailingRefusal "linestring")

/-- Decode one WKB LineString and append it; a refused row is truncated away. -/
def pushWkb (b : LineStringBuilder) (bytes : List UInt8) :
    Except EngineError Unit × LineStringBuilder :=
  let start := b.coords.length
  match decodeAll bytes decode b with
  | (.error e, b') => (.error e, { b' with coords := b'.coords.take start })
  | (.ok (), b') =>
    (.ok (), { b' with geomOffsets := b'.geomOffsets ++ [Int32.ofNat b'.vertices] })

end LineStringBuilder

/-! ### MultiLineString -/

/-- The three buffers of a GeoArrow multilinestring array. -/
structure MultiLineStringBuilder where
  coords : List F64
  /-- Start index, in vertices, of each part. -/
  partOffsets : List Int32
  /-- Start index, in parts, of each geometry. -/
  geomOffsets : List Int32
  deriving DecidableEq, Repr

namespace MultiLineStringBuilder

def new : MultiLineStringBuilder := ⟨[], [0], [0]⟩

def vertices (b : MultiLineStringBuilder) : Nat := b.coords.length / 2

/-- One part: a linestring body, after its header has been read. -/
def pushPart (what : String) : Decoder MultiLineStringBuilder Unit := do
  zoom coords (fun c b => { b with coords := c }) (readLine what)
  modifyOut (fun b => { b with partOffsets := b.partOffsets ++ [Int32.ofNat b.vertices] })

def pushParts : Decoder MultiLineStringBuilder Unit := do
  let nParts := (← u32).toNat
  refuseIf (nParts = 0) (.wkb "[P6 placeholder] MultiLineString with zero parts")
  forRange (fun part => do
    readPartHeader "MultiLineString" "LineString" WKB_LINESTRING part
    pushPart s!"MultiLineString part {part}") 0 nParts

def pushTyped (rawType : UInt32) : Decoder MultiLineStringBuilder Unit :=
  if rawType = WKB_LINESTRING then pushPart "LineString"
  else if rawType = WKB_MULTILINESTRING then pushParts
  else fail (.wkb (s!"[P6 placeholder] WKB geometry type {rawType} met; this open's encoding, " ++
    s!"{EXT_NAME_MULTILINESTRING}, reads WKB type {WKB_LINESTRING} (LineString) and type " ++
    s!"{WKB_MULTILINESTRING} (MultiLineString)"))

def decode : Decoder MultiLineStringBuilder Unit := do
  let rawType ← u32
  refuseIf (rawType &&& EWKB_FLAGS ≠ 0) ewkbFlagsRefusal
  pushTyped rawType
  expectEnd (trailingRefusal "geometry")

/-- Decode one WKB LineString (one part) or MultiLineString and append it; a refused row is
truncated away. -/
def pushWkb (b : MultiLineStringBuilder) (bytes : List UInt8) :
    Except EngineError Unit × MultiLineStringBuilder :=
  let coords := b.coords.length
  let parts := b.partOffsets.length
  match decodeAll bytes decode b with
  | (.error e, b') => (.error e, { b' with
      coords := b'.coords.take coords, partOffsets := b'.partOffsets.take parts })
  | (.ok (), b') =>
    (.ok (), { b' with geomOffsets := b'.geomOffsets ++ [Int32.ofNat (b'.partOffsets.length - 1)] })

end MultiLineStringBuilder

/-! ### The builder of an open -/

/-- The geometry accumulator for the open's encoding. -/
inductive GeometryBuilder where
  | polygon (b : PolygonBuilder)
  | multiPolygon (b : MultiPolygonBuilder)
  | point (b : PointBuilder)
  | lineString (b : LineStringBuilder)
  | multiLineString (b : MultiLineStringBuilder)
  deriving DecidableEq, Repr

namespace GeometryBuilder

def new : GeometryEncoding → GeometryBuilder
  | .polygon => .polygon .new
  | .multiPolygon => .multiPolygon .new
  | .point => .point .new
  | .lineString => .lineString .new
  | .multiLineString => .multiLineString .new

/-- The encoding whose arm this is. -/
def encoding : GeometryBuilder → GeometryEncoding
  | .polygon _ => .polygon
  | .multiPolygon _ => .multiPolygon
  | .point _ => .point
  | .lineString _ => .lineString
  | .multiLineString _ => .multiLineString

def vertices : GeometryBuilder → Nat
  | .polygon b => b.vertices
  | .multiPolygon b => b.vertices
  | .point b => b.vertices
  | .lineString b => b.vertices
  | .multiLineString b => b.vertices

def pushWkb (b : GeometryBuilder) (wkb : List UInt8) : Except EngineError Unit × GeometryBuilder :=
  match b with
  | .polygon b => (b.pushWkb wkb).map id .polygon
  | .multiPolygon b => (b.pushWkb wkb).map id .multiPolygon
  | .point b => (b.pushWkb wkb).map id .point
  | .lineString b => (b.pushWkb wkb).map id .lineString
  | .multiLineString b => (b.pushWkb wkb).map id .multiLineString

end GeometryBuilder

end SpatialIde.Engine.Wkb
