import SpatialIde.Renderer.BundleViewer.Partition

/-! # Drawing and picking

`drawAll` draws every feature of every partition in their order, each on its own path; `pick`
searches backwards through the same order for the feature under a point.  Both walk the arrays of the
partitions, and a read outside one is none; the id of a pick alone is what JavaScript makes of such a
read.
-/

namespace SpatialIde.Renderer.BundleViewer

open Lib

structure View (R : Type) where
  centerX : R
  centerY : R
  scale : R
  width : R
  height : R

structure DrawParameters (R : Type) where
  fillColor : String
  fillOpacity : R
  outlineColor : String
  outlineWidth : R

/-- What is called or set on the context. -/
inductive Op (R : Type) where
  | clearRect (width height : R)
  /-- `rgba` of a colour and an opacity. -/
  | fillStyle (color : String) (opacity : R)
  | strokeStyle (color : String)
  | lineWidth (width : R)
  | beginPath
  | moveTo (x y : R)
  | lineTo (x y : R)
  | closePath
  | fillEvenOdd
  | stroke

/-- A drawing in progress. -/
structure Drawing (R : Type) where
  ops : List (Op R)
  drawn : Nat
  culled : Nat
  /-- -1 before the first feature. -/
  currentGroup : Int
  params : DrawParameters R

structure Bounds (R : Type) where
  xmin : R
  ymin : R
  xmax : R
  ymax : R

/-- The feature under a point, with its id: `undefined` where the id array has no such slot. -/
structure Pick (R : Type) where
  id : Option (Entry R)
  partitionPath : String
  attributes : List (String × Option String)
  deriving DecidableEq, Repr

section

variable {R : Type} (N : Numbers R)

def visibleBounds (view : View R) : Bounds R :=
  let halfW := N.div (N.div view.width (N.ofNat 2)) view.scale
  let halfH := N.div (N.div view.height (N.ofNat 2)) view.scale
  { xmin := N.sub view.centerX halfW
    ymin := N.sub view.centerY halfH
    xmax := N.add view.centerX halfW
    ymax := N.add view.centerY halfH }

/-! ### Drawing -/

/-- One ring of a path. -/
def drawRing (view : View R) (p : Partition R) (r : Int) (ops : List (Op R)) :
    Option (List (Op R)) := do
  let start ← readAt p.ringOffsets r
  let stop ← readAt p.ringOffsets (r + 1)
  if stop - start < 2 then return ops
  let ops ← (range start stop).foldlM (fun ops v => do
    let x ← readAt p.coords (v * 2)
    let y ← readAt p.coords (v * 2 + 1)
    -- ADR-010 rule 3: subtract first, then let the canvas narrow.
    let px := N.add (N.mul (N.sub x view.centerX) view.scale) (N.div view.width (N.ofNat 2))
    let py := N.sub (N.div view.height (N.ofNat 2)) (N.mul (N.sub y view.centerY) view.scale)
    return ops ++ [if v = start then .moveTo px py else .lineTo px py]) ops
  return ops ++ [.closePath]

/-- Whether the bounds of a feature miss what is visible. -/
def misses (visible : Bounds R) (p : Partition R) (f : Int) : Option Bool := do
  let b := f * 4
  (return N.lt visible.xmax (← readAt p.bboxes b)) <||>
    (return N.lt (← readAt p.bboxes (b + 2)) visible.xmin) <||>
    (return N.lt visible.ymax (← readAt p.bboxes (b + 1))) <||>
    (return N.lt (← readAt p.bboxes (b + 3)) visible.ymin)

/-- The state of the context where the group changes; `groups` are the groups of the style. -/
def setGroup (groups : List (DrawParameters R)) (group : Nat) (d : Drawing R) :
    Option (Drawing R) := do
  if (group : Int) = d.currentGroup then return d
  let params ← readAt groups group
  return { d with
    currentGroup := group
    params
    ops := d.ops ++ [.fillStyle params.fillColor params.fillOpacity,
      .strokeStyle params.outlineColor, .lineWidth params.outlineWidth] }

/-- One turn of the loop over the features. -/
def drawFeature (groups : List (DrawParameters R)) (view : View R) (d : Drawing R)
    (feature : Partition R × Int) : Option (Drawing R) := do
  let (p, f) := feature
  if ← misses N (visibleBounds N view) p f then return { d with culled := d.culled + 1 }
  let group ← readAt p.groups f
  let d ← setGroup groups group { d with drawn := d.drawn + 1 }
  let first ← readAt p.polygonOffsets f
  let stop ← readAt p.polygonOffsets (f + 1)
  let ops ← (range first stop).foldlM (fun ops r => drawRing N view p r ops) (d.ops ++ [.beginPath])
  let stroke := if N.lt (N.ofNat 0) d.params.outlineWidth then [Op.stroke] else []
  return { d with ops := ops ++ [.fillEvenOdd] ++ stroke }

/-- `drawAll`. -/
def drawAll (partitions : List (Partition R)) (groups : List (DrawParameters R)) (view : View R) :
    Option (Drawing R) := do
  let params ← readAt groups 0
  partitions.foldlM (fun d p => (range 0 p.features).foldlM
      (fun d f => drawFeature N groups view d (p, f)) d)
    { ops := [.clearRect view.width view.height], drawn := 0, culled := 0, currentGroup := -1, params }

/-! ### Picking -/

/-- `containsEvenOdd`.  `j` follows `i` by one, and starts at the last vertex. -/
def containsEvenOdd (p : Partition R) (feature : Int) (x y : R) : Option Bool := do
  let first ← readAt p.polygonOffsets feature
  let stop ← readAt p.polygonOffsets (feature + 1)
  (range first stop).foldlM (fun inside r => do
    let start ← readAt p.ringOffsets r
    let stop ← readAt p.ringOffsets (r + 1)
    (range start stop).foldlM (fun inside i => do
      let j := if i = start then stop - 1 else i - 1
      let xi ← readAt p.coords (i * 2)
      let yi ← readAt p.coords (i * 2 + 1)
      let xj ← readAt p.coords (j * 2)
      let yj ← readAt p.coords (j * 2 + 1)
      if N.lt y yi != N.lt y yj &&
          N.lt x (N.add (N.div (N.mul (N.sub xj xi) (N.sub y yi)) (N.sub yj yi)) xi) then
        return !inside
      else return inside) inside) false

/-- Whether a point is outside the bounds of a feature. -/
def outside (p : Partition R) (f : Int) (x y : R) : Option Bool := do
  let b := f * 4
  (return N.lt x (← readAt p.bboxes b)) <||>
    (return N.lt (← readAt p.bboxes (b + 2)) x) <||>
    (return N.lt y (← readAt p.bboxes (b + 1))) <||>
    (return N.lt (← readAt p.bboxes (b + 3)) y)

/-- The hit test of one feature. -/
def hits (p : Partition R) (f : Int) (x y : R) : Option Bool := do
  if ← outside N p f x y then return false
  containsEvenOdd N p f x y

-- `text.slice(0, MAX_ATTRIBUTE_DISPLAY_CHARS)`.
variable (slice : String → String)

/-- What a hit resolves to. -/
def resolve (p : Partition R) (f : Int) : Option (Pick R) := do
  let ids ← p.ids
  let attributes ← p.attributes.mapM fun a => do
    let value ← readAt a.values f
    return (a.name, value.map slice)
  return { id := readAt ids f, partitionPath := p.path, attributes }

/-- The last of some features that is hit, from the last one on. -/
def pickIn (p : Partition R) (x y : R) : List Int → Option (Option (Pick R))
  | [] => return none
  | f :: fs => do
    if ← hits N p f x y then
      let found ← resolve slice p f
      return some found
    else pickIn p x y fs

/-- The partitions from the last one on. -/
def pickFrom (x y : R) : List (Partition R) → Option (Option (Pick R))
  | [] => return none
  | p :: ps => do
    match ← pickIn N slice p x y (range 0 p.features).reverse with
    | some found => return some found
    | none => pickFrom x y ps

/-- `pick`. -/
def pick (partitions : List (Partition R)) (x y : R) : Option (Option (Pick R)) :=
  pickFrom N slice x y partitions.reverse

end

end SpatialIde.Renderer.BundleViewer
