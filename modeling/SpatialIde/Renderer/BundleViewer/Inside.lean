import SpatialIde.Renderer.BundleViewer.Accepted
import SpatialIde.Renderer.BundleViewer.Paint

/-! # Walks inside the arrays

Of an accepted partition `drawAll` and the hit test read nothing outside its arrays.  A pick reads
the id array at the place of the feature, and that array is as long as its column is: nothing
compares it with the row count.
-/

namespace SpatialIde.Renderer.BundleViewer

open Lib

/-! ### Coordinates read as exact rationals -/

/-- A rational, or one of the infinities that the bounds start from. -/
inductive Exact where
  | negInf
  | finite (q : ℚ)
  | posInf
  deriving DecidableEq, Repr

namespace Exact

def lt : Exact → Exact → Bool
  | negInf, negInf => false
  | negInf, _ => true
  | finite p, finite q => p < q
  | finite _, posInf => true
  | _, _ => false

/-- An operation on rationals.  None is ever given an infinity. -/
def lift (op : ℚ → ℚ → ℚ) : Exact → Exact → Exact
  | finite p, finite q => finite (op p q)
  | _, _ => posInf

end Exact

def exact : Numbers Exact where
  lt := Exact.lt
  add := Exact.lift (· + ·)
  sub := Exact.lift (· - ·)
  mul := Exact.lift (· * ·)
  div := Exact.lift (· / ·)
  ofNat n := .finite n
  posInf := .posInf
  negInf := .negInf

variable {R : Type} {N : Numbers R} {groupFor : Option String → Nat} {p : Partition R}

/-! ### The walks of an accepted partition -/

theorem orM_some (a b : Bool) : (some a <||> some b) = some (a || b) := by
  cases a <;> rfl

namespace Accepted

variable (h : Accepted N groupFor p) {f : Int} (h₀ : 0 ≤ f) (hf : f < p.features)

include h h₀ hf

theorem misses_isSome (visible : Bounds R) : ∃ b, misses N visible p f = some b := by
  obtain ⟨box, -, hxmin, hymin, hxmax, hymax⟩ := h.bounds h₀ hf
  rw [misses, hxmin, hymin, hxmax, hymax]
  show ∃ b, (some _ <||> some _ <||> some _ <||> some _) = some b
  simp only [orM_some]
  exact ⟨_, rfl⟩

theorem outside_eq (x y : R) : ∃ box, boundsOf N p.polygonOffsets p.ringOffsets p.coords f = some box ∧
    outside N p f x y =
      some (N.lt x box.xmin || N.lt box.xmax x || N.lt y box.ymin || N.lt box.ymax y) := by
  obtain ⟨box, hbox, hxmin, hymin, hxmax, hymax⟩ := h.bounds h₀ hf
  refine ⟨box, hbox, ?_⟩
  rw [outside, hxmin, hymin, hxmax, hymax]
  show (some _ <||> some _ <||> some _ <||> some _) = _
  simp only [orM_some, Bool.or_assoc]

/-- Whether a feature is hit: it is not outside its bounds, and the ray crosses an odd number of
steps. -/
theorem hits_eq (x y : R) : ∃ box rings,
    boundsOf N p.polygonOffsets p.ringOffsets p.coords f = some box ∧
    polygonOf p.polygonOffsets p.ringOffsets p.coords f = some rings ∧
    hits N p f x y = some (if N.lt x box.xmin || N.lt box.xmax x || N.lt y box.ymin ||
        N.lt box.ymax y then false
      else rings.foldl (fun inside vs => (Cyclic.steps vs).foldl
        (fun inside s => if crosses N x y s then !inside else inside) inside) false) := by
  obtain ⟨box, hbox, houtside⟩ := h.outside_eq h₀ hf x y
  obtain ⟨rings, hrings⟩ := h.readable f h₀ hf
  refine ⟨box, rings, hbox, hrings, ?_⟩
  rw [hits, houtside, containsEvenOdd_eq, hrings]
  exact (apply_ite some _ _ _).symm

end Accepted

/-! ### Drawing -/

theorem drawRing_isSome {r : Int} {vs : List (R × R)}
    (hring : ringAt p.ringOffsets p.coords r = some vs) (view : View R) (ops : List (Op R)) :
    ∃ ops', drawRing N view p r ops = some ops' := by
  obtain ⟨start, stop, hstart, hstop, hvs⟩ := ringAt_eq_some.1 hring
  have hloop : ∀ v ∈ range start stop, ∀ ops : List (Op R), ∃ ops', (do
      let x ← readAt p.coords (v * 2)
      let y ← readAt p.coords (v * 2 + 1)
      let px := N.add (N.mul (N.sub x view.centerX) view.scale) (N.div view.width (N.ofNat 2))
      let py := N.sub (N.div view.height (N.ofNat 2)) (N.mul (N.sub y view.centerY) view.scale)
      return ops ++ [if v = start then Op.moveTo px py else .lineTo px py]) = some ops' := by
    intro v hv ops
    obtain ⟨vertex, -, hvertex⟩ := exists_mem_of_mapM hvs hv
    obtain ⟨hx, hy⟩ := vertexAt_eq_some.1 hvertex
    rw [hx, hy]
    exact ⟨_, rfl⟩
  obtain ⟨drawn, hdrawn⟩ := foldlM_isSome hloop ops
  rw [drawRing, hstart, hstop]
  by_cases hshort : stop - start < 2
  · exact ⟨ops, if_pos hshort⟩
  · exact ⟨drawn ++ [.closePath], (if_neg hshort).trans (by rw [hdrawn]; rfl)⟩

theorem setGroup_isSome {groups : List (DrawParameters R)} {group : Nat} (h : group < groups.length)
    (d : Drawing R) : ∃ d', setGroup groups group d = some d' := by
  rw [setGroup]
  split_ifs
  · exact ⟨d, rfl⟩
  · rw [readAt_natCast, List.getElem?_eq_getElem h]
    exact ⟨_, rfl⟩

theorem Accepted.drawFeature_isSome (h : Accepted N groupFor p) {f : Int} (h₀ : 0 ≤ f)
    (hf : f < p.features) {groups : List (DrawParameters R)}
    (hgroups : ∀ key, groupFor key < groups.length) (view : View R) (d : Drawing R) :
    ∃ d', drawFeature N groups view d (p, f) = some d' := by
  obtain ⟨culled, hculled⟩ := h.misses_isSome h₀ hf (visibleBounds N view)
  rw [drawFeature, hculled]
  cases culled with
  | true => exact ⟨_, rfl⟩
  | false =>
    obtain ⟨key, hkey⟩ := h.groups f h₀ hf
    obtain ⟨rings, hrings⟩ := h.readable f h₀ hf
    obtain ⟨first, stop, hfirst, hstop, hrings⟩ := polygonOf_eq_some.1 hrings
    obtain ⟨d', hd'⟩ := setGroup_isSome
      (lt_of_le_of_lt (Nat.mod_le _ 256) (hgroups key)) { d with drawn := d.drawn + 1 }
    obtain ⟨ops, hops⟩ := foldlM_isSome (f := fun ops r => drawRing N view p r ops)
      (fun r hr ops => by
        obtain ⟨vs, -, hvs⟩ := exists_mem_of_mapM hrings hr
        exact drawRing_isSome hvs view ops) (d'.ops ++ [.beginPath])
    rw [hkey, hfirst, hstop]
    show ∃ d'', (setGroup groups (groupFor key % 256) { d with drawn := d.drawn + 1 } >>= _) =
      some d''
    rw [hd']
    show ∃ d'', ((range first stop).foldlM (fun ops r => drawRing N view p r ops)
      (d'.ops ++ [.beginPath]) >>= _) = some d''
    rw [hops]
    exact ⟨_, rfl⟩

theorem drawAll_isSome {partitions : List (Partition R)}
    (h : ∀ p ∈ partitions, Accepted N groupFor p) {groups : List (DrawParameters R)}
    (hgroups : ∀ key, groupFor key < groups.length) (view : View R) :
    ∃ d, drawAll N partitions groups view = some d := by
  obtain ⟨params, hparams⟩ : ∃ params, readAt groups 0 = some params := by
    have := hgroups none
    exact readAt_of_lt (by decide) (by omega)
  rw [drawAll_eq, hparams]
  refine foldlM_isSome (fun s hs d => ?_) (cleared view params)
  obtain ⟨p, f⟩ := s
  obtain ⟨hp, h₀, hf⟩ := mem_paint.1 hs
  exact (h p hp).drawFeature_isSome h₀ hf hgroups view d

/-! ### Picking -/

theorem Accepted.resolve_eq (h : Accepted N groupFor p) {f : Int} (h₀ : 0 ≤ f)
    (hf : f < p.features) (slice : String → String) {ids : List (Entry R)} (hids : p.ids = some ids) :
    ∃ attributes, resolve slice p f = some ⟨readAt ids f, p.path, attributes⟩ := by
  obtain ⟨attributes, hattributes⟩ : ∃ attributes, (p.attributes.mapM fun a => do
      let value ← readAt a.values f
      return (a.name, value.map slice)) = some attributes := by
    refine exists_mapM fun a ha => ?_
    obtain ⟨value, hvalue⟩ : ∃ value, readAt a.values f = some value :=
      readAt_of_lt h₀ (by rw [h.attributes a ha]; exact hf)
    exact ⟨(a.name, value.map slice), by rw [hvalue]; rfl⟩
  refine ⟨attributes, ?_⟩
  rw [resolve, hids, Option.bind_eq_bind, Option.bind_some, hattributes]
  rfl

variable (N groupFor)

/-- The id array has a value for each feature that a point hits. -/
def HasIds (p : Partition R) : Prop :=
  ∀ f x y, 0 ≤ f → f < p.features → hits N p f x y = some true → f < (p.ids.getD []).length

/-- `drawAll` and `pick` read nothing outside an array. -/
structure WalksInside (slice : String → String) (partitions : List (Partition R)) : Prop where
  draws : ∀ groups view, (∀ key, groupFor key < groups.length) →
    ∃ d, drawAll N partitions groups view = some d
  picks : ∀ x y, ∃ found, pick N slice partitions x y = some found ∧
    ∀ q, found = some q → ∃ id, q.id = some id

variable {N groupFor} {slice : String → String}

/-- The hit test as a predicate. -/
theorem hits_getD {partitions : List (Partition R)} (h : ∀ p ∈ partitions, Accepted N groupFor p)
    (x y : R) {s : Partition R × Int} (hs : s ∈ paint partitions) :
    hits N s.1 s.2 x y = some ((hits N s.1 s.2 x y).getD false) := by
  obtain ⟨hp, h₀, hf⟩ := mem_paint.1 hs
  obtain ⟨_, _, -, -, hits⟩ := (h _ hp).hits_eq h₀ hf x y
  rw [hits]
  rfl

theorem walksInside_of_hasIds {partitions : List (Partition R)}
    (h : ∀ p ∈ partitions, Accepted N groupFor p ∧ HasIds N p) :
    WalksInside N groupFor slice partitions := by
  refine ⟨fun groups view hgroups =>
    drawAll_isSome (fun p hp => (h p hp).1) hgroups view, fun x y => ?_⟩
  rw [pick_eq fun s => hits_getD (fun p hp => (h p hp).1) x y]
  cases hfound : (paint partitions).reverse.find? fun s => (hits N s.1 s.2 x y).getD false with
  | none =>
    refine ⟨none, rfl, fun q hq => ?_⟩
    cases hq
  | some s =>
    obtain ⟨p, f⟩ := s
    have hmem := List.mem_reverse.1 (List.mem_of_find?_eq_some hfound)
    obtain ⟨hp, h₀, hf⟩ := mem_paint.1 hmem
    have htrue : (hits N p f x y).getD false = true := List.find?_some
      (p := fun s : Partition R × Int => (hits N s.1 s.2 x y).getD false) hfound
    have hhit : hits N p f x y = some true :=
      (hits_getD (fun p hp => (h p hp).1) x y hmem).trans (congrArg some htrue)
    have hlt := (h p hp).2 f x y h₀ hf hhit
    cases hids : p.ids with
    | none =>
      rw [hids] at hlt
      exact absurd h₀ (Int.not_le.2 hlt)
    | some ids =>
      rw [hids] at hlt
      obtain ⟨attributes, hresolve⟩ := (h p hp).1.resolve_eq h₀ hf slice hids
      obtain ⟨id, hid⟩ := readAt_of_lt h₀ hlt
      refine ⟨some ⟨readAt ids f, p.path, attributes⟩, by rw [answer, hresolve]; rfl, ?_⟩
      rintro q hq
      cases hq
      exact ⟨id, hid⟩

/-- Of one partition every hit counts: a feature behind one without an id has none either. -/
theorem hasIds_of_walksInside (h : Accepted N groupFor p)
    (hwalks : WalksInside N groupFor slice [p]) : HasIds N p := by
  intro f x y h₀ hf hhit
  obtain ⟨found, hpick, hid⟩ := hwalks.picks x y
  rw [pick_eq fun s => hits_getD (fun q hq => by rw [List.mem_singleton.1 hq]; exact h) x y, paint,
    List.flatMap_singleton, ← List.map_reverse, List.find?_map] at hpick
  have hf' : (hits N p f x y).getD false = true := by rw [hhit]; rfl
  cases hg : (range 0 p.features).reverse.find?
      ((fun s : Partition R × Int => (hits N s.1 s.2 x y).getD false) ∘ Prod.mk p) with
  | none =>
    have hnot := List.find?_eq_none.1 hg f (List.mem_reverse.2 (mem_range.2 ⟨h₀, hf⟩))
    exact absurd hf' hnot
  | some g =>
    -- The feature that is found is not below this one, and its id is there.
    have hfg : f ≤ g := le_of_find?_reverse hg (mem_range.2 ⟨h₀, hf⟩) hf'
    have hgmem := mem_range.1 (List.mem_reverse.1 (List.mem_of_find?_eq_some hg))
    rw [hg] at hpick
    change (resolve slice p g).map some = some found at hpick
    cases hids : p.ids with
    | none =>
      rw [resolve, hids] at hpick
      cases hpick
    | some ids =>
      obtain ⟨attributes, hresolve⟩ := h.resolve_eq hgmem.1 hgmem.2 slice hids
      rw [hresolve] at hpick
      cases hpick
      obtain ⟨id, hid⟩ := hid _ rfl
      obtain ⟨-, hlt⟩ := lt_of_readAt hid
      exact Int.lt_of_le_of_lt hfg hlt

/-! ### Decoded partitions -/

variable (N groupFor) (tableFromIPC : List UInt8 → Except String (Table R))
  (stringify : List String → String)

/-- A partition that `decodePartition` returns. -/
def Decoded (p : Partition R) : Prop :=
  ∃ asset index bytes manifest matchColumn, decodePartition N tableFromIPC stringify asset index
    bytes manifest groupFor matchColumn = .of (.ok p)

variable {N groupFor tableFromIPC stringify} in
theorem Decoded.accepted (h : Decoded N groupFor tableFromIPC stringify p) :
    Accepted N groupFor p := by
  obtain ⟨asset, index, bytes, manifest, matchColumn, h⟩ := h
  obtain ⟨result, hresult, haccepted⟩ :=
    yields_decodePartition N groupFor tableFromIPC stringify asset index bytes manifest matchColumn
  rw [h] at hresult
  cases hresult
  exact haccepted p rfl

/-- **A decoded partition is walked inside its arrays exactly where each feature that a point hits
has an id.**  `decodePartition` itself always reads inside them. -/
theorem walksInside_iff :
    (∀ asset index bytes manifest matchColumn, ∃ result,
      decodePartition N tableFromIPC stringify asset index bytes manifest groupFor matchColumn =
        .of result) ∧
    (∀ p, Decoded N groupFor tableFromIPC stringify p →
      (WalksInside N groupFor slice [p] ↔ HasIds N p)) ∧
    ∀ partitions, (∀ p ∈ partitions, Decoded N groupFor tableFromIPC stringify p ∧ HasIds N p) →
      WalksInside N groupFor slice partitions := by
  refine ⟨fun asset index bytes manifest matchColumn => ?_, fun p hp => ⟨?_, ?_⟩,
    fun partitions h => ?_⟩
  · obtain ⟨result, hresult, -⟩ :=
      yields_decodePartition N groupFor tableFromIPC stringify asset index bytes manifest matchColumn
    exact ⟨result, hresult⟩
  · exact hasIds_of_walksInside hp.accepted
  · intro hids
    refine walksInside_of_hasIds fun q hq => ?_
    rw [List.mem_singleton.1 hq]
    exact ⟨hp.accepted, hids⟩
  · exact walksInside_of_hasIds fun p hp => ⟨(h p hp).1.accepted, (h p hp).2⟩

/-- A table of one triangle, with an id column of its own length. -/
def triangleTable (ids : List Nat) : Table Exact where
  metadata := [("frame", EXPECTED_FRAME), ("crs", "EPSG:3857"), ("axis_order", EXPECTED_AXIS_ORDER),
    ("geometry_encoding", EXPECTED_ENCODING), ("attribute_columns", "[]")]
  columns := [("id", ⟨.node none [] (some (.bigUint64 ids)), fun _ => .null⟩),
    ("geometry", ⟨.node (some [0, 1]) [.node (some [0, 4]) [.node none
      [.node none [] (some (.float64 ([0, 0, 4, 0, 0, 4, 0, 0].map .finite)))] none] none] none,
      fun _ => .null⟩)]

def triangle (ids : List Nat) : Partition Exact where
  index := 0
  path := "part-0.arrow"
  ids := some (ids.map .bigint)
  coords := [0, 0, 4, 0, 0, 4, 0, 0].map .finite
  ringOffsets := [0, 4]
  polygonOffsets := [0, 1]
  features := 1
  bboxes := [0, 0, 4, 4].map .finite
  groups := [0]
  attributes := []
  bytes := 0

theorem decoded_triangle (ids : List Nat) : Decoded exact (fun _ => 0)
    (fun _ => .ok (triangleTable ids)) (fun _ => "[]") (triangle ids) :=
  ⟨⟨"part-0.arrow", 1⟩, 0, [], ⟨"EPSG:3857", []⟩, none, rfl⟩

/-- With an id for the triangle a pick reads inside the id array. -/
theorem walksInside_iff_triangle : WalksInside exact (fun _ => 0) id [triangle [7]] := by
  refine ((walksInside_iff exact (fun _ => 0) (fun _ => .ok (triangleTable [7]))
    (fun _ => "[]")).2.1 (triangle [7]) (decoded_triangle [7])).2 ?_
  intro f x y h₀ hf _
  exact hf

/-- Without one it does not: its id is `undefined`. -/
theorem triangle_without_id : Decoded exact (fun _ => 0) (fun _ => .ok (triangleTable []))
      (fun _ => "[]") (triangle []) ∧
    pick exact id [triangle []] (.finite 1) (.finite 1) = some (some ⟨none, "part-0.arrow", []⟩) ∧
    ¬ WalksInside exact (fun _ => 0) id [triangle []] := by
  have hpick : pick exact id [triangle []] (.finite 1) (.finite 1) =
      some (some ⟨none, "part-0.arrow", []⟩) := by decide +kernel
  refine ⟨decoded_triangle [], hpick, fun h => ?_⟩
  obtain ⟨found, hfound, hid⟩ := h.picks (.finite 1) (.finite 1)
  rw [hpick] at hfound
  cases hfound
  obtain ⟨id, hid⟩ := hid _ rfl
  cases hid

end SpatialIde.Renderer.BundleViewer
