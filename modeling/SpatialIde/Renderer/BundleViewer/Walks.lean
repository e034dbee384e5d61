import SpatialIde.Lib.Cyclic
import SpatialIde.Renderer.BundleViewer.Render

/-! # The walks over an accepted partition

`polygonOf` reads the rings of a feature.  The checks of `decodePartition` let it read every feature
of what they accept (`polygonOf_of_checks`), and the walks for the bounds, for drawing and for the
hit test read what it reads.
-/

namespace SpatialIde.Renderer.BundleViewer

open Lib

variable {R : Type}

/-! ### The rings of a feature -/

/-- A coordinate pair. -/
def vertexAt (coords : List R) (v : Int) : Option (R × R) := do
  let x ← readAt coords (v * 2)
  let y ← readAt coords (v * 2 + 1)
  return (x, y)

def ringAt (ringOffsets : List Int) (coords : List R) (r : Int) : Option (List (R × R)) := do
  let start ← readAt ringOffsets r
  let stop ← readAt ringOffsets (r + 1)
  (range start stop).mapM (vertexAt coords)

def polygonOf (polygonOffsets ringOffsets : List Int) (coords : List R) (f : Int) :
    Option (List (List (R × R))) := do
  let first ← readAt polygonOffsets f
  let stop ← readAt polygonOffsets (f + 1)
  (range first stop).mapM (ringAt ringOffsets coords)

section

variable {polygonOffsets ringOffsets : List Int} {coords : List R}

theorem vertexAt_eq_some {v : Int} {p : R × R} : vertexAt coords v = some p ↔
    readAt coords (v * 2) = some p.1 ∧ readAt coords (v * 2 + 1) = some p.2 := by
  simp [vertexAt, Prod.ext_iff, Option.bind_eq_some_iff]

theorem ringAt_eq_some {r : Int} {vs : List (R × R)} :
    ringAt ringOffsets coords r = some vs ↔ ∃ start stop, readAt ringOffsets r = some start ∧
      readAt ringOffsets (r + 1) = some stop ∧
      (range start stop).mapM (vertexAt coords) = some vs := by
  simp [ringAt, Option.bind_eq_some_iff]

theorem polygonOf_eq_some {f : Int} {rings : List (List (R × R))} :
    polygonOf polygonOffsets ringOffsets coords f = some rings ↔ ∃ first stop,
      readAt polygonOffsets f = some first ∧ readAt polygonOffsets (f + 1) = some stop ∧
      (range first stop).mapM (ringAt ringOffsets coords) = some rings := by
  simp [polygonOf, Option.bind_eq_some_iff]

theorem exists_vertexAt {v : Int} (h₀ : 0 ≤ v) (h : 2 * v + 1 < coords.length) :
    ∃ p, vertexAt coords v = some p := by
  obtain ⟨x, hx⟩ : ∃ x, readAt coords (v * 2) = some x := readAt_of_lt (by omega) (by omega)
  obtain ⟨y, hy⟩ : ∃ y, readAt coords (v * 2 + 1) = some y := readAt_of_lt (by omega) (by omega)
  exact ⟨(x, y), vertexAt_eq_some.2 ⟨hx, hy⟩⟩

theorem exists_ringAt {r start stop : Int} (hstart : readAt ringOffsets r = some start)
    (hstop : readAt ringOffsets (r + 1) = some stop) (h₀ : 0 ≤ start)
    (h : stop ≤ (coords.length : Int) / 2) : ∃ ring, ringAt ringOffsets coords r = some ring := by
  obtain ⟨vertices, hvertices⟩ : ∃ vs, (range start stop).mapM (vertexAt coords) = some vs := by
    refine exists_mapM fun v hv => ?_
    rw [mem_range] at hv
    exact exists_vertexAt (by omega) (by omega)
  exact ⟨vertices, ringAt_eq_some.2 ⟨start, stop, hstart, hstop, hvertices⟩⟩

/-! ### What the checks give -/

theorem atMost_iff {a b : Option Int} :
    atMost a b = true ↔ ∃ x y, a = some x ∧ b = some y ∧ x ≤ y := by
  cases a with
  | none => simp [atMost]
  | some x =>
    cases b with
    | none => simp [atMost]
    | some y => simp [atMost]

theorem require_eq_ok {asset : PartitionAsset} {holds : Bool} {detail : String} :
    require asset holds detail = .ok () ↔ holds = true := by
  rw [require]
  split_ifs with h
  · simp [h]
  · refine ⟨fun hok => ?_, fun hok => absurd hok h⟩
    cases hok

theorem steps_of_checks {asset : PartitionAsset} {xs : List Int} {lo hi : Int}
    {detail : Int → String} (h : (range lo hi).forM (fun i => require asset
      (atMost (readAt xs i) (readAt xs (i + 1))) (detail i)) = .ok ()) : Steps xs lo hi := by
  intro i hlo hhi
  have hi := forM_eq_ok.1 h i (mem_range.2 ⟨hlo, hhi⟩)
  obtain ⟨x, y, hx, hy, hxy⟩ := atMost_iff.1 (require_eq_ok.1 hi)
  exact ⟨x, y, hx, hy, hxy⟩

/-- **Behind the checks every feature can be read.** -/
theorem polygonOf_of_checks {asset : PartitionAsset} {features : Int}
    (h : checkOffsets asset polygonOffsets ringOffsets coords features = .ok ()) {f : Int}
    (hf : 0 ≤ f) (hfeatures : f < features) :
    ∃ rings, polygonOf polygonOffsets ringOffsets coords f = some rings := by
  obtain ⟨_, hstart, h⟩ := bind_eq_ok.1 h
  obtain ⟨_, hsteps, h⟩ := bind_eq_ok.1 h
  obtain ⟨_, hend, h⟩ := bind_eq_ok.1 h
  obtain ⟨_, hring, h⟩ := bind_eq_ok.1 h
  obtain ⟨_, hringSteps, hringEnd⟩ := bind_eq_ok.1 h
  obtain ⟨zero, r0, hzero, hr0, h0⟩ := atMost_iff.1 (require_eq_ok.1 hstart)
  obtain ⟨r1, count, hr1, hcount, h1⟩ := atMost_iff.1 (require_eq_ok.1 hend)
  cases hzero
  cases hcount
  rw [hr0, hr1] at hringSteps
  rw [hr0] at hring
  rw [hr1] at hringEnd
  obtain ⟨zero, first, hzero, hfirst, hfirst₀⟩ := atMost_iff.1 (require_eq_ok.1 hring)
  obtain ⟨last, pairs, hlast, hpairs, hlastle⟩ := atMost_iff.1 (require_eq_ok.1 hringEnd)
  cases hzero
  cases hpairs
  have hpolygons := steps_of_checks hsteps
  have hrings := steps_of_checks hringSteps
  -- The rings of the feature are among those that have been checked.
  obtain ⟨lo, hlo, hlo₀, -⟩ := hpolygons.between hr0 hr1 hf (by omega)
  obtain ⟨hi, hhi, -, hhi₁⟩ := hpolygons.between hr0 hr1 (i := f + 1) (by omega) (by omega)
  have hrange : ∀ r ∈ range lo hi, ∃ ring, ringAt ringOffsets coords r = some ring := by
    intro r hr
    rw [mem_range] at hr
    obtain ⟨start, hstart, hstart₀, -⟩ := hrings.between hfirst hlast (i := r)
      (by simp; omega) (by simp; omega)
    obtain ⟨stop, hstop, -, hstop₁⟩ := hrings.between hfirst hlast (i := r + 1)
      (by simp; omega) (by simp; omega)
    exact exists_ringAt hstart hstop (by omega) (by omega)
  obtain ⟨rings, hrings⟩ := exists_mapM hrange
  exact ⟨rings, polygonOf_eq_some.2 ⟨lo, hi, hlo, hhi, hrings⟩⟩

/-! ### The walks -/

/-- A walk that reads each ring before it goes on is a fold over the rings. -/
theorem walk_eq {σ : Type} {body : σ → Int → Option σ} {g : σ → List (R × R) → σ}
    (hbody : ∀ s r, body s r = ringAt ringOffsets coords r >>= fun vs => some (g s vs)) (f : Int)
    (s : σ) : (do
      let first ← readAt polygonOffsets f
      let stop ← readAt polygonOffsets (f + 1)
      (range first stop).foldlM body s) =
    (polygonOf polygonOffsets ringOffsets coords f).map fun rings => rings.foldl g s := by
  rw [show body = fun s r => _ from funext fun s => funext fun r => hbody s r, polygonOf]
  cases readAt polygonOffsets f with
  | none => rfl
  | some first =>
    cases readAt polygonOffsets (f + 1) with
    | none => rfl
    | some stop =>
      show (range first stop).foldlM _ s =
        Option.map _ ((range first stop).mapM (ringAt ringOffsets coords))
      rw [foldlM_bind]
      simp only [foldlM_some]
      cases (range first stop).mapM (ringAt ringOffsets coords) <;> rfl

variable (N : Numbers R)

/-- **The bounds of a feature are those of the vertices that are read.** -/
theorem boundsOf_eq (f : Int) : boundsOf N polygonOffsets ringOffsets coords f =
    (polygonOf polygonOffsets ringOffsets coords f).map fun rings =>
      rings.foldl (fun box vs => vs.foldl (fun box v => box.grow N v.1 v.2) box)
        (Box.empty N) := by
  refine walk_eq (fun box r => ?_) f _
  rw [ringAt, bind_assoc]
  refine congrArg _ (funext fun start => ?_)
  rw [bind_assoc]
  refine congrArg _ (funext fun stop => ?_)
  simp only [← foldlM_some]
  rw [← foldlM_bind (vertexAt coords)]
  simp only [vertexAt, bind_assoc, pure_bind]
  rfl

/-- Whether the ray from a point crosses the step from one vertex to the next. -/
def crosses (x y : R) (s : (R × R) × (R × R)) : Bool :=
  (N.lt y s.1.2 != N.lt y s.2.2) && N.lt x (N.add (N.div (N.mul (N.sub s.2.1 s.1.1)
    (N.sub y s.1.2)) (N.sub s.2.2 s.1.2)) s.1.1)

/-- **The hit test goes around each ring that is read.** -/
theorem containsEvenOdd_eq (p : Partition R) (f : Int) (x y : R) : containsEvenOdd N p f x y =
    (polygonOf p.polygonOffsets p.ringOffsets p.coords f).map fun rings =>
      rings.foldl (fun inside vs => (Cyclic.steps vs).foldl
        (fun inside s => if crosses N x y s then !inside else inside) inside) false := by
  refine walk_eq (fun inside r => ?_) f _
  rw [ringAt, bind_assoc]
  refine congrArg _ (funext fun start => ?_)
  rw [bind_assoc]
  refine congrArg _ (funext fun stop => ?_)
  calc _ = (range start stop).foldlM (fun inside i =>
          Cyclic.pair (vertexAt p.coords) i (if i = start then stop - 1 else i - 1) >>= fun s =>
            some (if crosses N x y s then !inside else inside)) inside := by
        refine congrArg (fun body => (range start stop).foldlM body inside)
          (funext fun inside => funext fun i => ?_)
        simp only [Cyclic.pair, vertexAt, bind_assoc, pure_bind, crosses]
        refine congrArg _ (funext fun xi => ?_)
        refine congrArg _ (funext fun yi => ?_)
        refine congrArg _ (funext fun xj => ?_)
        refine congrArg _ (funext fun yj => ?_)
        exact (apply_ite some _ _ _).symm
    _ = _ := by
        rw [foldlM_bind, Cyclic.mapM_pair]
        simp only [foldlM_some]
        cases (range start stop).mapM (vertexAt p.coords) <;> rfl

end

end SpatialIde.Renderer.BundleViewer
