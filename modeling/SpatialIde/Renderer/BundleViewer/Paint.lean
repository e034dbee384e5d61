import SpatialIde.Renderer.BundleViewer.Render

/-! # The order of drawing

`paint` lists the features in the order in which `drawAll` draws them (`drawAll_eq`).  `pick` finds
the last of them that is hit (`pick_eq`).
-/

namespace SpatialIde.Renderer.BundleViewer

open Lib

variable {R : Type}

/-- The features in the order of drawing, the last one on top. -/
def paint (partitions : List (Partition R)) : List (Partition R × Int) :=
  partitions.flatMap fun p => (range 0 p.features).map (Prod.mk p)

theorem mem_paint {partitions : List (Partition R)} {p : Partition R} {f : Int} :
    (p, f) ∈ paint partitions ↔ p ∈ partitions ∧ 0 ≤ f ∧ f < p.features := by
  rw [paint, List.mem_flatMap]
  constructor
  · rintro ⟨q, hq, h⟩
    obtain ⟨g, hg, h⟩ := List.mem_map.1 h
    cases h
    exact ⟨hq, mem_range.1 hg⟩
  · rintro ⟨hp, hf⟩
    exact ⟨p, hp, List.mem_map.2 ⟨f, mem_range.2 hf, rfl⟩⟩

variable (N : Numbers R)

/-- A drawing before the first feature. -/
def cleared (view : View R) (params : DrawParameters R) : Drawing R where
  ops := [.clearRect view.width view.height]
  drawn := 0
  culled := 0
  currentGroup := -1
  params := params

/-- **`drawAll` draws in the order of `paint`.** -/
theorem drawAll_eq (partitions : List (Partition R)) (groups : List (DrawParameters R))
    (view : View R) : drawAll N partitions groups view = (readAt groups 0).bind fun params =>
      (paint partitions).foldlM (drawFeature N groups view) (cleared view params) := by
  rw [drawAll]
  refine congrArg _ (funext fun params => ?_)
  show partitions.foldlM _ (cleared view params) = _
  generalize cleared view params = d
  induction partitions generalizing d with
  | nil => rfl
  | cons p ps ih =>
    rw [paint, List.flatMap_cons, List.foldlM_append, List.foldlM_cons, List.foldlM_map]
    exact congrArg _ (funext ih)

/-! ### Picking -/

variable (slice : String → String)

/-- What the feature that is found resolves to. -/
def answer : Option (Partition R × Int) → Option (Option (Pick R))
  | none => some none
  | some (p, f) => (resolve slice p f).map some

variable {N slice} {hit : Partition R × Int → Bool} {x y : R}

theorem pickIn_eq {p : Partition R} {fs : List Int}
    (h : ∀ f ∈ fs, hits N p f x y = some (hit (p, f))) :
    pickIn N slice p x y fs = answer slice ((fs.map (Prod.mk p)).find? hit) := by
  induction fs with
  | nil => rfl
  | cons f fs ih =>
    rw [pickIn, h f List.mem_cons_self, List.map_cons, List.find?_cons]
    cases hit (p, f) with
    | true =>
      show (resolve slice p f >>= fun found => some (some found)) = (resolve slice p f).map some
      cases resolve slice p f <;> rfl
    | false => exact ih fun g hg => h g (List.mem_cons_of_mem _ hg)

theorem pickFrom_eq {ps : List (Partition R)}
    (h : ∀ p ∈ ps, ∀ f ∈ range 0 p.features, hits N p f x y = some (hit (p, f))) :
    pickFrom N slice x y ps = answer slice
      ((ps.flatMap fun p => (range 0 p.features).reverse.map (Prod.mk p)).find? hit) := by
  induction ps with
  | nil => rfl
  | cons p ps ih =>
    rw [pickFrom, pickIn_eq fun f hf => h p List.mem_cons_self f (List.mem_reverse.1 hf),
      List.flatMap_cons, List.find?_append]
    cases ((range 0 p.features).reverse.map (Prod.mk p)).find? hit with
    | none => exact ih fun q hq => h q (List.mem_cons_of_mem _ hq)
    | some s =>
      obtain ⟨q, f⟩ := s
      show (Option.map some (resolve slice q f) >>= _) = Option.map some (resolve slice q f)
      cases resolve slice q f <;> rfl

/-- **`pick` finds the last feature in the order of drawing that is hit.** -/
theorem pick_eq {partitions : List (Partition R)}
    (h : ∀ s ∈ paint partitions, hits N s.1 s.2 x y = some (hit s)) :
    pick N slice partitions x y = answer slice ((paint partitions).reverse.find? hit) := by
  rw [pick, pickFrom_eq fun p hp f hf => h (p, f) (mem_paint.2 ⟨List.mem_reverse.1 hp,
    mem_range.1 hf⟩), paint, List.reverse_flatMap]
  simp only [Function.comp_def, List.map_reverse]

end SpatialIde.Renderer.BundleViewer
