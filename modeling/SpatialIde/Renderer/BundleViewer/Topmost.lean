import Mathlib.Tactic.Ring
import SpatialIde.Renderer.BundleViewer.Inside

/-! # The topmost feature under a point

With the coordinates read as exact rationals the hit test of a feature decides whether a point is
inside its rings by the even-odd rule (`hits_exact`); the bounds only leave out points that are not.
So a pick is the feature that is drawn last among those that contain the point.
-/

namespace SpatialIde.Renderer.BundleViewer

open Lib

/-! ### Bounds hold the vertices -/

section

variable {R : Type} {N : Numbers R}

/-- A vertex that is not outside some bounds. -/
structure Box.Holds (N : Numbers R) (box : Box R) (v : R × R) : Prop where
  xmin : N.lt v.1 box.xmin = false
  ymin : N.lt v.2 box.ymin = false
  xmax : N.lt box.xmax v.1 = false
  ymax : N.lt box.ymax v.2 = false

variable (htrans : ∀ a b c, N.lt a b = true → N.lt b c = true → N.lt a c = true)

include htrans in
theorem Box.Holds.grow {box : Box R} {v : R × R} (h : box.Holds N v) (x y : R) :
    (box.grow N x y).Holds N v := by
  have hlow : ∀ a b c : R, N.lt a b = false → N.lt a (if N.lt c b then c else b) = false := by
    intro a b c hab
    split_ifs with hcb
    · by_contra hac
      rw [htrans a c b (by simpa using hac) hcb] at hab
      cases hab
    · exact hab
  have hhigh : ∀ a b c : R, N.lt b a = false → N.lt (if N.lt b c then c else b) a = false := by
    intro a b c hba
    split_ifs with hbc
    · by_contra hca
      rw [htrans b c a hbc (by simpa using hca)] at hba
      cases hba
    · exact hba
  exact ⟨hlow _ _ _ h.xmin, hlow _ _ _ h.ymin, hhigh _ _ _ h.xmax, hhigh _ _ _ h.ymax⟩

variable (hirrefl : ∀ a, N.lt a a = false)

include hirrefl in
theorem Box.holds_grow (box : Box R) (v : R × R) : (box.grow N v.1 v.2).Holds N v := by
  have hlow : ∀ a b : R, N.lt a (if N.lt a b then a else b) = false := by
    intro a b
    split_ifs with hab
    · exact hirrefl a
    · simpa using hab
  have hhigh : ∀ a b : R, N.lt (if N.lt b a then a else b) a = false := by
    intro a b
    split_ifs with hba
    · exact hirrefl a
    · simpa using hba
  exact ⟨hlow _ _, hlow _ _, hhigh _ _, hhigh _ _⟩

include htrans hirrefl in
theorem Box.holds_foldl {vs : List (R × R)} {v : R × R} (box : Box R) (hv : v ∈ vs ∨ box.Holds N v) :
    (vs.foldl (fun box v => box.grow N v.1 v.2) box).Holds N v := by
  induction vs generalizing box with
  | nil =>
    rcases hv with hv | hv
    · cases hv
    · exact hv
  | cons w vs ih =>
    refine ih (box.grow N w.1 w.2) ?_
    rcases hv with hv | hv
    · rcases List.mem_cons.1 hv with rfl | hv
      · exact .inr (box.holds_grow hirrefl v)
      · exact .inl hv
    · exact .inr (hv.grow htrans w.1 w.2)

end

/-! ### Rational coordinates -/

namespace Exact

theorem lt_self (a : Exact) : a.lt a = false := by
  cases a <;> simp [lt]

theorem lt_trans (a b c : Exact) (hab : a.lt b = true) (hbc : b.lt c = true) : a.lt c = true := by
  cases a with
  | negInf =>
    cases b with
    | negInf => cases hab
    | finite q => cases c <;> first | rfl | cases hbc
    | posInf => cases c <;> cases hbc
  | finite p =>
    cases b with
    | negInf => cases hab
    | finite q =>
      cases c with
      | negInf => cases hbc
      | finite r =>
        rw [lt, decide_eq_true_eq] at hab hbc ⊢
        exact hab.trans hbc
      | posInf => rfl
    | posInf => cases c <;> cases hbc
  | posInf => cases b <;> cases hab

/-- The rational that a coordinate is. -/
def toRat : Exact → ℚ
  | finite q => q
  | _ => 0

end Exact

/-- Coordinates without an infinity. -/
def Finite (p : Partition Exact) : Prop := ∀ c ∈ p.coords, ∃ q, c = .finite q

theorem polygonOf_map {R S : Type} (g : R → S) (polygonOffsets ringOffsets : List Int)
    (coords : List R) (f : Int) : polygonOf polygonOffsets ringOffsets (coords.map g) f =
      (polygonOf polygonOffsets ringOffsets coords f).map (List.map (List.map (Prod.map g g))) := by
  have hvertex : ∀ v, vertexAt (coords.map g) v = (vertexAt coords v).map (Prod.map g g) := by
    intro v
    rw [vertexAt, vertexAt, readAt_map, readAt_map]
    cases readAt coords (v * 2) with
    | none => rfl
    | some x => cases readAt coords (v * 2 + 1) <;> rfl
  have hring : ∀ r, ringAt ringOffsets (coords.map g) r =
      (ringAt ringOffsets coords r).map (List.map (Prod.map g g)) := by
    intro r
    rw [ringAt, ringAt]
    cases readAt ringOffsets r with
    | none => rfl
    | some start =>
      cases readAt ringOffsets (r + 1) with
      | none => rfl
      | some stop =>
        show (range start stop).mapM (vertexAt (coords.map g)) = Option.map _ (List.mapM _ _)
        rw [show vertexAt (coords.map g) = _ from funext hvertex, mapM_map]
  rw [polygonOf, polygonOf]
  cases readAt polygonOffsets f with
  | none => rfl
  | some first =>
    cases readAt polygonOffsets (f + 1) with
    | none => rfl
    | some stop =>
      show (range first stop).mapM (ringAt ringOffsets (coords.map g)) = Option.map _ (List.mapM _ _)
      rw [show ringAt ringOffsets (coords.map g) = _ from funext hring, mapM_map]

/-- The rings of a feature. -/
def ringsOf (p : Partition Exact) (f : Int) : List (List (ℚ × ℚ)) :=
  (polygonOf p.polygonOffsets p.ringOffsets (p.coords.map Exact.toRat) f).getD []

/-- Whether a feature contains a point: by the even-odd rule, over all its rings. -/
def Contains (p : Partition Exact) (f : Int) (x y : ℚ) : Prop := EvenOdd.Contains (ringsOf p f) x y

instance (p : Partition Exact) (f : Int) (x y : ℚ) : Decidable (Contains p f x y) :=
  inferInstanceAs (Decidable (EvenOdd.Contains _ x y))

theorem Finite.readable {p : Partition Exact} (h : Finite p) {f : Int}
    {rings : List (List (Exact × Exact))}
    (hrings : polygonOf p.polygonOffsets p.ringOffsets p.coords f = some rings) :
    rings = (ringsOf p f).map (List.map (Prod.map .finite .finite)) := by
  have hcoords : p.coords = (p.coords.map Exact.toRat).map .finite := by
    rw [List.map_map]
    refine (List.map_id _).symm.trans (List.map_congr_left fun c hc => ?_)
    obtain ⟨q, rfl⟩ := h c hc
    rfl
  rw [hcoords, polygonOf_map] at hrings
  obtain ⟨qs, hqs, rfl⟩ := Option.map_eq_some_iff.1 hrings
  rw [ringsOf, hqs]
  rfl

theorem crosses_exact (x y : ℚ) (edge : (ℚ × ℚ) × (ℚ × ℚ)) :
    crosses exact (.finite x) (.finite y) (Prod.map (Prod.map .finite .finite)
      (Prod.map .finite .finite) edge) = decide (EvenOdd.Crosses x y edge) := by
  obtain ⟨⟨xi, yi⟩, xj, yj⟩ := edge
  have habscissa : (xj - xi) * (y - yi) / (yj - yi) + xi =
      EvenOdd.abscissa y (xi, yi) (xj, yj) := by
    show _ = xi + (y - yi) / (yj - yi) * (xj - xi)
    ring
  show ((decide (y < yi) != decide (y < yj)) &&
    decide (x < (xj - xi) * (y - yi) / (yj - yi) + xi)) = _
  rw [habscissa, Bool.eq_iff_iff, Bool.and_eq_true, decide_eq_true_eq, decide_eq_true_eq]
  exact and_congr_left' (EvenOdd.straddles_iff (a := (xi, yi)) (b := (xj, yj))).symm

variable {groupFor : Option String → Nat} {p : Partition Exact}

/-- A point outside the bounds is to one side of every vertex. -/
theorem not_contains_of_outside {box : Box Exact} {rings : List (List (ℚ × ℚ))} {x y : ℚ}
    (hholds : ∀ vs ∈ rings, ∀ v ∈ vs, box.Holds exact (Prod.map .finite .finite v))
    (h : exact.lt (.finite x) box.xmin || exact.lt box.xmax (.finite x) ||
      exact.lt (.finite y) box.ymin || exact.lt box.ymax (.finite y)) :
    ¬ EvenOdd.Contains rings x y := by
  -- A bound between the point and a vertex.
  have hbelow : ∀ {a b : ℚ} {c : Exact}, Exact.lt (.finite a) c = true →
      Exact.lt (.finite b) c = false → a < b := by
    intro a b c ha hb
    cases c with
    | negInf => cases ha
    | finite c =>
      rw [Exact.lt, decide_eq_true_eq] at ha
      rw [Exact.lt, decide_eq_false_iff_not, not_lt] at hb
      exact ha.trans_le hb
    | posInf => cases hb
  have habove : ∀ {a b : ℚ} {c : Exact}, Exact.lt c (.finite a) = true →
      Exact.lt c (.finite b) = false → b < a := by
    intro a b c ha hb
    cases c with
    | negInf => cases hb
    | finite c =>
      rw [Exact.lt, decide_eq_true_eq] at ha
      rw [Exact.lt, decide_eq_false_iff_not, not_lt] at hb
      exact hb.trans_lt ha
    | posInf => cases ha
  simp only [Bool.or_eq_true] at h
  rcases h with ((h | h) | h) | h
  · exact EvenOdd.not_contains_of_left fun vs hvs v hv => hbelow h (hholds vs hvs v hv).xmin
  · exact EvenOdd.not_contains_of_right fun vs hvs v hv => habove h (hholds vs hvs v hv).xmax
  · exact EvenOdd.not_contains_of_below fun vs hvs v hv => hbelow h (hholds vs hvs v hv).ymin
  · exact EvenOdd.not_contains_of_above fun vs hvs v hv => habove h (hholds vs hvs v hv).ymax

/-- **The hit test decides whether the feature contains the point**, and the bounds hide no such
feature. -/
theorem Accepted.hits_exact (h : Accepted exact groupFor p) (hfinite : Finite p) {f : Int}
    (h₀ : 0 ≤ f) (hf : f < p.features) (x y : ℚ) :
    hits exact p f (.finite x) (.finite y) = some (decide (Contains p f x y)) ∧
    (Contains p f x y → outside exact p f (.finite x) (.finite y) = some false) := by
  obtain ⟨box, rings, hbox, hrings, hhits⟩ := h.hits_eq h₀ hf (.finite x) (.finite y)
  obtain ⟨box', hbox', houtside⟩ := h.outside_eq h₀ hf (.finite x) (.finite y)
  rw [hbox] at hbox'
  cases hbox'
  rw [boundsOf_eq, hrings, Option.map_some, ← List.foldl_flatten] at hbox
  cases hbox
  have hread := hfinite.readable hrings
  have hcontains : rings.foldl (fun inside vs => (Cyclic.steps vs).foldl
      (fun inside s => if crosses exact (.finite x) (.finite y) s then !inside else inside) inside)
        false = decide (Contains p f x y) := by
    rw [hread, List.foldl_map]
    simp only [Cyclic.steps_map, List.foldl_map, crosses_exact]
    rw [← List.foldl_flatMap, EvenOdd.foldl_turns, Bool.false_bne]
    rfl
  have hnot : (exact.lt (.finite x) (rings.flatten.foldl (fun box v => box.grow exact v.1 v.2)
      (Box.empty exact)).xmin || _ || _ || _) = true → ¬ Contains p f x y :=
    not_contains_of_outside fun vs hvs v hv =>
      Box.holds_foldl Exact.lt_trans Exact.lt_self _ (.inl (by
        rw [hread, List.mem_flatten]
        exact ⟨_, List.mem_map_of_mem hvs, List.mem_map_of_mem hv⟩))
  rw [hhits, hcontains, houtside]
  split_ifs with hout
  · exact ⟨by rw [decide_eq_false (hnot hout)], fun hin => absurd hin (hnot hout)⟩
  · exact ⟨rfl, fun _ => congrArg some (Bool.eq_false_of_not_eq_true hout)⟩

variable (groupFor) (tableFromIPC : List UInt8 → Except String (Table Exact))
  (stringify : List String → String) (slice : String → String)

/-- **`pick` returns the topmost feature under the point**: of the features that contain it the one
that is drawn last, and nothing where there is none.  The bounds hide none of them. -/
theorem pick_topmost (partitions : List (Partition Exact))
    (hdecoded : ∀ p ∈ partitions, Decoded exact groupFor tableFromIPC stringify p)
    (hfinite : ∀ p ∈ partitions, Finite p) (x y : ℚ) :
    (∀ groups view, drawAll exact partitions groups view = (readAt groups 0).bind fun params =>
      (paint partitions).foldlM (drawFeature exact groups view) (cleared view params)) ∧
    (∀ s ∈ paint partitions, Contains s.1 s.2 x y →
      outside exact s.1 s.2 (.finite x) (.finite y) = some false) ∧
    ((∃ below p f above, paint partitions = below ++ (p, f) :: above ∧ Contains p f x y ∧
        (∀ s ∈ above, ¬ Contains s.1 s.2 x y) ∧
        pick exact slice partitions (.finite x) (.finite y) = (resolve slice p f).map some) ∨
      (∀ s ∈ paint partitions, ¬ Contains s.1 s.2 x y) ∧
        pick exact slice partitions (.finite x) (.finite y) = some none) := by
  have hhits : ∀ s ∈ paint partitions,
      hits exact s.1 s.2 (.finite x) (.finite y) = some (decide (Contains s.1 s.2 x y)) ∧
      (Contains s.1 s.2 x y → outside exact s.1 s.2 (.finite x) (.finite y) = some false) := by
    intro s hs
    obtain ⟨hp, h₀, hf⟩ := mem_paint.1 hs
    exact (hdecoded _ hp).accepted.hits_exact (hfinite _ hp) h₀ hf x y
  refine ⟨drawAll_eq exact partitions, fun s hs => (hhits s hs).2, ?_⟩
  rw [pick_eq fun s hs => (hhits s hs).1]
  cases hfound : (paint partitions).reverse.find? fun s => decide (Contains s.1 s.2 x y) with
  | none =>
    refine .inr ⟨fun s hs => ?_, rfl⟩
    simpa using List.find?_eq_none.1 hfound s (List.mem_reverse.2 hs)
  | some s =>
    obtain ⟨hs, above, below, hsplit, habove⟩ := List.find?_eq_some_iff_append.1 hfound
    refine .inl ⟨below.reverse, s.1, s.2, above.reverse, ?_, by simpa using hs, ?_, rfl⟩
    · rw [← List.reverse_reverse (paint partitions), hsplit]
      simp
    · intro t ht
      simpa using habove t (List.mem_reverse.1 ht)

/-- Of a triangle the topmost feature at an inner point is the triangle. -/
theorem pick_topmost_triangle :
    pick exact id [triangle [7]] (.finite 1) (.finite 1) =
      some (some ⟨some (.bigint 7), "part-0.arrow", []⟩) := by
  obtain ⟨-, -, ⟨below, p, f, above, hpaint, -, -, hpick⟩ | ⟨hnone, -⟩⟩ :=
    pick_topmost (fun _ => 0) (fun _ => .ok (triangleTable [7])) (fun _ => "[]") id [triangle [7]]
      (fun p hp => by rw [List.mem_singleton.1 hp]; exact decoded_triangle [7])
      (fun p hp c hc => by
        rw [List.mem_singleton.1 hp] at hc
        obtain ⟨q, -, rfl⟩ := List.mem_map.1 hc
        exact ⟨q, rfl⟩) 1 1
  · have hmem : (p, f) ∈ paint [triangle [7]] := by rw [hpaint]; simp
    obtain ⟨hp, h₀, hf⟩ := mem_paint.1 hmem
    rw [List.mem_singleton.1 hp] at hf hpick
    have hzero : f = 0 := by
      change f < 1 at hf
      omega
    rw [hpick, hzero]
    rfl
  · exact absurd (by decide +kernel) (hnone (triangle [7], 0) (mem_paint.2
      ⟨List.mem_singleton_self _, by decide, by decide⟩))

end SpatialIde.Renderer.BundleViewer
