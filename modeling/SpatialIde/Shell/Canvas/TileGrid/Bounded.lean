import SpatialIde.Shell.Canvas.TileGrid.Cover

/-! # Covers are bounded

Whatever a frame and a box are, and however numbers are rounded, the loops over the cells of a cover
end and list no more than the bound.
-/

namespace SpatialIde.Shell.Canvas.Cover

open Lib Lib.Rounded

variable {r : Rounding}

/-! ### Loops -/

theorem indices_nil {s e : Int} (h : e < s) : indices (s, e) = [] := by
  rw [indices, Int.range, show (e + 1 - s).toNat = 0 by omega]
  rfl

theorem indices_cons {s e : Int} (h : s ≤ e) : indices (s, e) = s :: indices (s + 1, e) := by
  rw [indices, indices, Int.range, Int.range,
    show (e + 1 - s).toNat = (e + 1 - (s + 1)).toNat + 1 by omega, List.range_succ_eq_map,
    List.map_cons, List.map_map]
  refine congrArg₂ List.cons (by simp) (List.map_congr_left fun k _ => ?_)
  simp only [Function.comp, Nat.succ_eq_add_one]
  omega

theorem length_indices (s e : Int) : (indices (s, e)).length = (e + 1 - s).toNat := by
  rw [indices, Int.range, List.length_map, List.length_range]

theorem mem_indices {s e i : Int} : i ∈ indices (s, e) ↔ s ≤ i ∧ i ≤ e := by
  rw [indices, Int.mem_range_iff]
  omega

/-- A loop over safe integers visits each of them, and ends. -/
theorem walk_ofInt {s e : Int} (hs : -(EXACT - 1) ≤ s) (he : e ≤ EXACT - 1) {fuel : Nat}
    (hfuel : (e + 1 - s).toNat < fuel) :
    walk r (ofInt e) fuel (ofInt s) = some ((indices (s, e)).map ofInt) := by
  induction fuel generalizing s with
  | zero => exact absurd hfuel (Nat.not_lt_zero _)
  | succ fuel ih =>
    rw [walk]
    by_cases h : s ≤ e
    · have hadd : r.add (ofInt s) (ofInt 1) = ofInt (s + 1) := by
        apply Rounding.add_ofInt <;> omega
      rw [if_pos (le_ofInt.2 h), hadd, ih (by omega) (by omega), indices_cons h]
      rfl
    · rw [if_neg (mt le_ofInt.1 h), indices_nil (by omega)]
      rfl

theorem length_materialise (rows cols : Int × Int) :
    (Canvas.materialiseCells rows cols).length = (indices rows).length * (indices cols).length := by
  rw [Canvas.materialiseCells, List.length_flatMap]
  simp only [List.length_map, List.map_const', List.sum_replicate_nat]

/-- The cells of a rectangle of safe integers, row by row. -/
theorem materialiseCells_ofInt {a b c d : Int} (ha : -(EXACT - 1) ≤ a) (hb : b ≤ EXACT - 1)
    (hc : -(EXACT - 1) ≤ c) (hd : d ≤ EXACT - 1) {fuel : Nat} (hrows : (b + 1 - a).toNat < fuel)
    (hcols : (d + 1 - c).toNat < fuel) :
    materialiseCells r fuel (ofInt a, ofInt b) (ofInt c, ofInt d) =
      some ((Canvas.materialiseCells (a, b) (c, d)).map Cell.ofKey) := by
  have hmapM : ∀ rows : List Rounded,
      (rows.mapM fun row => (walk r (ofInt d) fuel (ofInt c)).map (List.map fun col => Cell.mk row col)) =
        some (rows.map fun row => ((indices (c, d)).map ofInt).map fun col => Cell.mk row col) := by
    intro rows
    rw [walk_ofInt hc hd hcols]
    induction rows with
    | nil => rfl
    | cons row rows ih =>
      rw [List.mapM_cons, ih]
      rfl
  rw [materialiseCells, walk_ofInt ha hb hrows]
  dsimp only [bind, Option.bind]
  rw [hmapM]
  dsimp only [pure]
  rw [Canvas.materialiseCells, List.map_flatMap, List.flatMap_def, List.map_map]
  refine congrArg (some ∘ List.flatten) (List.map_congr_left fun row _ => ?_)
  rw [Function.comp, List.map_map, List.map_map]
  rfl

/-! ### Ranges -/

/-- A range of safe integers that is not empty. -/
structure Walks (range : Rounded × Rounded) (ints : Int × Int) : Prop where
  eq : range = (ofInt ints.1, ofInt ints.2)
  low : -(EXACT - 1) ≤ ints.1
  ordered : ints.1 ≤ ints.2
  high : ints.2 ≤ EXACT - 1

theorem isEnumerableRange_iff {range : Rounded × Rounded} :
    isEnumerableRange range = true ↔ ∃ ints, Walks range ints := by
  obtain ⟨x, y⟩ := range
  rw [isEnumerableRange, Bool.and_eq_true, Bool.and_eq_true, isSafeInteger_iff, isSafeInteger_iff]
  constructor
  · rintro ⟨⟨⟨a, hx, ha, -⟩, b, hy, -, hb⟩, hle⟩
    dsimp only at hx hy hle
    subst hx hy
    exact ⟨(a, b), rfl, ha, le_ofInt.1 hle, hb⟩
  · rintro ⟨⟨a, b⟩, heq, ha, hab, hb⟩
    cases heq
    dsimp only at ha hab hb
    exact ⟨⟨⟨a, rfl, ha, by omega⟩, b, rfl, by omega, hb⟩, le_ofInt.2 hab⟩

/-- A long range counts as long. -/
theorem le_span {a b k : Int} (hk : 0 ≤ k) (hk' : k < EXACT) (h : k ≤ b - a) :
    (ofInt (k + 1)).le (span r (ofInt a, ofInt b)) = true := by
  have hsub : (ofInt k).le (r.sub (ofInt b) (ofInt a)) = true := by
    have hround : r.sub (ofInt b) (ofInt a) = r.round ((b - a : Int) : ℚ) := by
      rw [Int.cast_sub, sub_eq_add_neg]
      rfl
    have hexact : (-EXACT : Int) ≤ k := by
      have hnonneg : (0 : Int) ≤ EXACT := by decide
      omega
    rw [hround, ← r.integer k hexact hk'.le]
    exact r.monotone (Int.cast_le.2 h)
  have hadd : r.add (ofInt k) (ofInt 1) = ofInt (k + 1) := by
    have hnonneg : (0 : Int) ≤ EXACT := by decide
    apply Rounding.add_ofInt <;> omega
  rw [← hadd]
  exact Rounding.add_le_add _ hsub

/-- What counts as no more than the bound is no more. -/
theorem count_le {a b c d : Int} (hab : a ≤ b) (hcd : c ≤ d)
    (h : (r.mul (span r (ofInt a, ofInt b)) (span r (ofInt c, ofInt d))).le
      (ofInt MAX_COVERING_TILES) = true) :
    (b - a + 1) * (d - c + 1) ≤ MAX_COVERING_TILES := by
  have hmax : MAX_COVERING_TILES = 65536 := rfl
  have hexact : EXACT = 9007199254740992 := rfl
  by_contra hlt
  -- Both counts, cut to one more than the bound.
  obtain ⟨k, hk⟩ : ∃ k, k = min (b - a) MAX_COVERING_TILES := ⟨_, rfl⟩
  obtain ⟨l, hl⟩ : ∃ l, l = min (d - c) MAX_COVERING_TILES := ⟨_, rfl⟩
  have hrows := @le_span r a b k (by omega) (by omega) (by omega)
  have hcols := @le_span r c d l (by omega) (by omega) (by omega)
  have hsmall : (k + 1) * (l + 1) ≤ 65537 * 65537 :=
    mul_le_mul (by omega) (by omega) (by omega) (by omega)
  have hmul := @Rounding.le_mul r (k + 1) (l + 1) _ _ (by omega) (by omega)
    (by rw [hexact]; exact hsmall.trans (by decide)) hrows hcols
  have hle : (k + 1) * (l + 1) ≤ MAX_COVERING_TILES := le_ofInt.1 (le_trans hmul h)
  rcases le_or_gt (b - a) MAX_COVERING_TILES with hba | hba
  · rcases le_or_gt (d - c) MAX_COVERING_TILES with hdc | hdc
    · rw [hk, hl, min_eq_left hba, min_eq_left hdc] at hle
      exact hlt hle
    · rw [hl, min_eq_right hdc.le, hmax] at hle
      omega
  · rw [hk, min_eq_right hba.le, hmax] at hle
    omega

theorem floor_cases (x : Rounded) :
    (∃ m, x.floor = ofInt m) ∨ (∃ neg, x.floor = inf neg) ∨ x.floor = nan := by
  cases x with
  | finite q => exact .inl ⟨⌊q⌋, rfl⟩
  | inf neg => exact .inr (.inl ⟨neg, rfl⟩)
  | nan => exact .inr (.inr rfl)

/-- A window is no wider than it is declared. -/
theorem window_le {x : Rounded} {range : Rounded × Rounded} {a b : Int}
    (h : windowRange r x.floor range = (ofInt a, ofInt b)) (ha : -(EXACT - 1) ≤ a)
    (ha' : a ≤ EXACT - 1) (hb : b ≤ EXACT - 1) : b - a + 1 ≤ COVER_WINDOW_CELLS_PER_AXIS := by
  have hwindow : COVER_WINDOW_CELLS_PER_AXIS = 256 := rfl
  have hexact : EXACT = 9007199254740992 := rfl
  rw [windowRange, Prod.mk.injEq] at h
  obtain ⟨hmax, hmin⟩ := h
  have hlow := (le_max hmax).2
  have hhigh := (min_le hmin).2
  rcases floor_cases x with ⟨m, hm⟩ | ⟨neg, hm⟩ | hm
  · rw [hm] at hlow hhigh
    change (r.sub (ofInt m) (ofInt 128)).le (ofInt a) = true at hlow
    change (ofInt b).le (r.sub (r.add (r.sub (ofInt m) (ofInt 128)) (ofInt 256)) (ofInt 1)) = true at hhigh
    have hround : r.sub (ofInt m) (ofInt 128) = r.round ((m - 128 : Int) : ℚ) := by
      rw [Int.cast_sub, sub_eq_add_neg]
      rfl
    rcases lt_or_ge (m - 128) (-EXACT) with hfar | hfar
    · -- Far to the left.
      have hleft : (r.sub (ofInt m) (ofInt 128)).le (ofInt (-EXACT)) = true := by
        rw [hround, ← r.integer (-EXACT) le_rfl (by omega)]
        exact r.monotone (Int.cast_le.2 hfar.le)
      have hadd := @Rounding.add_le_add r 256 _ _ hleft
      have hsum : r.add (ofInt (-EXACT)) (ofInt 256) = ofInt (-EXACT + 256) := by
        apply Rounding.add_ofInt <;> omega
      have hsub := @Rounding.add_le_add r (-1) _ _ hadd
      have hlast : r.sub (ofInt (-EXACT + 256)) (ofInt 1) = ofInt (-EXACT + 256 - 1) := by
        apply Rounding.sub_ofInt <;> omega
      have hbound : (ofInt b).le (r.sub (r.add (ofInt (-EXACT)) (ofInt 256)) (ofInt 1)) = true :=
        le_trans hhigh hsub
      rw [hsum, hlast, le_ofInt] at hbound
      omega
    · rcases lt_or_ge EXACT (m - 128) with hfar' | hfar'
      · -- Far to the right.
        have hright : (ofInt EXACT).le (r.sub (ofInt m) (ofInt 128)) = true := by
          rw [hround, ← r.integer EXACT (by omega) le_rfl]
          exact r.monotone (Int.cast_le.2 hfar'.le)
        have hbound := le_ofInt.1 (le_trans hright hlow)
        omega
      · have hsub : r.sub (ofInt m) (ofInt 128) = ofInt (m - 128) := Rounding.sub_ofInt hfar hfar'
        rw [hsub, le_ofInt] at hlow
        rcases le_or_gt (m - 128 + 256) EXACT with hnear | hnear
        · have hsum : r.add (ofInt (m - 128)) (ofInt 256) = ofInt (m - 128 + 256) := by
            apply Rounding.add_ofInt <;> omega
          have hlast : r.sub (ofInt (m - 128 + 256)) (ofInt 1) = ofInt (m - 128 + 256 - 1) := by
            apply Rounding.sub_ofInt <;> omega
          rw [hsub, hsum, hlast, le_ofInt] at hhigh
          omega
        · omega
  · rw [hm] at hlow hhigh
    cases neg with
    | true => cases hhigh
    | false => cases hlow
  · rw [hm] at hlow
    cases hlow

/-! ### Covers -/

/-- The cells of two ranges of integers. -/
def cellsOf (rows cols : Int × Int) : List Cell := (Canvas.materialiseCells rows cols).map Cell.ofKey

theorem length_cellsOf {rows cols : Int × Int} (hrows : rows.1 ≤ rows.2) (hcols : cols.1 ≤ cols.2) :
    ((cellsOf rows cols).length : Int) = (rows.2 - rows.1 + 1) * (cols.2 - cols.1 + 1) := by
  rw [cellsOf, List.length_map, length_materialise, length_indices, length_indices, Nat.cast_mul,
    Int.toNat_of_nonneg (by omega), Int.toNat_of_nonneg (by omega),
    show rows.2 + 1 - rows.1 = rows.2 - rows.1 + 1 by omega,
    show cols.2 + 1 - cols.1 = cols.2 - cols.1 + 1 by omega]

theorem Walks.materialise {rows cols : Rounded × Rounded} {rows' cols' : Int × Int}
    (hrows : Walks rows rows') (hcols : Walks cols cols')
    (hcount : (rows'.2 - rows'.1 + 1) * (cols'.2 - cols'.1 + 1) ≤ MAX_COVERING_TILES) {fuel : Nat}
    (hfuel : MAX_COVERING_TILES.toNat < fuel) :
    materialiseCells r fuel rows cols = some (cellsOf rows' cols') := by
  have hmax : MAX_COVERING_TILES = 65536 := rfl
  have hr := hrows.ordered
  have hc := hcols.ordered
  have hrow : rows'.2 - rows'.1 + 1 ≤ (rows'.2 - rows'.1 + 1) * (cols'.2 - cols'.1 + 1) :=
    le_mul_of_one_le_right (by omega) (by omega)
  have hcol : cols'.2 - cols'.1 + 1 ≤ (rows'.2 - rows'.1 + 1) * (cols'.2 - cols'.1 + 1) :=
    le_mul_of_one_le_left (by omega) (by omega)
  rw [hrows.eq, hcols.eq]
  exact materialiseCells_ofInt hrows.low hrows.high hcols.low hcols.high (by omega) (by omega)

/-- What a cover is: all of its cells, a window of them, or nothing. -/
inductive Covers (r : Rounding) (ranges : IndexRanges) (cellCount : Rounded)
    (winRows winCols : Rounded × Rounded) : TileCover → Prop
  | complete {rows cols : Int × Int} (hrows : Walks ranges.rows rows)
      (hcols : Walks ranges.cols cols)
      (hcount : (rows.2 - rows.1 + 1) * (cols.2 - cols.1 + 1) ≤ MAX_COVERING_TILES) :
      Covers r ranges cellCount winRows winCols (.complete (cellsOf rows cols) cellCount)
  | window {rows cols : Int × Int} (hrows : Walks winRows rows) (hcols : Walks winCols cols)
      (hrow : rows.2 - rows.1 + 1 ≤ COVER_WINDOW_CELLS_PER_AXIS)
      (hcol : cols.2 - cols.1 + 1 ≤ COVER_WINDOW_CELLS_PER_AXIS) :
      Covers r ranges cellCount winRows winCols (.truncated (cellsOf rows cols) cellCount
        (r.sub cellCount (.ofInt (cellsOf rows cols).length)))
  | nothing (hrows : (∀ rows, ¬Walks winRows rows) ∨ ∀ cols, ¬Walks winCols cols) :
      Covers r ranges cellCount winRows winCols (.truncated [] cellCount cellCount)

/-- With enough fuel a cover is made. -/
theorem exists_cover (r : Rounding) (frame : TileGridFrame) (level : TileGridLevel)
    (bbox : BboxNumbers) :
    ∃ cover, (∀ fuel, MAX_COVERING_TILES.toNat < fuel →
        tileCoverForBbox r fuel frame level bbox = some cover) ∧
      Covers r (coveringIndexRanges r frame level bbox) (coveringCellCount r frame level bbox)
        (windowRange r (centreIndex r bbox.ymin bbox.ymax frame.originY
          (cellSizeForLevel r frame level)) (coveringIndexRanges r frame level bbox).rows)
        (windowRange r (centreIndex r bbox.xmin bbox.xmax frame.originX
          (cellSizeForLevel r frame level)) (coveringIndexRanges r frame level bbox).cols) cover := by
  unfold tileCoverForBbox
  extract_lets ranges cellCount enumerable centreCol centreRow winCols winRows
  split
  · next hcomplete =>
    rw [Bool.and_eq_true, Bool.and_eq_true, Bool.and_eq_true, isEnumerableRange_iff,
      isEnumerableRange_iff] at hcomplete
    obtain ⟨⟨⟨⟨rows, hrows⟩, cols, hcols⟩, -⟩, hcount⟩ := hcomplete
    have hcells : (rows.2 - rows.1 + 1) * (cols.2 - cols.1 + 1) ≤ MAX_COVERING_TILES := by
      rw [mul_comm]
      refine @count_le r _ _ _ _ hcols.ordered hrows.ordered ?_
      rw [← hrows.eq, ← hcols.eq]
      exact hcount
    refine ⟨.complete (cellsOf rows cols) cellCount, fun fuel hfuel => ?_,
      .complete hrows hcols hcells⟩
    rw [hrows.materialise hcols hcells hfuel]
    rfl
  · split
    · next hempty =>
      refine ⟨.truncated [] cellCount cellCount, fun _ _ => rfl, .nothing ?_⟩
      rw [Bool.or_eq_true, Bool.not_eq_true', Bool.not_eq_true', ← Bool.not_eq_true,
        ← Bool.not_eq_true, isEnumerableRange_iff, isEnumerableRange_iff, not_exists,
        not_exists] at hempty
      exact hempty
    · next henumerable =>
      rw [Bool.or_eq_true, not_or, Bool.not_eq_true', Bool.not_eq_true', Bool.not_eq_false,
        Bool.not_eq_false, isEnumerableRange_iff, isEnumerableRange_iff] at henumerable
      obtain ⟨⟨rows, hrows⟩, cols, hcols⟩ := henumerable
      have hr := hrows.ordered
      have hc := hcols.ordered
      have hrow : rows.2 - rows.1 + 1 ≤ COVER_WINDOW_CELLS_PER_AXIS :=
        window_le hrows.eq hrows.low (by have := hrows.high; omega) hrows.high
      have hcol : cols.2 - cols.1 + 1 ≤ COVER_WINDOW_CELLS_PER_AXIS :=
        window_le hcols.eq hcols.low (by have := hcols.high; omega) hcols.high
      have hcells : (rows.2 - rows.1 + 1) * (cols.2 - cols.1 + 1) ≤ MAX_COVERING_TILES :=
        (mul_le_mul hrow hcol (by omega) (by decide)).trans (by decide)
      refine ⟨_, fun fuel hfuel => ?_, .window hrows hcols hrow hcol⟩
      rw [hrows.materialise hcols hcells hfuel]
      rfl

/-- **Every cover is bounded**, and its loops end: of every box, whatever its numbers are. -/
theorem cover_bounded (r : Rounding) (frame : TileGridFrame) (level : TileGridLevel)
    (bbox : BboxNumbers) :
    ∃ cover, (∀ fuel, MAX_COVERING_TILES.toNat < fuel →
        tileCoverForBbox r fuel frame level bbox = some cover) ∧
      (cover.keys.length : Int) ≤ MAX_COVERING_TILES := by
  obtain ⟨cover, hcover, hcovers⟩ := exists_cover r frame level bbox
  refine ⟨cover, hcover, ?_⟩
  cases hcovers with
  | complete hrows hcols hcount =>
    exact (length_cellsOf hrows.ordered hcols.ordered).trans_le hcount
  | window hrows hcols hrow hcol =>
    have hr := hrows.ordered
    have hc := hcols.ordered
    refine (length_cellsOf hrows.ordered hcols.ordered).trans_le ?_
    exact (mul_le_mul hrow hcol (by omega) (by decide)).trans (by decide)
  | nothing => exact (by decide : (0 : Int) ≤ MAX_COVERING_TILES)

end SpatialIde.Shell.Canvas.Cover
