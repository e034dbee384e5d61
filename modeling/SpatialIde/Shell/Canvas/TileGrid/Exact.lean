import SpatialIde.Shell.Canvas.TileGrid.Bounded

/-! # Covers read as exact rationals

A complete cover lists the cells that meet the box, and a truncated one a window of them; the
membership of the box holds exactly these cells.
-/

namespace SpatialIde.Shell.Canvas.Cover

open Lib Lib.Rounded

/-! ### The statement -/

/-- A frame whose cells have a size. -/
structure ExactFrame where
  originX : ℚ
  originY : ℚ
  baseSpan : ℚ
  positive : 0 < baseSpan

def ExactFrame.numbers (f : ExactFrame) : TileGridFrame :=
  ⟨.finite f.originX, .finite f.originY, .finite f.baseSpan⟩

structure ExactBbox where
  xmin : ℚ
  ymin : ℚ
  xmax : ℚ
  ymax : ℚ
  xle : xmin ≤ xmax
  yle : ymin ≤ ymax

def ExactBbox.numbers (b : ExactBbox) : BboxNumbers :=
  ⟨.finite b.xmin, .finite b.ymin, .finite b.xmax, .finite b.ymax⟩

def ExactFrame.cellSize (f : ExactFrame) (level : TileGridLevel) : ℚ :=
  f.baseSpan / TILE_GRID_DIMENSIONS level

/-- A coordinate of the half-open box, or its point. -/
def InAxis (lo hi x : ℚ) : Prop := if lo < hi then lo ≤ x ∧ x < hi else x = lo

/-- A coordinate of a cell. -/
def InCell (origin size : ℚ) (i : Int) (x : ℚ) : Prop :=
  origin + i * size ≤ x ∧ x < origin + i * size + size

/-- A cell meets a box. -/
def MeetsBox (f : ExactFrame) (level : TileGridLevel) (b : ExactBbox) (key : TileKey) : Prop :=
  (∃ x, InAxis b.xmin b.xmax x ∧ InCell f.originX (f.cellSize level) key.col x) ∧
    ∃ y, InAxis b.ymin b.ymax y ∧ InCell f.originY (f.cellSize level) key.row y

/-- A cell holds the centre of a box. -/
def HoldsCentre (f : ExactFrame) (level : TileGridLevel) (b : ExactBbox) (key : TileKey) : Prop :=
  InCell f.originX (f.cellSize level) key.col ((b.xmin + b.xmax) / 2) ∧
    InCell f.originY (f.cellSize level) key.row ((b.ymin + b.ymax) / 2)

/-- The order of the rows, and in a row that of the columns. -/
def RowMajor (k k' : TileKey) : Prop := k.row < k'.row ∨ k.row = k'.row ∧ k.col < k'.col

/-- A point of the closed box of a cell. -/
def InTile (f : ExactFrame) (level : TileGridLevel) (key : TileKey) (x y : ℚ) : Prop :=
  ∃ xmin ymin xmax ymax, tileBbox .exact f.numbers level (.ofKey key) =
      ⟨.finite xmin, .finite ymin, .finite xmax, .finite ymax⟩ ∧
    xmin ≤ x ∧ x ≤ xmax ∧ ymin ≤ y ∧ y ≤ ymax

/-! ### One axis -/

/-- The indices of the cells that meet an interval. -/
def axisRange (lo hi origin size : ℚ) : Int × Int :=
  (⌊(lo - origin) / size⌋,
    if hi ≤ lo then ⌊(lo - origin) / size⌋ else ⌈(hi - origin) / size⌉ - 1)

def centreOf (lo hi origin size : ℚ) : Int := ⌊((lo + hi) / 2 - origin) / size⌋

section

variable {lo hi origin size : ℚ}

theorem inCell_iff (hsize : 0 < size) {i : Int} {x : ℚ} :
    InCell origin size i x ↔ i = ⌊(x - origin) / size⌋ := by
  rw [eq_comm, Int.floor_eq_iff, le_div_iff₀ hsize, div_lt_iff₀ hsize, InCell, add_mul, one_mul]
  constructor
  · rintro ⟨h, h'⟩
    exact ⟨by linarith, by linarith⟩
  · rintro ⟨h, h'⟩
    exact ⟨by linarith, by linarith⟩

theorem floor_lt_ceil {p q : ℚ} (h : p < q) : ⌊p⌋ ≤ ⌈q⌉ - 1 := by
  have hlt : ((⌊p⌋ : Int) : ℚ) < ⌈q⌉ := (Int.floor_le p).trans_lt (h.trans_le (Int.le_ceil q))
  exact Int.le_sub_one_of_lt (Int.cast_lt.1 hlt)

theorem axisRange_le (hsize : 0 < size) : (axisRange lo hi origin size).1 ≤
    (axisRange lo hi origin size).2 := by
  rw [axisRange]
  dsimp only
  split
  · exact le_rfl
  · next h =>
    refine floor_lt_ceil ?_
    exact div_lt_div_of_pos_right (by linarith [not_le.1 h]) hsize

/-- **The cells that meet an interval** are those from the first index to the last. -/
theorem meets_iff (hsize : 0 < size) (i : Int) :
    (∃ x, InAxis lo hi x ∧ InCell origin size i x) ↔
      (axisRange lo hi origin size).1 ≤ i ∧ i ≤ (axisRange lo hi origin size).2 := by
  simp only [inCell_iff hsize, InAxis, axisRange]
  by_cases h : lo < hi
  · rw [if_neg (not_le.2 h)]
    simp only [if_pos h]
    constructor
    · rintro ⟨x, ⟨hlo, hhi⟩, rfl⟩
      refine ⟨Int.floor_le_floor ?_, floor_lt_ceil ?_⟩
      · exact div_le_div_of_nonneg_right (by linarith) hsize.le
      · exact div_lt_div_of_pos_right (by linarith) hsize
    · rintro ⟨hfirst, hlast⟩
      -- The lower edge of the cell, or that of the interval.
      refine ⟨max lo (origin + i * size), ⟨le_max_left _ _, max_lt h ?_⟩, ?_⟩
      · have hlt : (i : ℚ) < (hi - origin) / size := Int.lt_ceil.1 (by omega)
        rw [lt_div_iff₀ hsize] at hlt
        linarith
      · rw [eq_comm, Int.floor_eq_iff, le_div_iff₀ hsize, div_lt_iff₀ hsize]
        have hlt : (lo - origin) / size < i + 1 := Int.floor_le_iff.1 hfirst
        rw [div_lt_iff₀ hsize] at hlt
        refine ⟨by linarith [le_max_right lo (origin + i * size)], ?_⟩
        rw [sub_lt_iff_lt_add]
        refine max_lt (by linarith) ?_
        rw [add_mul, one_mul]
        linarith
  · rw [if_pos (not_lt.1 h)]
    simp only [if_neg h]
    constructor
    · rintro ⟨x, rfl, rfl⟩
      exact ⟨le_rfl, le_rfl⟩
    · rintro ⟨hfirst, hlast⟩
      exact ⟨lo, rfl, le_antisymm hlast hfirst⟩

/-- The cell of the centre is one of them. -/
theorem centreOf_mem (hsize : 0 < size) (h : lo ≤ hi) :
    (axisRange lo hi origin size).1 ≤ centreOf lo hi origin size ∧
      centreOf lo hi origin size ≤ (axisRange lo hi origin size).2 := by
  rw [← meets_iff hsize]
  refine ⟨(lo + hi) / 2, ?_, (inCell_iff hsize).2 rfl⟩
  rw [InAxis]
  split
  · next hlt => exact ⟨by linarith, by linarith⟩
  · next hlt => linarith [not_lt.1 hlt]

/-- Every coordinate of the closed interval is in the closed interval of one of them. -/
theorem exists_closed (hsize : 0 < size) {x : ℚ} (hlo : lo ≤ x) (hhi : x ≤ hi) :
    ∃ i : Int, ((axisRange lo hi origin size).1 ≤ i ∧ i ≤ (axisRange lo hi origin size).2) ∧
      origin + i * size ≤ x ∧ x ≤ origin + i * size + size := by
  by_cases hx : lo = hi ∨ x < hi
  · refine ⟨⌊(x - origin) / size⌋, ?_, ?_⟩
    · rw [← meets_iff hsize]
      refine ⟨x, ?_, (inCell_iff hsize).2 rfl⟩
      rw [InAxis]
      split
      · next hlt => exact ⟨hlo, hx.resolve_left hlt.ne⟩
      · next hlt => linarith [not_lt.1 hlt]
    · have hcell := (@inCell_iff origin size hsize ⌊(x - origin) / size⌋ x).2 rfl
      exact ⟨hcell.1, hcell.2.le⟩
  · -- The upper edge, which the last cell ends with or holds.
    rw [not_or, not_lt] at hx
    have hxhi : x = hi := le_antisymm hhi hx.2
    subst hxhi
    have hlt : lo < x := lt_of_le_of_ne hlo hx.1
    refine ⟨⌈(x - origin) / size⌉ - 1, ?_, ?_, ?_⟩
    · rw [axisRange, if_neg (not_le.2 hlt)]
      refine ⟨floor_lt_ceil ?_, le_rfl⟩
      exact div_lt_div_of_pos_right (by linarith) hsize
    · have hceil := Int.ceil_lt_add_one ((x - origin) / size)
      have hmul : ((⌈(x - origin) / size⌉ - 1 : Int) : ℚ) < (x - origin) / size := by
        push_cast
        linarith
      rw [lt_div_iff₀ hsize] at hmul
      linarith
    · have hceil := Int.le_ceil ((x - origin) / size)
      rw [div_le_iff₀ hsize] at hceil
      push_cast
      linarith

end

/-! ### Exact arithmetic -/

section

variable {p q : ℚ} {m n : Int}

theorem exact_add : Rounding.exact.add (finite p) (finite q) = finite (p + q) := rfl

theorem exact_sub : Rounding.exact.sub (finite p) (finite q) = finite (p - q) :=
  congrArg finite (sub_eq_add_neg p q).symm

theorem exact_mul : Rounding.exact.mul (finite p) (finite q) = finite (p * q) := rfl

theorem exact_div (hq : q ≠ 0) : Rounding.exact.div (finite p) (finite q) = finite (p / q) :=
  if_neg hq

theorem exact_sub_ofInt : Rounding.exact.sub (ofInt m) (ofInt n) = ofInt (m - n) := by
  rw [ofInt, ofInt, exact_sub, ofInt, Int.cast_sub]

theorem exact_add_ofInt : Rounding.exact.add (ofInt m) (ofInt n) = ofInt (m + n) := by
  rw [ofInt, ofInt, exact_add, ofInt, Int.cast_add]

theorem exact_mul_ofInt : Rounding.exact.mul (ofInt m) (ofInt n) = ofInt (m * n) := by
  rw [ofInt, ofInt, exact_mul, ofInt, Int.cast_mul]

end

section

variable {lo hi origin size : ℚ}

theorem coveringIndexRange_exact (hsize : 0 < size) :
    coveringIndexRange .exact (finite lo) (finite hi) (finite origin) (finite size) =
      (ofInt (axisRange lo hi origin size).1, ofInt (axisRange lo hi origin size).2) := by
  rw [coveringIndexRange, exact_sub, exact_div hsize.ne', axisRange]
  dsimp only
  by_cases h : hi ≤ lo
  · rw [if_pos (le_finite.2 h), if_pos h]
    rfl
  · rw [if_neg (mt le_finite.1 h), if_neg h, exact_sub, exact_div hsize.ne']
    -- The last cell does not start where the interval ends.
    have hlast : (if (finite ((hi - origin) / size)).isInteger = true then
        Rounding.exact.sub (finite ((hi - origin) / size)).floor (ofInt 1)
        else (finite ((hi - origin) / size)).floor) = ofInt (⌈(hi - origin) / size⌉ - 1) := by
      by_cases hint : (finite ((hi - origin) / size)).isInteger = true
      · rw [if_pos hint]
        obtain ⟨n, hn⟩ := isInt_iff.1 hint
        rw [hn, Int.ceil_intCast]
        exact (congrArg (Rounding.exact.sub · (ofInt 1))
          (congrArg ofInt (Int.floor_intCast n))).trans exact_sub_ofInt
      · rw [if_neg hint]
        refine congrArg ofInt ?_
        have hceil : ⌈(hi - origin) / size⌉ = ⌊(hi - origin) / size⌋ + 1 := by
          rw [Int.ceil_eq_iff]
          push_cast
          refine ⟨?_, (Int.lt_floor_add_one _).le⟩
          rw [add_sub_cancel_right]
          refine lt_of_le_of_ne (Int.floor_le _) fun heq => hint ?_
          exact isInt_iff.2 ⟨_, heq.symm⟩
        omega
    rw [hlast]
    refine Prod.ext rfl ?_
    change Rounded.max (ofInt (⌈(hi - origin) / size⌉ - 1)) (ofInt ⌊(lo - origin) / size⌋) =
      ofInt (⌈(hi - origin) / size⌉ - 1)
    rw [max_ofInt, max_eq_left]
    refine floor_lt_ceil ?_
    exact div_lt_div_of_pos_right (by linarith [not_le.1 h]) hsize

theorem centreIndex_exact (hsize : 0 < size) :
    centreIndex .exact (finite lo) (finite hi) (finite origin) (finite size) =
      ofInt (centreOf lo hi origin size) := by
  have htwo : Rounding.exact.div (finite (hi - lo)) (ofInt 2) = finite ((hi - lo) / 2) := by
    rw [ofInt, exact_div (by norm_num)]
    norm_num
  rw [centreIndex, exact_sub, htwo, exact_add, exact_sub, exact_div hsize.ne', centreOf,
    show lo + (hi - lo) / 2 = (lo + hi) / 2 by ring]
  rfl

end

/-- The window around an index, cut to a range. -/
def windowInts (centre : Int) (range : Int × Int) : Int × Int :=
  (max range.1 (centre - COVER_WINDOW_CELLS_PER_AXIS / 2),
    min range.2 (centre + COVER_WINDOW_CELLS_PER_AXIS / 2 - 1))

theorem windowRange_exact (centre : Int) (range : Int × Int) :
    windowRange .exact (ofInt centre) (ofInt range.1, ofInt range.2) =
      (ofInt (windowInts centre range).1, ofInt (windowInts centre range).2) := by
  have hwindow : COVER_WINDOW_CELLS_PER_AXIS = 256 := rfl
  rw [windowRange, exact_sub_ofInt, exact_add_ofInt, exact_sub_ofInt, max_ofInt, min_ofInt,
    windowInts, show centre - COVER_WINDOW_CELLS_PER_AXIS / 2 + COVER_WINDOW_CELLS_PER_AXIS - 1 =
      centre + COVER_WINDOW_CELLS_PER_AXIS / 2 - 1 by omega]

theorem exact_max (p q : ℚ) : Rounded.max (finite p) (finite q) = finite (Max.max p q) := by
  rw [Rounded.max]
  · by_cases h : p ≤ q
    · rw [if_pos (le_finite.2 h), max_eq_right h]
    · rw [if_neg (mt le_finite.1 h), max_eq_left (not_le.1 h).le]
  · nofun
  · nofun

/-- The frame of an anchor has cells with a size, whatever the anchor's own size is. -/
theorem deriveTileGridFrame_exact (xmin ymin xmax ymax : ℚ) (unit : CrsUnit) :
    ∃ f : ExactFrame, deriveTileGridFrame .exact
      ⟨finite xmin, finite ymin, finite xmax, finite ymax⟩ unit = f.numbers := by
  obtain ⟨least, hpos, hleast⟩ : ∃ q : ℚ, 0 < q ∧ MIN_ANCHOR_SPAN .exact unit = finite q := by
    cases unit
    · exact ⟨1 / 1000000, by norm_num, rfl⟩
    all_goals exact ⟨(1 : Int), by norm_num, rfl⟩
  have htwo : ((2 : Int) : ℚ) ≠ 0 := by norm_num
  obtain ⟨span, hspan⟩ : ∃ span, span = Max.max (Max.max (xmax - xmin) (ymax - ymin)) least *
    ((2 : Int) : ℚ) := ⟨_, rfl⟩
  have hspan_pos : 0 < span := by
    rw [hspan]
    exact mul_pos (lt_max_of_lt_right hpos) (by norm_num)
  refine ⟨⟨(xmin + xmax) / (2 : Int) - span / (2 : Int), (ymin + ymax) / (2 : Int) - span / (2 : Int),
    span, hspan_pos⟩, ?_⟩
  rw [deriveTileGridFrame, hleast, exact_sub, exact_sub, exact_max, exact_max, PAD_FACTOR, ofInt,
    exact_mul, ← hspan, exact_add, exact_add, exact_div htwo, exact_div htwo, exact_div htwo,
    exact_sub, exact_sub]
  rfl

namespace ExactFrame

variable (f : ExactFrame) (level : TileGridLevel) (b : ExactBbox)

theorem dimension_pos : (0 : ℚ) < TILE_GRID_DIMENSIONS level := by
  cases level <;> norm_num [TILE_GRID_DIMENSIONS]

theorem cellSize_pos : 0 < f.cellSize level := div_pos f.positive (dimension_pos level)

theorem cellSizeForLevel_eq : cellSizeForLevel .exact f.numbers level = finite (f.cellSize level) :=
  exact_div (dimension_pos level).ne'

/-- The rows, and the columns, of the cells that meet a box. -/
def rows : Int × Int := axisRange b.ymin b.ymax f.originY (f.cellSize level)

def cols : Int × Int := axisRange b.xmin b.xmax f.originX (f.cellSize level)

def winRows : Int × Int :=
  windowInts (centreOf b.ymin b.ymax f.originY (f.cellSize level)) (f.rows level b)

def winCols : Int × Int :=
  windowInts (centreOf b.xmin b.xmax f.originX (f.cellSize level)) (f.cols level b)

theorem coveringIndexRanges_eq : coveringIndexRanges .exact f.numbers level b.numbers =
    ⟨finite (f.cellSize level), (ofInt (f.cols level b).1, ofInt (f.cols level b).2),
      (ofInt (f.rows level b).1, ofInt (f.rows level b).2)⟩ := by
  rw [coveringIndexRanges, cellSizeForLevel_eq]
  exact congrArg₂ (IndexRanges.mk _) (coveringIndexRange_exact (f.cellSize_pos level))
    (coveringIndexRange_exact (f.cellSize_pos level))

theorem meetsBox_iff (key : TileKey) : MeetsBox f level b key ↔
    ((f.cols level b).1 ≤ key.col ∧ key.col ≤ (f.cols level b).2) ∧
      (f.rows level b).1 ≤ key.row ∧ key.row ≤ (f.rows level b).2 := by
  rw [MeetsBox, meets_iff (f.cellSize_pos level), meets_iff (f.cellSize_pos level)]
  rfl

/-- The cells that meet a box. -/
def meeting : List TileKey := Canvas.materialiseCells (f.rows level b) (f.cols level b)

theorem coveringCellCount_eq : coveringCellCount .exact f.numbers level b.numbers =
    ofInt (f.meeting level b).length := by
  have hrows := @axisRange_le b.ymin b.ymax f.originY _ (f.cellSize_pos level)
  have hcols := @axisRange_le b.xmin b.xmax f.originX _ (f.cellSize_pos level)
  have hlength := @length_cellsOf (f.rows level b) (f.cols level b) hrows hcols
  rw [cellsOf, List.length_map] at hlength
  rw [coveringCellCount, coveringIndexRanges_eq, meeting, hlength]
  dsimp only [span]
  rw [exact_sub_ofInt, exact_sub_ofInt, exact_add_ofInt, exact_add_ofInt, exact_mul_ofInt, mul_comm]

end ExactFrame

theorem mem_materialiseCells {rows cols : Int × Int} {key : TileKey} :
    key ∈ Canvas.materialiseCells rows cols ↔
      (cols.1 ≤ key.col ∧ key.col ≤ cols.2) ∧ rows.1 ≤ key.row ∧ key.row ≤ rows.2 := by
  rw [Canvas.materialiseCells, List.mem_flatMap]
  constructor
  · rintro ⟨row, hrow, hkey⟩
    obtain ⟨col, hcol, rfl⟩ := List.mem_map.1 hkey
    exact ⟨mem_indices.1 hcol, mem_indices.1 hrow⟩
  · rintro ⟨hcol, hrow⟩
    exact ⟨key.row, mem_indices.2 hrow, List.mem_map.2 ⟨key.col, mem_indices.2 hcol, rfl⟩⟩

theorem pairwise_indices (range : Int × Int) : (indices range).Pairwise (· < ·) := by
  rw [indices, Int.range, List.pairwise_map]
  refine List.pairwise_lt_range.imp fun h => ?_
  omega

theorem rowMajor_materialiseCells (rows cols : Int × Int) :
    (Canvas.materialiseCells rows cols).Pairwise RowMajor := by
  rw [Canvas.materialiseCells, List.pairwise_flatMap]
  constructor
  · intro row _
    rw [List.pairwise_map]
    exact (pairwise_indices cols).imp fun h => .inr ⟨rfl, h⟩
  · refine (pairwise_indices rows).imp fun h key hkey key' hkey' => ?_
    obtain ⟨col, _, rfl⟩ := List.mem_map.1 hkey
    obtain ⟨col', _, rfl⟩ := List.mem_map.1 hkey'
    exact .inl h

/-! ### The names of cells -/

theorem decimalValue_digits {cs : List Char} (hne : cs ≠ []) (h : ∀ c ∈ cs, c.isDigit = true) :
    decimalValue cs = some (F64.digitsNumber cs : ℚ) := by
  have hmark : ∀ c ∈ cs, (!F64.isExponentMark c) = true := by
    intro c hc
    have he : c ≠ 'e' := F64.digit_ne (h c hc) (by decide)
    have hE : c ≠ 'E' := F64.digit_ne (h c hc) (by decide)
    simp [F64.isExponentMark, he, hE]
  have hpoint : ∀ c ∈ cs, decide (c ≠ '.') = true := fun c hc =>
    decide_eq_true (F64.digit_ne (h c hc) (by decide))
  have htake := List.takeWhile_eq_self_iff.2 hmark
  have hdrop := List.dropWhile_eq_nil_iff.2 hmark
  have hsplit : F64.splitPoint cs = some (cs, []) := by
    rw [F64.splitPoint, List.takeWhile_eq_self_iff.2 hpoint, List.dropWhile_eq_nil_iff.2 hpoint, List.drop_nil,
      List.append_nil, if_pos ⟨List.all_eq_true.2 h, hne⟩]
  rw [decimalValue, htake, hdrop, hsplit]
  dsimp only [bind, Option.bind, F64.parseExponent]
  rw [List.append_nil, F64.digitsValue_eq hne h]
  simp

theorem isSpace_digit {c : Char} (h : c.isDigit = true) : isSpace c = false := by
  obtain ⟨hlt, hc⟩ := F64.digit_eq h
  rw [← hc]
  generalize digitValue c = n at hlt
  interval_cases n <;> decide

theorem trim_eq {cs : List Char} (h : ∀ c ∈ cs, isSpace c = false) : Text.trimOf isSpace cs = cs := by
  have hdrop : ∀ ds : List Char, (∀ c ∈ ds, isSpace c = false) → ds.dropWhile isSpace = ds := by
    intro ds hds
    cases ds with
    | nil => rfl
    | cons d ds =>
      exact List.dropWhile_cons_of_neg (Bool.eq_false_iff.1 (hds d List.mem_cons_self))
  rw [Text.trimOf, Text.trimStartOf, hdrop cs h, Text.trimEndOf,
    hdrop cs.reverse fun c hc => h c (List.mem_reverse.1 hc), List.reverse_reverse]

/-- The number a text of digits stands for, behind a sign. -/
theorem number_text (neg : Bool) {cs : List Char} (hne : cs ≠ []) (h : ∀ c ∈ cs, c.isDigit = true) :
    number .exact (String.ofList (if neg then '-' :: cs else cs)) =
      .finite (if neg then -(F64.digitsNumber cs : ℚ) else F64.digitsNumber cs) := by
  have hword : cs ≠ "Infinity".toList := by
    rintro rfl
    exact absurd (h 'I' (by decide)) (by decide)
  have hletter : ∀ c : Char, c.isDigit = false → c ∉ cs := fun c hc hmem =>
    Bool.false_ne_true (hc.symm.trans (h c hmem))
  have hsign : splitSign (if neg then '-' :: cs else cs) = (neg, cs) := by
    cases neg with
    | true => rfl
    | false =>
      change splitSign cs = (false, cs)
      cases cs with
      | nil => exact absurd rfl hne
      | cons c cs =>
        have hc := h c List.mem_cons_self
        unfold splitSign
        split
        · next heq =>
          obtain ⟨rfl, -⟩ := List.cons.inj heq
          exact absurd hc (by decide)
        · next heq =>
          obtain ⟨rfl, -⟩ := List.cons.inj heq
          exact absurd hc (by decide)
        · rfl
  have hspace : ∀ c ∈ (if neg then '-' :: cs else cs), isSpace c = false := by
    cases neg with
    | true =>
      intro c hc
      rcases List.mem_cons.1 hc with rfl | hc
      · decide
      · exact isSpace_digit (h c hc)
    | false => exact fun c hc => isSpace_digit (h c hc)
  -- A letter behind the first digit would be a base.
  have hbase : ∀ (c : Char) (ds : List Char), c.isDigit = false →
      (if neg then '-' :: cs else cs) ≠ '0' :: c :: ds := by
    intro c ds hc heq
    cases neg with
    | true => exact absurd (List.cons.inj heq).1 (by decide)
    | false =>
      refine hletter c hc ?_
      have heq' : cs = '0' :: c :: ds := heq
      rw [heq']
      exact List.mem_cons_of_mem _ List.mem_cons_self
  rw [number, String.toList_ofList, trim_eq hspace]
  dsimp only
  split
  · next heq =>
    cases neg with
    | true => cases heq
    | false => exact absurd heq hne
  · next heq => exact absurd heq (hbase _ _ (by decide))
  · next heq => exact absurd heq (hbase _ _ (by decide))
  · next heq => exact absurd heq (hbase _ _ (by decide))
  · next heq => exact absurd heq (hbase _ _ (by decide))
  · next heq => exact absurd heq (hbase _ _ (by decide))
  · next heq => exact absurd heq (hbase _ _ (by decide))
  · rw [hsign]
    dsimp only
    rw [if_neg hword, decimalValue_digits hne h]
    rfl

theorem number_repr (n : Int) : number .exact (String.ofList n.repr.toList) = ofInt n := by
  have hdigits : ∀ k : Nat, ∀ c ∈ k.repr.toList, c.isDigit = true := fun k c hc =>
    isDigit_of_mem_repr hc
  have hne : ∀ k : Nat, k.repr.toList ≠ [] := fun k => by
    rw [Nat.toList_repr]
    exact Nat.toDigits_ne_nil
  have hvalue : ∀ k : Nat, F64.digitsNumber k.repr.toList = k := fun k => by
    rw [Nat.toList_repr, F64.digitsNumber_toDigits]
  rw [toList_repr]
  by_cases h : 0 ≤ n
  · rw [if_pos h]
    have htext := number_text false (hne n.toNat) (hdigits _)
    rw [if_neg Bool.false_ne_true, if_neg Bool.false_ne_true, hvalue] at htext
    rw [htext, ofInt]
    refine congrArg finite ?_
    exact_mod_cast Int.toNat_of_nonneg h
  · rw [if_neg h]
    have htext := number_text true (hne (-n).toNat) (hdigits _)
    rw [if_pos rfl, if_pos rfl, hvalue] at htext
    rw [htext, ofInt]
    refine congrArg finite ?_
    have hcast : (((-n).toNat : Int) : ℚ) = ((-n : Int) : ℚ) :=
      congrArg _ (Int.toNat_of_nonneg (by omega))
    push_cast at hcast
    rw [show (((-n).toNat : Nat) : ℚ) = -(n : ℚ) from hcast, neg_neg]

theorem parseTileKeyOrNull_name (key : TileKey) :
    parseTileKeyOrNull .exact (tileKeyToString key) = some (Cell.ofKey key) := by
  have hname : (tileKeyToString key).toList = key.row.repr.toList ++ ':' :: key.col.repr.toList := by
    rw [tileKeyToString, String.toList_append, String.toList_append, List.append_assoc]
    rfl
  rw [parseTileKeyOrNull, hname, List.splitOn_append_cons_self,
    List.splitOn_eq_singleton (colon_notMem_repr key.row),
    List.splitOn_eq_singleton (colon_notMem_repr key.col), List.singleton_append]
  dsimp only
  rw [number_repr, number_repr]
  rfl

/-! ### Covers -/

theorem walks_ofInt {range ints : Int × Int} :
    Walks (ofInt range.1, ofInt range.2) ints ↔
      ints = range ∧ -(EXACT - 1) ≤ range.1 ∧ range.1 ≤ range.2 ∧ range.2 ≤ EXACT - 1 := by
  constructor
  · rintro ⟨heq, hlow, hordered, hhigh⟩
    have hints : ints = range :=
      Prod.ext (ofInt_injective (Prod.mk.inj heq).1).symm (ofInt_injective (Prod.mk.inj heq).2).symm
    subst hints
    exact ⟨rfl, hlow, hordered, hhigh⟩
  · rintro ⟨rfl, hlow, hordered, hhigh⟩
    exact ⟨rfl, hlow, hordered, hhigh⟩

/-- A window around an index of a range holds it, and is a part of the range. -/
theorem windowInts_mem {centre : Int} {range : Int × Int} (hlow : range.1 ≤ centre)
    (hhigh : centre ≤ range.2) :
    ((windowInts centre range).1 ≤ centre ∧ centre ≤ (windowInts centre range).2) ∧
      range.1 ≤ (windowInts centre range).1 ∧ (windowInts centre range).2 ≤ range.2 := by
  have hwindow : COVER_WINDOW_CELLS_PER_AXIS = 256 := rfl
  rw [windowInts]
  omega

/-- The indices of a range are safe integers. -/
def Safe (range : Int × Int) : Prop := -(EXACT - 1) ≤ range.1 ∧ range.2 ≤ EXACT - 1

/-- No more indices than a window has. -/
def Narrow (range : Int × Int) : Prop := range.2 - range.1 + 1 ≤ COVER_WINDOW_CELLS_PER_AXIS

/-- What a cover of the cells that meet a box is: all of them, or a window of them. -/
def Shows (f : ExactFrame) (level : TileGridLevel) (b : ExactBbox) (all cells : List TileKey) :
    TileCover → Prop
  | .complete _ cellCount => cells = all ∧ cellCount = ofInt all.length
  | .truncated _ cellCount omittedCellCount =>
    cellCount = ofInt all.length ∧ omittedCellCount = ofInt (all.length - cells.length) ∧
      cells ⊆ all ∧
      (∃ rows cols, Narrow rows ∧ Narrow cols ∧ cells = Canvas.materialiseCells rows cols) ∧
      (Safe (f.winRows level b) ∧ Safe (f.winCols level b) → ∃ key ∈ cells, HoldsCentre f level b key) ∧
      (¬(Safe (f.winRows level b) ∧ Safe (f.winCols level b)) → cells = [])

namespace ExactFrame

variable (f : ExactFrame) (level : TileGridLevel) (b : ExactBbox)

theorem mem_meeting (key : TileKey) : key ∈ f.meeting level b ↔ MeetsBox f level b key := by
  rw [meeting, mem_materialiseCells, meetsBox_iff]

theorem membership_iff (key : TileKey) :
    coverMembershipFor .exact f.numbers level b.numbers (tileKeyToString key) = true ↔
      key ∈ f.meeting level b := by
  have hfinite : ∀ n, (ofInt n).isFinite = true := fun _ => rfl
  rw [coverMembershipFor, coveringIndexRanges_eq, parseTileKeyOrNull_name, meeting,
    mem_materialiseCells]
  simp [hfinite, within, Cell.ofKey, le_ofInt]

theorem tileBbox_eq (key : TileKey) : tileBbox .exact f.numbers level (.ofKey key) =
    ⟨finite (f.originX + key.col * f.cellSize level), finite (f.originY + key.row * f.cellSize level),
      finite (f.originX + key.col * f.cellSize level + f.cellSize level),
      finite (f.originY + key.row * f.cellSize level + f.cellSize level)⟩ := by
  rw [tileBbox, cellSizeForLevel_eq]
  rfl

/-- The closed boxes of the cells that meet a box contain it. -/
theorem exists_inTile {x y : ℚ} (hx : b.xmin ≤ x ∧ x ≤ b.xmax) (hy : b.ymin ≤ y ∧ y ≤ b.ymax) :
    ∃ key ∈ f.meeting level b, InTile f level key x y := by
  have hsize := f.cellSize_pos level
  obtain ⟨col, hcol, hxcol⟩ := @exists_closed _ _ f.originX _ hsize _ hx.1 hx.2
  obtain ⟨row, hrow, hyrow⟩ := @exists_closed _ _ f.originY _ hsize _ hy.1 hy.2
  refine ⟨⟨row, col⟩, mem_materialiseCells.2 ⟨hcol, hrow⟩, ?_⟩
  exact ⟨_, _, _, _, f.tileBbox_eq level ⟨row, col⟩, hxcol.1, hxcol.2, hyrow.1, hyrow.2⟩

theorem holdsCentre : HoldsCentre f level b
    ⟨centreOf b.ymin b.ymax f.originY (f.cellSize level),
      centreOf b.xmin b.xmax f.originX (f.cellSize level)⟩ :=
  ⟨(inCell_iff (f.cellSize_pos level)).2 rfl, (inCell_iff (f.cellSize_pos level)).2 rfl⟩

theorem winRows_mem :
    ((f.winRows level b).1 ≤ centreOf b.ymin b.ymax f.originY (f.cellSize level) ∧
        centreOf b.ymin b.ymax f.originY (f.cellSize level) ≤ (f.winRows level b).2) ∧
      (f.rows level b).1 ≤ (f.winRows level b).1 ∧ (f.winRows level b).2 ≤ (f.rows level b).2 := by
  have hcentre := @centreOf_mem _ _ f.originY _ (f.cellSize_pos level) b.yle
  exact windowInts_mem hcentre.1 hcentre.2

theorem winCols_mem :
    ((f.winCols level b).1 ≤ centreOf b.xmin b.xmax f.originX (f.cellSize level) ∧
        centreOf b.xmin b.xmax f.originX (f.cellSize level) ≤ (f.winCols level b).2) ∧
      (f.cols level b).1 ≤ (f.winCols level b).1 ∧ (f.winCols level b).2 ≤ (f.cols level b).2 := by
  have hcentre := @centreOf_mem _ _ f.originX _ (f.cellSize_pos level) b.xle
  exact windowInts_mem hcentre.1 hcentre.2

/-- The cells of the window. -/
def window : List TileKey := Canvas.materialiseCells (f.winRows level b) (f.winCols level b)

theorem window_subset : f.window level b ⊆ f.meeting level b := by
  intro key hkey
  obtain ⟨hcol, hrow⟩ := mem_materialiseCells.1 hkey
  have hcols := f.winCols_mem level b
  have hrows := f.winRows_mem level b
  exact mem_materialiseCells.2 ⟨by omega, by omega⟩

theorem centre_mem_window : ∃ key ∈ f.window level b, HoldsCentre f level b key :=
  ⟨_, mem_materialiseCells.2 ⟨(f.winCols_mem level b).1, (f.winRows_mem level b).1⟩,
    f.holdsCentre level b⟩

/-- A cover of a box shows the cells that meet it. -/
theorem exists_shows : ∃ cover cells, (∀ fuel, MAX_COVERING_TILES.toNat < fuel →
      tileCoverForBbox .exact fuel f.numbers level b.numbers = some cover) ∧
    cover.keys = cells.map Cell.ofKey ∧ Shows f level b (f.meeting level b) cells cover := by
  obtain ⟨cover, hcover, hcovers⟩ := exists_cover .exact f.numbers level b.numbers
  have hsize := f.cellSize_pos level
  have hwinRows : windowRange .exact (centreIndex .exact b.numbers.ymin b.numbers.ymax
      f.numbers.originY (cellSizeForLevel .exact f.numbers level))
      (ofInt (f.rows level b).1, ofInt (f.rows level b).2) =
        (ofInt (f.winRows level b).1, ofInt (f.winRows level b).2) := by
    rw [cellSizeForLevel_eq]
    exact (congrArg (windowRange .exact · _) (centreIndex_exact hsize)).trans (windowRange_exact _ _)
  have hwinCols : windowRange .exact (centreIndex .exact b.numbers.xmin b.numbers.xmax
      f.numbers.originX (cellSizeForLevel .exact f.numbers level))
      (ofInt (f.cols level b).1, ofInt (f.cols level b).2) =
        (ofInt (f.winCols level b).1, ofInt (f.winCols level b).2) := by
    rw [cellSizeForLevel_eq]
    exact (congrArg (windowRange .exact · _) (centreIndex_exact hsize)).trans (windowRange_exact _ _)
  rw [coveringIndexRanges_eq, coveringCellCount_eq] at hcovers
  dsimp only at hcovers
  rw [hwinRows, hwinCols] at hcovers
  have hrows := f.winRows_mem level b
  have hcols := f.winCols_mem level b
  cases hcovers with
  | complete hr hc hcount =>
    obtain ⟨rfl, -⟩ := walks_ofInt.1 hr
    obtain ⟨rfl, -⟩ := walks_ofInt.1 hc
    exact ⟨_, f.meeting level b, hcover, rfl, rfl, rfl⟩
  | window hr hc hrow hcol =>
    obtain ⟨rfl, hr'⟩ := walks_ofInt.1 hr
    obtain ⟨rfl, hc'⟩ := walks_ofInt.1 hc
    refine ⟨_, f.window level b, hcover, rfl, rfl, ?_, f.window_subset level b,
      ⟨_, _, hrow, hcol, rfl⟩, fun _ => f.centre_mem_window level b, fun hsafe => ?_⟩
    · rw [exact_sub_ofInt, cellsOf, List.length_map]
      rfl
    · exact absurd ⟨⟨hr'.1, hr'.2.2⟩, hc'.1, hc'.2.2⟩ hsafe
  | nothing hnone =>
    have hsafe : ¬(Safe (f.winRows level b) ∧ Safe (f.winCols level b)) := by
      rintro ⟨hr, hc⟩
      rcases hnone with hnone | hnone
      · exact hnone _ (walks_ofInt.2 ⟨rfl, hr.1, by omega, hr.2⟩)
      · exact hnone _ (walks_ofInt.2 ⟨rfl, hc.1, by omega, hc.2⟩)
    refine ⟨_, [], hcover, rfl, rfl, ?_, List.nil_subset _, ?_, fun h => absurd h hsafe, fun _ => rfl⟩
    · rw [List.length_nil, Nat.cast_zero, sub_zero]
    · exact ⟨(1, 0), (1, 0), by rw [Narrow]; decide, by rw [Narrow]; decide, rfl⟩

end ExactFrame

/-- **A cover shows the cells that meet a box**: a complete one all of them, in their order, and a
truncated one a window of them.  The membership of the box holds exactly these cells, and they contain
the box.  Whatever the numbers of a box are, its cover ends within the bound. -/
theorem cover_shows : (∀ (f : ExactFrame) (level : TileGridLevel) (b : ExactBbox),
      ∃ (cover : TileCover) (cells all : List TileKey),
        (∀ fuel, MAX_COVERING_TILES.toNat < fuel →
          tileCoverForBbox .exact fuel f.numbers level b.numbers = some cover) ∧
        cover.keys = cells.map Cell.ofKey ∧ (cells.length : Int) ≤ MAX_COVERING_TILES ∧
        cells.Pairwise RowMajor ∧ all.Pairwise RowMajor ∧
        (∀ key, key ∈ all ↔ MeetsBox f level b key) ∧ Shows f level b all cells cover ∧
        (∀ key, coverMembershipFor .exact f.numbers level b.numbers (tileKeyToString key) = true ↔
          key ∈ all) ∧
        ∀ x y, b.xmin ≤ x ∧ x ≤ b.xmax → b.ymin ≤ y ∧ y ≤ b.ymax →
          ∃ key ∈ all, InTile f level key x y) ∧
    ∀ (r : Rounding) (frame : TileGridFrame) (level : TileGridLevel) (bbox : BboxNumbers),
      ∃ cover, (∀ fuel, MAX_COVERING_TILES.toNat < fuel →
          tileCoverForBbox r fuel frame level bbox = some cover) ∧
        (cover.keys.length : Int) ≤ MAX_COVERING_TILES := by
  refine ⟨fun f level b => ?_, cover_bounded⟩
  obtain ⟨cover, cells, hcover, hkeys, hshows⟩ := f.exists_shows level b
  have hlength : (cells.length : Int) ≤ MAX_COVERING_TILES := by
    obtain ⟨cover', hcover', hbound⟩ := cover_bounded .exact f.numbers level b.numbers
    have hsame : cover = cover' := Option.some.inj
      ((hcover _ (Nat.lt_succ_self _)).symm.trans (hcover' _ (Nat.lt_succ_self _)))
    rw [← hsame, hkeys, List.length_map] at hbound
    exact hbound
  have hordered : cells.Pairwise RowMajor := by
    cases cover with
    | complete keys count =>
      rw [hshows.1]
      exact rowMajor_materialiseCells _ _
    | truncated keys count omitted =>
      obtain ⟨-, -, -, ⟨rows, cols, -, -, rfl⟩, -⟩ := hshows
      exact rowMajor_materialiseCells _ _
  exact ⟨cover, cells, f.meeting level b, hcover, hkeys, hlength, hordered,
    rowMajor_materialiseCells _ _, f.mem_meeting level b, hshows, f.membership_iff level b,
    fun x y hx hy => f.exists_inTile level b hx hy⟩

/-- A frame with cells of one unit. -/
def unitFrame : ExactFrame := ⟨0, 0, 8, by norm_num⟩

/-- A point whose index is not a safe integer. -/
def farPoint : ExactBbox := ⟨EXACT, 0, EXACT, 0, le_rfl, le_rfl⟩

/-- Beyond the safe integers a cover lists no cell, and so not that of the centre. -/
theorem cover_far :
    tileCoverForBbox .exact 1 unitFrame.numbers .coarse farPoint.numbers =
        some (.truncated [] (ofInt 1) (ofInt 1)) ∧
      HoldsCentre unitFrame .coarse farPoint ⟨0, EXACT⟩ := by
  refine ⟨by decide +kernel, ?_, ?_⟩
  · norm_num [InCell, unitFrame, farPoint, ExactFrame.cellSize, TILE_GRID_DIMENSIONS, EXACT]
  · norm_num [InCell, unitFrame, farPoint, ExactFrame.cellSize, TILE_GRID_DIMENSIONS, EXACT]

end SpatialIde.Shell.Canvas.Cover
