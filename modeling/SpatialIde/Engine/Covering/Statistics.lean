import SpatialIde.Engine.Covering
import SpatialIde.Lib.Decimal
import SpatialIde.Lib.Extremes

/-! # The statistics of the covering

The footer lists the leaf columns of each row group, every path as one text.  `coveringStatistics`
recognises a declared column by that text, commas made points and blanks dropped (`normalize`).  A
column of another path may have the same text then, and its values are folded in as well: the bounds
are those of the declared columns where such a column stays within them (`Owned`).
-/

namespace SpatialIde.Engine.Covering

open Lib

/-- One leaf column of one row group. -/
structure LeafChunk where
  segments : FieldPath
  minValue : Option String
  maxValue : Option String
  deriving DecidableEq, Repr

/-- The same as a row of the statement: the path is one text. -/
structure FooterRow where
  pathInSchema : String
  minValue : Option String
  maxValue : Option String
  deriving DecidableEq, Repr

/-- How a path is written: its segments around a fixed separator. -/
def LeafChunk.row (separator : String) (chunk : LeafChunk) : FooterRow :=
  ⟨separator.intercalate chunk.segments, chunk.minValue, chunk.maxValue⟩

def footerRows (separator : String) (groups : List (List LeafChunk)) : List FooterRow :=
  groups.flatten.map (LeafChunk.row separator)

/-! ### The fold -/

def normalize (s : String) : String :=
  String.ofList ((s.toList.map fun c => if c = ',' then '.' else c).filter (· ≠ ' '))

def FooterRow.text (takeMax : Bool) (row : FooterRow) : Option String :=
  if takeMax then row.maxValue else row.minValue

/-- `prev.max(v)` or `prev.min(v)`. -/
def furthest (takeMax : Bool) : F64 → F64 → F64 := if takeMax then F64.max else F64.min

def extremeLoop (key : String) (takeMax : Bool) : Option F64 → List FooterRow → Option F64
  | out, [] => out
  | out, row :: rows =>
    if normalize row.pathInSchema ≠ key then extremeLoop key takeMax out rows
    else
      match (row.text takeMax).bind F64.parse with
      | none => none
      | some v =>
        match out with
        | some prev => extremeLoop key takeMax (some (furthest takeMax prev v)) rows
        | none => extremeLoop key takeMax (some v) rows

def extreme (rows : List FooterRow) (wanted : FieldPath) (takeMax : Bool) : Option F64 :=
  extremeLoop (dotted wanted) takeMax none rows

/-- `listed` is what the one statement returns. -/
def coveringStatistics (listed : Except EngineError (List FooterRow)) (c : CoveringBbox) :
    Except EngineError (Option (Bbox F64)) :=
  match listed with
  | .error e => .error e
  | .ok rows =>
    match extreme rows c.xmin false, extreme rows c.ymin false, extreme rows c.xmax true,
        extreme rows c.ymax true with
    | some xmin, some ymin, some xmax, some ymax => .ok (some ⟨xmin, ymin, xmax, ymax⟩)
    | _, _, _, _ => .ok none

/-! ### The range check -/

inductive SanityLevel where
  | metadata
  | sample
  | notChecked
  deriving DecidableEq, Repr

def SanityLevel.asStr : SanityLevel → String
  | .metadata => "metadata"
  | .sample => "sample"
  | .notChecked => "none"

/-- `180.0`. -/
def CRS84_MAX_ABS_X : F64 := ⟨0x4066800000000000⟩

/-- `90.0`. -/
def CRS84_MAX_ABS_Y : F64 := ⟨0x4056800000000000⟩

def insideCrs84Domain (b : Bbox F64) : Bool :=
  b.xmin.abs.le CRS84_MAX_ABS_X && b.xmax.abs.le CRS84_MAX_ABS_X && b.ymin.abs.le CRS84_MAX_ABS_Y &&
    b.ymax.abs.le CRS84_MAX_ABS_Y

/-- `display` is how a double is written. -/
def convictOrRecord (display : F64 → String) (level : SanityLevel) (reason : String) (b : Bbox F64)
    (convicts : Bool) : Except EngineError (SanityLevel × String) :=
  if convicts && !insideCrs84Domain b then
    .error (.formatDefaultContradicted
      (s!"at level `{level.asStr}`, {reason}: [{display b.xmin}, {display b.ymin}, " ++
        s!"{display b.xmax}, {display b.ymax}] leaves ±{display CRS84_MAX_ABS_X}/" ++
        s!"±{display CRS84_MAX_ABS_Y}"))
  else if convicts then .ok (level, reason)
  else .ok (level, s!"{reason}; no range check applies, because the CRS is the file's own " ++
    "declaration and only the data's axis order came from the format")

/-! ### Columns -/

/-- The bound a column supplies, by its path and whether it is the greatest that is wanted. -/
abbrev Component := FieldPath × Bool

def components (c : CoveringBbox) : List Component :=
  [(c.xmin, false), (c.ymin, false), (c.xmax, true), (c.ymax, true)]

/-- The bounds in the order of the components. -/
def boundsOf (b : Bbox F64) : List F64 := [b.xmin, b.ymin, b.xmax, b.ymax]

/-- What `furthest` looks for less of. -/
def measure (takeMax : Bool) : F64 → Int := if takeMax then fun x => -x.key else F64.key

/-- The statistic of a chunk at one end, where it can be read. -/
def LeafChunk.statistic (takeMax : Bool) (chunk : LeafChunk) : Option F64 :=
  (if takeMax then chunk.maxValue else chunk.minValue).bind F64.parse

section

variable (separator : String) (groups : List (List LeafChunk))

/-- The chunks of a column. -/
def chunksOf (path : FieldPath) : List LeafChunk := groups.flatten.filter fun c => c.segments = path

/-- The chunks that are taken for the column's. -/
def lookalikes (path : FieldPath) : List LeafChunk :=
  groups.flatten.filter fun c => normalize (separator.intercalate c.segments) = dotted path

def statisticsOf (takeMax : Bool) (chunks : List LeafChunk) : List F64 :=
  chunks.filterMap (LeafChunk.statistic takeMax)

/-- A value is the least or greatest statistic of a column, to which every row group contributes. -/
structure FromColumn (k : Component) (v : F64) : Prop where
  listed : ∀ group ∈ groups, ∃ chunk ∈ group, chunk.segments = k.1
  readable : ∀ chunk ∈ chunksOf groups k.1, (chunk.statistic k.2).isSome = true
  extreme : F64.Extreme (measure k.2) (statisticsOf k.2 (chunksOf groups k.1)) v

/-- Bounds are those of the declared columns, and coordinates are contradicted by a bound of these. -/
structure FromDeclared (c : CoveringBbox) (b : Bbox F64) : Prop where
  bounds : List.Forall₂ (FromColumn groups) (components c) (boundsOf b)
  contradicted : ∀ display level reason e, convictOrRecord display level reason b true = .error e →
    ∃ k ∈ components c, ∃ v ∈ boundsOf b, FromColumn groups k v ∧
      (v.abs.le CRS84_MAX_ABS_X = false ∨ v.abs.le CRS84_MAX_ABS_Y = false)

/-- No statistic is taken for the column's, or one of them cannot be read. -/
def Unread (k : Component) : Prop :=
  lookalikes separator groups k.1 = [] ∨
    ∃ chunk ∈ lookalikes separator groups k.1, chunk.statistic k.2 = none

/-- Every row group has the column, with a statistic; what is taken for the column's lies within its
range, and reaches its end. -/
structure Owned (k : Component) : Prop where
  listed : ∀ group ∈ groups, ∃ chunk ∈ group, chunk.segments = k.1
  readable : ∀ chunk ∈ chunksOf groups k.1, (chunk.statistic k.2).isSome = true
  within : F64.Reaches (measure k.2) (statisticsOf k.2 (chunksOf groups k.1))
    (statisticsOf k.2 (lookalikes separator groups k.1))
  reached : F64.Reaches (measure k.2) (statisticsOf k.2 (lookalikes separator groups k.1))
    (statisticsOf k.2 (chunksOf groups k.1))

end

/-! ### What the fold finds -/

variable {separator : String} {groups : List (List LeafChunk)}

theorem furthest_eq (takeMax : Bool) : furthest takeMax = F64.leastBy (measure takeMax) := by
  cases takeMax <;> rfl

/-- The values one after the other, the first of them where there is none yet. -/
def foldFrom (takeMax : Bool) (out : Option F64) (vs : List F64) : Option F64 :=
  vs.foldl (fun out v => some (out.elim v fun prev => furthest takeMax prev v)) out

/-- The loop reads the statistics of the lookalikes and folds them. -/
theorem extremeLoop_eq (path : FieldPath) (takeMax : Bool) (chunks : List LeafChunk) :
    ∀ out : Option F64,
    extremeLoop (dotted path) takeMax out (chunks.map (LeafChunk.row separator)) =
      ((chunks.filter fun c => normalize (separator.intercalate c.segments) = dotted path).mapM
        (LeafChunk.statistic takeMax)).bind (foldFrom takeMax out) := by
  induction chunks with
  | nil => exact fun out => rfl
  | cons chunk chunks ih =>
    intro out
    rw [List.map_cons, extremeLoop]
    by_cases hlike : normalize (separator.intercalate chunk.segments) = dotted path
    · rw [List.filter_cons_of_pos (by simpa using hlike), List.mapM_cons,
        if_neg (not_not_intro (show normalize (chunk.row separator).pathInSchema = _ from hlike))]
      change (match chunk.statistic takeMax with
        | none => none
        | some v => _) = _
      cases hstat : chunk.statistic takeMax with
      | none => rfl
      | some v =>
        have hrest : ∀ o : Option (List F64), (some v >>= fun v => o >>= fun vs => pure (v :: vs)).bind
            (foldFrom takeMax out) =
            o.bind (foldFrom takeMax (some (out.elim v fun prev => furthest takeMax prev v))) := by
          intro o
          cases o <;> rfl
        rw [hrest, ← ih]
        cases out <;> rfl
    · rw [List.filter_cons_of_neg (by simpa using hlike),
        if_pos (show normalize (chunk.row separator).pathInSchema ≠ _ from hlike), ih]

theorem statisticsOf_of_mapM {takeMax : Bool} {chunks : List LeafChunk} {vs : List F64}
    (h : chunks.mapM (LeafChunk.statistic takeMax) = some vs) : statisticsOf takeMax chunks = vs := by
  induction chunks generalizing vs with
  | nil => exact Option.some.inj h
  | cons chunk chunks ih =>
    rw [List.mapM_cons] at h
    simp only [Option.bind_eq_bind, Option.bind_eq_some_iff, Option.pure_def,
      Option.some.injEq] at h
    obtain ⟨v, hv, vs', hvs, rfl⟩ := h
    rw [statisticsOf, List.filterMap_cons_some hv, ← ih hvs, statisticsOf]

theorem extreme_footerRows (k : Component) :
    extreme (footerRows separator groups) k.1 k.2 =
      ((lookalikes separator groups k.1).mapM (LeafChunk.statistic k.2)).bind
        (foldFrom k.2 none) :=
  extremeLoop_eq k.1 k.2 groups.flatten none

/-- Something is found where something is taken for the column's and all of it can be read. -/
theorem extreme_eq_none_iff (k : Component) :
    extreme (footerRows separator groups) k.1 k.2 = none ↔ Unread separator groups k := by
  rw [extreme_footerRows, Unread]
  constructor
  · intro h
    by_contra hread
    obtain ⟨hne, hall⟩ := not_or.1 hread
    have hsome : ∀ chunk ∈ lookalikes separator groups k.1, ∃ v, chunk.statistic k.2 = some v :=
      fun chunk hchunk => Option.ne_none_iff_exists'.1 fun hnone => hall ⟨chunk, hchunk, hnone⟩
    obtain ⟨vs, hvs⟩ := Lib.exists_mapM hsome
    have hlen := Lib.length_of_mapM hvs
    rw [hvs] at h
    cases vs with
    | nil => exact hne (List.length_eq_zero_iff.1 hlen.symm)
    | cons v vs =>
      have hfold : ∀ (vs : List F64) (v : F64), (foldFrom k.2 (some v) vs).isSome = true := by
        intro vs
        induction vs with
        | nil => exact fun v => rfl
        | cons w vs ih => exact fun v => ih _
      have h' : foldFrom k.2 (some v) vs = none := h
      rw [← Option.not_isSome_iff_eq_none] at h'
      exact h' (hfold vs v)
  · rintro (hnil | ⟨chunk, hchunk, hnone⟩)
    · rw [hnil]
      rfl
    · cases hmap : (lookalikes separator groups k.1).mapM (LeafChunk.statistic k.2) with
      | none => rfl
      | some vs =>
        obtain ⟨v, -, hv⟩ := Lib.exists_mem_of_mapM hmap hchunk
        rw [hnone] at hv
        cases hv

theorem foldFrom_some (takeMax : Bool) (vs : List F64) : ∀ v : F64,
    foldFrom takeMax (some v) vs = some (vs.foldl (F64.leastBy (measure takeMax)) v) := by
  induction vs with
  | nil => exact fun v => rfl
  | cons w vs ih =>
    intro v
    rw [List.foldl_cons, ← ih, ← furthest_eq]
    rfl

/-- What is found is the least or greatest statistic of all that is taken for the column's. -/
theorem extreme_of_eq_some {k : Component} {v : F64}
    (h : extreme (footerRows separator groups) k.1 k.2 = some v) :
    F64.Extreme (measure k.2) (statisticsOf k.2 (lookalikes separator groups k.1)) v := by
  rw [extreme_footerRows, Option.bind_eq_some_iff] at h
  obtain ⟨vs, hvs, hfold⟩ := h
  rw [statisticsOf_of_mapM hvs]
  cases vs with
  | nil => cases hfold
  | cons w vs =>
    have hfold' : foldFrom k.2 (some w) vs = some v := hfold
    rw [foldFrom_some] at hfold'
    obtain rfl := Option.some.inj hfold'
    exact (F64.extreme_singleton (measure k.2) w).foldl vs

/-- A value that is found is the column's own where the column owns what is taken for it. -/
theorem fromColumn_iff {k : Component} {v : F64}
    (h : extreme (footerRows separator groups) k.1 k.2 = some v) :
    FromColumn groups k v ↔ Owned separator groups k := by
  have hextreme := extreme_of_eq_some h
  constructor
  · rintro ⟨hlisted, hreadable, hcolumn⟩
    obtain ⟨-, hwithin, hreached⟩ := hextreme.iff_reaches.1 hcolumn
    exact ⟨hlisted, hreadable, hwithin, hreached⟩
  · rintro ⟨hlisted, hreadable, hwithin, hreached⟩
    refine ⟨hlisted, hreadable, hextreme.iff_reaches.2 ⟨?_, hwithin, hreached⟩⟩
    -- Something is taken for the column's, so there is a row group, which has the column.
    have hlook : lookalikes separator groups k.1 ≠ [] := by
      intro hnil
      rw [(extreme_eq_none_iff k).2 (.inl hnil)] at h
      cases h
    obtain ⟨chunk, hchunk⟩ := List.exists_mem_of_ne_nil _ hlook
    obtain ⟨group, hgroup, -⟩ := List.mem_flatten.1 (List.mem_filter.1 hchunk).1
    obtain ⟨own, hown, hpath⟩ := hlisted group hgroup
    have hmem : own ∈ chunksOf groups k.1 :=
      List.mem_filter.2 ⟨List.mem_flatten.2 ⟨group, hgroup, hown⟩, by simpa using hpath⟩
    obtain ⟨x, hx⟩ := Option.isSome_iff_exists.1 (hreadable own hmem)
    exact List.ne_nil_of_mem (List.mem_filterMap.2 ⟨own, hmem, hx⟩)

/-! ### The bounds -/

theorem coveringStatistics_eq_some_iff {rows : List FooterRow} {c : CoveringBbox} {b : Bbox F64} :
    coveringStatistics (.ok rows) c = .ok (some b) ↔
      List.Forall₂ (fun k v => extreme rows k.1 k.2 = some v) (components c) (boundsOf b) := by
  simp only [components, boundsOf, List.forall₂_cons, List.forall₂_nil_left_iff, and_true,
    coveringStatistics]
  constructor
  · intro h
    split at h
    · next hxmin hymin hxmax hymax =>
      cases h
      exact ⟨hxmin, hymin, hxmax, hymax⟩
    · cases h
  · rintro ⟨hxmin, hymin, hxmax, hymax⟩
    rw [hxmin, hymin, hxmax, hymax]

/-- Bounds outside the domain have one that is. -/
theorem exists_outside {display : F64 → String} {level : SanityLevel} {reason : String} {b : Bbox F64}
    {e : EngineError} (h : convictOrRecord display level reason b true = .error e) :
    ∃ v ∈ boundsOf b, v.abs.le CRS84_MAX_ABS_X = false ∨ v.abs.le CRS84_MAX_ABS_Y = false := by
  rw [convictOrRecord, insideCrs84Domain] at h
  by_contra hnone
  have hin : ∀ v ∈ boundsOf b, v.abs.le CRS84_MAX_ABS_X = true ∧ v.abs.le CRS84_MAX_ABS_Y = true := by
    intro v hv
    by_contra hout
    refine hnone ⟨v, hv, ?_⟩
    by_cases hx : v.abs.le CRS84_MAX_ABS_X = true
    · exact .inr (by simpa using fun hy => hout ⟨hx, hy⟩)
    · exact .inl (by simpa using hx)
  simp only [boundsOf, List.mem_cons, List.not_mem_nil, or_false, forall_eq_or_imp, forall_eq] at hin
  obtain ⟨⟨hxmin, -⟩, ⟨-, hymin⟩, ⟨hxmax, -⟩, ⟨-, hymax⟩⟩ := hin
  rw [hxmin, hymin, hxmax, hymax] at h
  cases h

theorem fromDeclared_of_bounds {c : CoveringBbox} {b : Bbox F64}
    (h : List.Forall₂ (FromColumn groups) (components c) (boundsOf b)) : FromDeclared groups c b := by
  refine ⟨h, fun display level reason e he => ?_⟩
  obtain ⟨v, hv, hout⟩ := exists_outside he
  obtain ⟨k, hk, hcolumn⟩ : ∃ k ∈ components c, FromColumn groups k v := by
    generalize components c = ks at h
    generalize boundsOf b = vs at h hv
    induction h with
    | nil => cases hv
    | @cons k w ks vs hkw _ ih =>
      obtain rfl | hv := List.mem_cons.1 hv
      · exact ⟨k, List.mem_cons_self, hkw⟩
      · obtain ⟨k', hk', hcolumn⟩ := ih hv
        exact ⟨k', List.mem_cons_of_mem _ hk', hcolumn⟩
  exact ⟨k, hk, v, hv, hcolumn, hout⟩

/-- Bounds that are found are those of the declared columns just where something of a column cannot be
read, so that there are none, or each column owns what is taken for it. -/
theorem coveringStatistics_declared (separator : String) (groups : List (List LeafChunk))
    (c : CoveringBbox) :
    (∀ b, coveringStatistics (.ok (footerRows separator groups)) c = .ok (some b) →
      FromDeclared groups c b) ↔
    (∃ k ∈ components c, Unread separator groups k) ∨
      ∀ k ∈ components c, Owned separator groups k := by
  constructor
  · intro h
    by_cases hunread : ∃ k ∈ components c, Unread separator groups k
    · exact .inl hunread
    · have hsome : ∀ k : Component, k ∈ components c →
          ∃ v, extreme (footerRows separator groups) k.1 k.2 = some v := by
        intro k hk
        refine Option.ne_none_iff_exists'.1 fun hnone => hunread ⟨k, hk, ?_⟩
        exact (extreme_eq_none_iff k).1 hnone
      obtain ⟨xmin, hxmin⟩ := hsome (c.xmin, false) (by simp [components])
      obtain ⟨ymin, hymin⟩ := hsome (c.ymin, false) (by simp [components])
      obtain ⟨xmax, hxmax⟩ := hsome (c.xmax, true) (by simp [components])
      obtain ⟨ymax, hymax⟩ := hsome (c.ymax, true) (by simp [components])
      have hb : List.Forall₂ (fun k v => extreme (footerRows separator groups) k.1 k.2 = some v)
          (components c) (boundsOf ⟨xmin, ymin, xmax, ymax⟩) :=
        .cons hxmin (.cons hymin (.cons hxmax (.cons hymax .nil)))
      have hdeclared := (h _ (coveringStatistics_eq_some_iff.2 hb)).bounds
      right
      generalize components c = ks at hb hdeclared ⊢
      generalize boundsOf ⟨xmin, ymin, xmax, ymax⟩ = vs at hb hdeclared
      induction hb with
      | nil => exact fun k hk => absurd hk List.not_mem_nil
      | cons hk _ ih =>
        obtain ⟨hcolumn, hdeclared⟩ := List.forall₂_cons.1 hdeclared
        exact List.forall_mem_cons.2 ⟨(fromColumn_iff hk).1 hcolumn, ih hdeclared⟩
  · intro h b hb
    rw [coveringStatistics_eq_some_iff] at hb
    refine fromDeclared_of_bounds ?_
    obtain ⟨k, hk, hunread⟩ | howned := h
    · exfalso
      generalize components c = ks at hb hk
      generalize boundsOf b = vs at hb
      induction hb with
      | nil => cases hk
      | @cons k' v ks vs hkv _ ih =>
        obtain rfl | hk := List.mem_cons.1 hk
        · rw [(extreme_eq_none_iff k).2 hunread] at hkv
          cases hkv
        · exact ih hk
    · generalize components c = ks at hb howned ⊢
      generalize boundsOf b = vs at hb ⊢
      induction hb with
      | nil => exact .nil
      | cons hk _ ih =>
        obtain ⟨hfirst, howned⟩ := List.forall_mem_cons.1 howned
        exact .cons ((fromColumn_iff hk).2 hfirst) (ih howned)

/-! ### A column that is taken for another -/

/-- A struct of four columns, and a column whose one name has a point in it. -/
def pointedGroups : List (List LeafChunk) :=
  [[⟨["bbox", "xmin"], some "0", some "1"⟩, ⟨["bbox", "ymin"], some "0", some "1"⟩,
    ⟨["bbox", "xmax"], some "0", some "1"⟩, ⟨["bbox", "ymax"], some "0", some "1"⟩,
    ⟨["bbox.xmin"], some "-500", some "1"⟩]]

/-- From `-500.0` to `1.0`, and from `0.0` to `1.0`. -/
def pointedBounds : Bbox F64 :=
  ⟨⟨0xC07F400000000000⟩, ⟨0⟩, ⟨0x3FF0000000000000⟩, ⟨0x3FF0000000000000⟩⟩

/-- The least value of the other column is reported, and contradicts the reference system. -/
theorem coveringStatistics_lookalike :
    coveringStatistics (.ok (footerRows ", " pointedGroups)) smallCovering =
      .ok (some pointedBounds) ∧
    insideCrs84Domain pointedBounds = false ∧ ¬FromDeclared pointedGroups smallCovering pointedBounds := by
  refine ⟨by decide +kernel, by decide +kernel, fun h => ?_⟩
  obtain ⟨hcolumn, -⟩ := List.forall₂_cons.1 h.bounds
  obtain ⟨⟨x, hx, halike⟩, -⟩ := hcolumn.extreme
  have hstat : statisticsOf false (chunksOf pointedGroups ["bbox", "xmin"]) = [⟨0⟩] := by
    decide +kernel
  obtain rfl := List.mem_singleton.1 (hstat ▸ hx)
  obtain ⟨hnan, -⟩ | ⟨-, -, heq⟩ := halike
  · exact absurd hnan (by decide)
  · exact absurd heq (by decide)

end SpatialIde.Engine.Covering
