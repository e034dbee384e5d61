import SpatialIde.Engine.Envelope
import SpatialIde.Engine.Index.Exact
import SpatialIde.Engine.Query

/-! # The index-narrowed statement and the scan

`SameAnswer` says that two statements select the same rows and that reading their identities
ends the same way.  `narrowed_invisible` is the result: the ranges of an index lose no row
that has an identity, and every row that has none.
-/

namespace SpatialIde.Engine

open Lib

variable {φ ρ : Type}

/-! ### Ranges -/

namespace Compressing

/-- The ids so far are in the ranges, the open one included. -/
structure Holds (st : Compressing) (ids : List UInt64) : Prop where
  ordered : st.lo ≤ st.hi
  covered : ∀ id ∈ ids, ∃ r ∈ st.out ++ [(st.lo, st.hi)], r.1 ≤ id ∧ id ≤ r.2

theorem Holds.step {st st' : Compressing} {ids : List UInt64} {maxRanges : Nat} {id : UInt64}
    (h : Holds st ids) (hid : st.hi ≤ id) (hstep : st.step maxRanges id = some st') :
    Holds st' (ids ++ [id]) ∧ st'.hi = id := by
  unfold Compressing.step at hstep
  by_cases hnext : id = st.hi + 1
  · rw [if_pos hnext] at hstep
    cases hstep
    refine ⟨⟨le_trans h.ordered hid, fun x hx => ?_⟩, rfl⟩
    rcases List.mem_append.1 hx with hx | hx
    · obtain ⟨r, hr, hlo, hhi⟩ := h.covered x hx
      rcases List.mem_append.1 hr with hr | hr
      · exact ⟨r, List.mem_append_left _ hr, hlo, hhi⟩
      · rw [List.mem_singleton] at hr
        subst hr
        exact ⟨_, List.mem_append_right _ List.mem_cons_self, hlo, le_trans hhi hid⟩
    · rw [List.mem_singleton] at hx
      subst hx
      exact ⟨_, List.mem_append_right _ List.mem_cons_self, le_trans h.ordered hid, le_rfl⟩
  · rw [if_neg hnext] at hstep
    simp only at hstep
    split at hstep
    · cases hstep
    · cases hstep
      refine ⟨⟨le_rfl, fun x hx => ?_⟩, rfl⟩
      rcases List.mem_append.1 hx with hx | hx
      · obtain ⟨r, hr, hbounds⟩ := h.covered x hx
        exact ⟨r, List.mem_append_left _ hr, hbounds⟩
      · rw [List.mem_singleton] at hx
        subst hx
        exact ⟨_, List.mem_append_right _ List.mem_cons_self, le_rfl, le_rfl⟩

/-- Behind the ids that are in the ranges, a sorted rest gets into them too. -/
theorem Holds.run {maxRanges : Nat} : ∀ {rest : List UInt64} {st st' : Compressing}
    {ids : List UInt64}, Holds st ids → (∀ id ∈ rest, st.hi ≤ id) → rest.Pairwise (· ≤ ·) →
    rest.foldlM (Compressing.step maxRanges) st = some st' → Holds st' (ids ++ rest) := by
  intro rest
  induction rest with
  | nil =>
    intro st st' ids h _ _ hrun
    cases hrun
    rwa [List.append_nil]
  | cons id rest ih =>
    intro st st' ids h hlow hsorted hrun
    obtain ⟨hle, hrest⟩ := List.pairwise_cons.1 hsorted
    rw [List.foldlM_cons] at hrun
    obtain ⟨st₁, hstep, hrun⟩ := Option.bind_eq_some_iff.1 hrun
    obtain ⟨h₁, hhi⟩ := h.step (hlow id List.mem_cons_self) hstep
    have hgo := ih h₁ (fun x hx => by rw [hhi]; exact hle x hx) hrest hrun
    rwa [List.append_assoc] at hgo

end Compressing

/-- **Compression loses no id.** -/
theorem compressToRanges_covers {ids : List UInt64} {maxRanges : Nat}
    {ranges : List (UInt64 × UInt64)} (hsorted : ids.Pairwise (· ≤ ·))
    (h : compressToRanges ids maxRanges = some ranges) :
    ∀ id ∈ ids, ∃ r ∈ ranges, r.1 ≤ id ∧ id ≤ r.2 := by
  cases ids with
  | nil => exact fun id hid => absurd hid List.not_mem_nil
  | cons first rest =>
    obtain ⟨hle, hrest⟩ := List.pairwise_cons.1 hsorted
    obtain ⟨st, hrun, hlast⟩ := Option.bind_eq_some_iff.1 h
    have hstart : Compressing.Holds ⟨[], first, first⟩ [first] :=
      ⟨le_rfl, fun x hx => ⟨(first, first), List.mem_cons_self, by
        rw [List.mem_singleton.1 hx]
        exact ⟨le_rfl, le_rfl⟩⟩⟩
    have hall := (hstart.run hle hrest hrun).covered
    simp only at hlast
    split at hlast
    · cases hlast
    · cases hlast
      exact hall

/-! ### Conditions -/

theorem eval_idTest {id : Option UInt64} {r : UInt64 × UInt64} :
    (idTest r).eval id = some true ↔ ∃ v, id = some v ∧ r.1 ≤ v ∧ v ≤ r.2 := by
  obtain ⟨lo, hi⟩ := r
  unfold idTest
  by_cases heq : lo = hi
  · rw [if_pos heq]
    subst heq
    cases id with
    | none => simp [IdTest.eval, Truth.compare]
    | some v =>
      simp only [IdTest.eval, Truth.compare_true, decide_eq_true_eq, Option.some.injEq]
      constructor
      · rintro ⟨x, y, rfl, rfl, rfl⟩
        exact ⟨_, rfl, le_rfl, le_rfl⟩
      · rintro ⟨x, rfl, hlo, hhi⟩
        exact ⟨_, _, rfl, rfl, le_antisymm hhi hlo⟩
  · rw [if_neg heq]
    simp only [IdTest.eval, Truth.and_true, Truth.compare_true, decide_eq_true_eq,
      Option.some.injEq]
    constructor
    · rintro ⟨⟨x, _, rfl, rfl, hlo⟩, y, _, hxy, rfl, hhi⟩
      cases hxy
      exact ⟨_, rfl, hlo, hhi⟩
    · rintro ⟨x, rfl, hlo, hhi⟩
      exact ⟨⟨_, _, rfl, rfl, hlo⟩, _, _, rfl, rfl, hhi⟩

/-- A row whose comparison is true has all its bounds, and the index has read them. -/
theorem meets_of_meetsTruth {row : TableRow ρ} {view : Bbox ℚ}
    (h : meetsTruth row.bbox view = some true) : row.feature.bbox.meets view = true := by
  have hvalue : ∀ {s : Slot ℚ} {x : ℚ}, s.value = some x → s.raw = x := by
    intro s x hs
    unfold Slot.value at hs
    split at hs
    · exact Option.some.inj hs
    · cases hs
  simp only [meetsTruth, Truth.all_true, List.forall_mem_cons, Truth.compare_true,
    decide_eq_true_eq, Option.some.injEq] at h
  obtain ⟨⟨a, _, ha, rfl, h₁⟩, ⟨b, _, hb, rfl, h₂⟩, ⟨c, _, hc, rfl, h₃⟩, ⟨d, _, hd, rfl, h₄⟩, -⟩ := h
  rw [Bbox.meets_iff]
  simp only [TableRow.feature, hvalue ha, hvalue hb, hvalue hc, hvalue hd]
  exact ⟨⟨⟨h₁, h₂⟩, h₃⟩, h₄⟩

theorem selects_iff {truth : φ → TableRow ρ → Truth} {s : Statement φ} {row : TableRow ρ} :
    s.Selects truth row ↔ ∀ c ∈ s.conditions, c.eval truth row = some true := by
  rw [Statement.Selects, Truth.all_true, List.forall_mem_map]

theorem mem_select {truth : φ → TableRow ρ → Truth} {s : Statement φ} {row : TableRow ρ}
    {file : List (TableRow ρ)} (hlimit : s.limit = none) :
    row ∈ s.select truth file ↔ row ∈ file ∧ s.Selects truth row := by
  simp [Statement.select, hlimit]

/-! ### Answers -/

/-- The identities of rows, as a chunk of the stream carries them. -/
def idChunk (rows : List (TableRow ρ)) : RecordBatch where
  schema := [⟨ID_COLUMN, .uInt64⟩]
  rows := rows.map fun row => [row.id.value.map fun v => leBytes 8 v.toNat]
  width row hrow := by
    obtain ⟨c, _, rfl⟩ := List.mem_map.1 hrow
    rfl

/-- What `column_u64` makes of the rows, in the chunks they come in. -/
def readBack (K : Kernels) (split : List (TableRow ρ) → List (List (TableRow ρ)))
    (rows : List (TableRow ρ)) : Except EngineError (List (List UInt64)) :=
  (split rows).mapM fun chunk => columnU64 K (idChunk chunk) ID_COLUMN

structure SameAnswer (K : Kernels) (truth : φ → TableRow ρ → Truth) (s t : Statement φ)
    (file : List (TableRow ρ)) : Prop where
  rows : s.select truth file = t.select truth file
  outcome : ∀ split, readBack K split (s.select truth file) = readBack K split (t.select truth file)

theorem indexPlan_narrowed {src : PlanSource} {view : Bbox ℚ} {tests : Option (List IdTest)}
    {ranges candidates : Nat} (h : indexPlan src view = (tests, .indexNarrowed ranges candidates)) :
    ∃ index out rs, src.admittedIndex = some index ∧ index.candidates view = some out ∧
      compressToRanges out MAX_ID_RANGES = some rs ∧ tests = some (rs.map idTest) := by
  unfold indexPlan at h
  split at h
  · cases h
  · rename_i out hout
    obtain ⟨index, hindex, hcandidates⟩ := Option.bind_eq_some_iff.1 hout
    split at h
    · cases h
    · cases h
    · rename_i rs _ hrs
      cases h
      exact ⟨index, out, rs, hindex, hcandidates, hrs, rfl⟩

/-- The statement of a narrowed plan: the ranges of the candidates stand between the filter
and the comparison of the box. -/
theorem buildSql_narrowed {src : PlanSource} {q : ViewportQuery φ} {narrowed : Statement φ}
    {ranges candidates : Nat}
    (h : buildSql src q .experimental .unordered =
      .ok (narrowed, .indexNarrowed ranges candidates)) :
    ∃ view index out rs, q.bbox = some view ∧ src.covering = .ok () ∧
      src.admittedIndex = some index ∧ index.candidates view = some out ∧
      compressToRanges out MAX_ID_RANGES = some rs ∧
      narrowed = ⟨q.filter.toList.map .filter ++ [.oneOf (rs.map idTest)] ++ [.meets view],
        false, q.limit⟩ := by
  cases hbbox : q.bbox with
  | none =>
    simp only [buildSql, hbbox] at h
    cases h
  | some view =>
    cases hcovering : src.covering with
    | error detail =>
      simp only [buildSql, hbbox, hcovering] at h
      cases h
    | ok u =>
      simp only [buildSql, hbbox, hcovering, narrowing] at h
      rcases hplan : indexPlan src view with ⟨tests, plan⟩
      rw [hplan] at h
      cases h
      obtain ⟨index, out, rs, hindex, hout, hrs, rfl⟩ := indexPlan_narrowed hplan
      exact ⟨view, index, out, rs, rfl, rfl, hindex, hout, hrs, rfl⟩

/-- Where the box is compared, a row with an identity is in the ranges of the index. -/
theorem oneOf_of_meets {chunks : List (List (TableRow ρ))} {tr : List (Event Poll.Answer)}
    {index : SpatialIndex} (hbuilt : (build (chunks.map (List.map TableRow.feature))).Runs tr
      (.ok index)) {view : Bbox ℚ} {out : List UInt64} {rs : List (UInt64 × UInt64)}
    (hout : index.candidates view = some out) (hrs : compressToRanges out MAX_ID_RANGES = some rs)
    {row : TableRow ρ} (hrow : row ∈ chunks.flatten) (hvalid : row.id.valid = true)
    (hmeets : meetsTruth row.bbox view = some true) :
    Truth.any ((rs.map idTest).map (IdTest.eval row.id.value)) = some true := by
  obtain ⟨hsorted, hperm⟩ := SpatialIndex.candidates_exact hbuilt hout
  have hmem : row.id.raw ∈ out := by
    apply hperm.mem_iff.2
    refine List.mem_map.2 ⟨row.feature, List.mem_filter.2 ⟨?_, meets_of_meetsTruth hmeets⟩, rfl⟩
    rw [← List.map_flatten]
    exact List.mem_map_of_mem hrow
  obtain ⟨r, hr, hlo, hhi⟩ := compressToRanges_covers hsorted hrs _ hmem
  rw [Truth.any_true]
  refine ⟨_, List.mem_map_of_mem (List.mem_map_of_mem hr), eval_idTest.2 ⟨row.id.raw, ?_, hlo, hhi⟩⟩
  exact if_pos hvalid

/-- No range holds a null. -/
theorem valid_of_oneOf {rs : List (UInt64 × UInt64)} {row : TableRow ρ}
    (h : Truth.any ((rs.map idTest).map (IdTest.eval row.id.value)) = some true) :
    row.id.valid = true := by
  obtain ⟨c, hc, rfl⟩ := Truth.any_true.1 h
  obtain ⟨test, htest, heval⟩ := List.mem_map.1 hc
  obtain ⟨r, _, rfl⟩ := List.mem_map.1 htest
  obtain ⟨v, hv, _⟩ := eval_idTest.1 heval
  by_contra hnot
  rw [Slot.value, if_neg hnot] at hv
  cases hv

/-- **The narrowed statement answers as the scan does if and only if the scan selects no row
whose identity is null.** -/
theorem narrowed_invisible (K : Kernels) (truth : φ → TableRow ρ → Truth)
    {chunks : List (List (TableRow ρ))} {tr : List (Event Poll.Answer)} {index : SpatialIndex}
    (hbuilt : (build (chunks.map (List.map TableRow.feature))).Runs tr (.ok index))
    {src : PlanSource} (hindex : src.admittedIndex = some index) {q : ViewportQuery φ}
    (hlimit : q.limit = none) {narrowed : Statement φ} {ranges candidates : Nat}
    (hplan : buildSql src q .experimental .unordered =
      .ok (narrowed, .indexNarrowed ranges candidates)) :
    ∃ scan, buildSql src q .off .unordered = .ok (scan, .scanOnly) ∧
      (SameAnswer K truth narrowed scan chunks.flatten ↔
        ∀ row ∈ chunks.flatten, scan.Selects truth row → row.id.valid = true) := by
  obtain ⟨view, index', out, rs, hbbox, hcovering, hindex', hout, hrs, rfl⟩ :=
    buildSql_narrowed hplan
  cases hindex.symm.trans hindex'
  refine ⟨⟨q.filter.toList.map .filter ++ [.meets view], false, q.limit⟩, ?_, ?_, ?_⟩
  · simp [buildSql, hbbox, hcovering, narrowing]
  · intro hsame row hrow hsel
    have hmem := (mem_select hlimit).2 ⟨hrow, hsel⟩
    rw [← hsame.rows] at hmem
    have hsel' := selects_iff.1 ((mem_select hlimit).1 hmem).2
    exact valid_of_oneOf (hsel' (.oneOf (rs.map idTest)) (by simp))
  · intro hvalid
    have hrows : Statement.select truth ⟨q.filter.toList.map .filter ++ [.oneOf (rs.map idTest)] ++
        [.meets view], false, q.limit⟩ chunks.flatten =
        Statement.select truth ⟨q.filter.toList.map .filter ++ [.meets view], false, q.limit⟩
          chunks.flatten := by
      simp only [Statement.select, hlimit]
      apply List.filter_congr
      intro row hrow
      rw [decide_eq_decide]
      constructor
      · intro hsel
        rw [selects_iff] at hsel ⊢
        intro c hc
        apply hsel c
        simp only [List.mem_append] at hc ⊢
        tauto
      · intro hsel
        have hone := oneOf_of_meets hbuilt hout hrs hrow (hvalid row hrow hsel)
          (selects_iff.1 hsel (.meets view) (by simp))
        rw [selects_iff] at hsel ⊢
        intro c hc
        simp only [List.mem_append, List.mem_singleton] at hc
        rcases hc with (hc | rfl) | rfl
        · exact hsel c (List.mem_append_left _ hc)
        · exact hone
        · exact hsel _ (by simp)
    exact ⟨hrows, fun split => by rw [hrows]⟩

/-! ### Three features -/

/-- A feature at a point of the diagonal. -/
def pointRow (id : Slot UInt64) (x : ℚ) : TableRow Unit :=
  ⟨id, ⟨⟨x, true⟩, ⟨x, true⟩, ⟨x, true⟩, ⟨x, true⟩⟩, ()⟩

/-- Two features with an identity, on opposite corners. -/
def withIdentity : List (TableRow Unit) := [pointRow ⟨9, true⟩ 0, pointRow ⟨7, true⟩ 10]

/-- A feature whose identity is null; there are zeros in its slot. -/
def nameless : TableRow Unit := pointRow ⟨0, false⟩ 11

/-- The viewport around the upper corner. -/
def upperCorner : ViewportQuery Unit := ⟨some ⟨10, 10, 12, 12⟩, none, none⟩

def indexed (index : SpatialIndex) : PlanSource := ⟨.ok (), some index, none⟩

/-- The meaning of a filter where there is none. -/
def unasked : Unit → TableRow Unit → Truth := fun _ _ => none

theorem exists_narrowed (rows : List (TableRow Unit)) (ranges candidates : Nat)
    (h : ((build [rows.map TableRow.feature]).eval fun _ => false).2.toOption.map
      (fun index => (buildSql (indexed index) upperCorner .experimental .unordered).map Prod.snd) =
      some (.ok (.indexNarrowed ranges candidates))) :
    ∃ tr index narrowed, (build ([rows].map (List.map TableRow.feature))).Runs tr (.ok index) ∧
      buildSql (indexed index) upperCorner .experimental .unordered =
        .ok (narrowed, .indexNarrowed ranges candidates) := by
  obtain ⟨index, hindex, hplan⟩ := Option.map_eq_some_iff.1 h
  have hrun := Prog.runs_eval (fun _ => false) (build [rows.map TableRow.feature])
  cases hbuilt : ((build [rows.map TableRow.feature]).eval fun _ => false).2 with
  | error e => rw [hbuilt] at hindex; cases hindex
  | ok index' =>
    rw [hbuilt] at hindex hrun
    cases hindex
    cases hsql : buildSql (indexed index) upperCorner .experimental .unordered with
    | error e => rw [hsql] at hplan; cases hplan
    | ok p =>
      rw [hsql] at hplan
      obtain ⟨narrowed, plan⟩ := p
      cases hplan
      exact ⟨_, index, narrowed, hrun, hsql⟩

theorem narrowed_invisible_identities : ∃ index narrowed,
    buildSql (indexed index) upperCorner .experimental .unordered =
      .ok (narrowed, .indexNarrowed 1 1) ∧
    ∃ scan, buildSql (indexed index) upperCorner .off .unordered = .ok (scan, .scanOnly) ∧
      (SameAnswer .logical unasked narrowed scan [withIdentity].flatten ↔
        ∀ row ∈ [withIdentity].flatten, scan.Selects unasked row →
          row.id.valid = true) := by
  obtain ⟨tr, index, narrowed, hrun, hplan⟩ :=
    exists_narrowed withIdentity 1 1 (by decide +kernel)
  exact ⟨index, narrowed, hplan, narrowed_invisible .logical _ hrun rfl rfl hplan⟩

/-- The scan selects the feature whose identity is null, and the narrowed statement does not. -/
theorem narrowed_visible : ¬∀ (K : Kernels) (truth : Unit → TableRow Unit → Truth)
    (chunks : List (List (TableRow Unit))) (tr : List (Event Poll.Answer)) (index : SpatialIndex),
    (build (chunks.map (List.map TableRow.feature))).Runs tr (.ok index) →
    ∀ src : PlanSource, src.admittedIndex = some index → ∀ q : ViewportQuery Unit, q.limit = none →
    ∀ (narrowed : Statement Unit) (ranges candidates : Nat),
      buildSql src q .experimental .unordered = .ok (narrowed, .indexNarrowed ranges candidates) →
      ∃ scan, buildSql src q .off .unordered = .ok (scan, .scanOnly) ∧
        SameAnswer K truth narrowed scan chunks.flatten := by
  intro h
  obtain ⟨tr, index, narrowed, hrun, hplan⟩ := exists_narrowed (withIdentity ++ [nameless]) 2 2
    (by decide +kernel)
  obtain ⟨scan, hscan, hsame⟩ := h .logical unasked _ tr index hrun (indexed index) rfl
    upperCorner rfl narrowed 2 2 hplan
  cases hscan
  obtain ⟨view, index', out, rs, _, _, _, _, _, rfl⟩ := buildSql_narrowed hplan
  have hmem : nameless ∈ Statement.select unasked ⟨[.meets ⟨10, 10, 12, 12⟩], false, none⟩
      [withIdentity ++ [nameless]].flatten := by
    rw [mem_select rfl]
    exact ⟨by simp, by decide +kernel⟩
  have hlost := hsame.rows ▸ hmem
  have hsel := selects_iff.1 ((mem_select rfl).1 hlost).2
  cases valid_of_oneOf (hsel (.oneOf (rs.map idTest)) (by simp))

end SpatialIde.Engine
