import SpatialIde.Engine.RowGroup
import SpatialIde.Lib.Except

/-! # Pruning row groups loses no row

A row that the scan returns lies in a group that is kept, and its identity in one of
the selected ranges (`rangesFor_lossless`).  Two facts carry it:

* `admitLoop_sound`: where no group was refused, the identity intervals are parsed,
  free of nulls and ascending;
* `Describes.intersects`: a row that meets the viewport lies in a group whose envelope
  does, by the one place by which the envelope was widened.
-/

namespace SpatialIde.Engine

open Lib

/-! ### The admissibility of a file -/

namespace RawGroup

/-- The group may be asked for by its identity interval. -/
structure Usable (g : RawGroup) : Prop where
  parsed : g.idInterval.2 = .ok ()
  noNulls : g.idNulls = some 0

theorem idInterval_ok {g : RawGroup} (h : g.idInterval.2 = .ok ()) :
    ∃ lo hi l u, g.id = some (some lo, some hi) ∧ parseU64 lo = some l ∧ parseU64 hi = some u ∧
      l ≤ u ∧ g.idInterval.1 = (l, u) := by
  unfold idInterval at *
  split at h
  · rename_i lo hi hid
    rw [hid]
    split at h
    · rename_i l u hl hu
      by_cases hle : l ≤ u
      · refine ⟨lo, hi, l, u, rfl, hl, hu, hle, ?_⟩
        rw [if_pos hle]
      · simp [if_neg hle] at h
    · simp at h
  · simp at h

end RawGroup

namespace Admission

theorem refuseIf_eq_ok {verdict : Verdict} {found : Bool} {refusal : RowGroupRefusal} :
    refuseIf verdict found refusal = .ok () ↔ verdict = .ok () ∧ found = false := by
  cases verdict <;> cases found <;> simp [refuseIf, Except.bind]

/-- **What a group must be for the verdict to stay.** -/
theorem admitGroup_verdict {st : Admission} {g : RawGroup} :
    (st.admitGroup g).verdict = .ok () ↔
      st.verdict = .ok () ∧ g.Usable ∧ ∀ p, st.prevHi = some p → p < g.idInterval.1.1 := by
  have hbind : (st.verdict.bind fun _ => g.idInterval.2) = .ok () ↔
      st.verdict = .ok () ∧ g.idInterval.2 = .ok () := by
    cases st.verdict <;> simp [Except.bind]
  have hnulls : g.idNulls.all (0 < ·) = false ↔ g.idNulls = some 0 := by
    cases g.idNulls with
    | none => simp
    | some n => simp
  have hover : st.prevHi.any (g.idInterval.1.1 ≤ ·) = false ↔
      ∀ p, st.prevHi = some p → p < g.idInterval.1.1 := by
    cases st.prevHi with
    | none => simp
    | some p => simp
  show st.verdictBehind g = .ok () ↔ _
  unfold verdictBehind
  rw [refuseIf_eq_ok, refuseIf_eq_ok, hbind, hnulls, hover]
  exact ⟨fun ⟨⟨⟨hv, hp⟩, hn⟩, ho⟩ => ⟨hv, ⟨hp, hn⟩, ho⟩, fun ⟨hv, hu, ho⟩ =>
    ⟨⟨⟨hv, hu.parsed⟩, hu.noNulls⟩, ho⟩⟩

/-- The intervals so far ascend, and the last end is `prevHi`. -/
structure Orderly (st : Admission) : Prop where
  ascending : Intervals.Ascending (st.entries.map RowGroupEntry.interval)
  before : ∀ e ∈ st.entries, ∃ p, st.prevHi = some p ∧ e.idHi ≤ p

theorem orderly_start : start.Orderly where
  ascending := ⟨fun _ hr => absurd hr List.not_mem_nil, List.Pairwise.nil⟩
  before := fun _ he => absurd he List.not_mem_nil

theorem Orderly.admitGroup {st : Admission} (h : st.Orderly) {g : RawGroup}
    (hok : (st.admitGroup g).verdict = .ok ()) : (st.admitGroup g).Orderly := by
  obtain ⟨-, husable, hprev⟩ := admitGroup_verdict.1 hok
  obtain ⟨lo, hi, l, u, -, -, -, hle, hinterval⟩ := RawGroup.idInterval_ok husable.parsed
  have hentry : g.entry.interval = (l, u) := hinterval
  refine ⟨?_, ?_⟩
  · show Intervals.Ascending ((st.entries ++ [g.entry]).map RowGroupEntry.interval)
    rw [List.map_append]
    refine Intervals.ascending_append.2 ⟨h.ascending, ⟨?_, List.pairwise_singleton _ _⟩, ?_⟩
    · intro r hr
      rw [List.mem_singleton.1 hr, hentry]
      exact hle
    · intro r hr s hs
      obtain ⟨e, he, rfl⟩ := List.mem_map.1 hr
      obtain ⟨p, hp, hep⟩ := h.before e he
      rw [List.mem_singleton.1 hs]
      exact lt_of_le_of_lt hep (hprev p hp)
  · intro e he
    refine ⟨g.idInterval.1.2, rfl, ?_⟩
    rcases List.mem_append.1 he with he | he
    · obtain ⟨p, hp, hep⟩ := h.before e he
      have hlt := hprev p hp
      rw [hinterval] at hlt ⊢
      exact hep.trans (hlt.le.trans hle)
    · cases List.mem_singleton.1 he
      exact le_refl _

end Admission

theorem verdict_of_admitLoop {cancelled : Nat → Bool} {st' : Admission} :
    ∀ {gs : List RawGroup} {i : Nat} {st : Admission}, admitLoop cancelled i gs st = .ok st' →
      st'.verdict = .ok () → st.verdict = .ok () := by
  intro gs
  induction gs with
  | nil =>
    intro i st h hok
    cases h
    exact hok
  | cons g gs ih =>
    intro i st h hok
    unfold admitLoop at h
    split_ifs at h
    exact (Admission.admitGroup_verdict.1 (ih h hok)).1

/-- **Where no group was refused**, every group is usable and the intervals ascend. -/
theorem admitLoop_sound {cancelled : Nat → Bool} {st' : Admission} :
    ∀ {gs : List RawGroup} {i : Nat} {st : Admission}, admitLoop cancelled i gs st = .ok st' →
      st'.verdict = .ok () → st.Orderly →
      st'.Orderly ∧ st'.entries = st.entries ++ gs.map RawGroup.entry ∧ ∀ g ∈ gs, g.Usable := by
  intro gs
  induction gs with
  | nil =>
    intro i st h _ hord
    cases h
    exact ⟨hord, (List.append_nil _).symm, fun g hg => by cases hg⟩
  | cons g gs ih =>
    intro i st h hok hord
    unfold admitLoop at h
    split_ifs at h
    have hverdict := verdict_of_admitLoop h hok
    obtain ⟨hord', hentries, husable⟩ := ih h hok (hord.admitGroup hverdict)
    refine ⟨hord', ?_, ?_⟩
    · rw [hentries]
      show st.entries ++ [g.entry] ++ _ = _
      rw [List.append_assoc]
      rfl
    · intro g' hg'
      rcases List.mem_cons.1 hg' with rfl | hg'
      · exact (Admission.admitGroup_verdict.1 hverdict).2.1
      · exact husable g' hg'

theorem admitGroups_sound {cancelled : Nat → Bool} {raw : List RawGroup} {index : RowGroupIndex}
    (h : admitGroups cancelled raw = .ok index) (hok : index.admissible = .ok ()) :
    index.groups = raw.map RawGroup.entry ∧ (∀ g ∈ raw, g.Usable) ∧
      Intervals.Ascending (index.groups.map RowGroupEntry.interval) := by
  unfold admitGroups at h
  split_ifs at h
  · cases h
    cases hok
  · obtain ⟨st, hst, hindex⟩ := bind_eq_ok.1 h
    cases hindex
    obtain ⟨hord, hentries, husable⟩ := admitLoop_sound hst hok Admission.orderly_start
    exact ⟨hentries, husable, hord.ascending⟩

/-! ### What a viewport selects -/

namespace RowGroupIndex

theorem covBy_of_contiguous (hi lo : UInt64) (h : contiguous hi lo = true) (hlt : hi < lo) :
    hi ⋖ lo :=
  covBy_saturatingSucc hlt (eq_of_beq h)

/-- The loop joins the intervals of the groups that survive. -/
theorem foldl_keep (view : Bbox F64) : ∀ (gs : List RowGroupEntry)
    (st : Nat × List (UInt64 × UInt64)), gs.foldl (keep view) st =
      (st.1 + (gs.filter (·.intersects view)).length,
        ((gs.filter (·.intersects view)).map RowGroupEntry.interval).foldl
          (Intervals.extend contiguous) st.2) := by
  intro gs
  induction gs with
  | nil => intro st; rfl
  | cons g gs ih =>
    intro st
    rw [List.foldl_cons, ih, keep]
    by_cases hg : g.intersects view = true
    · simp only [List.filter_cons, hg, if_true, List.map_cons, List.foldl_cons, List.length_cons]
      rw [Nat.add_assoc, Nat.add_comm 1]
    · simp only [List.filter_cons, hg, Bool.false_eq_true, if_false]

/-- A viewport that is not refused has numbers for bounds. -/
theorem isNaN_of_usable {view : Bbox F64} (h : unusable view = false) :
    view.xmin.isNaN = false ∧ view.ymin.isNaN = false ∧ view.xmax.isNaN = false ∧
      view.ymax.isNaN = false := by
  simp only [unusable, Bool.or_eq_false_iff, Bool.not_eq_false', Bool.and_eq_true] at h
  obtain ⟨⟨⟨⟨⟨hxmin, hymin⟩, hxmax⟩, hymax⟩, -⟩, -⟩ := h
  exact ⟨F64.isNaN_eq_false_of_isFinite hxmin, F64.isNaN_eq_false_of_isFinite hymin,
    F64.isNaN_eq_false_of_isFinite hxmax, F64.isNaN_eq_false_of_isFinite hymax⟩

theorem rangesFor_eq_ok {index : RowGroupIndex} {view : Bbox F64} {sel : RowGroupSelection}
    (h : index.rangesFor view = .ok sel) :
    index.admissible = .ok () ∧ unusable view = false ∧
      sel.ranges = ((index.groups.filter (·.intersects view)).map RowGroupEntry.interval).foldl
        (Intervals.extend contiguous) [] := by
  obtain ⟨_, hadmissible, hrest⟩ := bind_eq_ok.1 h
  by_cases hview : unusable view = true
  · rw [if_pos hview] at hrest
    cases hrest
  · rw [if_neg hview] at hrest
    cases hrest
    refine ⟨hadmissible, Bool.eq_false_iff.2 hview, ?_⟩
    show (List.foldl (keep view) (0, []) index.groups).2 = _
    rw [foldl_keep]

end RowGroupIndex

/-! ### A file and its footer -/

/-- A row as the scan reads it: an identity that may be null, and covering bounds that may be. -/
structure FileRow where
  id : Option Int
  bbox : Bbox (Option F64)
  deriving DecidableEq, Repr

namespace FileRow

/-- `BETWEEN` one of the ranges; a null identity is in none. -/
def inRanges (row : FileRow) (ranges : List (UInt64 × UInt64)) : Bool :=
  match row.id with
  | some x => ranges.any fun r => decide ((r.1.toNat : Int) ≤ x ∧ x ≤ r.2.toNat)
  | none => false

/-- The covering condition of the scan, by the comparison `le` of its columns. -/
def intersects (le : F64 → F64 → Bool) (row : FileRow) (view : Bbox F64) : Bool :=
  match row.bbox.xmin, row.bbox.xmax, row.bbox.ymin, row.bbox.ymax with
  | some xmin, some xmax, some ymin, some ymax =>
    le xmin view.xmax && le view.xmin xmax && le ymin view.ymax && le view.ymin ymax
  | _, _, _, _ => false

end FileRow

/-- `y` is not below what is reported by more than one place. -/
def NotBelow (reported : Option String) (y : Option F64) : Prop :=
  ∀ s v b, reported = some s → F64.parse s = some v → v.isFinite = true → y = some b →
    b.isNaN = false ∧ v.key - 1 ≤ b.key

/-- `y` is not above what is reported by more than one place. -/
def NotAbove (reported : Option String) (y : Option F64) : Prop :=
  ∀ s v b, reported = some s → F64.parse s = some v → v.isFinite = true → y = some b →
    b.isNaN = false ∧ b.key ≤ v.key + 1

/-- **The footer of a group is about a row**: its statistics bound the row's identity and, up to one
place, its box, and where no identity is null this one is not. -/
structure RawGroup.Describes (g : RawGroup) (row : FileRow) : Prop where
  identity : ∀ lo hi x, g.id = some (some lo, some hi) → row.id = some x →
    (∀ l, parseU64 lo = some l → (l.toNat : Int) ≤ x) ∧
      ∀ u, parseU64 hi = some u → x ≤ u.toNat
  nulls : g.idNulls = some 0 → row.id ≠ none
  xmin : NotBelow g.bounds.xmin row.bbox.xmin
  ymin : NotBelow g.bounds.ymin row.bbox.ymin
  xmax : NotAbove g.bounds.xmax row.bbox.xmax
  ymax : NotAbove g.bounds.ymax row.bbox.ymax

namespace RawGroup

theorem bound_eq_some {outward : F64 → F64} {reported : Option String} {b : F64}
    (h : bound outward reported = some b) :
    ∃ s v, reported = some s ∧ F64.parse s = some v ∧ v.isFinite = true ∧ b = outward v := by
  unfold bound at h
  split at h
  · split at h
    · rename_i s _ v hv
      split_ifs at h with hfin
      cases h
      exact ⟨s, v, rfl, hv, hfin, rfl⟩
    · cases h
  · cases h

theorem envelope_eq_some {g : RawGroup} {b : Bbox F64} (h : g.envelope = some b) :
    bound F64.nextDown g.bounds.xmin = some b.xmin ∧ bound F64.nextDown g.bounds.ymin = some b.ymin ∧
      bound F64.nextUp g.bounds.xmax = some b.xmax ∧ bound F64.nextUp g.bounds.ymax = some b.ymax := by
  unfold envelope at h
  split at h
  · rename_i xmin ymin xmax ymax hxmin hymin hxmax hymax
    split_ifs at h
    cases h
    exact ⟨hxmin, hymin, hxmax, hymax⟩
  · cases h

end RawGroup

section

variable {le : F64 → F64 → Bool}
  (hle : ∀ x y : F64, x.isNaN = false → y.isNaN = false → le x y = x.le y)

include hle

theorem NotBelow.widened {reported : Option String} {lo y hi : F64}
    (h : NotBelow reported (some y)) (hlo : RawGroup.bound F64.nextDown reported = some lo)
    (hhi : hi.isNaN = false) (hy : le y hi = true) : lo.le hi = true := by
  obtain ⟨s, v, hs, hv, hfin, rfl⟩ := RawGroup.bound_eq_some hlo
  obtain ⟨hnan, hkey⟩ := h s v y hs hv hfin rfl
  rw [hle y hi hnan hhi] at hy
  have hyhi := (F64.le_iff.1 hy).2.2
  refine F64.le_iff.2 ⟨F64.isNaN_nextDown hfin, hhi, ?_⟩
  rw [F64.key_nextDown hfin]
  omega

theorem NotAbove.widened {reported : Option String} {lo y hi : F64}
    (h : NotAbove reported (some y)) (hhi : RawGroup.bound F64.nextUp reported = some hi)
    (hlo : lo.isNaN = false) (hy : le lo y = true) : lo.le hi = true := by
  obtain ⟨s, v, hs, hv, hfin, rfl⟩ := RawGroup.bound_eq_some hhi
  obtain ⟨hnan, hkey⟩ := h s v y hs hv hfin rfl
  rw [hle lo y hlo hnan] at hy
  have hloy := (F64.le_iff.1 hy).2.2
  refine F64.le_iff.2 ⟨hlo, F64.isNaN_nextUp hfin, ?_⟩
  rw [F64.key_nextUp hfin]
  omega

/-- **A row that meets the viewport lies in a group that is kept.** -/
theorem RawGroup.Describes.intersects {g : RawGroup} {row : FileRow} {view : Bbox F64}
    (h : g.Describes row) (hview : RowGroupIndex.unusable view = false)
    (hrow : row.intersects le view = true) : g.entry.intersects view = true := by
  obtain ⟨hxmin, hymin, hxmax, hymax⟩ := RowGroupIndex.isNaN_of_usable hview
  unfold RowGroupEntry.intersects
  rw [show g.entry.envelope = g.envelope from rfl]
  cases henv : g.envelope with
  | none => rfl
  | some b =>
    obtain ⟨hbxmin, hbymin, hbxmax, hbymax⟩ := RawGroup.envelope_eq_some henv
    unfold FileRow.intersects at hrow
    split at hrow
    · rename_i xmin xmax ymin ymax hrxmin hrxmax hrymin hrymax
      simp only [Bool.and_eq_true] at hrow ⊢
      obtain ⟨⟨⟨h1, h2⟩, h3⟩, h4⟩ := hrow
      exact ⟨⟨⟨NotBelow.widened hle (hrxmin ▸ h.xmin) hbxmin hxmax h1,
        NotAbove.widened hle (hrxmax ▸ h.xmax) hbxmax hxmin h2⟩,
        NotBelow.widened hle (hrymin ▸ h.ymin) hbymin hymax h3⟩,
        NotAbove.widened hle (hrymax ▸ h.ymax) hbymax hymin h4⟩
    · cases hrow

end

/-- A row's identity lies in the interval of its group. -/
theorem RawGroup.Describes.id_mem {g : RawGroup} {row : FileRow} (h : g.Describes row)
    (husable : g.Usable) :
    ∃ x : UInt64, row.id = some (x.toNat : Int) ∧ g.entry.idLo ≤ x ∧ x ≤ g.entry.idHi := by
  obtain ⟨lo, hi, l, u, hid, hl, hu, -, hinterval⟩ := RawGroup.idInterval_ok husable.parsed
  cases hrow : row.id with
  | none => exact absurd hrow (h.nulls husable.noNulls)
  | some x =>
    obtain ⟨hlo, hhi⟩ := h.identity lo hi x hid hrow
    have hlx := hlo l hl
    have hxu := hhi u hu
    have hlt := u.toNat_lt
    have hx : (UInt64.ofNat x.toNat).toNat = x.toNat := by
      rw [UInt64.toNat_ofNat']
      omega
    refine ⟨UInt64.ofNat x.toNat, ?_, ?_, ?_⟩
    · rw [hx]
      congr 1
      omega
    · have hfst : g.entry.idLo = l := congrArg Prod.fst hinterval
      rw [hfst, UInt64.le_iff_toNat_le, hx]
      omega
    · have hsnd : g.entry.idHi = u := congrArg Prod.snd hinterval
      rw [hsnd, UInt64.le_iff_toNat_le, hx]
      omega

theorem FileRow.inRanges_iff {row : FileRow} {x : UInt64} (h : row.id = some (x.toNat : Int))
    (ranges : List (UInt64 × UInt64)) :
    row.inRanges ranges = true ↔ Intervals.Covers ranges x := by
  simp only [inRanges, h, List.any_eq_true, decide_eq_true_eq, Intervals.Covers,
    UInt64.le_iff_toNat_le]
  constructor
  · rintro ⟨r, hr, hlo, hhi⟩
    exact ⟨r, hr, by omega, by omega⟩
  · rintro ⟨r, hr, hlo, hhi⟩
    exact ⟨r, hr, by omega, by omega⟩

/-- **Row-group pruning loses no row.**  For every file that its footer describes, every order in
which cancellation is asked for and every viewport: where the file is admitted and the viewport
selects, the rows in the selected ranges that meet the viewport are all the rows that do.  The
ranges ascend, they are what the kept groups' intervals are together, and the end of a range is never
the last identity when another group follows. -/
theorem rangesFor_lossless {le : F64 → F64 → Bool}
    (hle : ∀ x y : F64, x.isNaN = false → y.isNaN = false → le x y = x.le y)
    {file : List (RawGroup × List FileRow)}
    (hfile : ∀ g ∈ file, ∀ row ∈ g.2, g.1.Describes row)
    {cancelled : Nat → Bool} {index : RowGroupIndex} {view : Bbox F64} {sel : RowGroupSelection}
    (hindex : admitGroups cancelled (file.map Prod.fst) = .ok index)
    (hsel : index.rangesFor view = .ok sel) :
    (file.flatMap Prod.snd).filter
        (fun row => row.inRanges sel.ranges && row.intersects le view) =
      (file.flatMap Prod.snd).filter (·.intersects le view) ∧
    Intervals.Ascending sel.ranges ∧
    (∀ x, Intervals.Covers sel.ranges x ↔
      ∃ g ∈ index.groups, g.intersects view = true ∧ g.idLo ≤ x ∧ x ≤ g.idHi) ∧
    ∀ front g rest, index.groups = front ++ g :: rest → g.intersects view = true →
      ∀ r ∈ (front.foldl (RowGroupIndex.keep view) (0, [])).2.getLast?, r.2.toNat + 1 < 2 ^ 64 := by
  obtain ⟨hadmissible, hview, hranges⟩ := RowGroupIndex.rangesFor_eq_ok hsel
  obtain ⟨hgroups, husable, hasc⟩ := admitGroups_sound hindex hadmissible
  have hkept : Intervals.Ascending
      ((index.groups.filter (·.intersects view)).map RowGroupEntry.interval) :=
    hasc.sublist (List.filter_sublist.map _)
  have hcovers : ∀ x, Intervals.Covers sel.ranges x ↔
      ∃ g ∈ index.groups, g.intersects view = true ∧ g.idLo ≤ x ∧ x ≤ g.idHi := by
    intro x
    rw [hranges, Intervals.covers_foldl_extend RowGroupIndex.covBy_of_contiguous x hkept]
    simp [Intervals.Covers, RowGroupEntry.interval, and_assoc]
  refine ⟨List.filter_congr fun row hrow => ?_, ?_, hcovers, ?_⟩
  · -- A row that meets the viewport is in a range, so the range decides nothing.
    obtain ⟨g, hg, hrow⟩ := List.mem_flatMap.1 hrow
    have hdescribes := hfile g hg row hrow
    have hraw : g.1 ∈ file.map Prod.fst := List.mem_map_of_mem hg
    obtain ⟨x, hid, hlo, hhi⟩ := hdescribes.id_mem (husable g.1 hraw)
    by_cases hmeets : row.intersects le view = true
    · have hentry : g.1.entry ∈ index.groups := hgroups ▸ List.mem_map_of_mem hraw
      have hin := (FileRow.inRanges_iff hid sel.ranges).2 ((hcovers x).2
        ⟨g.1.entry, hentry, hdescribes.intersects hle hview hmeets, hlo, hhi⟩)
      rw [hin, Bool.true_and]
    · rw [Bool.eq_false_iff.2 hmeets, Bool.and_false]
  · rw [hranges]
    have hnil : Intervals.Ascending ([] ++
        (index.groups.filter (·.intersects view)).map RowGroupEntry.interval ++ []) := by
      rwa [List.append_nil, List.nil_append]
    have hall := Intervals.ascending_foldl_extend RowGroupIndex.contiguous hnil
    rwa [List.append_nil] at hall
  · intro front g rest hsplit hg r hr
    rw [RowGroupIndex.foldl_keep] at hr
    have hsub : (front.filter (·.intersects view)).map RowGroupEntry.interval ++ [g.interval] =
        ((front ++ [g]).filter (·.intersects view)).map RowGroupEntry.interval := by
      simp [List.filter_append, hg]
    have hfront : Intervals.Ascending
        ([] ++ (front.filter (·.intersects view)).map RowGroupEntry.interval ++ [g.interval]) := by
      rw [List.nil_append, hsub]
      refine hasc.sublist ((List.filter_sublist.trans ?_).map _)
      have hgs : index.groups = (front ++ [g]) ++ rest := by rw [hsplit, List.append_cons]
      rw [hgs]
      exact List.sublist_append_left _ _
    have hafter := Intervals.ascending_foldl_extend RowGroupIndex.contiguous hfront
    have hlast := (Intervals.ascending_append.1 hafter).2.2 r (List.mem_of_getLast? hr)
      g.interval List.mem_cons_self
    have hlt := g.idLo.toNat_lt
    exact Nat.lt_of_le_of_lt (UInt64.lt_iff_toNat_lt.1 hlast) hlt

/-! ### Two groups, of which one is pruned -/

def footerGroup (ordinal : UInt32) (lo hi xmin xmax : String) : RawGroup :=
  ⟨ordinal, 10, some (some lo, some hi), some 0, ⟨some xmin, some "0", some xmax, some "1.5"⟩⟩

def squareAt (xmin xmax : F64) : Bbox F64 := ⟨xmin, F64.zero, xmax, ⟨0x3FF0000000000000⟩⟩

/-- A row with a point on the x axis. -/
def rowAt (id : Int) (x : F64) : FileRow :=
  ⟨some id, ⟨some x, some F64.zero, some x, some F64.zero⟩⟩

theorem notBelow_of_parse {s : String} {v b : F64} (h : F64.parse s = some v)
    (hb : b.isNaN = false ∧ v.key - 1 ≤ b.key) : NotBelow (some s) (some b) := by
  intro s' v' b' hs hv _ hb'
  cases hs
  cases hb'
  cases h.symm.trans hv
  exact hb

theorem notAbove_of_parse {s : String} {v b : F64} (h : F64.parse s = some v)
    (hb : b.isNaN = false ∧ b.key ≤ v.key + 1) : NotAbove (some s) (some b) := by
  intro s' v' b' hs hv _ hb'
  cases hs
  cases hb'
  cases h.symm.trans hv
  exact hb

theorem describes_rowAt {ordinal : UInt32} {lo hi xmin xmax : String} {l u : UInt64} {id : Int}
    {a b x : F64} (hlo : parseU64 lo = some l) (hhi : parseU64 hi = some u)
    (hid : (l.toNat : Int) ≤ id ∧ id ≤ u.toNat) (hmin : F64.parse xmin = some a)
    (hmax : F64.parse xmax = some b) (hx : x.isNaN = false ∧ a.key - 1 ≤ x.key ∧ x.key ≤ b.key + 1) :
    (footerGroup ordinal lo hi xmin xmax).Describes (rowAt id x) where
  identity := by
    intro lo' hi' id' hids hid'
    cases hids
    cases hid'
    refine ⟨fun l' hl' => ?_, fun u' hu' => ?_⟩
    · cases hlo.symm.trans hl'
      exact hid.1
    · cases hhi.symm.trans hu'
      exact hid.2
  nulls := by intro _ h; cases h
  xmin := notBelow_of_parse hmin ⟨hx.1, hx.2.1⟩
  ymin := notBelow_of_parse (v := ⟨0⟩) (by decide +kernel) (by decide)
  xmax := notAbove_of_parse hmax ⟨hx.1, hx.2.2⟩
  ymax := notAbove_of_parse (v := ⟨0x3FF8000000000000⟩) (by decide +kernel) (by decide)

/-- The groups of the ids up to 9 and from 10, with a row each. -/
def twoFile : List (RawGroup × List FileRow) :=
  [(footerGroup 0 "0" "9" "5" "6", [rowAt 4 ⟨0x4014000000000000⟩]),
    (footerGroup 1 "10" "19" "-0.5" "1", [rowAt 12 F64.zero])]

theorem describes_twoFile : ∀ g ∈ twoFile, ∀ row ∈ g.2, g.1.Describes row := by
  intro g hg row hrow
  rcases List.mem_cons.1 hg with rfl | hg
  · cases List.mem_singleton.1 hrow
    exact describes_rowAt (l := 0) (u := 9) (a := ⟨0x4014000000000000⟩) (b := ⟨0x4018000000000000⟩)
      (by decide +kernel) (by decide +kernel) (by decide) (by decide +kernel) (by decide +kernel)
      (by decide)
  · cases List.mem_singleton.1 hg
    cases List.mem_singleton.1 hrow
    exact describes_rowAt (l := 10) (u := 19) (a := ⟨0xBFE0000000000000⟩)
      (b := ⟨0x3FF0000000000000⟩) (by decide +kernel) (by decide +kernel) (by decide)
      (by decide +kernel) (by decide +kernel) (by decide)

/-- The index of two groups, their envelopes widened by one place. -/
def twoGroups : RowGroupIndex :=
  ⟨[⟨0, 10, 0, 9, some ⟨⟨0x4013FFFFFFFFFFFF⟩, ⟨0x8000000000000001⟩, ⟨0x4018000000000001⟩,
      ⟨0x3FF8000000000001⟩⟩⟩,
    ⟨1, 10, 10, 19, some ⟨⟨0xBFE0000000000001⟩, ⟨0x8000000000000001⟩, ⟨0x3FF0000000000001⟩,
      ⟨0x3FF8000000000001⟩⟩⟩], .ok ()⟩

/-- A group beside the viewport is pruned with its row, the row of the other one is found. -/
theorem rangesFor_lossless_twelve :
    ((twoFile.flatMap Prod.snd).filter fun row => row.inRanges [(10, 19)] &&
      row.intersects F64.le (squareAt F64.zero ⟨0x3FF0000000000000⟩)) = [rowAt 12 F64.zero] := by
  have hindex : admitGroups (fun _ => false) (twoFile.map Prod.fst) = .ok twoGroups := by
    decide +kernel
  have hsel : twoGroups.rangesFor (squareAt F64.zero ⟨0x3FF0000000000000⟩) =
      .ok ⟨2, 1, [(10, 19)]⟩ := by
    decide
  exact (rangesFor_lossless (fun _ _ _ _ => rfl) describes_twoFile hindex hsel).1.trans (by decide)

end SpatialIde.Engine
