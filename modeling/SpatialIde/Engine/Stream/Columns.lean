import SpatialIde.Engine.Stream.Row

/-! # Chunks as rows, and attribute runs as columns

`readRows` is a chunk seen row by row.  `Covers` says that the runs recorded for
the declared attributes, joined, are the values of a list of rows;
`Covers.pushAttrRun` is the step that every cut and every chunk end takes.
-/

namespace SpatialIde.Engine.Stream

open Lib Wkb

/-- The rows `start..stop`. -/
def segment {α : Type} (xs : List α) (start stop : Nat) : List α :=
  (xs.drop start).take (stop - start)

theorem segment_map {α β : Type} (f : α → β) (xs : List α) (start stop : Nat) :
    (segment xs start stop).map f = segment (xs.map f) start stop := by
  rw [segment, segment, List.map_take, List.map_drop]

@[simp] theorem segment_self {α : Type} (xs : List α) (start : Nat) :
    segment xs start start = [] := by
  rw [segment, Nat.sub_self, List.take_zero]

/-- One position more. -/
theorem segment_succ {α : Type} {xs : List α} {start i : Nat} {x : α} (h : start ≤ i)
    (hx : xs[i]? = some x) : segment xs start (i + 1) = segment xs start i ++ [x] := by
  have hlen : i - start < (xs.drop start).length := by
    have := (List.getElem?_eq_some_iff.1 hx).1
    rw [List.length_drop]
    omega
  rw [segment, segment, show i + 1 - start = (i - start) + 1 by omega, List.take_add_one]
  congr 1
  rw [List.getElem?_drop, show start + (i - start) = i by omega, hx]
  rfl

namespace ChunkColumns

/-- What every column of a chunk has in common with the declared attributes and with the chunk. -/
structure Valid (attributes : List Field) (rows : Nat) (cols : ChunkColumns) : Prop where
  ids : cols.ids.length = rows
  attrs : List.Forall₂ (fun (f : Field) (a : ArrayRef) => a.dataType = f.dataType ∧ a.len = rows)
    attributes cols.attrs

def rowAt (cols : ChunkColumns) (i : Nat) : Row where
  id := cols.ids.getD i 0
  geometryType := cols.geoms.dataType
  geometry := cols.geoms.cell i
  attributes := cols.attrs.map fun a => (a.dataType, a.cell i)

/-- A chunk's rows, in order. -/
def rows (cols : ChunkColumns) (n : Nat) : List Row := (List.range n).map cols.rowAt

@[simp] theorem length_rows (cols : ChunkColumns) (n : Nat) : (cols.rows n).length = n := by
  rw [rows, List.length_map, List.length_range]

theorem getElem?_rows {cols : ChunkColumns} {n i : Nat} (h : i < n) :
    (cols.rows n)[i]? = some (cols.rowAt i) := by
  rw [rows, List.getElem?_map, List.getElem?_range h]
  rfl

theorem Valid.attr {attributes : List Field} {rows : Nat} {cols : ChunkColumns}
    (h : cols.Valid attributes rows) {j : Nat} {f : Field} {a : ArrayRef}
    (hf : attributes[j]? = some f) (ha : cols.attrs[j]? = some a) :
    a.dataType = f.dataType ∧ a.len = rows := by
  have hmem : (f, a) ∈ attributes.zip cols.attrs :=
    List.mem_of_getElem? (List.getElem?_zip_eq_some.2 ⟨hf, ha⟩)
  exact (List.forall₂_iff_zip.1 h.attrs).2 hmem

theorem rowAt_attrBytes (cols : ChunkColumns) (i : Nat) :
    (cols.rowAt i).attrBytes = attrRowBytes cols.attrs i := by
  rw [Row.attrBytes, attrRowBytes, rowAt, List.map_map]
  rfl

end ChunkColumns

/-- A row's value of the declared attribute at a position. -/
def Row.value (j : Nat) (x : Row) : Cell := (x.attributes[j]?).elim none Prod.snd

/-- The row carries a value of each declared type. -/
def Row.Shaped (attributes : List Field) (x : Row) : Prop :=
  x.attributes.map Prod.fst = attributes.map Field.dataType

/-- **Runs are columns**: joined, the runs of every declared attribute are the values of the rows. -/
structure Covers (attributes : List Field) (attrs : List (List ArrayRef)) (xs : List Row) :
    Prop where
  length : attrs.length = attributes.length
  values : ∀ (j : Nat) (runs : List ArrayRef), attrs[j]? = some runs → runs.flatMap ArrayRef.cells = xs.map (Row.value j)
  types : ∀ (j : Nat) (f : Field) (runs : List ArrayRef), attributes[j]? = some f →
    attrs[j]? = some runs → ∀ a ∈ runs, a.dataType = f.dataType

theorem covers_new (attributes : List Field) :
    Covers attributes (List.replicate attributes.length []) [] := by
  have hnil : ∀ (j : Nat) (runs : List ArrayRef),
      (List.replicate attributes.length ([] : List ArrayRef))[j]? = some runs → runs = [] :=
    fun j runs h => List.eq_of_mem_replicate (List.mem_of_getElem? h)
  refine ⟨List.length_replicate, ?_, ?_⟩
  · intro j runs h
    rw [hnil j runs h]
    rfl
  · intro j f runs _ h a ha
    rw [hnil j runs h] at ha
    cases ha

theorem getElem?_pushRuns (start stop : Nat) : ∀ (attrs : List (List ArrayRef))
    (cols : List ArrayRef) (j : Nat), attrs.length = cols.length →
    (Pending.pushRuns start stop attrs cols)[j]? =
      (attrs[j]?).bind fun runs => (cols[j]?).map fun col : ArrayRef =>
        runs ++ [col.slice start (stop - start)] := by
  intro attrs
  induction attrs with
  | nil =>
    intro cols j _
    cases cols <;> rfl
  | cons runs attrs ih =>
    intro cols j h
    cases cols with
    | nil => cases h
    | cons col cols =>
      cases j with
      | zero => rfl
      | succ j =>
        rw [Pending.pushRuns, List.getElem?_cons_succ, List.getElem?_cons_succ,
          List.getElem?_cons_succ]
        exact ih cols j (Nat.succ.inj h)

theorem length_pushRuns (start stop : Nat) : ∀ (attrs : List (List ArrayRef))
    (cols : List ArrayRef), (Pending.pushRuns start stop attrs cols).length = attrs.length := by
  intro attrs
  induction attrs with
  | nil => intro cols; cases cols <;> rfl
  | cons runs attrs ih =>
    intro cols
    cases cols with
    | nil => rfl
    | cons col cols => rw [Pending.pushRuns, List.length_cons, ih, List.length_cons]

/-- The cells of a chunk's attribute are its rows' values of it. -/
theorem ChunkColumns.Valid.cells_eq {attributes : List Field} {n : Nat} {cols : ChunkColumns}
    (h : cols.Valid attributes n) {j : Nat} {a : ArrayRef} (ha : cols.attrs[j]? = some a) :
    a.cells = (cols.rows n).map (Row.value j) := by
  obtain ⟨f, hf⟩ : ∃ f, attributes[j]? = some f := by
    have hj := (List.getElem?_eq_some_iff.1 ha).1
    exact ⟨_, List.getElem?_eq_getElem (by rw [h.attrs.length_eq]; exact hj)⟩
  have hlen : a.cells.length = n := (h.attr hf ha).2
  refine List.ext_getElem? fun i => ?_
  rw [ChunkColumns.rows, List.map_map, List.getElem?_map]
  by_cases hi : i < n
  · rw [List.getElem?_range hi, List.getElem?_eq_getElem (by omega), Option.map_some,
      Function.comp_apply, Row.value, ChunkColumns.rowAt, List.getElem?_map, ha]
    show _ = some (a.cell i)
    rw [ArrayRef.cell, List.getD_eq_getElem _ _ (by omega)]
  · rw [List.getElem?_eq_none (by omega), List.getElem?_eq_none (by rw [List.length_range]; omega)]
    rfl

theorem ChunkColumns.Valid.shaped {attributes : List Field} {n : Nat} {cols : ChunkColumns}
    (h : cols.Valid attributes n) {x : Row} (hx : x ∈ cols.rows n) : x.Shaped attributes := by
  obtain ⟨i, -, rfl⟩ := List.mem_map.1 hx
  unfold Row.Shaped ChunkColumns.rowAt
  rw [List.map_map]
  have hattrs := h.attrs
  clear h
  generalize cols.attrs = attrs at hattrs
  induction hattrs with
  | nil => rfl
  | cons hfa _ ih =>
    rw [List.map_cons, List.map_cons, ih, ← hfa.1]
    rfl

/-- **One more run**: the columns then cover the rows of the run as well. -/
theorem Covers.pushAttrRun {attributes : List Field} {p : Pending} {xs : List Row} {n : Nat}
    {cols : ChunkColumns} (h : Covers attributes p.attrs xs) (hv : cols.Valid attributes n)
    (start stop : Nat) : Covers attributes (p.pushAttrRun cols.attrs start stop).attrs
      (xs ++ segment (cols.rows n) start stop) := by
  unfold Pending.pushAttrRun
  by_cases hle : stop ≤ start
  · rw [if_pos hle, segment, Nat.sub_eq_zero_of_le hle, List.take_zero, List.append_nil]
    exact h
  · rw [if_neg hle]
    have hlen : p.attrs.length = cols.attrs.length := by rw [h.length, hv.attrs.length_eq]
    have hget : ∀ (j : Nat) (runs' : List ArrayRef),
        (Pending.pushRuns start stop p.attrs cols.attrs)[j]? = some runs' →
        ∃ (runs : List ArrayRef) (col : ArrayRef), p.attrs[j]? = some runs ∧
          cols.attrs[j]? = some col ∧ runs' = runs ++ [col.slice start (stop - start)] := by
      intro j runs' hj
      rw [getElem?_pushRuns _ _ _ _ _ hlen, Option.bind_eq_some_iff] at hj
      obtain ⟨runs, hruns, hj⟩ := hj
      obtain ⟨col, hcol, rfl⟩ := Option.map_eq_some_iff.1 hj
      exact ⟨runs, col, hruns, hcol, rfl⟩
    refine ⟨?_, ?_, ?_⟩
    · rw [← h.length]
      exact length_pushRuns _ _ _ _
    · intro j runs' hj
      obtain ⟨runs, col, hruns, hcol, rfl⟩ := hget j runs' hj
      rw [List.flatMap_append, h.values j runs hruns, List.map_append, segment_map,
        ← hv.cells_eq hcol]
      simp [ArrayRef.slice, segment]
    · intro j f runs' hf hj a ha
      obtain ⟨runs, col, hruns, hcol, rfl⟩ := hget j runs' hj
      rcases List.mem_append.1 ha with ha | ha
      · exact h.types j f runs hf hruns a ha
      · rw [List.mem_singleton.1 ha]
        exact (hv.attr hf hcol).1

/-! ### Reading a chunk -/

variable (K : Kernels) (plan : Plan)

theorem columnByName_len {chunk : RecordBatch} {name : String} {col : ArrayRef}
    (h : chunk.columnByName name = some col) : col.len = chunk.numRows := by
  unfold RecordBatch.columnByName at h
  split at h
  · cases h
    exact List.length_map _
  · cases h

variable {K plan}

theorem columnU64_length {chunk : RecordBatch} {name : String} {ids : List UInt64}
    (h : columnU64 K chunk name = .ok ids) : ids.length = chunk.numRows := by
  unfold columnU64 at h
  cases hcol : chunk.columnByName name with
  | none => rw [hcol] at h; cases h
  | some col =>
    rw [← columnByName_len hcol]
    simp only [hcol] at h
    split at h
    · cases h
    · split at h
      · cases h
        exact List.length_map _
      · exact (mapM_eq_ok.1 h).length_eq.symm
      · cases h

theorem decodeDictionary_len {col col' : ArrayRef} {t : DataType}
    (h : decodeDictionaryChunkColumn K col t = .ok col') : col'.len = col.len := by
  unfold decodeDictionaryChunkColumn at h
  split at h
  · split at h
    · cases h
    · cases h
      exact List.length_map _
  · cases h
    rfl

theorem readAttribute_ok {chunk : RecordBatch} {f : Field} {a : ArrayRef}
    (h : readAttribute K chunk f = .ok a) : a.dataType = f.dataType ∧ a.len = chunk.numRows := by
  obtain ⟨col, hcol, h⟩ := bind_eq_ok.1 h
  obtain ⟨col', hdec, h⟩ := bind_eq_ok.1 h
  rw [okOr_eq_ok] at hcol
  by_cases ht : col'.dataType = f.dataType
  · rw [if_neg (not_not.2 ht)] at h
    cases h
    exact ⟨ht, (decodeDictionary_len hdec).trans (columnByName_len hcol)⟩
  · rw [if_pos ht] at h
    cases h

/-- **What is read of a chunk** fits the declared attributes and the chunk. -/
theorem readChunk_valid {chunk : RecordBatch} {cols : ChunkColumns}
    (h : readChunk K plan chunk = .ok cols) :
    cols.Valid plan.envelope.attributes chunk.numRows := by
  obtain ⟨ids, hids, h⟩ := bind_eq_ok.1 h
  obtain ⟨geoms, -, h⟩ := bind_eq_ok.1 h
  obtain ⟨attrs, hattrs, h⟩ := bind_eq_ok.1 h
  cases h
  exact ⟨columnU64_length hids, (mapM_eq_ok.1 hattrs).imp fun _ _ => readAttribute_ok⟩

variable (K plan)

/-- A chunk as its rows. -/
def readRows (chunk : RecordBatch) : Except EngineError (List Row) :=
  (readChunk K plan chunk).map fun cols => cols.rows chunk.numRows

end SpatialIde.Engine.Stream
