import Mathlib.Data.List.GetD
import SpatialIde.Shell.Canvas.Pick
import SpatialIde.Shell.Canvas.TileIngest

/-! # A pick names the feature that was drawn

A batch that was decoded, and after that trimmed and deduplicated, is some rows of its source table
in their order (`DrawnFrom`).  Every operation on it keeps this, and the datum at a place of its
layer is a part of the row that a pick of the place names.
-/

namespace SpatialIde.Shell.Canvas

open Lib

/-! ### The rows of a table -/

/-- A row of the table a batch was decoded from. -/
structure SourceRow where
  id : UInt64
  parts : List Part
  attributes : List AttributeCell
  deriving DecidableEq, Repr, Inhabited

def sourceRow (table : Table) (geometryColumn encoding : String) (projection : Option (List String))
    (r : Nat) : Except DecodeError SourceRow :=
  match table.getChild "id", table.getChild geometryColumn with
  | some idVector, some geomVector => do
    let id ← rowId idVector.cells r
    let parts ← rowParts encoding geomVector.cells r
    let attributes ← (projection.getD []).mapM (readNamed table.lastChild r)
    pure ⟨id, parts, attributes⟩
  | _, _ => .error (.thrown "no such column")

/-- The parts of some rows, each with its row, in the order they are drawn in. -/
def drawnParts (kept : List Nat) (row : Nat → SourceRow) : List (Nat × Part) :=
  kept.flatMap fun r => (row r).parts.map fun part => (r, part)

/-- What the code makes of a decoded batch. -/
inductive Derived (decoded : ResidentBatch) : ResidentBatch → Prop where
  | decoded : Derived decoded decoded
  | withinCeiling {b : ResidentBatch} (heldBytes : Nat) (h : Derived decoded b) :
      Derived decoded (withinAttributeCeiling b heldBytes)
  | trimmed {b : ResidentBatch} (remainingVertices : Int) (h : Derived decoded b) :
      Derived decoded (trimBatchToVertexBudget b remainingVertices)
  | added {b b' : ResidentBatch} {s s' : TileResidentSet} {tileKey : String} {isPartial : Bool}
      {duplicatesDropped : Nat} (h : Derived decoded b)
      (hadd : s.addBatch tileKey b isPartial = (s', .ok ⟨some b', duplicatesDropped⟩)) :
      Derived decoded b'

/-! ### What every batch keeps -/

/-- The attributes of a batch of the rows `kept`. -/
def AttributesOf (ipc : Ipc) (table : Table) (projection : Option (List String)) (kept : List Nat) :
    Attributes → Prop
  | .unprojected => projection = none
  | .notHeld => True
  | .held block =>
    projection = some block.names ∧ block.data = ipc.tableToIPC (table.select block.names) ∧
      ∀ i r, kept[i]? = some r → block.index i = some r

/-- A batch whose rows are the rows `kept` of a table. -/
structure DrawnFrom (ipc : Ipc) (table : Table) (projection : Option (List String))
    (row : Nat → SourceRow) (kept : List Nat) (b : ResidentBatch) : Prop where
  increasing : kept.Pairwise (· < ·)
  ids : b.ids = kept.map fun r => (row r).id
  parts : b.parts = kept.map fun r => (row r).parts
  partToRow : b.partToRow = owners 0 b.parts
  partCount : b.partCount = b.partToRow.length
  attributes : AttributesOf ipc table projection kept b.attributes

namespace DrawnFrom

variable {ipc : Ipc} {table : Table} {projection : Option (List String)} {row : Nat → SourceRow}
  {kept : List Nat} {b : ResidentBatch}

theorem length_ids (h : DrawnFrom ipc table projection row kept b) : b.ids.length = kept.length := by
  rw [h.ids, List.length_map]

theorem length_parts (h : DrawnFrom ipc table projection row kept b) :
    b.parts.length = kept.length := by
  rw [h.parts, List.length_map]

theorem withinCeiling (h : DrawnFrom ipc table projection row kept b) (heldBytes : Nat) :
    DrawnFrom ipc table projection row kept (withinAttributeCeiling b heldBytes) := by
  rw [withinAttributeCeiling]
  cases hattr : b.attributes with
  | unprojected => exact h
  | notHeld => exact h
  | held block =>
    show DrawnFrom ipc table projection row kept (if _ then _ else _)
    split_ifs with hbytes
    · exact h
    · exact { h with attributes := trivial }

/-! ### The trim -/

/-- A trim keeps the first rows. -/
theorem trimmed (h : DrawnFrom ipc table projection row kept b) (remaining : Int) :
    ∃ m, DrawnFrom ipc table projection row (kept.take m) (trimBatchToVertexBudget b remaining) := by
  have hall : b.parts.take b.ids.length = b.parts := by
    rw [h.length_ids, ← h.length_parts, List.take_length]
  obtain ⟨v', m, _, heq, _⟩ := trimLoop_eq remaining b.parts 0 0 0
  rw [trimBatchToVertexBudget, hall, heq, Nat.zero_add, Nat.zero_add]
  have howners : b.partToRow.take (b.parts.take m).flatten.length = owners 0 (b.parts.take m) := by
    rw [h.partToRow, owners_take]
  refine ⟨m, h.increasing.sublist (List.take_sublist m kept), ?_, ?_, howners, ?_, ?_⟩
  · rw [List.map_take, ← h.ids]
  · rw [List.map_take, ← h.parts]
  · show _ = (b.partToRow.take (b.parts.take m).flatten.length).length
    rw [howners, length_owners]
  · have hattr := h.attributes
    cases hb : b.attributes with
    | unprojected => rw [hb] at hattr; exact hattr
    | notHeld => trivial
    | held block =>
      rw [hb] at hattr
      refine ⟨hattr.1, hattr.2.1, ?_⟩
      intro i r hi
      refine hattr.2.2 i r ?_
      rw [List.getElem?_take] at hi
      split_ifs at hi
      exact hi

/-! ### The deduplication -/

/-- The scan keeps some of the rows, in their order. -/
theorem scan_keepIdx (tileKey : String) (ids : List UInt64) (n : Nat)
    (acc : TileResidentSet.Scan) :
    ∃ idx, ((ids.zipIdx n).foldl (TileResidentSet.Scan.row tileKey) acc).keepIdx =
      acc.keepIdx ++ idx ∧ idx.Sublist (List.range' n ids.length) := by
  induction ids generalizing n acc with
  | nil => exact ⟨[], (List.append_nil _).symm, List.Sublist.slnil⟩
  | cons id ids ih =>
    rw [List.zipIdx_cons, List.foldl_cons, List.length_cons, List.range'_succ]
    obtain ⟨idx, hidx, hsub⟩ := ih (n + 1) (TileResidentSet.Scan.row tileKey acc (id, n))
    rw [hidx, TileResidentSet.Scan.row]
    split_ifs
    · exact ⟨idx, rfl, hsub.cons n⟩
    · exact ⟨idx, rfl, hsub.cons n⟩
    · exact ⟨n :: idx, List.append_assoc .., hsub.cons_cons n⟩

theorem scan_sublist (s : TileResidentSet) (tileKey : String) (ids : List UInt64) :
    (s.scan tileKey ids).keepIdx.Sublist (List.range ids.length) := by
  obtain ⟨idx, hidx, hsub⟩ := scan_keepIdx tileKey ids 0 ⟨s, [], 0⟩
  rw [TileResidentSet.scan, hidx, List.range_eq_range']
  exact hsub

/-- A batch that lost some rows is drawn from the others. -/
theorem keptRows (h : DrawnFrom ipc table projection row kept b) {keepIdx : List Nat}
    (hidx : keepIdx.Sublist (List.range b.ids.length)) {b' : ResidentBatch}
    (hb' : TileResidentSet.keptRows b keepIdx = .ok b') :
    DrawnFrom ipc table projection row (keepIdx.map fun j => kept.getD j 0) b' := by
  have hlt : ∀ j ∈ keepIdx, j < kept.length := by
    intro j hj
    have hmem := List.mem_range.1 (hidx.subset hj)
    rw [h.length_ids] at hmem
    exact hmem
  rw [TileResidentSet.keptRows] at hb'
  cases hattr : TileResidentSet.keptAttributes b.attributes keepIdx with
  | error text =>
    rw [hattr] at hb'
    cases hb'
  | ok attributes =>
    rw [hattr] at hb'
    cases hb'
    refine ⟨?_, ?_, ?_, rfl, rfl, ?_⟩
    · have hpair := List.pairwise_lt_range.sublist hidx
      refine List.pairwise_map.2 (hpair.imp_of_mem ?_)
      intro j j' hj hj' hjj
      rw [List.getD_eq_getElem _ _ (hlt j hj), List.getD_eq_getElem _ _ (hlt j' hj')]
      exact List.pairwise_iff_getElem.1 h.increasing j j' (hlt j hj) (hlt j' hj') hjj
    · show List.map _ keepIdx = _
      rw [List.map_map]
      refine List.map_congr_left ?_
      intro j hj
      rw [h.ids, List.getD_eq_getElem _ _ (by rw [List.length_map]; exact hlt j hj),
        List.getElem_map, Function.comp_apply, List.getD_eq_getElem _ _ (hlt j hj)]
    · show List.map _ keepIdx = _
      rw [List.map_map]
      refine List.map_congr_left ?_
      intro j hj
      rw [h.parts, List.getD_eq_getElem _ _ (by rw [List.length_map]; exact hlt j hj),
        List.getElem_map, Function.comp_apply, List.getD_eq_getElem _ _ (hlt j hj)]
    · have hold := h.attributes
      cases hb : b.attributes with
      | unprojected =>
        rw [hb] at hold hattr
        cases hattr
        exact hold
      | notHeld =>
        rw [hb] at hattr
        cases hattr
        trivial
      | held block =>
        rw [hb] at hold hattr
        rw [TileResidentSet.keptAttributes] at hattr
        cases hrows : block.rows with
        | some rows =>
          rw [hrows] at hattr
          cases hattr
        | none =>
          rw [hrows] at hattr
          cases hattr
          refine ⟨hold.1, hold.2.1, ?_⟩
          intro i r hi
          rw [List.getElem?_map] at hi
          obtain ⟨j, hj, hr⟩ := Option.map_eq_some_iff.1 hi
          -- Without a row map, a row of the batch is the row of the block.
          have hself := hold.2.2 j r (by
            rw [List.getElem?_eq_getElem (hlt j (List.mem_of_getElem? hj)), ← hr,
              List.getD_eq_getElem _ _ (hlt j (List.mem_of_getElem? hj))])
          rw [BatchAttributes.index, hrows] at hself
          cases hself
          exact hj

theorem added (h : DrawnFrom ipc table projection row kept b) {s s' : TileResidentSet}
    {tileKey : String} {isPartial : Bool} {b' : ResidentBatch} {duplicatesDropped : Nat}
    (hadd : s.addBatch tileKey b isPartial = (s', .ok ⟨some b', duplicatesDropped⟩)) :
    ∃ kept', kept' ⊆ kept ∧ DrawnFrom ipc table projection row kept' b' := by
  have hsub := scan_sublist s tileKey b.ids
  rw [TileResidentSet.addBatch] at hadd
  split_ifs at hadd with hnone hdup
  · cases hadd
  · -- The batch itself is stored.
    cases hadd
    exact ⟨kept, List.Subset.refl kept, h⟩
  · cases hkept : TileResidentSet.keptRows b (s.scan tileKey b.ids).keepIdx with
    | error text =>
      rw [hkept] at hadd
      cases hadd
    | ok trimmed =>
      rw [hkept] at hadd
      cases hadd
      refine ⟨_, ?_, h.keptRows hsub hkept⟩
      intro r hr
      obtain ⟨j, hj, heq⟩ := List.mem_map.1 hr
      have hlt : j < kept.length := by
        have hmem := List.mem_range.1 (hsub.subset hj)
        rw [h.length_ids] at hmem
        exact hmem
      rw [← heq, List.getD_eq_getElem _ _ hlt]
      exact List.getElem_mem hlt

/-- Whatever the code makes of a batch is some of its rows. -/
theorem derived {decoded : ResidentBatch} (h : DrawnFrom ipc table projection row kept decoded)
    (hd : Derived decoded b) :
    ∃ kept', kept' ⊆ kept ∧ DrawnFrom ipc table projection row kept' b := by
  induction hd with
  | decoded => exact ⟨kept, List.Subset.refl kept, h⟩
  | withinCeiling heldBytes _ ih =>
    obtain ⟨kept', hsub, hkept⟩ := ih
    exact ⟨kept', hsub, hkept.withinCeiling heldBytes⟩
  | trimmed remainingVertices _ ih =>
    obtain ⟨kept', hsub, hkept⟩ := ih
    obtain ⟨m, hm⟩ := hkept.trimmed remainingVertices
    exact ⟨kept'.take m, fun r hr => hsub (List.mem_of_mem_take hr), hm⟩
  | added _ hadd ih =>
    obtain ⟨kept', hsub, hkept⟩ := ih
    obtain ⟨kept'', hsub', hadded⟩ := hkept.added hadd
    exact ⟨kept'', fun r hr => hsub (hsub' hr), hadded⟩

end DrawnFrom

/-! ### The decode -/

/-- The column a readable projection takes under a name. -/
theorem lastChild_readable {table : Table} {geometryColumn name : String} {names : List String}
    (hfields : table.fieldNames = "id" :: geometryColumn :: names)
    (hread : (table.columns.drop 2).find? (fun c => !isReadableAttributeType c.cells) = none)
    (hname : name ∈ names) :
    ∃ c, table.lastChild name = some c ∧ isReadableAttributeType c.cells = true := by
  rw [Table.fieldNames] at hfields
  match hcols : table.columns with
  | [] =>
    rw [hcols] at hfields
    cases hfields
  | [_] =>
    rw [hcols] at hfields
    exact absurd (congrArg List.length hfields) (by simp)
  | c₀ :: c₁ :: cs =>
    rw [hcols] at hfields hread
    have hnames : cs.map Column.name = names := by
      rw [List.map_cons, List.map_cons] at hfields
      exact (List.cons.inj (List.cons.inj hfields).2).2
    rw [← hnames] at hname
    obtain ⟨c, hc, hcname⟩ := List.mem_map.1 hname
    have hsome : (cs.reverse.find? fun c => c.name = name).isSome := by
      rw [List.find?_isSome]
      exact ⟨c, List.mem_reverse.2 hc, decide_eq_true hcname⟩
    obtain ⟨c', hc'⟩ := Option.isSome_iff_exists.1 hsome
    refine ⟨c', ?_, ?_⟩
    · rw [Table.lastChild, List.findRev?_eq_find?_reverse, hcols, List.reverse_cons,
        List.reverse_cons, List.append_assoc, List.find?_append, hc']
      rfl
    · have hall := List.find?_eq_none.1 hread c'
        (List.mem_reverse.1 (List.mem_of_find?_eq_some hc'))
      simpa using hall

theorem readCell_readable {vector : Cells} (h : isReadableAttributeType vector = true) (i : Nat) :
    ∃ value, readCell vector i = .ok value := by
  cases vector with
  | utf8 cells => exact ⟨_, rfl⟩
  | bool cells => exact ⟨_, rfl⟩
  | int cells => exact ⟨_, rfl⟩
  | float precision cells =>
    cases precision with
    | half => simp [isReadableAttributeType] at h
    | single => exact ⟨_, rfl⟩
    | double => exact ⟨_, rfl⟩
  | nested cells => simp [isReadableAttributeType] at h

/-- What `sourceRow` reads, where it reads a row. -/
def rowAt (table : Table) (geometryColumn encoding : String) (projection : Option (List String))
    (r : Nat) : SourceRow :=
  (sourceRow table geometryColumn encoding projection r).toOption.getD default

/-- The values of the projected columns can be read in every row. -/
theorem readNamed_total {table : Table} {geometryColumn : String} {names : List String}
    (hfields : table.fieldNames = "id" :: geometryColumn :: names)
    (hread : (table.columns.drop 2).find? (fun c => !isReadableAttributeType c.cells) = none)
    (r : Nat) : ∃ cells, names.mapM (readNamed table.lastChild r) = .ok cells := by
  refine mapM_total ?_
  intro name hname
  obtain ⟨c, hc, hreadable⟩ := lastChild_readable hfields hread hname
  obtain ⟨value, hvalue⟩ := readCell_readable hreadable r
  refine ⟨⟨name, value⟩, ?_⟩
  rw [readNamed, hc]
  show (readCell c.cells r).map _ = _
  rw [hvalue]
  rfl

/-- The columns a decode has copied hold every row of the table. -/
theorem copyAttributes_eq {ipc : Ipc} {table : Table} {geometryColumn : String}
    {projection : Option (List String)} {attributes : Attributes}
    (h : copyAttributes ipc table geometryColumn projection = .ok attributes) (n : Nat) :
    AttributesOf ipc table projection (List.range n) attributes ∧
      ∀ r, ∃ cells, (projection.getD []).mapM (readNamed table.lastChild r) = .ok cells := by
  unfold copyAttributes at h
  dsimp only at h
  split_ifs at h with hnames
  rw [not_or, not_not, not_not] at hnames
  cases projection with
  | none =>
    cases h
    exact ⟨rfl, fun r => ⟨[], rfl⟩⟩
  | some names =>
    cases hread : (table.columns.drop 2).find? fun c => !isReadableAttributeType c.cells with
    | some c =>
      simp only [hread] at h
      cases h
    | none =>
      simp only [hread] at h
      cases h
      refine ⟨⟨rfl, rfl, ?_⟩, readNamed_total hnames.2 hread⟩
      intro i r hi
      obtain ⟨hlt, heq⟩ := List.getElem?_eq_some_iff.1 hi
      rw [List.getElem_range] at heq
      exact congrArg some heq

theorem DrawnFrom.of_decodeTable {ipc : Ipc} {streamHandle : String} {batchSeq : Nat}
    {table : Table} {geometryColumn expectedEncoding : String}
    {projection : Option (List String)} {filter : Option Filter} {decoded : ResidentBatch}
    (h : decodeTable ipc streamHandle batchSeq table geometryColumn expectedEncoding projection
      filter = .ok decoded) :
    decoded.streamHandle = streamHandle ∧ decoded.batchSeq = batchSeq ∧
      decoded.filter = filter ∧
      DrawnFrom ipc table projection (rowAt table geometryColumn expectedEncoding projection)
        (List.range table.numRows) decoded ∧
      ∀ r < table.numRows, sourceRow table geometryColumn expectedEncoding projection r =
        .ok (rowAt table geometryColumn expectedEncoding projection r) := by
  obtain ⟨idVector, geomVector, attributes, d, hid, hgeom, hcopy, hrows, hdecoded⟩ :=
    decodeTable_eq_ok h
  rw [hdecoded]
  obtain ⟨hids, hparts, howners, _, hrow⟩ := decodeRows_eq hrows
  obtain ⟨hattr, hcells⟩ := copyAttributes_eq hcopy table.numRows
  have hsource : ∀ r < table.numRows, ∃ cells,
      sourceRow table geometryColumn expectedEncoding projection r =
        .ok ⟨d.ids.getD r 0, d.parts.getD r [], cells⟩ := by
    intro r hr
    obtain ⟨id, parts, hid', hps, hgetid, hgetps⟩ := hrow r hr
    obtain ⟨cells, hc⟩ := hcells r
    refine ⟨cells, ?_⟩
    rw [sourceRow, hid, hgeom]
    show (rowId idVector.cells r >>= _) = _
    rw [List.getD_eq_getElem?_getD, List.getD_eq_getElem?_getD, hgetid, hgetps, hid']
    show (rowParts expectedEncoding geomVector.cells r >>= _) = _
    rw [hps]
    show ((projection.getD []).mapM (readNamed table.lastChild r) >>= _) = _
    rw [hc]
    rfl
  have hrowAt : ∀ r < table.numRows, sourceRow table geometryColumn expectedEncoding
      projection r = .ok (rowAt table geometryColumn expectedEncoding projection r) := by
    intro r hr
    obtain ⟨cells, hc⟩ := hsource r hr
    rw [rowAt, hc]
    rfl
  refine ⟨rfl, rfl, rfl, ⟨List.pairwise_lt_range, ?_, ?_, howners, rfl, hattr⟩, hrowAt⟩
  · refine List.ext_getElem (by rw [List.length_map, List.length_range, hids]) ?_
    intro r hr hr'
    obtain ⟨cells, hc⟩ := hsource r (hids ▸ hr)
    rw [List.getElem_map, List.getElem_range, rowAt, hc]
    exact (List.getD_eq_getElem _ _ hr).symm
  · refine List.ext_getElem (by rw [List.length_map, List.length_range, hparts]) ?_
    intro r hr hr'
    obtain ⟨cells, hc⟩ := hsource r (hparts ▸ hr)
    rw [List.getElem_map, List.getElem_range, rowAt, hc]
    exact (List.getD_eq_getElem _ _ hr).symm

/-! ### The layer -/

/-- A part of a geometry has the shape its kind draws. -/
theorem datumOf_featureParts {encoding : String} {geometry : Nested} {parts : List Part}
    (h : featureParts encoding geometry = .ok parts) (toLocal : Position → Position)
    {part : Part} (hpart : part ∈ parts) :
    ∃ datum, datumOf (geometryKindOf encoding) toLocal part = .ok datum := by
  rw [featureParts] at h
  rw [geometryKindOf]
  split_ifs at h ⊢ with hpoint hline
  · obtain ⟨p, _, h⟩ := bind_eq_ok.1 h
    cases h
    rw [List.mem_singleton.1 hpart]
    exact ⟨.point (toLocal p), rfl⟩
  · obtain ⟨sourceLines, _, h⟩ := bind_eq_ok.1 h
    obtain ⟨v, _, hv⟩ := exists_of_mem_mapM h hpart
    obtain ⟨ring, _, hv⟩ := bind_eq_ok.1 hv
    cases hv
    exact ⟨.path (ring.map toLocal), rfl⟩
  · exact ⟨.polygon (part.map (List.map toLocal)), rfl⟩

theorem datumOf_rowParts {encoding : String} {geomVector : Cells} {i : Nat} {parts : List Part}
    (h : rowParts encoding geomVector i = .ok parts) (toLocal : Position → Position)
    {part : Part} (hpart : part ∈ parts) :
    ∃ datum, datumOf (geometryKindOf encoding) toLocal part = .ok datum := by
  obtain ⟨geometry, _, h⟩ := bind_eq_ok.1 h
  cases geometry with
  | none =>
    cases h
    cases hpart
  | some geometry => exact datumOf_featureParts h toLocal hpart

theorem sourceRow_eq_ok {table : Table} {geometryColumn encoding : String}
    {projection : Option (List String)} {r : Nat} {row : SourceRow}
    (h : sourceRow table geometryColumn encoding projection r = .ok row) :
    (∃ geomVector, rowParts encoding geomVector r = .ok row.parts) ∧
      (projection.getD []).mapM (readNamed table.lastChild r) = .ok row.attributes := by
  rw [sourceRow] at h
  cases hid : table.getChild "id" with
  | none =>
    simp only [hid] at h
    cases h
  | some idVector =>
    cases hgeom : table.getChild geometryColumn with
    | none =>
      simp only [hid, hgeom] at h
      cases h
    | some geomVector =>
      simp only [hid, hgeom] at h
      obtain ⟨id, _, h⟩ := bind_eq_ok.1 h
      obtain ⟨parts, hparts, h⟩ := bind_eq_ok.1 h
      obtain ⟨cells, hcells, h⟩ := bind_eq_ok.1 h
      cases h
      exact ⟨⟨geomVector.cells, hparts⟩, hcells⟩

/-- The data of a layer, datum by datum. -/
theorem pickableLayer_eq_ok {toLocal : Position → Position} {kind : GeometryKind}
    {b : ResidentBatch} {layer : Layer} (h : pickableLayer toLocal kind b = .ok layer) :
    layer.data.length = b.parts.flatten.length ∧
      ∀ (k : Nat) (part : Part), b.parts.flatten[k]? = some part →
        ∃ datum, layer.data[k]? = some datum ∧ datumOf kind toLocal part = .ok datum := by
  rw [pickableLayer] at h
  obtain ⟨_, _, h⟩ := bind_eq_ok.1 h
  obtain ⟨data, hdata, h⟩ := bind_eq_ok.1 h
  cases h
  obtain ⟨hlen, hget⟩ := List.forall₂_iff_get.1 (mapM_eq_ok.1 hdata)
  refine ⟨hlen.symm, ?_⟩
  intro k part hk
  obtain ⟨hlt, heq⟩ := List.getElem?_eq_some_iff.1 hk
  have hlt' : k < data.length := hlen ▸ hlt
  refine ⟨data[k], List.getElem?_eq_getElem hlt', ?_⟩
  rw [← heq]
  exact hget k hlt hlt'

theorem flatten_parts (kept : List Nat) (row : Nat → SourceRow) :
    (kept.map fun r => (row r).parts).flatten = (drawnParts kept row).map Prod.snd := by
  induction kept with
  | nil => rfl
  | cons r kept ih =>
    have hcons : drawnParts (r :: kept) row =
        ((row r).parts.map fun part => (r, part)) ++ drawnParts kept row := List.flatMap_cons ..
    rw [List.map_cons, List.flatten_cons, ih, hcons, List.map_append, List.map_map]
    congr 1
    exact (List.map_id _).symm

/-! ### The pick -/

/-- What a batch shows of the values of a row. -/
def valuesOf (attributes : Attributes) (cells : List AttributeCell) : AttributeRow :=
  match attributes with
  | .unprojected => .unprojected
  | .notHeld => .notHeld
  | .held _ => .cells cells

/-- What a click on a feature resolves to. -/
def clickOf (pick : PickResult) (featureParts : List Part) (values : AttributeRow)
    (filter : Option Filter) : ClickPick :=
  match extentOfBatch [featureParts] with
  | none => .nothing
  | some bounds => .feature pick bounds values filter

theorem Derived.handles {decoded b : ResidentBatch} (h : Derived decoded b) :
    b.streamHandle = decoded.streamHandle ∧ b.batchSeq = decoded.batchSeq ∧
      b.filter = decoded.filter := by
  induction h with
  | decoded => exact ⟨rfl, rfl, rfl⟩
  | @withinCeiling b heldBytes _ ih =>
    rw [withinAttributeCeiling]
    split
    · split_ifs
      · exact ih
      · exact ih
    · exact ih
  | trimmed _ _ ih => exact ih
  | @added b b' s s' tileKey isPartial _ _ hadd ih =>
    rw [TileResidentSet.addBatch] at hadd
    split_ifs at hadd
    · cases hadd
    · cases hadd
      exact ih
    · cases hkept : TileResidentSet.keptRows b (s.scan tileKey b.ids).keepIdx with
      | error text =>
        rw [hkept] at hadd
        cases hadd
      | ok trimmed =>
        rw [hkept] at hadd
        cases hadd
        rw [TileResidentSet.keptRows] at hkept
        cases hattr : TileResidentSet.keptAttributes b.attributes
            (s.scan tileKey b.ids).keepIdx with
        | error text =>
          rw [hattr] at hkept
          cases hkept
        | ok attributes =>
          rw [hattr] at hkept
          cases hkept
          exact ih

namespace DrawnFrom

variable {ipc : Ipc} {table : Table} {projection : Option (List String)} {row : Nat → SourceRow}
  {kept : List Nat} {b : ResidentBatch}

/-- A place of the data names the row its part belongs to. -/
theorem rowOf_eq (h : DrawnFrom ipc table projection row kept b) {k r : Nat} {part : Part}
    (hk : (drawnParts kept row)[k]? = some (r, part)) :
    ∃ i, rowOf b (some (k : Int)) = some i ∧ kept[i]? = some r := by
  obtain ⟨i, howner, hkept, _⟩ := getElem?_owners (n := 0) hk
  rw [← h.parts, ← h.partToRow, Nat.zero_add] at howner
  refine ⟨i, ?_, hkept⟩
  have hlt : k < b.partCount := by
    rw [h.partCount]
    exact (List.getElem?_eq_some_iff.1 howner).1
  rw [rowOf]
  show (if _ then _ else b.partToRow[k]?) = _
  rw [if_neg (by omega), howner]

theorem resolvePick_eq (h : DrawnFrom ipc table projection row kept b) {k : Ordinal} {i r : Nat}
    (hrow : rowOf b k = some i) (hkept : kept[i]? = some r) :
    resolvePick b k =
      some ⟨b.streamHandle, b.batchSeq, (row r).id, anchorOf (row r).parts⟩ := by
  rw [resolvePick, hrow, h.ids, h.parts]
  show ((kept.map _)[i]? >>= _) = _
  rw [List.getElem?_map, List.getElem?_map, hkept]
  rfl

theorem readRow_eq (h : DrawnFrom ipc table projection row kept b) {geometryColumn encoding : String}
    (hcopy : ∀ names, projection = some names →
      ipc.tableFromIPC (ipc.tableToIPC (table.select names)) = .ok (table.select names))
    {i r : Nat} (hkept : kept[i]? = some r)
    (hsource : sourceRow table geometryColumn encoding projection r = .ok (row r)) :
    readRow ipc b.attributes i = .ok (valuesOf b.attributes (row r).attributes) := by
  have hattr := h.attributes
  cases hb : b.attributes with
  | unprojected => rfl
  | notHeld => rfl
  | held block =>
    rw [hb] at hattr
    obtain ⟨hprojection, hdata, hindex⟩ := hattr
    have hcells := (sourceRow_eq_ok hsource).2
    rw [hprojection] at hcells
    have hnamed : block.names.mapM (readNamed (table.select block.names).getChild r) =
        .ok (row r).attributes := by
      rw [← hcells]
      refine mapM_congr ?_
      intro name hname
      rw [readNamed, readNamed, Table.getChild_select hname]
    have hat := hindex i r hkept
    rw [readRow, hdata, hcopy block.names hprojection]
    dsimp only
    rw [hat]
    dsimp only
    rw [hnamed]
    rfl

/-- A layer has a datum for each part of the rows. -/
theorem layer_eq (h : DrawnFrom ipc table projection row kept b) {kind : GeometryKind}
    {toLocal : Position → Position} {layer : Layer}
    (hlayer : pickableLayer toLocal kind b = .ok layer) :
    layer.data.length = (drawnParts kept row).length ∧
      ∀ (k r : Nat) (part : Part), (drawnParts kept row)[k]? = some (r, part) →
        ∃ datum, layer.data[k]? = some datum ∧ datumOf kind toLocal part = .ok datum := by
  obtain ⟨hlen, hdata⟩ := pickableLayer_eq_ok hlayer
  have hflat : b.parts.flatten = (drawnParts kept row).map Prod.snd := by
    rw [h.parts, flatten_parts]
  rw [hflat] at hlen hdata
  refine ⟨by rw [hlen, List.length_map], ?_⟩
  intro k r part hk
  exact hdata k part (by rw [List.getElem?_map, hk]; rfl)

/-- A batch below the ceiling is drawn. -/
theorem exists_layer (h : DrawnFrom ipc table projection row kept b)
    {geometryColumn encoding : String}
    (hsource : ∀ r ∈ kept, sourceRow table geometryColumn encoding projection r = .ok (row r))
    (hceiling : b.partCount ≤ DECKGL_PICK_INDEX_CEILING) (toLocal : Position → Position) :
    ∃ layer, pickableLayer toLocal (geometryKindOf encoding) b = .ok layer := by
  have hdata : ∃ data, b.parts.flatten.mapM (datumOf (geometryKindOf encoding) toLocal) =
      .ok data := by
    refine mapM_total ?_
    intro part hpart
    rw [h.parts] at hpart
    obtain ⟨parts, hparts, hmem⟩ := List.mem_flatten.1 hpart
    obtain ⟨r, hr, heq⟩ := List.mem_map.1 hparts
    obtain ⟨geomVector, hrow⟩ := (sourceRow_eq_ok (hsource r hr)).1
    exact datumOf_rowParts hrow toLocal (heq ▸ hmem)
  obtain ⟨data, hdata⟩ := hdata
  refine ⟨⟨layerId b, data⟩, ?_⟩
  rw [pickableLayer, checkPickCeiling, if_neg (by omega), hdata]
  rfl

/-- Outside the data there is nothing to pick. -/
theorem resolvePick_eq_none (h : DrawnFrom ipc table projection row kept b) {k : Ordinal}
    (hk : ∀ i : Nat, i < (drawnParts kept row).length → k ≠ some (i : Int)) :
    resolvePick b k = none := by
  have hcount : b.partCount = (drawnParts kept row).length := by
    rw [h.partCount, h.partToRow, length_owners, h.parts, flatten_parts, List.length_map]
  have hnone : rowOf b k = none := by
    cases k with
    | none => rfl
    | some k =>
      rw [rowOf]
      refine if_pos ?_
      by_contra hin
      rw [not_or] at hin
      exact hk k.toNat (by omega) (congrArg some (by omega))
  rw [resolvePick, hnone]
  rfl

end DrawnFrom

/-- Whatever a batch went through, a pick of a place of its layer names the row whose part is drawn
there, and its values and its box; elsewhere a pick names nothing. -/
theorem pick_names_drawn {ipc : Ipc} {ipcBytes : List UInt8} {table : Table}
    {projection : Option (List String)} {streamHandle geometryColumn expectedEncoding : String}
    {batchSeq : Nat} {filter : Option Filter} {decoded b : ResidentBatch}
    (hread : ipc.tableFromIPC ipcBytes = .ok table)
    (hcopy : ∀ names, projection = some names →
      ipc.tableFromIPC (ipc.tableToIPC (table.select names)) = .ok (table.select names))
    (hdecode : decodeBatch ipc streamHandle batchSeq ipcBytes geometryColumn expectedEncoding
      projection filter = .ok decoded)
    (hderived : Derived decoded b) :
    ∃ (kept : List Nat) (row : Nat → SourceRow),
      kept.Pairwise (· < ·) ∧
      (∀ r ∈ kept, r < table.numRows ∧
        sourceRow table geometryColumn expectedEncoding projection r = .ok (row r)) ∧
      b.ids = kept.map (fun r => (row r).id) ∧
      b.partToRow.Pairwise (· ≤ ·) ∧ b.partToRow.length = b.partCount ∧
      (b.partCount ≤ DECKGL_PICK_INDEX_CEILING → ∀ toLocal,
        ∃ layer, pickableLayer toLocal (geometryKindOf expectedEncoding) b = .ok layer) ∧
      ∀ toLocal layer, pickableLayer toLocal (geometryKindOf expectedEncoding) b = .ok layer →
        layer.data.length = (drawnParts kept row).length ∧
        (∀ (k r : Nat) (part : Part), (drawnParts kept row)[k]? = some (r, part) →
          let pick := PickResult.mk streamHandle batchSeq (row r).id (anchorOf (row r).parts)
          let values := valuesOf b.attributes (row r).attributes
          (∃ datum, layer.data[k]? = some datum ∧
            datumOf (geometryKindOf expectedEncoding) toLocal part = .ok datum) ∧
          resolvePick b (some (k : Int)) = some pick ∧
          (∃ i, rowOf b (some (k : Int)) = some i ∧ readRow ipc b.attributes i = .ok values) ∧
          resolveClickPick ipc (some (b, some (k : Int))) false =
            .ok (clickOf pick (row r).parts values filter)) ∧
        ∀ k : Ordinal, (∀ i : Nat, i < layer.data.length → k ≠ some (i : Int)) →
          resolvePick b k = none := by
  rw [decodeBatch, hread] at hdecode
  obtain ⟨hhandle, hseq, hfilter, hfrom, hrows⟩ := DrawnFrom.of_decodeTable hdecode
  obtain ⟨kept, hsub, h⟩ := hfrom.derived hderived
  obtain ⟨hhandle', hseq', hfilter'⟩ := hderived.handles
  have hsource : ∀ r ∈ kept, r < table.numRows ∧
      sourceRow table geometryColumn expectedEncoding projection r =
        .ok (rowAt table geometryColumn expectedEncoding projection r) := by
    intro r hr
    have hlt := List.mem_range.1 (hsub hr)
    exact ⟨hlt, hrows r hlt⟩
  refine ⟨kept, _, h.increasing, hsource, h.ids, ?_, h.partCount.symm, ?_, ?_⟩
  · rw [h.partToRow]
    exact pairwise_owners 0 b.parts
  · intro hceiling toLocal
    exact h.exists_layer (fun r hr => (hsource r hr).2) hceiling toLocal
  · intro toLocal layer hlayer
    obtain ⟨hlen, hdata⟩ := h.layer_eq hlayer
    refine ⟨hlen, ?_, ?_⟩
    · intro k r part hk
      obtain ⟨i, hrow, hkept⟩ := h.rowOf_eq hk
      have hpick := h.resolvePick_eq hrow hkept
      have hvalues := h.readRow_eq hcopy hkept (hsource r (List.mem_of_getElem? hkept)).2
      rw [hhandle', hhandle, hseq', hseq] at hpick
      have hparts : b.parts.getD i [] = (rowAt table geometryColumn expectedEncoding projection
          r).parts := by
        rw [List.getD_eq_getElem?_getD, h.parts, List.getElem?_map, hkept]
        rfl
      refine ⟨hdata k r part hk, hpick, ⟨i, hrow, hvalues⟩, ?_⟩
      rw [resolveClickPick, if_neg Bool.false_ne_true, hpick, hrow]
      dsimp only
      rw [hparts, clickOf, hvalues, hfilter', hfilter]
      cases extentOfBatch _ with
      | none => rfl
      | some bounds => rfl
    · intro k hk
      exact h.resolvePick_eq_none (hlen ▸ hk)

/-- Three features: a line of two parts, a null and a line of one, their names projected. -/
def lines : Table where
  metadata := [("frame", EXPECTED_FRAME), ("geometry_encoding", ENCODING_MULTILINESTRING),
    ("attribute_columns", "[\"name\"]")]
  columns :=
    [⟨"id", .int [some 7, some 8, some 9]⟩,
      ⟨"geometry", .nested
        [some (.list [.list [.list [.number ⟨1⟩, .number ⟨2⟩]], .list [.list [.number ⟨3⟩,
            .number ⟨4⟩]]]), none,
          some (.list [.list [.list [.number ⟨5⟩, .number ⟨6⟩]]])]⟩,
      ⟨"name", .utf8 [some "a", none, some "c"]⟩]
  numRows := 3
  filled := by decide

/-- The package on the stream of `lines` and on that of its projected column. -/
def linesIpc : Ipc where
  tableFromIPC bytes := .ok (if bytes = [1] then lines else lines.select ["name"])
  tableToIPC _ := [2]

def linesDecoded : ResidentBatch :=
  { streamHandle := "s", batchSeq := 0, ids := [7, 8, 9],
    parts := [[[[(⟨1⟩, ⟨2⟩)]], [[(⟨3⟩, ⟨4⟩)]]], [], [[[(⟨5⟩, ⟨6⟩)]]]],
    partToRow := [0, 0, 2], partCount := 3, totalVertices := 3,
    attributes := .held ⟨["name"], [2], 1, none⟩, filter := none }

/-- The lines, with the second feature resident elsewhere. -/
def linesDeduplicated : ResidentBatch :=
  { linesDecoded with
    ids := [7, 9]
    parts := [[[[(⟨1⟩, ⟨2⟩)]], [[(⟨3⟩, ⟨4⟩)]]], [[[(⟨5⟩, ⟨6⟩)]]]]
    partToRow := [0, 0, 1]
    attributes := .held ⟨["name"], [2], 1, some [0, 2]⟩ }

theorem pick_names_drawn_lines :
    linesDeduplicated.partToRow.Pairwise (· ≤ ·) ∧
      linesDeduplicated.partToRow.length = linesDeduplicated.partCount := by
  have hread : linesIpc.tableFromIPC [1] = .ok lines := rfl
  have hcopy : ∀ names, some ["name"] = some names →
      linesIpc.tableFromIPC (linesIpc.tableToIPC (lines.select names)) =
        .ok (lines.select names) := by
    intro names h
    cases h
    rfl
  have hdecode : decodeBatch linesIpc "s" 0 [1] "geometry" ENCODING_MULTILINESTRING
      (some ["name"]) none = .ok linesDecoded := rfl
  have hadd : ({ TileResidentSet.new with
      knownIds := [8]
      idOwner := OrderedMap.empty.set 8 "0:0" } : TileResidentSet).addBatch "0:1" linesDecoded
        false = (_, .ok ⟨some linesDeduplicated, 1⟩) := rfl
  obtain ⟨_, _, _, _, _, hpair, hlen, _⟩ :=
    pick_names_drawn hread hcopy hdecode (Derived.added Derived.decoded hadd)
  exact ⟨hpair, hlen⟩

end SpatialIde.Shell.Canvas
