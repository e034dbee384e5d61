import SpatialIde.Engine.Stream.Simulate

/-! # Row conservation and alignment

`rowsOf` reads a chunk row by row out of its cells.  `produce_conserves` is the
result: in a run that ends well, the batches handed to `flush` are consecutive
groups of the input rows, and in each of them ids, geometries and every attribute
column are those of the group, position by position.
-/

namespace SpatialIde.Engine.Stream

open Lib Wkb

variable (K : Kernels) (plan : Plan)

/-! ### Input rows -/

/-- The cell of a row in the column of a name, with the column's type. -/
def cellNamed (schema : List Field) (name : String) (row : List Cell) :
    Option (DataType × Cell) :=
  (schema.zipIdx.find? fun f => f.1.name = name).map fun f =>
    (f.1.dataType, row.getD f.2 none)

/-- A 64-bit identity, from its bytes. -/
def idOf (c : Cell) : UInt64 := UInt64.ofNat (leValue (bytesIn c))

/-- A value of a declared attribute, out of its dictionary if it is in one. -/
def attributeOf (f : Field) (t : DataType) (c : Cell) : Cell :=
  match t with
  | .dictionary _ _ =>
    match K.cast t f.dataType with
    | .ok g => g c
    | .error _ => c
  | _ => c

/-- **An input row**: what the cells of one row of a chunk say. -/
def rowOf (schema : List Field) (row : List Cell) : Row where
  id := (cellNamed schema ID_COLUMN row).elim 0 fun c => idOf c.2
  geometryType := (cellNamed schema plan.geometryColumn row).elim (.other "") Prod.fst
  geometry := (cellNamed schema plan.geometryColumn row).elim none Prod.snd
  attributes := plan.envelope.attributes.map fun f =>
    (f.dataType, (cellNamed schema f.name row).elim none fun c => attributeOf K f c.1 c.2)

def rowsOf (chunk : RecordBatch) : List Row := chunk.rows.map (rowOf K plan chunk.schema)

variable {K plan}

/-- A column is the cells of its name. -/
theorem columnByName_eq {chunk : RecordBatch} {name : String} {col : ArrayRef}
    (h : chunk.columnByName name = some col) {i : Nat} {row : List Cell}
    (hrow : chunk.rows[i]? = some row) :
    cellNamed chunk.schema name row = some (col.dataType, col.cell i) := by
  unfold RecordBatch.columnByName at h
  unfold cellNamed
  cases hfind : chunk.schema.zipIdx.find? fun f => f.1.name = name with
  | none => rw [hfind] at h; cases h
  | some f =>
    rw [hfind] at h
    cases h
    have hcell : (chunk.rows.map fun row => row.getD f.2 none).getD i none = row.getD f.2 none := by
      rw [List.getD_eq_getElem?_getD, List.getElem?_map, hrow]
      rfl
    rw [Option.map_some, RecordBatch.column, ArrayRef.cell, hcell]

/-- A value that is not negative has the same bits as an unsigned one. -/
theorem ofNat_toInt {c : Cell} (h : 0 ≤ (BitVec.ofNat 64 (leValue (bytesIn c))).toInt) :
    UInt64.ofNat (BitVec.ofNat 64 (leValue (bytesIn c))).toInt.toNat = idOf c := by
  have hval : (BitVec.ofNat 64 (leValue (bytesIn c))).toInt.toNat =
      leValue (bytesIn c) % 2 ^ 64 := by
    rw [BitVec.toInt_eq_toNat_cond, BitVec.toNat_ofNat] at h ⊢
    split at h <;> rename_i hlt
    · rw [if_pos hlt]
      omega
    · have := Nat.mod_lt (leValue (bytesIn c)) (show 0 < 2 ^ 64 by decide)
      omega
  rw [hval, idOf]
  exact UInt64.ofNat_mod_size.symm ▸ rfl

theorem columnU64_eq {chunk : RecordBatch} {name : String} {ids : List UInt64}
    (h : columnU64 K chunk name = .ok ids) :
    ∃ col, chunk.columnByName name = some col ∧ ids = col.cells.map idOf := by
  unfold columnU64 at h
  cases hcol : chunk.columnByName name with
  | none => rw [hcol] at h; cases h
  | some col =>
    refine ⟨col, rfl, ?_⟩
    simp only [hcol] at h
    split at h
    · cases h
    · split at h
      · cases h
        rfl
      · have hall := mapM_eq_ok.1 h
        clear h
        generalize col.cells = cells at hall ⊢
        induction hall with
        | nil => rfl
        | @cons c id cells ids hc _ ih =>
          rw [List.map_cons, ← ih]
          congr 1
          split at hc
          · cases hc
          · rename_i hnn
            cases hc
            exact ofNat_toInt (not_lt.1 hnn)
      · cases h

theorem readAttribute_eq {chunk : RecordBatch} {f : Field} {a : ArrayRef}
    (h : readAttribute K chunk f = .ok a) :
    ∃ col, chunk.columnByName f.name = some col ∧
      a.cells = col.cells.map (attributeOf K f col.dataType) := by
  obtain ⟨col, hcol, h⟩ := bind_eq_ok.1 h
  obtain ⟨col', hdec, h⟩ := bind_eq_ok.1 h
  refine ⟨col, okOr_eq_ok.1 hcol, ?_⟩
  have ha : a = col' := by
    split at h
    · cases h
    · cases h
      rfl
  rw [ha]
  unfold decodeDictionaryChunkColumn at hdec
  split at hdec
  · rename_i hdict
    split at hdec
    · cases hdec
    · rename_i g hg
      cases hdec
      have heq : attributeOf K f col.dataType = g := by
        funext c
        rw [hdict] at hg
        rw [hdict, attributeOf]
        simp only [hg]
      rw [heq]
  · rename_i hplain
    cases hdec
    have heq : ∀ c, attributeOf K f col.dataType c = c := by
      intro c
      unfold attributeOf
      split
      · rename_i hdict
        exact absurd hdict (hplain _ _)
      · rfl
    rw [funext heq, List.map_id']

/-- The declared attributes of a row. -/
theorem attributes_eq {chunk : RecordBatch} {fields : List Field} {attrs : List ArrayRef}
    (h : List.Forall₂ (fun f a => readAttribute K chunk f = .ok a) fields attrs) {i : Nat}
    {row : List Cell} (hrow : chunk.rows[i]? = some row) :
    attrs.map (fun a => (a.dataType, a.cell i)) = fields.map fun f =>
      (f.dataType, (cellNamed chunk.schema f.name row).elim none fun c =>
        attributeOf K f c.1 c.2) := by
  induction h with
  | nil => rfl
  | @cons f a fs as ha _ ih =>
    obtain ⟨acol, hacol, hcells⟩ := readAttribute_eq ha
    have hlen : i < acol.cells.length := by
      have hi : i < chunk.numRows := (List.getElem?_eq_some_iff.1 hrow).1
      rw [← columnByName_len hacol] at hi
      exact hi
    rw [List.map_cons, List.map_cons, ih, columnByName_eq hacol hrow, (readAttribute_ok ha).1]
    congr 2
    show a.cells.getD i none = attributeOf K f acol.dataType (acol.cell i)
    rw [hcells, List.getD_eq_getElem?_getD, List.getElem?_map, ArrayRef.cell,
      List.getD_eq_getElem?_getD, List.getElem?_eq_getElem hlen]
    rfl

/-- **What is read of a chunk is what its cells say**, row by row. -/
theorem readRows_eq {chunk : RecordBatch} {xs : List Row} (h : readRows K plan chunk = .ok xs) :
    xs = rowsOf K plan chunk := by
  unfold readRows at h
  cases hread : readChunk K plan chunk with
  | error e => rw [hread] at h; cases h
  | ok cols =>
    rw [hread] at h
    cases h
    have hv := readChunk_valid hread
    obtain ⟨ids, hids, hread⟩ := bind_eq_ok.1 hread
    obtain ⟨geoms, hgeoms, hread⟩ := bind_eq_ok.1 hread
    obtain ⟨attrs, hattrs, hread⟩ := bind_eq_ok.1 hread
    cases hread
    obtain ⟨col, hcol, rfl⟩ := columnU64_eq hids
    rw [okOr_eq_ok] at hgeoms
    refine List.ext_getElem? fun i => ?_
    by_cases hi : i < chunk.numRows
    · obtain ⟨row, hrow⟩ : ∃ row, chunk.rows[i]? = some row := ⟨_, List.getElem?_eq_getElem hi⟩
      have hlen : col.cells.length = chunk.numRows := columnByName_len hcol
      have hid : (col.cells.map idOf).getD i 0 = idOf (col.cell i) := by
        rw [List.getD_eq_getElem?_getD, List.getElem?_map, ArrayRef.cell,
          List.getD_eq_getElem?_getD, List.getElem?_eq_getElem (by omega)]
        rfl
      have hrowAt : ChunkColumns.rowAt ⟨col.cells.map idOf, geoms, attrs⟩ i =
          rowOf K plan chunk.schema row := by
        simp only [ChunkColumns.rowAt, rowOf, columnByName_eq hcol hrow,
          columnByName_eq hgeoms hrow, hid, attributes_eq (mapM_eq_ok.1 hattrs) hrow]
        rfl
      rw [ChunkColumns.getElem?_rows hi, rowsOf, List.getElem?_map, hrow, Option.map_some, hrowAt]
    · rw [List.getElem?_eq_none (by rw [ChunkColumns.length_rows]; omega),
        List.getElem?_eq_none (by rw [rowsOf, List.length_map]; exact Nat.not_lt.1 hi)]

/-! ### What is seen of a run -/

/-- A call of `flush`. -/
structure FlushCall where
  pending : Pending
  batchIndex : Nat
  targetBytes : Nat
  cutBy : BatchCut

def Shown.call? : Shown → Option FlushCall
  | .handed p batchIndex targetBytes cutBy => some ⟨p, batchIndex, targetBytes, cutBy⟩
  | .sent _ => none

def Shown.item? : Shown → Option Item
  | .handed .. => none
  | .sent item => some item

/-- The calls of `flush` in a run, in order. -/
def flushes (tr : List (Event Ask.Answer)) : List FlushCall :=
  (tr.filterMap view).filterMap Shown.call?

/-- The items a run sends, in order. -/
def sends (tr : List (Event Ask.Answer)) : List Item :=
  (tr.filterMap view).filterMap Shown.item?

/-- A call of `flush` and the batch of rows it is for. -/
structure CallOf (plan : Plan) (call : FlushCall) (b : Batcher.Batch Row) : Prop where
  holds : Holds plan call.pending b.items
  covers : Covers plan.envelope.attributes call.pending.attrs b.items
  ne_nil : b.items ≠ []
  batchIndex : call.batchIndex = b.index
  targetBytes : call.targetBytes = b.target
  cutBy : call.cutBy = cutOf b.cause

/-- **What a run shows**, as calls of `flush` and as items. -/
theorem calls_of_sees {tr : List (Event Ask.Answer)}
    {out : List (Batcher.Mark (Batcher.Batch Row))} (h : (watch plan).Sees tr out) :
    List.Forall₂ (CallOf plan) (flushes tr) (Batcher.handed out) ∧
      sends tr = (Batcher.sent out).map (itemOf plan) := by
  have hall : List.Forall₂ (Shows plan) (tr.filterMap view) out := h
  unfold flushes sends
  clear h
  generalize tr.filterMap view = shown at hall
  induction hall with
  | nil => exact ⟨.nil, rfl⟩
  | cons hshow _ ih =>
    cases hshow with
    | handed holds covers ne_nil =>
      exact ⟨.cons ⟨holds, covers, ne_nil, rfl, rfl, rfl⟩ ih.1, ih.2⟩
    | sent b => exact ⟨ih.1, congrArg (itemOf plan b :: ·) ih.2⟩

theorem flushes_append {t₁ t₂ : List (Event Ask.Answer)} (h : t₁.filterMap view = []) :
    flushes (t₁ ++ t₂) = flushes t₂ ∧ sends (t₁ ++ t₂) = sends t₂ := by
  unfold flushes sends
  rw [List.filterMap_append, h, List.nil_append]
  exact ⟨rfl, rfl⟩

/-- Undisturbed, a run shows a trail whole. -/
theorem runs_calm {source : Source} {tr : List (Event Ask.Answer)} {r : Except EngineError Unit}
    (h : (produce K plan source).Runs tr r) (hcalm : ∀ e ∈ tr, calm e) :
    ∃ t, Streamed K plan source t ∧ sends tr = (Batcher.sent t.out).map (itemOf plan) ∧
      (watch plan).Ends (fun _ _ => True) r t.outcome := by
  rcases runs_produce h with hno | ⟨t₁, t₂, rfl, hhidden, hdrain⟩
  · obtain ⟨e, he, hnot⟩ := hno.disturbed
    exact absurd (hcalm e he) hnot
  · obtain ⟨t, hstream, hsees, hends⟩ := (follows_drain K plan source).calm hdrain
      fun e he => hcalm e (List.mem_append_right _ he)
    exact ⟨t, hstream, by rw [(flushes_append hhidden).2, (calls_of_sees hsees).2], hends⟩

/-! ### Scripts -/

theorem itemsOf_pushes (xs : List Row) : Batcher.itemsOf (Batcher.pushes xs) = xs := by
  induction xs with
  | nil => rfl
  | cons x xs ih => exact congrArg (x :: ·) ih

theorem itemsOf_chunk (xs : List Row) (ops : List (Batcher.Op Row)) :
    Batcher.itemsOf (Batcher.pushes xs ++ [.boundary false] ++ ops) =
      xs ++ Batcher.itemsOf ops := by
  rw [Batcher.itemsOf_append, Batcher.itemsOf_append, itemsOf_pushes]
  show xs ++ [] ++ _ = _
  rw [List.append_nil]

/-- **The items of a script** are the input rows, up to the first chunk that cannot be read. -/
theorem script_items (ending : Ending) (chunks : List RecordBatch) :
    Batcher.itemsOf (script K plan ending chunks).1 <+: chunks.flatMap (rowsOf K plan) ∧
      ((script K plan ending chunks).2 = .ok () →
        Batcher.itemsOf (script K plan ending chunks).1 = chunks.flatMap (rowsOf K plan) ∧
          ending = .drained) := by
  induction chunks with
  | nil =>
    refine ⟨List.nil_prefix, fun h => ⟨rfl, ?_⟩⟩
    cases ending with
    | drained => rfl
    | panicked payload => cases h
  | cons chunk chunks ih =>
    unfold script
    cases hread : readRows K plan chunk with
    | error e => exact ⟨List.nil_prefix, fun h => by cases h⟩
    | ok rows =>
      rw [itemsOf_chunk, List.flatMap_cons, readRows_eq hread]
      refine ⟨(List.prefix_append_right_inj _).2 ih.1, fun h => ?_⟩
      obtain ⟨hitems, hend⟩ := ih.2 h
      exact ⟨by rw [hitems], hend⟩

/-- **The trails of a source**: it is drained and the last batch is cut, or it ends in an error. -/
theorem streamed_cases {source : Source}
    {t : Trail (Batcher.Mark (Batcher.Batch Row)) Refusal (Batcher.Open Row)}
    (h : Streamed K plan source t) :
    ∃ ops, Batcher.Timing (budgeted plan) (script K plan source.ending source.chunks).1 ops ∧
      (((script K plan source.ending source.chunks).2 = .ok () ∧
          t = Batcher.feed (config plan) (refusals K plan) .start (ops ++ [.finish])) ∨
        ∃ e, (script K plan source.ending source.chunks).2 = .error e ∧
          t = Batcher.feed (config plan) (refusals K plan) .start ops >>= fun _ => .stop e) := by
  obtain ⟨_, ⟨_, ⟨ops, hops, rfl⟩, rfl⟩, rfl⟩ := h
  refine ⟨ops, hops, ?_⟩
  rcases (script K plan source.ending source.chunks).2 with e | ⟨⟩
  · refine .inr ⟨e, rfl, ?_⟩
    rw [bind_assoc]
    rfl
  · refine .inl ⟨rfl, ?_⟩
    rw [Batcher.feed_append, bind_assoc]
    refine bind_congr fun s => ?_
    show (pure s >>= _) = Batcher.feedStep _ _ s .finish >>= pure
    rw [pure_bind, bind_pure]

/-! ### Conservation -/

/-- **A pending batch is aligned**: ids, geometries and every attribute column are those of the rows,
position by position. -/
structure Aligned (plan : Plan) (p : Pending) (xs : List Row) : Prop where
  ids : p.ids = xs.map Row.id
  geometries : ∃ gs, List.Forall₂ (Row.Decodes plan.envelope.encoding) xs gs ∧
    p.builder.geometries = gs.map (normal plan.envelope.encoding)
  columns : p.attrs.length = plan.envelope.attributes.length
  values : ∀ (j : Nat) (runs : List ArrayRef), p.attrs[j]? = some runs →
    runs.flatMap ArrayRef.cells = xs.map (Row.value j)
  runLength : ∀ runs ∈ p.attrs, (runs.map ArrayRef.len).sum = p.ids.length

theorem length_flatMap_cells (runs : List ArrayRef) :
    (runs.map ArrayRef.len).sum = (runs.flatMap ArrayRef.cells).length := by
  rw [List.length_flatMap]
  rfl

/-- A batch within the ceiling is aligned. -/
theorem CallOf.aligned {call : FlushCall} {b : Batcher.Batch Row} (h : CallOf plan call b)
    (hload : (config plan).load b.items ≤ MAX_BATCH_BYTES) :
    Aligned plan call.pending b.items := by
  refine ⟨h.holds.ids, ?_, h.covers.length, h.covers.values, ?_⟩
  · rw [h.holds.builder]
    exact (builderOf_geometries h.holds.decode (vertices_lt_of_load plan hload)).2
  · intro runs hruns
    obtain ⟨j, hj⟩ := List.mem_iff_getElem?.1 hruns
    rw [length_flatMap_cells, h.covers.values j runs hj, h.holds.ids, List.length_map,
      List.length_map]

theorem load_le_of_accepted {b : Batcher.Batch Row} (h : (refusals K plan).batch b = none) :
    (config plan).load b.items ≤ MAX_BATCH_BYTES := by
  by_contra hlt
  have hrefuse : ceilingRefusal plan b = none := h
  unfold ceilingRefusal at hrefuse
  rw [if_pos (by omega)] at hrefuse
  split at hrefuse <;> cases hrefuse

/-- **A run that ends well** drained its chunks, and the batches it handed over and sent are groups of
all their rows. -/
theorem produce_whole {source : Source} {tr : List (Event Ask.Answer)}
    (h : (produce K plan source).Runs tr (.ok ())) :
    source.ending = .drained ∧ ∃ bs : List (Batcher.Batch Row),
      (bs.map Batcher.Batch.items).flatten = source.chunks.flatMap (rowsOf K plan) ∧
      (∀ b ∈ bs, b.items ≠ [] ∧ (refusals K plan).batch b = none) ∧
      bs.map Batcher.Batch.index = List.range bs.length ∧
      List.Forall₂ (CallOf plan) (flushes tr) bs ∧ sends tr = bs.map (itemOf plan) := by
  rcases runs_produce h with hno | ⟨t₁, t₂, rfl, hhidden, hdrain⟩
  · obtain ⟨e, he, -⟩ := hno.failed
    cases he
  · obtain ⟨out, s, hstream, hsees, -⟩ := (follows_drain K plan source).ok hdrain
    rw [(flushes_append hhidden).1, (flushes_append hhidden).2]
    obtain ⟨ops, htiming, ⟨hscript, ht⟩ | ⟨e, -, ht⟩⟩ := streamed_cases hstream
    · obtain ⟨hitems, hdrained⟩ := (script_items source.ending source.chunks).2 hscript
      have hall : Batcher.itemsOf (ops ++ [.finish]) = source.chunks.flatMap (rowsOf K plan) := by
        rw [Batcher.itemsOf_append, htiming.itemsOf_eq, hitems]
        exact List.append_nil _
      have hstops := Batcher.feed_stops_refusals (r := refusals K plan) (config plan)
        (ops ++ [.finish]) .start
      have hconserve := Batcher.conserve (config plan) (ops ++ [.finish]) .start
      have hopen := Batcher.run_finish_items (config plan) ops .start
      rw [← ht] at hstops
      cases hstops with
      | whole haccepted =>
        obtain ⟨hcalls, hsends⟩ := calls_of_sees hsees
        rw [Batcher.handed_marks] at hcalls
        rw [Batcher.sent_marks] at hsends
        refine ⟨hdrained, _, ?_, fun b hb => ⟨hconserve.ne_nil b hb, haccepted b hb⟩, ?_, hcalls,
          hsends⟩
        · have hflat := hconserve.items
          rw [hopen, List.append_nil, hall] at hflat
          exact hflat
        · rw [hconserve.index, List.range_eq_range']
          rfl
    · generalize Batcher.feed (config plan) (refusals K plan) .start ops = t at ht
      obtain ⟨out', e' | s'⟩ := t <;> cases ht

/-- **Row conservation and alignment**: in a run that ends well the batches handed to `flush` are
numbered from `0`, none is empty, and together they are the input rows, once and in order. -/
theorem produce_conserves {source : Source} {tr : List (Event Ask.Answer)}
    (h : (produce K plan source).Runs tr (.ok ())) :
    ∃ groups : List (List Row),
      groups.flatten = source.chunks.flatMap (rowsOf K plan) ∧
      (∀ xs ∈ groups, xs ≠ []) ∧
      List.Forall₂ (fun call xs => Aligned plan call.pending xs) (flushes tr) groups ∧
      (flushes tr).map FlushCall.batchIndex = List.range (flushes tr).length := by
  obtain ⟨-, bs, hflat, hbatches, hindex, hcalls, -⟩ := produce_whole h
  refine ⟨bs.map Batcher.Batch.items, hflat, ?_, ?_, ?_⟩
  · intro xs hxs
    obtain ⟨b, hb, rfl⟩ := List.mem_map.1 hxs
    exact (hbatches b hb).1
  · rw [List.forall₂_map_right_iff, List.forall₂_iff_zip]
    refine ⟨hcalls.length_eq, fun hmem => ?_⟩
    have hcall := List.forall₂_zip hcalls hmem
    exact hcall.aligned (load_le_of_accepted (hbatches _ (List.of_mem_zip hmem).2).2)
  · rw [hcalls.length_eq, ← hindex, ← List.forall₂_eq_eq_eq, List.forall₂_map_left_iff,
      List.forall₂_map_right_iff]
    exact hcalls.imp fun _ _ hcall => hcall.batchIndex

/-! ### A run -/

/-- The answers of an environment in which nothing goes wrong and no time passes. -/
def quietly : (q : Ask) → q.Answer
  | .isCancelled => false
  | .prepare => .ok ()
  | .execute => .ok ()
  | .budgetElapsed => false
  | .flush .. => ()
  | .send _ => true
  | .verify => .verified
  | .reread => .error ""
  | .recordPostCheckBytes _ => ()
  | .recordSourceChanged _ => ()

theorem calm_quietly {α : Type} (p : Producer α) : ∀ e ∈ (p.eval quietly).1, calm e := by
  rintro ⟨q, a⟩ he
  have ha : a = quietly q := Prog.answer_eval quietly p _ he
  subst ha
  cases q
  case send message => cases message <;> rfl
  all_goals first | rfl | trivial

/-- A point dataset without attributes, cut every two rows. -/
def pointPlan : Plan where
  geometryColumn := "geometry"
  envelope := ⟨.point, [], by simp⟩
  policy := { BatchSizePolicy.default with maxRows := 2 }
  compactAttributeRetention := false

/-- The schema of a point dataset without attributes. -/
def pointSchema : List Field := [⟨ID_COLUMN, .uInt64⟩, ⟨"geometry", .binary⟩]

/-- The WKB of a point at the origin. -/
def origin : List UInt8 := [1, 1, 0, 0, 0] ++ List.replicate 16 0

/-- A row with an identity, and a point. -/
def pointRow (id : UInt8) : List Cell := [some [id], some origin]

def pointChunk (rows : List (List Cell)) (h : ∀ row ∈ rows, row.length = 2 := by decide) :
    RecordBatch := ⟨pointSchema, rows, h⟩

/-- A point dataset with names, cut every two rows. -/
def namedPlan : Plan := { pointPlan with envelope := ⟨.point, [⟨"name", .utf8⟩], by decide⟩ }

def namedChunk (rows : List (List Cell)) (h : ∀ row ∈ rows, row.length = 3 := by decide) :
    RecordBatch := ⟨[⟨ID_COLUMN, .uInt64⟩, ⟨"geometry", .binary⟩, ⟨"name", .utf8⟩], rows, h⟩

def namedRow (id : UInt8) (name : Cell) : List Cell := pointRow id ++ [name]

/-- Three rows in two chunks, one of which has none, make two batches; one row has no name. -/
theorem produce_conserves_points :
    let source : Source := ⟨[namedChunk [],
      namedChunk [namedRow 1 (some [97]), namedRow 2 none, namedRow 3 (some [98, 99])]], .drained⟩
    let tr := ((produce .logical namedPlan source).eval quietly).1
    ∃ groups : List (List Row),
      groups.flatten = source.chunks.flatMap (rowsOf .logical namedPlan) ∧
      (∀ xs ∈ groups, xs ≠ []) ∧
      List.Forall₂ (fun call xs => Aligned namedPlan call.pending xs) (flushes tr) groups ∧
      (flushes tr).map FlushCall.batchIndex = List.range (flushes tr).length := by
  intro source tr
  have hrun := Prog.runs_eval quietly (produce .logical namedPlan source)
  have hok : ((produce .logical namedPlan source).eval quietly).2 = .ok () := by decide +kernel
  rw [hok] at hrun
  exact produce_conserves hrun

end SpatialIde.Engine.Stream
