import SpatialIde.Engine.Stream.Conserve

/-! # Cuts do not depend on chunks

Under a policy that cuts on size only, what a run shows is a function of the rows
of its chunks, `wholeSends`, and of where it stops.  Chunks still matter where a
run is refused: `column_u64` refuses a chunk as a whole, so the rows in front of a
row without an identity are lost or not with their chunk, and the row number of a
null geometry is counted from the start of a chunk.

* `sends_beginning`: every run sends a beginning of `wholeSends`;
* `produce_resplit`: of two runs over one list of rows, one sends a beginning of
  what the other sends; with an identity in every row, undisturbed, they send the
  same and end alike.
-/

namespace SpatialIde.Engine.Stream

open Lib Wkb

/-! ### What reading a chunk fails of -/

/-- The cells of a row carry an identity: neither null nor negative. -/
def Identified (schema : List Field) (row : List Cell) : Prop :=
  ∀ c ∈ cellNamed schema ID_COLUMN row, c.2 ≠ none ∧
    (c.1 = .int64 → 0 ≤ (BitVec.ofNat 64 (leValue (bytesIn c.2))).toInt)

instance (schema : List Field) (row : List Cell) : Decidable (Identified schema row) :=
  inferInstanceAs (Decidable (∀ c ∈ cellNamed schema ID_COLUMN row, c.2 ≠ none ∧
    (c.1 = .int64 → 0 ≤ (BitVec.ofNat 64 (leValue (bytesIn c.2))).toInt)))

/-- A chunk of a schema without rows. -/
def noRows (schema : List Field) : RecordBatch where
  schema := schema
  rows := []
  width := by simp

variable (K : Kernels) (plan : Plan)

/-- Whether chunks of a schema can be read, as far as the schema decides it. -/
def schemaVerdict (schema : List Field) : Except EngineError Unit :=
  verdict (readChunk K plan (noRows schema))

variable {K plan}

/-- The column of a name is found by the schema. -/
theorem columnByName_map (chunk : RecordBatch) (name : String) :
    chunk.columnByName name =
      (chunk.schema.zipIdx.find? fun f => f.1.name = name).map fun f => chunk.column f.1 f.2 := by
  unfold RecordBatch.columnByName
  cases chunk.schema.zipIdx.find? fun f => f.1.name = name <;> rfl

theorem verdict_columnU64 {chunk : RecordBatch}
    (h : ∀ row ∈ chunk.rows, Identified chunk.schema row) :
    verdict (columnU64 K chunk ID_COLUMN) =
      verdict (columnU64 K (noRows chunk.schema) ID_COLUMN) := by
  unfold Identified cellNamed at h
  have hcol := columnByName_map chunk ID_COLUMN
  have hcol' : (noRows chunk.schema).columnByName ID_COLUMN =
      (chunk.schema.zipIdx.find? fun f => f.1.name = ID_COLUMN).map fun f =>
        (noRows chunk.schema).column f.1 f.2 := columnByName_map _ _
  cases hfind : chunk.schema.zipIdx.find? fun f => f.1.name = ID_COLUMN with
  | none =>
    rw [hfind] at hcol hcol'
    simp only [columnU64, hcol, hcol', Option.map_none]
  | some f =>
    obtain ⟨f, j⟩ := f
    rw [hfind] at h hcol hcol'
    have hcells : ∀ c ∈ (chunk.column f j).cells, c ≠ none ∧
        (f.dataType = .int64 → 0 ≤ (BitVec.ofNat 64 (leValue (bytesIn c))).toInt) := by
      intro c hc
      obtain ⟨row, hrow, rfl⟩ := List.mem_map.1 hc
      exact h row hrow _ rfl
    have hnull : (chunk.column f j).nullCount = 0 :=
      List.count_eq_zero.2 fun hmem => (hcells none hmem).1 rfl
    have hnone : ((noRows chunk.schema).column f j).nullCount = 0 := rfl
    simp only [columnU64, hcol, hcol', Option.map_some, hnull, hnone, Nat.lt_irrefl, if_false]
    rw [show (chunk.column f j).dataType = f.dataType from rfl,
      show ((noRows chunk.schema).column f j).dataType = f.dataType from rfl]
    cases htype : f.dataType
    case int64 =>
      refine (verdict_eq_ok.2 ?_).trans (verdict_eq_ok.2 ⟨[], rfl⟩).symm
      refine ⟨(chunk.column f j).cells.map idOf, mapM_eq_ok.2 ?_⟩
      rw [List.forall₂_map_right_iff, List.forall₂_same]
      intro c hc
      have hnn := (hcells c hc).2 htype
      show (if _ then _ else _) = _
      rw [if_neg (not_lt.2 hnn), ofNat_toInt hnn]
    all_goals rfl

/-- What a dictionary decodes to, and whether it does, is a matter of its type. -/
theorem decodeDictionary_type {a b : ArrayRef} (h : a.dataType = b.dataType) (t : DataType) :
    (decodeDictionaryChunkColumn K a t).map ArrayRef.dataType =
      (decodeDictionaryChunkColumn K b t).map ArrayRef.dataType := by
  obtain ⟨s, xs⟩ := a
  obtain ⟨s', ys⟩ := b
  cases h
  unfold decodeDictionaryChunkColumn
  cases s
  case dictionary key value =>
    dsimp only
    cases K.cast (.dictionary key value) t <;> rfl
  all_goals rfl

theorem verdict_readAttribute (chunk : RecordBatch) (f : Field) :
    verdict (readAttribute K chunk f) = verdict (readAttribute K (noRows chunk.schema) f) := by
  unfold readAttribute
  rw [columnByName_map, columnByName_map]
  refine verdict_bind ?_ fun a b ha hb => ?_
  · show verdict (okOr _ (Option.map _ (chunk.schema.zipIdx.find? _))) =
      verdict (okOr _ (Option.map _ (chunk.schema.zipIdx.find? _)))
    cases chunk.schema.zipIdx.find? fun g => g.1.name = f.name <;> rfl
  · obtain ⟨g, hg, rfl⟩ := Option.map_eq_some_iff.1 (okOr_eq_ok.1 ha)
    obtain ⟨g', hg', rfl⟩ := Option.map_eq_some_iff.1 (okOr_eq_ok.1 hb)
    have hsame : g = g' := Option.some.inj (hg.symm.trans hg')
    subst hsame
    have htype := decodeDictionary_type (K := K) (a := chunk.column g.1 g.2)
      (b := (noRows chunk.schema).column g.1 g.2) rfl f.dataType
    generalize decodeDictionaryChunkColumn K (chunk.column g.1 g.2) f.dataType = x at htype
    generalize decodeDictionaryChunkColumn K ((noRows chunk.schema).column g.1 g.2) f.dataType = y
      at htype
    cases x with
    | error e =>
      cases y with
      | error e' => cases htype; rfl
      | ok c' => cases htype
    | ok c =>
      cases y with
      | error e' => cases htype
      | ok c' =>
        have hc : c.dataType = c'.dataType := Except.ok.inj htype
        show verdict (if c.dataType ≠ f.dataType then _ else _) =
          verdict (if c'.dataType ≠ f.dataType then _ else _)
        rw [hc]
        split_ifs <;> rfl

/-- **Where every row has an identity, reading a chunk fails as its schema does.** -/
theorem verdict_readChunk {chunk : RecordBatch}
    (h : ∀ row ∈ chunk.rows, Identified chunk.schema row) :
    verdict (readChunk K plan chunk) = schemaVerdict K plan chunk.schema := by
  refine verdict_bind (verdict_columnU64 h) fun _ _ _ _ => verdict_bind ?_ fun _ _ _ _ => ?_
  · rw [columnByName_map, columnByName_map]
    show verdict (okOr _ (Option.map _ (chunk.schema.zipIdx.find? _))) =
      verdict (okOr _ (Option.map _ (chunk.schema.zipIdx.find? _)))
    cases chunk.schema.zipIdx.find? fun g => g.1.name = plan.geometryColumn <;> rfl
  · exact verdict_bind (verdict_mapM fun f _ => verdict_readAttribute chunk f) fun _ _ _ _ => rfl

/-! ### Scripts without early cuts -/

variable (K plan)

/-- The operations of chunks that are all read. -/
def chunkOps (chunks : List RecordBatch) : List (Batcher.Op Row) :=
  chunks.flatMap fun chunk => Batcher.pushes (rowsOf K plan chunk) ++ [.boundary false]

/-- Where a script ends: the last batch is cut, or the reason is reported. -/
def closing (r : Except Refusal Unit) (s : Batcher.Open Row) :
    Trail (Batcher.Mark (Batcher.Batch Row)) Refusal (Batcher.Open Row) :=
  endWith r s >>= fun s => Batcher.feedStep (config plan) (refusals K plan) s .finish

/-- What the batcher makes of a list of rows, all of which are given to it. -/
def wholeTrail (rows : List Row) :
    Trail (Batcher.Mark (Batcher.Batch Row)) Refusal (Batcher.Open Row) :=
  Batcher.feed (config plan) (refusals K plan) .start (Batcher.pushes rows ++ [.finish])

/-- **What can be sent of a list of rows** under a policy that cuts on size only. -/
def wholeSends (rows : List Row) : List Item :=
  (Batcher.sent (wholeTrail K plan rows).out).map (itemOf plan)

/-- A script is the operations of the chunks in front of the first that cannot be read. -/
theorem script_shape (ending : Ending) (chunks : List RecordBatch) :
    ∃ k, (script K plan ending chunks).1 = chunkOps K plan (chunks.take k) ∧
      ((script K plan ending chunks).2 = .ok () → chunks.take k = chunks) := by
  induction chunks with
  | nil => exact ⟨0, rfl, fun _ => rfl⟩
  | cons chunk chunks ih =>
    unfold script
    cases hread : readRows K plan chunk with
    | error e => exact ⟨0, rfl, fun h => by cases h⟩
    | ok rows =>
      obtain ⟨k, hops, hall⟩ := ih
      refine ⟨k + 1, ?_, fun h => ?_⟩
      · rw [List.take_succ_cons, chunkOps, List.flatMap_cons, ← chunkOps, ← hops,
          readRows_eq hread]
      · rw [List.take_succ_cons, hall h]

variable {K plan}

theorem chunkOps_late (chunks : List RecordBatch) :
    (chunkOps K plan chunks).map Batcher.Op.late = chunkOps K plan chunks := by
  have hpush : ∀ xs : List Row, (Batcher.pushes xs).map Batcher.Op.late = Batcher.pushes xs := by
    intro xs
    rw [Batcher.pushes, List.map_map]
    rfl
  induction chunks with
  | nil => rfl
  | cons chunk chunks ih =>
    rw [chunkOps, List.flatMap_cons, List.map_append, List.map_append, hpush, ← chunkOps, ih]
    rfl

theorem feed_chunkOps (K : Kernels) (plan : Plan) (s : Batcher.Open Row) (chunks : List RecordBatch)
    (ops : List (Batcher.Op Row)) :
    Batcher.feed (config plan) (refusals K plan) s (chunkOps K plan chunks ++ ops) =
      Batcher.feed (config plan) (refusals K plan) s
        (Batcher.pushes (chunks.flatMap (rowsOf K plan)) ++ ops) := by
  have hlate := Batcher.feed_late (config plan) (refusals K plan) s
    (chunks.map (rowsOf K plan)) ops
  rw [List.flatMap_map] at hlate
  exact hlate

/-- **Where every row has an identity a script is decided by the schema**, for all chunks alike. -/
theorem script_identified (K : Kernels) (plan : Plan) {schema : List Field} {chunks : List RecordBatch}
    (hschema : ∀ c ∈ chunks, c.schema = schema)
    (hid : ∀ c ∈ chunks, ∀ row ∈ c.rows, Identified schema row) (ending : Ending) :
    (∀ e, schemaVerdict K plan schema = .error e → chunks ≠ [] →
      script K plan ending chunks = ([], .error (.failed e))) ∧
    (schemaVerdict K plan schema = .ok () →
      script K plan ending chunks = (chunkOps K plan chunks, (script K plan ending []).2)) := by
  have hread : ∀ c ∈ chunks, verdict (readChunk K plan c) = schemaVerdict K plan schema := by
    intro c hc
    rw [← hschema c hc]
    refine verdict_readChunk ?_
    rw [hschema c hc]
    exact hid c hc
  clear hschema hid
  induction chunks with
  | nil => exact ⟨fun _ _ hne => absurd rfl hne, fun _ => rfl⟩
  | cons chunk chunks ih =>
    have hchunk := hread chunk List.mem_cons_self
    refine ⟨fun e he _ => ?_, fun hok => ?_⟩
    · rw [he, verdict_eq_error] at hchunk
      rw [script, readRows, hchunk]
      rfl
    · rw [hok] at hchunk
      obtain ⟨cols, hcols⟩ := verdict_eq_ok.1 hchunk
      have hrows : readRows K plan chunk = .ok (cols.rows chunk.numRows) := by
        rw [readRows, hcols]
        rfl
      have hrest := (ih fun c hc => hread c (List.mem_cons_of_mem _ hc)).2 hok
      rw [script, hrows]
      show (_, _) = _
      rw [hrest, readRows_eq hrows, chunkOps, chunkOps, List.flatMap_cons]

/-- Under a policy that cuts on size only, a source has one trail. -/
theorem streamed_late (hcut : plan.policy.cut = .sizeOnly) {source : Source}
    {t : Trail (Batcher.Mark (Batcher.Batch Row)) Refusal (Batcher.Open Row)}
    (h : Streamed K plan source t) :
    t = Batcher.feed (config plan) (refusals K plan) .start
        (script K plan source.ending source.chunks).1 >>=
      closing K plan (script K plan source.ending source.chunks).2 := by
  obtain ⟨_, ⟨_, ⟨ops, hops, rfl⟩, rfl⟩, rfl⟩ := h
  have hbudget : budgeted plan = false := by
    unfold budgeted
    rw [hcut]
    rfl
  obtain ⟨k, hshape, -⟩ := script_shape K plan source.ending source.chunks
  rw [hops.2 hbudget, hshape, chunkOps_late, bind_assoc]
  rfl

/-- Every trail of a source is a beginning of the trail of its rows. -/
theorem streamed_beginning (hcut : plan.policy.cut = .sizeOnly) {source : Source}
    {t : Trail (Batcher.Mark (Batcher.Batch Row)) Refusal (Batcher.Open Row)}
    (h : Streamed K plan source t) :
    t.out <+: (wholeTrail K plan (source.chunks.flatMap (rowsOf K plan))).out := by
  obtain ⟨k, hshape, hall⟩ := script_shape K plan source.ending source.chunks
  rw [streamed_late hcut h, hshape]
  rcases hend : (script K plan source.ending source.chunks).2 with e | ⟨⟩
  · have hrows : source.chunks.flatMap (rowsOf K plan) =
        (source.chunks.take k).flatMap (rowsOf K plan) ++
          (source.chunks.drop k).flatMap (rowsOf K plan) := by
      rw [← List.flatMap_append, List.take_append_drop]
    have hstop : ∀ t₀ : Trail (Batcher.Mark (Batcher.Batch Row)) Refusal (Batcher.Open Row),
        (t₀ >>= closing K plan (.error e)).out = t₀.out := by
      rintro ⟨out, e' | s⟩
      · rfl
      · exact List.append_nil out
    have hfeed := feed_chunkOps K plan .start (source.chunks.take k) []
    rw [List.append_nil, List.append_nil] at hfeed
    rw [hstop, hfeed, wholeTrail, hrows, Batcher.pushes_append, List.append_assoc,
      Batcher.feed_append]
    exact Trail.out_prefix_bind _ _
  · rw [hall hend, wholeTrail, ← feed_chunkOps K plan, Batcher.feed_append]
    show (_ >>= fun s => pure s >>= fun s => Batcher.feedStep _ _ s .finish).out <+: _
    simp only [pure_bind, Batcher.feed, bind_pure]
    exact List.prefix_refl _

theorem flatten_beginning {bs bs' : List (Batcher.Batch Row)} (h : bs <+: bs') :
    (bs.map Batcher.Batch.items).flatten <+: (bs'.map Batcher.Batch.items).flatten := by
  obtain ⟨rest, rfl⟩ := h
  rw [List.map_append, List.flatten_append]
  exact List.prefix_append _ _

/-- The batches sent of a list of rows are consecutive groups of them. -/
theorem sent_groups {rows : List Row} {out : List (Batcher.Mark (Batcher.Batch Row))}
    (h : out <+: (wholeTrail K plan rows).out) :
    ((Batcher.sent out).map Batcher.Batch.items).flatten <+: rows := by
  have hsent : Batcher.sent out <+: Batcher.sent (wholeTrail K plan rows).out := by
    obtain ⟨rest, hrest⟩ := h
    rw [← hrest, Batcher.sent_append]
    exact List.prefix_append _ _
  have hcut : Batcher.sent (wholeTrail K plan rows).out <+:
      (Batcher.run (config plan) .start (Batcher.pushes rows ++ [.finish])).1 :=
    (Batcher.feed_stops_refusals (config plan) _ _).sent_beginning
  have hall := (Batcher.conserve (config plan) (Batcher.pushes rows ++ [.finish]) .start).items
  rw [Batcher.run_finish_items, List.append_nil, Batcher.itemsOf_append, itemsOf_pushes] at hall
  have hitems : [] ++ (rows ++ Batcher.itemsOf [.finish]) = rows := List.append_nil rows
  rw [← hitems]
  refine (flatten_beginning (hsent.trans hcut)).trans ?_
  rw [hall]
  exact List.prefix_refl _

/-! ### Two runs -/

theorem sent_beginning {out out' : List (Batcher.Mark (Batcher.Batch Row))} (h : out <+: out') :
    (Batcher.sent out).map (itemOf plan) <+: (Batcher.sent out').map (itemOf plan) := by
  obtain ⟨rest, rfl⟩ := h
  rw [Batcher.sent_append, List.map_append]
  exact List.prefix_append _ _

/-- **Every run sends a beginning of what can be sent of its rows.** -/
theorem sends_beginning (hcut : plan.policy.cut = .sizeOnly) {source : Source}
    {tr : List (Event Ask.Answer)} {r : Except EngineError Unit}
    (h : (produce K plan source).Runs tr r) :
    sends tr <+: wholeSends K plan (source.chunks.flatMap (rowsOf K plan)) := by
  rcases runs_produce h with hno | ⟨t₁, t₂, rfl, hhidden, hdrain⟩
  · unfold sends
    rw [hno.hidden]
    exact List.nil_prefix
  · obtain ⟨t, out, hstream, hbegin, hsees⟩ := (follows_drain K plan source).sees_beginning hdrain
    rw [(flushes_append hhidden).2, (calls_of_sees hsees).2]
    exact sent_beginning (hbegin.trans (streamed_beginning hcut hstream))

/-- Two chunkings of one list of rows of one schema. -/
structure Resplit (schema : List Field) (A B : Source) : Prop where
  left : ∀ c ∈ A.chunks, c.schema = schema
  right : ∀ c ∈ B.chunks, c.schema = schema
  rows : A.chunks.flatMap RecordBatch.rows = B.chunks.flatMap RecordBatch.rows
  /-- A schema is read with the first chunk, so where there is none it is not refused. -/
  chunks : A.chunks = [] ↔ B.chunks = []
  ending : A.ending = B.ending

/-- Two outcomes that are the same but for the row number of a null geometry. -/
inductive Alike : Except EngineError Unit → Except EngineError Unit → Prop
  | done : Alike (.ok ()) (.ok ())
  | failed {e e' : EngineError} {x : Refusal} (left : Reports e x) (right : Reports e' x) :
      Alike (.error e) (.error e')

theorem flatMap_rowsOf {schema : List Field} {chunks : List RecordBatch}
    (h : ∀ c ∈ chunks, c.schema = schema) :
    chunks.flatMap (rowsOf K plan) =
      (chunks.flatMap RecordBatch.rows).map (rowOf K plan schema) := by
  rw [List.map_flatMap]
  refine List.flatMap_congr fun c hc => ?_
  rw [rowsOf, h c hc]

/-- With an identity in every row, two chunkings have one trail. -/
theorem streamed_resplit {schema : List Field} {A B : Source} (h : Resplit schema A B)
    (hcut : plan.policy.cut = .sizeOnly)
    (hid : ∀ row ∈ A.chunks.flatMap RecordBatch.rows, Identified schema row)
    {t t' : Trail (Batcher.Mark (Batcher.Batch Row)) Refusal (Batcher.Open Row)}
    (ht : Streamed K plan A t) (ht' : Streamed K plan B t') : t = t' := by
  have hA := script_identified K plan h.left (fun c hc row hrow =>
    hid row (List.mem_flatMap.2 ⟨c, hc, hrow⟩)) A.ending
  have hB := script_identified K plan h.right (fun c hc row hrow =>
    hid row (h.rows ▸ List.mem_flatMap.2 ⟨c, hc, hrow⟩)) B.ending
  rw [streamed_late hcut ht, streamed_late hcut ht']
  by_cases hnil : A.chunks = []
  · rw [hnil, h.chunks.1 hnil, h.ending]
  · have hnil' : B.chunks ≠ [] := fun hB => hnil (h.chunks.2 hB)
    cases hverdict : schemaVerdict K plan schema with
    | error e => rw [hA.1 e hverdict hnil, hB.1 e hverdict hnil']
    | ok u =>
      have hrows : A.chunks.flatMap (rowsOf K plan) = B.chunks.flatMap (rowsOf K plan) := by
        rw [flatMap_rowsOf h.left, flatMap_rowsOf h.right, h.rows]
      have hfeed := feed_chunkOps K plan .start A.chunks []
      have hfeed' := feed_chunkOps K plan .start B.chunks []
      rw [List.append_nil] at hfeed hfeed'
      rw [hA.2 hverdict, hB.2 hverdict, hfeed, hfeed', hrows, h.ending]

/-- **The batches of a stream do not depend on how its rows are chunked**: whatever happens, of two
runs over one list of rows under a policy that cuts on size only, one sends a beginning of what the
other sends; and where every row has an identity and nothing disturbs them, they send the same
batches, which are consecutive groups of the rows, and they end alike. -/
theorem produce_resplit {schema : List Field} {A B : Source} (h : Resplit schema A B)
    (hcut : plan.policy.cut = .sizeOnly) {tr tr' : List (Event Ask.Answer)}
    {r r' : Except EngineError Unit} (hA : (produce K plan A).Runs tr r)
    (hB : (produce K plan B).Runs tr' r') :
    (sends tr <+: sends tr' ∨ sends tr' <+: sends tr) ∧
      ((∀ row ∈ A.chunks.flatMap RecordBatch.rows, Identified schema row) →
        (∀ e ∈ tr, calm e) → (∀ e ∈ tr', calm e) →
        (∃ bs : List (Batcher.Batch Row),
          (bs.map Batcher.Batch.items).flatten <+: A.chunks.flatMap (rowsOf K plan) ∧
          sends tr = bs.map (itemOf plan) ∧ sends tr' = bs.map (itemOf plan)) ∧
        Alike r r') := by
  have hrows : A.chunks.flatMap (rowsOf K plan) = B.chunks.flatMap (rowsOf K plan) := by
    rw [flatMap_rowsOf h.left, flatMap_rowsOf h.right, h.rows]
  refine ⟨?_, fun hid hcalm hcalm' => ?_⟩
  · have hbegin := sends_beginning hcut hB
    rw [← hrows] at hbegin
    exact List.prefix_or_prefix_of_prefix (sends_beginning hcut hA) hbegin
  · obtain ⟨t, hstream, hsends, hends⟩ := runs_calm hA hcalm
    obtain ⟨t', hstream', hsends', hends'⟩ := runs_calm hB hcalm'
    have hsame := streamed_resplit h hcut hid hstream hstream'
    subst hsame
    refine ⟨⟨Batcher.sent t.out, ?_, hsends, hsends'⟩, ?_⟩
    · exact sent_groups (streamed_beginning hcut hstream)
    · generalize t.outcome = o at hends hends'
      cases hends with
      | ok _ =>
        cases hends' with
        | ok _ => exact .done
      | error hleft =>
        cases hends' with
        | error hright => exact .failed hleft hright

/-- Five rows as one chunk and as three make the same three batches. -/
theorem produce_resplit_points :
    let A : Source := ⟨[pointChunk ([1, 2, 3, 4, 5].map pointRow)], .drained⟩
    let B : Source := ⟨[pointChunk ([1].map pointRow), pointChunk [],
      pointChunk ([2, 3, 4, 5].map pointRow)], .drained⟩
    let tr := ((produce .logical pointPlan A).eval quietly).1
    let tr' := ((produce .logical pointPlan B).eval quietly).1
    sends tr = sends tr' ∧ (sends tr).length = 3 := by
  intro A B tr tr'
  have hsplit : Resplit pointSchema A B := by
    refine ⟨?_, ?_, rfl, ?_, rfl⟩
    · decide
    · decide
    · simp [A, B]
  have hA := Prog.runs_eval quietly (produce .logical pointPlan A)
  have hB := Prog.runs_eval quietly (produce .logical pointPlan B)
  have hid : ∀ row ∈ A.chunks.flatMap RecordBatch.rows, Identified pointSchema row := by
    decide +kernel
  obtain ⟨⟨bs, -, hsends, hsends'⟩, -⟩ := (produce_resplit hsplit rfl hA hB).2 hid
    (calm_quietly _) (calm_quietly _)
  refine ⟨hsends.trans hsends'.symm, ?_⟩
  decide +kernel

/-- **Chunks show where a run is refused**: a null geometry is numbered from the start of its chunk,
a chunk with a null identity is refused with the rows in front of it, and a schema is refused only
with a chunk. -/
theorem chunking_shows :
    (let A : Source := ⟨[pointChunk [pointRow 1, [some [2], none]]], .drained⟩
      let B : Source := ⟨[pointChunk [pointRow 1], pointChunk [[some [2], none]]], .drained⟩
      Resplit pointSchema A B ∧
        ((produce .logical pointPlan A).eval quietly).2 =
          .error (.wkb "row 1 has a null geometry") ∧
        ((produce .logical pointPlan B).eval quietly).2 =
          .error (.wkb "row 0 has a null geometry")) ∧
    (let bare : List Cell := [none, some []]
      let A : Source := ⟨[pointChunk [pointRow 1, pointRow 2, bare]], .drained⟩
      let B : Source := ⟨[pointChunk [pointRow 1, pointRow 2], pointChunk [bare]], .drained⟩
      Resplit pointSchema A B ∧
        (sends ((produce .logical pointPlan A).eval quietly).1).length = 0 ∧
        (sends ((produce .logical pointPlan B).eval quietly).1).length = 1) ∧
    ((produce .logical pointPlan ⟨[], .drained⟩).eval quietly).2 = .ok () ∧
    ((produce .logical pointPlan ⟨[noRows []], .drained⟩).eval quietly).2 =
      .error (.query "result has no `id` column") := by
  refine ⟨⟨⟨?_, ?_, rfl, ?_, rfl⟩, ?_, ?_⟩, ⟨⟨?_, ?_, rfl, ?_, rfl⟩, ?_, ?_⟩, ?_, ?_⟩
  all_goals decide +kernel

end SpatialIde.Engine.Stream
