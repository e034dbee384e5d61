import SpatialIde.Engine.Stream.Conserve
import SpatialIde.Engine.Wkb.Failure

/-! # The batch ceiling is hit by one feature only

No target of a declared policy exceeds `MAX_BATCH_BYTES`, so of all batches only
one of a single row can be refused, and no other failure of a stream speaks of a
size (`OfSize`).  `produce_ceiling` is the result: which row a stream names, what
it has sent by then, and that it does name the row when nothing else stops it.
-/

namespace SpatialIde.Engine.Stream

open Lib Wkb

variable (K : Kernels) (plan : Plan)

/-- What a row is estimated to occupy as a batch of its own. -/
def rowBytes (x : Row) : Nat :=
  estimateBytes 1 (x.vertices plan.envelope.encoding) + x.attrBytes

/-- The rows of the chunks in front of the first that cannot be read. -/
def rowsRead : List RecordBatch → List Row
  | [] => []
  | chunk :: chunks =>
    match readRows K plan chunk with
    | .error _ => []
    | .ok rows => rows ++ rowsRead chunks

/-- A row that is neither refused by `binary_value` nor by the strict decode. -/
def Row.Accepted (x : Row) : Prop :=
  x.readRefusal K = none ∧ ∃ g, x.Decodes plan.envelope.encoding g

/-- An error about a size. -/
def OfSize : EngineError → Prop
  | .featureTooLarge .. => True
  | .ceilingExceeded .. => True
  | _ => False

variable {K plan}

/-! ### Failures that are not about a size -/

theorem readRefusal_plain {x : Row} {e : EngineError} (h : x.readRefusal K = some (.failed e)) :
    ¬OfSize e := by
  unfold Row.readRefusal at h
  split at h
  · cases h
  · split at h
    all_goals cases h
    exact id

theorem decodeRefusal_plain {enc : GeometryEncoding} {xs : List Row} {x : Row} {e : EngineError}
    (h : decodeRefusal enc xs x = some (.failed e)) : ¬OfSize e := by
  unfold decodeRefusal at h
  rcases hpush : (builderOf enc xs).pushWkb x.bytes with ⟨_ | ⟨⟩, b⟩
  · rw [hpush] at h
    cases h
    obtain ⟨detail, rfl⟩ := GeometryBuilder.pushWkb_error (congrArg Prod.fst hpush)
    exact id
  · rw [hpush] at h
    cases h

theorem columnU64_plain {chunk : RecordBatch} {name : String} {e : EngineError}
    (h : columnU64 K chunk name = .error e) : ¬OfSize e := by
  unfold columnU64 at h
  split at h
  · cases h
    exact id
  · split at h
    · cases h
      exact id
    · split at h
      · cases h
      · obtain ⟨c, -, hc⟩ := mapM_eq_error h
        dsimp only at hc
        split_ifs at hc
        cases hc
        exact id
      · cases h
        exact id

theorem readAttribute_plain {chunk : RecordBatch} {f : Field} {e : EngineError}
    (h : readAttribute K chunk f = .error e) : ¬OfSize e := by
  rcases bind_eq_error h with h | ⟨col, -, h⟩
  · rw [okOr_eq_error h]
    exact id
  · rcases bind_eq_error h with h | ⟨col', -, h⟩
    · unfold decodeDictionaryChunkColumn at h
      split at h
      · split at h
        all_goals cases h
        exact id
      · cases h
    · split_ifs at h
      cases h
      exact id

theorem readRows_plain {chunk : RecordBatch} {e : EngineError}
    (h : readRows K plan chunk = .error e) : ¬OfSize e := by
  unfold readRows at h
  cases hread : readChunk K plan chunk with
  | ok cols => rw [hread] at h; cases h
  | error e' =>
    rw [hread] at h
    cases h
    rcases bind_eq_error hread with h | ⟨_, -, h⟩
    · exact columnU64_plain h
    · rcases bind_eq_error h with h | ⟨_, -, h⟩
      · rw [okOr_eq_error h]
        exact id
      · rcases bind_eq_error h with h | ⟨_, -, h⟩
        · obtain ⟨f, -, hf⟩ := mapM_eq_error h
          exact readAttribute_plain hf
        · cases h

/-- A script reads `rowsRead`, and its end is not about a size. -/
theorem script_spec (ending : Ending) (chunks : List RecordBatch) :
    Batcher.itemsOf (script K plan ending chunks).1 = rowsRead K plan chunks ∧
      ∀ e, (script K plan ending chunks).2 = .error (.failed e) → ¬OfSize e := by
  induction chunks with
  | nil =>
    refine ⟨rfl, fun e h => ?_⟩
    cases ending with
    | drained => cases h
    | panicked payload =>
      cases h
      unfold queryFailure
      split_ifs <;> exact id
  | cons chunk chunks ih =>
    unfold script rowsRead
    cases hread : readRows K plan chunk with
    | error e =>
      refine ⟨rfl, fun e' h => ?_⟩
      cases h
      exact readRows_plain hread
    | ok rows => exact ⟨by rw [itemsOf_chunk, ih.1], ih.2⟩

/-- **A trail of a source is that of its rows**, but that it may end for a reason that is not about
a size. -/
theorem streamed_feed {source : Source}
    {t : Trail (Batcher.Mark (Batcher.Batch Row)) Refusal (Batcher.Open Row)}
    (h : Streamed K plan source t) :
    ∃ ops, Batcher.itemsOf ops = rowsRead K plan source.chunks ∧
      t.out = (Batcher.feed (config plan) (refusals K plan) .start ops).out ∧
      (∀ x, (Batcher.feed (config plan) (refusals K plan) .start ops).outcome = .error x →
        t.outcome = .error x) ∧
      ∀ e, OfSize e → t.outcome = .error (.failed e) →
        (Batcher.feed (config plan) (refusals K plan) .start ops).outcome = .error (.failed e) := by
  obtain ⟨hitems, hplain⟩ := script_spec (K := K) source.ending source.chunks
  obtain ⟨ops, htiming, ⟨-, rfl⟩ | ⟨e, he, rfl⟩⟩ := streamed_cases h
  · refine ⟨ops ++ [.finish], ?_, rfl, fun _ h => h, fun _ _ h => h⟩
    rw [Batcher.itemsOf_append, htiming.itemsOf_eq, hitems]
    exact List.append_nil _
  · refine ⟨ops, htiming.itemsOf_eq.trans hitems, ?_⟩
    generalize Batcher.feed (config plan) (refusals K plan) .start ops = t
    obtain ⟨out, e' | s⟩ := t
    · exact ⟨rfl, fun _ h => h, fun _ _ h => h⟩
    · refine ⟨List.append_nil out, fun x h => (by cases h), fun e' hsize h => ?_⟩
      cases h
      exact absurd hsize (hplain e' he)

/-! ### The ceiling -/

theorem capped (K : Kernels) (hp : BatchSizePolicy.Declared plan.policy) :
    Batcher.Capped (config plan) (refusals K plan) MAX_BATCH_BYTES where
  target := hp.targetFor_le
  weight := weight_le_bound plan
  batch b := by
    refine ⟨load_le_of_accepted, fun h => ?_⟩
    exact if_neg (Nat.not_lt.2 h)

/-- Accepted rows are refused for nothing but their batch. -/
theorem refuses_accepted :
    Batcher.Refuses (refusals K plan) (Row.Accepted K plan) fun _ _ => False := by
  rintro x e ⟨hread, g, hg⟩ (h | ⟨ys, hys, h⟩)
  · have hnone : (refusals K plan).read x = none := hread
    rw [hnone] at h
    cases h
  · have hdecode : AllDecode plan.envelope.encoding ys := fun y hy => (hys y hy).2
    obtain ⟨hstart, henc, -, -⟩ := builderOf_spec hdecode
    have hpush := (Row.pushWkb_iff hstart henc x).2 ⟨g, hg, rfl⟩
    have hnone : (refusals K plan).decode ys x = none := by
      show decodeRefusal plan.envelope.encoding ys x = none
      unfold decodeRefusal
      rw [hpush]
    rw [hnone] at h
    cases h

/-- The refusal of a batch of one row. -/
theorem ceilingRefusal_single {b : Batcher.Batch Row} {x : Row} (hb : b.items = [x]) {e : Refusal}
    (h : ceilingRefusal plan b = some e) :
    e = .failed (.featureTooLarge x.id MAX_BATCH_BYTES (rowBytes plan x)) := by
  unfold ceilingRefusal at h
  rw [hb, Batcher.Config.load_singleton] at h
  dsimp only at h
  split_ifs at h
  cases h
  rfl

/-- **Where a stream ends with an error about a size, the batch of a single row was refused**, the
first one over the ceiling, and every row in front of it has been sent. -/
theorem produce_ofSize (hp : BatchSizePolicy.Declared plan.policy) {source : Source}
    {tr : List (Event Ask.Answer)} {e : EngineError} (hsize : OfSize e)
    (h : (produce K plan source).Runs tr (.error e)) :
    ∃ front x, Batcher.FirstOver (config plan) MAX_BATCH_BYTES (rowsRead K plan source.chunks)
        front x ∧
      e = .featureTooLarge x.id MAX_BATCH_BYTES (rowBytes plan x) ∧
      ∃ bs : List (Batcher.Batch Row), (bs.map Batcher.Batch.items).flatten = front ∧
        sends tr = bs.map (itemOf plan) := by
  rcases runs_produce h with hno | ⟨t₁, t₂, rfl, hhidden, hdrain⟩
  · obtain ⟨e', he, rfl | ⟨detail, rfl⟩⟩ := hno.failed
    · cases he
      exact hsize.elim
    · cases he
      exact hsize.elim
  · obtain ⟨t, hstream, hmatch⟩ := follows_drain K plan source _ _ hdrain
    obtain ⟨ops, hitems, hout, -, hends⟩ := streamed_feed hstream
    cases hmatch with
    | short out sees isPrefix failed cause =>
      cases failed
      exact hsize.elim
    | whole sees ends =>
      generalize ho : t.outcome = o at ends
      cases ends with
      | error hreport =>
        cases hreport with
        | nullGeometry row => exact hsize.elim
        | failed =>
          have hfeed := hends e hsize ho
          have hstops := Batcher.feed_stops_refusals (r := refusals K plan) (config plan) ops .start
          generalize Batcher.feed (config plan) (refusals K plan) .start ops = t₀ at hfeed hstops hout
          cases hstops with
          | whole sent => cases hfeed
          | item pre y e' isPrefix sent mem refused =>
            cases hfeed
            rcases refused with hread | ⟨ys, hdecode⟩
            · exact absurd hsize (readRefusal_plain hread)
            · exact absurd hsize (decodeRefusal_plain hdecode)
          | batch pre b e' isPrefix sent refused =>
            cases hfeed
            obtain ⟨x, hx, hfirst⟩ := Batcher.refused_alone (capped K hp) isPrefix sent refused
            rw [hitems] at hfirst
            have he := ceilingRefusal_single hx refused
            cases he
            refine ⟨_, x, hfirst, rfl, pre, rfl, ?_⟩
            have hsent : Batcher.sent t.out = pre := by
              rw [hout, Batcher.sent_append, Batcher.sent_marks]
              exact List.append_nil pre
            rw [(flushes_append hhidden).2, (calls_of_sees sees).2, hsent]

theorem exists_call {calls : List FlushCall} {bs : List (Batcher.Batch Row)}
    (h : List.Forall₂ (CallOf plan) calls bs) {call : FlushCall} (hcall : call ∈ calls) :
    ∃ b ∈ bs, CallOf plan call b := by
  induction h with
  | nil => cases hcall
  | cons hof _ ih =>
    rcases List.mem_cons.1 hcall with rfl | hcall
    · exact ⟨_, List.mem_cons_self, hof⟩
    · obtain ⟨b, hb, hb'⟩ := ih hcall
      exact ⟨b, List.mem_cons_of_mem _ hb, hb'⟩

/-- **Every batch handed to `flush` with two or more rows is under its target.** -/
theorem flushes_bounded {source : Source}
    {tr : List (Event Ask.Answer)} {r : Except EngineError Unit}
    (h : (produce K plan source).Runs tr r) {call : FlushCall} (hcall : call ∈ flushes tr)
    (htwo : 2 ≤ call.pending.ids.length) :
    call.pending.estBytes ≤ plan.policy.targetFor call.batchIndex ∧
      call.targetBytes = plan.policy.targetFor call.batchIndex := by
  rcases runs_produce h with hno | ⟨t₁, t₂, rfl, hhidden, hdrain⟩
  · unfold flushes at hcall
    rw [hno.hidden] at hcall
    cases hcall
  · rw [(flushes_append hhidden).1] at hcall
    obtain ⟨t, out, hstream, hbegin, hsees⟩ := (follows_drain K plan source).sees_beginning hdrain
    obtain ⟨ops, -, hout, -⟩ := streamed_feed hstream
    obtain ⟨hcalls, -⟩ := calls_of_sees hsees
    obtain ⟨b, hb, hof⟩ := exists_call hcalls hcall
    have hcut : b ∈ (Batcher.run (config plan) .start ops).1 := by
      obtain ⟨rest, hrest⟩ := hbegin
      have hmem : b ∈ Batcher.handed t.out := by
        rw [← hrest, Batcher.handed_append]
        exact List.mem_append_left _ hb
      rw [hout] at hmem
      have hstops := Batcher.feed_stops_refusals (r := refusals K plan) (config plan) ops .start
      exact hstops.handed_beginning.subset hmem
    have hlen : 2 ≤ b.items.length := by
      rw [hof.holds.ids, List.length_map] at htwo
      exact htwo
    have hwithin := (Batcher.load_le_target (config plan) (weight_le_bound plan) ops .start
      fun h => by simp [Batcher.Open.start] at h).1 b hcut hlen
    rw [hof.holds.estBytes, hof.batchIndex, hof.targetBytes]
    exact hwithin

/-- **A row over the ceiling ends an undisturbed stream** in which nothing in front of it is refused. -/
theorem produce_over (hp : BatchSizePolicy.Declared plan.policy) {source : Source}
    {tr : List (Event Ask.Answer)} {r : Except EngineError Unit}
    (h : (produce K plan source).Runs tr r) (hcalm : ∀ e ∈ tr, calm e) {front : List Row} {x : Row}
    (hfirst : Batcher.FirstOver (config plan) MAX_BATCH_BYTES (rowsRead K plan source.chunks)
      front x)
    (haccept : ∀ y ∈ front ++ [x], y.Accepted K plan) :
    r = .error (.featureTooLarge x.id MAX_BATCH_BYTES (rowBytes plan x)) := by
  obtain ⟨t, hstream, -, hends⟩ := runs_calm h hcalm
  obtain ⟨ops, hitems, -, hfeed, -⟩ := streamed_feed hstream
  obtain ⟨back, hback⟩ := hfirst.isPrefix
  rw [← hback, List.append_assoc] at hitems
  obtain ⟨ops₁, early, ops₂, rfl, rfl⟩ := Batcher.exists_push ops front hitems
  obtain ⟨b, e, hb, hrefused, hout⟩ := Batcher.feed_over (capped K hp) refuses_accepted early
    (fun y hy => haccept y (List.mem_append_left _ hy)) (haccept x (by simp)) hfirst.under
    hfirst.exceeds
  have hall : (Batcher.feed (config plan) (refusals K plan) .start
      (ops₁ ++ .push x early :: ops₂)).outcome = .error e := by
    have happ : ops₁ ++ .push x early :: ops₂ = (ops₁ ++ [.push x early]) ++ ops₂ := by simp
    rw [happ, Batcher.feed_append]
    exact Trail.outcome_bind_error hout _
  have he := ceilingRefusal_single hb hrefused
  subst he
  have ho := hfeed _ hall
  rw [ho] at hends
  cases hends with
  | error hreport =>
    cases hreport
    rfl

/-- **The batch ceiling is only hit by one oversized feature.**  In every run under a declared
policy a batch of two or more rows is under its target, which is under the ceiling, and the stream
does not end for the size of such a batch; where it ends because a feature is too large, that is
the first row over the ceiling and all rows in front of it have been sent; and an undisturbed stream
does end so where the rows up to that one are accepted. -/
theorem produce_ceiling (hp : BatchSizePolicy.Declared plan.policy) {source : Source}
    {tr : List (Event Ask.Answer)} {r : Except EngineError Unit}
    (h : (produce K plan source).Runs tr r) :
    (∀ call ∈ flushes tr, 2 ≤ call.pending.ids.length →
      call.pending.estBytes ≤ plan.policy.targetFor call.batchIndex ∧
      plan.policy.targetFor call.batchIndex ≤ MAX_BATCH_BYTES) ∧
    (∀ ceiling limit saw, r ≠ .error (.ceilingExceeded ceiling limit saw)) ∧
    (∀ id limit saw, r = .error (.featureTooLarge id limit saw) → ∃ front x,
      Batcher.FirstOver (config plan) MAX_BATCH_BYTES (rowsRead K plan source.chunks) front x ∧
      id = x.id ∧ limit = MAX_BATCH_BYTES ∧ saw = rowBytes plan x ∧
      ∃ bs : List (Batcher.Batch Row), (bs.map Batcher.Batch.items).flatten = front ∧
        sends tr = bs.map (itemOf plan)) ∧
    ((∀ e ∈ tr, calm e) → ∀ front x,
      Batcher.FirstOver (config plan) MAX_BATCH_BYTES (rowsRead K plan source.chunks) front x →
      (∀ y ∈ front ++ [x], y.Accepted K plan) →
      r = .error (.featureTooLarge x.id MAX_BATCH_BYTES (rowBytes plan x))) := by
  refine ⟨?_, ?_, ?_, ?_⟩
  · intro call hcall htwo
    exact ⟨(flushes_bounded h hcall htwo).1, hp.targetFor_le _⟩
  · rintro ceiling limit saw rfl
    have hsize : OfSize (.ceilingExceeded ceiling limit saw) := trivial
    obtain ⟨_, _, -, he, -⟩ := produce_ofSize hp hsize h
    cases he
  · rintro id limit saw rfl
    have hsize : OfSize (.featureTooLarge id limit saw) := trivial
    obtain ⟨front, x, hfirst, he, hsent⟩ := produce_ofSize hp hsize h
    cases he
    exact ⟨front, x, hfirst, rfl, rfl, rfl, hsent⟩
  · intro hcalm front x hfirst haccept
    exact produce_over hp h hcalm hfirst haccept

/-! ### A row that is too large -/

/-- Points with a note, under the default policy. -/
def notedPlan : Plan where
  geometryColumn := "geometry"
  envelope := ⟨.point, [⟨"note", .utf8⟩], by decide⟩
  policy := .default
  compactAttributeRetention := true

/-- A row with an identity, a geometry and a note. -/
def notedRow (id : UInt8) (geometry : Cell) (note : List UInt8) : List Cell :=
  [some [id], geometry, some note]

def notedChunk (id : UInt8) (geometry : Cell) (note : List UInt8) : RecordBatch where
  schema := [⟨ID_COLUMN, .uInt64⟩, ⟨"geometry", .binary⟩, ⟨"note", .utf8⟩]
  rows := [notedRow id geometry note]
  width := by simp [notedRow]

theorem rowsRead_noted (note : List UInt8) :
    rowsRead .logical notedPlan [notedChunk 1 (some origin) [], notedChunk 2 (some origin) note] =
      [⟨1, .binary, some origin, [(.utf8, some [])]⟩, ⟨2, .binary, some origin, [(.utf8, some note)]⟩]
    := by
  rfl

theorem pushWkb_origin : (GeometryBuilder.new .point).pushWkb origin =
    (.ok (), .point ⟨[⟨0⟩, ⟨0⟩]⟩) := by rfl

theorem accepted_origin (id : UInt64) (attributes : List (DataType × Cell)) :
    Row.Accepted .logical notedPlan ⟨id, .binary, some origin, attributes⟩ := by
  obtain ⟨g, hg, -⟩ := (Row.pushWkb_iff (GeometryBuilder.started_new .point)
    (GeometryBuilder.encoding_new .point) ⟨id, .binary, some origin, attributes⟩).1 pushWkb_origin
  exact ⟨rfl, g, hg⟩

theorem rowBytes_origin (id : UInt64) (note : List UInt8) :
    rowBytes notedPlan ⟨id, .binary, some origin, [(.utf8, some note)]⟩ = 37 + note.length := by
  have hvertices : Row.vertices .point ⟨id, .binary, some origin, [(.utf8, some note)]⟩ = 1 := by
    have hbytes : Row.bytes ⟨id, .binary, some origin, [(.utf8, some note)]⟩ = origin := rfl
    unfold Row.vertices
    rw [hbytes, pushWkb_origin]
    rfl
  show estimateBytes 1 (Row.vertices .point _) + (1 + (note.length + 4) + 0) = _
  rw [hvertices, estimateBytes]
  omega

/-- A note of four mebibytes is too large for any batch. -/
theorem produce_ceiling_noted :
    let note := List.replicate (4 * 1024 * 1024) (0 : UInt8)
    let source : Source :=
      ⟨[notedChunk 1 (some origin) [], notedChunk 2 (some origin) note], .drained⟩
    ((produce .logical notedPlan source).eval quietly).2 =
      .error (.featureTooLarge 2 MAX_BATCH_BYTES (37 + 4 * 1024 * 1024)) := by
  intro note source
  have hlen : note.length = 4 * 1024 * 1024 := List.length_replicate
  have hrun := Prog.runs_eval quietly (produce .logical notedPlan source)
  have hread := rowsRead_noted note
  have hfirst : Batcher.FirstOver (config notedPlan) MAX_BATCH_BYTES
      (rowsRead .logical notedPlan source.chunks) [⟨1, .binary, some origin, [(.utf8, some [])]⟩]
      ⟨2, .binary, some origin, [(.utf8, some note)]⟩ := by
    refine ⟨by rw [hread]; exact List.prefix_refl _, ?_, ?_⟩
    · intro y hy
      rw [List.mem_singleton.1 hy]
      show rowBytes notedPlan _ ≤ _
      rw [rowBytes_origin]
      decide
    · show _ < rowBytes notedPlan _
      rw [rowBytes_origin, hlen]
      decide
  have hend := (produce_ceiling .default hrun).2.2.2 (calm_quietly _) _ _ hfirst (by
    intro y hy
    rcases List.mem_cons.1 hy with rfl | hy
    · exact accepted_origin _ _
    · rw [List.mem_singleton.1 hy]
      exact accepted_origin _ _)
  rw [hend, rowBytes_origin, hlen]

/-- A row that is refused for another reason comes first. -/
theorem too_large_hidden :
    let note := List.replicate (4 * 1024 * 1024) (0 : UInt8)
    let source : Source := ⟨[notedChunk 1 none [], notedChunk 2 (some origin) note], .drained⟩
    (∃ x ∈ rowsRead .logical notedPlan source.chunks, MAX_BATCH_BYTES < rowBytes notedPlan x) ∧
      ((produce .logical notedPlan source).eval quietly).2 =
        .error (.wkb "row 0 has a null geometry") := by
  intro note source
  have hlen : note.length = 4 * 1024 * 1024 := List.length_replicate
  have hread : ∀ note, rowsRead .logical notedPlan
      [notedChunk 1 none [], notedChunk 2 (some origin) note] =
        [⟨1, .binary, none, [(.utf8, some [])]⟩,
          ⟨2, .binary, some origin, [(.utf8, some note)]⟩] := fun _ => rfl
  refine ⟨⟨⟨2, .binary, some origin, [(.utf8, some note)]⟩, ?_, ?_⟩, ?_⟩
  · rw [hread note]
    simp
  · rw [rowBytes_origin, hlen]
    decide
  · decide +kernel

end SpatialIde.Engine.Stream
