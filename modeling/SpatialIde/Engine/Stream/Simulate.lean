import SpatialIde.Engine.Stream.Batches

/-! # The producer is a batcher

Every run of the producer shows the batches of `Lib.Batcher.feed` over the rows of
its chunks, or is cut short by a cancellation.  `Linked` ties the loop's state to
the batcher's: the rows accumulated are those the recorded runs cover followed by
those of the current chunk from `run_start` on, which is what every cut and every
chunk end re-establishes.
-/

namespace SpatialIde.Engine.Stream

open Lib Wkb

/-- What is seen of a producer: the batches it hands to `flush` and the items it sends. -/
inductive Shown where
  | handed (p : Pending) (batchIndex targetBytes : Nat) (cutBy : BatchCut)
  | sent (item : Item)

def view : Event Ask.Answer → Option Shown
  | ⟨.flush p batchIndex targetBytes cutBy, _⟩ => some (.handed p batchIndex targetBytes cutBy)
  | ⟨.send (.ok item), true⟩ => some (.sent item)
  | _ => none

/-- Not cancelled, the query runs, and the consumer is there. -/
def calm : Event Ask.Answer → Prop
  | ⟨.isCancelled, cancelled⟩ => cancelled = false
  | ⟨.prepare, result⟩ => result = .ok ()
  | ⟨.execute, result⟩ => result = .ok ()
  | ⟨.send _, there⟩ => there = true
  | _ => True

inductive Shows (plan : Plan) : Shown → Batcher.Mark (Batcher.Batch Row) → Prop
  | handed {p : Pending} {b : Batcher.Batch Row} (holds : Holds plan p b.items)
      (covers : Covers plan.envelope.attributes p.attrs b.items) (ne_nil : b.items ≠ []) :
      Shows plan (.handed p b.index b.target (cutOf b.cause)) (.handed b)
  | sent (b : Batcher.Batch Row) : Shows plan (.sent (itemOf plan b)) (.sent b)

def watch (plan : Plan) :
    Watch Ask.Answer Shown (Batcher.Mark (Batcher.Batch Row)) EngineError Refusal where
  view := view
  shows := Shows plan
  stands := Reports
  calm := calm
  interrupted := .cancelled

variable (K : Kernels) (plan : Plan)

variable {K plan}

theorem follows_stop {α σ : Type} {k : Unit → Producer α}
    {T : Trail (Batcher.Mark (Batcher.Batch Row)) Refusal σ → Prop} {R : α → σ → Prop}
    (hT : ∃ t, T t) (h : (watch plan).Follows (k ()) T R) :
    (watch plan).Follows (stopIfCancelled >>= k) T R := by
  refine Watch.Follows.poll (W := watch plan) (q := Ask.isCancelled)
    (f := fun cancelled => (if cancelled then Prog.throw .cancelled else pure ()) >>= k) hT
    (fun _ => rfl) fun cancelled => ?_
  cases cancelled with
  | true => exact .inl ⟨rfl, Bool.true_eq_false.mp⟩
  | false => exact .inr h

/-- **Handing over a batch.** -/
theorem follows_flush {p : Pending} {b : Batcher.Batch Row} (h : Holds plan p b.items)
    (hcover : Covers plan.envelope.attributes p.attrs b.items) (hne : b.items ≠ []) :
    (watch plan).Follows (flush K plan p b.index b.target (cutOf b.cause))
      (· = Batcher.offer (refusals K plan) b) fun p' _ =>
        p' = .new plan.envelope.attributes.length plan.envelope.encoding := by
  refine Watch.Follows.emit fun _ => .inr ⟨_, rfl, .handed h hcover hne, ?_⟩
  by_cases hload : MAX_BATCH_BYTES < (config plan).load b.items
  · obtain ⟨e, hrefuse, hitem⟩ := toItem_refused (K := K) h hload
    rw [hitem, show (refusals K plan).batch b = some (.failed e) from hrefuse]
    exact .lift_error (.failed e)
  · have hitem := toItem_ok (K := K) h hcover hne (by omega)
    have hok : (refusals K plan).batch b = none := if_neg hload
    rw [hitem, hok]
    refine .lift_ok (follows_stop ⟨_, rfl⟩ ?_)
    refine Watch.Follows.emit (t := pure ()) fun there => ?_
    cases there with
    | false => exact .inl ⟨rfl, rfl, Bool.false_ne_true⟩
    | true =>
      refine .inr ⟨_, rfl, .sent b, ?_⟩
      rw [hcover.length]
      exact .pure rfl

/-! ### The row loop -/

/-- **The loop's state and the batcher's**, in front of row `i` of a chunk. -/
structure Linked (plan : Plan) (cols : ChunkColumns) (n i : Nat) (st : LoopState)
    (s : Batcher.Open Row) : Prop where
  emitted : st.emitted = s.emitted
  holds : Holds plan st.pending s.items
  le : st.runStart ≤ i
  runs : ∃ old, s.items = old ++ segment (cols.rows n) st.runStart i ∧
    Covers plan.envelope.attributes st.pending.attrs old

namespace Linked

variable {cols : ChunkColumns} {n i : Nat} {st : LoopState} {s : Batcher.Open Row}

theorem ids_ne_nil (h : Linked plan cols n i st s) : st.pending.ids ≠ [] ↔ s.items ≠ [] := by
  rw [h.holds.ids, Ne, List.map_eq_nil_iff]

/-- The run up to row `i` recorded, the columns cover everything that is open. -/
theorem covers (h : Linked plan cols n i st s) (hv : cols.Valid plan.envelope.attributes n) :
    Covers plan.envelope.attributes (st.pending.pushAttrRun cols.attrs st.runStart i).attrs
      s.items := by
  obtain ⟨old, hitems, hcover⟩ := h.runs
  rw [hitems]
  exact hcover.pushAttrRun hv _ _

/-- After a cut, a batch starts at row `i`. -/
theorem fresh (plan : Plan) (cols : ChunkColumns) (n i emitted k : Nat) :
    Linked plan cols n i
      ⟨.new plan.envelope.attributes.length plan.envelope.encoding, emitted, i, k⟩
      ⟨[], emitted⟩ where
  emitted := rfl
  holds := holds_new
  le := Nat.le_refl i
  runs := ⟨[], by rw [segment_self]; rfl, covers_new _⟩

theorem setBudget (h : Linked plan cols n i st s) (k : Nat) :
    Linked plan cols n i { st with rowsSinceBudgetCheck := k } s :=
  ⟨h.emitted, h.holds, h.le, h.runs⟩

/-- Row `i` decoded and appended. -/
theorem append (h : Linked plan cols n i st s) (hv : cols.Valid plan.envelope.attributes n)
    (hi : i < n) {builder : GeometryBuilder}
    (hpush : st.pending.builder.pushWkb (cols.rowAt i).bytes = (.ok (), builder)) :
    Linked plan cols n (i + 1)
      { st with pending :=
          st.pending.append builder (cols.rowAt i).id (attrRowBytes cols.attrs i) }
      ⟨s.items ++ [cols.rowAt i], s.emitted⟩ := by
  have hrow : (cols.rows n)[i]? = some (cols.rowAt i) := ChunkColumns.getElem?_rows hi
  have hshaped := hv.shaped (List.mem_of_getElem? hrow)
  obtain ⟨old, hitems, hcover⟩ := h.runs
  refine ⟨h.emitted, ?_, Nat.le_succ_of_le h.le, old, ?_, hcover⟩
  · rw [← ChunkColumns.rowAt_attrBytes]
    exact h.holds.append hshaped hpush
  · show s.items ++ [cols.rowAt i] = _
    rw [hitems, segment_succ h.le hrow, List.append_assoc]

end Linked

section

variable {cols : ChunkColumns} {n i : Nat} {st : LoopState} {s : Batcher.Open Row}

/-- Flushing what is open, for a cause and under a target. -/
theorem follows_cut {α : Type} (h : Linked plan cols n i st s)
    (hv : cols.Valid plan.envelope.attributes n) (hne : s.items ≠ []) (target : Nat)
    (cause : Batcher.Cause) {k : Pending → Producer α} {R : α → Batcher.Open Row → Prop}
    (hk : ∀ a, k (.new plan.envelope.attributes.length plan.envelope.encoding) = pure a →
      R a ⟨[], s.emitted + 1⟩)
    (hpure : ∃ a, k (.new plan.envelope.attributes.length plan.envelope.encoding) = pure a) :
    (watch plan).Follows
      (flush K plan (st.pending.pushAttrRun cols.attrs st.runStart i) st.emitted target
        (cutOf cause) >>= k)
      (· = Batcher.offerAll (refusals K plan) (Batcher.cut s target cause).1 >>= fun _ =>
        pure (Batcher.cut s target cause).2) R := by
  rw [h.emitted]
  have hflush := follows_flush (K := K) (b := ⟨s.items, s.emitted, target, cause⟩)
    (h.holds.pushAttrRun cols.attrs st.runStart i) (h.covers hv) hne
  refine (hflush.bind_eq (u := fun _ => pure ⟨[], s.emitted + 1⟩) (S := R) ?_).mono ?_
    fun _ _ h => h
  · rintro p' _ rfl
    obtain ⟨a, ha⟩ := hpure
    rw [ha]
    exact .pure (hk a ha)
  · rintro t rfl
    simp [Batcher.cut, Batcher.offerAll]

theorem follows_cutBefore (h : Linked plan cols n i st s)
    (hv : cols.Valid plan.envelope.attributes n) :
    (watch plan).Follows
      (cutBefore K plan cols i ((config plan).bound (cols.rowAt i)) (plan.policy.targetFor st.emitted)
        st)
      (· = Batcher.offerAll (refusals K plan) (Batcher.before (config plan) s (cols.rowAt i)).1 >>=
        fun _ => pure (Batcher.before (config plan) s (cols.rowAt i)).2)
      (Linked plan cols n i) := by
  have htarget : plan.policy.targetFor st.emitted = (config plan).target s.emitted := by
    rw [h.emitted]
    rfl
  rw [htarget]
  unfold cutBefore Batcher.before
  have hcond : (st.pending.ids ≠ [] ∧ (config plan).target s.emitted <
      st.pending.estBytes + (config plan).bound (cols.rowAt i)) ↔
      (s.items ≠ [] ∧ (config plan).target s.emitted <
        (config plan).load s.items + (config plan).bound (cols.rowAt i)) := by
    rw [h.ids_ne_nil, h.holds.estBytes]
  by_cases hcut : s.items ≠ [] ∧ (config plan).target s.emitted <
      (config plan).load s.items + (config plan).bound (cols.rowAt i)
  · rw [if_pos (hcond.2 hcut), if_pos hcut]
    refine follows_cut h hv hcut.1 _ .size ?_ ⟨_, rfl⟩
    intro a ha
    cases ha
    rw [h.emitted]
    exact .fresh plan cols n i _ 0
  · rw [if_neg fun hc => hcut (hcond.1 hc), if_neg hcut]
    exact .pure h

theorem follows_appendRow (h : Linked plan cols n i st s)
    (hv : cols.Valid plan.envelope.attributes n) (hi : i < n) :
    (watch plan).Follows (appendRow cols i (cols.rowAt i).id (cols.rowAt i).bytes st)
      (· = Trail.refuse ((refusals K plan).decode s.items (cols.rowAt i)) >>= fun _ =>
        pure ⟨s.items ++ [cols.rowAt i], s.emitted⟩)
      (fun st' s' => s' = ⟨s.items ++ [cols.rowAt i], s.emitted⟩ ∧
        Linked plan cols n (i + 1) st' s') := by
  unfold appendRow
  show (watch plan).Follows _
    (· = Trail.refuse (decodeRefusal plan.envelope.encoding s.items (cols.rowAt i)) >>= _) _
  unfold decodeRefusal
  rw [h.holds.builder]
  rcases hpush : (builderOf plan.envelope.encoding s.items).pushWkb (cols.rowAt i).bytes with
    ⟨e | ⟨⟩, builder⟩
  · exact .throw (.failed e)
  · rw [← h.holds.builder] at hpush
    exact .pure ⟨rfl, h.append hv hi hpush⟩

/-- The budget's site in the row loop is not seen; without a budget it never fires. -/
theorem follows_strideBudget (emitted k : Nat) :
    (watch plan).Follows (strideBudget plan emitted k)
      (fun t => ∃ early : Bool, (budgeted plan = false → early = false) ∧ t = pure early)
      (fun r early => r.1 = early) := by
  unfold strideBudget
  by_cases hb : budgeted plan = true ∧ emitted = 0
  · rw [if_pos hb]
    by_cases hk : BUDGET_CHECK_ROW_STRIDE ≤ k + 1
    · rw [if_pos hk]
      refine Watch.Follows.poll (W := watch plan) (q := Ask.budgetElapsed) ⟨_, false, fun _ => rfl, rfl⟩
        (fun _ => rfl) fun elapsed => .inr ?_
      refine Watch.Follows.mono (.pure (s := elapsed) rfl) ?_ fun _ _ h => h
      rintro t rfl
      exact ⟨elapsed, fun h => absurd hb.1 (by rw [h]; exact Bool.false_ne_true), rfl⟩
    · rw [if_neg hk]
      refine Watch.Follows.mono (.pure (s := false) rfl) ?_ fun _ _ h => h
      rintro t rfl
      exact ⟨false, fun _ => rfl, rfl⟩
  · rw [if_neg hb]
    refine Watch.Follows.mono (.pure (s := false) rfl) ?_ fun _ _ h => h
    rintro t rfl
    exact ⟨false, fun _ => rfl, rfl⟩

/-- The triggers of the loop and of the batcher are the same. -/
theorem cutReason_eq (estBytes rows target maxRows : Nat) (early : Bool) :
    cutReason estBytes rows target maxRows early =
      (Batcher.cause? estBytes rows target maxRows early).map cutOf := by
  unfold cutReason Batcher.cause?
  split_ifs <;> rfl

theorem follows_cutAfter (hv : cols.Valid plan.envelope.attributes n) {x : Row} (target : Nat)
    (early : Bool) (h : Linked plan cols n (i + 1) st ⟨s.items ++ [x], s.emitted⟩) :
    (watch plan).Follows (cutAfter K plan cols i target early st)
      (· = Batcher.offerAll (refusals K plan)
          (Batcher.after (config plan) target early s x).1 >>= fun _ =>
        pure (Batcher.after (config plan) target early s x).2)
      (Linked plan cols n (i + 1)) := by
  unfold cutAfter
  rw [cutReason_eq, h.holds.estBytes, h.holds.ids, List.length_map]
  simp only [Batcher.after]
  rw [show plan.policy.maxRows = (config plan).maxItems from rfl]
  cases Batcher.cause? ((config plan).load (s.items ++ [x])) (s.items ++ [x]).length target
      (config plan).maxItems early with
  | none => exact .pure h
  | some cause =>
    refine follows_cut h hv (by simp) target cause ?_ ⟨_, rfl⟩
    intro a ha
    cases ha
    rw [h.emitted]
    exact .fresh plan cols n (i + 1) _ 0

/-- What of a row follows its being appended: the budget's site and the cut behind it. -/
theorem follows_rowTail (hv : cols.Valid plan.envelope.attributes n) {x : Row} (target : Nat)
    (h : Linked plan cols n (i + 1) st ⟨s.items ++ [x], s.emitted⟩) :
    (watch plan).Follows
      (strideBudget plan st.emitted st.rowsSinceBudgetCheck >>= fun r =>
        cutAfter K plan cols i target r.1 { st with rowsSinceBudgetCheck := r.2 })
      (fun t => ∃ early : Bool, (budgeted plan = false → early = false) ∧
        t = Batcher.offerAll (refusals K plan)
            (Batcher.after (config plan) target early s x).1 >>= fun _ =>
          pure (Batcher.after (config plan) target early s x).2)
      (Linked plan cols n (i + 1)) := by
  have hcut : ∀ (r : Bool × Nat) (early : Bool), r.1 = early →
      (watch plan).Follows (cutAfter K plan cols i target r.1 { st with rowsSinceBudgetCheck := r.2 })
        (· = Batcher.offerAll (refusals K plan)
            (Batcher.after (config plan) target early s x).1 >>= fun _ =>
          pure (Batcher.after (config plan) target early s x).2) (Linked plan cols n (i + 1)) := by
    rintro r _ rfl
    exact follows_cutAfter hv target r.1 (h.setBudget r.2)
  refine ((follows_strideBudget _ _).bind hcut fun _ => ⟨_, rfl⟩).mono ?_ fun _ _ h => h
  rintro t ⟨_, u, ⟨early, hearly, rfl⟩, hu, rfl⟩
  exact ⟨early, hearly, by rw [pure_bind, hu]⟩

/-- A row that has been read, behind the cut in front of it. -/
theorem follows_rowRest (h : Linked plan cols n i st s)
    (hv : cols.Valid plan.envelope.attributes n) (hi : i < n) (target : Nat) :
    (watch plan).Follows
      (appendRow cols i (cols.rowAt i).id (cols.rowAt i).bytes st >>= fun st' =>
        strideBudget plan st'.emitted st'.rowsSinceBudgetCheck >>= fun r =>
          cutAfter K plan cols i target r.1 { st' with rowsSinceBudgetCheck := r.2 })
      (fun t => ∃ early : Bool, (budgeted plan = false → early = false) ∧
        t = Trail.refuse ((refusals K plan).decode s.items (cols.rowAt i)) >>= fun _ =>
          Batcher.offerAll (refusals K plan)
            (Batcher.after (config plan) target early s (cols.rowAt i)).1 >>= fun _ =>
          pure (Batcher.after (config plan) target early s (cols.rowAt i)).2)
      (Linked plan cols n (i + 1)) := by
  refine ((follows_appendRow (K := K) h hv hi).bind (S := Linked plan cols n (i + 1))
    (U := fun _ t => ∃ early : Bool, (budgeted plan = false → early = false) ∧
      t = Batcher.offerAll (refusals K plan)
          (Batcher.after (config plan) target early s (cols.rowAt i)).1 >>= fun _ =>
        pure (Batcher.after (config plan) target early s (cols.rowAt i)).2) ?_
    fun _ => ⟨_, false, fun _ => rfl, rfl⟩).mono ?_ fun _ _ h => h
  · rintro st' _ ⟨rfl, h'⟩
    exact follows_rowTail hv target h'
  · intro t ht
    obtain ⟨early, hearly, rfl⟩ := Watch.seq_eq ⟨false, fun _ => rfl⟩ ht
    exact ⟨early, hearly, by rw [bind_assoc]; rfl⟩

theorem binaryValue_eq (cols : ChunkColumns) (i : Nat) :
    (binaryValue K cols.geoms i = .ok (cols.rowAt i).bytes ∧
      (cols.rowAt i).readRefusal K = none) ∨
    ∃ e refusal, binaryValue K cols.geoms i = .error e ∧
      (cols.rowAt i).readRefusal K = some refusal ∧ Reports e refusal := by
  unfold binaryValue Row.readRefusal Row.bytes ChunkColumns.rowAt
  cases cols.geoms.cell i with
  | none => exact .inr ⟨_, _, rfl, rfl, .nullGeometry i⟩
  | some bytes =>
    cases cols.geoms.dataType
    case binary => exact .inl ⟨rfl, rfl⟩
    case largeBinary => exact .inl ⟨rfl, rfl⟩
    case binaryView => exact .inl ⟨rfl, rfl⟩
    all_goals exact .inr ⟨_, _, rfl, rfl, .failed _⟩

/-- **One row.** -/
theorem follows_rowStep (h : Linked plan cols n i st s)
    (hv : cols.Valid plan.envelope.attributes n) (hi : i < n) :
    (watch plan).Follows (rowStep K plan cols i (cols.rowAt i).id st)
      (Batcher.Fed (config plan) (refusals K plan) (budgeted plan) s [.push (cols.rowAt i) false])
      (Linked plan cols n (i + 1)) := by
  have hfed : ∀ early : Bool, (budgeted plan = false → early = false) →
      Batcher.Fed (config plan) (refusals K plan) (budgeted plan) s [.push (cols.rowAt i) false]
        (Batcher.feedPush (config plan) (refusals K plan) early s (cols.rowAt i)) := by
    intro early hearly
    refine ⟨[.push (cols.rowAt i) early], ⟨rfl, fun hb => by rw [hearly hb]; rfl⟩, ?_⟩
    exact (bind_pure _).symm
  refine follows_stop (Batcher.exists_fed _ _ _ _ _) ?_
  rcases binaryValue_eq (K := K) cols i with ⟨hvalue, hread⟩ | ⟨e, refusal, hvalue, hread, hrep⟩
  · rw [hvalue]
    refine .lift_ok ?_
    -- The target in force before the cut in front of the row stays in force behind it.
    have hbound : estimateBytes 1 ((cols.rowAt i).bytes.length / 16) + attrRowBytes cols.attrs i =
        (config plan).bound (cols.rowAt i) := by
      rw [← ChunkColumns.rowAt_attrBytes]
      rfl
    simp only [hbound]
    have htarget : (config plan).target s.emitted = plan.policy.targetFor st.emitted := by
      rw [h.emitted]
      rfl
    refine ((follows_cutBefore h hv).bind (S := Linked plan cols n (i + 1))
      (U := fun s' t => ∃ early : Bool, (budgeted plan = false → early = false) ∧
        t = Trail.refuse ((refusals K plan).decode s'.items (cols.rowAt i)) >>= fun _ =>
          Batcher.offerAll (refusals K plan) (Batcher.after (config plan)
            (plan.policy.targetFor st.emitted) early s' (cols.rowAt i)).1 >>= fun _ =>
          pure (Batcher.after (config plan) (plan.policy.targetFor st.emitted) early s'
            (cols.rowAt i)).2)
      (fun st' s' h' => follows_rowRest h' hv hi _) fun _ => ⟨_, false, fun _ => rfl, rfl⟩).mono ?_
      fun _ _ h => h
    intro t ht
    obtain ⟨early, hearly, rfl⟩ := Watch.seq_eq ⟨false, fun _ => rfl⟩ ht
    have hpush := hfed early hearly
    unfold Batcher.feedPush at hpush
    rw [show (refusals K plan).read (cols.rowAt i) = none from hread, htarget] at hpush
    rw [bind_assoc]
    exact hpush
  · rw [hvalue]
    refine Watch.Follows.mono (.lift_error hrep) ?_ fun _ _ h => h
    rintro t rfl
    have hstop := hfed false fun _ => rfl
    unfold Batcher.feedPush at hstop
    rw [show (refusals K plan).read (cols.rowAt i) = some refusal from hread] at hstop
    exact hstop

/-- **The rows of a chunk**, from one of them on. -/
theorem follows_rowLoop (hv : cols.Valid plan.envelope.attributes n) : ∀ (k : Nat) {i : Nat}
    {st : LoopState} {s : Batcher.Open Row}, i + k = n → Linked plan cols n i st s →
    (watch plan).Follows (rowLoop K plan cols i (cols.ids.drop i) st)
      (Batcher.Fed (config plan) (refusals K plan) (budgeted plan) s
        (Batcher.pushes ((cols.rows n).drop i)))
      (Linked plan cols n n) := by
  intro k
  induction k with
  | zero =>
    rintro i st s rfl h
    have hids : cols.ids.drop i = [] := List.drop_eq_nil_of_le (by rw [hv.ids]; exact Nat.le_refl _)
    have hrows : (cols.rows i).drop i = [] :=
      List.drop_eq_nil_of_le (by rw [ChunkColumns.length_rows])
    rw [Nat.add_zero] at *
    rw [hids, hrows]
    refine Watch.Follows.mono (.pure h) ?_ fun _ _ h => h
    rintro t rfl
    exact ⟨[], ⟨rfl, fun _ => rfl⟩, rfl⟩
  | succ k ih =>
    intro i st s hk h
    have hi : i < n := by omega
    have hids : cols.ids.drop i = (cols.rowAt i).id :: cols.ids.drop (i + 1) := by
      rw [List.drop_eq_getElem_cons (by rw [hv.ids]; exact hi)]
      show _ = cols.ids.getD i 0 :: _
      rw [List.getD_eq_getElem]
    have hrows : (cols.rows n).drop i = cols.rowAt i :: (cols.rows n).drop (i + 1) := by
      rw [List.drop_eq_getElem_cons (by rw [ChunkColumns.length_rows]; exact hi)]
      congr 1
      exact Option.some.inj ((List.getElem?_eq_getElem _).symm.trans
        (ChunkColumns.getElem?_rows hi))
    rw [hids, hrows]
    refine ((follows_rowStep (K := K) h hv hi).bind (fun st' s' h' => ih (by omega) h')
      fun _ => Batcher.exists_fed _ _ _ _ _).mono ?_ fun _ _ h => h
    intro t ht
    exact Batcher.fed_append _ _ ht

end

/-! ### The chunk loop -/

/-- **Between chunks**: the recorded runs cover all that is open. -/
structure Carried (plan : Plan) (st : LoopState) (s : Batcher.Open Row) : Prop where
  emitted : st.emitted = s.emitted
  holds : Holds plan st.pending s.items
  covers : Covers plan.envelope.attributes st.pending.attrs s.items

theorem carried_start (plan : Plan) : Carried plan
    ⟨.new plan.envelope.attributes.length plan.envelope.encoding, 0, 0, 0⟩ .start :=
  ⟨rfl, holds_new, covers_new _⟩

/-- In front of a chunk. -/
theorem Carried.linked {st : LoopState} {s : Batcher.Open Row} (h : Carried plan st s)
    (cols : ChunkColumns) (n : Nat) : Linked plan cols n 0 { st with runStart := 0 } s :=
  ⟨h.emitted, h.holds, Nat.le_refl 0, s.items, by rw [segment_self, List.append_nil], h.covers⟩

/-- Behind a chunk, its last run recorded. -/
theorem Linked.carried {cols : ChunkColumns} {n : Nat} {st : LoopState} {s : Batcher.Open Row}
    (h : Linked plan cols n n st s) (hv : cols.Valid plan.envelope.attributes n) :
    Carried plan { st with pending := st.pending.pushAttrRun cols.attrs st.runStart n } s :=
  ⟨h.emitted, h.holds.pushAttrRun _ _ _, h.covers hv⟩

/-- Flushing all that is open between chunks. -/
theorem follows_flushCarried {α σ : Type} {st : LoopState} {s : Batcher.Open Row}
    (h : Carried plan st s) (hne : s.items ≠ []) (cause : Batcher.Cause) {k : Pending → Producer α}
    {R : α → σ → Prop} {a : α} {c : σ}
    (hk : k (.new plan.envelope.attributes.length plan.envelope.encoding) = pure a) (hR : R a c) :
    (watch plan).Follows
      (flush K plan st.pending st.emitted (plan.policy.targetFor st.emitted) (cutOf cause) >>= k)
      (· = Batcher.offerAll (refusals K plan)
        (Batcher.cut s ((config plan).target s.emitted) cause).1 >>= fun _ => pure c) R := by
  rw [h.emitted]
  have hflush := follows_flush (K := K)
    (b := ⟨s.items, s.emitted, (config plan).target s.emitted, cause⟩) h.holds h.covers hne
  refine (hflush.bind_eq (u := fun _ => pure c) (S := R) ?_).mono ?_ fun _ _ h => h
  · rintro p' _ rfl
    rw [hk]
    exact .pure hR
  · rintro t rfl
    simp [Batcher.cut, Batcher.offerAll]

theorem follows_boundaryBudget {st : LoopState} {s : Batcher.Open Row} (h : Carried plan st s)
    (firstRowAt : Bool) :
    (watch plan).Follows (boundaryBudget K plan firstRowAt st)
      (Batcher.Fed (config plan) (refusals K plan) (budgeted plan) s [.boundary false])
      (Carried plan) := by
  have hfed : ∀ early : Bool, (budgeted plan = false → early = false) →
      Batcher.Fed (config plan) (refusals K plan) (budgeted plan) s [.boundary false]
        (Batcher.offerAll (refusals K plan) (Batcher.boundary (config plan) early s).1 >>= fun _ =>
          pure (Batcher.boundary (config plan) early s).2) := by
    intro early hearly
    refine ⟨[.boundary early], ⟨rfl, fun hb => by rw [hearly hb]; rfl⟩, ?_⟩
    exact (bind_pure _).symm
  have hlate : (watch plan).Follows (pure st)
      (Batcher.Fed (config plan) (refusals K plan) (budgeted plan) s [.boundary false])
      (Carried plan) := by
    refine Watch.Follows.mono (.pure h) ?_ fun _ _ h => h
    rintro t rfl
    exact hfed false fun _ => rfl
  unfold boundaryBudget
  by_cases hb : budgeted plan = true ∧ st.emitted = 0 ∧ st.pending.ids ≠ []
  · rw [if_pos hb]
    have hopen : s.emitted = 0 ∧ s.items ≠ [] := by
      obtain ⟨-, hzero, hids⟩ := hb
      rw [h.holds.ids, Ne, List.map_eq_nil_iff] at hids
      exact ⟨h.emitted ▸ hzero, hids⟩
    cases firstRowAt with
    | false => exact hlate
    | true =>
      refine Watch.Follows.poll (W := watch plan) (q := Ask.budgetElapsed)
        (Batcher.exists_fed _ _ _ _ _) (fun _ => rfl) fun expired => .inr ?_
      cases expired with
      | false => exact hlate
      | true =>
        refine Watch.Follows.mono (follows_flushCarried (K := K) h hopen.2 .early rfl
          (c := (⟨[], s.emitted + 1⟩ : Batcher.Open Row)) ?_) ?_ fun _ _ h => h
        · rw [h.emitted]
          exact ⟨rfl, holds_new, covers_new _⟩
        · rintro t rfl
          have hearly := hfed true fun hno => by rw [hb.1] at hno; cases hno
          rwa [Batcher.boundary, if_pos ⟨rfl, hopen⟩] at hearly
  · rw [if_neg hb]
    exact hlate

/-- **One chunk.** -/
theorem follows_chunkStep {st : LoopState} {s : Batcher.Open Row} (h : Carried plan st s)
    (firstRowAt : Bool) {chunk : RecordBatch} {cols : ChunkColumns}
    (hread : readChunk K plan chunk = .ok cols) :
    (watch plan).Follows (chunkStep K plan firstRowAt chunk st)
      (Batcher.Fed (config plan) (refusals K plan) (budgeted plan) s
        (Batcher.pushes (cols.rows chunk.numRows) ++ [.boundary false]))
      (Carried plan) := by
  have hv := readChunk_valid hread
  unfold chunkStep
  rw [hread]
  refine .lift_ok ?_
  have htake : cols.ids.take chunk.numRows = cols.ids.drop 0 := by
    rw [List.drop_zero, List.take_of_length_le (by rw [hv.ids])]
  rw [htake]
  have hloop := follows_rowLoop (K := K) hv chunk.numRows (Nat.zero_add _)
    (h.linked cols chunk.numRows)
  rw [List.drop_zero] at hloop
  refine (hloop.bind (fun st' s' h' => follows_boundaryBudget (K := K) (h'.carried hv) firstRowAt)
    fun _ => Batcher.exists_fed _ _ _ _ _).mono ?_ fun _ _ h => h
  intro t ht
  exact Batcher.fed_append _ _ ht

variable (K plan)

/-- What the batcher is given for a list of chunks, and how that ends: with a chunk that cannot be
read, with a fetch that panics, or well. -/
def script (ending : Ending) : List RecordBatch →
    List (Batcher.Op Row) × Except Refusal Unit
  | [] => ([], match ending with
    | .drained => .ok ()
    | .panicked payload =>
      .error (.failed (queryFailure "duckdb fetch panicked" (fetchPanicText payload))))
  | chunk :: chunks =>
    match readRows K plan chunk with
    | .error e => ([], .error (.failed e))
    | .ok rows => (Batcher.pushes rows ++ [.boundary false] ++ (script ending chunks).1,
        (script ending chunks).2)

/-- Going on, or not, where a script ends. -/
def endWith (r : Except Refusal Unit) (s : Batcher.Open Row) :
    Trail (Batcher.Mark (Batcher.Batch Row)) Refusal (Batcher.Open Row) :=
  match r with
  | .ok () => pure s
  | .error e => .stop e

/-- The trails of a script. -/
def Scripted (s : Batcher.Open Row) (sc : List (Batcher.Op Row) × Except Refusal Unit)
    (t : Trail (Batcher.Mark (Batcher.Batch Row)) Refusal (Batcher.Open Row)) : Prop :=
  ∃ t₀, Batcher.Fed (config plan) (refusals K plan) (budgeted plan) s sc.1 t₀ ∧
    t = t₀ >>= endWith sc.2

theorem exists_scripted (s : Batcher.Open Row)
    (sc : List (Batcher.Op Row) × Except Refusal Unit) : ∃ t, Scripted K plan s sc t := by
  obtain ⟨t, ht⟩ := Batcher.exists_fed (config plan) (refusals K plan) (budgeted plan) s sc.1
  exact ⟨_, t, ht, rfl⟩

theorem scripted_nil (s : Batcher.Open Row) (r : Except Refusal Unit) :
    Scripted K plan s ([], r) (endWith r s) :=
  ⟨pure s, ⟨[], ⟨rfl, fun _ => rfl⟩, rfl⟩, (pure_bind _ _).symm⟩

variable {K plan}

/-- **The chunks of a source.** -/
theorem follows_chunkLoop (ending : Ending) : ∀ (chunks : List RecordBatch) (firstRowAt : Bool)
    {st : LoopState} {s : Batcher.Open Row}, Carried plan st s →
    (watch plan).Follows (chunkLoop K plan ending firstRowAt chunks st)
      (Scripted K plan s (script K plan ending chunks)) (Carried plan) := by
  intro chunks
  induction chunks with
  | nil =>
    intro firstRowAt st s h
    refine follows_stop (exists_scripted _ _ _ _) ?_
    cases ending with
    | drained =>
      refine Watch.Follows.mono (.pure h) ?_ fun _ _ h => h
      rintro t rfl
      exact scripted_nil K plan s _
    | panicked payload =>
      refine Watch.Follows.poll (W := watch plan) (q := Ask.isCancelled)
        (exists_scripted _ _ _ _) (fun _ => rfl) fun cancelled => ?_
      cases cancelled with
      | true => exact .inl ⟨rfl, Bool.true_eq_false.mp⟩
      | false =>
        refine .inr (Watch.Follows.mono (.throw (.failed _)) ?_ fun _ _ h => h)
        rintro t rfl
        exact scripted_nil K plan s _
  | cons chunk chunks ih =>
    intro firstRowAt st s h
    refine follows_stop (exists_scripted _ _ _ _) ?_
    cases hread : readChunk K plan chunk with
    | error e =>
      have hrows : readRows K plan chunk = .error e := by rw [readRows, hread]; rfl
      have hscript : script K plan ending (chunk :: chunks) = ([], .error (.failed e)) := by
        rw [script, hrows]
      rw [hscript]
      unfold chunkStep
      rw [hread]
      refine Watch.Follows.mono (.lift_error (.failed e)) ?_ fun _ _ h => h
      rintro t rfl
      exact scripted_nil K plan s _
    | ok cols =>
      have hrows : readRows K plan chunk = .ok (cols.rows chunk.numRows) := by
        rw [readRows, hread]
        rfl
      have hscript : script K plan ending (chunk :: chunks) =
          (Batcher.pushes (cols.rows chunk.numRows) ++ [.boundary false] ++
            (script K plan ending chunks).1, (script K plan ending chunks).2) := by
        rw [script, hrows]
      rw [hscript]
      refine ((follows_chunkStep h _ hread).bind (fun st' s' h' => ih _ h')
        fun _ => exists_scripted _ _ _ _).mono ?_ fun _ _ h => h
      intro t ht
      exact Batcher.fed_seq _ _ ht

/-! ### The whole producer -/

variable (K plan)

/-- The trails of a source: its script, then the last batch. -/
def Streamed (source : Source)
    (t : Trail (Batcher.Mark (Batcher.Batch Row)) Refusal (Batcher.Open Row)) : Prop :=
  ∃ t₀, Scripted K plan .start (script K plan source.ending source.chunks) t₀ ∧
    t = t₀ >>= fun s => Batcher.feedStep (config plan) (refusals K plan) s .finish

/-- **What the producer does once its query runs is what the batcher does.** -/
theorem follows_drain (source : Source) :
    (watch plan).Follows (drain K plan source) (Streamed K plan source) fun _ _ => True := by
  refine ((follows_chunkLoop source.ending source.chunks false (carried_start plan)).bind
    (S := fun _ _ => True)
    (U := fun s t => t = Batcher.feedStep (config plan) (refusals K plan) s .finish)
    ?_ fun _ => ⟨_, rfl⟩).mono ?_ fun _ _ h => h
  · intro st s h
    have hids : st.pending.ids ≠ [] ↔ s.items ≠ [] := by
      rw [h.holds.ids, Ne, List.map_eq_nil_iff]
    show (watch plan).Follows _ (fun t => t = Batcher.offerAll (refusals K plan)
      (Batcher.finish (config plan) s).1 >>= fun _ => pure (Batcher.finish (config plan) s).2) _
    unfold Batcher.finish
    by_cases hne : s.items ≠ []
    · rw [if_pos (hids.2 hne), if_pos hne]
      exact follows_flushCarried h hne .end_ rfl trivial
    · rw [if_neg fun hc => hne (hids.1 hc), if_neg hne]
      exact .pure trivial
  · rintro t ⟨t₁, u, ht₁, hu, rfl⟩
    exact ⟨t₁, ht₁, by rw [funext hu]⟩

variable {K plan}

/-- A poll of the cancellation flag, run on its own. -/
theorem runs_stopIfCancelled {tr : List (Event Ask.Answer)} {r : Except EngineError Unit} :
    stopIfCancelled.Runs tr r ↔
      (tr = [⟨.isCancelled, true⟩] ∧ r = .error .cancelled) ∨
        (tr = [⟨.isCancelled, false⟩] ∧ r = .ok ()) := by
  unfold stopIfCancelled ask
  rw [Prog.runs_query_bind]
  constructor
  · rintro ⟨cancelled, tr', rfl, h⟩
    cases cancelled with
    | true => exact .inl (by simpa using h)
    | false => exact .inr (by simpa using h)
  · rintro (⟨rfl, rfl⟩ | ⟨rfl, rfl⟩)
    · exact ⟨true, [], rfl, .throw _⟩
    · exact ⟨false, [], rfl, .ret _⟩

/-- A failure of DuckDB is reported as a cancellation or as its own text. -/
theorem runs_classify {α : Type} {phase message : String} {tr : List (Event Ask.Answer)}
    {r : Except EngineError α} (h : (classify phase message).Runs tr r) :
    ∃ cancelled e, tr = [⟨.isCancelled, cancelled⟩] ∧ r = .error e ∧
      (e = .cancelled ∨ ∃ detail, e = .query detail) := by
  unfold classify ask at h
  obtain ⟨cancelled, tr', rfl, hthrow⟩ := Prog.runs_query_bind.1 h
  cases cancelled with
  | true =>
    obtain ⟨rfl, rfl⟩ := Prog.runs_throw.1 hthrow
    exact ⟨true, _, rfl, rfl, .inl rfl⟩
  | false =>
    obtain ⟨rfl, rfl⟩ := Prog.runs_throw.1 hthrow
    refine ⟨false, _, rfl, rfl, .inr ?_⟩
    unfold queryFailure
    split_ifs <;> exact ⟨_, rfl⟩

/-- How a run of `produce` that never drains its query ends. -/
structure Unopened (tr : List (Event Ask.Answer)) (r : Except EngineError Unit) : Prop where
  hidden : tr.filterMap view = []
  disturbed : ∃ e ∈ tr, ¬calm e
  failed : ∃ e, r = .error e ∧ (e = .cancelled ∨ ∃ detail, e = .query detail)

theorem runs_executeGuarded {tr : List (Event Ask.Answer)} {r : Except EngineError Unit}
    (h : executeGuarded.Runs tr r) :
    Unopened tr r ∨ (r = .ok () ∧ tr.filterMap view = []) := by
  unfold executeGuarded at h
  rcases Prog.runs_bind.1 h with ⟨e, rfl, hstop⟩ | ⟨_, t₁, t₂, rfl, hstop, hrest⟩
  · rcases runs_stopIfCancelled.1 hstop with ⟨rfl, he⟩ | ⟨rfl, he⟩
    · cases he
      exact .inl ⟨rfl, ⟨_, List.mem_singleton.2 rfl, Bool.true_eq_false.mp⟩, _, rfl, .inl rfl⟩
    · cases he
  · rcases runs_stopIfCancelled.1 hstop with ⟨rfl, he⟩ | ⟨rfl, -⟩
    · cases he
    · obtain ⟨result, t₃, rfl, hafter⟩ := Prog.runs_query_bind.1 hrest
      cases result with
      | error text =>
        obtain ⟨cancelled, e, rfl, rfl, he⟩ := runs_classify hafter
        refine .inl ⟨rfl, ⟨⟨.execute, .error text⟩, by simp, ?_⟩, e, rfl, he⟩
        intro hc
        cases hc
      | ok u =>
        rcases runs_stopIfCancelled.1 hafter with ⟨rfl, rfl⟩ | ⟨rfl, rfl⟩
        · exact .inl ⟨rfl, ⟨⟨.isCancelled, true⟩, by simp, Bool.true_eq_false.mp⟩, _, rfl, .inl rfl⟩
        · exact .inr ⟨rfl, rfl⟩

/-- **The runs of `produce`**: the query never ran, or what was seen is what draining it shows. -/
theorem runs_produce {source : Source} {tr : List (Event Ask.Answer)} {r : Except EngineError Unit}
    (h : (produce K plan source).Runs tr r) :
    Unopened tr r ∨ ∃ t₁ t₂, tr = t₁ ++ t₂ ∧ t₁.filterMap view = [] ∧
      (drain K plan source).Runs t₂ r := by
  unfold produce at h
  rcases Prog.runs_bind.1 h with ⟨e, rfl, hstop⟩ | ⟨_, t₁, t₂, rfl, hstop, hrest⟩
  · rcases runs_stopIfCancelled.1 hstop with ⟨rfl, he⟩ | ⟨rfl, he⟩
    · cases he
      exact .inl ⟨rfl, ⟨_, List.mem_singleton.2 rfl, Bool.true_eq_false.mp⟩, _, rfl, .inl rfl⟩
    · cases he
  · rcases runs_stopIfCancelled.1 hstop with ⟨rfl, he⟩ | ⟨rfl, -⟩
    · cases he
    · obtain ⟨prepared, t₃, rfl, hafter⟩ := Prog.runs_query_bind.1 hrest
      cases prepared with
      | error text =>
        obtain ⟨cancelled, e, rfl, rfl, he⟩ := runs_classify hafter
        refine .inl ⟨rfl, ⟨⟨.prepare, .error text⟩, by simp, ?_⟩, e, rfl, he⟩
        intro hc
        cases hc
      | ok u =>
        rcases Prog.runs_bind.1 hafter with ⟨e, rfl, hexec⟩ | ⟨_, t₄, t₅, rfl, hexec, hdrain⟩
        · rcases runs_executeGuarded hexec with ⟨hidden, ⟨ev, hev, hnot⟩, failed⟩ | ⟨he, -⟩
          · refine .inl ⟨?_, ⟨ev, ?_, hnot⟩, failed⟩
            · exact hidden
            · exact List.mem_append_right _ (List.mem_cons_of_mem _ hev)
          · cases he
        · rcases runs_executeGuarded hexec with ⟨-, -, e, he, -⟩ | ⟨-, hidden⟩
          · cases he
          · refine .inr ⟨[⟨.isCancelled, false⟩, ⟨.prepare, .ok u⟩] ++ t₄, t₅, ?_, hidden, hdrain⟩
            simp

end SpatialIde.Engine.Stream
