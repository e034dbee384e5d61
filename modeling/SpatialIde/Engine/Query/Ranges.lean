import SpatialIde.Engine.Query

/-! # The ids of a statement as ranges

`compressToRanges` scans sorted ids for runs and gives up once it has too many.  The successor of
the last id is computed before it is compared, so a repeated greatest word ends the scan, if it is
still going there (`Overflows`).
-/

namespace SpatialIde.Engine.Checked

open Lib

/-- Where a checked build panics. -/
inductive Overflow where
  | attemptToAdd
  deriving DecidableEq, Repr

/-- `u64::MAX`. -/
def U64_MAX : UInt64 := UInt64.ofNat (2 ^ 64 - 1)

/-- `hi + 1`. -/
def addOne (hi : UInt64) : Except Overflow UInt64 :=
  if hi = U64_MAX then .error .attemptToAdd else .ok (hi + 1)

/-- A range is done: `none` where there are too many. -/
def pushRange (maxRanges : Nat) (out : List (UInt64 × UInt64)) (r : UInt64 × UInt64) :
    Option (List (UInt64 × UInt64)) :=
  if maxRanges < (out ++ [r]).length then none else some (out ++ [r])

/-- The ids behind `hi`. -/
def compressLoop (maxRanges : Nat) : List UInt64 → UInt64 → UInt64 → List (UInt64 × UInt64) →
    Except Overflow (Option (List (UInt64 × UInt64)))
  | [], lo, hi, out => .ok (pushRange maxRanges out (lo, hi))
  | id :: ids, lo, hi, out =>
    match addOne hi with
    | .error e => .error e
    | .ok next =>
      if id = next then compressLoop maxRanges ids lo id out
      else
        match pushRange maxRanges out (lo, hi) with
        | none => .ok none
        | some out => compressLoop maxRanges ids id id out

def compressToRanges (sortedIds : List UInt64) (maxRanges : Nat) :
    Except Overflow (Option (List (UInt64 × UInt64))) :=
  match sortedIds with
  | [] => .ok (some [])
  | id :: ids => compressLoop maxRanges ids id id []

theorem foldlM_of_compressLoop {maxRanges : Nat} {ids : List UInt64} {lo hi : UInt64}
    {out : List (UInt64 × UInt64)} {r : Option (List (UInt64 × UInt64))}
    (h : compressLoop maxRanges ids lo hi out = .ok r) :
    ((ids.foldlM (Compressing.step maxRanges) ⟨out, lo, hi⟩).bind fun st =>
      pushRange maxRanges st.out (st.lo, st.hi)) = r := by
  induction ids generalizing lo hi out with
  | nil => exact Except.ok.inj h
  | cons id ids ih =>
    rw [compressLoop, addOne] at h
    by_cases hmax : hi = U64_MAX
    · simp [hmax] at h
    · simp only [hmax, if_false] at h
      rw [List.foldlM_cons, Compressing.step]
      by_cases hnext : id = hi + 1
      · rw [if_pos hnext] at h ⊢
        exact ih h
      · rw [if_neg hnext] at h ⊢
        by_cases hroom : maxRanges < (out ++ [(lo, hi)]).length
        · simp only [pushRange, hroom, if_true] at h
          simp only [gt_iff_lt, hroom, if_true]
          exact Except.ok.inj h
        · simp only [pushRange, hroom, if_false] at h
          simp only [gt_iff_lt, hroom, if_false]
          exact ih h

/-- Where nothing overflows, the ranges are the ones a statement holds. -/
theorem compressToRanges_of_ok {ids : List UInt64} {maxRanges : Nat}
    {r : Option (List (UInt64 × UInt64))} (h : compressToRanges ids maxRanges = .ok r) :
    Engine.compressToRanges ids maxRanges = r := by
  cases ids with
  | nil => exact Except.ok.inj h
  | cons id ids => exact foldlM_of_compressLoop h

/-- How often an id is not the successor of the one in front. -/
def gaps : List UInt64 → Nat
  | a :: b :: ids => (if b.toNat = a.toNat + 1 then 0 else 1) + gaps (b :: ids)
  | _ => 0

/-- An id that begins a run of consecutive values. -/
def BeginsRun (ids : List UInt64) (x : UInt64) : Prop := ∀ y ∈ ids, y.toNat + 1 ≠ x.toNat

instance (ids : List UInt64) (x : UInt64) : Decidable (BeginsRun ids x) :=
  inferInstanceAs (Decidable (∀ y ∈ ids, y.toNat + 1 ≠ x.toNat))

/-- The number of maximal runs of consecutive values. -/
def runs (ids : List UInt64) : Nat := ids.countP fun x => BeginsRun ids x

/-- What is asked of the ranges of some ids. -/
structure Compressed (ids : List UInt64) (maxRanges : Nat)
    (result : Option (List (UInt64 × UInt64))) : Prop where
  within : ∀ r, result = some r → r.length ≤ maxRanges
  covers : ∀ r, result = some r → ∀ x, Intervals.Covers r x ↔ x ∈ ids
  refused : ids.Pairwise (· < ·) → (result = none ↔ maxRanges < runs ids)

/-- The greatest word comes twice, and the scan has not given up in front of the second. -/
def Overflows (ids : List UInt64) (maxRanges : Nat) : Prop :=
  ∃ pre post, ids = pre ++ U64_MAX :: U64_MAX :: post ∧ U64_MAX ∉ pre ∧
    gaps (pre ++ [U64_MAX]) ≤ maxRanges

/-! ### The words -/

theorem toNat_le_U64_MAX (a : UInt64) : a.toNat ≤ U64_MAX.toNat := Nat.le_of_lt_succ a.toNat_lt

theorem addOne_eq_ok {hi next : UInt64} (h : addOne hi = .ok next) :
    hi ≠ U64_MAX ∧ next.toNat = hi.toNat + 1 := by
  rw [addOne] at h
  split_ifs at h with hmax
  cases h
  refine ⟨hmax, ?_⟩
  have hne : hi.toNat ≠ U64_MAX.toNat := fun heq => hmax (UInt64.toNat_inj.1 heq)
  have hle := toNat_le_U64_MAX hi
  have hval : U64_MAX.toNat = 2 ^ 64 - 1 := rfl
  rw [UInt64.toNat_add, show (1 : UInt64).toNat = 1 from rfl, Nat.mod_eq_of_lt]
  omega

/-- An id is the successor that was computed if its value is. -/
theorem eq_next_iff {hi next id : UInt64} (h : addOne hi = .ok next) :
    id = next ↔ id.toNat = hi.toNat + 1 := by
  rw [← (addOne_eq_ok h).2, UInt64.toNat_inj]

/-! ### Gaps and runs -/

theorem gaps_cons_cons (a b : UInt64) (ids : List UInt64) :
    gaps (a :: b :: ids) = (if b.toNat = a.toNat + 1 then 0 else 1) + gaps (b :: ids) := rfl

/-- A run begins at the first id and behind each gap. -/
theorem runs_cons {a : UInt64} {ids : List UInt64} (h : (a :: ids).Pairwise (· < ·)) :
    runs (a :: ids) = gaps (a :: ids) + 1 := by
  induction ids generalizing a with
  | nil =>
    have hself : BeginsRun [a] a := by
      intro y hy
      rw [List.mem_singleton.1 hy]
      omega
    rw [runs, List.countP_cons, List.countP_nil, if_pos (decide_eq_true hself)]
    rfl
  | cons b ids ih =>
    obtain ⟨ha, hrest⟩ := List.pairwise_cons.1 h
    have hb := (List.pairwise_cons.1 hrest).1
    have hab : a.toNat < b.toNat := ha b List.mem_cons_self
    -- Nothing is in front of the first.
    have hfirst : ∀ {c : UInt64} {cs : List UInt64}, (∀ d ∈ cs, c < d) → BeginsRun (c :: cs) c := by
      intro c cs hc y hy
      rcases List.mem_cons.1 hy with hy | hy
      · rw [hy]
        omega
      · have hlt : c.toNat < y.toNat := hc y hy
        omega
    have hsecond : BeginsRun (a :: b :: ids) b ↔ b.toNat ≠ a.toNat + 1 := by
      constructor
      · intro hbegins heq
        exact hbegins a List.mem_cons_self heq.symm
      · intro hne y hy
        rcases List.mem_cons.1 hy with hy | hy
        · rw [hy]
          exact fun heq => hne heq.symm
        · exact hfirst hb y hy
    have hlater : ids.countP (fun x => BeginsRun (a :: b :: ids) x) =
        ids.countP fun x => BeginsRun (b :: ids) x := by
      refine List.countP_congr ?_
      intro x hx
      rw [decide_eq_true_eq, decide_eq_true_eq]
      have hbx : b.toNat < x.toNat := hb x hx
      constructor
      · exact fun hbegins y hy => hbegins y (List.mem_cons_of_mem a hy)
      · intro hbegins y hy
        rcases List.mem_cons.1 hy with hy | hy
        · rw [hy]
          omega
        · exact hbegins y hy
    have hih := ih hrest
    rw [runs, List.countP_cons, if_pos (decide_eq_true (hfirst hb))] at hih
    rw [runs, List.countP_cons, List.countP_cons, hlater, if_pos (decide_eq_true (hfirst ha)),
      gaps_cons_cons]
    by_cases hgap : b.toNat = a.toNat + 1
    · rw [if_pos hgap, if_neg fun hd => (hsecond.1 (of_decide_eq_true hd)) hgap]
      omega
    · rw [if_neg hgap, if_pos (decide_eq_true (hsecond.2 hgap))]
      omega

/-! ### The loop -/

variable {maxRanges : Nat} {ids : List UInt64} {lo hi : UInt64} {out : List (UInt64 × UInt64)}

theorem pushRange_of_le {r : UInt64 × UInt64} (h : out.length + 1 ≤ maxRanges) :
    pushRange maxRanges out r = some (out ++ [r]) :=
  if_neg (by rw [List.length_append, List.length_singleton]; omega)

theorem pushRange_of_lt {r : UInt64 × UInt64} (h : maxRanges < out.length + 1) :
    pushRange maxRanges out r = none :=
  if_pos (by rw [List.length_append, List.length_singleton]; exact h)

/-- The scan reaches a greatest word that is not the last. -/
theorem compressLoop_overflows {pre post : List UInt64} {next : UInt64}
    (hids : hi :: ids = pre ++ U64_MAX :: next :: post)
    (hroom : out.length + gaps (pre ++ [U64_MAX]) ≤ maxRanges) (hpre : U64_MAX ∉ pre) :
    compressLoop maxRanges ids lo hi out = .error .attemptToAdd := by
  induction ids generalizing lo hi out pre with
  | nil =>
    have hlen := congrArg List.length hids
    rw [List.length_append, List.length_cons, List.length_nil, List.length_cons, List.length_cons] at hlen
    omega
  | cons id ids ih =>
    cases pre with
    | nil =>
      rw [List.nil_append, List.cons.injEq] at hids
      rw [compressLoop, hids.1, addOne, if_pos rfl]
    | cons p pre =>
      rw [List.cons_append, List.cons.injEq] at hids
      obtain ⟨hp, hids⟩ := hids
      have hne : hi ≠ U64_MAX := fun heq => hpre (by rw [← hp, heq]; exact List.mem_cons_self)
      have hpre' : U64_MAX ∉ pre := fun hmem => hpre (List.mem_cons_of_mem p hmem)
      have hnext : addOne hi = .ok (hi + 1) := if_neg hne
      -- The gap in front of the next id counts.
      have hgaps : gaps (p :: pre ++ [U64_MAX]) =
          (if id.toNat = hi.toNat + 1 then 0 else 1) + gaps (pre ++ [U64_MAX]) := by
        obtain ⟨tail, htail⟩ : ∃ tail, pre ++ [U64_MAX] = id :: tail := by
          cases pre with
          | nil =>
            rw [List.nil_append, List.cons.injEq] at hids
            exact ⟨[], by rw [hids.1]; rfl⟩
          | cons q pre =>
            rw [List.cons_append, List.cons.injEq] at hids
            exact ⟨pre ++ [U64_MAX], by rw [hids.1]; rfl⟩
        rw [List.cons_append, htail, gaps_cons_cons, hp]
      rw [hgaps] at hroom
      rw [compressLoop, hnext]
      dsimp only
      by_cases hid : id.toNat = hi.toNat + 1
      · rw [if_pos hid, Nat.zero_add] at hroom
        rw [if_pos ((eq_next_iff hnext).2 hid)]
        exact ih hids hroom hpre'
      · rw [if_neg hid] at hroom
        rw [if_neg fun heq => hid ((eq_next_iff hnext).1 heq), pushRange_of_le (by omega)]
        refine ih hids ?_ hpre'
        rw [List.length_append, List.length_singleton]
        omega

/-- What the loop returns, of the ranges that are done, the range that is not and the ids left. -/
structure Scanned (ids : List UInt64) (lo hi : UInt64) (out : List (UInt64 × UInt64))
    (maxRanges : Nat) (result : Option (List (UInt64 × UInt64))) : Prop where
  within : ∀ r, result = some r → r.length ≤ maxRanges
  covers : ∀ r, result = some r → ∀ x, Intervals.Covers r x ↔
    Intervals.Covers out x ∨ (lo ≤ x ∧ x ≤ hi) ∨ x ∈ ids
  refused : result = none ↔ maxRanges < out.length + (gaps (hi :: ids) + 1)

theorem scanned_push {r : UInt64 × UInt64} :
    Scanned [] r.1 r.2 out maxRanges (pushRange maxRanges out r) := by
  have hgaps : gaps [r.2] = 0 := rfl
  by_cases hroom : maxRanges < out.length + 1
  · rw [pushRange_of_lt hroom]
    refine ⟨nofun, nofun, ?_⟩
    rw [hgaps]
    exact ⟨fun _ => hroom, fun _ => rfl⟩
  · have hle : out.length + 1 ≤ maxRanges := Nat.le_of_not_lt hroom
    rw [pushRange_of_le hle]
    refine ⟨?_, ?_, ?_⟩
    · intro r' hr'
      cases hr'
      rw [List.length_append, List.length_singleton]
      exact hle
    · intro r' hr' x
      cases hr'
      rw [Intervals.covers_append, Intervals.covers_cons]
      refine or_congr_right ?_
      rw [or_iff_left (Intervals.covers_nil x), or_iff_left List.not_mem_nil]
    · rw [hgaps]
      exact ⟨nofun, fun hlt => absurd hlt hroom⟩

/-- The next id belongs to the range, or the range is done. -/
theorem compressLoop_scanned (hids : (hi :: ids).Pairwise (· ≤ ·)) (hlo : lo ≤ hi)
    (hout : out.length ≤ maxRanges)
    (hover : ¬∃ pre next post, hi :: ids = pre ++ U64_MAX :: next :: post ∧ U64_MAX ∉ pre ∧
      out.length + gaps (pre ++ [U64_MAX]) ≤ maxRanges) :
    ∃ result, compressLoop maxRanges ids lo hi out = .ok result ∧
      Scanned ids lo hi out maxRanges result := by
  induction ids generalizing lo hi out with
  | nil => exact ⟨_, rfl, scanned_push (r := (lo, hi))⟩
  | cons id ids ih =>
    obtain ⟨hhi, hrest⟩ := List.pairwise_cons.1 hids
    have hle : hi.toNat ≤ id.toNat := hhi id List.mem_cons_self
    have hmax : hi ≠ U64_MAX := by
      intro hmax
      refine hover ⟨[], id, ids, by rw [hmax]; rfl, List.not_mem_nil, ?_⟩
      exact hout
    have hnext : addOne hi = .ok (hi + 1) := if_neg hmax
    have hgaps := gaps_cons_cons hi id ids
    -- What overflows behind the next id overflows from here.
    have hlater : ∀ {out' : List (UInt64 × UInt64)}, out'.length =
        out.length + (if id.toNat = hi.toNat + 1 then 0 else 1) →
        ¬∃ pre next post, id :: ids = pre ++ U64_MAX :: next :: post ∧ U64_MAX ∉ pre ∧
          out'.length + gaps (pre ++ [U64_MAX]) ≤ maxRanges := by
      intro out' hlen h
      obtain ⟨pre, next, post, hsplit, hpre, hroom⟩ := h
      obtain ⟨rest, hcons⟩ : ∃ rest, pre ++ [U64_MAX] = id :: rest := by
        cases pre with
        | nil =>
          rw [List.nil_append, List.cons.injEq] at hsplit
          exact ⟨[], by rw [hsplit.1]; rfl⟩
        | cons q pre =>
          rw [List.cons_append, List.cons.injEq] at hsplit
          exact ⟨pre ++ [U64_MAX], by rw [hsplit.1]; rfl⟩
      refine hover ⟨hi :: pre, next, post, by rw [hsplit]; rfl, ?_, ?_⟩
      · intro hmem
        rcases List.mem_cons.1 hmem with hmem | hmem
        · exact hmax hmem.symm
        · exact hpre hmem
      · rw [List.cons_append, hcons, gaps_cons_cons]
        rw [hcons, hlen] at hroom
        omega
    rw [compressLoop, hnext]
    dsimp only
    by_cases hid : id.toNat = hi.toNat + 1
    · rw [if_pos ((eq_next_iff hnext).2 hid)]
      rw [if_pos hid] at hgaps hlater
      obtain ⟨result, hresult, hscanned⟩ := ih hrest
        (show lo.toNat ≤ id.toNat from Nat.le_trans hlo hle) hout (hlater rfl)
      refine ⟨result, hresult, hscanned.within, ?_, ?_⟩
      · intro r hr x
        rw [hscanned.covers r hr, List.mem_cons, ← or_assoc (a := lo ≤ x ∧ x ≤ hi)]
        refine or_congr_right (or_congr_left ?_)
        -- A word up to the successor is the successor or up to the word.
        have hx : x = id ↔ x.toNat = id.toNat := UInt64.toNat_inj.symm
        rw [hx]
        show lo.toNat ≤ x.toNat ∧ x.toNat ≤ id.toNat ↔
          (lo.toNat ≤ x.toNat ∧ x.toNat ≤ hi.toNat) ∨ x.toNat = id.toNat
        have hlo' : lo.toNat ≤ hi.toNat := hlo
        omega
      · rw [hscanned.refused, hgaps, Nat.zero_add]
    · rw [if_neg fun heq => hid ((eq_next_iff hnext).1 heq)]
      rw [if_neg hid] at hgaps hlater
      by_cases hroom : maxRanges < out.length + 1
      · rw [pushRange_of_lt hroom]
        refine ⟨none, rfl, nofun, nofun, ?_⟩
        rw [hgaps]
        exact ⟨fun _ => by omega, fun _ => rfl⟩
      · have hpush := Nat.le_of_not_lt hroom
        have hlen : (out ++ [(lo, hi)]).length = out.length + 1 := by
          rw [List.length_append, List.length_singleton]
        rw [pushRange_of_le hpush]
        obtain ⟨result, hresult, hscanned⟩ := ih hrest (le_refl id) (hlen ▸ hpush) (hlater hlen)
        refine ⟨result, hresult, hscanned.within, ?_, ?_⟩
        · intro r hr x
          rw [hscanned.covers r hr, Intervals.covers_append, Intervals.covers_cons,
            or_iff_left (Intervals.covers_nil x), List.mem_cons, or_assoc]
          refine or_congr_right (or_congr_right (or_congr_left ?_))
          exact ⟨fun h => le_antisymm h.2 h.1, fun h => ⟨h.ge, h.le⟩⟩
        · rw [hscanned.refused, hlen, hgaps]
          omega

/-- **The ranges of sorted ids are exact, unless the scan goes behind a greatest word.** -/
theorem compressToRanges_exact {ids : List UInt64} (h : ids.Pairwise (· ≤ ·)) (maxRanges : Nat) :
    (∃ result, compressToRanges ids maxRanges = .ok result ∧ Compressed ids maxRanges result) ↔
      ¬Overflows ids maxRanges := by
  cases ids with
  | nil =>
    constructor
    · intro _ hover
      obtain ⟨pre, post, hids, _⟩ := hover
      cases pre <;> cases hids
    · intro _
      refine ⟨some [], rfl, ?_, ?_, ?_⟩
      · intro r hr
        cases hr
        exact Nat.zero_le _
      · intro r hr x
        cases hr
        exact ⟨fun hx => absurd hx (Intervals.covers_nil x), fun hx => absurd hx List.not_mem_nil⟩
      · intro _
        exact ⟨nofun, fun hlt => absurd hlt (Nat.not_lt_zero _)⟩
  | cons id ids =>
    constructor
    · intro hok hover
      obtain ⟨result, hresult, _⟩ := hok
      obtain ⟨pre, post, hids, hpre, hroom⟩ := hover
      rw [compressToRanges, compressLoop_overflows hids (by rw [List.length_nil]; omega) hpre]
        at hresult
      cases hresult
    · intro hover
      have hnot : ¬∃ pre next post, id :: ids = pre ++ U64_MAX :: next :: post ∧ U64_MAX ∉ pre ∧
          ([] : List (UInt64 × UInt64)).length + gaps (pre ++ [U64_MAX]) ≤ maxRanges := by
        intro hover'
        obtain ⟨pre, next, post, hids, hpre, hroom⟩ := hover'
        -- Nothing is greater, so the id behind it is the same.
        have hnext : next = U64_MAX := by
          rw [hids] at h
          have hle := (List.pairwise_cons.1 (List.pairwise_append.1 h).2.1).1 next
            List.mem_cons_self
          exact le_antisymm (toNat_le_U64_MAX next) hle
        rw [List.length_nil, Nat.zero_add] at hroom
        exact hover ⟨pre, post, hnext ▸ hids, hpre, hroom⟩
      obtain ⟨result, hresult, hscanned⟩ :=
        compressLoop_scanned h (le_refl id) (Nat.zero_le maxRanges) hnot
      refine ⟨result, hresult, hscanned.within, ?_, ?_⟩
      · intro r hr x
        rw [hscanned.covers r hr, or_iff_right (Intervals.covers_nil x), List.mem_cons]
        refine or_congr_left ?_
        exact ⟨fun hx => le_antisymm hx.2 hx.1, fun hx => ⟨hx.ge, hx.le⟩⟩
      · intro hstrict
        rw [hscanned.refused, runs_cons hstrict, List.length_nil, Nat.zero_add]

/-- A repeated greatest word. -/
theorem compressToRanges_repeated : [U64_MAX, U64_MAX].Pairwise (· ≤ ·) ∧
    ¬∃ result, compressToRanges [U64_MAX, U64_MAX] 4096 = .ok result ∧
      Compressed [U64_MAX, U64_MAX] 4096 result := by
  refine ⟨by decide, ?_⟩
  intro h
  obtain ⟨result, hresult, _⟩ := h
  cases hresult

theorem compressToRanges_exact_small :
    (∃ result, compressToRanges [1, 2, 3, 7, 7, 8] 10 = .ok result ∧
      Compressed [1, 2, 3, 7, 7, 8] 10 result) ↔ ¬Overflows [1, 2, 3, 7, 7, 8] 10 :=
  compressToRanges_exact (by decide) 10

example : compressToRanges [1, 2, 3, 7, 8] 10 = .ok (some [(1, 3), (7, 8)]) := by decide

end SpatialIde.Engine.Checked
