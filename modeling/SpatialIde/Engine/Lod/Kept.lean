import SpatialIde.Engine.Lod
import SpatialIde.Lib.Runs

/-! # What a reused tier is

A tier is overwritten in place and its record only at the end of the call.  So a call that stops in
between leaves a record without its file, or a file without a record; where none does, every record
of every manifest is that of its file.
-/

namespace SpatialIde.Engine

open Lib

/-- The record's tier is a file that was completed for its key and is what it says. -/
def Backed (p : TierParams) (f : Folder) (r : TierRecord) : Prop :=
  ∃ file, f.tiers r.tier = some file ∧ file.completed = some r.key ∧
    r.bytes = file.content.length ∧ r.sha256 = p.digest file.content

/-- The manifest and the tier files are about each other. -/
structure Folder.Good (p : TierParams) (f : Folder) : Prop where
  backed : ∀ t r, readManifest f.manifest t = some r → Backed p f r
  recorded : ∀ t, f.tiers t ≠ none → readManifest f.manifest t ≠ none
  ladder : ∀ t, f.tiers t ≠ none → 1 ≤ t ∧ t ≤ LOD_MIN_TRIANGLE_AREA_LADDER.length

/-- What is promised of the folders where no call is under way: a record that is admitted is backed
by a file completed for the key it is admitted for, so is every tier the last call reused, and every
tier file is recorded. -/
structure TierState.Promised (p : TierParams) (s : TierState) : Prop where
  admitted : ∀ hash t r key validity, readManifest (s.folders hash).manifest t = some r →
    r.admit key validity = .ok () → r.key = key ∧ Backed p (s.folders hash) r
  reused : ∀ hash outcomes, s.reported = some (hash, outcomes) → ∀ o ∈ outcomes, o.miss = none →
    Backed p (s.folders hash) o.record
  recorded : ∀ hash t, (s.folders hash).tiers t ≠ none →
    readManifest (s.folders hash).manifest t ≠ none

/-- The call has written no tier. -/
structure TierCall.Fresh (c : TierCall) : Prop where
  reused : ∀ o ∈ c.outcomes, o.miss = none
  phase : ∀ miss, c.phase ≠ .written miss

/-- The call does not stop once it has written a tier, or over a tier that the manifest records, or
in the middle of the manifest. -/
def TierState.Finishes (p : TierParams) (s : TierState) (e : TierEvent) : Prop :=
  ∀ c, s.call = some c →
    match e with
    | .cancel => c.Fresh
    | .look isFile readable =>
      c.Fresh ∨ ∀ r, s.reusable c isFile readable = .ok r → r.bytes ≤ p.limit c.source.bytes
    | .writeFailed part removed =>
      c.Fresh ∧ ((removed = true ∧ readManifest (s.folder c).manifest c.tier = none) ∨
        (removed = false ∧ part = none))
    | .measure ok removed =>
      ok = true ∧ ∀ file, (s.folder c).tiers c.tier = some file →
        file.content.length ≤ p.limit c.source.bytes ∨
          ((∀ o ∈ c.outcomes, o.miss = none) ∧ removed = true ∧
            readManifest (s.folder c).manifest c.tier = none)
    | .finish created manifest =>
      (created = true ∧ manifest = .written) ∨ (c.Fresh ∧ manifest ≠ .torn)
    | _ => True

/-! ### The invariant -/

/-- A call under way, and its folder. -/
structure TierCall.Kept (p : TierParams) (f : Folder) (c : TierCall) : Prop where
  onDisk : c.onDisk = f.manifest
  outcomes : ∀ o ∈ c.outcomes, Backed p f o.record
  tiers : c.outcomes.map (·.record.tier) = List.range' 1 c.outcomes.length
  /-- The records of the tiers that are still to come. -/
  later : ∀ t r, c.tier ≤ t → ((∃ miss, c.phase = .written miss) → t ≠ c.tier) →
    readManifest f.manifest t = some r → Backed p f r
  /-- Where all tiers so far were reused, what the folder has but for a tier just written. -/
  others : (∀ o ∈ c.outcomes, o.miss = none) → ∀ t, ((∃ miss, c.phase = .written miss) → t ≠ c.tier) →
    (∀ r, readManifest f.manifest t = some r → Backed p f r) ∧
      (f.tiers t ≠ none → readManifest f.manifest t ≠ none)
  ladder : ∀ t, f.tiers t ≠ none → 1 ≤ t ∧ t ≤ LOD_MIN_TRIANGLE_AREA_LADDER.length
  length : c.outcomes.length ≤ LOD_MIN_TRIANGLE_AREA_LADDER.length
  active : c.phase ≠ .looking → c.outcomes.length < LOD_MIN_TRIANGLE_AREA_LADDER.length
  written : ∀ miss, c.phase = .written miss →
    ∃ file, f.tiers c.tier = some file ∧ file.completed = some c.key
  prepared : c.prepared = false → c.Fresh

/-- The folder of a call that has written no tier. -/
theorem TierCall.Kept.good {p : TierParams} {f : Folder} {c : TierCall} (h : c.Kept p f)
    (hfresh : c.Fresh) : f.Good p := by
  have hothers := fun t => h.others hfresh.reused t fun hw => absurd hw.choose_spec (hfresh.phase _)
  exact ⟨fun t => (hothers t).1, fun t => (hothers t).2, h.ladder⟩

namespace TierState

structure Kept (p : TierParams) (s : TierState) : Prop where
  folders : ∀ hash, (∀ c, s.call = some c → c.source.contentHash ≠ hash) → (s.folders hash).Good p
  call : ∀ c, s.call = some c → c.Kept p (s.folder c)
  reported : ∀ hash outcomes, s.reported = some (hash, outcomes) →
    s.call = none ∧ ∀ o ∈ outcomes, Backed p (s.folders hash) o.record

theorem kept_new (p : TierParams) : Kept p .new where
  folders hash _ := ⟨nofun, fun t h => absurd rfl h, fun t h => absurd rfl h⟩
  call c h := by cases h
  reported hash outcomes h := by cases h

theorem Kept.promised {p : TierParams} {s : TierState} (h : Kept p s) (hidle : s.call = none) :
    Promised p s := by
  have hgood : ∀ hash, (s.folders hash).Good p :=
    fun hash => h.folders hash (fun c hc => by rw [hidle] at hc; cases hc)
  refine ⟨?_, ?_, fun hash => (hgood hash).recorded⟩
  · intro hash t r key validity hr hadmit
    refine ⟨?_, (hgood hash).backed t r hr⟩
    unfold TierRecord.admit at hadmit
    by_contra hne
    rw [if_pos hne] at hadmit
    cases hadmit
  · exact fun hash outcomes hrep o ho _ => (h.reported hash outcomes hrep).2 o ho

/-! ### Moves -/

section

variable {p : TierParams} {s s' : TierState} {c : TierCall}

/-- A step of a call touches its own folder only. -/
theorem Kept.move (h : Kept p s) (hc : s.call = some c)
    (hfolders : ∀ hash, hash ≠ c.source.contentHash → s'.folders hash = s.folders hash)
    (hreported : s'.reported = s.reported)
    (hcall : (s'.call = none ∧ (s'.folders c.source.contentHash).Good p) ∨
      ∃ c', s'.call = some c' ∧ c'.source = c.source ∧
        c'.Kept p (s'.folders c.source.contentHash)) : Kept p s' := by
  have hidle : ∀ hash outcomes, s.reported ≠ some (hash, outcomes) := by
    intro hash outcomes hrep
    have := (h.reported hash outcomes hrep).1
    rw [hc] at this
    cases this
  have hothers : ∀ hash, hash ≠ c.source.contentHash → (s'.folders hash).Good p := by
    intro hash hne
    rw [hfolders hash hne]
    refine h.folders hash fun c' hc' => ?_
    rw [hc] at hc'
    cases hc'
    exact fun heq => hne heq.symm
  refine ⟨?_, ?_, ?_⟩
  · intro hash hnot
    by_cases hne : hash = c.source.contentHash
    · rw [hne]
      rcases hcall with ⟨-, hgood⟩ | ⟨c', hc', hsource, -⟩
      · exact hgood
      · exact absurd (by rw [hsource, hne]) (hnot c' hc')
    · exact hothers hash hne
  · intro c' hc'
    rcases hcall with ⟨hnone, -⟩ | ⟨c'', hc'', hsource, hkept⟩
    · rw [hnone] at hc'
      cases hc'
    · rw [hc''] at hc'
      cases hc'
      rw [folder, hsource]
      exact hkept
  · intro hash outcomes hrep
    rw [hreported] at hrep
    exact absurd hrep (hidle hash outcomes)

/-- The call stops, its folder as it was. -/
theorem Kept.stop (h : Kept p s) (hc : s.call = some c) (hgood : (s.folder c).Good p) :
    Kept p s.stop :=
  h.move hc (fun _ _ => rfl) rfl (.inl ⟨rfl, hgood⟩)

/-- The call goes on, its folder as it was. -/
theorem Kept.goOn (h : Kept p s) (hc : s.call = some c) {c' : TierCall}
    (hsource : c'.source = c.source) (hkept : c'.Kept p (s.folder c)) :
    Kept p { s with call := some c' } :=
  h.move hc (fun _ _ => rfl) rfl (.inr ⟨c', rfl, hsource, hkept⟩)

/-- The call stops behind a change of its folder. -/
theorem Kept.stop_with (h : Kept p s) (hc : s.call = some c) {f : Folder} (hgood : f.Good p) :
    Kept p (s.setFolder c f).stop := by
  refine h.move hc (fun hash hne => Function.update_of_ne hne ..) rfl (.inl ⟨rfl, ?_⟩)
  show (Function.update s.folders _ _ _).Good p
  rw [Function.update_self]
  exact hgood

theorem Kept.start (h : Kept p s) (hidle : s.call = none) (source : TierSource) : Kept p { s with
    call := some ⟨source, (s.folders source.contentHash).manifest, false, [], .looking⟩
    reported := none } := by
  have hgood : ∀ hash, (s.folders hash).Good p :=
    fun hash => h.folders hash (fun c hc => by rw [hidle] at hc; cases hc)
  refine ⟨fun hash _ => hgood hash, ?_, nofun⟩
  intro c hc
  cases hc
  exact
    { onDisk := rfl
      outcomes := nofun
      tiers := rfl
      later := fun t r _ _ hr => (hgood _).backed t r hr
      others := fun _ t _ => ⟨(hgood _).backed t, (hgood _).recorded t⟩
      ladder := (hgood _).ladder
      length := Nat.zero_le _
      active := fun hphase => absurd rfl hphase
      written := nofun
      prepared := fun _ => ⟨nofun, nofun⟩ }

end

/-! ### Steps -/

section

variable {p : TierParams} {s s' : TierState} {c : TierCall}

theorem backed_setTier {f : Folder} {t : Nat} {file : Option TierFile} {r : TierRecord}
    (hne : r.tier ≠ t) (h : Backed p f r) :
    Backed p { f with tiers := Function.update f.tiers t file } r := by
  obtain ⟨file', hfile, hrest⟩ := h
  refine ⟨file', ?_, hrest⟩
  dsimp only
  rw [Function.update_of_ne hne]
  exact hfile

theorem tier_of_readManifest {manifest : Option (List TierRecord)} {t : Nat} {r : TierRecord}
    (h : readManifest manifest t = some r) : r.tier = t := by
  have := List.find?_some h
  exact of_decide_eq_true this

theorem Kept.reused (h : Kept p s) (hc : s.call = some c) {isFile readable : Bool}
    {r : TierRecord} (hr : s.reusable c isFile readable = .ok r) (hphase : c.phase = .looking) :
    r.tier = c.tier ∧ Backed p (s.folder c) r := by
  have hkept := h.call c hc
  unfold reusable at hr
  rw [hkept.onDisk] at hr
  split at hr
  · cases hr
  · next found hfound =>
    split at hr
    · next file hfile =>
      split at hr
      · cases hr
      · split_ifs at hr
        cases hr
        refine ⟨tier_of_readManifest hfound, hkept.later c.tier r (Nat.le_refl _) ?_ hfound⟩
        rintro ⟨miss, hmiss⟩
        rw [hphase] at hmiss
        cases hmiss
    · cases hr

/-- The tiers of the outcomes, with one more. -/
theorem tiers_push (hkept : c.Kept p (s.folder c)) {o : TierOutcome} (ho : o.record.tier = c.tier) :
    (c.outcomes ++ [o]).map (·.record.tier) = List.range' 1 (c.outcomes ++ [o]).length := by
  rw [List.map_append, hkept.tiers, List.length_append, List.length_singleton, List.range'_1_concat,
    List.map_singleton, ho, TierCall.tier, Nat.add_comm 1]

theorem Kept.look (h : Kept p s) (hc : s.call = some c) {isFile readable : Bool}
    (he : c.Fresh ∨ ∀ r, s.reusable c isFile readable = .ok r → r.bytes ≤ p.limit c.source.bytes)
    (hs : s.look p c isFile readable = some s') : Kept p s' := by
  have hkept := h.call c hc
  unfold TierState.look at hs
  split_ifs at hs with hguard
  obtain ⟨hphase, hlt⟩ := hguard
  have hnot : ¬∃ miss, c.phase = .written miss := by
    rintro ⟨miss, hmiss⟩
    rw [hphase] at hmiss
    cases hmiss
  split at hs
  · next r hr =>
    obtain ⟨htier, hbacked⟩ := h.reused hc hr hphase
    split_ifs at hs with hover
    · cases hs
      have hfresh := he.resolve_right fun hle => absurd (hle r hr) (Nat.not_le.2 hover)
      exact h.stop hc (hkept.good hfresh)
    · cases hs
      refine h.goOn hc rfl
        { onDisk := hkept.onDisk
          outcomes := forall_snoc hkept.outcomes hbacked
          tiers := tiers_push hkept htier
          later := ?_
          others := ?_
          ladder := hkept.ladder
          length := ?_
          active := fun hlook => absurd rfl hlook
          written := nofun
          prepared := ?_ }
      · intro t r' ht _ hr'
        rw [TierCall.tier, List.length_append] at ht
        exact hkept.later t r' (Nat.le_trans (Nat.le_succ _) ht) (fun hw => absurd hw hnot) hr'
      · intro hreused t _
        exact hkept.others (fun o ho => hreused o (List.mem_append_left _ ho)) t
          fun hw => absurd hw hnot
      · rw [List.length_append]
        exact hlt
      · intro hprep
        exact ⟨forall_snoc (hkept.prepared hprep).reused rfl, nofun⟩
  · next miss _ =>
    cases hs
    exact h.goOn hc rfl
      { onDisk := hkept.onDisk
        outcomes := hkept.outcomes
        tiers := hkept.tiers
        later := fun t r ht _ hr => hkept.later t r ht (fun hw => absurd hw hnot) hr
        others := fun hreused t _ => hkept.others hreused t fun hw => absurd hw hnot
        ladder := hkept.ladder
        length := hkept.length
        active := fun _ => hlt
        written := nofun
        prepared := fun hprep => ⟨(hkept.prepared hprep).reused, nofun⟩ }

theorem Kept.prepare (h : Kept p s) (hc : s.call = some c) {available : Option Nat} {created : Bool}
    (hs : s.prepare p c available created = some s') : Kept p s' := by
  have hkept := h.call c hc
  unfold TierState.prepare at hs
  split at hs
  · next miss hphase =>
    split_ifs at hs with hprep
    have hgood := hkept.good (hkept.prepared (by simpa using hprep))
    split at hs
    · cases hs
      exact h.stop hc hgood
    · split_ifs at hs
      · cases hs
        exact h.stop hc hgood
      · cases hs
        have hnot : ¬∃ miss, c.phase = .written miss := by
          rintro ⟨m, hm⟩
          rw [hphase] at hm
          cases hm
        exact h.goOn hc rfl
          { onDisk := hkept.onDisk
            outcomes := hkept.outcomes
            tiers := hkept.tiers
            later := fun t r ht _ hr => hkept.later t r ht (fun hw => absurd hw hnot) hr
            others := fun hreused t _ => hkept.others hreused t fun hw => absurd hw hnot
            ladder := hkept.ladder
            length := hkept.length
            active := fun _ => hkept.active (by rw [hphase]; exact nofun)
            written := nofun
            prepared := nofun }
  · cases hs

/-- The tiers of the outcomes are in front of the call's next one. -/
theorem ne_tier_of_mem (hkept : c.Kept p (s.folder c)) {o : TierOutcome} (ho : o ∈ c.outcomes) :
    o.record.tier ≠ c.tier := by
  have hmem : o.record.tier ∈ c.outcomes.map (·.record.tier) :=
    List.mem_map_of_mem (f := (·.record.tier)) ho
  rw [hkept.tiers, List.mem_range'_1] at hmem
  rw [TierCall.tier]
  omega

theorem Kept.write (h : Kept p s) (hc : s.call = some c) {content : List UInt8}
    (hs : s.write c content = some s') : Kept p s' := by
  have hkept := h.call c hc
  unfold TierState.write at hs
  split at hs
  · next miss hphase =>
    split_ifs at hs with hprep
    cases hs
    have hlt := hkept.active (by rw [hphase]; exact nofun)
    have hnot : ¬∃ miss, c.phase = .written miss := by
      rintro ⟨m, hm⟩
      rw [hphase] at hm
      cases hm
    refine h.move hc (fun hash hne => Function.update_of_ne hne ..) rfl
      (.inr ⟨{ c with phase := .written miss }, rfl, rfl, ?_⟩)
    show TierCall.Kept p (Function.update s.folders _ _ _) _
    rw [Function.update_self]
    refine
      { onDisk := hkept.onDisk
        outcomes := fun o ho => backed_setTier (ne_tier_of_mem hkept ho) (hkept.outcomes o ho)
        tiers := hkept.tiers
        later := ?_
        others := ?_
        ladder := ?_
        length := hkept.length
        active := fun _ => hlt
        written := ?_
        prepared := fun hno => absurd hno (by rw [hprep]; exact nofun) }
    · intro t r ht hne hr
      refine backed_setTier ?_ (hkept.later t r ht (fun hw => absurd hw hnot) hr)
      rw [tier_of_readManifest hr]
      exact hne ⟨miss, rfl⟩
    · intro hreused t hne
      obtain ⟨hbacked, hrecorded⟩ := hkept.others hreused t fun hw => absurd hw hnot
      refine ⟨fun r hr => backed_setTier ?_ (hbacked r hr), fun ht => hrecorded ?_⟩
      · rw [tier_of_readManifest hr]
        exact hne ⟨miss, rfl⟩
      · have hother : t ≠ c.tier := hne ⟨miss, rfl⟩
        dsimp only at ht
        rw [Function.update_of_ne hother] at ht
        exact ht
    · intro t ht
      by_cases hne : t = c.tier
      · rw [hne, TierCall.tier]
        omega
      · dsimp only at ht
        rw [Function.update_of_ne hne] at ht
        exact hkept.ladder t ht
    · intro _ _
      refine ⟨⟨content, some c.key⟩, ?_, rfl⟩
      show Function.update _ _ _ _ = _
      exact Function.update_self ..
  · cases hs

/-- The file of a tier that the manifest does not record is removed. -/
theorem good_remove (hkept : c.Kept p (s.folder c)) (hreused : ∀ o ∈ c.outcomes, o.miss = none)
    (hunrecorded : readManifest (s.folder c).manifest c.tier = none) :
    Folder.Good p { s.folder c with tiers := Function.update (s.folder c).tiers c.tier none } := by
  refine ⟨?_, ?_, ?_⟩
  · intro t r hr
    have hne : t ≠ c.tier := by
      rintro rfl
      rw [hunrecorded] at hr
      cases hr
    refine backed_setTier ?_ ((hkept.others hreused t fun _ => hne).1 r hr)
    rw [tier_of_readManifest hr]
    exact hne
  · intro t ht
    by_cases hne : t = c.tier
    · rw [hne] at ht
      exact absurd (Function.update_self ..) ht
    · dsimp only at ht
      rw [Function.update_of_ne hne] at ht
      exact (hkept.others hreused t fun _ => hne).2 ht
  · intro t ht
    by_cases hne : t = c.tier
    · rw [hne] at ht
      exact absurd (Function.update_self ..) ht
    · dsimp only at ht
      rw [Function.update_of_ne hne] at ht
      exact hkept.ladder t ht

theorem Kept.writeFailed (h : Kept p s) (hc : s.call = some c) {part : Option (List UInt8)}
    {removed : Bool} (hfresh : c.Fresh)
    (he : (removed = true ∧ readManifest (s.folder c).manifest c.tier = none) ∨
      (removed = false ∧ part = none))
    (hs : s.writeFailed c part removed = some s') : Kept p s' := by
  have hkept := h.call c hc
  unfold TierState.writeFailed at hs
  split at hs
  · split_ifs at hs with hprep hremoved
    · cases hs
      have hunrecorded : readManifest (s.folder c).manifest c.tier = none := by
        rcases he with he | he
        · exact he.2
        · rw [hremoved] at he
          cases he.1
      exact h.stop_with hc (good_remove hkept hfresh.reused hunrecorded)
    · have hpart : part = none := by
        rcases he with he | he
        · exact absurd he.1 hremoved
        · exact he.2
      rw [hpart] at hs
      cases hs
      exact h.stop hc (hkept.good hfresh)
  · cases hs

theorem Kept.measure (h : Kept p s) (hc : s.call = some c) {ok removed : Bool} (hok : ok = true)
    (he : ∀ file, (s.folder c).tiers c.tier = some file →
      file.content.length ≤ p.limit c.source.bytes ∨
        ((∀ o ∈ c.outcomes, o.miss = none) ∧ removed = true ∧
          readManifest (s.folder c).manifest c.tier = none))
    (hs : s.measure p c ok removed = some s') : Kept p s' := by
  have hkept := h.call c hc
  unfold TierState.measure at hs
  split at hs
  · next miss file hphase hfile =>
    rw [hok, if_neg nofun] at hs
    split_ifs at hs with hover hremoved
    · cases hs
      obtain ⟨hreused, -, hunrecorded⟩ :=
        (he file hfile).resolve_left (Nat.not_le.2 hover)
      exact h.stop_with hc (good_remove hkept hreused hunrecorded)
    · exact absurd ((he file hfile).resolve_left (Nat.not_le.2 hover)).2.1 hremoved
    · cases hs
      obtain ⟨file', hfile', hcompleted⟩ := hkept.written miss hphase
      rw [hfile] at hfile'
      cases hfile'
      refine h.goOn hc rfl
        { onDisk := hkept.onDisk
          outcomes := forall_snoc hkept.outcomes ⟨file, hfile, hcompleted, rfl, rfl⟩
          tiers := tiers_push hkept rfl
          later := ?_
          others := ?_
          ladder := hkept.ladder
          length := ?_
          active := fun hlook => absurd rfl hlook
          written := nofun
          prepared := ?_ }
      · intro t r ht _ hr
        rw [TierCall.tier, List.length_append, List.length_singleton] at ht
        refine hkept.later t r (by rw [TierCall.tier]; omega) (fun _ => ?_) hr
        rw [TierCall.tier]
        omega
      · intro hreused
        cases hreused _ mem_snoc
      · rw [List.length_append]
        exact hkept.active (by rw [hphase]; exact nofun)
      · intro hno
        exact absurd hphase ((hkept.prepared hno).phase miss)
  · cases hs

/-- The manifest of a call that has all its tiers. -/
theorem good_finish (hkept : c.Kept p (s.folder c))
    (hlen : c.outcomes.length = LOD_MIN_TRIANGLE_AREA_LADDER.length) :
    Folder.Good p { s.folder c with manifest := some (c.outcomes.map (·.record)) } := by
  refine ⟨?_, ?_, hkept.ladder⟩
  · intro t r hr
    have hmem := List.mem_of_find?_eq_some hr
    rw [List.mem_reverse] at hmem
    obtain ⟨o, ho, rfl⟩ := List.mem_map.1 hmem
    exact hkept.outcomes o ho
  · intro t ht hnone
    have hrange := hkept.ladder t ht
    have hmem : t ∈ c.outcomes.map (·.record.tier) := by
      rw [hkept.tiers, List.mem_range'_1]
      omega
    obtain ⟨o, ho, rfl⟩ := List.mem_map.1 hmem
    have hno := List.find?_eq_none.1 hnone o.record
      (List.mem_reverse.2 (List.mem_map_of_mem (f := (·.record)) ho))
    exact hno (decide_eq_true rfl)

theorem Kept.finish (h : Kept p s) (hc : s.call = some c) {created : Bool}
    {manifest : ManifestWrite}
    (he : (created = true ∧ manifest = .written) ∨ (c.Fresh ∧ manifest ≠ .torn))
    (hs : s.finish c created manifest = some s') : Kept p s' := by
  have hkept := h.call c hc
  unfold TierState.finish at hs
  split_ifs at hs with hguard hcreated
  · cases hs
    have hfresh : c.Fresh := by
      rcases he with he | he
      · rw [hcreated] at he
        cases he.1
      · exact he.1
    exact h.stop hc (hkept.good hfresh)
  · cases manifest with
    | written =>
      cases hs
      have hgood := good_finish hkept hguard.2
      have hstop := h.stop_with hc hgood
      refine ⟨hstop.folders, hstop.call, ?_⟩
      intro hash outcomes hrep
      cases hrep
      refine ⟨rfl, fun o ho => ?_⟩
      obtain ⟨file, hfile, hrest⟩ := hkept.outcomes o ho
      refine ⟨file, ?_, hrest⟩
      show (Function.update s.folders _ _ _).tiers _ = _
      rw [Function.update_self]
      exact hfile
    | untouched =>
      cases hs
      have hfresh : c.Fresh := by
        rcases he with he | he
        · cases he.2
        · exact he.1
      exact h.stop hc (hkept.good hfresh)
    | torn =>
      rcases he with he | he
      · cases he.2
      · exact absurd rfl he.2

theorem Kept.step (h : Kept p s) {e : TierEvent} (he : s.Finishes p e)
    (hs : s.step p e = some s') : Kept p s' := by
  unfold TierState.step at hs
  split at hs
  · next source hidle =>
    cases hs
    exact h.start hidle source
  · next c hc =>
    split_ifs at hs
    cases hs
    exact h.stop hc ((h.call c hc).good (he c hc))
  · next c isFile readable hc => exact h.look hc (he c hc) hs
  · next c available created hc => exact h.prepare hc hs
  · next c content hc => exact h.write hc hs
  · next c part removed hc => exact h.writeFailed hc (he c hc).1 (he c hc).2 hs
  · next c ok removed hc => exact h.measure hc (he c hc).1 (he c hc).2 hs
  · next c created manifest hc => exact h.finish hc (he c hc) hs
  · cases hs

end

end TierState

/-- **A reused tier is the tier it says it is.**  After any sequence of calls, none of which stops
once it has written a tier, over a recorded one, or in the middle of the manifest, what the manifests
admit and what the last call reused is backed by a file completed for that key, and every tier file
is recorded. -/
theorem run_promised (p : TierParams) {es : List TierEvent} {s : TierState}
    (hes : Meets (TierState.step p) (TierState.Finishes p) .new es)
    (hs : runFrom (TierState.step p) .new es = some s) (hidle : s.call = none) : s.Promised p :=
  (runFrom_keeps (TierState.kept_new p) (fun _ _ _ ht he hstep => ht.step he hstep) hes hs).promised
    hidle

/-! ### Two columns of one source -/

/-- The digest spells the bytes; a tier may be as large as its source. -/
def spelled : TierParams where
  digest bytes := String.ofList (bytes.map fun b => Char.ofNat b.toNat)
  limit bytes := bytes
  hardBound bytes := 3 * bytes

def plainSource (idColumn : String) : TierSource := ⟨"00", idColumn, 8, some ⟨8, some 1⟩⟩

/-- Rebuild one tier. -/
def rebuild (content : List UInt8) : List TierEvent :=
  [.look true true, .write content, .measure true true]

/-- Build all tiers. -/
def buildAll (idColumn : String) (content : List UInt8) : List TierEvent :=
  [.call (plainSource idColumn), .look true true, .prepare (some 24) true, .write content,
    .measure true true] ++ rebuild content ++ rebuild content ++ [.finish true .written]

/-- Reuse all tiers. -/
def reuseAll (idColumn : String) : List TierEvent :=
  [.call (plainSource idColumn), .look true true, .look true true, .look true true,
    .finish true .written]

/-- A call for another column is cancelled behind its first tier. -/
def cancelledRebuild : List TierEvent :=
  [.call (plainSource "other"), .look true true, .prepare (some 24) true, .write [98],
    .measure true true, .cancel]

theorem promised_reused : ∃ s,
    runFrom (TierState.step spelled) .new (buildAll "id" [97] ++ reuseAll "id") = some s ∧
      (∃ hash outcomes, s.reported = some (hash, outcomes) ∧ ∀ o ∈ outcomes, o.miss = none) ∧
      s.Promised spelled := by
  have hes : Meets (TierState.step spelled) (TierState.Finishes spelled) .new
      (buildAll "id" [97] ++ reuseAll "id") := by
    refine .cons (fun _ _ => trivial) rfl ?_
    refine .cons (fun c hc => ?_) rfl ?_
    · cases hc
      exact .inr fun r hr => by cases hr
    refine .cons (fun _ _ => trivial) rfl ?_
    refine .cons (fun _ _ => trivial) rfl ?_
    refine .cons (fun c hc => ?_) rfl ?_
    · cases hc
      exact ⟨rfl, fun file hfile => by cases hfile; exact .inl (by decide)⟩
    refine .cons (fun c hc => ?_) rfl ?_
    · cases hc
      exact .inr fun r hr => by cases hr
    refine .cons (fun _ _ => trivial) rfl ?_
    refine .cons (fun c hc => ?_) rfl ?_
    · cases hc
      exact ⟨rfl, fun file hfile => by cases hfile; exact .inl (by decide)⟩
    refine .cons (fun c hc => ?_) rfl ?_
    · cases hc
      exact .inr fun r hr => by cases hr
    refine .cons (fun _ _ => trivial) rfl ?_
    refine .cons (fun c hc => ?_) rfl ?_
    · cases hc
      exact ⟨rfl, fun file hfile => by cases hfile; exact .inl (by decide)⟩
    refine .cons (fun c hc => .inl ⟨rfl, rfl⟩) rfl ?_
    refine .cons (fun _ _ => trivial) rfl ?_
    refine .cons (fun c hc => ?_) rfl ?_
    · cases hc
      exact .inr fun r hr => by cases hr; decide
    refine .cons (fun c hc => ?_) rfl ?_
    · cases hc
      exact .inr fun r hr => by cases hr; decide
    refine .cons (fun c hc => ?_) rfl ?_
    · cases hc
      exact .inr fun r hr => by cases hr; decide
    exact .cons (fun c hc => .inl ⟨rfl, rfl⟩) rfl meets_nil
  obtain ⟨s, hs, hidle, hreported⟩ : ∃ s,
      runFrom (TierState.step spelled) .new (buildAll "id" [97] ++ reuseAll "id") = some s ∧
        s.call = none ∧
          ∃ hash outcomes, s.reported = some (hash, outcomes) ∧ ∀ o ∈ outcomes, o.miss = none := by
    refine ⟨_, rfl, ?_⟩
    refine ⟨rfl, _, _, rfl, ?_⟩
    decide
  exact ⟨s, hs, hreported, run_promised spelled hes hs hidle⟩

theorem cancelledRebuild_unbacked :
    (∃ s, runFrom (TierState.step spelled) .new
        (buildAll "id" [97] ++ cancelledRebuild ++ reuseAll "id") = some s ∧
      s.call = none ∧ ∃ hash outcomes, s.reported = some (hash, outcomes) ∧
        ∃ o ∈ outcomes, o.miss = none ∧ ¬Backed spelled (s.folders hash) o.record) ∧
    ∃ s, runFrom (TierState.step spelled) .new cancelledRebuild = some s ∧
      s.call = none ∧ ∃ hash t, (s.folders hash).tiers t ≠ none ∧
        readManifest (s.folders hash).manifest t = none := by
  constructor
  · refine ⟨_, rfl, ?_⟩
    refine ⟨rfl, _, _, rfl, ?_⟩
    refine ⟨_, List.mem_cons_self, rfl, ?_⟩
    rintro ⟨file, hfile, hcompleted, -⟩
    cases hfile
    exact absurd hcompleted (by decide)
  · exact ⟨_, rfl, rfl, "00", 1, nofun, rfl⟩

end SpatialIde.Engine
