import SpatialIde.Engine.Index.Cache
import SpatialIde.Engine.Index.Exact
import SpatialIde.Lib.Runs

/-! # What a served index was built from

An index is inserted with the hash of what was read first, the file as it was measured next, and what
was scanned last.  Where no change comes between the first two, and no index that was overtaken by a
change is inserted between the two halves of a check, an admitted index was built from the file that
the check measured.
-/

namespace SpatialIde.Engine

open Lib

/-- The index is the one of the file. -/
def Scanned (w : Scanner) (column : String) (f : File) (index : SpatialIndex) : Prop :=
  ∃ polls, (build (w.rows f.bytes column)).Runs polls (.ok index)

/-- The index and its key are those of the file, for a column. -/
structure BuiltFrom (w : Scanner) (column : String) (f : File) (i : CachedIndex) : Prop where
  key : i.key = .new (w.digest f.bytes) column
  index : Scanned w column f i.index

/-- The cache serves what was built from the file as it was measured, and says of anything else why
it does not. -/
def CacheAnswer.Truthful (w : Scanner) (a : CacheAnswer) : Prop :=
  match a.found with
  | none => a.result = .error .absent
  | some i =>
    (a.result = .ok i ∧ ∃ f, a.measured = some f ∧ BuiltFrom w a.dataset.sourceColumn f i) ∨
      a.result = .error .keyMismatch ∨ a.result = .error .sourceChanged

namespace IndexState

/-- Some call has measured the file with this content and not asked the cache yet. -/
def Pending (s : IndexState) (path : Path) (f : File) : Prop :=
  (∃ n b key, s.builds.get n = some b ∧ b.dataset.path = path ∧ b.phase = .looking key (some f)) ∨
    ∃ n c key, s.checks.get n = some c ∧ c.dataset.path = path ∧ c.phase = .looking key (some f)

end IndexState

/-- The build has hashed the file, or part of it, and not measured it. -/
def BuildPhase.isHashing : BuildPhase → Bool
  | .hashing _ _ => true
  | .hashed _ => true
  | _ => false

/-- No file changes between its hash and its measure, and no index overtaken by a change is inserted
between a measure of the same content and the question to the cache. -/
def Undisturbed (s : IndexState) : IndexEvent → Prop
  | .modify path _ =>
    ∀ n b, s.builds.get n = some b → b.dataset.path = path → b.phase.isHashing = false
  | .insert n =>
    ∀ b key f index, s.builds.get n = some b → b.phase = .built key (some f) index →
      (s.files b.dataset.path).head? = some f ∨ ¬s.Pending b.dataset.path f
  | _ => True

/-! ### The invariant -/

/-- The key has the hash of the file that was measured. -/
def Keyed (w : Scanner) (column : String) (files : List File) (key : IndexKey)
    (measured : Option File) : Prop :=
  ∀ f, measured = some f → f ∈ files ∧ key = .new (w.digest f.bytes) column

/-- What is known of a build whose path has had these contents. -/
def BuildPhase.Sound (w : Scanner) (column : String) (files : List File) : BuildPhase → Prop
  | .hashing opened read => opened = files.length ∧ ∀ f, files.head? = some f → read <+: f.bytes
  | .hashed key => ∀ f, files.head? = some f → key = .new (w.digest f.bytes) column
  | .looking key measured => Keyed w column files key measured
  | .missed key measured => Keyed w column files key measured
  | .scanning key measured opened chunks =>
    Keyed w column files key measured ∧ ∀ f, measured = some f → files.head? = some f →
      opened = files.length ∧ chunks <+: w.rows f.bytes column
  | .built key measured index =>
    Keyed w column files key measured ∧ ∀ f, measured = some f → files.head? = some f →
      Scanned w column f index

def CheckPhase.Sound (column : String) (files : List File) : CheckPhase → Prop
  | .keyed key => key.idColumn = column
  | .looking key measured => key.idColumn = column ∧ ∀ f, measured = some f → f ∈ files

/-- A new content changes nothing for a call that has measured an older one. -/
theorem BuildPhase.Sound.grow {w : Scanner} {column : String} {files : List File} {file : File}
    {phase : BuildPhase} (h : phase.Sound w column files) (hphase : phase.isHashing = false)
    (hnew : ∀ f ∈ files, (file :: files).head? ≠ some f) :
    phase.Sound w column (file :: files) := by
  have hkeyed : ∀ {key measured}, Keyed w column files key measured →
      Keyed w column (file :: files) key measured :=
    fun hk f hf => ⟨List.mem_cons_of_mem _ (hk f hf).1, (hk f hf).2⟩
  cases phase with
  | hashing opened read => cases hphase
  | hashed key => cases hphase
  | looking key measured => exact hkeyed h
  | missed key measured => exact hkeyed h
  | scanning key measured opened chunks =>
    exact ⟨hkeyed h.1, fun f hf hhead => absurd hhead (hnew f (h.1 f hf).1)⟩
  | built key measured index =>
    exact ⟨hkeyed h.1, fun f hf hhead => absurd hhead (hnew f (h.1 f hf).1)⟩

/-- What is known of a cached index: where its measure is one of the file's, its key is right, and
its scan too unless it was overtaken by a change. -/
structure CachedSound (w : Scanner) (s : IndexState) (path : Path) (i : CachedIndex) : Prop where
  known : ∀ h, i.validity = some h → h ∈ (s.files path).map File.heuristic
  key : ∀ f ∈ s.files path, i.validity = some f.heuristic →
    i.key = .new (w.digest f.bytes) i.key.idColumn
  index : ∀ f ∈ s.files path, i.validity = some f.heuristic →
    Scanned w i.key.idColumn f i.index ∨ ((s.files path).head? ≠ some f ∧ ¬s.Pending path f)

namespace IndexState

structure Sound (w : Scanner) (s : IndexState) : Prop where
  heuristics : ∀ p, ((s.files p).map File.heuristic).Nodup
  builds : ∀ n b, s.builds.get n = some b →
    b.phase.Sound w b.dataset.sourceColumn (s.files b.dataset.path)
  checks : ∀ n c, s.checks.get n = some c →
    c.phase.Sound c.dataset.sourceColumn (s.files c.dataset.path)
  cached : ∀ p i, OrderedMap.get s.cache p = some i → CachedSound w s p i
  answers : ∀ a ∈ s.answers, a.Truthful w

theorem sound_start (w : Scanner) (files : Path → List File)
    (h : ∀ p, ((files p).map File.heuristic).Nodup) : Sound w (.start files) where
  heuristics := h
  builds n b hb := by cases hb
  checks n c hc := by cases hc
  cached p i hi := by cases hi
  answers a ha := by cases ha

namespace Sound

variable {w : Scanner} {s s' : IndexState} {n : Nat}

/-! ### Steps of one call -/

/-- The calls go on, and whatever they measure is the file as it is. -/
theorem keep (h : Sound w s) (hfiles : s'.files = s.files) (hcache : s'.cache = s.cache)
    (hanswers : ∀ a ∈ s'.answers, a.Truthful w)
    (hbuilds : ∀ n b, s'.builds.get n = some b →
      b.phase.Sound w b.dataset.sourceColumn (s.files b.dataset.path))
    (hchecks : ∀ n c, s'.checks.get n = some c →
      c.phase.Sound c.dataset.sourceColumn (s.files c.dataset.path))
    (hpending : ∀ p f, s'.Pending p f → s.Pending p f ∨ (s.files p).head? = some f) :
    Sound w s' where
  heuristics p := by rw [hfiles]; exact h.heuristics p
  builds n b hb := by rw [hfiles]; exact hbuilds n b hb
  checks n c hc := by rw [hfiles]; exact hchecks n c hc
  cached p i hi := by
    rw [hcache] at hi
    have hcached := h.cached p i hi
    refine ⟨?_, ?_, ?_⟩
    · rw [hfiles]
      exact hcached.known
    · rw [hfiles]
      exact hcached.key
    · rw [hfiles]
      intro f hf hv
      rcases hcached.index f hf hv with hscanned | ⟨hhead, hnot⟩
      · exact .inl hscanned
      · refine .inr ⟨hhead, fun hpend => ?_⟩
        rcases hpending p f hpend with hpend | hcur
        · exact hnot hpend
        · exact hhead hcur
  answers := hanswers

/-- A build goes on. -/
theorem goOn (h : Sound w s) (b : IndexBuild) {phase : BuildPhase}
    (hphase : phase.Sound w b.dataset.sourceColumn (s.files b.dataset.path))
    (hlook : ∀ key f, phase = .looking key (some f) →
      (s.files b.dataset.path).head? = some f) : Sound w (s.goOn n b phase) := by
  refine h.keep rfl rfl h.answers ?_ h.checks ?_
  · intro m c hc
    rw [IndexState.goOn, OrderedMap.get_set] at hc
    split_ifs at hc
    · cases hc
      exact hphase
    · exact h.builds m c hc
  · rintro p f (⟨m, c, key, hc, hpath, hlooking⟩ | hcheck)
    · rw [IndexState.goOn, OrderedMap.get_set] at hc
      split_ifs at hc
      · cases hc
        rw [← hpath]
        exact .inr (hlook key f hlooking)
      · exact .inl (.inl ⟨m, c, key, hc, hpath, hlooking⟩)
    · exact .inl (.inr hcheck)

/-- A build is over. -/
theorem drop (h : Sound w s) (n : Nat) : Sound w { s with builds := s.builds.delete n } := by
  have hget : ∀ m b, (s.builds.delete n).get m = some b → s.builds.get m = some b := by
    intro m b hb
    rw [OrderedMap.get_delete] at hb
    split_ifs at hb
    exact hb
  refine h.keep rfl rfl h.answers (fun m b hb => h.builds m b (hget m b hb)) h.checks ?_
  rintro p f (⟨m, b, key, hb, hrest⟩ | hcheck)
  · exact .inl (.inl ⟨m, b, key, hget m b hb, hrest⟩)
  · exact .inl (.inr hcheck)

theorem record (h : Sound w s) {a : CacheAnswer} (ha : a.Truthful w) :
    Sound w { s with answers := s.answers ++ [a] } :=
  h.keep rfl rfl (forall_snoc h.answers ha) h.builds h.checks fun _ _ hp => .inl hp

theorem begin (h : Sound w s) {dataset : Dataset} (hs : s.begin n dataset = some s') :
    Sound w s' := by
  unfold IndexState.begin at hs
  split_ifs at hs with hguard
  cases hs
  refine h.keep rfl rfl h.answers ?_ h.checks ?_
  · intro m b hb
    rw [OrderedMap.get_set] at hb
    split_ifs at hb
    · cases hb
      exact ⟨rfl, fun f _ => List.nil_prefix⟩
    · exact h.builds m b hb
  · rintro p f (⟨m, b, key, hb, hpath, hlooking⟩ | hcheck)
    · rw [OrderedMap.get_set] at hb
      split_ifs at hb
      · cases hb
        cases hlooking
      · exact .inl (.inl ⟨m, b, key, hb, hpath, hlooking⟩)
    · exact .inl (.inr hcheck)

theorem unchanged_eq {path : Path} {f : File} (hf : (s.files path).head? = some f) :
    s.unchanged path (s.files path).length = some f := by
  rw [IndexState.unchanged, if_pos rfl, hf]

theorem read (h : Sound w s) {bytes : List UInt8} (hs : s.read w n bytes = some s') :
    Sound w s' := by
  unfold IndexState.read at hs
  split at hs
  · next b hb =>
    split at hs
    · next opened done hphase =>
      have hsound := h.builds n b hb
      rw [hphase] at hsound
      obtain ⟨rfl, hread⟩ := hsound
      dsimp only at hs
      split_ifs at hs with hreal hend
      · cases hs
        rw [not_or, Bool.not_eq_false] at hreal
        refine h.goOn b (fun f hf => ?_) nofun
        have hlen := hreal.1
        rw [unchanged_eq hf, Option.all_some, Bool.and_eq_true, decide_eq_true_eq] at hlen
        rw [(hread f hf).eq_of_length_le (hlen.2 hend)]
      · cases hs
        rw [not_or, Bool.not_eq_false] at hreal
        refine h.goOn b ⟨rfl, fun f hf => ?_⟩ nofun
        have hbytes := hreal.1
        rw [unchanged_eq hf, Option.all_some, Bool.and_eq_true, List.isPrefixOf_iff_prefix] at hbytes
        obtain ⟨rest, hrest⟩ := hread f hf
        obtain ⟨more, hmore⟩ := hbytes.1
        rw [← hrest, List.drop_left] at hmore
        exact ⟨more, by rw [List.append_assoc, hmore, hrest]⟩
    · cases hs
  · cases hs

theorem measured_eq {path : Path} {readable : Bool} {f : File}
    (hf : s.measured path readable = some f) : (s.files path).head? = some f := by
  unfold IndexState.measured at hf
  split_ifs at hf
  exact hf

theorem measure (h : Sound w s) {readable : Bool} (hs : s.measure n readable = some s') :
    Sound w s' := by
  unfold IndexState.measure at hs
  split at hs
  · next b hb =>
    split at hs
    · next key hphase =>
      cases hs
      have hsound := h.builds n b hb
      rw [hphase] at hsound
      refine h.goOn b (fun f hf => ?_) ?_
      · exact ⟨List.mem_of_head? (measured_eq hf), hsound f (measured_eq hf)⟩
      · intro key' f hlook
        rw [BuildPhase.looking.injEq] at hlook
        exact measured_eq hlook.2
    · cases hs
  · cases hs

/-- What the cache says to a call that has measured the file. -/
theorem truthful (h : Sound w s) {dataset : Dataset} {key : IndexKey} {measured : Option File}
    (hkey : ∀ f, measured = some f → f ∈ s.files dataset.path ∧
      key.idColumn = dataset.sourceColumn)
    (hpending : ∀ f, measured = some f → s.Pending dataset.path f) :
    (s.answer dataset key measured).Truthful w := by
  unfold CacheAnswer.Truthful IndexState.answer IndexCache.get
  dsimp only
  cases hfound : OrderedMap.get s.cache dataset.path with
  | none => rfl
  | some i =>
    dsimp only
    unfold CachedIndex.admits
    by_cases hk : i.key = key
    · rw [if_neg (not_not.2 hk)]
      by_cases hv : ValidityHeuristic.failClosedMatches i.validity (measured.map File.heuristic) = false
      · rw [if_pos hv]
        exact .inr (.inr rfl)
      · rw [if_neg hv, Bool.not_eq_false] at *
        refine .inl ⟨rfl, ?_⟩
        cases hm : measured with
        | none =>
          rw [hm] at hv
          cases hi : i.validity <;> rw [hi] at hv <;> cases hv
        | some f =>
          rw [hm] at hv
          cases hi : i.validity with
          | none =>
            rw [hi] at hv
            cases hv
          | some v =>
            rw [hi] at hv
            have hsame : v = f.heuristic := by
              simp only [Option.map_some, ValidityHeuristic.failClosedMatches,
                Bool.and_eq_true, decide_eq_true_eq] at hv
              exact hv.1
            obtain ⟨hf, hcolumn⟩ := hkey f hm
            have hcached := h.cached _ i hfound
            rw [hsame] at hi
            refine ⟨f, rfl, ?_, ?_⟩
            · rw [← hcolumn, ← hk]
              exact hcached.key f hf hi
            · rw [← hcolumn, ← hk]
              exact (hcached.index f hf hi).resolve_right fun hno => hno.2 (hpending f hm)
    · rw [if_pos hk]
      exact .inr (.inl rfl)

theorem look (h : Sound w s) (hs : s.look n = some s') : Sound w s' := by
  unfold IndexState.look at hs
  split at hs
  · next b hb =>
    split at hs
    · next key measured hphase =>
      have hkeyed := h.builds n b hb
      rw [hphase] at hkeyed
      have hanswer : (s.answer b.dataset key measured).Truthful w := by
        refine h.truthful (fun f hf => ⟨(hkeyed f hf).1, ?_⟩) fun f hf => ?_
        · rw [(hkeyed f hf).2]
          rfl
        · exact .inl ⟨n, b, key, hb, rfl, by rw [hphase, hf]⟩
      dsimp only at hs
      split at hs
      · cases hs
        exact (h.record hanswer).drop n
      · cases hs
        exact (h.record hanswer).goOn b hkeyed nofun
    · cases hs
  · cases hs

theorem openScan (h : Sound w s) (hs : s.openScan n = some s') : Sound w s' := by
  unfold IndexState.openScan at hs
  split at hs
  · next b hb =>
    split at hs
    · next key measured hphase =>
      cases hs
      have hkeyed := h.builds n b hb
      rw [hphase] at hkeyed
      exact h.goOn b ⟨hkeyed, fun f _ _ => ⟨rfl, List.nil_prefix⟩⟩ nofun
    · cases hs
  · cases hs

theorem scanChunk (h : Sound w s) {chunk : List Feature} (hs : s.scanChunk w n chunk = some s') :
    Sound w s' := by
  unfold IndexState.scanChunk at hs
  split at hs
  · next b hb =>
    split at hs
    · next key measured opened chunks hphase =>
      have hsound := h.builds n b hb
      rw [hphase] at hsound
      obtain ⟨hkeyed, hscan⟩ := hsound
      dsimp only at hs
      split_ifs at hs with hreal
      cases hs
      refine h.goOn b ⟨hkeyed, fun f hf hhead => ?_⟩ nofun
      obtain ⟨rfl, rest, hrest⟩ := hscan f hf hhead
      rw [unchanged_eq hhead, Option.all_some, decide_eq_true_eq, ← hrest,
        List.getElem?_append_right (Nat.le_refl _), Nat.sub_self] at hreal
      refine ⟨rfl, rest.tail, ?_⟩
      cases rest with
      | nil => cases hreal
      | cons c rest =>
        cases hreal
        rw [← hrest, List.append_assoc]
        rfl
    · cases hs
  · cases hs

theorem finish (h : Sound w s) {polls : List (Event Poll.Answer)}
    (hs : s.finish w n polls = some s') : Sound w s' := by
  unfold IndexState.finish at hs
  split at hs
  · next b hb =>
    split at hs
    · next key measured opened chunks hphase =>
      have hsound := h.builds n b hb
      rw [hphase] at hsound
      obtain ⟨hkeyed, hscan⟩ := hsound
      dsimp only at hs
      split_ifs at hs with hreal
      split at hs
      · next index hrun =>
        cases hs
        refine h.goOn b ⟨hkeyed, fun f hf hhead => ?_⟩ fun key f hlooking => ?_
        rotate_left
        · cases hlooking
        obtain ⟨rfl, hprefix⟩ := hscan f hf hhead
        rw [Bool.not_eq_false, unchanged_eq hhead, Option.all_some, decide_eq_true_eq] at hreal
        refine ⟨polls, ?_⟩
        rw [← hprefix.eq_of_length_le hreal]
        exact Prog.runs_of_replay hrun
      · cases hs
        exact h.drop n
      · cases hs
    · cases hs
  · cases hs

theorem check (h : Sound w s) {dataset : Dataset} (hs : s.check n dataset = some s') :
    Sound w s' := by
  unfold IndexState.check at hs
  split_ifs at hs
  split at hs
  · cases hs
    exact h
  · next hash hhash =>
    cases hs
    refine h.keep rfl rfl h.answers h.builds ?_ ?_
    · intro m c hc
      rw [OrderedMap.get_set] at hc
      split_ifs at hc
      · cases hc
        rfl
      · exact h.checks m c hc
    · rintro p f (hbuild | ⟨m, c, key, hc, hpath, hlooking⟩)
      · exact .inl (.inl hbuild)
      · rw [OrderedMap.get_set] at hc
        split_ifs at hc
        · cases hc
          cases hlooking
        · exact .inl (.inr ⟨m, c, key, hc, hpath, hlooking⟩)

theorem measureCheck (h : Sound w s) {readable : Bool}
    (hs : s.measureCheck n readable = some s') : Sound w s' := by
  unfold IndexState.measureCheck at hs
  split at hs
  · next c hc =>
    split at hs
    · next key hphase =>
      cases hs
      have hsound := h.checks n c hc
      rw [hphase] at hsound
      refine h.keep rfl rfl h.answers h.builds ?_ ?_
      · intro m c' hc'
        rw [OrderedMap.get_set] at hc'
        split_ifs at hc'
        · cases hc'
          exact ⟨hsound, fun f hf => List.mem_of_head? (measured_eq hf)⟩
        · exact h.checks m c' hc'
      · rintro p f (hbuild | ⟨m, c', key', hc', hpath, hlooking⟩)
        · exact .inl (.inl hbuild)
        · rw [OrderedMap.get_set] at hc'
          split_ifs at hc'
          · cases hc'
            rw [CheckPhase.looking.injEq] at hlooking
            rw [← hpath]
            exact .inr (measured_eq hlooking.2)
          · exact .inl (.inr ⟨m, c', key', hc', hpath, hlooking⟩)
    · cases hs
  · cases hs

theorem lookCheck (h : Sound w s) (hs : s.lookCheck n = some s') : Sound w s' := by
  unfold IndexState.lookCheck at hs
  split at hs
  · next c hc =>
    split at hs
    · next key measured hphase =>
      cases hs
      have hsound := h.checks n c hc
      rw [hphase] at hsound
      have hanswer : (s.answer c.dataset key measured).Truthful w := by
        refine h.truthful (fun f hf => ⟨hsound.2 f hf, hsound.1⟩) fun f hf => ?_
        exact .inr ⟨n, c, key, hc, rfl, by rw [hphase, hf]⟩
      have hget : ∀ m c, (s.checks.delete n).get m = some c → s.checks.get m = some c := by
        intro m c hc
        rw [OrderedMap.get_delete] at hc
        split_ifs at hc
        exact hc
      refine (h.record hanswer).keep rfl rfl (h.record hanswer).answers h.builds
        (fun m c hc => h.checks m c (hget m c hc)) ?_
      rintro p f (hbuild | ⟨m, c', key', hc', hrest⟩)
      · exact .inl (.inl hbuild)
      · exact .inl (.inr ⟨m, c', key', hget m c' hc', hrest⟩)
    · cases hs
  · cases hs

/-! ### A change of the file, and an insertion -/

theorem modify (h : Sound w s) {path : Path} {file : File} (hs : s.modify path file = some s')
    (hhash : ∀ n b, s.builds.get n = some b → b.dataset.path = path →
      b.phase.isHashing = false) : Sound w s' := by
  unfold IndexState.modify at hs
  split_ifs at hs with hfresh
  cases hs
  have hself : Function.update s.files path (file :: s.files path) path = file :: s.files path :=
    Function.update_self ..
  have hother : ∀ p, p ≠ path →
      Function.update s.files path (file :: s.files path) p = s.files p :=
    fun p hp => Function.update_of_ne hp ..
  have hnew : ∀ f ∈ s.files path, (file :: s.files path).head? ≠ some f := by
    intro f hf heq
    cases heq
    exact hfresh (List.mem_map_of_mem hf)
  refine ⟨?_, ?_, ?_, ?_, h.answers⟩
  · intro p
    dsimp only
    by_cases hp : p = path
    · rw [hp, hself, List.map_cons, List.nodup_cons]
      exact ⟨hfresh, h.heuristics path⟩
    · rw [hother p hp]
      exact h.heuristics p
  · intro n b hb
    have hold := h.builds n b hb
    dsimp only
    by_cases hp : b.dataset.path = path
    · have hquiet := hhash n b hb hp
      rw [hp] at hold ⊢
      rw [hself]
      exact hold.grow hquiet hnew
    · rw [hother _ hp]
      exact hold
  · intro n c hc
    have hold := h.checks n c hc
    dsimp only
    by_cases hp : c.dataset.path = path
    · rw [hp] at hold ⊢
      rw [hself]
      cases hphase : c.phase with
      | keyed key =>
        rw [hphase] at hold
        exact hold
      | looking key measured =>
        rw [hphase] at hold
        exact ⟨hold.1, fun f hf => List.mem_cons_of_mem _ (hold.2 f hf)⟩
    · rw [hother _ hp]
      exact hold
  · intro p i hi
    have hcached := h.cached p i hi
    by_cases hp : p = path
    · subst hp
      have hold : ∀ f ∈ file :: s.files p, i.validity = some f.heuristic → f ∈ s.files p := by
        intro f hf hv
        rcases List.mem_cons.1 hf with rfl | hf
        · exact absurd (hcached.known _ hv) hfresh
        · exact hf
      refine ⟨?_, ?_, ?_⟩
      · intro v hv
        dsimp only
        rw [hself, List.map_cons]
        exact List.mem_cons_of_mem _ (hcached.known v hv)
      · intro f hf hv
        dsimp only at hf
        rw [hself] at hf
        exact hcached.key f (hold f hf hv) hv
      · intro f hf hv
        dsimp only at hf ⊢
        rw [hself] at hf ⊢
        rcases hcached.index f (hold f hf hv) hv with hscanned | ⟨-, hnot⟩
        · exact .inl hscanned
        · exact .inr ⟨hnew f (hold f hf hv), hnot⟩
    · refine ⟨?_, ?_, ?_⟩ <;> dsimp only <;> rw [hother p hp]
      · exact hcached.known
      · exact hcached.key
      · exact hcached.index

theorem insert (h : Sound w s) (hs : s.insert n = some s')
    (hovertaken : ∀ b key f index, s.builds.get n = some b → b.phase = .built key (some f) index →
      (s.files b.dataset.path).head? = some f ∨ ¬s.Pending b.dataset.path f) : Sound w s' := by
  unfold IndexState.insert at hs
  split at hs
  · next b hb =>
    split at hs
    · next key measured index hphase =>
      cases hs
      have hsound := h.builds n b hb
      rw [hphase] at hsound
      obtain ⟨hkeyed, hscan⟩ := hsound
      have hdrop := h.drop n
      have hpending : ∀ p f, Pending { s with
          cache := s.cache.set b.dataset.path ⟨key, measured.map File.heuristic, index⟩
          builds := s.builds.delete n } p f → s.Pending p f := by
        rintro p f (⟨m, c, key, hc, hrest⟩ | hcheck)
        · rw [OrderedMap.get_delete] at hc
          split_ifs at hc
          exact .inl ⟨m, c, key, hc, hrest⟩
        · exact .inr hcheck
      -- What was measured is the one content with its length and time.
      have hsame : ∀ f ∈ s.files b.dataset.path,
          measured.map File.heuristic = some f.heuristic → measured = some f := by
        intro f hf hv
        obtain ⟨f', hf', heq⟩ := Option.map_eq_some_iff.1 hv
        have := List.inj_on_of_nodup_map (h.heuristics _) (hkeyed f' hf').1 hf heq
        rw [hf', this]
      refine { hdrop with cached := ?_ }
      intro p i hi
      dsimp only at hi
      rw [OrderedMap.get_set] at hi
      split_ifs at hi with hp
      · cases hi
        subst hp
        refine ⟨?_, ?_, ?_⟩
        · intro v hv
          obtain ⟨f, hf, rfl⟩ := Option.map_eq_some_iff.1 hv
          exact List.mem_map_of_mem (hkeyed f hf).1
        · intro f hf hv
          have hkey := (hkeyed f (hsame f hf hv)).2
          dsimp only
          rw [hkey]
          rfl
        · intro f hf hv
          have hm := hsame f hf hv
          have hcolumn : key.idColumn = b.dataset.sourceColumn := by
            rw [(hkeyed f hm).2]
            rfl
          dsimp only
          rw [hcolumn]
          by_cases hhead : (s.files b.dataset.path).head? = some f
          · exact .inl (hscan f hm hhead)
          · rw [hm] at hphase
            refine .inr ⟨hhead, fun hpend => ?_⟩
            rcases hovertaken b key f index hb hphase with hcur | hnot
            · exact hhead hcur
            · exact hnot (hpending _ _ hpend)
      · have hcached := h.cached p i hi
        refine ⟨hcached.known, hcached.key, fun f hf hv => ?_⟩
        rcases hcached.index f hf hv with hscanned | ⟨hhead, hnot⟩
        · exact .inl hscanned
        · exact .inr ⟨hhead, fun hpend => hnot (hpending _ _ hpend)⟩
    · cases hs
  · cases hs

theorem step (h : Sound w s) {e : IndexEvent} (he : Undisturbed s e) (hs : s.step w e = some s') :
    Sound w s' := by
  cases e with
  | modify path file => exact h.modify hs he
  | begin n dataset => exact h.begin hs
  | read n bytes => exact h.read hs
  | measure n readable => exact h.measure hs
  | look n => exact h.look hs
  | openScan n => exact h.openScan hs
  | scanChunk n chunk => exact h.scanChunk hs
  | finish n polls => exact h.finish hs
  | insert n => exact h.insert hs he
  | fail n =>
    cases hs
    exact h.drop n
  | check n dataset => exact h.check hs
  | measureCheck n readable => exact h.measureCheck hs
  | lookCheck n => exact h.lookCheck hs

end Sound

end IndexState

/-- **What the cache serves describes the file.**  After any steps of any calls over any datasets,
where none of them changes a file between its hash and its measure or inserts an overtaken index
between the halves of a check, every answer of the cache is truthful. -/
theorem run_truthful (w : Scanner) {files : Path → List File}
    (hfiles : ∀ p, ((files p).map File.heuristic).Nodup) {es : List IndexEvent} {s : IndexState}
    (hes : Meets (IndexState.step w) Undisturbed (.start files) es)
    (hs : runFrom (IndexState.step w) (.start files) es = some s) :
    ∀ a ∈ s.answers, a.Truthful w :=
  (runFrom_keeps (IndexState.sound_start w files hfiles) (fun _ _ _ ht he hstep => ht.step he hstep)
    hes hs).answers

/-! ### Some runs -/

/-- Every byte is a letter of the hash and a feature at the origin. -/
def letters : Scanner where
  digest bytes := String.ofList (bytes.map fun b => Char.ofNat b.toNat)
  rows bytes _ := [bytes.map fun b => ⟨UInt64.ofNat b.toNat, ⟨0, 0, 0, 0⟩⟩]

def parcels : Path := ⟨[.normal "parcels"]⟩

/-- The file at first, and after its change. -/
def first : File := ⟨[97], some 1⟩

def second : File := ⟨[98], some 2⟩

/-- Hash the first content. -/
def hashFirst (n : Nat) (column : String) : List IndexEvent :=
  [.begin n ⟨parcels, column⟩, .read n [97], .read n []]

/-- Measure the file, miss in the cache, and open the file again. -/
def measureAndMiss (n : Nat) : List IndexEvent := [.measure n true, .look n, .openScan n]

/-- Scan the byte and insert what was built. -/
def scanAndInsert (n : Nat) (byte : UInt8) : List IndexEvent :=
  [.scanChunk n [⟨UInt64.ofNat byte.toNat, ⟨0, 0, 0, 0⟩⟩],
    .finish n (List.replicate 5 ⟨.isCancelled, false⟩), .insert n]

/-- An index is built and then asked for. -/
def builtAndServed : List IndexEvent :=
  hashFirst 0 "id" ++ measureAndMiss 0 ++ scanAndInsert 0 97 ++
    [.check 0 ⟨parcels, "id"⟩, .measureCheck 0 true, .lookCheck 0]

theorem run_truthful_served : ∃ s,
    runFrom (IndexState.step letters) (.start fun _ => [first]) builtAndServed = some s ∧
      (∃ a ∈ s.answers, ∃ i, a.result = .ok i) ∧ ∀ a ∈ s.answers, a.Truthful letters := by
  have hes : Meets (IndexState.step letters) Undisturbed (.start fun _ => [first])
      builtAndServed := by
    refine .cons trivial rfl (.cons trivial rfl (.cons trivial rfl (.cons trivial rfl ?_)))
    refine .cons trivial rfl (.cons trivial rfl (.cons trivial rfl (.cons trivial rfl ?_)))
    refine .cons ?_ rfl (.cons trivial rfl (.cons trivial rfl (.cons trivial rfl meets_nil)))
    rintro b key f index hb hphase
    cases hb
    cases hphase
    exact .inl rfl
  obtain ⟨s, hs, hserved⟩ : ∃ s,
      runFrom (IndexState.step letters) (.start fun _ => [first]) builtAndServed = some s ∧
        ∃ a ∈ s.answers, ∃ i, a.result = .ok i :=
    ⟨_, rfl, _, List.mem_cons_of_mem _ (List.mem_singleton.2 rfl), _, rfl⟩
  have hfiles : ∀ p : Path, (((fun _ => [first]) p : List File).map File.heuristic).Nodup :=
    fun _ => List.nodup_singleton _
  exact ⟨s, hs, hserved, run_truthful letters hfiles hes hs⟩

/-- The file changes between its hash and its measure. -/
def changedAfterHash : List IndexEvent :=
  hashFirst 0 "id" ++ [.modify parcels second] ++ measureAndMiss 0 ++ scanAndInsert 0 98 ++
    [.check 0 ⟨parcels, "id"⟩, .measureCheck 0 true, .lookCheck 0]

/-- The file changes under a scan, and the index is inserted between the halves of a check that had
the hash from the index of another column. -/
def changedUnderScan : List IndexEvent :=
  hashFirst 0 "other" ++ measureAndMiss 0 ++ scanAndInsert 0 97 ++
    [.check 0 ⟨parcels, "id"⟩, .measureCheck 0 true] ++ hashFirst 1 "id" ++ measureAndMiss 1 ++
    [.modify parcels second] ++ scanAndInsert 1 98 ++ [.lookCheck 0]

theorem not_truthful {w : Scanner} {a : CacheAnswer} {i : CachedIndex} {f : File}
    (hfound : a.found = some i) (hresult : a.result = .ok i) (hmeasured : a.measured = some f)
    (hno : ¬BuiltFrom w a.dataset.sourceColumn f i) : ¬a.Truthful w := by
  unfold CacheAnswer.Truthful
  rw [hfound, hresult, hmeasured]
  rintro (⟨-, f', hf', hbuilt⟩ | h | h)
  · cases hf'
    exact hno hbuilt
  · cases h
  · cases h

theorem changed_untruthful :
    (∃ s, runFrom (IndexState.step letters) (.start fun _ => [first]) changedAfterHash = some s ∧
      ∃ a ∈ s.answers, ¬a.Truthful letters) ∧
    ∃ s, runFrom (IndexState.step letters) (.start fun _ => [first]) changedUnderScan = some s ∧
      ∃ a ∈ s.answers, ¬a.Truthful letters := by
  constructor
  · refine ⟨_, rfl, _, List.mem_cons_of_mem _ (List.mem_singleton.2 rfl), ?_⟩
    refine not_truthful rfl rfl rfl fun hbuilt => ?_
    exact absurd hbuilt.key (by decide)
  · refine ⟨_, rfl, _, List.mem_cons_of_mem _ (List.mem_cons_of_mem _ (List.mem_singleton.2 rfl)), ?_⟩
    refine not_truthful rfl rfl rfl fun hbuilt => ?_
    obtain ⟨polls, hrun⟩ := hbuilt.index
    exact absurd (build_runs hrun).same (by decide)

end SpatialIde.Engine
