import SpatialIde.Kernel.Permission.Audit.Log

/-! # What the audit log keeps

Over every run of opens and appends, whichever operations of the file system fail, the files hold
the writes in their order, less whole files of the oldest.  An acknowledged line is one of its own
where it was not put behind the rest of an append that had failed.
-/

namespace SpatialIde.Kernel.Permission.Audit.Log

open Lib SpatialIde.Renderer

structure State where
  disk : Disk
  /-- Every write that an append has made. -/
  appends : List Write

inductive Event where
  | opened (env : Environment) (destination : OsPath) (answers : Answers)
  | append (record : Record) (written : Written)

/-- One call, of the log at one path. -/
def step (display : Nat → String) (normalize : OsPath → String) (path : OsPath) (s : State) :
    Event → Option State
  | .opened env destination answers =>
    match resolveLogPath env with
    | .ok p =>
      if p = path then
        some { s with disk := (openFor display normalize env destination answers s.disk).1 }
      else none
    | .error _ => some { s with disk := (openFor display normalize env destination answers s.disk).1 }
  | .append record written =>
    some
      ⟨(append display record written s.disk).1,
        match lineOf record with
        | .ok line => s.appends ++ (writeOf line written).toList
        | .error _ => s.appends⟩

/-! ### The statement -/

/-- The lines of a file are the acknowledged ones, in their order, and between them the bytes of the
appends that failed, in theirs. -/
def Accounts (file : List Write) : Prop :=
  ∃ tagged : List (Bool × List UInt8),
    splitInclusive LF (bytesOf file) = tagged.map Prod.snd ∧
      (tagged.filter (·.1)).map Prod.snd = (file.filter (·.acknowledged)).map Write.bytes ∧
      ((tagged.filter (!·.1)).map Prod.snd).flatten = bytesOf (file.filter (!·.acknowledged))

namespace Disk

/-- The writes of the files below a number, the oldest first. -/
def newer (d : Disk) : Nat → List Write
  | 0 => []
  | n + 1 => d.file n ++ d.newer n

/-- The writes of the generations and of the live file. -/
def held (d : Disk) : List Write := d.newer (MAX_AUDIT_LOG_GENERATIONS + 1)

end Disk

/-- A generation that seems not to exist, and onto which the file before it is moved. -/
def Overwritten (a : Answers) (d : Disk) (n : Nat) : Prop :=
  1 ≤ n ∧ d.files n ≠ none ∧ a.probeFails n = true ∧ (n = 1 ∨ a.exists d (n - 1) = true)

/-- The live file has nothing in it, or ends with a line. -/
def EndsLine (d : Disk) : Prop :=
  bytesOf (d.file 0) = [] ∨ (bytesOf (d.file 0)).getLast? = some LF

/-- A generation is overwritten only where no older one is left, and what is acknowledged starts a
line. -/
def Tidy (s : State) : Event → Prop
  | .opened _ _ a => Full a s.disk → ∀ n, Overwritten a s.disk n → ∀ m, n < m →
      s.disk.files m = none ∨ m = MAX_AUDIT_LOG_GENERATIONS ∧ a.probeFails m = false
  | .append _ .done => EndsLine s.disk
  | .append _ _ => True

/-! ### Lines of a file -/

/-- Lines with their LF, and what follows them. -/
theorem splitInclusive_ended {lines : List (List UInt8)} (h : ∀ l ∈ lines, ∃ t, LF ∉ t ∧ l = t ++ [LF])
    (rest : List UInt8) :
    splitInclusive LF (lines.flatten ++ rest) = lines ++ splitInclusive LF rest := by
  induction lines with
  | nil => rfl
  | cons l lines ih =>
    obtain ⟨t, ht, rfl⟩ := h l List.mem_cons_self
    have hlines : ∀ l ∈ lines, ∃ t, LF ∉ t ∧ l = t ++ [LF] :=
      fun l hl => h l (List.mem_cons_of_mem _ hl)
    rw [List.flatten_cons, List.append_assoc, List.append_assoc, List.singleton_append,
      splitInclusive_line ht, ih hlines]
    rfl

/-- What ends with a line is cut into lines. -/
theorem ended_splitInclusive {s : List UInt8} (h : s = [] ∨ s.getLast? = some LF) :
    ∀ l ∈ splitInclusive LF s, ∃ t, LF ∉ t ∧ l = t ++ [LF] := by
  induction s using lines_induction LF with
  | nil => exact fun l hl => absurd hl List.not_mem_nil
  | torn s hne hs =>
    have hlast := h.resolve_left hne
    exact absurd (List.mem_of_getLast? hlast) hs
  | line t s ht ih =>
    have hrest : s = [] ∨ s.getLast? = some LF := by
      by_cases hs : s = []
      · exact .inl hs
      · refine .inr ?_
        have hlast := h.resolve_left (by simp)
        rwa [List.getLast?_append_of_ne_nil _ (by simp), List.getLast?_cons_of_ne_nil hs] at hlast
    intro l hl
    rw [splitInclusive_line ht] at hl
    rcases List.mem_cons.1 hl with rfl | hl
    · exact ⟨t, ht, rfl⟩
    · exact ih hrest l hl

/-- The lines of a file up to its last acknowledged one, and the bytes behind them. -/
structure Readable (file : List Write) : Prop where
  reads : ∃ (tagged : List (Bool × List UInt8)) (rest : List UInt8),
    bytesOf file = (tagged.map Prod.snd).flatten ++ rest ∧
      (∀ l ∈ tagged.map Prod.snd, ∃ t, LF ∉ t ∧ l = t ++ [LF]) ∧
      (tagged.filter (·.1)).map Prod.snd = (file.filter (·.acknowledged)).map Write.bytes ∧
      ((tagged.filter (!·.1)).map Prod.snd).flatten ++ rest =
        bytesOf (file.filter (!·.acknowledged))

theorem filter_untagged (lines : List (List UInt8)) :
    (lines.map (Prod.mk false)).filter (·.1) = [] ∧
      (lines.map (Prod.mk false)).filter (!·.1) = lines.map (Prod.mk false) := by
  constructor
  · refine List.filter_eq_nil_iff.2 fun p hp => ?_
    obtain ⟨l, -, rfl⟩ := List.mem_map.1 hp
    exact Bool.false_ne_true
  · refine List.filter_eq_self.2 fun p hp => ?_
    obtain ⟨l, -, rfl⟩ := List.mem_map.1 hp
    rfl

theorem map_snd_untagged (lines : List (List UInt8)) :
    (lines.map (Prod.mk false)).map Prod.snd = lines := by
  rw [List.map_map]
  exact List.map_id lines

theorem bytesOf_snoc (file : List Write) (w : Write) : bytesOf (file ++ [w]) = bytesOf file ++ w.bytes := by
  rw [bytesOf, List.map_append, List.flatten_append]
  exact congrArg (bytesOf file ++ ·) (List.append_nil _)

theorem Readable.accounts {file : List Write} (h : Readable file) : Accounts file := by
  obtain ⟨tagged, rest, hbytes, hended, hacknowledged, hfailed⟩ := h.reads
  obtain ⟨hnone, hall⟩ := filter_untagged (splitInclusive LF rest)
  refine ⟨tagged ++ (splitInclusive LF rest).map (Prod.mk false), ?_, ?_, ?_⟩
  · rw [hbytes, splitInclusive_ended hended, List.map_append, map_snd_untagged]
  · rw [List.filter_append, hnone, List.append_nil]
    exact hacknowledged
  · rw [List.filter_append, hall, List.map_append, map_snd_untagged, List.flatten_append,
      flatten_splitInclusive]
    exact hfailed

theorem readable_nil : Readable [] := ⟨[], [], rfl, fun _ h => absurd h List.not_mem_nil, rfl, rfl⟩

theorem Readable.failed {file : List Write} (h : Readable file) (bytes : List UInt8) :
    Readable (file ++ [⟨bytes, false⟩]) := by
  obtain ⟨tagged, rest, hbytes, hended, hacknowledged, hfailed⟩ := h.reads
  refine ⟨tagged, rest ++ bytes, ?_, hended, ?_, ?_⟩
  · rw [bytesOf_snoc, hbytes, List.append_assoc]
  · rw [List.filter_append]
    exact hacknowledged.trans (congrArg (List.map Write.bytes) (List.append_nil _).symm)
  · rw [List.filter_append, ← List.append_assoc, hfailed]
    exact (bytesOf_snoc _ ⟨bytes, false⟩).symm

theorem Readable.acknowledged {file : List Write} (h : Readable file)
    (hends : bytesOf file = [] ∨ (bytesOf file).getLast? = some LF) {line : List UInt8}
    (hline : LF ∉ line) : Readable (file ++ [⟨line ++ [LF], true⟩]) := by
  obtain ⟨tagged, rest, hbytes, hended, hacknowledged, hfailed⟩ := h.reads
  have hrest : rest = [] ∨ rest.getLast? = some LF := by
    by_cases hnil : rest = []
    · exact .inl hnil
    · refine .inr ?_
      rw [hbytes, List.append_eq_nil_iff] at hends
      have hlast := hends.resolve_left fun hboth => hnil hboth.2
      rwa [List.getLast?_append_of_ne_nil _ hnil] at hlast
  obtain ⟨hnone, hall⟩ := filter_untagged (splitInclusive LF rest)
  refine ⟨tagged ++ (splitInclusive LF rest).map (Prod.mk false) ++ [(true, line ++ [LF])], [],
    ?_, ?_, ?_, ?_⟩
  · rw [bytesOf_snoc, hbytes, List.map_append, List.map_append, map_snd_untagged,
      List.flatten_append, List.flatten_append, flatten_splitInclusive, List.append_nil]
    exact congrArg _ (List.append_nil _).symm
  · intro l hl
    rw [List.map_append, List.map_append, map_snd_untagged] at hl
    rcases List.mem_append.1 hl with hl | hl
    · rcases List.mem_append.1 hl with hl | hl
      · exact hended l hl
      · exact ended_splitInclusive hrest l hl
    · exact ⟨line, hline, List.mem_singleton.1 hl⟩
  · rw [List.filter_append, List.filter_append, hnone, List.append_nil, List.map_append,
      hacknowledged, List.filter_append, List.map_append]
    rfl
  · rw [List.filter_append, List.filter_append, hall, List.map_append, List.map_append,
      map_snd_untagged, List.flatten_append, List.flatten_append, flatten_splitInclusive, hfailed,
      List.filter_append]
    exact (List.append_nil _).trans ((List.append_nil _).trans
      (congrArg bytesOf (List.append_nil _).symm))

/-! ### The files -/

namespace Disk

variable {d : Disk} {n : Nat}

/-- Nothing that was written is gone but the lost files, which are older than what is held. -/
structure Sound (appends : List Write) (d : Disk) : Prop where
  ordered : appends = d.lost.flatten ++ d.held
  bounded : ∀ n, MAX_AUDIT_LOG_GENERATIONS < n → d.files n = none
  readable : ∀ n file, d.files n = some file → Readable file

theorem held_eq (d : Disk) :
    d.held = d.file 4 ++ (d.file 3 ++ (d.file 2 ++ (d.file 1 ++ (d.file 0 ++ [])))) := rfl

theorem file_of_none (h : d.files n = none) : d.file n = [] := by rw [file, h]; rfl

/-- A file that is lost, where there is one. -/
theorem flatten_lost (d : Disk) (n : Nat) :
    (d.lost ++ (d.files n).toList).flatten = d.lost.flatten ++ d.file n := by
  rw [List.flatten_append, file]
  cases d.files n <;> simp

theorem files_update (d : Disk) (n : Nat) (f : Option (List Write)) (lost : List (List Write))
    (m : Nat) :
    (Disk.mk (Function.update d.files n f) lost).files m = if m = n then f else d.files m :=
  Function.update_apply d.files n f m

theorem file_update (d : Disk) (n : Nat) (f : Option (List Write)) (lost : List (List Write))
    (m : Nat) :
    (Disk.mk (Function.update d.files n f) lost).file m = if m = n then f.getD [] else d.file m := by
  change (Function.update d.files n f m).getD [] = _
  rw [Function.update_apply]
  split <;> rfl

theorem file_rename (d : Disk) (n m : Nat) :
    (d.rename n).file m = if m = n then [] else if m = n + 1 then d.file n else d.file m := by
  change (Function.update (Function.update d.files (n + 1) (d.files n)) n none m).getD [] = _
  rw [Function.update_apply, Function.update_apply]
  split
  · rfl
  · split <;> rfl

/-- The file that is overwritten is the oldest one, or there is none. -/
theorem held_rename (hn : n < MAX_AUDIT_LOG_GENERATIONS)
    (h : d.files (n + 1) = none ∨ ∀ m, n + 1 < m → d.files m = none) :
    (d.rename n).lost.flatten ++ (d.rename n).held = d.lost.flatten ++ d.held := by
  change (d.lost ++ (d.files (n + 1)).toList).flatten ++ (d.rename n).held = _
  rw [flatten_lost, List.append_assoc, List.append_cancel_left_eq, held_eq, held_eq]
  simp only [file_rename]
  have hcases : n = 0 ∨ n = 1 ∨ n = 2 ∨ n = 3 := by
    have hmax : MAX_AUDIT_LOG_GENERATIONS = 4 := rfl
    omega
  rcases h with h | h
  · have hnone := file_of_none h
    rcases hcases with rfl | rfl | rfl | rfl <;> simp_all
  · have hnone : ∀ m, n + 1 < m → d.file m = [] := fun m hm => file_of_none (h m hm)
    rcases hcases with rfl | rfl | rfl | rfl <;> simp [hnone]

theorem files_rename (d : Disk) (n m : Nat) :
    (d.rename n).files m = if m = n then none else if m = n + 1 then d.files n else d.files m := by
  change Function.update (Function.update d.files (n + 1) (d.files n)) n none m = _
  rw [Function.update_apply, Function.update_apply]

theorem Sound.rename {appends : List Write} (hd : Sound appends d)
    (hn : n < MAX_AUDIT_LOG_GENERATIONS)
    (h : d.files (n + 1) = none ∨ ∀ m, n + 1 < m → d.files m = none) :
    Sound appends (d.rename n) where
  ordered := hd.ordered.trans (held_rename hn h).symm
  bounded := by
    intro m hm
    rw [files_rename, if_neg (by omega), if_neg (by omega)]
    exact hd.bounded m hm
  readable := by
    intro m file hfile
    rw [files_rename] at hfile
    split at hfile
    · cases hfile
    · split at hfile
      · exact hd.readable n file hfile
      · exact hd.readable m file hfile

theorem Sound.remove {appends : List Write} (hd : Sound appends d) :
    Sound appends (d.remove MAX_AUDIT_LOG_GENERATIONS) where
  ordered := by
    have hfile : ∀ m, (d.remove MAX_AUDIT_LOG_GENERATIONS).file m = if m = 4 then [] else d.file m :=
      file_update d _ none _
    change appends = (d.lost ++ (d.files 4).toList).flatten ++
      (d.remove MAX_AUDIT_LOG_GENERATIONS).held
    rw [flatten_lost, hd.ordered, held_eq, held_eq, List.append_assoc]
    simp only [hfile]
    rfl
  bounded := by
    intro m hm
    rw [Disk.remove, files_update, if_neg (by omega)]
    exact hd.bounded m hm
  readable := by
    intro m file hfile
    rw [Disk.remove, files_update] at hfile
    split at hfile
    · cases hfile
    · exact hd.readable m file hfile

/-- Another live file. -/
theorem Sound.relive {appends more file : List Write} (hd : Sound appends d)
    (hfile : file = d.file 0 ++ more) (hreadable : Readable file) :
    Sound (appends ++ more) { d with files := Function.update d.files 0 (some file) } where
  ordered := by
    rw [hd.ordered, held_eq, held_eq]
    simp only [file_update]
    simp [hfile]
  bounded := by
    intro m hm
    rw [files_update, if_neg (by omega)]
    exact hd.bounded m hm
  readable := by
    intro m f hf
    rw [files_update] at hf
    split at hf
    · cases hf
      exact hreadable
    · exact hd.readable m f hf

theorem Sound.readable_file {appends : List Write} (hd : Sound appends d) (n : Nat) :
    Readable (d.file n) := by
  cases hfile : d.files n with
  | none =>
    rw [file_of_none hfile]
    exact readable_nil
  | some file =>
    rw [Disk.file, hfile]
    exact hd.readable n file hfile

theorem Sound.create {appends : List Write} (hd : Sound appends d) : Sound appends d.create := by
  have hcreate : Sound (appends ++ []) d.create :=
    hd.relive (List.append_nil _).symm (hd.readable_file 0)
  rwa [List.append_nil] at hcreate

theorem sound_empty : Sound [] Disk.empty := ⟨rfl, fun _ _ => rfl, nofun⟩

end Disk

/-! ### Rotations -/

section

open Disk

variable {display : Nat → String} {a : Answers} {d : Disk} {appends : List Write}

/-- What is left to shift is overwritten only where no older generation is left. -/
def Shiftable (a : Answers) (d : Disk) (n : Nat) : Prop :=
  ∀ k, k ≤ n → Overwritten a d k → ∀ m, k < m → d.files m = none

/-- The place of the next file is free, or holds the oldest one. -/
def Placed (a : Answers) (d : Disk) (n : Nat) : Prop :=
  n = 0 ∨ a.exists d n = true → d.files (n + 1) = none ∨ ∀ m, n + 1 < m → d.files m = none

theorem exists_eq_true {n : Nat} :
    a.exists d n = true ↔ d.files n ≠ none ∧ a.probeFails n = false := by
  rw [Answers.exists, Bool.and_eq_true, Option.isSome_iff_ne_none, Bool.not_eq_true']

theorem exists_rename {n k : Nat} (hk : k < n) : a.exists (d.rename n) k = a.exists d k := by
  rw [Answers.exists, Answers.exists, files_rename, if_neg (by omega), if_neg (by omega)]

/-- The chain of renames, which may stop anywhere. -/
theorem sound_shift (n : Nat) (hn : n < MAX_AUDIT_LOG_GENERATIONS) (hd : Sound appends d)
    (hshift : Shiftable a d n) (hplaced : Placed a d n) :
    Sound appends (shift display a d n).1 ∧
      ((shift display a d n).2 = .ok () → Placed a (shift display a d n).1 0) := by
  induction n generalizing d with
  | zero => exact ⟨hd, fun _ => hplaced⟩
  | succ n ih =>
    rw [shift]
    split
    · next hexists =>
      split
      · exact ⟨hd, nofun⟩
      · -- The file moves, and its place is free.
        refine ih (by omega) (hd.rename hn (hplaced (.inr hexists))) ?_ ?_
        · intro k hk hoverwritten m hm
          obtain ⟨hone, hfile, hfails, hsource⟩ := hoverwritten
          rw [files_rename, if_neg (by omega), if_neg (by omega)] at hfile
          rw [exists_rename (by omega)] at hsource
          have hnone := hshift k (by omega) ⟨hone, hfile, hfails, hsource⟩ (n + 1) (by omega)
          exact absurd hnone (exists_eq_true.1 hexists).1
        · intro _
          rw [files_rename, if_pos rfl]
          exact .inl rfl
    · next hexists =>
      refine ih (by omega) hd (fun k hk => hshift k (by omega)) fun hsource => ?_
      by_cases hfile : d.files (n + 1) = none
      · exact .inl hfile
      · -- It is there, and its probe has failed.
        have hfails : a.probeFails (n + 1) = true := by
          rw [exists_eq_true, not_and, Bool.not_eq_false] at hexists
          exact hexists hfile
        refine .inr (hshift (n + 1) (Nat.le_refl _) ⟨Nat.le_add_left 1 n, hfile, hfails, ?_⟩)
        rcases hsource with rfl | hsource
        · exact .inl rfl
        · exact .inr hsource

theorem sound_rotate (hd : Sound appends d)
    (htidy : ∀ n, Overwritten a d n → ∀ m, n < m →
      d.files m = none ∨ m = MAX_AUDIT_LOG_GENERATIONS ∧ a.probeFails m = false) :
    Sound appends (rotate display a d).1 := by
  rw [rotate]
  split
  · exact hd
  · -- The oldest generation is gone, or cannot be seen.
    have hremoved : ∃ d', (if a.exists d MAX_AUDIT_LOG_GENERATIONS
        then d.remove MAX_AUDIT_LOG_GENERATIONS else d) = d' ∧ Sound appends d' ∧
        (∀ m, m < MAX_AUDIT_LOG_GENERATIONS → d'.files m = d.files m) ∧
        (d'.files MAX_AUDIT_LOG_GENERATIONS = none ∨
          a.probeFails MAX_AUDIT_LOG_GENERATIONS = true ∧
            d'.files MAX_AUDIT_LOG_GENERATIONS = d.files MAX_AUDIT_LOG_GENERATIONS) := by
      refine ⟨_, rfl, ?_⟩
      split
      · refine ⟨hd.remove, fun m hm => ?_, .inl ?_⟩
        · rw [remove, files_update, if_neg (by omega)]
        · rw [remove, files_update, if_pos rfl]
      · next hexists =>
        refine ⟨hd, fun m _ => rfl, ?_⟩
        rw [exists_eq_true, not_and, Bool.not_eq_false] at hexists
        by_cases hfile : d.files MAX_AUDIT_LOG_GENERATIONS = none
        · exact .inl hfile
        · exact .inr ⟨hexists hfile, rfl⟩
    obtain ⟨d', heq, hsound, hbelow, holdest⟩ := hremoved
    dsimp only
    rw [heq]
    have hmax : MAX_AUDIT_LOG_GENERATIONS = 4 := rfl
    have hshift : Shiftable a d' (MAX_AUDIT_LOG_GENERATIONS - 1) := by
      intro k hk hoverwritten m hm
      obtain ⟨hone, hfile, hfails, hsource⟩ := hoverwritten
      rw [hbelow k (by omega)] at hfile
      rw [Answers.exists, hbelow (k - 1) (by omega)] at hsource
      rcases Nat.lt_trichotomy m MAX_AUDIT_LOG_GENERATIONS with hlt | rfl | hgt
      · rw [hbelow m hlt]
        rcases htidy k ⟨hone, hfile, hfails, hsource⟩ m hm with hnone | ⟨rfl, -⟩
        · exact hnone
        · omega
      · rcases holdest with hnone | ⟨hfails', hsame⟩
        · exact hnone
        · rcases htidy k ⟨hone, hfile, hfails, hsource⟩ _ hm with hnone | ⟨-, hanswers⟩
          · exact hsame.trans hnone
          · exact absurd (hfails'.symm.trans hanswers) nofun
      · exact hsound.bounded m hgt
    have hplaced : Placed a d' (MAX_AUDIT_LOG_GENERATIONS - 1) :=
      fun _ => .inr fun m hm => hsound.bounded m (by omega)
    obtain ⟨hafter, hlive⟩ := @sound_shift display _ _ _ _ (by omega) hsound hshift hplaced
    split
    · next hstop =>
      rw [hstop] at hafter
      exact hafter
    · next hok =>
      rw [hok] at hafter hlive
      split
      · exact hafter
      · exact hafter.rename (by omega) (hlive rfl (.inl rfl))

end

/-! ### Runs -/

section

open Disk

variable {display : Nat → String} {normalize : OsPath → String}

/-- A canonical line holds no LF. -/
theorem no_break_of_lineOf {r : Record} {line : String} (h : lineOf r = .ok line) :
    LF ∉ Text.bytes line := by
  obtain ⟨draft, -, h⟩ := bind_eq_ok.1 h
  obtain ⟨text, -, h⟩ := bind_eq_ok.1 h
  obtain ⟨residual, -, h⟩ := bind_eq_ok.1 h
  obtain ⟨j, -, h⟩ := bind_eq_ok.1 h
  obtain ⟨line', hline, h⟩ := bind_eq_ok.1 h
  obtain ⟨found, -, h⟩ := bind_eq_ok.1 h
  cases h
  rw [canonical] at hline
  split at hline
  · next text htext =>
    cases hline
    obtain ⟨-, hplain, -, -⟩ := toCanonicalString_faithful htext
    intro hmem
    obtain ⟨c, hc, heq⟩ := Text.mem_of_mem_bytes hmem (by decide)
    have hlow := hplain c hc
    have hvalue : c.toNat = 10 := heq
    omega
  · cases hline

theorem sound_openFor {appends : List Write} {env : Environment} {destination : OsPath}
    {a : Answers} {d : Disk} (hd : Sound appends d)
    (htidy : Full a d → ∀ n, Overwritten a d n → ∀ m, n < m →
      d.files m = none ∨ m = MAX_AUDIT_LOG_GENERATIONS ∧ a.probeFails m = false) :
    Sound appends (openFor display normalize env destination a d).1 := by
  have hrotate : Sound appends (rotateIfNeeded display a d).1 := by
    rw [rotateIfNeeded]
    split
    · next hfull => exact sound_rotate hd (htidy hfull)
    · exact hd
  rw [openFor]
  split
  · exact hd
  · split
    · exact hd
    · split
      · exact hd
      · split
        · next hstop =>
          rw [hstop] at hrotate
          exact hrotate
        · next hok =>
          rw [hok] at hrotate
          split
          · exact hrotate
          · exact hrotate.create

theorem Disk.Sound.write {appends : List Write} {d : Disk} (hd : Sound appends d) {w : Write}
    (h : Readable (d.file 0 ++ [w])) : Sound (appends ++ [w]) (d.write w) :=
  hd.relive rfl h

/-- One call. -/
theorem sound_step {path : OsPath} {s t : State} {e : Event} (h : Sound s.appends s.disk)
    (he : Tidy s e) (ht : step display normalize path s e = some t) : Sound t.appends t.disk := by
  cases e with
  | opened env destination a =>
    rw [step] at ht
    split at ht
    · split at ht
      · cases ht
        exact sound_openFor h he
      · cases ht
    · cases ht
      exact sound_openFor h he
  | append r written =>
    rw [step] at ht
    cases ht
    dsimp only
    rw [append]
    cases hline : lineOf r with
    | error e => exact h
    | ok line =>
      cases written with
      | done =>
        exact h.write ((h.readable_file 0).acknowledged he (no_break_of_lineOf hline))
      | notOpened detail =>
        have hsame : Sound (s.appends ++ []) s.disk := by rwa [List.append_nil]
        exact hsame
      | failed kept detail => exact h.write ((h.readable_file 0).failed _)

end

/-- **Every run of the log.**  Its files hold what was written, in its order, less whole files, the
oldest, and each of them accounts for its acknowledged lines. -/
theorem run_kept {display : Nat → String} {normalize : OsPath → String} {path : OsPath}
    {es : List Event} {s : State}
    (htidy : Meets (step display normalize path) Tidy ⟨.empty, []⟩ es)
    (hs : runFrom (step display normalize path) ⟨.empty, []⟩ es = some s) :
    s.appends = s.disk.lost.flatten ++ s.disk.held ∧
      ∀ n file, s.disk.files n = some file → Accounts file := by
  have hsound : s.disk.Sound s.appends :=
    runFrom_keeps (I := fun s => s.disk.Sound s.appends) Disk.sound_empty
      (fun _ _ _ h he ht => sound_step h he ht) htidy hs
  exact ⟨hsound.ordered, fun n file hfile => (hsound.readable n file hfile).accounts⟩

def sample : Record := ⟨fun _ => .ok (.str "a"), fun _ => .ok []⟩

/-- A data directory, and no override. -/
def machine : Environment := ⟨none, some (Text.bytes "/srv"), none⟩

def samplePath : OsPath :=
  join (join (join (Text.bytes "/srv") (Text.bytes "spatial-ide")) (Text.bytes "audit"))
    (Text.bytes "publish.jsonl")

/-- A record of `n` letters. -/
def long (n : Nat) : Record :=
  ⟨fun _ => .ok (.str (String.ofList (List.replicate n 'a'))), fun _ => .ok []⟩

theorem lineOf_long (n : Nat) :
    ∃ line, lineOf (long n) = .ok line ∧ n ≤ (Text.bytes line).length := by
  refine ⟨String.ofList (writeString (String.ofList (List.replicate n 'a'))), rfl, ?_⟩
  have hescape : escape 'a' = ['a'] := by decide
  rw [writeString, String.toList_ofList, List.map_replicate, hescape,
    List.flatten_replicate_singleton, Text.length_bytes]
  refine Nat.le_trans ?_ (Text.length_le_utf8ByteSize _)
  simp only [String.length_ofList, List.length_append, List.length_cons, List.length_replicate]
  omega

/-- A full file that is alone becomes the first generation. -/
theorem rotateIfNeeded_alone {display : Nat → String} {d : Disk} (hfull : Full .fine d)
    (halone : ∀ n, d.files (n + 1) = none) :
    rotateIfNeeded display .fine d = (d.rename 0, .ok ()) := by
  have hnone : ∀ n, Answers.fine.exists d (n + 1) = false := by
    intro n
    rw [Answers.exists, halone]
    rfl
  have hshift : ∀ n, shift display .fine d n = (d, .ok ()) := by
    intro n
    induction n with
    | zero => rfl
    | succ n ih => rw [shift, hnone, if_neg Bool.false_ne_true, ih]
  rw [rotateIfNeeded, if_pos hfull, rotate, MAX_AUDIT_LOG_GENERATIONS, hnone 3]
  simp only [Bool.false_eq_true, if_false, hshift]
  rfl

/-- A record that fills the file, and behind the rotation one whose write fails midway. -/
def interrupted : List Event :=
  [.append (long MAX_AUDIT_LOG_BYTES) .done, .opened machine (Text.bytes "/srv/out") .fine,
    .append sample (.failed 2 "no space left on device")]

def lineWritten (line : String) : Write := ⟨Text.bytes line ++ [LF], true⟩

/-- A step of that log. -/
abbrev logged : State → Event → Option State := step (fun _ => "log") (fun _ => "log") samplePath

theorem run_kept_interrupted : ∃ s line, runFrom logged ⟨.empty, []⟩ interrupted = some s ∧
      s.disk.files 1 = some [lineWritten line] ∧
      s.appends = s.disk.lost.flatten ++ s.disk.held ∧
      ∀ n file, s.disk.files n = some file → Accounts file := by
  obtain ⟨line, hline, hlong⟩ := lineOf_long MAX_AUDIT_LOG_BYTES
  obtain ⟨filled, hfilled⟩ : ∃ d, d = Disk.empty.write (lineWritten line) := ⟨_, rfl⟩
  have hfiles : filled.files = Function.update Disk.empty.files 0 (some [lineWritten line]) := by
    rw [hfilled]
    rfl
  have happend : logged ⟨.empty, []⟩ (.append (long MAX_AUDIT_LOG_BYTES) .done) =
      some ⟨filled, [lineWritten line]⟩ := by
    rw [logged, step, append, hline, hfilled]
    rfl
  have hfull : Full .fine filled := by
    refine ⟨by rw [hfiles]; exact Option.some_ne_none _, rfl, ?_⟩
    rw [Disk.file, hfiles]
    show MAX_AUDIT_LOG_BYTES ≤ (Text.bytes line ++ [LF] ++ []).length
    rw [List.length_append, List.length_append]
    omega
  have hrotated := @rotateIfNeeded_alone (fun _ => "log") filled hfull fun n => by
    rw [hfiles]
    rfl
  have hopened : logged ⟨filled, [lineWritten line]⟩
      (.opened machine (Text.bytes "/srv/out") .fine) =
        some ⟨(filled.rename 0).create, [lineWritten line]⟩ := by
    have hpath : resolveLogPath machine = .ok samplePath := rfl
    have hinside : isInside samplePath (Text.bytes "/srv/out") = false := by decide +kernel
    have hopen : openFor (fun _ => "log") (fun _ => "log") machine (Text.bytes "/srv/out") .fine
        filled = ((filled.rename 0).create, .ok samplePath) := by
      rw [openFor, hpath]
      dsimp only
      rw [if_neg (by rw [hinside]; exact Bool.false_ne_true), hrotated]
      rfl
    rw [logged, step, hpath, hopen]
    exact if_pos rfl
  obtain ⟨s, hlast, hmoved⟩ : ∃ s, logged ⟨(filled.rename 0).create, [lineWritten line]⟩
      (.append sample (.failed 2 "no space left on device")) = some s ∧
        s.disk.files 1 = filled.files 0 := ⟨_, rfl, rfl⟩
  have htidy : Meets logged Tidy ⟨.empty, []⟩ interrupted :=
    .cons (.inl rfl) happend <|
      .cons (fun _ _ hover => absurd hover.2.2.1 Bool.false_ne_true) hopened <|
      .cons trivial hlast meets_nil
  have hrun : runFrom logged ⟨.empty, []⟩ interrupted = some s := by
    simp only [interrupted, runFrom, List.foldlM_cons, List.foldlM_nil, happend, hopened, hlast,
      Option.bind_eq_bind, Option.bind_some, Option.pure_def]
  exact ⟨s, line, hrun, hmoved.trans (by rw [hfiles]; rfl), run_kept htidy hrun⟩

/-- The record behind the rest of one whose write had failed is no line of its own. -/
theorem run_glued : ∃ s,
    runFrom logged ⟨.empty, []⟩
        [.append sample (.failed 1 "no space left on device"), .append sample .done] = some s ∧
      s.disk.files 0 = some [⟨[0x22], false⟩, ⟨[0x22, 0x61, 0x22, LF], true⟩] ∧
      ¬Accounts [⟨[0x22], false⟩, ⟨[0x22, 0x61, 0x22, LF], true⟩] := by
  refine ⟨_, rfl, by decide +kernel, ?_⟩
  rintro ⟨tagged, hlines, hacknowledged, -⟩
  have hsplit : splitInclusive LF (bytesOf [⟨[0x22], false⟩, ⟨[0x22, 0x61, 0x22, LF], true⟩]) =
      [[0x22, 0x22, 0x61, 0x22, LF]] := by decide
  rw [hsplit] at hlines
  -- There is one line, and it is not the record's.
  have hmem : [0x22, 0x61, 0x22, LF] ∈ (tagged.filter (·.1)).map Prod.snd := by
    rw [hacknowledged]
    exact List.mem_cons_self
  obtain ⟨p, hp, heq⟩ := List.mem_map.1 hmem
  have hline : [0x22, 0x61, 0x22, LF] ∈ tagged.map Prod.snd :=
    List.mem_map.2 ⟨p, List.mem_of_mem_filter hp, heq⟩
  rw [← hlines] at hline
  exact absurd hline (by decide)

end SpatialIde.Kernel.Permission.Audit.Log
