import SpatialIde.Kernel.Bundle.Redaction
import SpatialIde.Kernel.Publish.Error
import SpatialIde.Lib.Sha256

/-! # The redaction gate of a publish

Every staged file is scanned before the rename, but for a file of the viewer whose bytes are those of
the viewer's build.
-/

namespace SpatialIde.Kernel.Bundle.Redaction

open Lib

/-- An error of the file system. -/
structure IoError where
  rawOsError : Option Int
  detail : String
  deriving DecidableEq, Repr

/-- What is staged: a file with its bytes, a directory with its entries, or one that cannot be read. -/
inductive Node where
  | file (bytes : List UInt8)
  | unreadable (e : IoError)
  | dir (entries : List (String × Node))
  | unlistable (e : IoError)

/-- The entries of a directory, as far as they can be listed. -/
abbrev Listing := Except IoError (List (String × Node))

/-- The name of a file in the bundle. -/
def relName (path : List String) : String :=
  String.ofList (("/".intercalate path).toList.map fun c => if c = '\\' then '/' else c)

/-- Where a walk is: what it has found, the directories it still has to list, the last of them first,
and how many files it has been asked about. -/
structure Walk where
  findings : List Finding
  stack : List (List String × Listing)
  asked : Nat

section

variable {E : Type} (machine : MachineIdentifiers) (beforeEachFile : Nat → Except E Unit)
  (skip : String → List UInt8 → Bool) (ioError : IoError → E) (firstOnly : Bool)

/-- One file.  The walk goes on, or stops with what it has found. -/
def visitFile (w : Walk) (path : List String) (read : Except IoError (List UInt8)) :
    Except E (Walk ⊕ List Finding) := do
  beforeEachFile w.asked
  let w := { w with asked := w.asked + 1 }
  let bytes ← read.mapError ioError
  if skip (relName path) bytes then return .inl w
  let found := scan (relName path) bytes machine
  if firstOnly then
    if found.any fun f => f.cls != OPERATOR_DECLARED then return .inr found else return .inl w
  else return .inl { w with findings := w.findings ++ found }

/-- One entry of a directory: a file is read, and a directory waits. -/
def visitEntry (dir : List String) (w : Walk) : String × Node → Except E (Walk ⊕ List Finding)
  | (name, .dir inner) => .ok (.inl { w with stack := (dir ++ [name], .ok inner) :: w.stack })
  | (name, .unlistable e) => .ok (.inl { w with stack := (dir ++ [name], .error e) :: w.stack })
  | (name, .file bytes) =>
    visitFile machine beforeEachFile skip ioError firstOnly w (dir ++ [name]) (.ok bytes)
  | (name, .unreadable e) =>
    visitFile machine beforeEachFile skip ioError firstOnly w (dir ++ [name]) (.error e)

/-- The entries of one directory. -/
def visitEntries (dir : List String) : List (String × Node) → Walk → Except E (Walk ⊕ List Finding)
  | [], w => .ok (.inl w)
  | e :: entries, w =>
    match visitEntry machine beforeEachFile skip ioError firstOnly dir w e with
    | .error e => .error e
    | .ok (.inr found) => .ok (.inr found)
    | .ok (.inl w) => visitEntries dir entries w

end

/-! ### The end of a walk -/

mutual

/-- How many directories there are, from a node on. -/
def Node.dirs : Node → Nat
  | .file _ => 0
  | .unreadable _ => 0
  | .dir entries => dirsIn entries + 1
  | .unlistable _ => 1

def dirsIn : List (String × Node) → Nat
  | [] => 0
  | (_, node) :: entries => node.dirs + dirsIn entries

end

def Listing.dirs : Listing → Nat
  | .ok entries => dirsIn entries + 1
  | .error _ => 1

/-- How many directories a walk still has to list. -/
def Walk.dirs (w : Walk) : Nat := (w.stack.map fun d => Listing.dirs d.2).sum

theorem dirsIn_eq (entries : List (String × Node)) :
    dirsIn entries = (entries.map fun e => e.2.dirs).sum := by
  induction entries with
  | nil => rfl
  | cons e entries ih => rw [dirsIn, ih, List.map_cons, List.sum_cons]

/-- The entries in the order of their paths. -/
def sortedByPath (entries : List (String × Node)) : List (String × Node) :=
  entries.mergeSort fun a b => a.1 ≤ b.1

theorem mem_sortedByPath {entries : List (String × Node)} {e : String × Node} :
    e ∈ sortedByPath entries ↔ e ∈ entries := List.mem_mergeSort

theorem dirsIn_sortedByPath (entries : List (String × Node)) :
    dirsIn (sortedByPath entries) = dirsIn entries := by
  rw [dirsIn_eq, dirsIn_eq]
  exact ((List.mergeSort_perm _ _).map _).sum_eq

section

variable {E : Type} {machine : MachineIdentifiers} {beforeEachFile : Nat → Except E Unit}
  {skip : String → List UInt8 → Bool} {ioError : IoError → E} {firstOnly : Bool}

/-- A walk that goes on behind a file has asked about it, and has nothing more to list. -/
theorem visitFile_inl {w w' : Walk} {path : List String} {read : Except IoError (List UInt8)}
    (h : visitFile machine beforeEachFile skip ioError firstOnly w path read = .ok (.inl w')) :
    w'.stack = w.stack ∧ w'.asked = w.asked + 1 := by
  rw [visitFile] at h
  cases hask : beforeEachFile w.asked with
  | error e =>
    rw [hask] at h
    cases h
  | ok u =>
    rw [hask] at h
    cases read with
    | error e => cases h
    | ok bytes =>
      dsimp only [bind, Except.bind, Except.mapError, pure, Except.pure] at h
      split at h
      · obtain rfl := Sum.inl.inj (Except.ok.inj h)
        exact ⟨rfl, rfl⟩
      · split at h
        · split at h
          · cases h
          · obtain rfl := Sum.inl.inj (Except.ok.inj h)
            exact ⟨rfl, rfl⟩
        · obtain rfl := Sum.inl.inj (Except.ok.inj h)
          exact ⟨rfl, rfl⟩

theorem visitEntry_dirs {dir : List String} {e : String × Node} {w w' : Walk}
    (h : visitEntry machine beforeEachFile skip ioError firstOnly dir w e = .ok (.inl w')) :
    w'.dirs = e.2.dirs + w.dirs := by
  obtain ⟨name, node⟩ := e
  cases node with
  | file bytes =>
    rw [Walk.dirs, (visitFile_inl h).1, Node.dirs, zero_add]
    rfl
  | unreadable e =>
    rw [Walk.dirs, (visitFile_inl h).1, Node.dirs, zero_add]
    rfl
  | dir inner =>
    obtain rfl := Sum.inl.inj (Except.ok.inj h)
    rw [Walk.dirs, List.map_cons, List.sum_cons, Node.dirs]
    rfl
  | unlistable e =>
    obtain rfl := Sum.inl.inj (Except.ok.inj h)
    rw [Walk.dirs, List.map_cons, List.sum_cons, Node.dirs]
    rfl

theorem visitEntries_dirs {dir : List String} {entries : List (String × Node)} {w w' : Walk}
    (h : visitEntries machine beforeEachFile skip ioError firstOnly dir entries w = .ok (.inl w')) :
    w'.dirs = dirsIn entries + w.dirs := by
  induction entries generalizing w with
  | nil =>
    obtain rfl := Sum.inl.inj (Except.ok.inj h)
    rw [dirsIn, zero_add]
  | cons e entries ih =>
    rw [visitEntries] at h
    split at h
    · cases h
    · cases h
    · next w₁ hvisited =>
      have hw₁ := visitEntry_dirs hvisited
      rw [ih h, dirsIn_eq, dirsIn_eq, List.map_cons, List.sum_cons]
      omega

end

section

variable {E : Type} (machine : MachineIdentifiers) (beforeEachFile : Nat → Except E Unit)
  (skip : String → List UInt8 → Bool) (ioError : IoError → E) (firstOnly : Bool)

/-- The directories one after another, each behind those it is in. -/
def walk (w : Walk) : Except E (List Finding) :=
  match _hstack : w.stack with
  | [] => .ok w.findings
  | (_, .error e) :: _ => .error (ioError e)
  | (dir, .ok entries) :: stack =>
    match _hvisited : visitEntries machine beforeEachFile skip ioError firstOnly dir
        (sortedByPath entries) { w with stack } with
    | .error e => .error e
    | .ok (.inr found) => .ok found
    | .ok (.inl w') => walk w'
termination_by w.dirs
decreasing_by
  have hdirs := visitEntries_dirs _hvisited
  rw [dirsIn_sortedByPath] at hdirs
  rw [hdirs, Walk.dirs, Walk.dirs, _hstack, List.map_cons, List.sum_cons, Listing.dirs]
  dsimp only
  omega

/-- A walk from the root of a bundle. -/
def Walk.start (root : Listing) : Walk := ⟨[], [([], root)], 0⟩

def firstUndeclaredFindings (root : Listing) : Except E (Option (String × List Finding)) := do
  let f ← walk machine beforeEachFile skip ioError true (.start root)
  let f := f.filter fun x => x.cls != OPERATOR_DECLARED
  let f := f.mergeSort fun x y => x.byteOffset ≤ y.byteOffset
  return match f with
    | [] => none
    | x :: _ => some (x.file, f)

end

/-! ### What passes -/

/-- What is at a path below the entries of a directory. -/
inductive At : List (String × Node) → List String → Node → Prop
  | here {entries name node} (h : (name, node) ∈ entries) : At entries [name] node
  | inside {entries name inner path node} (h : (name, .dir inner) ∈ entries) (hat : At inner path node) :
      At entries (name :: path) node

mutual

/-- How many files there are, from a node on. -/
def Node.files : Node → Nat
  | .file _ => 1
  | .unreadable _ => 1
  | .dir entries => filesIn entries
  | .unlistable _ => 0

def filesIn : List (String × Node) → Nat
  | [] => 0
  | (_, node) :: entries => node.files + filesIn entries

end

def Listing.files : Listing → Nat
  | .ok entries => filesIn entries
  | .error _ => 0

/-- How many files a walk has still to ask about. -/
def Walk.files (w : Walk) : Nat := (w.stack.map fun d => Listing.files d.2).sum

/-- A file with nothing undeclared in it, or a file that is passed over. -/
def Clean (machine : MachineIdentifiers) (skip : String → List UInt8 → Bool) (path : List String)
    (bytes : List UInt8) : Prop :=
  skip (relName path) bytes = true ∨
    ∀ f ∈ scan (relName path) bytes machine, f.cls = OPERATOR_DECLARED

/-- What a walk comes by, at a path. -/
def Passes (machine : MachineIdentifiers) (skip : String → List UInt8 → Bool) (path : List String) :
    Node → Prop
  | .file bytes => Clean machine skip path bytes
  | .unreadable _ => False
  | .dir _ => True
  | .unlistable _ => False

/-- What a walk comes by, below a directory. -/
def PassesBelow (machine : MachineIdentifiers) (skip : String → List UInt8 → Bool)
    (dir : List String) (listing : Listing) : Prop :=
  ∃ entries, listing = .ok entries ∧ ∀ path node, At entries path node →
    Passes machine skip (dir ++ path) node

/-- The directories among some entries. -/
def inner (dir : List String) : List (String × Node) → List (List String × Listing)
  | [] => []
  | (name, .dir entries) :: rest => (dir ++ [name], .ok entries) :: inner dir rest
  | (name, .unlistable e) :: rest => (dir ++ [name], .error e) :: inner dir rest
  | (_, .file _) :: rest => inner dir rest
  | (_, .unreadable _) :: rest => inner dir rest

/-- How many files there are among some entries. -/
def outer : List (String × Node) → Nat
  | [] => 0
  | (_, .file _) :: rest => outer rest + 1
  | (_, .unreadable _) :: rest => outer rest + 1
  | (_, .dir _) :: rest => outer rest
  | (_, .unlistable _) :: rest => outer rest

/-- What a walk comes by, among the files of a directory. -/
def PassesHere (machine : MachineIdentifiers) (skip : String → List UInt8 → Bool) (path : List String) :
    Node → Prop
  | .file bytes => Clean machine skip path bytes
  | .unreadable _ => False
  | .dir _ => True
  | .unlistable _ => True

theorem mem_inner {dir : List String} {entries : List (String × Node)} {d : List String × Listing} :
    d ∈ inner dir entries ↔
      (∃ name es, (name, .dir es) ∈ entries ∧ d = (dir ++ [name], .ok es)) ∨
        ∃ name e, (name, .unlistable e) ∈ entries ∧ d = (dir ++ [name], .error e) := by
  induction entries with
  | nil => simp [inner]
  | cons e entries ih =>
    obtain ⟨name, node⟩ := e
    cases node with
    | file bytes => simp [inner, ih]
    | unreadable e => simp [inner, ih]
    | dir es =>
      rw [inner, List.mem_cons, ih]
      constructor
      · rintro (rfl | ⟨name', es', h, rfl⟩ | ⟨name', e, h, rfl⟩)
        · exact .inl ⟨name, es, List.mem_cons_self, rfl⟩
        · exact .inl ⟨name', es', List.mem_cons_of_mem _ h, rfl⟩
        · exact .inr ⟨name', e, List.mem_cons_of_mem _ h, rfl⟩
      · rintro (⟨name', es', h, rfl⟩ | ⟨name', e, h, rfl⟩)
        · rcases List.mem_cons.1 h with heq | h
          · cases heq
            exact .inl rfl
          · exact .inr (.inl ⟨name', es', h, rfl⟩)
        · rcases List.mem_cons.1 h with heq | h
          · cases heq
          · exact .inr (.inr ⟨name', e, h, rfl⟩)
    | unlistable e =>
      rw [inner, List.mem_cons, ih]
      constructor
      · rintro (rfl | ⟨name', es', h, rfl⟩ | ⟨name', e', h, rfl⟩)
        · exact .inr ⟨name, e, List.mem_cons_self, rfl⟩
        · exact .inl ⟨name', es', List.mem_cons_of_mem _ h, rfl⟩
        · exact .inr ⟨name', e', List.mem_cons_of_mem _ h, rfl⟩
      · rintro (⟨name', es', h, rfl⟩ | ⟨name', e', h, rfl⟩)
        · rcases List.mem_cons.1 h with heq | h
          · cases heq
          · exact .inr (.inl ⟨name', es', h, rfl⟩)
        · rcases List.mem_cons.1 h with heq | h
          · cases heq
            exact .inl rfl
          · exact .inr (.inr ⟨name', e', h, rfl⟩)

theorem filesIn_eq (entries : List (String × Node)) :
    filesIn entries = (entries.map fun e => e.2.files).sum := by
  induction entries with
  | nil => rfl
  | cons e entries ih => rw [filesIn, ih, List.map_cons, List.sum_cons]

theorem filesIn_sortedByPath (entries : List (String × Node)) :
    filesIn (sortedByPath entries) = filesIn entries := by
  rw [filesIn_eq, filesIn_eq]
  exact ((List.mergeSort_perm _ _).map _).sum_eq

/-- The files of a directory are among its entries, or below them. -/
theorem filesIn_outer (dir : List String) (entries : List (String × Node)) :
    filesIn entries = outer entries + ((inner dir entries).map fun d => Listing.files d.2).sum := by
  induction entries with
  | nil => rfl
  | cons e entries ih =>
    obtain ⟨name, node⟩ := e
    rw [filesIn]
    cases node with
    | file bytes =>
      rw [outer, inner, ih, Node.files]
      omega
    | unreadable e =>
      rw [outer, inner, ih, Node.files]
      omega
    | dir es =>
      rw [outer, inner, ih, Node.files, List.map_cons, List.sum_cons, Listing.files]
      omega
    | unlistable e =>
      rw [outer, inner, ih, Node.files, List.map_cons, List.sum_cons, Listing.files]
      omega

section

variable {E : Type} {machine : MachineIdentifiers} {beforeEachFile : Nat → Except E Unit}
  {skip : String → List UInt8 → Bool} {ioError : IoError → E}

/-- A directory passes if its files and its directories do. -/
theorem passesBelow_ok {dir : List String} {entries : List (String × Node)} :
    PassesBelow machine skip dir (.ok entries) ↔
      (∀ e ∈ entries, PassesHere machine skip (dir ++ [e.1]) e.2) ∧
        ∀ d ∈ inner dir entries, PassesBelow machine skip d.1 d.2 := by
  constructor
  · rintro ⟨_, heq, h⟩
    obtain rfl := Except.ok.inj heq
    constructor
    · rintro ⟨name, node⟩ hmem
      have hpasses := h _ _ (.here hmem)
      cases node with
      | file bytes => exact hpasses
      | unreadable e => exact hpasses
      | dir es => exact trivial
      | unlistable e => exact trivial
    · intro d hd
      rcases mem_inner.1 hd with ⟨name, es, hmem, rfl⟩ | ⟨name, e, hmem, rfl⟩
      · refine ⟨es, rfl, fun path node hat => ?_⟩
        rw [List.append_assoc]
        exact h _ _ (.inside hmem hat)
      · exact (h _ _ (.here hmem)).elim
  · rintro ⟨hhere, hinner⟩
    refine ⟨entries, rfl, fun path node hat => ?_⟩
    cases hat with
    | here hmem =>
      have hpasses := hhere _ hmem
      cases node with
      | file bytes => exact hpasses
      | unreadable e => exact hpasses
      | dir es => exact trivial
      | unlistable e =>
        obtain ⟨_, heq, -⟩ := hinner _ (mem_inner.2 (.inr ⟨_, e, hmem, rfl⟩))
        cases heq
    | inside hmem hat =>
      obtain ⟨_, heq, h⟩ := hinner _ (mem_inner.2 (.inl ⟨_, _, hmem, rfl⟩))
      obtain rfl := Except.ok.inj heq
      have hpasses := h _ _ hat
      rw [List.append_assoc] at hpasses
      exact hpasses

theorem visitFile_passes {w w' : Walk} {path : List String} {read : Except IoError (List UInt8)} :
    visitFile machine beforeEachFile skip ioError true w path read = .ok (.inl w') ↔
      beforeEachFile w.asked = .ok () ∧ (∃ bytes, read = .ok bytes ∧ Clean machine skip path bytes) ∧
        w' = ⟨w.findings, w.stack, w.asked + 1⟩ := by
  rw [visitFile]
  cases hask : beforeEachFile w.asked with
  | error e => exact iff_of_false nofun nofun
  | ok u =>
    cases read with
    | error e =>
      refine iff_of_false nofun ?_
      rintro ⟨-, ⟨bytes, heq, -⟩, -⟩
      cases heq
    | ok bytes =>
      dsimp only [bind, Except.bind, Except.mapError, pure, Except.pure]
      by_cases hskip : skip (relName path) bytes = true
      · rw [if_pos hskip]
        constructor
        · intro h
          exact ⟨rfl, ⟨bytes, rfl, .inl hskip⟩, (Sum.inl.inj (Except.ok.inj h)).symm⟩
        · rintro ⟨-, -, rfl⟩
          rfl
      · rw [if_neg hskip, if_pos rfl]
        by_cases hany : ((scan (relName path) bytes machine).any fun f =>
            f.cls != OPERATOR_DECLARED) = true
        · rw [if_pos hany]
          refine iff_of_false nofun ?_
          rintro ⟨-, ⟨_, heq, hclean⟩, -⟩
          obtain rfl := Except.ok.inj heq
          obtain ⟨f, hf, hne⟩ := List.any_eq_true.1 hany
          exact bne_iff_ne.1 hne (hclean.resolve_left hskip f hf)
        · rw [if_neg hany]
          constructor
          · intro h
            refine ⟨rfl, ⟨bytes, rfl, .inr fun f hf => ?_⟩, (Sum.inl.inj (Except.ok.inj h)).symm⟩
            by_contra hne
            exact hany (List.any_eq_true.2 ⟨f, hf, bne_iff_ne.2 hne⟩)
          · rintro ⟨-, -, rfl⟩
            rfl

/-- A walk stops at a file with something undeclared in it. -/
theorem visitFile_stops {w : Walk} {path : List String} {read : Except IoError (List UInt8)}
    {found : List Finding}
    (h : visitFile machine beforeEachFile skip ioError true w path read = .ok (.inr found)) :
    ∃ bytes, read = .ok bytes ∧ skip (relName path) bytes = false ∧
      found = scan (relName path) bytes machine ∧ ∃ f ∈ found, f.cls ≠ OPERATOR_DECLARED := by
  rw [visitFile] at h
  cases hask : beforeEachFile w.asked with
  | error e =>
    rw [hask] at h
    cases h
  | ok u =>
    rw [hask] at h
    cases read with
    | error e => cases h
    | ok bytes =>
      dsimp only [bind, Except.bind, Except.mapError, pure, Except.pure] at h
      split at h
      · cases h
      · next hskip =>
        rw [if_pos rfl] at h
        split at h
        · next hany =>
          obtain rfl := Sum.inr.inj (Except.ok.inj h)
          obtain ⟨f, hf, hne⟩ := List.any_eq_true.1 hany
          exact ⟨bytes, rfl, Bool.eq_false_iff.2 hskip, rfl, f, hf, bne_iff_ne.1 hne⟩
        · cases h

theorem visitEntry_passes {dir : List String} {e : String × Node} {w w' : Walk} :
    visitEntry machine beforeEachFile skip ioError true dir w e = .ok (.inl w') ↔
      (∀ k < outer [e], beforeEachFile (w.asked + k) = .ok ()) ∧
        PassesHere machine skip (dir ++ [e.1]) e.2 ∧
        w' = ⟨w.findings, (inner dir [e]).reverse ++ w.stack, w.asked + outer [e]⟩ := by
  obtain ⟨name, node⟩ := e
  have hone : (∀ k < 1, beforeEachFile (w.asked + k) = .ok ()) ↔ beforeEachFile w.asked = .ok () := by
    simp
  cases node with
  | file bytes =>
    refine visitFile_passes.trans ?_
    rw [← hone]
    constructor
    · rintro ⟨hask, ⟨_, heq, hclean⟩, rfl⟩
      obtain rfl := Except.ok.inj heq
      exact ⟨hask, hclean, rfl⟩
    · rintro ⟨hask, hclean, rfl⟩
      exact ⟨hask, ⟨bytes, rfl, hclean⟩, rfl⟩
  | unreadable e =>
    refine visitFile_passes.trans (iff_of_false ?_ ?_)
    · rintro ⟨-, ⟨_, heq, -⟩, -⟩
      cases heq
    · rintro ⟨-, h, -⟩
      exact h
  | dir es =>
    constructor
    · intro h
      exact ⟨nofun, trivial, (Sum.inl.inj (Except.ok.inj h)).symm⟩
    · rintro ⟨-, -, rfl⟩
      rfl
  | unlistable e =>
    constructor
    · intro h
      exact ⟨nofun, trivial, (Sum.inl.inj (Except.ok.inj h)).symm⟩
    · rintro ⟨-, -, rfl⟩
      rfl

theorem outer_cons (e : String × Node) (entries : List (String × Node)) :
    outer (e :: entries) = outer [e] + outer entries := by
  obtain ⟨name, node⟩ := e
  cases node <;> simp [outer, Nat.add_comm]

theorem inner_cons (dir : List String) (e : String × Node) (entries : List (String × Node)) :
    inner dir (e :: entries) = inner dir [e] ++ inner dir entries := by
  obtain ⟨name, node⟩ := e
  cases node <;> rfl

theorem visitEntries_passes {dir : List String} {entries : List (String × Node)} {w w' : Walk} :
    visitEntries machine beforeEachFile skip ioError true dir entries w = .ok (.inl w') ↔
      (∀ k < outer entries, beforeEachFile (w.asked + k) = .ok ()) ∧
        (∀ e ∈ entries, PassesHere machine skip (dir ++ [e.1]) e.2) ∧
        w' = ⟨w.findings, (inner dir entries).reverse ++ w.stack, w.asked + outer entries⟩ := by
  induction entries generalizing w with
  | nil =>
    constructor
    · intro h
      exact ⟨nofun, nofun, (Sum.inl.inj (Except.ok.inj h)).symm⟩
    · rintro ⟨-, -, rfl⟩
      rfl
  | cons e entries ih =>
    rw [visitEntries, outer_cons, inner_cons, List.reverse_append, List.forall_mem_cons]
    constructor
    · intro h
      split at h
      · cases h
      · cases h
      · next w₁ hvisited =>
        obtain ⟨hask, hhere, rfl⟩ := visitEntry_passes.1 hvisited
        obtain ⟨hasks, hrest, rfl⟩ := ih.1 h
        refine ⟨fun k hk => ?_, ⟨hhere, hrest⟩, ?_⟩
        · rcases Nat.lt_or_ge k (outer [e]) with hlt | hge
          · exact hask k hlt
          · have hk' := hasks (k - outer [e]) (by omega)
            rw [show w.asked + outer [e] + (k - outer [e]) = w.asked + k by omega] at hk'
            exact hk'
        · rw [List.append_assoc, Nat.add_assoc]
    · rintro ⟨hasks, ⟨hhere, hrest⟩, rfl⟩
      have hvisited := (@visitEntry_passes _ machine beforeEachFile skip ioError dir e w _).2
        ⟨fun k hk => hasks k (by omega), hhere, rfl⟩
      rw [hvisited]
      refine ih.2 ⟨fun k hk => ?_, hrest, ?_⟩
      · rw [Nat.add_assoc]
        exact hasks _ (by omega)
      · rw [List.append_assoc, Nat.add_assoc]

theorem visitEntries_stops {dir : List String} {entries : List (String × Node)} {w : Walk}
    {found : List Finding}
    (h : visitEntries machine beforeEachFile skip ioError true dir entries w = .ok (.inr found)) :
    ∃ name bytes, (name, .file bytes) ∈ entries ∧ skip (relName (dir ++ [name])) bytes = false ∧
      found = scan (relName (dir ++ [name])) bytes machine ∧ ∃ f ∈ found, f.cls ≠ OPERATOR_DECLARED := by
  induction entries generalizing w with
  | nil => cases h
  | cons e entries ih =>
    rw [visitEntries] at h
    split at h
    · cases h
    · next found' hvisited =>
      obtain rfl := Sum.inr.inj (Except.ok.inj h)
      obtain ⟨name, node⟩ := e
      cases node with
      | file bytes =>
        obtain ⟨_, heq, hskip, hfound, hany⟩ := visitFile_stops hvisited
        obtain rfl := Except.ok.inj heq
        exact ⟨name, bytes, List.mem_cons_self, hskip, hfound, hany⟩
      | unreadable e =>
        obtain ⟨_, heq, -⟩ := visitFile_stops hvisited
        cases heq
      | dir es => cases hvisited
      | unlistable e => cases hvisited
    · obtain ⟨name, bytes, hmem, hrest⟩ := ih h
      exact ⟨name, bytes, List.mem_cons_of_mem _ hmem, hrest⟩

/-- A file below a directory that a walk stops at. -/
def StopsBelow (machine : MachineIdentifiers) (skip : String → List UInt8 → Bool) (dir : List String)
    (listing : Listing) (found : List Finding) : Prop :=
  ∃ entries path bytes, listing = .ok entries ∧ At entries path (.file bytes) ∧
    skip (relName (dir ++ path)) bytes = false ∧ found = scan (relName (dir ++ path)) bytes machine ∧
    ∃ f ∈ found, f.cls ≠ OPERATOR_DECLARED

theorem walk_stops {w : Walk} (hw : w.findings = []) {found : List Finding}
    (h : walk machine beforeEachFile skip ioError true w = .ok found) :
    found = [] ∨ ∃ d ∈ w.stack, StopsBelow machine skip d.1 d.2 found := by
  obtain ⟨n, hn⟩ : ∃ n, w.dirs = n := ⟨_, rfl⟩
  induction n using Nat.strong_induction_on generalizing w with
  | _ n ih =>
    rw [walk] at h
    split at h
    · exact .inl ((Except.ok.inj h).symm.trans hw)
    · cases h
    · next dir entries stack hstack =>
      rw [hstack]
      split at h
      · cases h
      · next found' hvisited =>
        obtain rfl := Except.ok.inj h
        obtain ⟨name, bytes, hmem, hskip, hfound, hany⟩ := visitEntries_stops hvisited
        refine .inr ⟨(dir, .ok entries), List.mem_cons_self, entries, [name], bytes, rfl,
          .here (mem_sortedByPath.1 hmem), hskip, hfound, hany⟩
      · next w' hvisited =>
        have hdirs := visitEntries_dirs hvisited
        rw [dirsIn_sortedByPath] at hdirs
        have hlt : w'.dirs < n := by
          rw [hdirs, ← hn, Walk.dirs, Walk.dirs, hstack, List.map_cons, List.sum_cons, Listing.dirs]
          dsimp only
          omega
        obtain ⟨-, -, hnext⟩ := visitEntries_passes.1 hvisited
        have hfindings : w'.findings = [] := by rw [hnext]; exact hw
        rcases ih _ hlt hfindings h rfl with hnil | ⟨d, hd, hstops⟩
        · exact .inl hnil
        · rw [hnext, List.mem_append, List.mem_reverse] at hd
          rcases hd with hd | hd
          · -- A directory of the one just listed.
            refine .inr ⟨(dir, .ok entries), List.mem_cons_self, ?_⟩
            obtain ⟨es, path, bytes, hlisting, hat, hskip, hfound, hany⟩ := hstops
            rcases mem_inner.1 hd with ⟨name, es', hmem, rfl⟩ | ⟨name, e, hmem, rfl⟩
            · obtain rfl := Except.ok.inj hlisting
              rw [List.append_assoc] at hskip hfound
              exact ⟨entries, name :: path, bytes, rfl, .inside (mem_sortedByPath.1 hmem) hat, hskip,
                hfound, hany⟩
            · cases hlisting
          · exact .inr ⟨d, List.mem_cons_of_mem _ hd, hstops⟩

theorem walk_passes {w : Walk} (hw : w.findings = []) :
    walk machine beforeEachFile skip ioError true w = .ok [] ↔
      (∀ d ∈ w.stack, PassesBelow machine skip d.1 d.2) ∧
        ∀ k < w.files, beforeEachFile (w.asked + k) = .ok () := by
  obtain ⟨n, hn⟩ : ∃ n, w.dirs = n := ⟨_, rfl⟩
  induction n using Nat.strong_induction_on generalizing w with
  | _ n ih =>
    rw [walk]
    split
    · next hstack =>
      rw [Walk.files, hstack]
      exact iff_of_true (congrArg Except.ok hw) ⟨nofun, nofun⟩
    · next dir e stack hstack =>
      rw [hstack]
      refine iff_of_false nofun fun h => ?_
      obtain ⟨_, heq, -⟩ := h.1 _ List.mem_cons_self
      cases heq
    · next dir entries stack hstack =>
      -- The walk behind this directory.
      obtain ⟨next, hnext⟩ : ∃ next, next = Walk.mk w.findings
          ((inner dir (sortedByPath entries)).reverse ++ stack)
          (w.asked + outer (sortedByPath entries)) := ⟨_, rfl⟩
      have hfindings : next.findings = [] := by rw [hnext]; exact hw
      have hasked : next.asked = w.asked + outer (sortedByPath entries) := by rw [hnext]
      have hfiles : w.files = outer (sortedByPath entries) + next.files := by
        rw [Walk.files, Walk.files, hstack, hnext, List.map_cons, List.sum_cons, Listing.files,
          ← filesIn_sortedByPath, filesIn_outer dir, List.map_append, List.sum_append,
          List.map_reverse, List.sum_reverse, Nat.add_assoc]
      have hbelow : (∀ d ∈ w.stack, PassesBelow machine skip d.1 d.2) ↔
          (∀ e ∈ sortedByPath entries, PassesHere machine skip (dir ++ [e.1]) e.2) ∧
            ∀ d ∈ next.stack, PassesBelow machine skip d.1 d.2 := by
        have hsorted : PassesBelow machine skip dir (.ok entries) ↔
            PassesBelow machine skip dir (.ok (sortedByPath entries)) := by
          simp only [passesBelow_ok, mem_sortedByPath, mem_inner]
        rw [hstack, hnext, List.forall_mem_cons, hsorted, passesBelow_ok, List.forall_mem_append,
          and_assoc]
        simp only [List.mem_reverse]
      have hlt : visitEntries machine beforeEachFile skip ioError true dir (sortedByPath entries)
          { w with stack } = .ok (.inl next) → next.dirs < n := by
        intro hvisited
        have hdirs := visitEntries_dirs hvisited
        rw [dirsIn_sortedByPath] at hdirs
        rw [hdirs, ← hn, Walk.dirs, Walk.dirs, hstack, List.map_cons, List.sum_cons, Listing.dirs]
        dsimp only
        omega
      rw [hbelow, hfiles]
      constructor
      · intro h
        split at h
        · cases h
        · next found hvisited =>
          obtain ⟨_, _, _, _, _, f, hf, _⟩ := visitEntries_stops hvisited
          obtain rfl := Except.ok.inj h
          cases hf
        · next w' hvisited =>
          obtain ⟨hask, hhere, heq⟩ := visitEntries_passes.1 hvisited
          obtain rfl : w' = next := heq.trans hnext.symm
          obtain ⟨hrest, hasks⟩ := (ih _ (hlt hvisited) hfindings rfl).1 h
          refine ⟨⟨hhere, hrest⟩, fun k hk => ?_⟩
          rcases Nat.lt_or_ge k (outer (sortedByPath entries)) with hk' | hk'
          · exact hask k hk'
          · have hkth := hasks (k - outer (sortedByPath entries)) (by omega)
            rw [hasked, Nat.add_assoc, Nat.add_sub_cancel' hk'] at hkth
            exact hkth
      · rintro ⟨⟨hhere, hrest⟩, hasks⟩
        have hvisited : visitEntries machine beforeEachFile skip ioError true dir
            (sortedByPath entries) { w with stack } = .ok (.inl next) :=
          visitEntries_passes.2 ⟨fun k hk => hasks k (by omega), hhere, hnext⟩
        have hrun : walk machine beforeEachFile skip ioError true next = .ok [] := by
          refine (ih _ (hlt hvisited) hfindings rfl).2 ⟨hrest, fun k hk => ?_⟩
          rw [hasked, Nat.add_assoc]
          exact hasks _ (by omega)
        split
        · next hvisited' => exact absurd (hvisited.symm.trans hvisited') nofun
        · next hvisited' => exact absurd (hvisited.symm.trans hvisited') nofun
        · next hvisited' =>
          rw [← Sum.inl.inj (Except.ok.inj (hvisited.symm.trans hvisited'))]
          exact hrun

/-- The one name of the findings of a file. -/
theorem file_of_mem_scan {file : String} {bytes : List UInt8} {f : Finding}
    (h : f ∈ scan file bytes machine) : f.file = file := by
  rw [scan_eq, List.mem_map] at h
  obtain ⟨m, -, rfl⟩ := h
  rfl

/-- The undeclared findings of a file, by their place. -/
def undeclared (found : List Finding) : List Finding :=
  (found.filter fun x => x.cls != OPERATOR_DECLARED).mergeSort fun x y => x.byteOffset ≤ y.byteOffset

theorem mem_undeclared {found : List Finding} {f : Finding} :
    f ∈ undeclared found ↔ f ∈ found ∧ f.cls ≠ OPERATOR_DECLARED := by
  rw [undeclared, List.mem_mergeSort, List.mem_filter, bne_iff_ne]

theorem undeclared_nil : undeclared [] = [] := by simp [undeclared]

/-- The search ends without a file just where the walk comes by every file. -/
theorem firstUndeclaredFindings_none {root : Listing} :
    firstUndeclaredFindings machine beforeEachFile skip ioError root = .ok none ↔
      PassesBelow machine skip [] root ∧ ∀ k < root.files, beforeEachFile k = .ok () := by
  have hstart : walk machine beforeEachFile skip ioError true (.start root) = .ok [] ↔
      PassesBelow machine skip [] root ∧ ∀ k < root.files, beforeEachFile k = .ok () := by
    refine (walk_passes rfl).trans ?_
    simp [Walk.start, Walk.files]
  rw [← hstart, firstUndeclaredFindings]
  constructor
  · intro h
    cases hwalk : walk machine beforeEachFile skip ioError true (.start root) with
    | error e =>
      rw [hwalk] at h
      cases h
    | ok found =>
      rw [hwalk] at h
      rcases walk_stops rfl hwalk with rfl | ⟨d, -, es, path, bytes, -, -, -, -, f, hf, hne⟩
      · rfl
      · -- What is undeclared is not lost by the sort.
        have hmem := mem_undeclared.2 ⟨hf, hne⟩
        have hnone : (match undeclared found with
          | [] => none
          | x :: _ => some (x.file, undeclared found)) = none := Except.ok.inj h
        cases hlist : undeclared found with
        | nil =>
          rw [hlist] at hmem
          cases hmem
        | cons x rest =>
          rw [hlist] at hnone
          cases hnone
  · intro hwalk
    have hnone : (match undeclared [] with
      | [] => none
      | x :: _ => some (x.file, undeclared [])) = none := by rw [undeclared_nil]
    rw [hwalk]
    exact congrArg Except.ok hnone

/-- A file that the search ends with has something undeclared in it, and was not passed over. -/
theorem firstUndeclaredFindings_some {root : Listing} {file : String} {found : List Finding}
    (h : firstUndeclaredFindings machine beforeEachFile skip ioError root = .ok (some (file, found))) :
    found ≠ [] ∧ ∃ entries path bytes, root = .ok entries ∧ At entries path (.file bytes) ∧
      file = relName path ∧ skip file bytes = false ∧ found = undeclared (scan file bytes machine) := by
  rw [firstUndeclaredFindings] at h
  cases hwalk : walk machine beforeEachFile skip ioError true (.start root) with
  | error e =>
    rw [hwalk] at h
    cases h
  | ok all =>
    rw [hwalk] at h
    have hsome : (match undeclared all with
      | [] => none
      | x :: _ => some (x.file, undeclared all)) = some (file, found) := Except.ok.inj h
    cases hlist : undeclared all with
    | nil =>
      rw [hlist] at hsome
      cases hsome
    | cons x rest =>
      rw [hlist] at hsome
      obtain ⟨rfl, rfl⟩ := Prod.mk.inj (Option.some.inj hsome)
      have hx : x ∈ undeclared all := by
        rw [hlist]
        exact List.mem_cons_self
      refine ⟨List.cons_ne_nil _ _, ?_⟩
      rcases walk_stops rfl hwalk with rfl | ⟨d, hd, es, path, bytes, hroot, hat, hskip, rfl, -⟩
      · rw [undeclared_nil] at hlist
        cases hlist
      · obtain rfl := List.mem_singleton.1 hd
        have hfile : x.file = relName path := file_of_mem_scan (mem_undeclared.1 hx).1
        rw [hfile]
        exact ⟨es, path, bytes, hroot, hat, rfl, hskip, hlist.symm⟩

end

end SpatialIde.Kernel.Bundle.Redaction

namespace SpatialIde.Kernel.Publish

open Lib SpatialIde.Kernel.Bundle SpatialIde.Kernel.Bundle.Redaction

def VIEWER_DIR : String := "viewer"

def sha256Hex (bytes : List UInt8) : String := "sha256:" ++ Sha256.hex (Sha256.digestOf bytes)

/-- Whether a staged file is one of the viewer's build, by its path and its bytes. -/
def isBuiltAsset (buildRecord : String → Option String) (bundleRel : String) (bytes : List UInt8) :
    Bool :=
  match ((Text.stripPrefix bundleRel VIEWER_DIR).bind (Text.stripPrefix · "/")).bind buildRecord with
  | some hash => Text.stripPrefix (sha256Hex bytes) "sha256:" == some hash
  | none => false

/-- What the gate reads of a request: what the viewer's licence declares, and its build's record. -/
structure PublishRequest where
  copyright : String
  correspondingSourceAt : String
  buildRecord : String → Option String

def scanError (e : IoError) : PublishError :=
  .io "scanning the staged bundle for the redaction classes" e.rawOsError e.detail

/-- The gate, over what is staged. -/
def redactionGate (env : String → Option String) (os : Option String)
    (check : Nat → Except PublishError Unit) (req : PublishRequest) (staging : Listing) :
    Except PublishError Unit := do
  let machine := { MachineIdentifiers.fromEnvironment env os with
    declared := [req.copyright, req.correspondingSourceAt] }
  match ← firstUndeclaredFindings machine check (isBuiltAsset req.buildRecord) scanError staging with
  | none => .ok ()
  | some (_, []) => .ok ()
  | some (file, x :: found) =>
    .error (.redactionFinding file x.cls x.byteOffset (x :: found).length)

/-- A file is passed over by its path, and the hash of what it holds. -/
theorem isBuiltAsset_iff {buildRecord : String → Option String} {bundleRel : String}
    {bytes : List UInt8} : isBuiltAsset buildRecord bundleRel bytes = true ↔
      ∃ path hash, bundleRel = VIEWER_DIR ++ "/" ++ path ∧ buildRecord path = some hash ∧
        sha256Hex bytes = "sha256:" ++ hash := by
  have hpath : ∀ path, (Text.stripPrefix bundleRel VIEWER_DIR).bind (Text.stripPrefix · "/") =
      some path ↔ bundleRel = VIEWER_DIR ++ "/" ++ path := by
    intro path
    rw [Option.bind_eq_some_iff]
    constructor
    · rintro ⟨rest, hrest, hslash⟩
      rw [Text.stripPrefix_eq_some.1 hrest, Text.stripPrefix_eq_some.1 hslash, String.append_assoc]
    · intro h
      rw [String.append_assoc] at h
      exact ⟨"/" ++ path, Text.stripPrefix_eq_some.2 h, Text.stripPrefix_eq_some.2 rfl⟩
  rw [isBuiltAsset]
  constructor
  · intro h
    split at h
    · next hash hrecord =>
      obtain ⟨path, hstrip, hhash⟩ := Option.bind_eq_some_iff.1 hrecord
      exact ⟨path, hash, (hpath path).1 hstrip, hhash, Text.stripPrefix_eq_some.1 (eq_of_beq h)⟩
    · cases h
  · rintro ⟨path, hash, hrel, hrecord, hhash⟩
    rw [(hpath path).2 hrel, Option.bind_some, hrecord]
    exact beq_iff_eq.2 (Text.stripPrefix_eq_some.2 hhash)

/-- A name without a backslash is the name of the file. -/
theorem relName_eq {path : List String} (h : ∀ name ∈ path, '\\' ∉ name.toList) :
    relName path = "/".intercalate path := by
  have hnone : ∀ c ∈ ("/".intercalate path).toList, c ≠ '\\' := by
    induction path with
    | nil =>
      rw [String.intercalate_nil]
      nofun
    | cons name path ih =>
      have hname : ∀ c ∈ name.toList, c ≠ '\\' := fun c hc heq =>
        h name List.mem_cons_self (heq ▸ hc)
      cases path with
      | nil =>
        rw [String.intercalate_singleton]
        exact hname
      | cons name' path =>
        rw [String.intercalate_cons_cons, String.toList_append, String.toList_append]
        intro c hc
        rcases List.mem_append.1 hc with hc | hc
        · rcases List.mem_append.1 hc with hc | hc
          · exact hname c hc
          · obtain rfl := List.mem_singleton.1 hc
            decide
        · exact ih (fun n hn => h n (List.mem_cons_of_mem _ hn)) c hc
  rw [relName, ← String.toList_inj, String.toList_ofList]
  exact (List.map_congr_left fun c hc => if_neg (hnone c hc)).trans (List.map_id _)

theorem redactionGate_ok {env : String → Option String} {os : Option String}
    {check : Nat → Except PublishError Unit} {req : PublishRequest} {staging : Listing} :
    redactionGate env os check req staging = .ok () ↔
      firstUndeclaredFindings { MachineIdentifiers.fromEnvironment env os with
        declared := [req.copyright, req.correspondingSourceAt] } check (isBuiltAsset req.buildRecord)
        scanError staging = .ok none := by
  rw [redactionGate]
  dsimp only
  cases hfirst : firstUndeclaredFindings { MachineIdentifiers.fromEnvironment env os with
      declared := [req.copyright, req.correspondingSourceAt] } check (isBuiltAsset req.buildRecord)
      scanError staging with
  | error e => exact iff_of_false nofun nofun
  | ok result =>
    cases result with
    | none => exact iff_of_true rfl rfl
    | some result =>
      obtain ⟨file, found⟩ := result
      cases found with
      | nil => exact absurd rfl (firstUndeclaredFindings_some hfirst).1
      | cons x found => exact iff_of_false nofun nofun

/-- **A declaration excuses only itself**, and the gate passes just where nothing else is found.  The
matches of a file are the same whatever is declared, and only an identity inside an occurrence of a
declared text is reported as declared. -/
theorem declaration_excuses_itself :
    (∀ (file : String) (bytes : List UInt8) (usernames hostnames declared : List String),
      scan file bytes ⟨usernames, hostnames, declared⟩ =
        (matchesOf bytes usernames hostnames).map (Match.report file bytes declared)) ∧
    (∀ (file : String) (bytes : List UInt8) (usernames hostnames declared : List String),
      ∀ m ∈ matchesOf bytes usernames hostnames, Found bytes usernames hostnames m ∧
        (m.report file bytes declared).byteOffset = m.offset ∧
        (m.cls = "credential" ∨ m.cls = "local-filesystem-path" →
          (m.report file bytes declared).cls = m.cls) ∧
        ((m.report file bytes declared).cls ≠ m.cls →
          (m.report file bytes declared).cls = OPERATOR_DECLARED) ∧
        ((m.report file bytes declared).cls = OPERATOR_DECLARED →
          (m.cls = "username" ∨ m.cls = "machine-identifier") ∧
          ∃ d ∈ declared, ∃ lo, Occurs bytes d lo ∧ lo ≤ m.offset ∧
            m.offset + m.len ≤ lo + (Text.bytes d).length)) ∧
    (∀ (E : Type) (machine : MachineIdentifiers) (check : Nat → Except E Unit)
      (skip : String → List UInt8 → Bool) (ioError : IoError → E) (root : Listing),
      (firstUndeclaredFindings machine check skip ioError root = .ok none ↔
        (∃ entries, root = .ok entries ∧ ∀ path node, At entries path node →
          Passes machine skip path node) ∧ ∀ k < root.files, check k = .ok ()) ∧
      ∀ file found, firstUndeclaredFindings machine check skip ioError root =
          .ok (some (file, found)) → found ≠ [] ∧ ∃ entries path bytes, root = .ok entries ∧
        At entries path (.file bytes) ∧ file = relName path ∧ skip file bytes = false ∧
        found = undeclared (scan file bytes machine)) ∧
    (∀ (env : String → Option String) (os : Option String) (check : Nat → Except PublishError Unit)
      (req : PublishRequest) (staging : Listing), redactionGate env os check req staging = .ok () ↔
        (∃ entries, staging = .ok entries ∧ ∀ path node, At entries path node →
          Passes { MachineIdentifiers.fromEnvironment env os with
            declared := [req.copyright, req.correspondingSourceAt] }
            (isBuiltAsset req.buildRecord) path node) ∧ ∀ k < staging.files, check k = .ok ()) ∧
    (∀ (buildRecord : String → Option String) (path : List String) (bytes : List UInt8),
      isBuiltAsset buildRecord (relName path) bytes = true → ∃ asset hash,
        relName path = VIEWER_DIR ++ "/" ++ asset ∧ buildRecord asset = some hash ∧
        sha256Hex bytes = "sha256:" ++ hash) ∧
    ∀ path : List String, (∀ name ∈ path, '\\' ∉ name.toList) →
      relName path = "/".intercalate path := by
  refine ⟨fun file bytes usernames hostnames declared => scan_eq file _,
    fun file bytes usernames hostnames declared m hm => ?_,
    fun E machine check skip ioError root => ⟨firstUndeclaredFindings_none,
      fun file found => firstUndeclaredFindings_some⟩,
    fun env os check req staging => redactionGate_ok.trans firstUndeclaredFindings_none,
    fun buildRecord path bytes => isBuiltAsset_iff.1, fun path => relName_eq⟩
  have hfound := found_of_mem hm
  have hcases := @report_cases file bytes declared m
  refine ⟨hfound, rfl, fun hcls => ?_, fun hne => ?_, fun hdeclared => ?_⟩
  · rcases hcases with hsame | ⟨-, hid, -⟩
    · exact hsame
    · -- No class is of both kinds.
      rcases hcls with hcls | hcls <;> rcases hid with hid | hid <;>
        exact absurd (hcls.symm.trans hid) (by decide)
  · exact (hcases.resolve_left hne).1
  · rcases hcases with hsame | ⟨-, hid, hinside⟩
    · exact absurd (hsame.symm.trans hdeclared) hfound.cls_ne
    · exact ⟨hid, hinside⟩

end SpatialIde.Kernel.Publish
