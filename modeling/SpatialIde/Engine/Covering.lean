import SpatialIde.Engine.FileNames
import SpatialIde.Engine.Identity
import SpatialIde.Lib.Except
import SpatialIde.Lib.Reads

/-! # The covering a file declares

A covering names four columns by their paths.  `judgeCovering` walks each path through the names the
file writes and, position by position, through the names the engine reads by.  Where it finds nothing
wrong, a path is at one position, in the file and for a reader (`walk_spec`).  Letter case is ignored
on both sides, so the file may write a path in another case than it is declared in.
-/

namespace SpatialIde.Engine.Covering

open Lib

abbrev FieldPath := List String

/-- The paths of the four columns. -/
abbrev CoveringBbox := Bbox FieldPath

/-- Both in the order in which they are judged. -/
def CoveringBbox.paths (c : CoveringBbox) : List FieldPath := [c.xmin, c.ymin, c.xmax, c.ymax]

/-- A field that is read, and the fields inside it where it is a struct. -/
inductive FieldNode where
  | mk (name : String) (struct : Option (List FieldNode))

namespace FieldNode

def name : FieldNode → String
  | mk name _ => name

def struct : FieldNode → Option (List FieldNode)
  | mk _ struct => struct

end FieldNode

/-- `str::eq_ignore_ascii_case`. -/
def eqIgnoreAsciiCase (s t : String) : Bool :=
  s.toList.map Char.toLower = t.toList.map Char.toLower

/-! ### The walk along one path -/

def checkNamesAlign (file : NameNode) (schema : List FieldNode) : Except EngineError Unit :=
  let n := file.children.length
  let m := schema.length
  if m < n then
    .error (.internalInconsistency
      (s!"the file's footer lists {n} top-level column(s) but the schema probe reported " ++
        s!"{m}; which column each name reads could not be decided"))
  else .ok ()

/-- The nodes whose name matches, letter case ignored. -/
def caseMatches (nodes : List NameNode) (name : String) : List Nat :=
  (nodes.zipIdx.filter fun n => eqIgnoreAsciiCase n.1.name name).map Prod.snd

def ticked (names : List String) : String :=
  ", ".intercalate (names.map fun n => s!"`{n}`")

def dotted (segments : FieldPath) : String := ".".intercalate segments

def joined (segments : FieldPath) : String := renderVisibleEscape (dotted segments)

inductive PathWalk where
  | resolves
  /-- A segment matches none of the file's names at its level. -/
  | absent
  /-- A segment matches more than one of the file's names. -/
  | ambiguous (names : List String)
  /-- A segment matches one name, and the field there is read by a name it does not match. -/
  | misbound (filePath residentPath : String)
  /-- A struct has not as many fields in the file as there are to read. -/
  | inconsistent (filePath : String) (fileCount residentCount : Nat)
  deriving DecidableEq, Repr

/-- The paths so far are those of the file and of the reader; `none` is an index out of range. -/
def walk (fileLevel : List NameNode) (residentLevel : List FieldNode)
    (filePath residentPath : FieldPath) : FieldPath → Option PathWalk
  | [] => some .resolves
  | segment :: rest =>
    match caseMatches fileLevel segment with
    | [] => some .absent
    | [j] => do
      let node ← fileLevel[j]?
      let field ← residentLevel[j]?
      let filePath := filePath ++ [node.name]
      let residentPath := residentPath ++ [field.name]
      if eqIgnoreAsciiCase field.name segment = false then
        some (.misbound (joined filePath) (joined residentPath))
      else if rest = [] then some .resolves
      else
        match field.struct with
        | none => some .absent
        | some children =>
          if children.length ≠ node.children.length then
            some (.inconsistent (joined filePath) node.children.length children.length)
          else walk node.children children filePath residentPath rest
    | i :: j :: more => do
      let names ← (i :: j :: more).mapM fun k =>
        (fileLevel[k]?).map fun node => joined (filePath ++ [node.name])
      some (.ambiguous names)

def fieldPathExists (file : NameNode) (schema : List FieldNode) (path : FieldPath) :
    Option PathWalk :=
  walk file.children schema [] [] path

/-! ### The covering -/

inductive CoveringFinding where
  | notAddressable (reason : String)
  | absent (path : String)
  deriving DecidableEq, Repr

def coveringNotAddressableReason (c : CoveringBbox) : Option String :=
  let hit := c.paths.findSome? fun p =>
    if p.any fun seg => (notAddressable seg none).isSome then some (dotted p) else none
  hit.map fun hit =>
    s!"the covering names `{renderVisibleEscape hit}`, which contains U+0000 and so cannot be " ++
      "addressed in any SQL statement"

/-- What a walk has against the path, other than that it is absent. -/
def PathWalk.refusal (path : FieldPath) : PathWalk → Option EngineError
  | .resolves | .absent => none
  | .ambiguous names => some (.geoMetadata
      (s!"the covering names `{joined path}`, which matches more than one name in the file's " ++
        s!"schema when ASCII letter case is ignored: {ticked names}"))
  | .misbound filePath residentPath => some (.geoMetadata
      (s!"the covering names `{joined path}`, which the file's schema holds as `{filePath}`, but " ++
        s!"that column is read under the name `{residentPath}`, so the declared name does not " ++
        "read it"))
  | .inconsistent filePath fileCount residentCount => some (.internalInconsistency
      (s!"the file's footer lists {fileCount} field(s) inside `{filePath}` but the schema probe " ++
        s!"reported {residentCount}; which field each name reads could not be decided"))

/-- The first path that is absent, if the ones so far are not refused. -/
def judgePaths (file : NameNode) (schema : List FieldNode) (absent : Option String) :
    List FieldPath → Panics EngineError (Option String)
  | [] => pure absent
  | p :: ps => do
    let w ← Panics.unwrap (fieldPathExists file schema p)
    match w.refusal p with
    | some e => throw e
    | none =>
      if w = .absent then judgePaths file schema (some (absent.getD (dotted p))) ps
      else judgePaths file schema absent ps

def judgeCovering (covering : Option CoveringBbox) (schema : List FieldNode) (file : NameNode) :
    Panics EngineError (Option CoveringFinding) :=
  match covering with
  | none => pure none
  | some c =>
    match coveringNotAddressableReason c with
    | some reason => pure (some (.notAddressable reason))
    | none => do
      let absent ← judgePaths file schema none c.paths
      return absent.map .absent

/-! ### Positions -/

/-- The names along a position of the file. -/
def namesAt : List NameNode → List Nat → Option FieldPath
  | _, [] => some []
  | level, j :: pos => do
    let node ← level[j]?
    let names ← namesAt node.children pos
    return node.name :: names

/-- The names a reader uses along a position. -/
def residentNamesAt : List FieldNode → List Nat → Option FieldPath
  | _, [] => some []
  | level, j :: pos => do
    let field ← level[j]?
    let names ← residentNamesAt (field.struct.getD []) pos
    return field.name :: names

/-- The nodes inside a position of the file. -/
def levelAt : List NameNode → List Nat → Option (List NameNode)
  | level, [] => some level
  | level, j :: pos => do
    let node ← level[j]?
    levelAt node.children pos

/-- The fields inside a position, where that and all above it are structs. -/
def residentLevelAt : List FieldNode → List Nat → Option (List FieldNode)
  | level, [] => some level
  | level, j :: pos => do
    let field ← level[j]?
    let children ← field.struct
    residentLevelAt children pos

/-- A path matches names, letter case ignored. -/
def SamePath (names path : FieldPath) : Prop :=
  List.Forall₂ (fun name segment => eqIgnoreAsciiCase name segment = true) names path

/-- The file has the path at a position. -/
def FileAt (level : List NameNode) (path : FieldPath) (pos : List Nat) : Prop :=
  ∃ names, namesAt level pos = some names ∧ SamePath names path

/-- A reader looks the path up at a position. -/
def ResidentAt (level : List FieldNode) (path : FieldPath) (pos : List Nat) : Prop :=
  ∃ names, residentNamesAt level pos = some names ∧ SamePath names path

/-- No two names at one level are the same, letter case ignored. -/
inductive DistinctNames : List FieldNode → Prop where
  | level {fields : List FieldNode}
      (hlevel : fields.Pairwise fun f g => eqIgnoreAsciiCase f.name g.name = false)
      (hinner : ∀ f ∈ fields, ∀ children, f.struct = some children → DistinctNames children) :
      DistinctNames fields

theorem eqIgnoreAsciiCase_iff {s t : String} :
    eqIgnoreAsciiCase s t = true ↔ s.toList.map Char.toLower = t.toList.map Char.toLower := by
  rw [eqIgnoreAsciiCase, decide_eq_true_iff]

theorem fileAt_nil {level : List NameNode} {pos : List Nat} : FileAt level [] pos ↔ pos = [] := by
  constructor
  · rintro ⟨names, hnames, hsame⟩
    cases hsame
    cases pos with
    | nil => rfl
    | cons j pos =>
      rw [namesAt] at hnames
      simp [Option.bind_eq_some_iff] at hnames
  · rintro rfl
    exact ⟨[], rfl, .nil⟩

theorem fileAt_cons {level : List NameNode} {segment : String} {path : FieldPath} {pos : List Nat} :
    FileAt level (segment :: path) pos ↔ ∃ j node pos', pos = j :: pos' ∧ level[j]? = some node ∧
      eqIgnoreAsciiCase node.name segment = true ∧ FileAt node.children path pos' := by
  constructor
  · rintro ⟨names, hnames, hsame⟩
    cases pos with
    | nil =>
      cases hnames
      cases hsame
    | cons j pos =>
      rw [namesAt] at hnames
      simp only [Option.bind_eq_bind, Option.bind_eq_some_iff, Option.pure_def,
        Option.some.injEq] at hnames
      obtain ⟨node, hnode, names', hnames', rfl⟩ := hnames
      obtain ⟨hname, hsame⟩ := List.forall₂_cons.1 hsame
      exact ⟨j, node, pos, rfl, hnode, hname, names', hnames', hsame⟩
  · rintro ⟨j, node, pos', rfl, hnode, hname, names, hnames, hsame⟩
    refine ⟨node.name :: names, ?_, .cons hname hsame⟩
    rw [namesAt, hnode]
    simp [hnames]

theorem residentAt_nil {level : List FieldNode} {pos : List Nat} :
    ResidentAt level [] pos ↔ pos = [] := by
  constructor
  · rintro ⟨names, hnames, hsame⟩
    cases hsame
    cases pos with
    | nil => rfl
    | cons j pos =>
      rw [residentNamesAt] at hnames
      simp [Option.bind_eq_some_iff] at hnames
  · rintro rfl
    exact ⟨[], rfl, .nil⟩

theorem residentAt_cons {level : List FieldNode} {segment : String} {path : FieldPath}
    {pos : List Nat} :
    ResidentAt level (segment :: path) pos ↔ ∃ j field pos', pos = j :: pos' ∧
      level[j]? = some field ∧ eqIgnoreAsciiCase field.name segment = true ∧
      ResidentAt (field.struct.getD []) path pos' := by
  constructor
  · rintro ⟨names, hnames, hsame⟩
    cases pos with
    | nil =>
      cases hnames
      cases hsame
    | cons j pos =>
      rw [residentNamesAt] at hnames
      simp only [Option.bind_eq_bind, Option.bind_eq_some_iff, Option.pure_def,
        Option.some.injEq] at hnames
      obtain ⟨field, hfield, names', hnames', rfl⟩ := hnames
      obtain ⟨hname, hsame⟩ := List.forall₂_cons.1 hsame
      exact ⟨j, field, pos, rfl, hfield, hname, names', hnames', hsame⟩
  · rintro ⟨j, field, pos', rfl, hfield, hname, names, hnames, hsame⟩
    refine ⟨field.name :: names, ?_, .cons hname hsame⟩
    rw [residentNamesAt, hfield]
    simp [hnames]

/-- A reader finds a path at one position at most. -/
theorem residentAt_unique {path : FieldPath} : ∀ {level : List FieldNode} {pos pos' : List Nat},
    DistinctNames level → ResidentAt level path pos → ResidentAt level path pos' → pos = pos' := by
  induction path with
  | nil =>
    intro level pos pos' _ h h'
    rw [residentAt_nil.1 h, residentAt_nil.1 h']
  | cons segment path ih =>
    intro level pos pos' hdistinct h h'
    obtain ⟨j, field, rest, rfl, hfield, hname, hrest⟩ := residentAt_cons.1 h
    obtain ⟨j', field', rest', rfl, hfield', hname', hrest'⟩ := residentAt_cons.1 h'
    obtain ⟨hlevel, hinner⟩ := hdistinct
    have hsame : ∀ {f g : FieldNode}, eqIgnoreAsciiCase f.name segment = true →
        eqIgnoreAsciiCase g.name segment = true → eqIgnoreAsciiCase f.name g.name = true := by
      intro f g hf hg
      rw [eqIgnoreAsciiCase_iff] at *
      rw [hf, hg]
    obtain ⟨hj, hget⟩ := List.getElem?_eq_some_iff.1 hfield
    obtain ⟨hj', hget'⟩ := List.getElem?_eq_some_iff.1 hfield'
    have hpair := List.pairwise_iff_getElem.1 hlevel
    obtain hlt | rfl | hgt := Nat.lt_trichotomy j j'
    · have hne := hpair j j' hj hj' hlt
      rw [hget, hget', hsame hname hname'] at hne
      cases hne
    · obtain rfl := Option.some.inj (hfield.symm.trans hfield')
      congr 1
      cases hstruct : field.struct with
      | none =>
        rw [hstruct] at hrest hrest'
        refine ih (.level .nil (by simp)) hrest hrest'
      | some children =>
        rw [hstruct] at hrest hrest'
        exact ih (hinner field (List.mem_of_getElem? hfield) children hstruct) hrest hrest'
    · have hne := hpair j' j hj' hj hgt
      rw [hget, hget', hsame hname' hname] at hne
      cases hne

/-! ### What a walk finds -/

theorem mem_caseMatches {nodes : List NameNode} {name : String} {j : Nat} :
    j ∈ caseMatches nodes name ↔ ∃ node, nodes[j]? = some node ∧
      eqIgnoreAsciiCase node.name name = true := by
  rw [caseMatches, List.mem_map]
  constructor
  · rintro ⟨⟨node, i⟩, hmem, rfl⟩
    obtain ⟨hmem, hname⟩ := List.mem_filter.1 hmem
    exact ⟨node, List.mem_zipIdx_iff_getElem?.1 hmem, hname⟩
  · rintro ⟨node, hnode, hname⟩
    exact ⟨(node, j), List.mem_filter.2 ⟨List.mem_zipIdx_iff_getElem?.2 hnode, hname⟩, rfl⟩

theorem nodup_caseMatches (nodes : List NameNode) (name : String) :
    (caseMatches nodes name).Nodup := by
  refine (List.filter_sublist.map Prod.snd).nodup ?_
  rw [List.zipIdx_map_snd]
  exact List.nodup_range'

/-- A path is at one position of the file, and a reader that looks it up may come there. -/
def Followed (file : List NameNode) (resident : List FieldNode) (path : FieldPath) (pos : List Nat) :
    Prop :=
  (∀ pos', FileAt file path pos' ↔ pos' = pos) ∧ ResidentAt resident path pos

/-- What the names along a path have to say for each outcome of its walk.  But for the first, a part
of the path is followed and the segment behind it is not. -/
inductive Finds (file : List NameNode) (resident : List FieldNode) (path : FieldPath) :
    PathWalk → Prop where
  | resolves {pos : List Nat} (hfollowed : Followed file resident path pos) :
      Finds file resident path .resolves
  /-- The file has the segment nowhere. -/
  | missing {before after : FieldPath} {segment : String} {pos : List Nat}
      (hpath : path = before ++ segment :: after) (hfollowed : Followed file resident before pos)
      (hnowhere : ∀ pos', ¬FileAt file (before ++ [segment]) pos') : Finds file resident path .absent
  /-- There is no struct to hold the segment. -/
  | noStruct {before after : FieldPath} {segment : String} {pos : List Nat}
      (hpath : path = before ++ segment :: after) (hfollowed : Followed file resident before pos)
      (hleaf : residentLevelAt resident pos = none) : Finds file resident path .absent
  /-- The file has the segment at two positions. -/
  | ambiguous {before after : FieldPath} {segment : String} {pos : List Nat} {i j : Nat}
      {names : List String} (hpath : path = before ++ segment :: after)
      (hfollowed : Followed file resident before pos) (hne : i ≠ j)
      (hi : FileAt file (before ++ [segment]) (pos ++ [i]))
      (hj : FileAt file (before ++ [segment]) (pos ++ [j])) :
      Finds file resident path (.ambiguous names)
  /-- The file has the segment at one position, and no reader that looks it up comes there. -/
  | misbound {before after : FieldPath} {segment : String} {pos : List Nat} {j : Nat}
      {filePath residentPath : String} (hpath : path = before ++ segment :: after)
      (hfollowed : Followed file resident before pos)
      (hone : ∀ pos', FileAt file (before ++ [segment]) pos' ↔ pos' = pos ++ [j])
      (hother : ¬ResidentAt resident (before ++ [segment]) (pos ++ [j])) :
      Finds file resident path (.misbound filePath residentPath)
  /-- The struct that should hold the segment has another number of fields in the file. -/
  | inconsistent {before after : FieldPath} {segment : String} {pos : List Nat} {filePath : String}
      {nodes : List NameNode} {fields : List FieldNode} (hpath : path = before ++ segment :: after)
      (hinner : before ≠ []) (hfollowed : Followed file resident before pos)
      (hnodes : levelAt file pos = some nodes)
      (hfields : residentLevelAt resident pos = some fields) (hcount : fields.length ≠ nodes.length) :
      Finds file resident path (.inconsistent filePath nodes.length fields.length)

section Step

variable {file : List NameNode} {resident : List FieldNode} {segment : String} {j : Nat}
  {node : NameNode} {field : FieldNode}

theorem followed_nil : Followed file resident [] [] := ⟨fun _ => fileAt_nil, residentAt_nil.2 rfl⟩

/-- A position of a path whose first segment matches once begins with the index it matches. -/
theorem fileAt_cons_iff (hmatches : caseMatches file segment = [j]) (hnode : file[j]? = some node)
    {path : FieldPath} {pos : List Nat} : FileAt file (segment :: path) pos ↔
      ∃ pos', pos = j :: pos' ∧ FileAt node.children path pos' := by
  have hmem := @mem_caseMatches file segment
  rw [hmatches] at hmem
  rw [fileAt_cons]
  constructor
  · rintro ⟨i, node', pos', rfl, hnode', hname, hpath⟩
    obtain rfl := List.mem_singleton.1 (hmem.2 ⟨node', hnode', hname⟩)
    obtain rfl := Option.some.inj (hnode.symm.trans hnode')
    exact ⟨pos', rfl, hpath⟩
  · rintro ⟨pos', rfl, hpath⟩
    obtain ⟨node', hnode', hname⟩ := hmem.1 (List.mem_singleton_self j)
    obtain rfl := Option.some.inj (hnode.symm.trans hnode')
    exact ⟨j, node, pos', rfl, hnode, hname, hpath⟩

theorem fileAt_cons_unique (hmatches : caseMatches file segment = [j])
    (hnode : file[j]? = some node) {path : FieldPath} {pos : List Nat}
    (h : ∀ pos', FileAt node.children path pos' ↔ pos' = pos) (pos' : List Nat) :
    FileAt file (segment :: path) pos' ↔ pos' = j :: pos := by
  rw [fileAt_cons_iff hmatches hnode]
  constructor
  · rintro ⟨rest, rfl, hrest⟩
    rw [(h rest).1 hrest]
  · rintro rfl
    exact ⟨pos, rfl, (h pos).2 rfl⟩

theorem residentAt_cons_iff (hfield : resident[j]? = some field)
    (hname : eqIgnoreAsciiCase field.name segment = true) {path : FieldPath} {pos : List Nat} :
    ResidentAt resident (segment :: path) (j :: pos) ↔
      ResidentAt (field.struct.getD []) path pos := by
  rw [residentAt_cons]
  constructor
  · rintro ⟨i, field', pos', heq, hfield', -, hpath⟩
    obtain ⟨rfl, rfl⟩ := List.cons.inj heq
    obtain rfl := Option.some.inj (hfield.symm.trans hfield')
    exact hpath
  · intro hpath
    exact ⟨j, field, pos, rfl, hfield, hname, hpath⟩

/-- A path is followed from the level of its first segment as from the level below. -/
theorem Followed.cons (hmatches : caseMatches file segment = [j]) (hnode : file[j]? = some node)
    (hfield : resident[j]? = some field) (hname : eqIgnoreAsciiCase field.name segment = true)
    {path : FieldPath} {pos : List Nat}
    (h : Followed node.children (field.struct.getD []) path pos) :
    Followed file resident (segment :: path) (j :: pos) :=
  ⟨fileAt_cons_unique hmatches hnode h.1, (residentAt_cons_iff hfield hname).2 h.2⟩

/-- What is found below the field of the first segment is found from its level. -/
theorem Finds.cons (hmatches : caseMatches file segment = [j]) (hnode : file[j]? = some node)
    (hfield : resident[j]? = some field) (hname : eqIgnoreAsciiCase field.name segment = true)
    {children : List FieldNode} (hstruct : field.struct = some children) {path : FieldPath}
    {w : PathWalk} (h : Finds node.children children path w) :
    Finds file resident (segment :: path) w := by
  have hchildren : field.struct.getD [] = children := by rw [hstruct, Option.getD_some]
  have hat : ∀ {p pos}, FileAt node.children p pos → FileAt file (segment :: p) (j :: pos) :=
    fun hp => (fileAt_cons_iff hmatches hnode).2 ⟨_, rfl, hp⟩
  have hfollow : ∀ {p pos}, Followed node.children children p pos →
      Followed file resident (segment :: p) (j :: pos) :=
    fun hp => Followed.cons hmatches hnode hfield hname (hchildren ▸ hp)
  have hinside : ∀ pos, residentLevelAt resident (j :: pos) = residentLevelAt children pos := by
    intro pos
    rw [residentLevelAt, hfield]
    simp only [Option.bind_eq_bind, Option.bind_some, hstruct]
  cases h with
  | resolves hfollowed => exact .resolves (hfollow hfollowed)
  | missing hpath hfollowed hnowhere =>
    refine .missing (by rw [hpath]; rfl) (hfollow hfollowed) fun pos' hpos' => ?_
    obtain ⟨rest, -, hrest⟩ := (fileAt_cons_iff hmatches hnode).1 hpos'
    exact hnowhere rest hrest
  | noStruct hpath hfollowed hleaf =>
    exact .noStruct (by rw [hpath]; rfl) (hfollow hfollowed) ((hinside _).trans hleaf)
  | ambiguous hpath hfollowed hne hi hj =>
    exact .ambiguous (by rw [hpath]; rfl) (hfollow hfollowed) hne (hat hi) (hat hj)
  | misbound hpath hfollowed hone hother =>
    refine .misbound (by rw [hpath]; rfl) (hfollow hfollowed)
      (fileAt_cons_unique hmatches hnode hone) fun hresident => hother ?_
    exact hchildren ▸ (residentAt_cons_iff hfield hname).1 hresident
  | inconsistent hpath _ hfollowed hnodes hfields hcount =>
    refine .inconsistent (by rw [hpath]; rfl) (List.cons_ne_nil _ _) (hfollow hfollowed) ?_
      ((hinside _).trans hfields) hcount
    rw [levelAt, hnode]
    exact hnodes

theorem finds_of_none (hmatches : caseMatches file segment = []) (path : FieldPath) :
    Finds file resident (segment :: path) .absent := by
  have hpath : segment :: path = [] ++ segment :: path := rfl
  refine .missing hpath followed_nil fun pos' hpos' => ?_
  obtain ⟨i, node, -, -, hnode, hname, -⟩ := fileAt_cons.1 hpos'
  have hmem := mem_caseMatches.2 ⟨node, hnode, hname⟩
  rw [hmatches] at hmem
  cases hmem

/-- The indices of two names that are matched are two positions. -/
theorem finds_of_many {i j : Nat} {more : List Nat}
    (hmatches : caseMatches file segment = i :: j :: more) (path : FieldPath) (names : List String) :
    Finds file resident (segment :: path) (.ambiguous names) := by
  have hpath : segment :: path = [] ++ segment :: path := rfl
  have hne : i ≠ j := by
    have hnodup := nodup_caseMatches file segment
    rw [hmatches, List.nodup_cons] at hnodup
    exact fun heq => hnodup.1 (heq ▸ List.mem_cons_self)
  have hat : ∀ k ∈ caseMatches file segment, FileAt file ([] ++ [segment]) ([] ++ [k]) := by
    intro k hk
    obtain ⟨node, hnode, hname⟩ := mem_caseMatches.1 hk
    exact fileAt_cons.2 ⟨k, node, [], rfl, hnode, hname, fileAt_nil.2 rfl⟩
  exact .ambiguous hpath followed_nil hne (hat i (by rw [hmatches]; simp))
    (hat j (by rw [hmatches]; simp))

/-- A reader that looks the segment up does not come to a field of another name. -/
theorem finds_of_other (hmatches : caseMatches file segment = [j]) (hnode : file[j]? = some node)
    (hfield : resident[j]? = some field) (hname : eqIgnoreAsciiCase field.name segment = false)
    (path : FieldPath) (filePath residentPath : String) :
    Finds file resident (segment :: path) (.misbound filePath residentPath) := by
  have hpath : segment :: path = [] ++ segment :: path := rfl
  refine .misbound hpath followed_nil
    (fileAt_cons_unique hmatches hnode fun _ => fileAt_nil) fun hresident => ?_
  obtain ⟨i, field', pos', heq, hfield', hname', -⟩ := residentAt_cons.1 hresident
  obtain ⟨rfl, -⟩ := List.cons.inj heq
  obtain rfl := Option.some.inj (hfield.symm.trans hfield')
  rw [hname] at hname'
  cases hname'

end Step

/-- A walk finds what the names along its path say.  No index is out of range where every field of the
file has a field to read. -/
theorem walk_spec {path : FieldPath} : ∀ {fileLevel : List NameNode} {residentLevel : List FieldNode}
    {filePath residentPath : FieldPath}, fileLevel.length ≤ residentLevel.length →
    ∃ w, walk fileLevel residentLevel filePath residentPath path = some w ∧
      Finds fileLevel residentLevel path w := by
  induction path with
  | nil =>
    intro fileLevel residentLevel filePath residentPath _
    exact ⟨.resolves, rfl, .resolves followed_nil⟩
  | cons segment rest ih =>
    intro fileLevel residentLevel filePath residentPath hlen
    have hmem := @mem_caseMatches fileLevel segment
    rw [walk]
    cases hmatches : caseMatches fileLevel segment with
    | nil => exact ⟨.absent, rfl, finds_of_none hmatches rest⟩
    | cons j more =>
      rw [hmatches] at hmem
      cases more with
      | cons k more =>
        -- Every index that is matched is one of the level.
        have hrange : ∀ i ∈ j :: k :: more, ∃ name,
            ((fileLevel[i]?).map fun node => joined (filePath ++ [node.name])) = some name := by
          intro i hi
          obtain ⟨node, hnode, -⟩ := hmem.1 hi
          exact ⟨joined (filePath ++ [node.name]), by rw [hnode, Option.map_some]⟩
        obtain ⟨names, hnames⟩ := Lib.exists_mapM hrange
        refine ⟨.ambiguous names, ?_, finds_of_many hmatches rest names⟩
        simp only [hnames]
        rfl
      | nil =>
        obtain ⟨node, hnode, -⟩ := hmem.1 (List.mem_singleton_self j)
        obtain ⟨hj, -⟩ := List.getElem?_eq_some_iff.1 hnode
        obtain ⟨field, hfield⟩ : ∃ field, residentLevel[j]? = some field :=
          ⟨_, List.getElem?_eq_getElem (Nat.lt_of_lt_of_le hj hlen)⟩
        simp only [hnode, hfield, Option.bind_eq_bind, Option.bind_some]
        by_cases hbound : eqIgnoreAsciiCase field.name segment = false
        · rw [if_pos hbound]
          exact ⟨_, rfl, finds_of_other hmatches hnode hfield hbound rest _ _⟩
        · rw [if_neg hbound]
          rw [Bool.not_eq_false] at hbound
          have hfirst : Followed fileLevel residentLevel [segment] [j] :=
            Followed.cons hmatches hnode hfield hbound followed_nil
          by_cases hrest : rest = []
          · rw [if_pos hrest, hrest]
            exact ⟨.resolves, rfl, .resolves hfirst⟩
          · rw [if_neg hrest]
            obtain ⟨next, after, rfl⟩ := List.exists_cons_of_ne_nil hrest
            have hpath : segment :: next :: after = [segment] ++ next :: after := rfl
            cases hstruct : field.struct with
            | none =>
              refine ⟨.absent, rfl, .noStruct hpath hfirst ?_⟩
              rw [residentLevelAt, hfield]
              simp only [Option.bind_eq_bind, Option.bind_some, hstruct, Option.bind_none]
            | some children =>
              by_cases hcount : children.length ≠ node.children.length
              · simp only [hcount, if_true, ne_eq, not_false_eq_true]
                refine ⟨_, rfl, .inconsistent hpath (List.cons_ne_nil _ _) hfirst ?_ ?_ hcount⟩
                · rw [levelAt, hnode]
                  rfl
                · rw [residentLevelAt, hfield]
                  simp only [Option.bind_eq_bind, Option.bind_some, hstruct]
                  rfl
              · simp only [hcount, if_false]
                obtain ⟨w, hw, hfinds⟩ := @ih node.children children (filePath ++ [node.name])
                  (residentPath ++ [field.name]) (by omega)
                exact ⟨w, hw, hfinds.cons hmatches hnode hfield hbound hstruct⟩

/-! ### What is judged -/

/-- A path is at one position of the file, and a reader that looks it up is there. -/
def Bound (file : NameNode) (schema : List FieldNode) (p : FieldPath) : Prop :=
  ∃ pos, (∀ pos', ResidentAt schema p pos' ↔ pos' = pos) ∧
    ∀ pos', FileAt file.children p pos' ↔ pos' = pos

/-- Nothing but its absence is held against a path. -/
def Passed (file : NameNode) (schema : List FieldNode) (p : FieldPath) : Prop :=
  ∃ w, fieldPathExists file schema p = some w ∧ w.refusal p = none

/-- The first of these decides: a name no statement reaches, the first path that is refused, the first
that is absent.  What is held against a path is so by the names along it. -/
inductive Judged (file : NameNode) (schema : List FieldNode) (c : CoveringBbox) :
    Except EngineError (Option CoveringFinding) → Prop where
  | notAddressable {reason : String} (hreason : coveringNotAddressableReason c = some reason) :
      Judged file schema c (.ok (some (.notAddressable reason)))
  | refused {before after : List FieldPath} {p : FieldPath} {w : PathWalk} {e : EngineError}
      (hreason : coveringNotAddressableReason c = none) (hpaths : c.paths = before ++ p :: after)
      (hbefore : ∀ q ∈ before, Passed file schema q) (hwalk : fieldPathExists file schema p = some w)
      (hfinds : Finds file.children schema p w) (hrefusal : w.refusal p = some e) :
      Judged file schema c (.error e)
  | absent {before after : List FieldPath} {p : FieldPath}
      (hreason : coveringNotAddressableReason c = none) (hpaths : c.paths = before ++ p :: after)
      (hpassed : ∀ q ∈ c.paths, Passed file schema q)
      (hbefore : ∀ q ∈ before, fieldPathExists file schema q = some .resolves)
      (hwalk : fieldPathExists file schema p = some .absent)
      (hfinds : Finds file.children schema p .absent) :
      Judged file schema c (.ok (some (.absent (dotted p))))
  | usable (hreason : coveringNotAddressableReason c = none)
      (hwalk : ∀ p ∈ c.paths, fieldPathExists file schema p = some .resolves)
      (hbound : ∀ p ∈ c.paths, Bound file schema p) : Judged file schema c (.ok none)

variable {file : NameNode} {schema : List FieldNode}

theorem le_of_checkNamesAlign (h : checkNamesAlign file schema = .ok ()) :
    file.children.length ≤ schema.length := by
  by_contra hlt
  simp only [checkNamesAlign, not_le.1 hlt, if_true] at h
  cases h

theorem refusal_eq_none_iff {w : PathWalk} {p : FieldPath} :
    w.refusal p = none ↔ w = .resolves ∨ w = .absent := by
  cases w <;> simp [PathWalk.refusal]

/-- One path of the loop that has not been refused. -/
theorem judgePaths_cons_of_passed {absent : Option String} {p : FieldPath} {ps : List FieldPath}
    {w : PathWalk} (hwalk : fieldPathExists file schema p = some w) (hpassed : w.refusal p = none) :
    judgePaths file schema absent (p :: ps) =
      judgePaths file schema (if w = .absent then some (absent.getD (dotted p)) else absent) ps := by
  rw [judgePaths, hwalk, Panics.unwrap_some]
  change (match w.refusal p with
    | some e => throw e
    | none => _) = _
  rw [hpassed]
  by_cases habsent : w = .absent
  · simp only [habsent, if_true]
  · simp only [habsent, if_false]

theorem judgePaths_cons_of_refused {absent : Option String} {p : FieldPath} {ps : List FieldPath}
    {w : PathWalk} {e : EngineError} (hwalk : fieldPathExists file schema p = some w)
    (hrefusal : w.refusal p = some e) :
    judgePaths file schema absent (p :: ps) = Panics.of (.error e) := by
  rw [judgePaths, hwalk, Panics.unwrap_some]
  change (match w.refusal p with
    | some e => throw e
    | none => _) = _
  rw [hrefusal]
  rfl

/-- How the loop over the paths ends. -/
inductive PathsJudged (file : NameNode) (schema : List FieldNode) (absent : Option String)
    (ps : List FieldPath) : Except EngineError (Option String) → Prop where
  | refused {before after : List FieldPath} {p : FieldPath} {w : PathWalk} {e : EngineError}
      (hpaths : ps = before ++ p :: after) (hbefore : ∀ q ∈ before, Passed file schema q)
      (hwalk : fieldPathExists file schema p = some w) (hrefusal : w.refusal p = some e) :
      PathsJudged file schema absent ps (.error e)
  | first {before after : List FieldPath} {p : FieldPath} (hnone : absent = none)
      (hpaths : ps = before ++ p :: after) (hpassed : ∀ q ∈ ps, Passed file schema q)
      (hbefore : ∀ q ∈ before, fieldPathExists file schema q = some .resolves)
      (hwalk : fieldPathExists file schema p = some .absent) :
      PathsJudged file schema absent ps (.ok (some (dotted p)))
  | kept {path : String} (hsome : absent = some path) (hpassed : ∀ q ∈ ps, Passed file schema q) :
      PathsJudged file schema absent ps (.ok (some path))
  | resolved (hnone : absent = none)
      (hwalk : ∀ q ∈ ps, fieldPathExists file schema q = some .resolves) :
      PathsJudged file schema absent ps (.ok none)

theorem judgePaths_spec (haligned : file.children.length ≤ schema.length) (absent : Option String)
    (ps : List FieldPath) :
    ∃ r, judgePaths file schema absent ps = Panics.of r ∧ PathsJudged file schema absent ps r := by
  induction ps generalizing absent with
  | nil =>
    refine ⟨.ok absent, rfl, ?_⟩
    cases absent with
    | none => exact .resolved rfl (by simp)
    | some path => exact .kept rfl (by simp)
  | cons p ps ih =>
    obtain ⟨w, hwalk, -⟩ := @walk_spec p file.children schema [] [] haligned
    change fieldPathExists file schema p = some w at hwalk
    cases hrefusal : w.refusal p with
    | some e =>
      exact ⟨.error e, judgePaths_cons_of_refused hwalk hrefusal,
        .refused (List.nil_append (p :: ps)).symm (by simp) hwalk hrefusal⟩
    | none =>
      have hp : Passed file schema p := ⟨w, hwalk, hrefusal⟩
      rw [judgePaths_cons_of_passed hwalk hrefusal]
      obtain ⟨r, hr, hjudged⟩ := ih (if w = .absent then some (absent.getD (dotted p)) else absent)
      refine ⟨r, hr, ?_⟩
      obtain rfl | rfl := refusal_eq_none_iff.1 hrefusal
      · simp only [reduceCtorEq, if_false] at hjudged
        cases hjudged with
        | refused hpaths hbefore hwalk' hrefusal' =>
          exact .refused (by rw [hpaths, List.cons_append]) (List.forall_mem_cons.2 ⟨hp, hbefore⟩)
            hwalk' hrefusal'
        | first hnone hpaths hpassed hbefore hwalk' =>
          exact .first hnone (by rw [hpaths, List.cons_append])
            (List.forall_mem_cons.2 ⟨hp, hpassed⟩) (List.forall_mem_cons.2 ⟨hwalk, hbefore⟩) hwalk'
        | kept hsome hpassed => exact .kept hsome (List.forall_mem_cons.2 ⟨hp, hpassed⟩)
        | resolved hnone hwalk' => exact .resolved hnone (List.forall_mem_cons.2 ⟨hwalk, hwalk'⟩)
      · simp only [if_true] at hjudged
        cases hjudged with
        | refused hpaths hbefore hwalk' hrefusal' =>
          exact .refused (by rw [hpaths, List.cons_append]) (List.forall_mem_cons.2 ⟨hp, hbefore⟩)
            hwalk' hrefusal'
        | first hnone => cases hnone
        | kept hsome hpassed =>
          obtain rfl := Option.some.inj hsome
          cases absent with
          | none =>
            exact .first rfl (List.nil_append (p :: ps)).symm (List.forall_mem_cons.2 ⟨hp, hpassed⟩)
              (by simp) hwalk
          | some path => exact .kept rfl (List.forall_mem_cons.2 ⟨hp, hpassed⟩)
        | resolved hnone => cases hnone

theorem finds_of_walk (haligned : file.children.length ≤ schema.length) {p : FieldPath} {w : PathWalk}
    (hwalk : fieldPathExists file schema p = some w) : Finds file.children schema p w := by
  obtain ⟨w', hw', hfinds⟩ := @walk_spec p file.children schema [] [] haligned
  obtain rfl := Option.some.inj (hw'.symm.trans hwalk)
  exact hfinds

theorem bound_of_resolves (haligned : file.children.length ≤ schema.length)
    (hdistinct : DistinctNames schema) {p : FieldPath}
    (hwalk : fieldPathExists file schema p = some .resolves) : Bound file schema p := by
  cases finds_of_walk haligned hwalk with
  | resolves hfollowed =>
    obtain ⟨hfile, hresident⟩ := hfollowed
    refine ⟨_, fun pos' => ⟨fun h => residentAt_unique hdistinct h hresident, ?_⟩, hfile⟩
    rintro rfl
    exact hresident

/-- A covering is judged in one order, no index is out of range, and where nothing is found each path
is at one position, the same for a reader as in the file. -/
theorem judgeCovering_bound (haligned : checkNamesAlign file schema = .ok ())
    (hdistinct : DistinctNames schema) (c : CoveringBbox) :
    ∃ r, judgeCovering (some c) schema file = Panics.of r ∧ Judged file schema c r := by
  have hlen := le_of_checkNamesAlign haligned
  rw [judgeCovering]
  cases hreason : coveringNotAddressableReason c with
  | some reason => exact ⟨_, rfl, .notAddressable hreason⟩
  | none =>
    obtain ⟨r, hr, hjudged⟩ := judgePaths_spec hlen none c.paths
    simp only [hr]
    cases hjudged with
    | refused hpaths hbefore hwalk hrefusal =>
      exact ⟨_, rfl, .refused hreason hpaths hbefore hwalk (finds_of_walk hlen hwalk) hrefusal⟩
    | first _ hpaths hpassed hbefore hwalk =>
      exact ⟨_, rfl, .absent hreason hpaths hpassed hbefore hwalk (finds_of_walk hlen hwalk)⟩
    | kept hsome => cases hsome
    | resolved _ hwalk =>
      exact ⟨_, rfl, .usable hreason hwalk fun p hp => bound_of_resolves hlen hdistinct (hwalk p hp)⟩

/-! ### Another letter case -/

/-- A file that writes its struct in capitals. -/
def capitalFile : NameNode :=
  .mk "schema" [.mk "BBOX" [.mk "xmin" [], .mk "ymin" [], .mk "xmax" [], .mk "ymax" []]]

def capitalSchema : List FieldNode :=
  [.mk "BBOX" (some [.mk "xmin" none, .mk "ymin" none, .mk "xmax" none, .mk "ymax" none])]

def smallCovering : CoveringBbox :=
  ⟨["bbox", "xmin"], ["bbox", "ymin"], ["bbox", "xmax"], ["bbox", "ymax"]⟩

theorem distinctNames_leaves {names : List String}
    (h : names.Pairwise fun s t => eqIgnoreAsciiCase s t = false) :
    DistinctNames (names.map fun name => .mk name none) := by
  refine .level (List.pairwise_map.2 h) fun f hf children hstruct => ?_
  obtain ⟨name, -, rfl⟩ := List.mem_map.1 hf
  cases hstruct

theorem distinctNames_capitalSchema : DistinctNames capitalSchema := by
  refine .level (List.pairwise_singleton _ _) fun f hf children hstruct => ?_
  obtain rfl := List.mem_singleton.1 hf
  obtain rfl := Option.some.inj hstruct
  have hleaves : ["xmin", "ymin", "xmax", "ymax"].Pairwise
      fun s t => eqIgnoreAsciiCase s t = false := by decide
  exact distinctNames_leaves hleaves

/-- A covering is usable whose paths the file writes in another case, and has nowhere as declared. -/
theorem judgeCovering_other_case :
    checkNamesAlign capitalFile capitalSchema = .ok () ∧ DistinctNames capitalSchema ∧
    judgeCovering (some smallCovering) capitalSchema capitalFile = Panics.of (.ok none) ∧
    ∀ p ∈ smallCovering.paths, ∀ pos, namesAt capitalFile.children pos ≠ some p := by
  refine ⟨rfl, distinctNames_capitalSchema, rfl, fun p hp pos hpos => ?_⟩
  have hhead : p.head? = some "bbox" := by
    simp only [CoveringBbox.paths, smallCovering, List.mem_cons, List.not_mem_nil, or_false] at hp
    obtain rfl | rfl | rfl | rfl := hp <;> rfl
  cases pos with
  | nil =>
    obtain rfl := Option.some.inj hpos
    cases hhead
  | cons j pos =>
    cases j with
    | zero =>
      rw [namesAt] at hpos
      simp only [capitalFile, NameNode.children, List.getElem?_cons_zero, Option.bind_eq_bind,
        Option.bind_some, Option.bind_eq_some_iff, Option.pure_def, Option.some.injEq] at hpos
      obtain ⟨names, -, rfl⟩ := hpos
      simp [NameNode.name] at hhead
    | succ j =>
      rw [namesAt] at hpos
      simp [capitalFile, NameNode.children] at hpos

/-- A file that has the column twice, in two letter cases. -/
def twinFile : NameNode := .mk "schema" [.mk "bbox" [], .mk "BBOX" []]

def twinSchema : List FieldNode := ["bbox", "BBOX_1"].map fun name => .mk name none

theorem distinctNames_twinSchema : DistinctNames twinSchema := distinctNames_leaves (by decide)

/-- The four paths of that covering are bound, and the covering is refused where the file has the
column twice. -/
theorem judgeCovering_bound_capitals :
    (checkNamesAlign capitalFile capitalSchema = .ok () ∧ DistinctNames capitalSchema ∧
      judgeCovering (some smallCovering) capitalSchema capitalFile = Panics.of (.ok none) ∧
      Judged capitalFile capitalSchema smallCovering (.ok none)) ∧
    checkNamesAlign twinFile twinSchema = .ok () ∧ DistinctNames twinSchema ∧
      ∃ e, judgeCovering (some smallCovering) twinSchema twinFile = Panics.of (.error e) ∧
        Judged twinFile twinSchema smallCovering (.error e) := by
  have haligned : checkNamesAlign capitalFile capitalSchema = .ok () := rfl
  have haligned' : checkNamesAlign twinFile twinSchema = .ok () := rfl
  obtain ⟨r, hr, hjudged⟩ := judgeCovering_bound haligned distinctNames_capitalSchema smallCovering
  obtain ⟨r', hr', hjudged'⟩ := judgeCovering_bound haligned' distinctNames_twinSchema smallCovering
  refine ⟨⟨haligned, distinctNames_capitalSchema, rfl, ?_⟩, haligned', distinctNames_twinSchema, ?_⟩
  · cases Option.some.inj hr
    exact hjudged
  · cases r' with
    | error e => exact ⟨e, hr', hjudged'⟩
    | ok finding => cases Option.some.inj hr'

end SpatialIde.Engine.Covering
