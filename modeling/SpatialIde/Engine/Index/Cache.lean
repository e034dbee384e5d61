import SpatialIde.Engine.Index
import SpatialIde.Lib.OrderedMap
import SpatialIde.Lib.Path

/-! # Served indexes

`build_index` hashes the file, measures its length and modification time, asks the cache, scans the
file and inserts what it built; a query's check takes the recorded hash, measures the file and asks
the cache.  Every such stretch is one step or several, and the file may change between any two of
them.  Of a file that has not changed since it was opened a read gives what is in it; of one that has
a read may give anything.
-/

namespace SpatialIde.Engine

open Lib

def BUILDER_VERSION : UInt32 := 1

def ANSWERS_PREDICATE : String := "covering-bbox-intersects"

/-- What an index was built from, by, and for. -/
structure IndexKey where
  contentHash : String
  builderVersion : UInt32
  answers : String
  gridAxisCells : Nat
  idColumn : String
  deriving DecidableEq, Repr

def IndexKey.new (contentHash idColumn : String) : IndexKey :=
  ⟨contentHash, BUILDER_VERSION, ANSWERS_PREDICATE, GRID_AXIS_CELLS, idColumn⟩

structure ValidityHeuristic where
  len : Nat
  modifiedNanos : Option Nat
  deriving DecidableEq, Repr

/-- What is unknown does not match. -/
def ValidityHeuristic.failClosedMatches : Option ValidityHeuristic → Option ValidityHeuristic → Bool
  | some x, some y => x = y && x.modifiedNanos.isSome
  | _, _ => false

inductive IndexMiss where
  | absent
  | keyMismatch
  | sourceChanged
  deriving DecidableEq, Repr

/-- An index with the facts it is admitted by. -/
structure CachedIndex where
  key : IndexKey
  validity : Option ValidityHeuristic
  index : SpatialIndex

def CachedIndex.admits (i : CachedIndex) (key : IndexKey) (validity : Option ValidityHeuristic) :
    Except IndexMiss Unit :=
  if i.key ≠ key then .error .keyMismatch
  else if ValidityHeuristic.failClosedMatches i.validity validity = false then .error .sourceChanged
  else .ok ()

abbrev IndexCache := OrderedMap Path CachedIndex

namespace IndexCache

def get (cache : IndexCache) (path : Path) (key : IndexKey) (validity : Option ValidityHeuristic) :
    Except IndexMiss CachedIndex :=
  match OrderedMap.get cache path with
  | none => .error .absent
  | some found =>
    match found.admits key validity with
    | .error miss => .error miss
    | .ok () => .ok found

def hashFor (cache : IndexCache) (path : Path) : Option String :=
  (OrderedMap.get cache path).map (·.key.contentHash)

end IndexCache

/-! ### Files and datasets -/

structure File where
  bytes : List UInt8
  modifiedNanos : Option Nat
  deriving DecidableEq, Repr

/-- `ValidityHeuristic::of`, where the file can be measured. -/
def File.heuristic (f : File) : ValidityHeuristic := ⟨f.bytes.length, f.modifiedNanos⟩

structure Dataset where
  path : Path
  sourceColumn : String
  deriving DecidableEq, Repr

/-- SHA-256, and the chunks DuckDB scans from a file for an id column. -/
structure Scanner where
  digest : List UInt8 → String
  rows : List UInt8 → String → List (List Feature)

/-- The buffer of `content_hash`. -/
def HASH_BUFFER : Nat := 2 ^ 20

/-- Where a call of `build_index` is.  `opened` is how many contents the file had had when it was
opened, `measured` the file as it was measured. -/
inductive BuildPhase where
  | hashing (opened : Nat) (read : List UInt8)
  | hashed (key : IndexKey)
  | looking (key : IndexKey) (measured : Option File)
  | missed (key : IndexKey) (measured : Option File)
  | scanning (key : IndexKey) (measured : Option File) (opened : Nat) (chunks : List (List Feature))
  | built (key : IndexKey) (measured : Option File) (index : SpatialIndex)

structure IndexBuild where
  dataset : Dataset
  phase : BuildPhase

/-- Where a call of `admitted_index` is. -/
inductive CheckPhase where
  | keyed (key : IndexKey)
  | looking (key : IndexKey) (measured : Option File)

structure AdmissionCheck where
  dataset : Dataset
  phase : CheckPhase

/-- One question to the cache: who asked, the file as it was measured for it, what was cached, and
the answer. -/
structure CacheAnswer where
  dataset : Dataset
  measured : Option File
  found : Option CachedIndex
  result : Except IndexMiss CachedIndex

/-- `files` has every content of a path, the newest first. -/
structure IndexState where
  files : Path → List File
  cache : IndexCache
  builds : OrderedMap Nat IndexBuild
  checks : OrderedMap Nat AdmissionCheck
  answers : List CacheAnswer

def IndexState.start (files : Path → List File) : IndexState := ⟨files, .empty, .empty, .empty, []⟩

inductive IndexEvent where
  | modify (path : Path) (file : File)
  | begin (n : Nat) (dataset : Dataset)
  /-- One read; of no bytes, at the end. -/
  | read (n : Nat) (bytes : List UInt8)
  | measure (n : Nat) (readable : Bool)
  | look (n : Nat)
  | openScan (n : Nat)
  | scanChunk (n : Nat) (chunk : List Feature)
  /-- The scan is over, and what follows it finds these answers to its polls. -/
  | finish (n : Nat) (polls : List (Event Poll.Answer))
  | insert (n : Nat)
  /-- The build fails or is cancelled. -/
  | fail (n : Nat)
  | check (n : Nat) (dataset : Dataset)
  | measureCheck (n : Nat) (readable : Bool)
  | lookCheck (n : Nat)

namespace IndexState

/-- The file at a path, where its content is the one it had when it was opened. -/
def unchanged (s : IndexState) (path : Path) (opened : Nat) : Option File :=
  if (s.files path).length = opened then (s.files path).head? else none

def goOn (s : IndexState) (n : Nat) (b : IndexBuild) (phase : BuildPhase) : IndexState :=
  { s with builds := s.builds.set n { b with phase := phase } }

/-- A change of the file, to a length and modification time it never had. -/
def modify (s : IndexState) (path : Path) (file : File) : Option IndexState :=
  if file.heuristic ∈ (s.files path).map File.heuristic then none
  else some { s with files := Function.update s.files path (file :: s.files path) }

def begin (s : IndexState) (n : Nat) (dataset : Dataset) : Option IndexState :=
  if (s.builds.get n).isSome || (s.files dataset.path).isEmpty then none
  else some { s with
    builds := s.builds.set n ⟨dataset, .hashing (s.files dataset.path).length []⟩ }

variable (w : Scanner)

def read (s : IndexState) (n : Nat) (bytes : List UInt8) : Option IndexState :=
  match s.builds.get n with
  | some b =>
    match b.phase with
    | .hashing opened done =>
      let real := (s.unchanged b.dataset.path opened).all fun f =>
        bytes.isPrefixOf (f.bytes.drop done.length) && (bytes = [] → f.bytes.length ≤ done.length)
      if real = false ∨ HASH_BUFFER < bytes.length then none
      else if bytes = [] then
        some (s.goOn n b (.hashed (.new (w.digest done) b.dataset.sourceColumn)))
      else some (s.goOn n b (.hashing opened (done ++ bytes)))
    | _ => none
  | none => none

/-- The file as it is measured, where its metadata can be read. -/
def measured (s : IndexState) (path : Path) (readable : Bool) : Option File :=
  if readable then (s.files path).head? else none

def measure (s : IndexState) (n : Nat) (readable : Bool) : Option IndexState :=
  match s.builds.get n with
  | some b =>
    match b.phase with
    | .hashed key => some (s.goOn n b (.looking key (s.measured b.dataset.path readable)))
    | _ => none
  | none => none

/-- Ask the cache. -/
def answer (s : IndexState) (dataset : Dataset) (key : IndexKey) (measured : Option File) :
    CacheAnswer :=
  { dataset := dataset
    measured := measured
    found := OrderedMap.get s.cache dataset.path
    result := s.cache.get dataset.path key (measured.map File.heuristic) }

def look (s : IndexState) (n : Nat) : Option IndexState :=
  match s.builds.get n with
  | some b =>
    match b.phase with
    | .looking key measured =>
      let a := s.answer b.dataset key measured
      let s := { s with answers := s.answers ++ [a] }
      match a.result with
      | .ok _ => some { s with builds := s.builds.delete n }
      | .error _ => some (s.goOn n b (.missed key measured))
    | _ => none
  | none => none

def openScan (s : IndexState) (n : Nat) : Option IndexState :=
  match s.builds.get n with
  | some b =>
    match b.phase with
    | .missed key measured =>
      some (s.goOn n b (.scanning key measured (s.files b.dataset.path).length []))
    | _ => none
  | none => none

def scanChunk (s : IndexState) (n : Nat) (chunk : List Feature) : Option IndexState :=
  match s.builds.get n with
  | some b =>
    match b.phase with
    | .scanning key measured opened chunks =>
      let real := (s.unchanged b.dataset.path opened).all fun f =>
        (w.rows f.bytes b.dataset.sourceColumn)[chunks.length]? = some chunk
      if real then some (s.goOn n b (.scanning key measured opened (chunks ++ [chunk]))) else none
    | _ => none
  | none => none

def finish (s : IndexState) (n : Nat) (polls : List (Event Poll.Answer)) : Option IndexState :=
  match s.builds.get n with
  | some b =>
    match b.phase with
    | .scanning key measured opened chunks =>
      let real := (s.unchanged b.dataset.path opened).all fun f =>
        (w.rows f.bytes b.dataset.sourceColumn).length ≤ chunks.length
      if real = false then none
      else
        match (build chunks).replay polls with
        | some (.ok index) => some (s.goOn n b (.built key measured index))
        | some (.error _) => some { s with builds := s.builds.delete n }
        | none => none
    | _ => none
  | none => none

def insert (s : IndexState) (n : Nat) : Option IndexState :=
  match s.builds.get n with
  | some b =>
    match b.phase with
    | .built key measured index =>
      some { s with
        cache := s.cache.set b.dataset.path ⟨key, measured.map File.heuristic, index⟩
        builds := s.builds.delete n }
    | _ => none
  | none => none

def check (s : IndexState) (n : Nat) (dataset : Dataset) : Option IndexState :=
  if (s.checks.get n).isSome then none
  else
    match s.cache.hashFor dataset.path with
    | none => some s
    | some hash =>
      some { s with checks := s.checks.set n ⟨dataset, .keyed (.new hash dataset.sourceColumn)⟩ }

def measureCheck (s : IndexState) (n : Nat) (readable : Bool) : Option IndexState :=
  match s.checks.get n with
  | some c =>
    match c.phase with
    | .keyed key =>
      some { s with
        checks := s.checks.set n { c with
          phase := .looking key (s.measured c.dataset.path readable) } }
    | _ => none
  | none => none

def lookCheck (s : IndexState) (n : Nat) : Option IndexState :=
  match s.checks.get n with
  | some c =>
    match c.phase with
    | .looking key measured =>
      some { s with
        checks := s.checks.delete n
        answers := s.answers ++ [s.answer c.dataset key measured] }
    | _ => none
  | none => none

def step (s : IndexState) : IndexEvent → Option IndexState
  | .modify path file => s.modify path file
  | .begin n dataset => s.begin n dataset
  | .read n bytes => s.read w n bytes
  | .measure n readable => s.measure n readable
  | .look n => s.look n
  | .openScan n => s.openScan n
  | .scanChunk n chunk => s.scanChunk w n chunk
  | .finish n polls => s.finish w n polls
  | .insert n => s.insert n
  | .fail n => some { s with builds := s.builds.delete n }
  | .check n dataset => s.check n dataset
  | .measureCheck n readable => s.measureCheck n readable
  | .lookCheck n => s.lookCheck n

end IndexState

end SpatialIde.Engine
