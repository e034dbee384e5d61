import SpatialIde.Kernel.Permission.Error
import SpatialIde.Lib.Lines
import SpatialIde.Lib.Runs
import SpatialIde.Lib.Text
import SpatialIde.Renderer.Canonical.Faithful

/-! # The audit log

One live file and its rotated generations.  Opening the log rotates it where the live file has
reached its ceiling; an append puts one line at the end of the live file.  Any operation of the file
system may fail.  A file is kept here as the writes that made it, so that what became of an append
can be said.
-/

namespace SpatialIde.Kernel.Permission.Audit.Log

open Lib SpatialIde.Renderer

/-! ### Where it lives -/

/-- A path as Unix has it. -/
abbrev OsPath := List UInt8

def SLASH : UInt8 := 0x2F

def isAbsolute (p : OsPath) : Bool := p.head? == some SLASH

/-- `PathBuf::join`, for a relative path. -/
def join (base name : OsPath) : OsPath :=
  if base = [] ∨ base.getLast? = some SLASH then base ++ name else base ++ SLASH :: name

structure Environment where
  /-- `SPATIAL_IDE_AUDIT_LOG`. -/
  auditLog : Option OsPath
  xdgDataHome : Option OsPath
  home : Option OsPath

def dataDir (env : Environment) : Option OsPath :=
  env.xdgDataHome.or (env.home.map fun h => join h (Text.bytes ".local/share"))

/-- A value of the variable that is not Unicode is not taken. -/
def resolveLogPath (env : Environment) : Except AuditError OsPath :=
  match env.auditLog.bind Text.fromUtf8 with
  | some v =>
    if isAbsolute (Text.bytes v) then .ok (Text.bytes v)
    else
      .error (.unwritable v ("SPATIAL_IDE_AUDIT_LOG must be an absolute path — a relative one " ++
        "would put the audit log wherever the process happened to be started"))
  | none =>
    match dataDir env with
    | none =>
      .error (.unwritable "(unresolved)" ("no per-user data directory could be determined from " ++
        "the environment, and no SPATIAL_IDE_AUDIT_LOG was set. A class-3 operation with nowhere " ++
        "to record itself does not run"))
    | some base =>
      .ok (join (join (join base (Text.bytes "spatial-ide")) (Text.bytes "audit"))
        (Text.bytes "publish.jsonl"))

/-- `to_string_lossy`, with every separator of either kind a slash. -/
def shown (p : OsPath) : List Char :=
  (Text.Decoding.idle.run p).map fun c => if c = '\\' then '/' else c

def isInside (path root : OsPath) : Bool :=
  let norm (p : OsPath) : List Char := Text.trimEndOf (· == '/') (shown p)
  norm path == norm root || (norm root ++ ['/']).isPrefixOf (norm path)

/-! ### Files -/

def LF : UInt8 := 10

def MAX_AUDIT_LOG_BYTES : Nat := 8 * 1024 * 1024

def MAX_AUDIT_LOG_GENERATIONS : Nat := 4

/-- What an append has put at the end of a file. -/
structure Write where
  bytes : List UInt8
  acknowledged : Bool
  deriving DecidableEq, Repr

def bytesOf (file : List Write) : List UInt8 := (file.map Write.bytes).flatten

structure Disk where
  /-- The live file and, by their numbers, its generations. -/
  files : Nat → Option (List Write)
  /-- The files that were deleted or overwritten, one after the other. -/
  lost : List (List Write)

namespace Disk

def empty : Disk := ⟨fun _ => none, []⟩

def file (d : Disk) (n : Nat) : List Write := (d.files n).getD []

def remove (d : Disk) (n : Nat) : Disk :=
  ⟨Function.update d.files n none, d.lost ++ (d.files n).toList⟩

/-- To the next generation, over what is there. -/
def rename (d : Disk) (n : Nat) : Disk :=
  ⟨Function.update (Function.update d.files (n + 1) (d.files n)) n none,
    d.lost ++ (d.files (n + 1)).toList⟩

/-- The live file, which is made where there is none. -/
def create (d : Disk) : Disk := { d with files := Function.update d.files 0 (some (d.file 0)) }

def write (d : Disk) (w : Write) : Disk :=
  { d with files := Function.update d.files 0 (some (d.file 0 ++ [w])) }

end Disk

/-- How the operations of one `open_for` turn out: each failure with its text. -/
structure Answers where
  createDir : Option String
  metadataFails : Bool
  /-- `exists` answers no where it cannot tell. -/
  probeFails : Nat → Bool
  remove : Option String
  rename : Nat → Option String
  openLive : Option String

def Answers.fine : Answers := ⟨none, false, fun _ => false, none, fun _ => none, none⟩

def Answers.exists (a : Answers) (d : Disk) (n : Nat) : Bool := (d.files n).isSome && !a.probeFails n

section

-- How the path of the live file, or of a generation, is recorded.
variable (display : Nat → String)

/-- The generations from a number down, each to the next. -/
def shift (a : Answers) (d : Disk) : Nat → Disk × Except AuditError Unit
  | 0 => (d, .ok ())
  | n + 1 =>
    if a.exists d (n + 1) then
      match a.rename (n + 1) with
      | some e => (d, .error (.rotationFailed (display (n + 1)) e))
      | none => shift a (d.rename (n + 1)) n
    else shift a d n

def rotate (a : Answers) (d : Disk) : Disk × Except AuditError Unit :=
  match if a.exists d MAX_AUDIT_LOG_GENERATIONS then a.remove else none with
  | some e => (d, .error (.rotationFailed (display MAX_AUDIT_LOG_GENERATIONS) e))
  | none =>
    let removed :=
      if a.exists d MAX_AUDIT_LOG_GENERATIONS then d.remove MAX_AUDIT_LOG_GENERATIONS else d
    match shift display a removed (MAX_AUDIT_LOG_GENERATIONS - 1) with
    | (d, .error e) => (d, .error e)
    | (d, .ok ()) =>
      match a.rename 0 with
      | some e => (d, .error (.rotationFailed (display 0) e))
      | none => (d.rename 0, .ok ())

/-- Whether the live file has reached its ceiling. -/
def Full (a : Answers) (d : Disk) : Prop :=
  d.files 0 ≠ none ∧ a.metadataFails = false ∧ MAX_AUDIT_LOG_BYTES ≤ (bytesOf (d.file 0)).length

instance (a : Answers) (d : Disk) : Decidable (Full a d) :=
  inferInstanceAs (Decidable (_ ∧ _ ∧ _))

def rotateIfNeeded (a : Answers) (d : Disk) : Disk × Except AuditError Unit :=
  if Full a d then rotate display a d else (d, .ok ())

/-- The log, by its path. -/
def openFor (normalize : OsPath → String) (env : Environment) (destination : OsPath) (a : Answers)
    (d : Disk) : Disk × Except AuditError OsPath :=
  match resolveLogPath env with
  | .error e => (d, .error e)
  | .ok path =>
    if isInside path destination then
      (d, .error (.logInsideDestination (normalize path) (normalize destination)))
    else
      match a.createDir with
      | some e =>
        (d, .error (.unwritable (normalize path) ("its directory could not be created: " ++ e)))
      | none =>
        match rotateIfNeeded display a d with
        | (d, .error e) => (d, .error e)
        | (d, .ok ()) =>
          match a.openLive with
          | some e => (d, .error (.unwritable (normalize path) e))
          | none => (d.create, .ok path)

/-! ### Appends -/

/-- What became of the write of a line. -/
inductive Written where
  | done
  | notOpened (detail : String)
  /-- Only the first `kept` bytes reached the file, or all of them and the sync failed. -/
  | failed (kept : Nat) (detail : String)

/-- A record, as its residual classes make it, and the scan of a line for these. -/
structure Record where
  render : List String → Except AuditError Json
  classify : String → Except AuditError (List String)

def canonical (j : Json) : Except AuditError String :=
  match toCanonicalString j with
  | .ok text => .ok text
  | .error e => .error (.canonical e)

/-- Rendered, scanned, rendered with what was found, and scanned again. -/
def lineOf (r : Record) : Except AuditError String := do
  let draft ← canonical (← r.render [])
  let residual ← r.classify draft
  let line ← canonical (← r.render residual)
  let _ ← r.classify line
  return line

/-- The bytes that an append puts at the end of the live file. -/
def writeOf (line : String) : Written → Option Write
  | .done => some ⟨Text.bytes line ++ [LF], true⟩
  | .notOpened _ => none
  | .failed kept _ => some ⟨(Text.bytes line ++ [LF]).take kept, false⟩

def append (r : Record) (written : Written) (d : Disk) : Disk × Except AuditError Unit :=
  match lineOf r with
  | .error e => (d, .error e)
  | .ok line =>
    let d := match writeOf line written with
      | some w => d.write w
      | none => d
    match written with
    | .done => (d, .ok ())
    | .notOpened detail => (d, .error (.unwritable (display 0) detail))
    | .failed _ detail => (d, .error (.unwritable (display 0) detail))

end

end SpatialIde.Kernel.Permission.Audit.Log
