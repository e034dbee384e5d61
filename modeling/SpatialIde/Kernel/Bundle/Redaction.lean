import SpatialIde.Lib.Text

/-! # The redaction scan

Over the bytes of one file.  A declaration explains an identity that lies inside one of its own
occurrences, and nothing else.
-/

namespace SpatialIde.Kernel.Bundle.Redaction

open Lib

/-- One thing the scan found. -/
structure Finding where
  file : String
  cls : String
  excerpt : String
  byteOffset : Nat
  deriving DecidableEq, Repr

def OPERATOR_DECLARED : String := "operator-declared"

/-- The classes that a declaration explains. -/
def ATTRIBUTABLE_CLASSES : List String := ["username", "machine-identifier"]

structure MachineIdentifiers where
  usernames : List String
  hostnames : List String
  /-- What the operator put into the bundle on purpose. -/
  declared : List String

/-- The names of an environment that are long enough, once each. -/
def namesFrom (env : String → Option String) (keys : List String) : List String :=
  keys.foldl (fun names key =>
    match env key with
    | some v => if 3 ≤ v.utf8ByteSize ∧ v ∉ names then names ++ [v] else names
    | none => names) []

def hostnamesFrom (env : String → Option String) (os : Option String) : List String :=
  let hostnames := namesFrom env ["COMPUTERNAME", "HOSTNAME"]
  if hostnames = [] then
    match os.map Text.trim with
    | some v => if 3 ≤ v.utf8ByteSize then [v] else []
    | none => []
  else hostnames

def MachineIdentifiers.fromEnvironment (env : String → Option String) (os : Option String) :
    MachineIdentifiers :=
  ⟨namesFrom env ["USERNAME", "USER", "LOGNAME"], hostnamesFrom env os, []⟩

/-- What is a finding wherever it appears, with its class. -/
def CREDENTIAL_NEEDLES : List (String × String) :=
  [("credential", "credential"),
    ("password", "credential"),
    ("passwd", "credential"),
    ("secret", "credential"),
    ("api_key", "credential"),
    ("apikey", "credential"),
    ("authorization:", "credential"),
    ("bearer ", "credential"),
    ("private_key", "credential"),
    ("BEGIN RSA", "credential"),
    ("BEGIN PRIVATE", "credential"),
    ("file://", "local-filesystem-path"),
    ("\\\\?\\", "local-filesystem-path"),
    ("/home/", "local-filesystem-path"),
    ("/Users/", "local-filesystem-path"),
    ("/tmp/", "local-filesystem-path"),
    ("/var/folders/", "local-filesystem-path"),
    ("AppData\\Local\\Temp", "local-filesystem-path"),
    ("AppData/Local/Temp", "local-filesystem-path")]

def MIN_PRINTABLE_RUN : Nat := 12

def printable (b : UInt8) : Bool := 0x20 ≤ b && b ≤ 0x7e

/-- Whether some bytes are printable and sit in a long enough run of printable ones. -/
def inPrintableRun (bytes : List UInt8) (offset len : Nat) : Bool :=
  if !((bytes.drop offset).take len).all printable then false
  else
    let lo := offset - ((bytes.take offset).reverse.takeWhile printable).length
    let hi := offset + len + ((bytes.drop (offset + len)).takeWhile printable).length
    MIN_PRINTABLE_RUN ≤ hi - lo

def isUpper (b : UInt8) : Bool := 0x41 ≤ b && b ≤ 0x5a

def isAlphabetic (b : UInt8) : Bool := isUpper b || (0x61 ≤ b && b ≤ 0x7a)

def isAlphanumeric (b : UInt8) : Bool := isAlphabetic b || (0x30 ≤ b && b ≤ 0x39)

def toLowercase (b : UInt8) : UInt8 := if isUpper b then b + 0x20 else b

/-- Whether some text stands at a place, whatever the case of its letters is. -/
def occursAt (haystack needle : List UInt8) (i : Nat) : Bool :=
  (((haystack.drop i).take needle.length).zip needle).all fun (a, b) => toLowercase a == toLowercase b

def findAllAsciiCi (haystack needle : List UInt8) : List Nat :=
  if needle = [] ∨ haystack.length < needle.length then []
  else (List.range (haystack.length - needle.length + 1)).filter (occursAt haystack needle)

/-- Where the declared texts stand. -/
def declaredRanges (bytes : List UInt8) (declared : List String) : List (Nat × Nat) :=
  declared.flatMap fun d =>
    if (Text.trim d).utf8ByteSize < MIN_PRINTABLE_RUN then []
    else (findAllAsciiCi bytes (Text.bytes d)).map fun offset =>
      (offset, offset + (Text.bytes d).length)

def classFor (declared : List (Nat × Nat)) (cls : String) (offset len : Nat) : String :=
  if cls ∈ ATTRIBUTABLE_CLASSES ∧
      (declared.any fun (lo, hi) => lo ≤ offset && offset + len ≤ hi) = true then OPERATOR_DECLARED
  else cls

def finding (file cls : String) (bytes : List UInt8) (offset len : Nat) : Finding :=
  let lo := offset - 24
  let hi := min (offset + len + 24) bytes.length
  let excerpt := (Text.fromUtf8Lossy ((bytes.take hi).drop lo)).toList.map fun c =>
    if c = '\n' ∨ c = '\r' then ' ' else c
  ⟨file, cls, String.ofList excerpt, offset⟩

/-- A drive letter, which is not a part of a longer word, and its path. -/
def isDrivePath (bytes : List UInt8) (i : Nat) : Bool :=
  match bytes.drop i with
  | a :: b :: c :: _ =>
    isAlphabetic a && b == 0x3a && (c == 0x5c || c == 0x2f) &&
      !(match i with
        | 0 => false
        | j + 1 =>
          match bytes[j]? with
          | some p => isAlphanumeric p || p == 0x5f
          | none => false) &&
      inPrintableRun bytes i 3
  | _ => false

/-- One text of one class. -/
def scanFor (file : String) (bytes : List UInt8) (declared : List (Nat × Nat))
    (text cls : String) : List Finding :=
  let needle := Text.bytes text
  ((findAllAsciiCi bytes needle).filter fun offset => inPrintableRun bytes offset needle.length).map
    fun offset => finding file (classFor declared cls offset needle.length) bytes offset needle.length

/-- One file's bytes. -/
def scan (file : String) (bytes : List UInt8) (machine : MachineIdentifiers) : List Finding :=
  let declared := declaredRanges bytes machine.declared
  let credentials := CREDENTIAL_NEEDLES.flatMap fun (needle, cls) =>
    scanFor file bytes declared needle cls
  let drives := ((List.range (bytes.length - 2)).filter (isDrivePath bytes)).map fun i =>
    finding file (classFor declared "local-filesystem-path" i 3) bytes i 3
  let users := machine.usernames.flatMap fun u => scanFor file bytes declared u "username"
  let hosts := machine.hostnames.flatMap fun h => scanFor file bytes declared h "machine-identifier"
  credentials ++ drives ++ users ++ hosts

/-! ### Matches -/

/-- A place the scan reports, with the class of the rule that found it. -/
structure Match where
  cls : String
  offset : Nat
  len : Nat
  deriving DecidableEq, Repr

/-- A text stands at a place, whatever the case of its letters is. -/
def Occurs (bytes : List UInt8) (text : String) (i : Nat) : Prop :=
  i + (Text.bytes text).length ≤ bytes.length ∧
    ∀ k (a b : UInt8), bytes[i + k]? = some a → (Text.bytes text)[k]? = some b →
      toLowercase a = toLowercase b

/-- The matches of one text. -/
def matchesFor (bytes : List UInt8) (text cls : String) : List Match :=
  ((findAllAsciiCi bytes (Text.bytes text)).filter fun offset =>
    inPrintableRun bytes offset (Text.bytes text).length).map (⟨cls, ·, (Text.bytes text).length⟩)

/-- The matches of every rule, whatever is declared. -/
def matchesOf (bytes : List UInt8) (usernames hostnames : List String) : List Match :=
  CREDENTIAL_NEEDLES.flatMap (fun (needle, cls) => matchesFor bytes needle cls) ++
    ((List.range (bytes.length - 2)).filter (isDrivePath bytes)).map
      (⟨"local-filesystem-path", ·, 3⟩) ++
    usernames.flatMap (matchesFor bytes · "username") ++
    hostnames.flatMap (matchesFor bytes · "machine-identifier")

/-- What a match is reported as. -/
def Match.report (file : String) (bytes : List UInt8) (declared : List String) (m : Match) : Finding :=
  finding file (classFor (declaredRanges bytes declared) m.cls m.offset m.len) bytes m.offset m.len

section

variable {bytes : List UInt8}

theorem mem_findAllAsciiCi {text : String} {i : Nat} (h : i ∈ findAllAsciiCi bytes (Text.bytes text)) :
    Occurs bytes text i := by
  rw [findAllAsciiCi] at h
  split at h
  · cases h
  · next hlength =>
    rw [not_or, not_lt] at hlength
    obtain ⟨hrange, hat⟩ := List.mem_filter.1 h
    have hi := List.mem_range.1 hrange
    refine ⟨by omega, fun k a b ha hb => ?_⟩
    rw [occursAt, List.all_eq_true] at hat
    have hk : k < (Text.bytes text).length := (List.getElem?_eq_some_iff.1 hb).1
    have hpair : (((bytes.drop i).take (Text.bytes text).length).zip (Text.bytes text))[k]? =
        some (a, b) := by
      rw [List.getElem?_zip_eq_some, List.getElem?_take_of_lt hk, List.getElem?_drop]
      exact ⟨ha, hb⟩
    exact eq_of_beq (hat _ (List.mem_of_getElem? hpair))

theorem mem_declaredRanges {declared : List String} {lo hi : Nat}
    (h : (lo, hi) ∈ declaredRanges bytes declared) :
    ∃ d ∈ declared, Occurs bytes d lo ∧ hi = lo + (Text.bytes d).length := by
  obtain ⟨d, hd, hrange⟩ := List.mem_flatMap.1 h
  split at hrange
  · cases hrange
  · obtain ⟨offset, hoffset, heq⟩ := List.mem_map.1 hrange
    obtain ⟨rfl, rfl⟩ := Prod.mk.inj heq
    exact ⟨d, hd, mem_findAllAsciiCi hoffset, rfl⟩

/-- A declaration explains an identity inside it, and leaves every other class as it is. -/
theorem classFor_cases (declared : List (Nat × Nat)) (cls : String) (offset len : Nat) :
    classFor declared cls offset len = cls ∨
      classFor declared cls offset len = OPERATOR_DECLARED ∧ cls ∈ ATTRIBUTABLE_CLASSES ∧
        ∃ range ∈ declared, range.1 ≤ offset ∧ offset + len ≤ range.2 := by
  rw [classFor]
  split
  · next h =>
    obtain ⟨⟨lo, hi⟩, hmem, hinside⟩ := List.any_eq_true.1 h.2
    rw [Bool.and_eq_true, decide_eq_true_eq, decide_eq_true_eq] at hinside
    exact .inr ⟨rfl, h.1, ⟨lo, hi⟩, hmem, hinside⟩
  · exact .inl rfl

theorem scanFor_eq (file : String) (declared : List String) (text cls : String) :
    scanFor file bytes (declaredRanges bytes declared) text cls =
      (matchesFor bytes text cls).map (Match.report file bytes declared) := by
  rw [scanFor, matchesFor, List.map_map]
  rfl

/-- The scan finds the same matches whatever is declared. -/
theorem scan_eq (file : String) (machine : MachineIdentifiers) :
    scan file bytes machine = (matchesOf bytes machine.usernames machine.hostnames).map
      (Match.report file bytes machine.declared) := by
  rw [scan, matchesOf, List.map_append, List.map_append, List.map_append, List.map_flatMap,
    List.map_flatMap, List.map_flatMap, List.map_map]
  simp only [scanFor_eq]
  rfl

end

/-- The rule that a match comes from. -/
inductive Found (bytes : List UInt8) (usernames hostnames : List String) : Match → Prop
  | needle {text cls : String} {offset : Nat} (hneedle : (text, cls) ∈ CREDENTIAL_NEEDLES)
      (hat : Occurs bytes text offset) :
      Found bytes usernames hostnames ⟨cls, offset, (Text.bytes text).length⟩
  | drive {offset : Nat} : Found bytes usernames hostnames ⟨"local-filesystem-path", offset, 3⟩
  | username {u : String} {offset : Nat} (hu : u ∈ usernames) (hat : Occurs bytes u offset) :
      Found bytes usernames hostnames ⟨"username", offset, (Text.bytes u).length⟩
  | hostname {h : String} {offset : Nat} (hh : h ∈ hostnames) (hat : Occurs bytes h offset) :
      Found bytes usernames hostnames ⟨"machine-identifier", offset, (Text.bytes h).length⟩

theorem mem_matchesFor {bytes : List UInt8} {text cls : String} {m : Match}
    (h : m ∈ matchesFor bytes text cls) :
    ∃ offset, Occurs bytes text offset ∧ m = ⟨cls, offset, (Text.bytes text).length⟩ := by
  obtain ⟨offset, hoffset, rfl⟩ := List.mem_map.1 h
  exact ⟨offset, mem_findAllAsciiCi (List.mem_filter.1 hoffset).1, rfl⟩

theorem found_of_mem {bytes : List UInt8} {usernames hostnames : List String} {m : Match}
    (h : m ∈ matchesOf bytes usernames hostnames) : Found bytes usernames hostnames m := by
  rw [matchesOf, List.mem_append, List.mem_append, List.mem_append] at h
  rcases h with ((h | h) | h) | h
  · obtain ⟨⟨needle, cls⟩, hneedle, hm⟩ := List.mem_flatMap.1 h
    obtain ⟨offset, hat, rfl⟩ := mem_matchesFor hm
    exact .needle hneedle hat
  · obtain ⟨offset, -, rfl⟩ := List.mem_map.1 h
    exact .drive
  · obtain ⟨u, hu, hm⟩ := List.mem_flatMap.1 h
    obtain ⟨offset, hat, rfl⟩ := mem_matchesFor hm
    exact .username hu hat
  · obtain ⟨h, hh, hm⟩ := List.mem_flatMap.1 h
    obtain ⟨offset, hat, rfl⟩ := mem_matchesFor hm
    exact .hostname hh hat

theorem needle_cls {needle : String × String} (h : needle ∈ CREDENTIAL_NEEDLES) :
    needle.2 = "credential" ∨ needle.2 = "local-filesystem-path" := by
  revert needle
  decide

theorem Found.cls_ne {bytes : List UInt8} {usernames hostnames : List String} {m : Match}
    (h : Found bytes usernames hostnames m) : m.cls ≠ OPERATOR_DECLARED := by
  cases h with
  | needle hneedle hat =>
    rcases needle_cls hneedle with rfl | rfl
    · exact (by decide : "credential" ≠ OPERATOR_DECLARED)
    · exact (by decide : "local-filesystem-path" ≠ OPERATOR_DECLARED)
  | drive => exact (by decide : "local-filesystem-path" ≠ OPERATOR_DECLARED)
  | username hu hat => exact (by decide : "username" ≠ OPERATOR_DECLARED)
  | hostname hh hat => exact (by decide : "machine-identifier" ≠ OPERATOR_DECLARED)

/-- A credential or a path is reported as what it is; an identity too, unless it lies inside an
occurrence of a declared text. -/
theorem report_cases {file : String} {bytes : List UInt8} (declared : List String) (m : Match) :
    (m.report file bytes declared).cls = m.cls ∨
      (m.report file bytes declared).cls = OPERATOR_DECLARED ∧
        (m.cls = "username" ∨ m.cls = "machine-identifier") ∧
        ∃ d ∈ declared, ∃ lo, Occurs bytes d lo ∧ lo ≤ m.offset ∧
          m.offset + m.len ≤ lo + (Text.bytes d).length := by
  rcases classFor_cases (declaredRanges bytes declared) m.cls m.offset m.len with hcls | ⟨hcls, hid,
    ⟨lo, hi⟩, hmem, hlo, hhi⟩
  · exact .inl hcls
  · obtain ⟨d, hd, hat, rfl⟩ := mem_declaredRanges hmem
    refine .inr ⟨hcls, ?_, d, hd, lo, hat, hlo, hhi⟩
    simpa [ATTRIBUTABLE_CLASSES] using hid

end SpatialIde.Kernel.Bundle.Redaction
