import SpatialIde.Kernel.DatasetRef
import SpatialIde.Lib.OrderedMap
import SpatialIde.Renderer.Canonical.Faithful

/-! # What the reader of dataset references accepts

`toJson` writes a tree and `parse` reads a value, each with bounds of its own.
What the reader has accepted is `Recordable` (`recordable_of_parse`), and what is
recordable is read back from the tree it is written as, in whatever order a map
keeps the members (`parse_of_denotes`).
-/

namespace SpatialIde.Kernel

open Lib Lib.Json SpatialIde.Renderer
open SpatialIde.Engine (MAX_CRS_DEFINITION_BYTES)

/-! ### Objects read from a map -/

/-- An object written with each key once, as a map holds it. -/
theorem members_of_denotes {members : List (String × Value)} {w : Value}
    (h : Denotes (.object members) w) (hnodup : (members.map Prod.fst).Nodup) :
    ∃ o, w = .object o ∧ (∀ m ∈ o, m.1 ∈ members.map Prod.fst) ∧
      ∀ m ∈ members, ∃ v, o.lookup m.1 = some v ∧ Denotes m.2 v := by
  cases h with
  | @object _ o hnodup' hkeys h =>
    refine ⟨o, rfl, ?_, ?_⟩
    · intro m hm
      have hsome : (o.lookup m.1).isSome = true := by
        rw [List.lookup_isSome_iff]
        exact ⟨m, hm, by simp⟩
      rw [hkeys, List.lookup_isSome_iff] at hsome
      obtain ⟨m', hm', heq⟩ := hsome
      rw [beq_iff_eq.1 heq]
      exact List.mem_map_of_mem hm'
    · intro m hm
      have hreverse : ((members.reverse).map Prod.fst).Nodup := by
        rw [List.map_reverse]
        exact List.nodup_reverse.2 hnodup
      have hlast : members.reverse.lookup m.1 = some m.2 :=
        OrderedMap.lookup_of_mem hreverse (List.mem_reverse.2 hm)
      have hsome : (o.lookup m.1).isSome = true := by
        rw [hkeys, ← Denotes.isSome_lookup_reverse, hlast]
        rfl
      obtain ⟨v, hv⟩ := Option.isSome_iff_exists.1 hsome
      exact ⟨v, hv, h m.1 m.2 v hlast hv⟩

/-- `closed` accepts such an object, and `index` finds its members. -/
theorem closed_of_denotes {members : List (String × Value)} {w : Value} {path : String}
    {keys : List String} (h : Denotes (.object members) w) (hkeys : members.map Prod.fst = keys)
    (hnodup : keys.Nodup) : ∃ o, w = .object o ∧ closed w path keys = .ok o ∧
      ∀ m ∈ members, Denotes m.2 (index o m.1) := by
  subst hkeys
  obtain ⟨o, rfl, hknown, hall⟩ := members_of_denotes h hnodup
  refine ⟨o, rfl, ?_, ?_⟩
  · have hunknown : (o.find? fun m => m.1 ∉ members.map Prod.fst) = none := by
      rw [List.find?_eq_none]
      intro m hm
      simpa using hknown m hm
    have hmissing : ((members.map Prod.fst).find? fun k => (o.lookup k).isNone) = none := by
      rw [List.find?_eq_none]
      intro k hk
      obtain ⟨m, hm, rfl⟩ := List.mem_map.1 hk
      obtain ⟨v, hv, _⟩ := hall m hm
      simp [hv]
    rw [closed]
    simp only [Value.asObject, hunknown, hmissing]
  · intro m hm
    obtain ⟨v, hv, hdenotes⟩ := hall m hm
    rwa [index, hv, Option.getD_some]

/-- The same of an object the writer writes. -/
theorem closed_of_written {members : List (String × Renderer.Json)} {w : Value} {path : String}
    {keys : List String} (h : Denotes (Renderer.Json.obj members).value w)
    (hkeys : members.map Prod.fst = keys) (hnodup : keys.Nodup) :
    ∃ o, w = .object o ∧ closed w path keys = .ok o ∧
      ∀ m ∈ members, Denotes m.2.value (index o m.1) := by
  rw [Renderer.Json.value, Renderer.Json.memberValues_eq] at h
  have hfst : (members.map fun m => (m.1, m.2.value)).map Prod.fst = keys := by
    rw [List.map_map]
    exact hkeys
  obtain ⟨o, hw, hclosed, hall⟩ := closed_of_denotes h hfst hnodup
  exact ⟨o, hw, hclosed, fun m hm => hall _ (List.mem_map_of_mem hm)⟩

theorem string_of_denotes {s : String} {w : Value} (h : Denotes (.string s) w) : w = .string s := by
  cases h
  rfl

theorem null_of_denotes {w : Value} (h : Denotes .null w) : w = .null := by
  cases h
  rfl

theorem uint_of_denotes {n : UInt64} {w : Value} (h : Denotes (.number (.posInt n)) w) :
    w = .number (.posInt n) := by
  cases h
  rfl

/-! ### Texts and states -/

theorem bounded_string {s path : String} {ceiling : Nat} (h : s.utf8ByteSize ≤ ceiling) :
    bounded (.string s) path ceiling = .ok s := by
  rw [bounded]
  simp only [Value.asStr]
  rw [if_neg (Nat.not_lt.2 h)]

/-- A text a claim may hold. -/
def IsClaim (s : String) (ceiling : Nat) : Prop := s.utf8ByteSize ≤ ceiling ∧ Text.trim s ≠ ""

theorem claim_string {s path : String} {ceiling : Nat} (h : IsClaim s ceiling) :
    claim (.string s) path ceiling = .ok s := by
  rw [claim, bounded_string h.1]
  exact if_neg h.2

theorem claim_eq_ok {v : Value} {path s : String} {ceiling : Nat}
    (h : claim v path ceiling = .ok s) : v = .string s ∧ IsClaim s ceiling := by
  obtain ⟨s', hbounded, hchecked⟩ := bind_eq_ok.1 h
  obtain ⟨rfl, hsize⟩ := bounded_eq_ok hbounded
  split_ifs at hchecked with hblank
  · cases hchecked
  · cases hchecked
    exact ⟨rfl, hsize, hblank⟩

theorem expectWord_string {s path : String} (h : s.utf8ByteSize ≤ MAX_REF_STRING_BYTES) :
    expectWord (.string s) path s = .ok () := by
  rw [expectWord, bounded_string h]
  exact if_pos rfl

/-- A state this writer may write. -/
def IsState (state : NamedState) : Prop :=
  state.1.utf8ByteSize ≤ MAX_REF_STRING_BYTES ∧ IsClaim state.2 MAX_REF_STRING_BYTES

theorem expectState_of_denotes (path : String) {state : NamedState} {w : Value}
    (h : Denotes (stateJson state).value w) (hstate : IsState state) :
    (∃ o, w = .object o) ∧ expectState w path state = .ok () := by
  obtain ⟨o, rfl, hclosed, hall⟩ := @closed_of_written
    [("state", .str state.1), ("basis", .str state.2)] w path ["state", "basis"] h rfl (by decide)
  have hword : index o "state" = .string state.1 :=
    string_of_denotes (hall ("state", .str state.1) (by simp))
  have hbasis : index o "basis" = .string state.2 :=
    string_of_denotes (hall ("basis", .str state.2) (by simp))
  refine ⟨⟨o, rfl⟩, ?_⟩
  rw [expectState, hclosed]
  dsimp only [bind, Except.bind]
  rw [hword, hbasis, expectWord_string hstate.1]
  dsimp only
  rw [claim_string hstate.2]
  rfl

theorem isState_named :
    ∀ state ∈ [NOT_TAKEN, NONE_PINNED, NOT_REPORTED, NOT_READ_OVER_CEILING], IsState state := by
  unfold IsState IsClaim
  decide +kernel

theorem isState_NOT_TAKEN : IsState NOT_TAKEN := isState_named _ (by simp)

theorem isState_NONE_PINNED : IsState NONE_PINNED := isState_named _ (by simp)

theorem isState_NOT_REPORTED : IsState NOT_REPORTED := isState_named _ (by simp)

theorem isState_NOT_READ_OVER_CEILING : IsState NOT_READ_OVER_CEILING := isState_named _ (by simp)

/-! ### The observation -/

/-- What the reader accepts of an observation. -/
structure SourceObservation.Recordable (o : SourceObservation) : Prop where
  size : o.byteSize.toNat ≤ MAX_EXACT_INTEGER
  nanos : ∀ n ∈ o.modifiedNanos, n < 2 ^ 128
  footer : o.footerLength.toNat ≤ MAX_EXACT_INTEGER
  hash : ∀ s ∈ o.footerHash, Text.isLowerHexOf 64 s = true

/-- Texts short enough to need no count of their bytes. -/
theorem utf8ByteSize_of_short {s : String} (h : s.length ≤ 1024) :
    s.utf8ByteSize ≤ MAX_REF_STRING_BYTES := by
  have hle := Text.utf8ByteSize_le s
  have hmax : MAX_REF_STRING_BYTES = 4096 := rfl
  omega

theorem utf8ByteSize_of_isLowerHexOf {s : String} (h : Text.isLowerHexOf 64 s = true) :
    s.utf8ByteSize ≤ MAX_REF_STRING_BYTES := by
  rw [Text.isLowerHexOf, Bool.and_eq_true, beq_iff_eq] at h
  exact utf8ByteSize_of_short (by omega)

theorem utf8ByteSize_toString {n : Nat} (h : n < 2 ^ 128) :
    (toString n).utf8ByteSize ≤ MAX_REF_STRING_BYTES := by
  refine utf8ByteSize_of_short ?_
  have hdigits : (Nat.toDigits 10 n).length ≤ 39 :=
    (Nat.length_toDigits_le_iff (by decide) (by decide)).2 (by omega)
  have hlist : (toString n).toList = Nat.toDigits 10 n := Nat.toList_repr
  rw [← String.length_toList, hlist]
  omega

theorem parseU128_toString {n : Nat} (h : n < 2 ^ 128) : parseU128 (toString n) = some n := by
  have hlist : (toString n).toList = Nat.toDigits 10 n := Nat.toList_repr
  have hdigits : ∀ c ∈ Nat.toDigits 10 n, c.isDigit = true :=
    fun c hc => F64.isDigit_of_mem_toDigits hc
  have hne : Nat.toDigits 10 n ≠ [] := Nat.toDigits_ne_nil
  have hvalue : digitsValue (Nat.toDigits 10 n) = some n := by
    rw [F64.digitsValue_eq hne hdigits, F64.digitsNumber_toDigits]
  have hsign : ∀ cs, Nat.toDigits 10 n ≠ '+' :: cs := by
    intro cs heq
    have hplus := hdigits '+' (heq ▸ List.mem_cons_self)
    exact absurd hplus (by decide)
  rw [parseU128, hlist]
  generalize Nat.toDigits 10 n = digits at hvalue hsign ⊢
  cases digits with
  | nil => cases hvalue
  | cons d ds =>
    simp only [hvalue]
    exact if_pos h

theorem exactInteger_uint {n : UInt64} {path : String} (h : n.toNat ≤ MAX_EXACT_INTEGER) :
    exactInteger (.number (.posInt n)) path = .ok n := by
  rw [exactInteger]
  simp only [Value.asU64]
  rw [if_neg (Nat.not_lt.2 h)]

theorem exactInteger_eq_ok {v : Value} {path : String} {n : UInt64}
    (h : exactInteger v path = .ok n) : n.toNat ≤ MAX_EXACT_INTEGER := by
  rw [exactInteger] at h
  split at h
  · cases h
  · next m _ =>
    split_ifs at h with hlarge
    · cases h
    · cases h
      exact Nat.not_lt.1 hlarge

/-- The modification time as `parse_observed` reads it. -/
def readNanos (mtime : Option String) (path : String) : Except RefParseError (Option Nat) :=
  match mtime with
  | none => .ok none
  | some s =>
    match parseU128 s with
    | some n =>
      if toString n = s then .ok (some n)
      else malformed path "expected a decimal string in minimal form"
    | none => malformed path "expected a decimal string in minimal form"

/-- The footer hash as `parse_observed` reads it. -/
def readHash (hash : Option String) (path : String) : Except RefParseError (Option String) :=
  match hash with
  | some s =>
    if Text.isLowerHexOf 64 s then .ok (some s)
    else malformed path "expected 64 lowercase hex characters"
  | none => .ok none

/-- A `match` before the rest of a block carries that rest into its branches. -/
theorem readNanos_bind (mtime : Option String) (path : String) {α : Type}
    (f : Option Nat → Except RefParseError α) :
    (match mtime with
      | none => Except.ok none >>= f
      | some s =>
        match parseU128 s with
        | some n =>
          if toString n = s then Except.ok (some n) >>= f
          else malformed path "expected a decimal string in minimal form" >>= f
        | none => malformed path "expected a decimal string in minimal form" >>= f) =
      readNanos mtime path >>= f := by
  cases mtime with
  | none => rfl
  | some s =>
    unfold readNanos
    dsimp only
    cases parseU128 s with
    | none => rfl
    | some n =>
      dsimp only
      split_ifs <;> rfl

theorem readHash_bind (hash : Option String) (path : String) {α : Type}
    (f : Option String → Except RefParseError α) :
    (match hash with
      | some s =>
        if Text.isLowerHexOf 64 s then Except.ok (some s) >>= f
        else malformed path "expected 64 lowercase hex characters" >>= f
      | none => Except.ok none >>= f) = readHash hash path >>= f := by
  cases hash with
  | none => rfl
  | some s =>
    unfold readHash
    dsimp only
    split_ifs <;> rfl

theorem parseObserved_eq (v : Value) (path : String) : parseObserved v path = (do
    let obj ← closed v path ["byte_size", "modified_ns", "footer_length", "footer_sha256"]
    let mtime ← stringOrState (index obj "modified_ns") (joinKey path "modified_ns") NOT_REPORTED
    let modifiedNanos ← readNanos mtime (joinKey path "modified_ns")
    let hash ← stringOrState (index obj "footer_sha256") (joinKey path "footer_sha256")
      NOT_READ_OVER_CEILING
    let footerHash ← readHash hash (joinKey path "footer_sha256")
    let byteSize ← exactInteger (index obj "byte_size") (joinKey path "byte_size")
    let footerLength ← exactInteger (index obj "footer_length") (joinKey path "footer_length")
    return ⟨byteSize, modifiedNanos, footerLength, footerHash⟩) := by
  rw [parseObserved]
  refine congrArg _ (funext fun obj => congrArg _ (funext fun mtime => ?_))
  refine (readNanos_bind mtime _ _).trans (congrArg _ (funext fun modifiedNanos => ?_))
  exact congrArg _ (funext fun hash => readHash_bind hash _ _)

theorem readNanos_toString {nanos : Option Nat} {path : String} (h : ∀ n ∈ nanos, n < 2 ^ 128) :
    readNanos (nanos.map toString) path = .ok nanos := by
  cases nanos with
  | none => rfl
  | some n =>
    unfold readNanos
    rw [Option.map_some]
    dsimp only
    rw [parseU128_toString (h n rfl)]
    exact if_pos rfl

theorem readHash_hex {hash : Option String} {path : String}
    (h : ∀ s ∈ hash, Text.isLowerHexOf 64 s = true) : readHash hash path = .ok hash := by
  cases hash with
  | none => rfl
  | some s => exact if_pos (h s rfl)

theorem parseU128_lt {s : String} {n : Nat} (h : parseU128 s = some n) : n < 2 ^ 128 := by
  rw [parseU128] at h
  split at h
  · split_ifs at h with hlt
    cases h
    exact hlt
  · cases h

theorem readNanos_lt {mtime : Option String} {path : String} {nanos : Option Nat}
    (h : readNanos mtime path = .ok nanos) : ∀ n ∈ nanos, n < 2 ^ 128 := by
  intro n hn
  unfold readNanos at h
  split at h
  · cases h
    cases hn
  · split at h
    · next m hm =>
      split_ifs at h
      · cases h
        cases hn
        exact parseU128_lt hm
      · cases h
    · cases h

theorem readHash_isLowerHexOf {hash footerHash : Option String} {path : String}
    (h : readHash hash path = .ok footerHash) :
    ∀ s ∈ footerHash, Text.isLowerHexOf 64 s = true := by
  intro s hs
  unfold readHash at h
  split at h
  · split_ifs at h with hhex
    · cases h
      cases hs
      exact hhex
    · cases h
  · cases h
    cases hs

/-- The modification time as `observed_json` writes it. -/
def mtimeJson (o : SourceObservation) : Renderer.Json :=
  match o.modifiedNanos with
  | none => stateJson NOT_REPORTED
  | some n => .str (toString n)

/-- The footer hash as `observed_json` writes it. -/
def hashJson (o : SourceObservation) : Renderer.Json :=
  match o.footerHash with
  | none => stateJson NOT_READ_OVER_CEILING
  | some s => .str s

theorem stringOrState_of_state {state : NamedState} {w : Value} {path : String}
    (h : Denotes (stateJson state).value w) (hstate : IsState state) :
    stringOrState w path state = .ok none := by
  obtain ⟨⟨o, rfl⟩, hok⟩ := expectState_of_denotes path h hstate
  rw [stringOrState, if_pos (show (Value.object o).asObject.isSome = true from rfl), hok]
  rfl

theorem stringOrState_string {state : NamedState} {s path : String}
    (h : s.utf8ByteSize ≤ MAX_REF_STRING_BYTES) :
    stringOrState (.string s) path state = .ok (some s) := by
  rw [stringOrState, if_neg (by simp [Value.asObject]), bounded_string h]
  rfl

theorem stringOrState_mtime {o : SourceObservation} {w : Value} {path : String}
    (h : Denotes (mtimeJson o).value w) (ho : o.Recordable) :
    stringOrState w path NOT_REPORTED = .ok (o.modifiedNanos.map toString) := by
  unfold mtimeJson at h
  cases hn : o.modifiedNanos with
  | none =>
    rw [hn] at h
    exact stringOrState_of_state h isState_NOT_REPORTED
  | some n =>
    rw [hn] at h
    rw [string_of_denotes h]
    exact stringOrState_string (utf8ByteSize_toString (ho.nanos n hn))

theorem stringOrState_hash {o : SourceObservation} {w : Value} {path : String}
    (h : Denotes (hashJson o).value w) (ho : o.Recordable) :
    stringOrState w path NOT_READ_OVER_CEILING = .ok o.footerHash := by
  unfold hashJson at h
  cases hs : o.footerHash with
  | none =>
    rw [hs] at h
    exact stringOrState_of_state h isState_NOT_READ_OVER_CEILING
  | some s =>
    rw [hs] at h
    rw [string_of_denotes h]
    exact stringOrState_string (utf8ByteSize_of_isLowerHexOf (ho.hash s hs))

theorem parseObserved_of_denotes {o : SourceObservation} {w : Value} {path : String}
    (h : Denotes (observedJson o).value w) (ho : o.Recordable) : parseObserved w path = .ok o := by
  obtain ⟨members, rfl, hclosed, hall⟩ := @closed_of_written
    [("byte_size", .uint o.byteSize), ("modified_ns", mtimeJson o),
      ("footer_length", .uint o.footerLength), ("footer_sha256", hashJson o)]
    w path ["byte_size", "modified_ns", "footer_length", "footer_sha256"] h rfl (by decide)
  have hsize : index members "byte_size" = .number (.posInt o.byteSize) :=
    uint_of_denotes (hall ("byte_size", .uint o.byteSize) (by simp))
  have hfooter : index members "footer_length" = .number (.posInt o.footerLength) :=
    uint_of_denotes (hall ("footer_length", .uint o.footerLength) (by simp))
  have hmtime : Denotes (mtimeJson o).value (index members "modified_ns") :=
    hall ("modified_ns", mtimeJson o) (by simp)
  have hhash : Denotes (hashJson o).value (index members "footer_sha256") :=
    hall ("footer_sha256", hashJson o) (by simp)
  rw [parseObserved_eq, hclosed]
  dsimp only [bind, Except.bind]
  rw [stringOrState_mtime hmtime ho, stringOrState_hash hhash ho]
  dsimp only
  rw [readNanos_toString ho.nanos]
  dsimp only
  rw [readHash_hex ho.hash, hsize, hfooter, exactInteger_uint ho.size]
  dsimp only
  rw [exactInteger_uint ho.footer]
  rfl

theorem recordable_of_parseObserved {v : Value} {path : String} {o : SourceObservation}
    (h : parseObserved v path = .ok o) : o.Recordable := by
  rw [parseObserved_eq] at h
  obtain ⟨members, _, h⟩ := bind_eq_ok.1 h
  obtain ⟨mtime, _, h⟩ := bind_eq_ok.1 h
  obtain ⟨modifiedNanos, hnanos, h⟩ := bind_eq_ok.1 h
  obtain ⟨hash, _, h⟩ := bind_eq_ok.1 h
  obtain ⟨footerHash, hhash, h⟩ := bind_eq_ok.1 h
  obtain ⟨byteSize, hsize, h⟩ := bind_eq_ok.1 h
  obtain ⟨footerLength, hfooter, h⟩ := bind_eq_ok.1 h
  cases h
  exact {
    size := exactInteger_eq_ok hsize
    nanos := readNanos_lt hnanos
    footer := exactInteger_eq_ok hfooter
    hash := readHash_isLowerHexOf hhash }

/-! ### The claims of an open -/

/-- What the reader accepts of the claims an open was admitted under. -/
structure Admission.Recordable (a : Admission) : Prop where
  crs : ∀ c ∈ a.crsAssertion, IsClaim c.identifier MAX_REF_STRING_BYTES ∧
    IsClaim c.definitionJson MAX_CRS_DEFINITION_BYTES
  identity : ∀ i ∈ a.identity, IsClaim i.column MAX_REF_STRING_BYTES

/-- A text of a claim, as `parse_admission` reads it. -/
def claimText (o : List (String × Value)) (path parent key : String) (ceiling : Nat) :
    Except RefParseError String :=
  claim (index o key) (joinKey (joinKey path parent) key) ceiling

/-- The CRS claim of an object `parse_admission` has read. -/
def readCrs (crs : Option (List (String × Value))) (path : String) :
    Except RefParseError (Option CrsAssertion) :=
  match crs with
  | none => .ok none
  | some o => do
    let identifier ← claimText o path "crs_assertion" "identifier" MAX_REF_STRING_BYTES
    let definitionJson ←
      claimText o path "crs_assertion" "definition_json" MAX_CRS_DEFINITION_BYTES
    .ok (some ⟨identifier, definitionJson⟩)

/-- The identity claim of an object `parse_admission` has read. -/
def readIdentity (id : Option (List (String × Value))) (path : String) :
    Except RefParseError (Option IdentityDeclaration) :=
  match id with
  | none => .ok none
  | some o => do
    let column ← claimText o path "identity" "column" MAX_REF_STRING_BYTES
    .ok (some ⟨column⟩)

theorem readCrs_bind (crs : Option (List (String × Value))) (path : String) {α : Type}
    (f : Option CrsAssertion → Except RefParseError α) :
    (match crs with
      | none => Except.ok none >>= f
      | some o => do
        let identifier ← claimText o path "crs_assertion" "identifier" MAX_REF_STRING_BYTES
        let definitionJson ←
          claimText o path "crs_assertion" "definition_json" MAX_CRS_DEFINITION_BYTES
        Except.ok (some (CrsAssertion.mk identifier definitionJson)) >>= f) =
      readCrs crs path >>= f := by
  cases crs with
  | none => rfl
  | some o =>
    unfold readCrs
    simp only [bind_assoc]

theorem readIdentity_bind (id : Option (List (String × Value))) (path : String) {α : Type}
    (f : Option IdentityDeclaration → Except RefParseError α) :
    (match id with
      | none => Except.ok none >>= f
      | some o => do
        let column ← claimText o path "identity" "column" MAX_REF_STRING_BYTES
        Except.ok (some (IdentityDeclaration.mk column)) >>= f) = readIdentity id path >>= f := by
  cases id with
  | none => rfl
  | some o =>
    unfold readIdentity
    simp only [bind_assoc]

theorem parseAdmission_eq (v : Value) (path : String) : parseAdmission v path = (do
    let obj ← closed v path ["crs_assertion", "identity"]
    let crs ← claimObject obj path "crs_assertion" ["identifier", "definition_json"]
    let crsAssertion ← readCrs crs path
    let id ← claimObject obj path "identity" ["column"]
    let identity ← readIdentity id path
    return ⟨crsAssertion, identity⟩) := by
  rw [parseAdmission]
  refine congrArg _ (funext fun obj => congrArg _ (funext fun crs => ?_))
  refine (readCrs_bind crs path _).trans (congrArg _ (funext fun crsAssertion => ?_))
  exact congrArg _ (funext fun id => readIdentity_bind id path _)

/-- The CRS claim as it is written. -/
def crsJson (a : Admission) : Renderer.Json :=
  match a.crsAssertion with
  | none => .null
  | some c => .obj [("identifier", .str c.identifier), ("definition_json", .str c.definitionJson)]

/-- The identity claim as it is written. -/
def identityJson (a : Admission) : Renderer.Json :=
  match a.identity with
  | none => .null
  | some i => .obj [("column", .str i.column)]

theorem claimObject_null {obj : List (String × Value)} {path key : String} {keys : List String}
    (h : index obj key = .null) : claimObject obj path key keys = .ok none := by
  rw [claimObject, h]

theorem claimObject_object {obj members : List (String × Value)} {path key : String}
    {keys : List String} (h : index obj key = .object members)
    (hclosed : closed (.object members) (joinKey path key) keys = .ok members) :
    claimObject obj path key keys = .ok (some members) := by
  rw [claimObject, h]
  dsimp only
  rw [hclosed]
  rfl

theorem readCrs_of_denotes (path : String) {a : Admission} {obj : List (String × Value)}
    (h : Denotes (crsJson a).value (index obj "crs_assertion")) (ha : a.Recordable) :
    (claimObject obj path "crs_assertion" ["identifier", "definition_json"] >>=
      fun crs => readCrs crs path) = .ok a.crsAssertion := by
  unfold crsJson at h
  cases hc : a.crsAssertion with
  | none =>
    rw [hc] at h
    rw [claimObject_null (null_of_denotes h)]
    rfl
  | some c =>
    rw [hc] at h
    obtain ⟨members, hobject, hclosed, hall⟩ := @closed_of_written
      [("identifier", .str c.identifier), ("definition_json", .str c.definitionJson)]
      _ (joinKey path "crs_assertion") ["identifier", "definition_json"] h rfl (by decide)
    have hidentifier : index members "identifier" = .string c.identifier :=
      string_of_denotes (hall ("identifier", .str c.identifier) (by simp))
    have hdefinition : index members "definition_json" = .string c.definitionJson :=
      string_of_denotes (hall ("definition_json", .str c.definitionJson) (by simp))
    obtain ⟨hid, hdef⟩ := ha.crs c hc
    rw [hobject] at hclosed
    rw [claimObject_object hobject hclosed]
    show readCrs (some members) path = _
    unfold readCrs
    dsimp only
    rw [claimText, hidentifier, claim_string hid, claimText, hdefinition]
    dsimp only [bind, Except.bind]
    rw [claim_string hdef]

theorem readIdentity_of_denotes (path : String) {a : Admission} {obj : List (String × Value)}
    (h : Denotes (identityJson a).value (index obj "identity")) (ha : a.Recordable) :
    (claimObject obj path "identity" ["column"] >>= fun id => readIdentity id path) =
      .ok a.identity := by
  unfold identityJson at h
  cases hi : a.identity with
  | none =>
    rw [hi] at h
    rw [claimObject_null (null_of_denotes h)]
    rfl
  | some i =>
    rw [hi] at h
    obtain ⟨members, hobject, hclosed, hall⟩ := @closed_of_written [("column", .str i.column)]
      _ (joinKey path "identity") ["column"] h rfl (by decide)
    have hcolumn : index members "column" = .string i.column :=
      string_of_denotes (hall ("column", .str i.column) (by simp))
    rw [hobject] at hclosed
    rw [claimObject_object hobject hclosed]
    show readIdentity (some members) path = _
    unfold readIdentity
    dsimp only
    rw [claimText, hcolumn, claim_string (ha.identity i hi)]
    rfl

theorem parseAdmission_of_denotes {a : Admission} {w : Value} {path : String}
    (h : Denotes a.toJson.value w) (ha : a.Recordable) : parseAdmission w path = .ok a := by
  obtain ⟨members, rfl, hclosed, hall⟩ := @closed_of_written
    [("crs_assertion", crsJson a), ("identity", identityJson a)] w path
    ["crs_assertion", "identity"] h rfl (by decide)
  have hcrs : Denotes (crsJson a).value (index members "crs_assertion") :=
    hall ("crs_assertion", crsJson a) (by simp)
  have hidentity : Denotes (identityJson a).value (index members "identity") :=
    hall ("identity", identityJson a) (by simp)
  rw [parseAdmission_eq, hclosed]
  obtain ⟨crs, hobject, hread⟩ := bind_eq_ok.1 (readCrs_of_denotes path hcrs ha)
  obtain ⟨id, hobject', hread'⟩ := bind_eq_ok.1 (readIdentity_of_denotes path hidentity ha)
  dsimp only [bind, Except.bind]
  rw [hobject, hobject']
  dsimp only
  rw [hread]
  dsimp only
  rw [hread']
  rfl

theorem readCrs_claims {crs : Option (List (String × Value))} {path : String}
    {crsAssertion : Option CrsAssertion} (h : readCrs crs path = .ok crsAssertion) :
    ∀ c ∈ crsAssertion, IsClaim c.identifier MAX_REF_STRING_BYTES ∧
      IsClaim c.definitionJson MAX_CRS_DEFINITION_BYTES := by
  intro c hc
  unfold readCrs at h
  split at h
  · cases h
    cases hc
  · obtain ⟨identifier, hidentifier, h⟩ := bind_eq_ok.1 h
    obtain ⟨definitionJson, hdefinition, h⟩ := bind_eq_ok.1 h
    cases h
    cases hc
    exact ⟨(claim_eq_ok hidentifier).2, (claim_eq_ok hdefinition).2⟩

theorem readIdentity_claims {id : Option (List (String × Value))} {path : String}
    {identity : Option IdentityDeclaration} (h : readIdentity id path = .ok identity) :
    ∀ i ∈ identity, IsClaim i.column MAX_REF_STRING_BYTES := by
  intro i hi
  unfold readIdentity at h
  split at h
  · cases h
    cases hi
  · obtain ⟨column, hcolumn, h⟩ := bind_eq_ok.1 h
    cases h
    cases hi
    exact (claim_eq_ok hcolumn).2

theorem recordable_of_parseAdmission {v : Value} {path : String} {a : Admission}
    (h : parseAdmission v path = .ok a) : a.Recordable := by
  rw [parseAdmission_eq] at h
  obtain ⟨members, _, h⟩ := bind_eq_ok.1 h
  obtain ⟨crs, _, h⟩ := bind_eq_ok.1 h
  obtain ⟨crsAssertion, hcrs, h⟩ := bind_eq_ok.1 h
  obtain ⟨id, _, h⟩ := bind_eq_ok.1 h
  obtain ⟨identity, hidentity, h⟩ := bind_eq_ok.1 h
  cases h
  exact ⟨readCrs_claims hcrs, readIdentity_claims hidentity⟩

/-! ### The resource -/

/-- A text `parse_uri` accepts. -/
def IsDatasetUri (uri : String) : Prop :=
  ∃ hex, Text.stripPrefix uri DATASET_URI_PREFIX = some hex ∧
    Text.isLowerHexOf URI_HEX_LEN hex = true

theorem parseUri_eq_ok {s path uri : String} :
    parseUri s path = .ok uri ↔ uri = s ∧ IsDatasetUri s := by
  unfold parseUri IsDatasetUri
  cases Text.stripPrefix s DATASET_URI_PREFIX with
  | none => simp only [malformed, reduceCtorEq, false_and, exists_false, and_false]
  | some hex =>
    dsimp only
    split_ifs with hhex
    · simp only [Except.ok.injEq, Option.some.injEq, exists_eq_left', hhex, and_true, eq_comm]
    · simp only [malformed, reduceCtorEq, Option.some.injEq, exists_eq_left', hhex, and_false]

theorem IsDatasetUri.size {uri : String} (h : IsDatasetUri uri) :
    uri.utf8ByteSize ≤ MAX_REF_STRING_BYTES := by
  obtain ⟨hex, hstrip, hhex⟩ := h
  rw [Text.isLowerHexOf, Bool.and_eq_true, beq_iff_eq] at hhex
  rw [Text.stripPrefix] at hstrip
  split_ifs at hstrip
  cases hstrip
  refine utf8ByteSize_of_short ?_
  have hlength := hhex.1
  rw [String.length_ofList, List.length_drop, String.length_toList] at hlength
  have hhexLen : URI_HEX_LEN = 32 := rfl
  have hprefixLen : DATASET_URI_PREFIX.length = 22 := rfl
  omega

/-- The rule `in_canonical_form` applies to a text. -/
def IsCanonicalLocation (location : String) : Prop :=
  (∀ c ∈ location.toList, c ≠ '\\' ∧ c ≠ ':') ∧
    ∀ s ∈ location.toList.splitOn '/', s ≠ [] ∧ s ≠ ['.'] ∧ s ≠ ['.', '.']

theorem inCanonicalForm_eq_ok {location path : String} :
    inCanonicalForm location path = .ok () ↔ IsCanonicalLocation location := by
  have hrefused : (location.toList.any (fun c => c = '\\' || c = ':') ||
      (location.toList.splitOn '/').any (fun s => s = [] || s = ['.'] || s = ['.', '.'])) = true ↔
      ¬IsCanonicalLocation location := by
    rw [IsCanonicalLocation, Bool.or_eq_true, List.any_eq_true, List.any_eq_true, not_and_or]
    simp only [not_forall, Bool.or_eq_true, decide_eq_true_eq, exists_prop]
    refine or_congr (exists_congr fun c => ?_) (exists_congr fun s => ?_)
    · tauto
    · tauto
  rw [inCanonicalForm]
  split_ifs with h
  · simp only [malformed, reduceCtorEq, false_iff]
    exact hrefused.1 h
  · simp only [true_iff]
    exact Classical.not_not.1 fun hnot => h (hrefused.2 hnot)

/-- What the reader accepts of a locator. -/
def Locator.Recordable : Locator → Prop
  | projectRelative location =>
    location.utf8ByteSize ≤ MAX_REF_STRING_BYTES ∧ IsCanonicalLocation location
  | machineRecorded => True

theorem parseLocator_of_denotes {l : Locator} {uri path : String} {w : Value} {i : Nat}
    (h : Denotes (l.toJson uri).value w) (hl : l.Recordable) (huri : IsDatasetUri uri) :
    parseLocator uri path w i = .ok l := by
  cases l with
  | projectRelative location =>
    obtain ⟨members, rfl, hclosed, hall⟩ := @closed_of_written
      [("kind", .str "project-relative"), ("at", .str location)] w
      (path ++ "[" ++ toString i ++ "]") ["kind", "at"] h rfl (by decide)
    have hkind : index members "kind" = .string "project-relative" :=
      string_of_denotes (hall ("kind", .str "project-relative") (by simp))
    have hlocation : index members "at" = .string location :=
      string_of_denotes (hall ("at", .str location) (by simp))
    rw [parseLocator]
    dsimp only
    rw [hclosed]
    dsimp only [bind, Except.bind]
    rw [hkind, hlocation, bounded_string hl.1]
    dsimp only
    rw [bounded_string (by decide)]
    dsimp only
    rw [if_pos rfl, inCanonicalForm_eq_ok.2 hl.2]
    rfl
  | machineRecorded =>
    obtain ⟨members, rfl, hclosed, hall⟩ := @closed_of_written
      [("kind", .str "machine-recorded"), ("at", .str uri)] w
      (path ++ "[" ++ toString i ++ "]") ["kind", "at"] h rfl (by decide)
    have hkind : index members "kind" = .string "machine-recorded" :=
      string_of_denotes (hall ("kind", .str "machine-recorded") (by simp))
    have hlocation : index members "at" = .string uri :=
      string_of_denotes (hall ("at", .str uri) (by simp))
    rw [parseLocator]
    dsimp only
    rw [hclosed]
    dsimp only [bind, Except.bind]
    rw [hkind, hlocation, bounded_string huri.size]
    dsimp only
    rw [bounded_string (by decide)]
    dsimp only
    rw [if_neg (by decide), if_pos rfl, if_pos rfl]

theorem recordable_of_parseLocator {l : Locator} {uri path : String} {w : Value} {i : Nat}
    (h : parseLocator uri path w i = .ok l) : l.Recordable := by
  rw [parseLocator] at h
  obtain ⟨members, _, h⟩ := bind_eq_ok.1 h
  obtain ⟨location, hlocation, h⟩ := bind_eq_ok.1 h
  obtain ⟨kind, _, h⟩ := bind_eq_ok.1 h
  split_ifs at h
  · obtain ⟨⟨⟩, hform, h⟩ := bind_eq_ok.1 h
    cases h
    exact ⟨(bounded_eq_ok hlocation).2, inCanonicalForm_eq_ok.1 hform⟩
  · cases h
    trivial
  · cases h
  · cases h

/-- A locator at each place of the array, read whatever the place. -/
theorem parseLocators_of_denotes {uri path : String} (huri : IsDatasetUri uri) :
    ∀ {locators : List Locator} {items : List Value} (_ : ∀ l ∈ locators, l.Recordable)
      (_ : List.Forall₂ Denotes (Renderer.Json.values (locators.map (Locator.toJson uri))) items)
      (k : Nat), List.Forall₂ (fun item l => parseLocator uri path item.1 item.2 = .ok l)
        (items.zipIdx k) locators := by
  intro locators
  induction locators with
  | nil =>
    intro items _ h k
    cases h
    exact .nil
  | cons l locators ih =>
    intro items hl h k
    cases h with
    | cons hitem hrest =>
      rw [List.zipIdx_cons]
      refine .cons (parseLocator_of_denotes hitem (hl l List.mem_cons_self) huri) ?_
      exact ih (fun l' hl' => hl l' (List.mem_cons_of_mem l hl')) hrest (k + 1)

theorem recordable_of_parseLocators {uri path : String} {items : List (Value × Nat)}
    {locators : List Locator}
    (h : List.Forall₂ (fun item l => parseLocator uri path item.1 item.2 = .ok l) items locators) :
    ∀ l ∈ locators, l.Recordable := by
  intro l hl
  obtain ⟨item, -, hparse⟩ := Renderer.exists_left h hl
  exact recordable_of_parseLocator hparse

/-- The resource as `to_json` writes it. -/
def resourceJson (uri : String) (locators : List Locator) : Renderer.Json :=
  .obj [
    ("logical_uri", .str uri),
    ("content_hash", stateJson NOT_TAKEN),
    ("source_revision", stateJson NONE_PINNED),
    ("locators", .arr (locators.map (Locator.toJson uri))),
    ("cache_status", .str "linked"),
    ("portability_policy", .str "linked-live-file")]

/-- The reader comes to the locators of a resource that is written, whatever they are. -/
theorem parseResource_eq (path : String) {uri : String} {locators : List Locator} {w : Value}
    (h : Denotes (resourceJson uri locators).value w) (huri : IsDatasetUri uri)
    (hne : locators ≠ []) (hmax : locators.length ≤ MAX_REF_LOCATORS) :
    ∃ items, List.Forall₂ Denotes (Renderer.Json.values (locators.map (Locator.toJson uri))) items ∧
      parseResource w path = (do
        let read ← items.zipIdx.mapM fun item =>
          parseLocator uri (joinKey path "locators") item.1 item.2
        return (uri, read)) := by
  obtain ⟨members, rfl, hclosed, hmembers⟩ := @closed_of_written
    [("logical_uri", .str uri), ("content_hash", stateJson NOT_TAKEN),
      ("source_revision", stateJson NONE_PINNED),
      ("locators", .arr (locators.map (Locator.toJson uri))),
      ("cache_status", .str "linked"), ("portability_policy", .str "linked-live-file")] w path
    ["logical_uri", "content_hash", "source_revision", "locators", "cache_status",
      "portability_policy"] h rfl (by decide)
  have huriText : index members "logical_uri" = .string uri :=
    string_of_denotes (hmembers ("logical_uri", .str uri) (by simp))
  have hcache : index members "cache_status" = .string "linked" :=
    string_of_denotes (hmembers ("cache_status", .str "linked") (by simp))
  have hpolicy : index members "portability_policy" = .string "linked-live-file" :=
    string_of_denotes (hmembers ("portability_policy", .str "linked-live-file") (by simp))
  obtain ⟨⟨hashMembers, hhashObject⟩, hhash⟩ := expectState_of_denotes
    (joinKey path "content_hash")
    (hmembers ("content_hash", stateJson NOT_TAKEN) (by simp)) isState_NOT_TAKEN
  obtain ⟨-, hrevision⟩ := expectState_of_denotes (joinKey path "source_revision")
    (hmembers ("source_revision", stateJson NONE_PINNED) (by simp)) isState_NONE_PINNED
  have hlocators : Denotes (.array (Renderer.Json.values (locators.map (Locator.toJson uri))))
      (index members "locators") :=
    hmembers ("locators", .arr (locators.map (Locator.toJson uri))) (by simp)
  obtain ⟨items, hitems, hforall⟩ : ∃ items, index members "locators" = .array items ∧
      List.Forall₂ Denotes (Renderer.Json.values (locators.map (Locator.toJson uri))) items := by
    generalize index members "locators" = v at hlocators
    cases hlocators with
    | array h => exact ⟨_, rfl, h⟩
  have hlength : items.length = locators.length := by
    rw [← hforall.length_eq, Renderer.Json.values_eq, List.length_map, List.length_map]
  have hnotText : ¬(index members "content_hash").asStr.isSome = true := by
    rw [hhashObject]
    exact Bool.false_ne_true
  have hnonempty : items ≠ [] := by
    rintro rfl
    exact hne (List.eq_nil_of_length_eq_zero hlength.symm)
  have hfew : ¬items.length > MAX_REF_LOCATORS := by omega
  refine ⟨items, hforall, ?_⟩
  rw [parseResource, hclosed]
  dsimp only [bind, Except.bind]
  rw [huriText, bounded_string huri.size]
  dsimp only
  rw [parseUri_eq_ok.2 ⟨rfl, huri⟩]
  dsimp only
  rw [if_neg hnotText, hhash, hrevision]
  dsimp only
  rw [hcache, expectWord_string (by decide)]
  dsimp only
  rw [hpolicy, expectWord_string (by decide)]
  dsimp only
  rw [hitems]
  dsimp only [Value.asArray]
  rw [if_neg hnonempty, if_neg hfew]

theorem parseResource_of_denotes {uri path : String} {locators : List Locator} {w : Value}
    (h : Denotes (resourceJson uri locators).value w) (huri : IsDatasetUri uri)
    (hne : locators ≠ []) (hmax : locators.length ≤ MAX_REF_LOCATORS)
    (hall : ∀ l ∈ locators, l.Recordable) : parseResource w path = .ok (uri, locators) := by
  obtain ⟨items, hforall, heq⟩ := parseResource_eq path h huri hne hmax
  rw [heq, mapM_eq_ok.2 (parseLocators_of_denotes huri hall hforall 0)]
  rfl

theorem recordable_of_parseResource {v : Value} {path uri : String} {locators : List Locator}
    (h : parseResource v path = .ok (uri, locators)) :
    IsDatasetUri uri ∧ locators ≠ [] ∧ locators.length ≤ MAX_REF_LOCATORS ∧
      ∀ l ∈ locators, l.Recordable := by
  rw [parseResource] at h
  obtain ⟨members, _, h⟩ := bind_eq_ok.1 h
  obtain ⟨uriText, _, h⟩ := bind_eq_ok.1 h
  obtain ⟨uri', huri, h⟩ := bind_eq_ok.1 h
  dsimp only at h
  split at h
  · obtain ⟨_, hrefused, _⟩ := bind_eq_ok.1 h
    cases hrefused
  obtain ⟨_, _, h⟩ := bind_eq_ok.1 h
  obtain ⟨_, _, h⟩ := bind_eq_ok.1 h
  obtain ⟨_, _, h⟩ := bind_eq_ok.1 h
  obtain ⟨_, _, h⟩ := bind_eq_ok.1 h
  split at h
  · cases h
  · next items _ =>
    split at h
    · obtain ⟨_, hrefused, _⟩ := bind_eq_ok.1 h
      cases hrefused
    · next hne =>
      split at h
      · obtain ⟨_, hrefused, _⟩ := bind_eq_ok.1 h
        cases hrefused
      · next hfew =>
        obtain ⟨read, hread, h⟩ := bind_eq_ok.1 h
        cases h
        have hforall := mapM_eq_ok.1 hread
        have hlength : items.length = locators.length := by
          rw [← hforall.length_eq, List.length_zipIdx]
        refine ⟨(parseUri_eq_ok.1 huri).1 ▸ (parseUri_eq_ok.1 huri).2, ?_, by omega,
          recordable_of_parseLocators hforall⟩
        rintro rfl
        exact hne (List.eq_nil_of_length_eq_zero hlength)

/-! ### The reference -/

/-- What the reader accepts. -/
structure DatasetRef.Recordable (r : DatasetRef) : Prop where
  uri : IsDatasetUri r.uri
  some_locator : r.locators ≠ []
  few_locators : r.locators.length ≤ MAX_REF_LOCATORS
  locators : ∀ l ∈ r.locators, l.Recordable
  observed : r.observed.Recordable
  admission : r.admission.Recordable

theorem recordable_of_parse {v : Value} {r : DatasetRef} (h : DatasetRef.parse v = .ok r) :
    r.Recordable := by
  rw [DatasetRef.parse] at h
  obtain ⟨entry, _, h⟩ := bind_eq_ok.1 h
  obtain ⟨⟨uri, locators⟩, hresource, h⟩ := bind_eq_ok.1 h
  obtain ⟨observed, hobserved, h⟩ := bind_eq_ok.1 h
  obtain ⟨admission, hadmission, h⟩ := bind_eq_ok.1 h
  cases h
  obtain ⟨huri, hne, hfew, hall⟩ := recordable_of_parseResource hresource
  exact {
    uri := huri
    some_locator := hne
    few_locators := hfew
    locators := hall
    observed := recordable_of_parseObserved hobserved
    admission := recordable_of_parseAdmission hadmission }

theorem parse_of_denotes {r : DatasetRef} {w : Value} (h : Denotes r.toJson.value w)
    (hr : r.Recordable) : DatasetRef.parse w = .ok r := by
  obtain ⟨members, rfl, hclosed, hall⟩ := @closed_of_written
    [("resource", resourceJson r.uri r.locators), ("observed", observedJson r.observed),
      ("admission", r.admission.toJson)] w "$" ["resource", "observed", "admission"] h rfl
    (by decide)
  have hresource : Denotes (resourceJson r.uri r.locators).value (index members "resource") :=
    hall ("resource", resourceJson r.uri r.locators) (by simp)
  have hobserved : Denotes (observedJson r.observed).value (index members "observed") :=
    hall ("observed", observedJson r.observed) (by simp)
  have hadmission : Denotes r.admission.toJson.value (index members "admission") :=
    hall ("admission", r.admission.toJson) (by simp)
  rw [DatasetRef.parse, hclosed]
  dsimp only [bind, Except.bind]
  rw [parseResource_of_denotes hresource hr.uri hr.some_locator hr.few_locators hr.locators]
  dsimp only
  rw [parseObserved_of_denotes hobserved hr.observed]
  dsimp only
  rw [parseAdmission_of_denotes hadmission hr.admission]
  rfl

end SpatialIde.Kernel
