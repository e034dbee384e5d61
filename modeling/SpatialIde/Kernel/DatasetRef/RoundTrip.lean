import SpatialIde.Engine.Identity
import SpatialIde.Kernel.DatasetRef.Recordable

/-! # A dataset reference through its text

A reference that the reader has accepted is written to a text, and every value the
text is read as is that reference again.  A reference that is built over an open
dataset is read back within the reader's own bounds: the engine bounds neither the
identifier of an assertion nor the name of a column.
-/

namespace SpatialIde.Renderer

open Lib Lib.Json

/-! ### Trees that are always written -/

/-- A tree of texts and whole numbers, with no key twice. -/
inductive Json.Plain : Json → Prop
  | null : Plain .null
  | uint (u : UInt64) : Plain (.uint u)
  | str (s : String) : Plain (.str s)
  | arr {items : List Json} (h : ∀ v ∈ items, Plain v) : Plain (.arr items)
  | obj {members : List (String × Json)} (hkeys : (members.map Prod.fst).Nodup)
      (h : ∀ m ∈ members, Plain m.2) : Plain (.obj members)

theorem exists_writeItems (loc : String) : ∀ {items : List Json} (i : Nat),
    (∀ v ∈ items, ∀ loc, ∃ text, writeValue loc v = .ok text) →
      ∃ text, writeItems loc i items = .ok text := by
  intro items
  induction items with
  | nil => exact fun _ _ => ⟨_, rfl⟩
  | cons v items ih =>
    intro i h
    obtain ⟨text, htext⟩ := h v List.mem_cons_self (loc ++ "[" ++ toString i ++ "]")
    obtain ⟨rest, hrest⟩ := ih (i + 1) fun v' hv' => h v' (List.mem_cons_of_mem v hv')
    rw [writeItems, htext, hrest]
    exact ⟨_, rfl⟩

theorem exists_writeMembers (loc : String) : ∀ {members : List (String × Json)}
    (seen : List String), (seen ++ members.map Prod.fst).Nodup →
      (∀ m ∈ members, ∀ loc, ∃ text, writeValue loc m.2 = .ok text) →
        ∃ text, writeMembers loc seen members = .ok text := by
  intro members
  induction members with
  | nil => exact fun _ _ _ => ⟨_, rfl⟩
  | cons m members ih =>
    intro seen hnodup h
    have hnodup' : (seen ++ [m.1] ++ members.map Prod.fst).Nodup := by
      rw [List.append_assoc]
      exact hnodup
    have hnew : m.1 ∉ seen := fun hseen =>
      List.disjoint_of_nodup_append hnodup hseen List.mem_cons_self
    obtain ⟨text, htext⟩ := h m List.mem_cons_self (loc ++ "." ++ m.1)
    obtain ⟨rest, hrest⟩ := ih (seen ++ [m.1]) hnodup' fun m' hm' => h m' (List.mem_cons_of_mem m hm')
    rw [writeMembers, if_neg hnew, htext]
    dsimp only [bind, Except.bind]
    rw [hrest]
    exact ⟨_, rfl⟩

namespace Json.Plain

theorem writes {v : Json} (h : v.Plain) : ∀ loc, ∃ text, writeValue loc v = .ok text := by
  induction h with
  | null | uint | str => exact fun loc => ⟨_, rfl⟩
  | arr _ ih =>
    intro loc
    obtain ⟨text, htext⟩ := exists_writeItems loc 0 ih
    rw [writeValue, htext]
    exact ⟨_, rfl⟩
  | obj hkeys _ ih =>
    intro loc
    obtain ⟨text, htext⟩ := exists_writeMembers loc [] hkeys ih
    rw [writeValue, htext]
    exact ⟨_, rfl⟩

/-- Its value holds no key twice either. -/
theorem denotes {v : Json} (h : v.Plain) : Denotes v.value v.value := by
  induction h with
  | null => exact .null
  | uint u => exact .posInt u
  | str s => exact .string s
  | @arr items _ ih =>
    rw [Json.value, Json.values_eq]
    refine .array (List.forall₂_same.2 fun w hw => ?_)
    obtain ⟨v, hv, rfl⟩ := List.mem_map.1 hw
    exact ih v hv
  | @obj members hkeys _ ih =>
    rw [Json.value, Json.memberValues_eq]
    refine Denotes.of_nodup ?_ fun m hm => ?_
    · rw [List.map_map]
      exact hkeys
    · obtain ⟨m', hm', rfl⟩ := List.mem_map.1 hm
      exact ih m' hm'

end Json.Plain

end SpatialIde.Renderer

namespace SpatialIde.Kernel

open Lib Lib.Json SpatialIde.Renderer
open SpatialIde.Engine (MAX_CRS_DEFINITION_BYTES)

/-! ### The tree of a reference -/

theorem plain_members {members : List (String × Renderer.Json)}
    (hkeys : (members.map Prod.fst).Nodup) (h : members.Forall fun m => m.2.Plain) :
    (Renderer.Json.obj members).Plain :=
  .obj hkeys fun m hm => List.forall_iff_forall_mem.1 h m hm

theorem plain_stateJson (state : NamedState) : (stateJson state).Plain :=
  plain_members (by simp) ⟨.str _, .str _⟩

theorem plain_observedJson (o : SourceObservation) : (observedJson o).Plain := by
  refine plain_members (by simp) ⟨.uint _, ?_, .uint _, ?_⟩
  · cases o.modifiedNanos with
    | none => exact plain_stateJson _
    | some n => exact .str _
  · cases o.footerHash with
    | none => exact plain_stateJson _
    | some s => exact .str _

theorem plain_locator (uri : String) (l : Locator) : (l.toJson uri).Plain := by
  cases l with
  | projectRelative location => exact plain_members (by simp) ⟨.str _, .str _⟩
  | machineRecorded => exact plain_members (by simp) ⟨.str _, .str _⟩

theorem plain_admission (a : Admission) : a.toJson.Plain := by
  refine plain_members (by simp) ⟨?_, ?_⟩
  · cases a.crsAssertion with
    | none => exact .null
    | some c => exact plain_members (by simp) ⟨.str _, .str _⟩
  · cases a.identity with
    | none => exact .null
    | some i => exact plain_members (by simp) (.str _)

theorem plain_resourceJson (uri : String) (locators : List Locator) :
    (resourceJson uri locators).Plain := by
  refine plain_members (by simp) ⟨.str _, plain_stateJson _, plain_stateJson _, ?_, .str _, .str _⟩
  refine .arr fun v hv => ?_
  obtain ⟨l, _, rfl⟩ := List.mem_map.1 hv
  exact plain_locator uri l

theorem plain_toJson (r : DatasetRef) : r.toJson.Plain :=
  plain_members (by simp)
    ⟨plain_resourceJson r.uri r.locators, plain_observedJson r.observed, plain_admission r.admission⟩

theorem depth_stateJson (state : NamedState) : (stateJson state).depth = 2 := rfl

theorem depth_locators (uri : String) (locators : List Locator) :
    Renderer.Json.itemsDepth (locators.map (Locator.toJson uri)) ≤ 2 := by
  induction locators with
  | nil => exact Nat.zero_le 2
  | cons l locators ih =>
    rw [List.map_cons, Renderer.Json.itemsDepth]
    refine Nat.max_le.2 ⟨?_, ih⟩
    cases l <;> exact Nat.le_refl 2

/-- Well within what a reader of JSON nests. -/
theorem depth_toJson_le (r : DatasetRef) : r.toJson.depth ≤ 5 := by
  have hlocators := depth_locators r.uri r.locators
  have hmtime : (mtimeJson r.observed).depth ≤ 2 := by
    unfold mtimeJson
    split
    · exact Nat.le_refl 2
    · exact Nat.le_succ 1
  have hhash : (hashJson r.observed).depth ≤ 2 := by
    unfold hashJson
    split
    · exact Nat.le_refl 2
    · exact Nat.le_succ 1
  have hcrs : (crsJson r.admission).depth ≤ 2 := by
    unfold crsJson
    split
    · exact Nat.le_succ 1
    · exact Nat.le_refl 2
  have hidentity : (identityJson r.admission).depth ≤ 2 := by
    unfold identityJson
    split
    · exact Nat.le_succ 1
    · exact Nat.le_refl 2
  show (Renderer.Json.obj [("resource", resourceJson r.uri r.locators),
    ("observed", .obj [("byte_size", .uint r.observed.byteSize), ("modified_ns", mtimeJson r.observed),
      ("footer_length", .uint r.observed.footerLength), ("footer_sha256", hashJson r.observed)]),
    ("admission", .obj [("crs_assertion", crsJson r.admission),
      ("identity", identityJson r.admission)])]).depth ≤ 5
  simp only [resourceJson, Renderer.Json.depth, Renderer.Json.membersDepth, depth_stateJson]
  omega

/-! ### References that are read back -/

/-- The reference has a text, nested five deep at most, and whatever the text is read as is that
reference. -/
def DatasetRef.ReadBack (r : DatasetRef) : Prop :=
  r.toJson.depth ≤ 5 ∧ ∃ text tree, toCanonicalString r.toJson = .ok text ∧
    Json.parse text = some tree ∧ Denotes tree tree ∧ ∀ w, Denotes tree w → DatasetRef.parse w = .ok r

theorem readBack_iff {r : DatasetRef} : r.ReadBack ↔ r.Recordable := by
  constructor
  · rintro ⟨-, text, tree, -, -, hself, hread⟩
    exact recordable_of_parse (hread tree hself)
  · intro hr
    obtain ⟨cs, hcs⟩ := (plain_toJson r).writes "$"
    have htext : toCanonicalString r.toJson = .ok (String.ofList cs) := by
      rw [toCanonicalString, hcs]
      rfl
    exact ⟨depth_toJson_le r, String.ofList cs, r.toJson.value, htext, parse_of_toCanonicalString htext,
      (plain_toJson r).denotes, fun w hw => parse_of_denotes hw hr⟩

/-! ### References the kernel builds -/

/-- A reference's URI. -/
structure DatasetUri where
  asStr : String
  form : IsDatasetUri asStr

/-- The two digits of a byte. -/
def hexByte (b : UInt8) : List Char := [hexChar (b.toNat / 16), hexChar (b.toNat % 16)]

theorem isLowerHex_hexChar {n : Nat} (h : n < 16) : Text.isLowerHex (hexChar n) = true := by
  interval_cases n <;> decide

theorem length_flatMap_hexByte (bytes : List UInt8) :
    (bytes.flatMap hexByte).length = 2 * bytes.length := by
  induction bytes with
  | nil => rfl
  | cons b bytes ih =>
    rw [List.flatMap_cons, List.length_append, ih, List.length_cons]
    show 2 + 2 * bytes.length = _
    omega

theorem isDatasetUri_hexBytes {bytes : List UInt8} (h : bytes.length = URI_HEX_LEN / 2) :
    IsDatasetUri (DATASET_URI_PREFIX ++ String.ofList (bytes.flatMap hexByte)) := by
  refine ⟨String.ofList (bytes.flatMap hexByte), ?_, ?_⟩
  · rw [Text.stripPrefix, String.toList_append, if_pos (by simp), ← String.length_toList,
      List.drop_left, String.ofList_toList]
  · rw [Text.isLowerHexOf, String.length_ofList, String.toList_ofList, Bool.and_eq_true,
      beq_iff_eq, List.all_eq_true]
    constructor
    · rw [length_flatMap_hexByte, h]
      decide
    · intro c hc
      obtain ⟨b, _, hb⟩ := List.mem_flatMap.1 hc
      have hlt : b.toNat < 256 := b.toNat_lt
      rcases List.mem_cons.1 hb with rfl | hb
      · exact isLowerHex_hexChar (by omega)
      · rw [List.mem_singleton.1 hb]
        exact isLowerHex_hexChar (by omega)

/-- The sixteen bytes are the operating system's. -/
def DatasetUri.mint (bytes : List UInt8) (h : bytes.length = URI_HEX_LEN / 2) : DatasetUri where
  asStr := DATASET_URI_PREFIX ++ String.ofList (bytes.flatMap hexByte)
  form := isDatasetUri_hexBytes h

/-- What `linked` reads of an open dataset, with what its admission has checked.  `fromStr` is
`serde_json::from_str`. -/
structure Dataset (fromStr : String → Except String Value) where
  crs : Engine.DatasetCrs
  source : Engine.IdSource
  descriptor : Engine.SourceDescriptor
  crs_admitted : ∃ semantics assertion, Engine.openCrs fromStr semantics assertion = .ok crs
  /-- The time is a `u128`. -/
  nanos : ∀ n ∈ descriptor.modifiedNanos, n < 2 ^ 128
  /-- The length is a `u32` of the file's tail. -/
  footer : descriptor.footerLength.toNat < 2 ^ 32
  /-- A SHA-256 in hexadecimal. -/
  hash : ∀ s ∈ descriptor.footerHash, Text.isLowerHexOf 64 s = true

/-- `SourceDescriptor::observation`. -/
def observation (d : Engine.SourceDescriptor) : SourceObservation :=
  ⟨d.byteSize, d.modifiedNanos, d.footerLength, d.footerHash⟩

inductive RefBuildError where
  | assertionWithoutDefinition
  deriving DecidableEq, Repr

def claimOf (source : Engine.CrsSource) (identifier : String) (definition : Option String) :
    Except RefBuildError (Option CrsAssertion) :=
  if source ≠ .callerAsserted then .ok none
  else
    match definition with
    | none => .error .assertionWithoutDefinition
    | some d => .ok (some ⟨identifier, d⟩)

section

variable {fromStr : String → Except String Value}

/-- The column of a caller's identity declaration. -/
def mappedColumn (ds : Dataset fromStr) : Option String :=
  match ds.source with
  | .mapped column _ _ => some column
  | _ => none

def DatasetRef.linked (uri : DatasetUri) (ds : Dataset fromStr) :
    Except RefBuildError DatasetRef := do
  let crsAssertion ← claimOf ds.crs.source ds.crs.identifier ds.crs.definitionJson
  return {
    uri := uri.asStr
    locators := [.machineRecorded]
    observed := observation ds.descriptor
    admission := ⟨crsAssertion, (mappedColumn ds).map IdentityDeclaration.mk⟩ }

/-- The reader's bounds that no admission checks. -/
structure WithinReader (ds : Dataset fromStr) : Prop where
  identifier : ds.crs.source = .callerAsserted →
    ds.crs.identifier.utf8ByteSize ≤ MAX_REF_STRING_BYTES
  column : ∀ column ∈ mappedColumn ds, IsClaim column MAX_REF_STRING_BYTES
  size : ds.descriptor.byteSize.toNat ≤ MAX_EXACT_INTEGER

/-- The CRS claim of an admitted dataset. -/
theorem claimOf_admitted (hvalue : ∀ text v, fromStr text = .ok v → Text.trim text ≠ "")
    (ds : Dataset fromStr) :
    ∃ c, claimOf ds.crs.source ds.crs.identifier ds.crs.definitionJson = .ok c ∧
      (c.isSome ↔ ds.crs.source = .callerAsserted) ∧
      ∀ a ∈ c, a.identifier = ds.crs.identifier ∧ Text.trim a.identifier ≠ "" ∧
        IsClaim a.definitionJson MAX_CRS_DEFINITION_BYTES := by
  unfold claimOf
  by_cases hsource : ds.crs.source = .callerAsserted
  · obtain ⟨semantics, assertion, hopen⟩ := ds.crs_admitted
    obtain ⟨hidentifier, d, v, hd, hsize, hv⟩ := Engine.openCrs_asserted fromStr hopen hsource
    rw [if_neg (by simp [hsource]), hd]
    refine ⟨_, rfl, by simp [hsource], ?_⟩
    intro a ha
    cases ha
    exact ⟨rfl, hidentifier, hsize, hvalue d v hv⟩
  · rw [if_pos hsource]
    exact ⟨none, rfl, by simp [hsource], by simp⟩

theorem linked_recordable_iff (hvalue : ∀ text v, fromStr text = .ok v → Text.trim text ≠ "")
    (uri : DatasetUri) (ds : Dataset fromStr) :
    ∃ r, DatasetRef.linked uri ds = .ok r ∧ (r.Recordable ↔ WithinReader ds) := by
  obtain ⟨c, hclaim, hsome, hc⟩ := claimOf_admitted hvalue ds
  refine ⟨_, by rw [DatasetRef.linked, hclaim]; rfl, ?_⟩
  constructor
  · intro hr
    refine ⟨fun hsource => ?_, fun column hcolumn => ?_, hr.observed.size⟩
    · obtain ⟨a, rfl⟩ := Option.isSome_iff_exists.1 (hsome.2 hsource)
      rw [← (hc a rfl).1]
      exact (hr.admission.crs a rfl).1.1
    · exact hr.admission.identity ⟨column⟩ (Option.mem_map_of_mem _ hcolumn)
  · intro hwithin
    exact {
      uri := uri.form
      some_locator := by simp
      few_locators := show 1 ≤ MAX_REF_LOCATORS by decide
      locators := by simp [Locator.Recordable]
      observed := {
        size := hwithin.size
        nanos := ds.nanos
        footer := by
          have hfooter := ds.footer
          have hmax : MAX_EXACT_INTEGER = 2 ^ 53 - 1 := rfl
          show ds.descriptor.footerLength.toNat ≤ _
          omega
        hash := ds.hash }
      admission := {
        crs := fun a ha => by
          obtain ⟨hidentifier, hblank, hdefinition⟩ := hc a ha
          have hsource := hsome.1 (Option.isSome_iff_exists.2 ⟨a, ha⟩)
          exact ⟨⟨hidentifier ▸ hwithin.identifier hsource, hblank⟩, hdefinition⟩
        identity := fun i hi => by
          obtain ⟨column, hcolumn, rfl⟩ := Option.mem_map.1 hi
          exact hwithin.column column hcolumn } }

end

/-- **Dataset references round-trip.**  What the reader has accepted is read back as itself from
its own text.  A reference linked over an admitted dataset is read back exactly within the bounds
that the reader holds and the engine does not. -/
theorem references_round_trip {fromStr : String → Except String Value}
    (hvalue : ∀ text v, fromStr text = .ok v → Text.trim text ≠ "") :
    (∀ v r, DatasetRef.parse v = .ok r → r.ReadBack) ∧
      ∀ (uri : DatasetUri) (ds : Dataset fromStr), ∃ r, DatasetRef.linked uri ds = .ok r ∧
        (r.ReadBack ↔ WithinReader ds) := by
  refine ⟨fun v r h => readBack_iff.2 (recordable_of_parse h), fun uri ds => ?_⟩
  obtain ⟨r, hr, hiff⟩ := linked_recordable_iff hvalue uri ds
  exact ⟨r, hr, readBack_iff.trans hiff⟩

/-- The grammar, for texts that are not blank. -/
def fromGrammar (text : String) : Except String Value :=
  if Text.trim text = "" then .error "EOF while parsing a value"
  else
    match Json.parse text with
    | some v => .ok v
    | none => .error "expected value"

theorem fromGrammar_value (text : String) (v : Value) (h : fromGrammar text = .ok v) :
    Text.trim text ≠ "" := by
  rw [fromGrammar] at h
  split_ifs at h with hblank
  exact hblank

def parcelsUri : DatasetUri := .mint (List.replicate 16 0x2a) (by decide)

def parcelsDescriptor : Engine.SourceDescriptor := ⟨4096, some 1700000000, 512, none, 0⟩

/-- A file whose CRS the caller asserted. -/
def assertedParcels : Dataset fromGrammar where
  crs := ⟨"EPSG:2056", some ("\x7b\"coordinate_system\":\x7b\"axis\":" ++
    "[\x7b\"direction\":\"east\"\x7d,\x7b\"direction\":\"north\"\x7d]\x7d\x7d"),
    .callerAsserted, .eastingNorthing⟩
  source := .mapped "egrid" "host" "2026-09-16T00:00:00Z"
  descriptor := parcelsDescriptor
  crs_admitted := ⟨⟨none, false, none⟩, some ⟨"EPSG:2056",
    some ("\x7b\"coordinate_system\":\x7b\"axis\":" ++
      "[\x7b\"direction\":\"east\"\x7d,\x7b\"direction\":\"north\"\x7d]\x7d\x7d")⟩, by rfl⟩
  nanos := by decide
  footer := by decide
  hash := by simp [parcelsDescriptor]

theorem references_round_trip_asserted :
    ∃ r, DatasetRef.linked parcelsUri assertedParcels = .ok r ∧ r.ReadBack := by
  obtain ⟨r, hr, hiff⟩ := (references_round_trip fromGrammar_value).2 parcelsUri assertedParcels
  refine ⟨r, hr, hiff.2 ⟨fun _ => by decide, fun column hcolumn => ?_, by decide⟩⟩
  cases hcolumn
  exact ⟨by decide, by decide⟩

/-- A file with an identity column of 4097 bytes. -/
def longColumnParcels : Dataset fromGrammar where
  crs := ⟨"EPSG:2056", none, .file, .eastingNorthing⟩
  source := .mapped (String.ofList (List.replicate 4097 'a')) "host" "2026-09-16T00:00:00Z"
  descriptor := parcelsDescriptor
  crs_admitted := ⟨⟨some ("EPSG:2056", none, .eastingNorthing), false, none⟩, none, rfl⟩
  nanos := by decide
  footer := by decide
  hash := by simp [parcelsDescriptor]

/-- Its reference is written, and no value is read as it. -/
theorem long_column_not_read_back : ∃ r, DatasetRef.linked parcelsUri longColumnParcels = .ok r ∧
    (∃ text tree, toCanonicalString r.toJson = .ok text ∧ Json.parse text = some tree) ∧
      ∀ w, DatasetRef.parse w ≠ .ok r := by
  obtain ⟨r, hr, hiff⟩ := linked_recordable_iff fromGrammar_value parcelsUri longColumnParcels
  obtain ⟨cs, hcs⟩ := (plain_toJson r).writes "$"
  have htext : toCanonicalString r.toJson = .ok (String.ofList cs) := by
    rw [toCanonicalString, hcs]
    rfl
  refine ⟨r, hr, ⟨_, _, htext, parse_of_toCanonicalString htext⟩, fun w hw => ?_⟩
  have hcolumn := (hiff.1 (recordable_of_parse hw)).column _ rfl
  have hsize := hcolumn.1
  have hbytes := Text.length_le_utf8ByteSize (String.ofList (List.replicate 4097 'a'))
  rw [String.length_ofList, List.length_replicate] at hbytes
  have hmax : MAX_REF_STRING_BYTES = 4096 := rfl
  omega

end SpatialIde.Kernel
