import SpatialIde.Kernel.DatasetRef.RoundTrip

/-! # Project-relative locators

Which texts the reader takes as the `at` of a project-relative locator, and what
it says of the others, wherever the locator stands in a reference.
-/

namespace SpatialIde.Kernel

open Lib Lib.Json SpatialIde.Renderer

/-! ### The form that the decision record fixes -/

/-- U+0000 to U+001F and U+007F to U+009F. -/
def isControl (c : Char) : Bool := c.toNat ≤ 0x1F || (0x7F ≤ c.toNat && c.toNat ≤ 0x9F)

def RESERVED_DEVICE_NAMES : List String :=
  ["CON", "PRN", "AUX", "NUL", "CONIN$", "CONOUT$",
    "COM0", "COM1", "COM2", "COM3", "COM4", "COM5", "COM6", "COM7", "COM8", "COM9",
    "COM\u00B9", "COM\u00B2", "COM\u00B3",
    "LPT0", "LPT1", "LPT2", "LPT3", "LPT4", "LPT5", "LPT6", "LPT7", "LPT8", "LPT9",
    "LPT\u00B9", "LPT\u00B2", "LPT\u00B3"]

/-- What stands in front of the first dot, without the spaces at its end, in capitals. -/
def devicePart (segment : List Char) : String :=
  String.ofList ((Text.trimEndOf (· = ' ') (segment.takeWhile (· ≠ '.'))).map Char.toUpper)

/-- A segment of a path in canonical form. -/
structure CanonicalSegment (segment : List Char) : Prop where
  not_empty : segment ≠ []
  not_dots : segment ≠ ['.'] ∧ segment ≠ ['.', '.']
  last : ∀ c ∈ segment.getLast?, c ≠ '.' ∧ c ≠ ' '
  not_device : devicePart segment ∉ RESERVED_DEVICE_NAMES

/-- Canonical form of a project-relative path. -/
structure CanonicalForm (location : String) : Prop where
  characters : ∀ c ∈ location.toList, c ≠ '\\' ∧ c ≠ ':' ∧ isControl c = false
  segments : ∀ s ∈ location.toList.splitOn '/', CanonicalSegment s

theorem CanonicalForm.isCanonicalLocation {location : String} (h : CanonicalForm location) :
    IsCanonicalLocation location := by
  constructor
  · intro c hc
    exact ⟨(h.characters c hc).1, (h.characters c hc).2.1⟩
  · intro s hs
    exact ⟨(h.segments s hs).not_empty, (h.segments s hs).not_dots⟩

/-! ### One locator of a reference -/

/-- What the reader does with a project-relative locator. -/
theorem parseLocator_projectRelative {uri path location : String} {w : Value} {i : Nat}
    (h : Denotes ((Locator.projectRelative location).toJson uri).value w) :
    parseLocator uri path w i = (do
      let location ← bounded (.string location) (joinKey (path ++ "[" ++ toString i ++ "]") "at")
        MAX_REF_STRING_BYTES
      inCanonicalForm location (joinKey (path ++ "[" ++ toString i ++ "]") "at")
      return .projectRelative location) := by
  obtain ⟨members, rfl, hclosed, hall⟩ := @closed_of_written
    [("kind", .str "project-relative"), ("at", .str location)] w
    (path ++ "[" ++ toString i ++ "]") ["kind", "at"] h rfl (by decide)
  have hkind : index members "kind" = .string "project-relative" :=
    string_of_denotes (hall ("kind", .str "project-relative") (by simp))
  have hlocation : index members "at" = .string location :=
    string_of_denotes (hall ("at", .str location) (by simp))
  rw [parseLocator]
  dsimp only
  rw [hclosed]
  dsimp only [bind, Except.bind]
  rw [hkind, hlocation]
  cases bounded (.string location) (joinKey (path ++ "[" ++ toString i ++ "]") "at")
      MAX_REF_STRING_BYTES with
  | error e => rfl
  | ok s =>
    dsimp only
    rw [bounded_string (by decide)]
    dsimp only
    rw [if_pos rfl]

theorem parseLocator_long {uri path location : String} {w : Value} {i : Nat}
    (h : Denotes ((Locator.projectRelative location).toJson uri).value w)
    (hlong : MAX_REF_STRING_BYTES < location.utf8ByteSize) :
    parseLocator uri path w i =
      .error (.overCeiling (joinKey (path ++ "[" ++ toString i ++ "]") "at")
        MAX_REF_STRING_BYTES) := by
  rw [parseLocator_projectRelative h, bounded]
  simp only [Value.asStr]
  rw [if_pos hlong]
  rfl

theorem parseLocator_not_canonical {uri path location : String} {w : Value} {i : Nat}
    (h : Denotes ((Locator.projectRelative location).toJson uri).value w)
    (hshort : location.utf8ByteSize ≤ MAX_REF_STRING_BYTES)
    (hform : ¬IsCanonicalLocation location) :
    parseLocator uri path w i =
      .error (.malformed (joinKey (path ++ "[" ++ toString i ++ "]") "at")
        "a project-relative locator is in canonical form") := by
  have hrefused : inCanonicalForm location (joinKey (path ++ "[" ++ toString i ++ "]") "at") =
      .error (.malformed (joinKey (path ++ "[" ++ toString i ++ "]") "at")
        "a project-relative locator is in canonical form") := by
    have hne : inCanonicalForm location (joinKey (path ++ "[" ++ toString i ++ "]") "at") ≠
        .ok () := mt inCanonicalForm_eq_ok.1 hform
    rw [inCanonicalForm] at hne ⊢
    split_ifs at hne ⊢ with hbad
    · rfl
    · exact absurd rfl hne
  rw [parseLocator_projectRelative h, bounded_string hshort]
  dsimp only [bind, Except.bind]
  rw [hrefused]

/-- The first error of the locators, at its place. -/
theorem parseLocators_error (path : String) {uri : String} {l : Locator} {after : List Locator}
    {e : RefParseError} (huri : IsDatasetUri uri) : ∀ {before : List Locator} {items : List Value}
      (k : Nat), List.Forall₂ (fun l v => Denotes (l.toJson uri).value v) (before ++ l :: after) items →
      (∀ l' ∈ before, l'.Recordable) →
      (∀ item, Denotes (l.toJson uri).value item →
        parseLocator uri path item (k + before.length) = .error e) →
      ((items.zipIdx k).mapM fun item => parseLocator uri path item.1 item.2) = .error e := by
  intro before
  induction before with
  | nil =>
    intro items k h _ he
    cases h with
    | cons hitem _ =>
      have hfirst := he _ hitem
      rw [List.length_nil, Nat.add_zero] at hfirst
      rw [List.zipIdx_cons, List.mapM_cons]
      dsimp only
      rw [hfirst]
      rfl
  | cons l' before ih =>
    intro items k h hbefore he
    cases h with
    | cons hitem hrest =>
      rw [List.zipIdx_cons, List.mapM_cons,
        parseLocator_of_denotes hitem (hbefore l' List.mem_cons_self) huri]
      dsimp only [bind, Except.bind]
      rw [ih (k + 1) hrest (fun l'' hl'' => hbefore l'' (List.mem_cons_of_mem l' hl''))]
      intro item hitem'
      have hplace := he item hitem'
      rwa [List.length_cons, Nat.add_comm before.length, ← Nat.add_assoc] at hplace

/-- A reference that is recordable but for one locator. -/
structure RecordableBut (r : DatasetRef) (before after : List Locator) (l : Locator) : Prop where
  locators : r.locators = before ++ l :: after
  uri : IsDatasetUri r.uri
  few_locators : r.locators.length ≤ MAX_REF_LOCATORS
  before : ∀ l' ∈ before, l'.Recordable
  after : ∀ l' ∈ after, l'.Recordable
  observed : r.observed.Recordable
  admission : r.admission.Recordable

namespace RecordableBut

variable {r : DatasetRef} {before after : List Locator} {l : Locator}

theorem recordable_iff (h : RecordableBut r before after l) : r.Recordable ↔ l.Recordable := by
  constructor
  · intro hr
    exact hr.locators l (by rw [h.locators]; simp)
  · intro hl
    exact {
      uri := h.uri
      some_locator := by rw [h.locators]; simp
      few_locators := h.few_locators
      locators := by
        rw [h.locators]
        intro l' hl'
        rcases List.mem_append.1 hl' with hl' | hl'
        · exact h.before l' hl'
        · rcases List.mem_cons.1 hl' with rfl | hl'
          · exact hl
          · exact h.after l' hl'
      observed := h.observed
      admission := h.admission }

/-- An error at the locator is the error of the reference. -/
theorem parse_error (h : RecordableBut r before after l) {w : Value} {e : RefParseError}
    (hw : Denotes r.toJson.value w)
    (he : ∀ item, Denotes (l.toJson r.uri).value item →
      parseLocator r.uri (joinKey "$.resource" "locators") item before.length = .error e) :
    DatasetRef.parse w = .error e := by
  obtain ⟨members, rfl, hclosed, hall⟩ := @closed_of_written
    [("resource", resourceJson r.uri r.locators), ("observed", observedJson r.observed),
      ("admission", r.admission.toJson)] w "$" ["resource", "observed", "admission"] hw rfl
    (by decide)
  have hresource : Denotes (resourceJson r.uri r.locators).value (index members "resource") :=
    hall ("resource", resourceJson r.uri r.locators) (by simp)
  obtain ⟨items, hforall, heq⟩ := parseResource_eq "$.resource" hresource h.uri
    (by rw [h.locators]; simp) h.few_locators
  rw [h.locators, Renderer.Json.values_eq, List.map_map, List.forall₂_map_left_iff] at hforall
  have hread := parseLocators_error (joinKey "$.resource" "locators") h.uri 0 hforall h.before
    (by simpa using he)
  rw [DatasetRef.parse, hclosed]
  dsimp only [bind, Except.bind]
  rw [heq]
  dsimp only [bind, Except.bind]
  rw [hread]

end RecordableBut

/-- **Project-relative locators are taken by their text alone**, wherever one stands in a reference
that is otherwise in order and in whatever order its members are read: one in canonical form is
accepted, one with a backslash, a colon or an empty, `.` or `..` segment is refused, and so is one
over the reader's ceiling. -/
theorem project_relative_locators {r : DatasetRef} {before after : List Locator} {location : String}
    {w : Value} (h : RecordableBut r before after (.projectRelative location))
    (hw : Denotes r.toJson.value w) :
    (location.utf8ByteSize ≤ MAX_REF_STRING_BYTES → CanonicalForm location →
      DatasetRef.parse w = .ok r) ∧
    (location.utf8ByteSize ≤ MAX_REF_STRING_BYTES → ¬IsCanonicalLocation location →
      DatasetRef.parse w = .error (.malformed
        (joinKey (joinKey "$.resource" "locators" ++ "[" ++ toString before.length ++ "]") "at")
        "a project-relative locator is in canonical form")) ∧
    (MAX_REF_STRING_BYTES < location.utf8ByteSize →
      DatasetRef.parse w = .error (.overCeiling
        (joinKey (joinKey "$.resource" "locators" ++ "[" ++ toString before.length ++ "]") "at")
        MAX_REF_STRING_BYTES)) := by
  refine ⟨fun hshort hform => ?_, fun hshort hform => ?_, fun hlong => ?_⟩
  · exact parse_of_denotes hw (h.recordable_iff.2 ⟨hshort, hform.isCanonicalLocation⟩)
  · exact h.parse_error hw fun item hitem => parseLocator_not_canonical hitem hshort hform
  · exact h.parse_error hw fun item hitem => parseLocator_long hitem hlong

/-- A reference with one locator. -/
def referenceTo (location : String) : DatasetRef where
  uri := parcelsUri.asStr
  locators := [.projectRelative location]
  observed := observation parcelsDescriptor
  admission := ⟨none, none⟩

theorem referenceTo_but (location : String) :
    RecordableBut (referenceTo location) [] [] (.projectRelative location) where
  locators := rfl
  uri := parcelsUri.form
  few_locators := show 1 ≤ MAX_REF_LOCATORS by decide
  before := by simp
  after := by simp
  observed := {
    size := show parcelsDescriptor.byteSize.toNat ≤ MAX_EXACT_INTEGER by decide
    nanos := show ∀ n ∈ parcelsDescriptor.modifiedNanos, n < 2 ^ 128 by decide
    footer := show parcelsDescriptor.footerLength.toNat ≤ MAX_EXACT_INTEGER by decide
    hash := by simp [referenceTo, observation, parcelsDescriptor] }
  admission := ⟨by simp [referenceTo], by simp [referenceTo]⟩

theorem canonicalForm_parcels : CanonicalForm "data/parcels.parquet" := by
  constructor
  · have hall : "data/parcels.parquet".toList.all
        (fun c => c ≠ '\\' && (c ≠ ':' && !isControl c)) = true := by decide
    intro c hc
    simpa using List.all_eq_true.1 hall c hc
  · intro s hs
    have hsplit : "data/parcels.parquet".toList.splitOn '/' =
        ["data".toList, "parcels.parquet".toList] := by decide
    rw [hsplit] at hs
    rcases List.mem_cons.1 hs with rfl | hs
    · refine ⟨by decide, by decide, fun c hc => ?_, by decide⟩
      cases hc
      decide
    · rw [List.mem_singleton.1 hs]
      refine ⟨by decide, by decide, fun c hc => ?_, by decide⟩
      cases hc
      decide

theorem project_relative_locators_parcels :
    DatasetRef.parse (referenceTo "data/parcels.parquet").toJson.value =
      .ok (referenceTo "data/parcels.parquet") :=
  (project_relative_locators (referenceTo_but "data/parcels.parquet") (plain_toJson _).denotes).1
    (by decide) canonicalForm_parcels

/-- One segment of letters. -/
def letters (n : Nat) : String := String.ofList (List.replicate n 'a')

theorem devicePart_replicate (n : Nat) :
    devicePart (List.replicate n 'a') = String.ofList (List.replicate n 'A') := by
  have htake : (List.replicate n 'a').takeWhile (· ≠ '.') = List.replicate n 'a' := by
    rw [List.takeWhile_eq_self_iff]
    intro c hc
    rw [List.eq_of_mem_replicate hc]
    decide
  have htrim : Text.trimEndOf (· = ' ') (List.replicate n 'a') = List.replicate n 'a' := by
    rw [Text.trimEndOf, List.reverse_replicate]
    cases n with
    | zero => rfl
    | succ n =>
      rw [List.replicate_succ, List.dropWhile_cons_of_neg (by decide), ← List.replicate_succ,
        List.reverse_replicate]
  rw [devicePart, htake, htrim, List.map_replicate]
  rfl

theorem canonicalForm_letters {n : Nat} (h : 8 ≤ n) : CanonicalForm (letters n) := by
  constructor
  · intro c hc
    rw [letters, String.toList_ofList] at hc
    rw [List.eq_of_mem_replicate hc]
    decide
  · intro s hs
    have hsplit : (letters n).toList.splitOn '/' = [List.replicate n 'a'] := by
      rw [letters, String.toList_ofList]
      refine List.splitOn_eq_singleton fun hslash => ?_
      exact absurd (List.eq_of_mem_replicate hslash) (by decide)
    rw [hsplit, List.mem_singleton] at hs
    subst hs
    have hlength : (List.replicate n 'a').length = n := List.length_replicate
    refine ⟨?_, ⟨?_, ?_⟩, ?_, ?_⟩
    · intro hempty
      rw [hempty] at hlength
      simp at hlength
      omega
    · intro hdot
      rw [hdot] at hlength
      simp at hlength
      omega
    · intro hdots
      rw [hdots] at hlength
      simp at hlength
      omega
    · intro c hc
      rw [List.eq_of_mem_replicate (List.mem_of_getLast? hc)]
      decide
    · rw [devicePart_replicate]
      -- every reserved name is shorter
      have hnames : ∀ name ∈ RESERVED_DEVICE_NAMES, name.length ≤ 7 := by decide
      intro hname
      have hshort := hnames _ hname
      rw [String.length_ofList, List.length_replicate] at hshort
      omega

theorem long_canonical_locator_refused : ¬∀ (r : DatasetRef) (before after : List Locator)
    (location : String) (w : Value), RecordableBut r before after (.projectRelative location) →
      Denotes r.toJson.value w →
        ((∃ r', DatasetRef.parse w = .ok r') ↔ CanonicalForm location) := by
  intro h
  obtain ⟨n, hn⟩ : ∃ n, n = MAX_REF_STRING_BYTES + 1 := ⟨_, rfl⟩
  have hmax : MAX_REF_STRING_BYTES = 4096 := rfl
  have hbut := referenceTo_but (letters n)
  have hself := (plain_toJson (referenceTo (letters n))).denotes
  have hlong : MAX_REF_STRING_BYTES < (letters n).utf8ByteSize := by
    have hbytes := Text.length_le_utf8ByteSize (letters n)
    rw [letters, String.length_ofList, List.length_replicate] at hbytes
    rw [letters]
    omega
  obtain ⟨r', hr'⟩ := (h _ _ _ _ _ hbut hself).2 (canonicalForm_letters (by omega))
  rw [hbut.parse_error hself fun item hitem => parseLocator_long hitem hlong] at hr'
  cases hr'

example : ¬CanonicalForm "logs/aux.parquet" := fun h =>
  absurd (h.segments "aux.parquet".toList (by decide)).not_device (by decide)

end SpatialIde.Kernel
