import SpatialIde.Engine.Identity
import SpatialIde.Lib.Except

/-! # Admitted attributes

Which columns of a source a query may carry beside the id and the geometry, in the order in which
the caller names them.  `admitProjectionColumn` judges one column; `admitProjection` judges a list,
first every name and then every column.  What is refused is the first failure of that order
(`FirstFailure`).
-/

namespace SpatialIde.Engine

/-- Attribute columns one bundle or one query may carry. -/
def MAX_PROJECTED_ATTRIBUTES : Nat := 32

/-- Every way in which a declared projection is refused. -/
inductive ProjectionError where
  | tooManyColumns (limit saw : Nat)
  | columnUnknown (column : String) (knownColumns : List String)
  | columnIsGeometry (column : String)
  /-- `idColumn` is the column of the source that the identity is read from. -/
  | columnIsIdentity (column idColumn : String)
  | columnDuplicated (column : String)
  | typeNotAdmitted (column arrowType : String) (sourceType : DataType) (detail : String)
  | columnNameNotAddressable (column detail : String)
  deriving DecidableEq, Repr

/-- The name a refusal is about. -/
def ProjectionError.column : ProjectionError → Option String
  | .tooManyColumns _ _ => none
  | .columnUnknown column _ | .columnIsGeometry column | .columnIsIdentity column _
  | .columnDuplicated column | .typeNotAdmitted column _ _ _
  | .columnNameNotAddressable column _ => some column

/-- A column as it is emitted. -/
structure EmittedField extends Field where
  nullable : Bool
  deriving DecidableEq, Repr

/-- A projection that has passed; the types are those of the source. -/
structure AdmittedProjection where
  fields : List EmittedField
  sourceTypes : List DataType
  deriving DecidableEq, Repr

section

-- How a type is written, and the two columns that already travel.
variable (display : DataType → String) (geometryColumn identityColumn : String)

/-- The type emitted for a column: its own, or the value type of a dictionary. -/
def admitAttributeType (column : String) (ty : DataType) : Except EngineError DataType :=
  let refused := EngineError.attributeUnpublishable column
    (s!"type is {display ty}, which is not in the admissible set for a published attribute " ++
      "(utf8, boolean, the 8/16/32/64-bit integers, float64)")
  match ty with
  | .utf8 | .largeUtf8 | .utf8View | .boolean | .int8 | .int16 | .int32 | .int64 | .uInt8 | .uInt16
  | .uInt32 | .uInt64 | .float64 | .float32 => .ok ty
  | .dictionary _ value => if value.admitted then .ok value else .error refused
  | _ => .error refused

/-- The rules on the name.  The reserved name is refused whatever the identity column is. -/
def checkGeometryAndIdentity (field : SchemaField) : Except ProjectionError Unit :=
  match notAddressableForField field with
  | some fact => .error (.columnNameNotAddressable field.name fact.render)
  | none =>
    if field.name = geometryColumn then .error (.columnIsGeometry field.name)
    else if field.name = ID_COLUMN ∨ field.name = identityColumn then
      .error (.columnIsIdentity field.name identityColumn)
    else .ok ()

def typeCheck (field : SchemaField) : Except ProjectionError EmittedField :=
  match admitAttributeType display field.name field.dataType with
  | .error _ => .error (.typeNotAdmitted field.name (display field.dataType) field.dataType
      (s!"[B1 close placeholder] type is {display field.dataType}; not in the admissible set for a " ++
        "live projection (utf8, boolean, the 8/16/32/64-bit integers, float32, float64, or a " ++
        "dictionary over one of those)"))
  | .ok emitted => .ok ⟨⟨field.name, emitted⟩, true⟩

/-- One column, alone. -/
def admitProjectionColumn (field : SchemaField) : Except ProjectionError EmittedField := do
  checkGeometryAndIdentity geometryColumn identityColumn field
  typeCheck display field

/-! ### A list of names -/

/-- The first column of the name; the reserved name is recognised before that. -/
def resolveName (fileSchema : List SchemaField) (name : String) :
    Except ProjectionError SchemaField :=
  if name = ID_COLUMN then .error (.columnIsIdentity name identityColumn)
  else
    match fileSchema.find? fun f => f.name = name with
    | none => .error (.columnUnknown name (fileSchema.map fun f => f.name))
    | some field => .ok field

/-- The names seen so far, and what was admitted for them. -/
structure Admitting where
  seen : List String
  out : List EmittedField
  sourceTypes : List DataType

def Admitting.step (st : Admitting) (field : SchemaField) : Except ProjectionError Admitting := do
  checkGeometryAndIdentity geometryColumn identityColumn field
  if field.name ∈ st.seen then throw (.columnDuplicated field.name)
  let emitted ← typeCheck display field
  return ⟨st.seen ++ [field.name], st.out ++ [emitted], st.sourceTypes ++ [field.dataType]⟩

def admitProjection (names : List String) (fileSchema : List SchemaField) :
    Except ProjectionError AdmittedProjection := do
  if names.length > MAX_PROJECTED_ATTRIBUTES then
    throw (.tooManyColumns MAX_PROJECTED_ATTRIBUTES names.length)
  let resolved ← names.mapM (resolveName identityColumn fileSchema)
  let st ← resolved.foldlM (Admitting.step display geometryColumn identityColumn) ⟨[], [], []⟩
  return ⟨st.out, st.sourceTypes⟩

end

/-! ### The first failure -/

section

variable (display : DataType → String) (geometryColumn identityColumn : String)

/-- What each rule has against a column behind others: addressability, geometry, identity, duplicate,
type. -/
def columnRules (seen : List String) (field : SchemaField) : List (Option ProjectionError) :=
  [(notAddressableForField field).map fun fact => .columnNameNotAddressable field.name fact.render,
    if field.name = geometryColumn then some (.columnIsGeometry field.name) else none,
    if field.name = ID_COLUMN ∨ field.name = identityColumn then
      some (.columnIsIdentity field.name identityColumn) else none,
    if field.name ∈ seen then some (.columnDuplicated field.name) else none,
    match typeCheck display field with
    | .error e => some e
    | .ok _ => none]

/-- What the first rule that is broken says. -/
def columnRefusal (seen : List String) (field : SchemaField) : Option ProjectionError :=
  (columnRules display geometryColumn identityColumn seen field).findSome? id

/-- The column of a name passes on its own. -/
def Projectable (fileSchema : List SchemaField) (name : String) : Prop :=
  ∃ field emitted, (fileSchema.find? fun f => f.name = name) = some field ∧
    admitProjectionColumn display geometryColumn identityColumn field = .ok emitted

/-- The first failure: of the count, of the names in order, of the columns in order. -/
inductive FirstFailure (fileSchema : List SchemaField) (names : List String) :
    ProjectionError → Prop where
  | count (hcount : MAX_PROJECTED_ATTRIBUTES < names.length) :
      FirstFailure fileSchema names (.tooManyColumns MAX_PROJECTED_ATTRIBUTES names.length)
  | name {before after : List String} {name : String} {e : ProjectionError}
      (hcount : names.length ≤ MAX_PROJECTED_ATTRIBUTES)
      (hnames : names = before ++ name :: after)
      (hbefore : ∀ n ∈ before, ∃ field, resolveName identityColumn fileSchema n = .ok field)
      (hname : resolveName identityColumn fileSchema name = .error e)
      (hnamed : e.column = some name) :
      FirstFailure fileSchema names e
  | column {before after : List String} {name : String} {field : SchemaField} {e : ProjectionError}
      (hcount : names.length ≤ MAX_PROJECTED_ATTRIBUTES)
      (hnames : names = before ++ name :: after)
      (hresolved : ∀ n ∈ names, ∃ field, resolveName identityColumn fileSchema n = .ok field)
      (hnodup : before.Nodup)
      (hbefore : ∀ n ∈ before, Projectable display geometryColumn identityColumn fileSchema n)
      (hfield : resolveName identityColumn fileSchema name = .ok field)
      (hcolumn : columnRefusal display geometryColumn identityColumn before field = some e)
      (hnamed : e.column = some name) :
      FirstFailure fileSchema names e

end

variable {display : DataType → String} {geometryColumn identityColumn : String}

theorem typeCheck_name {field : SchemaField} {emitted : EmittedField}
    (h : typeCheck display field = .ok emitted) :
    emitted.name = field.name ∧ emitted.nullable = true := by
  rw [typeCheck] at h
  split at h
  · cases h
  · cases h
    exact ⟨rfl, rfl⟩

theorem admitProjectionColumn_eq_ok_iff {field : SchemaField} {emitted : EmittedField} :
    admitProjectionColumn display geometryColumn identityColumn field = .ok emitted ↔
      checkGeometryAndIdentity geometryColumn identityColumn field = .ok () ∧
        typeCheck display field = .ok emitted := by
  rw [admitProjectionColumn, Lib.bind_eq_ok]
  constructor
  · rintro ⟨⟨⟩, hcheck, htype⟩
    exact ⟨hcheck, htype⟩
  · rintro ⟨hcheck, htype⟩
    exact ⟨(), hcheck, htype⟩

/-- A column that passes has not the reserved name, and keeps its own. -/
theorem admitProjectionColumn_name {field : SchemaField} {emitted : EmittedField}
    (h : admitProjectionColumn display geometryColumn identityColumn field = .ok emitted) :
    field.name ≠ ID_COLUMN ∧ emitted.name = field.name ∧ emitted.nullable = true := by
  obtain ⟨hcheck, htype⟩ := admitProjectionColumn_eq_ok_iff.1 h
  refine ⟨?_, typeCheck_name htype⟩
  intro hid
  rw [checkGeometryAndIdentity] at hcheck
  split at hcheck
  · cases hcheck
  · split_ifs at hcheck with hgeometry hidentity
    exact hidentity (.inl hid)

/-- A column is admitted behind others where it passes alone and its name is new. -/
theorem step_eq_ok_iff {st st' : Admitting} {field : SchemaField} :
    Admitting.step display geometryColumn identityColumn st field = .ok st' ↔
      field.name ∉ st.seen ∧ ∃ emitted,
        admitProjectionColumn display geometryColumn identityColumn field = .ok emitted ∧
        st' = ⟨st.seen ++ [field.name], st.out ++ [emitted], st.sourceTypes ++ [field.dataType]⟩ := by
  simp only [admitProjectionColumn_eq_ok_iff, Admitting.step]
  cases hcheck : checkGeometryAndIdentity geometryColumn identityColumn field with
  | error e => simp [bind, Except.bind]
  | ok u =>
    by_cases hseen : field.name ∈ st.seen
    · simp [hseen, throw, throwThe, MonadExceptOf.throw, bind, Except.bind]
    · cases htype : typeCheck display field with
      | error e => simp [hseen, bind, Except.bind]
      | ok emitted => simp [hseen, bind, Except.bind, pure, Except.pure, eq_comm]

/-- A column is refused with what the first broken rule says. -/
theorem step_eq_error_iff {st : Admitting} {field : SchemaField} {e : ProjectionError} :
    Admitting.step display geometryColumn identityColumn st field = .error e ↔
      columnRefusal display geometryColumn identityColumn st.seen field = some e := by
  rw [Admitting.step, columnRefusal, columnRules, checkGeometryAndIdentity]
  cases hfact : notAddressableForField field with
  | some fact => simp [bind, Except.bind]
  | none =>
    by_cases hgeometry : field.name = geometryColumn
    · simp [hgeometry, bind, Except.bind]
    · by_cases hidentity : field.name = ID_COLUMN ∨ field.name = identityColumn
      · simp [hgeometry, hidentity, bind, Except.bind]
      · by_cases hseen : field.name ∈ st.seen
        · simp [hgeometry, hidentity, hseen, throw, throwThe, MonadExceptOf.throw, bind, Except.bind]
        · cases htype : typeCheck display field with
          | error e' => simp [hgeometry, hidentity, hseen, bind, Except.bind]
          | ok emitted => simp [hgeometry, hidentity, hseen, bind, Except.bind, pure, Except.pure]

/-- The columns are admitted one by one where each passes alone and no name comes twice. -/
theorem steps_eq_ok_iff {fields : List SchemaField} {st₀ st : Admitting} :
    fields.foldlM (Admitting.step display geometryColumn identityColumn) st₀ = .ok st ↔
      (fields.map fun f => f.name).Nodup ∧ (∀ f ∈ fields, f.name ∉ st₀.seen) ∧ ∃ out,
        fields.mapM (admitProjectionColumn display geometryColumn identityColumn) = .ok out ∧
        st = ⟨st₀.seen ++ fields.map fun f => f.name, st₀.out ++ out,
          st₀.sourceTypes ++ fields.map fun f => f.dataType⟩ := by
  induction fields generalizing st₀ with
  | nil =>
    constructor
    · intro h
      obtain rfl := Except.ok.inj h
      exact ⟨List.nodup_nil, by simp, [], rfl, by simp⟩
    · rintro ⟨-, -, out, hout, rfl⟩
      obtain rfl := Except.ok.inj hout
      simp [pure, Except.pure]
  | cons field fields ih =>
    rw [List.foldlM_cons, Lib.bind_eq_ok]
    constructor
    · rintro ⟨st₁, hstep, hfields⟩
      obtain ⟨hnew, emitted, hcolumn, rfl⟩ := step_eq_ok_iff.1 hstep
      obtain ⟨hnodup, hseen, out, hout, rfl⟩ := ih.1 hfields
      have hfield : field.name ∉ fields.map fun f => f.name := by
        intro hmem
        obtain ⟨f, hf, hname⟩ := List.mem_map.1 hmem
        exact hseen f hf (by rw [hname]; simp)
      refine ⟨List.nodup_cons.2 ⟨hfield, hnodup⟩, ?_, emitted :: out, ?_, by simp⟩
      · refine List.forall_mem_cons.2 ⟨hnew, fun f hf hmem => ?_⟩
        exact hseen f hf (List.mem_append_left _ hmem)
      · rw [List.mapM_cons, hcolumn, Lib.bind_eq_ok]
        exact ⟨emitted, rfl, Lib.bind_eq_ok.2 ⟨out, hout, rfl⟩⟩
    · rintro ⟨hnodup, hseen, out, hout, rfl⟩
      obtain ⟨hfield, hnodup⟩ := List.nodup_cons.1 hnodup
      obtain ⟨hnew, hseen⟩ := List.forall_mem_cons.1 hseen
      rw [List.mapM_cons] at hout
      obtain ⟨emitted, hcolumn, hrest⟩ := Lib.bind_eq_ok.1 hout
      obtain ⟨out', hout', hcons⟩ := Lib.bind_eq_ok.1 hrest
      obtain rfl := Except.ok.inj hcons
      refine ⟨_, step_eq_ok_iff.2 ⟨hnew, emitted, hcolumn, rfl⟩, ih.2 ⟨hnodup, ?_, out', hout', ?_⟩⟩
      · intro f hf hmem
        obtain hmem | hmem := List.mem_append.1 hmem
        · exact hseen f hf hmem
        · rw [List.mem_singleton] at hmem
          exact hfield (List.mem_map.2 ⟨f, hf, hmem⟩)
      · simp

/-! ### The names -/

theorem resolveName_eq_ok_iff {fileSchema : List SchemaField} {name : String} {field : SchemaField} :
    resolveName identityColumn fileSchema name = .ok field ↔
      name ≠ ID_COLUMN ∧ (fileSchema.find? fun f => f.name = name) = some field := by
  rw [resolveName]
  by_cases hid : name = ID_COLUMN
  · simp [hid]
  · cases hfind : fileSchema.find? fun f => f.name = name <;> simp [hid]

theorem name_of_resolveName {fileSchema : List SchemaField} {name : String} {field : SchemaField}
    (h : resolveName identityColumn fileSchema name = .ok field) : field.name = name := by
  simpa using List.find?_some (resolveName_eq_ok_iff.1 h).2

theorem resolveName_column {fileSchema : List SchemaField} {name : String} {e : ProjectionError}
    (h : resolveName identityColumn fileSchema name = .error e) : e.column = some name := by
  rw [resolveName] at h
  by_cases hid : name = ID_COLUMN
  · rw [if_pos hid] at h
    cases h
    rfl
  · rw [if_neg hid] at h
    split at h
    · cases h
      rfl
    · cases h

/-- A name whose column passes is resolved to it. -/
theorem resolveName_of_projectable {fileSchema : List SchemaField} {name : String}
    (h : Projectable display geometryColumn identityColumn fileSchema name) :
    ∃ field emitted, resolveName identityColumn fileSchema name = .ok field ∧
      admitProjectionColumn display geometryColumn identityColumn field = .ok emitted := by
  obtain ⟨field, emitted, hfind, hcolumn⟩ := h
  have hname : field.name = name := by simpa using List.find?_some hfind
  refine ⟨field, emitted, resolveName_eq_ok_iff.2 ⟨?_, hfind⟩, hcolumn⟩
  rw [← hname]
  exact (admitProjectionColumn_name hcolumn).1

theorem columnRefusal_column {seen : List String} {field : SchemaField} {e : ProjectionError}
    (h : columnRefusal display geometryColumn identityColumn seen field = some e) :
    e.column = some field.name := by
  obtain ⟨rule, hrule, he⟩ := List.exists_of_findSome?_eq_some h
  obtain rfl : rule = some e := he
  simp only [columnRules, List.mem_cons, List.not_mem_nil, or_false] at hrule
  obtain hrule | hrule | hrule | hrule | hrule := hrule
  · obtain ⟨fact, -, hfact⟩ := Option.map_eq_some_iff.1 hrule.symm
    rw [← hfact]
    rfl
  · split_ifs at hrule
    cases hrule
    rfl
  · split_ifs at hrule
    cases hrule
    rfl
  · split_ifs at hrule
    cases hrule
    rfl
  · rw [typeCheck] at hrule
    split at hrule
    · rename_i heq
      split at heq
      · cases heq
        cases hrule
        rfl
      · cases heq
    · cases hrule

/-! ### The whole list -/

/-- The columns of some names are the ones that resolve to themselves. -/
theorem resolveNames_eq_ok_iff {fileSchema : List SchemaField} {names : List String}
    {fields : List SchemaField} :
    names.mapM (resolveName identityColumn fileSchema) = .ok fields ↔
      (fields.map fun f => f.name) = names ∧
        ∀ f ∈ fields, resolveName identityColumn fileSchema f.name = .ok f := by
  rw [Lib.mapM_eq_ok]
  constructor
  · intro h
    induction h with
    | nil => exact ⟨rfl, by simp⟩
    | @cons name field names fields hname _ ih =>
      obtain rfl := name_of_resolveName hname
      exact ⟨by rw [List.map_cons, ih.1], List.forall_mem_cons.2 ⟨hname, ih.2⟩⟩
  · rintro ⟨rfl, h⟩
    rw [List.forall₂_map_left_iff, List.forall₂_same]
    exact h

/-- A list is admitted where it is short and without repetition, and each of its columns passes. -/
theorem admitProjection_eq_ok_iff {names : List String} {fileSchema : List SchemaField}
    {p : AdmittedProjection} :
    admitProjection display geometryColumn identityColumn names fileSchema = .ok p ↔
      names.length ≤ MAX_PROJECTED_ATTRIBUTES ∧ names.Nodup ∧ ∃ fields,
        names.mapM (resolveName identityColumn fileSchema) = .ok fields ∧
        fields.mapM (admitProjectionColumn display geometryColumn identityColumn) = .ok p.fields ∧
        p.sourceTypes = fields.map fun f => f.dataType := by
  rw [admitProjection]
  by_cases hcount : names.length > MAX_PROJECTED_ATTRIBUTES
  · simp [hcount, throw, throwThe, MonadExceptOf.throw, bind, Except.bind]
  · simp only [hcount, if_false, not_lt.1 hcount, true_and, Lib.bind_eq_ok,
      steps_eq_ok_iff]
    constructor
    · rintro ⟨fields, hfields, st, ⟨hnodup, -, out, hout, rfl⟩, hp⟩
      obtain rfl := Except.ok.inj hp
      rw [(resolveNames_eq_ok_iff.1 hfields).1] at hnodup
      exact ⟨hnodup, fields, hfields, by simpa using hout, by simp⟩
    · rintro ⟨hnodup, fields, hfields, hout, htypes⟩
      refine ⟨fields, hfields, _, ⟨?_, by simp, p.fields, hout, rfl⟩, ?_⟩
      · rw [(resolveNames_eq_ok_iff.1 hfields).1]
        exact hnodup
      · rw [List.nil_append, List.nil_append, ← htypes]
        rfl

/-- The columns of the names pass, each for itself. -/
theorem projectable_iff {fileSchema : List SchemaField} {fields : List SchemaField}
    (hfields : ∀ f ∈ fields, resolveName identityColumn fileSchema f.name = .ok f) :
    (∀ n ∈ fields.map fun f => f.name,
        Projectable display geometryColumn identityColumn fileSchema n) ↔
      ∃ out, fields.mapM (admitProjectionColumn display geometryColumn identityColumn) = .ok out := by
  constructor
  · intro h
    refine Lib.mapM_total fun f hf => ?_
    obtain ⟨field, emitted, hfind, hcolumn⟩ := h f.name (List.mem_map_of_mem hf)
    have hself := (resolveName_eq_ok_iff.1 (hfields f hf)).2
    obtain rfl := Option.some.inj (hself.symm.trans hfind)
    exact ⟨emitted, hcolumn⟩
  · rintro ⟨out, hout⟩ n hn
    obtain ⟨f, hf, rfl⟩ := List.mem_map.1 hn
    obtain ⟨emitted, hcolumn⟩ := Lib.exists_ok_of_mem hout hf
    exact ⟨f, emitted, (resolveName_eq_ok_iff.1 (hfields f hf)).2, hcolumn⟩

/-- The list is refused with its first failure. -/
theorem admitProjection_eq_error_iff {names : List String} {fileSchema : List SchemaField}
    {e : ProjectionError} :
    admitProjection display geometryColumn identityColumn names fileSchema = .error e ↔
      FirstFailure display geometryColumn identityColumn fileSchema names e := by
  rw [admitProjection]
  by_cases hcount : names.length > MAX_PROJECTED_ATTRIBUTES
  · rw [if_pos hcount]
    constructor
    · intro h
      obtain rfl := Except.error.inj h
      exact .count hcount
    · intro h
      cases h with
      | count => rfl
      | name hle => exact absurd hcount (not_lt.2 hle)
      | column hle => exact absurd hcount (not_lt.2 hle)
  · have hle := not_lt.1 hcount
    rw [if_neg hcount, Lib.bind_eq_error_iff, Lib.mapM_eq_error_iff]
    constructor
    · rintro (⟨before, name, after, hnames, hbefore, hname⟩ | ⟨fields, hfields, h⟩)
      · exact .name hle hnames hbefore hname (resolveName_column hname)
      · obtain h | ⟨st, -, h⟩ := Lib.bind_eq_error h
        · obtain ⟨before, field, after, st, rfl, hst, hfield⟩ := Lib.foldlM_eq_error_iff.1 h
          obtain ⟨hnodup, -, out, hout, rfl⟩ := steps_eq_ok_iff.1 hst
          obtain ⟨rfl, hself⟩ := resolveNames_eq_ok_iff.1 hfields
          refine .column hle (by rw [List.map_append, List.map_cons]) ?_ hnodup ?_
            (hself field (by simp)) (step_eq_error_iff.1 hfield)
            (columnRefusal_column (step_eq_error_iff.1 hfield))
          · intro n hn
            obtain ⟨f, hf, rfl⟩ := List.mem_map.1 hn
            exact ⟨f, hself f hf⟩
          · exact (projectable_iff fun f hf => hself f (List.mem_append_left _ hf)).2 ⟨out, hout⟩
        · cases h
    · intro h
      cases h with
      | count hlt => exact absurd hlt hcount
      | name _ hnames hbefore hname => exact .inl ⟨_, _, _, hnames, hbefore, hname⟩
      | @column before after name field _ _ hnames hresolved hnodup hbefore hfield hcolumn _ =>
        obtain ⟨fields, hfields⟩ := Lib.mapM_total hresolved
        refine .inr ⟨fields, hfields, ?_⟩
        obtain ⟨hmap, hself⟩ := resolveNames_eq_ok_iff.1 hfields
        rw [hnames, List.map_eq_append_iff] at hmap
        obtain ⟨fields₁, rest, rfl, rfl, hrest⟩ := hmap
        obtain ⟨field', fields₂, rfl, rfl, -⟩ := List.map_eq_cons_iff.1 hrest
        obtain rfl := Except.ok.inj ((hself field' (by simp)).symm.trans hfield)
        obtain ⟨out, hout⟩ :=
          (projectable_iff fun f hf => hself f (List.mem_append_left _ hf)).1 hbefore
        have hst : fields₁.foldlM (Admitting.step display geometryColumn identityColumn) ⟨[], [], []⟩ =
            .ok _ := steps_eq_ok_iff.2 ⟨hnodup, by simp, out, hout, rfl⟩
        refine Lib.bind_eq_error_iff.2 (.inl ?_)
        refine Lib.foldlM_eq_error_iff.2 ⟨fields₁, field', fields₂, _, rfl, hst, ?_⟩
        exact step_eq_error_iff.2 hcolumn

/-- What is admitted for each name, at its place. -/
theorem admitted_at {names : List String} {fileSchema : List SchemaField} {p : AdmittedProjection}
    (h : admitProjection display geometryColumn identityColumn names fileSchema = .ok p) {i : Nat}
    {n : String} (hn : names[i]? = some n) :
    ∃ field emitted, (fileSchema.find? fun f => f.name = n) = some field ∧
      admitProjectionColumn display geometryColumn identityColumn field = .ok emitted ∧
      p.fields[i]? = some emitted ∧ p.sourceTypes[i]? = some field.dataType ∧
      emitted.name = n ∧ emitted.nullable = true := by
  obtain ⟨-, -, fields, hfields, hout, htypes⟩ := admitProjection_eq_ok_iff.1 h
  obtain ⟨rfl, hself⟩ := resolveNames_eq_ok_iff.1 hfields
  rw [List.getElem?_map, Option.map_eq_some_iff] at hn
  obtain ⟨field, hfield, rfl⟩ := hn
  have hmem := List.mem_of_getElem? hfield
  obtain ⟨emitted, hcolumn⟩ := Lib.exists_ok_of_mem hout hmem
  obtain ⟨-, hname, hnullable⟩ := admitProjectionColumn_name hcolumn
  refine ⟨field, emitted, (resolveName_eq_ok_iff.1 (hself field hmem)).2, hcolumn, ?_, ?_, hname,
    hnullable⟩
  · obtain ⟨emitted', hemitted, hcolumn'⟩ := Lib.getElem?_of_mapM_ok hout hfield
    obtain rfl := Except.ok.inj (hcolumn.symm.trans hcolumn')
    exact hemitted
  · rw [htypes, List.getElem?_map, hfield, Option.map_some]

theorem length_admitted {names : List String} {fileSchema : List SchemaField}
    {p : AdmittedProjection}
    (h : admitProjection display geometryColumn identityColumn names fileSchema = .ok p) :
    p.fields.length = names.length ∧ p.sourceTypes.length = names.length := by
  obtain ⟨-, -, fields, hfields, hout, htypes⟩ := admitProjection_eq_ok_iff.1 h
  have hlen := (Lib.mapM_eq_ok.1 hfields).length_eq
  exact ⟨by rw [← (Lib.mapM_eq_ok.1 hout).length_eq, hlen], by rw [htypes, List.length_map, hlen]⟩

/-- A query is admitted where each of its columns is, alone. -/
theorem exists_admitProjection_iff {names : List String} {fileSchema : List SchemaField} :
    (∃ p, admitProjection display geometryColumn identityColumn names fileSchema = .ok p) ↔
      names.length ≤ MAX_PROJECTED_ATTRIBUTES ∧ names.Nodup ∧
        ∀ n ∈ names, Projectable display geometryColumn identityColumn fileSchema n := by
  simp only [admitProjection_eq_ok_iff]
  constructor
  · rintro ⟨p, hcount, hnodup, fields, hfields, hout, -⟩
    obtain ⟨rfl, hself⟩ := resolveNames_eq_ok_iff.1 hfields
    exact ⟨hcount, hnodup, (projectable_iff hself).2 ⟨p.fields, hout⟩⟩
  · rintro ⟨hcount, hnodup, hproj⟩
    obtain ⟨fields, hfields⟩ : ∃ fields, names.mapM (resolveName identityColumn fileSchema) = .ok fields :=
      Lib.mapM_total fun n hn =>
        let ⟨field, _, hfield, _⟩ := resolveName_of_projectable (hproj n hn)
        ⟨field, hfield⟩
    obtain ⟨rfl, hself⟩ := resolveNames_eq_ok_iff.1 hfields
    obtain ⟨out, hout⟩ := (projectable_iff hself).1 hproj
    exact ⟨⟨out, fields.map fun f => f.dataType⟩, hcount, hnodup, fields, hfields, hout, rfl⟩

/-- The admission of a list is that of its columns, and a refusal is its first failure. -/
theorem admitProjection_exact (display : DataType → String) (geometryColumn identityColumn : String)
    (names : List String) (fileSchema : List SchemaField) :
    ((∃ p, admitProjection display geometryColumn identityColumn names fileSchema = .ok p) ↔
      names.length ≤ MAX_PROJECTED_ATTRIBUTES ∧ names.Nodup ∧
        ∀ n ∈ names, Projectable display geometryColumn identityColumn fileSchema n) ∧
    (∀ p, admitProjection display geometryColumn identityColumn names fileSchema = .ok p →
      p.fields.length = names.length ∧ p.sourceTypes.length = names.length ∧
      ∀ (i : Nat) (n : String), names[i]? = some n →
        ∃ field emitted, (fileSchema.find? fun f => f.name = n) = some field ∧
          admitProjectionColumn display geometryColumn identityColumn field = .ok emitted ∧
          p.fields[i]? = some emitted ∧ p.sourceTypes[i]? = some field.dataType ∧
          emitted.name = n ∧ emitted.nullable = true) ∧
    ∀ e, admitProjection display geometryColumn identityColumn names fileSchema = .error e ↔
      FirstFailure display geometryColumn identityColumn fileSchema names e := by
  refine ⟨exists_admitProjection_iff, fun p hp => ?_, fun e => admitProjection_eq_error_iff⟩
  obtain ⟨hfields, htypes⟩ := length_admitted hp
  exact ⟨hfields, htypes, fun i n hn => admitted_at hp hn⟩

end SpatialIde.Engine
