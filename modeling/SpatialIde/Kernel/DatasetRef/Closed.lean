import SpatialIde.Kernel.DatasetRef.Recordable

/-! # Closed objects of a reference

An object with exactly its keys, a named state and a recorded observation, each said of the value and
each read by the code: `closed`, `expectState` and `parseObserved`.

An object is a map, and `map[key]` panics where the key is not there.  `Panicking` is the reading of
an observation with these panics; none of them happens, because an object is closed before its
members are read.
-/

namespace SpatialIde.Kernel

open Lib Lib.Json

/-! ### Closed objects -/

/-- The keys of an object are exactly `keys`. -/
def HasKeys (o : List (String × Value)) (keys : List String) : Prop :=
  ∀ key, key ∈ o.map Prod.fst ↔ key ∈ keys

theorem isSome_lookup_iff {o : List (String × Value)} {key : String} :
    (o.lookup key).isSome = true ↔ key ∈ o.map Prod.fst := by
  rw [List.lookup_isSome_iff]
  simp

theorem closed_eq_ok_iff {v : Value} {path : String} {keys : List String}
    {o : List (String × Value)} : closed v path keys = .ok o ↔ v = .object o ∧ HasKeys o keys := by
  constructor
  · intro h
    obtain ⟨hv, hknown, hpresent⟩ := closed_eq_ok h
    refine ⟨hv, fun key => ⟨fun hkey => ?_, fun hkey => ?_⟩⟩
    · obtain ⟨m, hm, rfl⟩ := List.mem_map.1 hkey
      exact hknown m hm
    · exact isSome_lookup_iff.1 (hpresent key hkey)
  · rintro ⟨rfl, hkeys⟩
    have hknown : o.find? (fun m => m.1 ∉ keys) = none := by
      rw [List.find?_eq_none]
      intro m hm
      simpa using (hkeys m.1).1 (List.mem_map_of_mem hm)
    have hpresent : keys.find? (fun key => (o.lookup key).isNone) = none := by
      rw [List.find?_eq_none]
      intro key hkey
      have := isSome_lookup_iff.2 ((hkeys key).2 hkey)
      simpa using this
    rw [closed]
    dsimp only [Value.asObject]
    rw [hknown]
    dsimp only
    rw [hpresent]

/-- A member that the object was closed over. -/
theorem lookup_of_closed {v : Value} {path : String} {keys : List String}
    {o : List (String × Value)} (h : closed v path keys = .ok o) {key : String} (hkey : key ∈ keys) :
    o.lookup key = some (index o key) := by
  obtain ⟨u, hu⟩ := Option.isSome_iff_exists.1 ((closed_eq_ok h).2.2 key hkey)
  rw [index, hu]
  rfl

theorem index_eq_iff {o : List (String × Value)} {keys : List String} (h : HasKeys o keys)
    {key : String} (hkey : key ∈ keys) {u : Value} :
    index o key = u ↔ o.lookup key = some u := by
  obtain ⟨w, hw⟩ := Option.isSome_iff_exists.1 (isSome_lookup_iff.2 ((h key).2 hkey))
  rw [index, hw]
  simp

theorem bounded_eq_ok_iff {v : Value} {path : String} {ceiling : Nat} {s : String} :
    bounded v path ceiling = .ok s ↔ v = .string s ∧ s.utf8ByteSize ≤ ceiling := by
  refine ⟨bounded_eq_ok, ?_⟩
  rintro ⟨rfl, h⟩
  exact if_neg (Nat.not_lt.2 h)

/-! ### Named states -/

/-- An object of a word and a text. -/
def StateForm (word basis : String → Prop) (v : Value) : Prop :=
  ∃ o w b, v = .object o ∧ HasKeys o ["state", "basis"] ∧ o.lookup "state" = some (.string w) ∧
    word w ∧ o.lookup "basis" = some (.string b) ∧ basis b

/-- The one state of an observation's member. -/
def ObservedState (state : NamedState) : Value → Prop :=
  StateForm (fun w => w = state.1) fun b => b.utf8ByteSize ≤ MAX_REF_STRING_BYTES ∧ Text.trim b ≠ ""

theorem expectState_eq_ok {v : Value} {path : String} {state : NamedState}
    (hsize : state.1.utf8ByteSize ≤ MAX_REF_STRING_BYTES) :
    expectState v path state = .ok () ↔ ObservedState state v := by
  constructor
  · intro h
    obtain ⟨o, hclosed, h⟩ := bind_eq_ok.1 h
    obtain ⟨_, hword, h⟩ := bind_eq_ok.1 h
    obtain ⟨b, hbasis, -⟩ := bind_eq_ok.1 h
    obtain ⟨rfl, hkeys⟩ := closed_eq_ok_iff.1 hclosed
    obtain ⟨w, hw, hword⟩ := bind_eq_ok.1 hword
    obtain ⟨b', hb, hbasis⟩ := bind_eq_ok.1 hbasis
    split_ifs at hword with hstate
    · split_ifs at hbasis with hblank
      · cases hbasis
      · cases hbasis
        obtain ⟨hw, -⟩ := bounded_eq_ok hw
        obtain ⟨hb, hlen⟩ := bounded_eq_ok hb
        exact ⟨o, w, b, rfl, hkeys, (index_eq_iff hkeys (by simp)).1 hw, hstate,
          (index_eq_iff hkeys (by simp)).1 hb, hlen, hblank⟩
    · cases hword
  · rintro ⟨o, w, b, rfl, hkeys, hw, rfl, hb, hlen, hblank⟩
    have hw' := (index_eq_iff hkeys (by simp)).2 hw
    have hb' := (index_eq_iff hkeys (by simp)).2 hb
    refine bind_eq_ok.2 ⟨o, closed_eq_ok_iff.2 ⟨rfl, hkeys⟩, ?_⟩
    refine bind_eq_ok.2 ⟨(), ?_, bind_eq_ok.2 ⟨b, ?_, rfl⟩⟩
    · exact bind_eq_ok.2 ⟨state.1, bounded_eq_ok_iff.2 ⟨hw', hsize⟩, if_pos rfl⟩
    · exact bind_eq_ok.2 ⟨b, bounded_eq_ok_iff.2 ⟨hb', hlen⟩, if_neg hblank⟩

/-! ### Observations -/

/-- A text in its form, or the state that stands for its absence. -/
def TextOrState (form : String → Prop) (state : NamedState) (v : Value) : Prop :=
  (∃ s, v = .string s ∧ form s) ∨ ObservedState state v

/-- A number that a double holds exactly. -/
def ExactInteger (v : Value) : Prop :=
  ∃ n : UInt64, v = .number (.posInt n) ∧ n.toNat ≤ MAX_EXACT_INTEGER

theorem exists_exactInteger {v : Value} {path : String} :
    (∃ n, exactInteger v path = .ok n) ↔ ExactInteger v := by
  constructor
  · rintro ⟨n, h⟩
    rw [exactInteger] at h
    split at h
    · cases h
    · next m hm =>
      split_ifs at h with hlarge
      · cases h
      · refine ⟨m, ?_, Nat.le_of_not_lt hlarge⟩
        unfold Value.asU64 at hm
        split at hm <;> cases hm
        rfl
  · rintro ⟨n, rfl, h⟩
    exact ⟨n, if_neg (Nat.not_lt.2 h)⟩

/-- Decimal digits without a leading zero, below `2 ^ 128`. -/
def IsNanos (s : String) : Prop := ∃ n < 2 ^ 128, s = toString n

theorem not_isObject_of_string (s : String) : (Value.string s).asObject.isSome = false := rfl

/-- A text, or a state, with what reads the text behind it. -/
theorem textOrState_eq_ok {α : Type} {v : Value} {path : String} {state : NamedState}
    {form : String → Prop} (read : Option String → Except RefParseError α)
    (hsize : state.1.utf8ByteSize ≤ MAX_REF_STRING_BYTES)
    (hform : ∀ s, form s → s.utf8ByteSize ≤ MAX_REF_STRING_BYTES)
    (hnone : ∃ a, read none = .ok a) (hread : ∀ s, (∃ a, read (some s) = .ok a) ↔ form s) :
    (∃ a, (stringOrState v path state >>= read) = .ok a) ↔ TextOrState form state v := by
  constructor
  · rintro ⟨a, h⟩
    obtain ⟨got, hgot, h⟩ := bind_eq_ok.1 h
    rw [stringOrState] at hgot
    split_ifs at hgot
    · obtain ⟨_, hstate, hgot⟩ := bind_eq_ok.1 hgot
      cases hgot
      exact .inr ((expectState_eq_ok hsize).1 hstate)
    · obtain ⟨s, hs, hgot⟩ := bind_eq_ok.1 hgot
      cases hgot
      exact .inl ⟨s, (bounded_eq_ok hs).1, (hread s).1 ⟨a, h⟩⟩
  · rintro (⟨s, rfl, hs⟩ | hstate)
    · obtain ⟨a, ha⟩ := (hread s).2 hs
      refine ⟨a, bind_eq_ok.2 ⟨some s, ?_, ha⟩⟩
      rw [stringOrState, if_neg (by rw [not_isObject_of_string]; decide)]
      exact bind_eq_ok.2 ⟨s, bounded_eq_ok_iff.2 ⟨rfl, hform s hs⟩, rfl⟩
    · obtain ⟨a, ha⟩ := hnone
      refine ⟨a, bind_eq_ok.2 ⟨none, ?_, ha⟩⟩
      have hexpect : expectState v path state = .ok () := (expectState_eq_ok hsize).2 hstate
      obtain ⟨o, w, b, rfl, -⟩ := hstate
      exact bind_eq_ok.2 ⟨(), hexpect, rfl⟩

theorem readNanos_eq_ok {s path : String} :
    (∃ n, readNanos (some s) path = .ok n) ↔ IsNanos s := by
  constructor
  · rintro ⟨n, h⟩
    simp only [readNanos] at h
    split at h
    · next m hm =>
      split_ifs at h with hminimal
      · exact ⟨m, parseU128_lt hm, hminimal.symm⟩
      · cases h
    · cases h
  · rintro ⟨n, hn, rfl⟩
    have hmem : ∀ m ∈ some n, m < 2 ^ 128 := by
      rintro m ⟨⟩
      exact hn
    exact ⟨some n, readNanos_toString hmem⟩

theorem readHash_eq_ok {s path : String} :
    (∃ hash, readHash (some s) path = .ok hash) ↔ Text.isLowerHexOf 64 s = true := by
  constructor
  · rintro ⟨hash, h⟩
    simp only [readHash] at h
    split_ifs at h with hhex
    · exact hhex
    · cases h
  · intro h
    exact ⟨some s, if_pos h⟩

/-- A recorded observation. -/
def ObservedForm (v : Value) : Prop :=
  ∃ o, v = .object o ∧ HasKeys o ["byte_size", "modified_ns", "footer_length", "footer_sha256"] ∧
    (∀ u, o.lookup "byte_size" = some u → ExactInteger u) ∧
    (∀ u, o.lookup "modified_ns" = some u → TextOrState IsNanos NOT_REPORTED u) ∧
    (∀ u, o.lookup "footer_length" = some u → ExactInteger u) ∧
    ∀ u, o.lookup "footer_sha256" = some u →
      TextOrState (fun s => Text.isLowerHexOf 64 s = true) NOT_READ_OVER_CEILING u

theorem isNanos_size {s : String} (h : IsNanos s) : s.utf8ByteSize ≤ MAX_REF_STRING_BYTES := by
  obtain ⟨n, hn, rfl⟩ := h
  exact utf8ByteSize_toString hn

theorem parseObserved_eq_ok {v : Value} {path : String} :
    (∃ o, parseObserved v path = .ok o) ↔ ObservedForm v := by
  constructor
  · rintro ⟨observation, h⟩
    rw [parseObserved_eq] at h
    obtain ⟨o, hclosed, h⟩ := bind_eq_ok.1 h
    obtain ⟨mtime, hmtime, h⟩ := bind_eq_ok.1 h
    obtain ⟨nanos, hnanos, h⟩ := bind_eq_ok.1 h
    obtain ⟨hash, hhash, h⟩ := bind_eq_ok.1 h
    obtain ⟨footer, hfooter, h⟩ := bind_eq_ok.1 h
    obtain ⟨size, hsize, h⟩ := bind_eq_ok.1 h
    obtain ⟨len, hlen, -⟩ := bind_eq_ok.1 h
    obtain ⟨rfl, hkeys⟩ := closed_eq_ok_iff.1 hclosed
    refine ⟨o, rfl, hkeys, ?_, ?_, ?_, ?_⟩
    · rintro u hu
      rw [← (index_eq_iff hkeys (by simp)).2 hu]
      exact exists_exactInteger.1 ⟨_, hsize⟩
    · rintro u hu
      rw [← (index_eq_iff hkeys (by simp)).2 hu]
      exact (textOrState_eq_ok (fun mtime => readNanos mtime (joinKey path "modified_ns"))
        (by decide) (fun _ => isNanos_size) ⟨_, rfl⟩ fun _ => readNanos_eq_ok).1
        ⟨_, bind_eq_ok.2 ⟨_, hmtime, hnanos⟩⟩
    · rintro u hu
      rw [← (index_eq_iff hkeys (by simp)).2 hu]
      exact exists_exactInteger.1 ⟨_, hlen⟩
    · rintro u hu
      rw [← (index_eq_iff hkeys (by simp)).2 hu]
      exact (textOrState_eq_ok (fun hash => readHash hash (joinKey path "footer_sha256"))
        (by decide) (fun _ => utf8ByteSize_of_isLowerHexOf) ⟨_, rfl⟩ fun _ => readHash_eq_ok).1
        ⟨_, bind_eq_ok.2 ⟨_, hhash, hfooter⟩⟩
  · rintro ⟨o, rfl, hkeys, hsize, hmtime, hlen, hhash⟩
    have hat : ∀ key, key ∈ ["byte_size", "modified_ns", "footer_length", "footer_sha256"] →
        o.lookup key = some (index o key) := fun key hkey => (index_eq_iff hkeys hkey).1 rfl
    obtain ⟨size, hsize⟩ :
        ∃ n, exactInteger (index o "byte_size") (joinKey path "byte_size") = .ok n :=
      exists_exactInteger.2 (hsize _ (hat _ (by simp)))
    obtain ⟨len, hlen⟩ :
        ∃ n, exactInteger (index o "footer_length") (joinKey path "footer_length") = .ok n :=
      exists_exactInteger.2 (hlen _ (hat _ (by simp)))
    obtain ⟨nanos, hnanos⟩ :=
      (textOrState_eq_ok (fun mtime => readNanos mtime (joinKey path "modified_ns"))
        (by decide) (fun _ => isNanos_size) ⟨_, rfl⟩ fun _ => readNanos_eq_ok).2
        (hmtime _ (hat _ (by simp)))
    obtain ⟨footer, hfooter⟩ :=
      (textOrState_eq_ok (fun hash => readHash hash (joinKey path "footer_sha256"))
        (by decide) (fun _ => utf8ByteSize_of_isLowerHexOf) ⟨_, rfl⟩ fun _ => readHash_eq_ok).2
        (hhash _ (hat _ (by simp)))
    obtain ⟨mtime, hmtime, hnanos⟩ := bind_eq_ok.1 hnanos
    obtain ⟨hash, hhash, hfooter⟩ := bind_eq_ok.1 hfooter
    refine ⟨⟨size, nanos, len, footer⟩, ?_⟩
    rw [parseObserved_eq]
    refine bind_eq_ok.2 ⟨o, closed_eq_ok_iff.2 ⟨rfl, hkeys⟩, bind_eq_ok.2 ⟨mtime, hmtime, ?_⟩⟩
    refine bind_eq_ok.2 ⟨nanos, hnanos, bind_eq_ok.2 ⟨hash, hhash, ?_⟩⟩
    refine bind_eq_ok.2 ⟨footer, hfooter, bind_eq_ok.2 ⟨size, hsize, ?_⟩⟩
    exact bind_eq_ok.2 ⟨len, hlen, rfl⟩

/-! ### Indexing -/

namespace Panicking

/-- `map[key]`. -/
def indexMap (o : List (String × Value)) (key : String) : Panics RefParseError Value :=
  .unwrap (o.lookup key)

theorem indexMap_of_closed {v : Value} {path : String} {keys : List String}
    {o : List (String × Value)} (h : closed v path keys = .ok o) {key : String} (hkey : key ∈ keys) :
    indexMap o key = .of (.ok (index o key)) := by
  rw [indexMap, lookup_of_closed h hkey]
  rfl

/-- A step behind the reading of a member that is there. -/
theorem indexMap_bind {v : Value} {path : String} {keys : List String} {o : List (String × Value)}
    (h : closed v path keys = .ok o) {key : String} (hkey : key ∈ keys) {α : Type}
    {f : Value → Panics RefParseError α} {y : Except RefParseError α}
    (hf : f (index o key) = .of y) : (indexMap o key >>= f) = .of y := by
  rw [indexMap_of_closed h hkey]
  exact hf

def expectState (v : Value) (path : String) (state : NamedState) : Panics RefParseError Unit := do
  let obj ← .of (closed v path ["state", "basis"])
  let word ← indexMap obj "state"
  .of (expectWord word (joinKey path "state") state.1)
  let basis ← indexMap obj "basis"
  let _ ← .of (claim basis (joinKey path "basis") MAX_REF_STRING_BYTES)
  return ()

theorem expectState_eq (v : Value) (path : String) (state : NamedState) :
    expectState v path state = .of (Kernel.expectState v path state) := by
  refine Panics.of_bind rfl fun o hclosed => indexMap_bind hclosed (by simp) ?_
  refine Panics.of_bind rfl fun _ _ => indexMap_bind hclosed (by simp) ?_
  exact Panics.of_bind rfl fun _ _ => rfl

def stringOrState (v : Value) (path : String) (state : NamedState) :
    Panics RefParseError (Option String) :=
  if v.asObject.isSome then do
    expectState v path state
    return none
  else do
    let s ← .of (bounded v path MAX_REF_STRING_BYTES)
    return some s

theorem stringOrState_eq (v : Value) (path : String) (state : NamedState) :
    stringOrState v path state = .of (Kernel.stringOrState v path state) := by
  rw [stringOrState, Kernel.stringOrState]
  split_ifs
  · exact Panics.of_bind (expectState_eq v path state) fun _ _ => rfl
  · exact Panics.of_bind rfl fun _ _ => rfl

def parseObserved (v : Value) (path : String) : Panics RefParseError SourceObservation := do
  let obj ← .of (closed v path ["byte_size", "modified_ns", "footer_length", "footer_sha256"])
  let mtime ← indexMap obj "modified_ns"
  let mtime ← stringOrState mtime (joinKey path "modified_ns") NOT_REPORTED
  let modifiedNanos ← .of (readNanos mtime (joinKey path "modified_ns"))
  let hash ← indexMap obj "footer_sha256"
  let hash ← stringOrState hash (joinKey path "footer_sha256") NOT_READ_OVER_CEILING
  let footerHash ← .of (readHash hash (joinKey path "footer_sha256"))
  let byteSize ← indexMap obj "byte_size"
  let byteSize ← .of (exactInteger byteSize (joinKey path "byte_size"))
  let footerLength ← indexMap obj "footer_length"
  let footerLength ← .of (exactInteger footerLength (joinKey path "footer_length"))
  return ⟨byteSize, modifiedNanos, footerLength, footerHash⟩

theorem parseObserved_eq (v : Value) (path : String) :
    parseObserved v path = .of (Kernel.parseObserved v path) := by
  rw [Kernel.parseObserved_eq]
  refine Panics.of_bind rfl fun o hclosed => indexMap_bind hclosed (by simp) ?_
  refine Panics.of_bind (stringOrState_eq _ _ _) fun _ _ => Panics.of_bind rfl fun _ _ => ?_
  refine indexMap_bind hclosed (by simp) ?_
  refine Panics.of_bind (stringOrState_eq _ _ _) fun _ _ => Panics.of_bind rfl fun _ _ => ?_
  refine indexMap_bind hclosed (by simp) (Panics.of_bind rfl fun _ _ => ?_)
  exact indexMap_bind hclosed (by simp) (Panics.of_bind rfl fun _ _ => rfl)

end Panicking

end SpatialIde.Kernel
