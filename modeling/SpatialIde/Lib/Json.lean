import Mathlib.Data.List.Nodup
import SpatialIde.Lib.Binary64

/-! # JSON values

`serde_json::Value`: a number is an unsigned or a negative 64-bit integer or a
double, and the members of an object are in the order of their map.  The readers
return nothing on a value of another kind.

A member of a value is smaller than the value (`sizeOf_lt_of_get`,
`sizeOf_lt_of_mem_asArray`), which is what recursion over a tree rests on.
-/

namespace Lib.Json

inductive Number where
  | posInt (n : UInt64)
  /-- Below zero. -/
  | negInt (n : Int64)
  | float (x : F64)
  deriving DecidableEq, Repr

inductive Value where
  | null
  | bool (b : Bool)
  | number (n : Number)
  | string (s : String)
  | array (items : List Value)
  | object (members : List (String × Value))
  deriving Repr

namespace Value

theorem ind {P : Value → Prop} (null : P null) (bool : ∀ b, P (bool b)) (number : ∀ n, P (number n))
    (string : ∀ s, P (string s)) (array : ∀ items, (∀ v ∈ items, P v) → P (array items))
    (object : ∀ members, (∀ m ∈ members, P m.2) → P (object members)) (v : Value) : P v := by
  refine @Value.rec P (fun items => ∀ v ∈ items, P v) (fun members => ∀ m ∈ members, P m.2)
    (fun m => P m.2) null bool number string array object ?_ ?_ ?_ ?_ (fun _ _ h => h) v
  · intro v hv
    cases hv
  · intro v items hv ih w hw
    rcases List.mem_cons.1 hw with rfl | hw
    · exact hv
    · exact ih w hw
  · intro m hm
    cases hm
  · intro m members hm ih m' hm'
    rcases List.mem_cons.1 hm' with rfl | hm'
    · exact hm
    · exact ih m' hm'

def asBool : Value → Option Bool
  | bool b => some b
  | _ => none

def asStr : Value → Option String
  | string s => some s
  | _ => none

def asArray : Value → Option (List Value)
  | array items => some items
  | _ => none

def asObject : Value → Option (List (String × Value))
  | object members => some members
  | _ => none

def isNull : Value → Bool
  | null => true
  | _ => false

/-- The integer of a number from `0` to `2 ^ 64 - 1`. -/
def asU64 : Value → Option UInt64
  | number (.posInt n) => some n
  | _ => none

/-- The integer of a number from `-2 ^ 63` to `2 ^ 63 - 1`. -/
def asI64 : Value → Option Int
  | number (.posInt n) => if n.toNat < 2 ^ 63 then some n.toNat else none
  | number (.negInt n) => some n.toInt
  | _ => none

/-- The member of an object under a key. -/
def get (v : Value) (key : String) : Option Value :=
  match v with
  | object members => members.lookup key
  | _ => none

/-- The text of a member. -/
def getStr (v : Value) (key : String) : Option String := (v.get key).bind asStr

theorem mem_of_lookup {α : Type} {members : List (String × α)} {key : String} {a : α}
    (h : members.lookup key = some a) : (key, a) ∈ members := by
  obtain ⟨before, after, hmembers, -⟩ := List.lookup_eq_some_iff.1 h
  rw [hmembers]
  exact List.mem_append_right _ List.mem_cons_self

theorem sizeOf_lt_of_get {v c : Value} {key : String} (h : v.get key = some c) :
    sizeOf c < sizeOf v := by
  cases v with
  | object members =>
    have hmem := List.sizeOf_lt_of_mem (mem_of_lookup h)
    simp only [Prod.mk.sizeOf_spec, object.sizeOf_spec] at *
    omega
  | _ => cases h

theorem sizeOf_lt_of_mem_asArray {v c : Value} {items : List Value} (h : v.asArray = some items)
    (hc : c ∈ items) : sizeOf c < sizeOf v := by
  cases v with
  | array items' =>
    cases h
    have hmem := List.sizeOf_lt_of_mem hc
    simp only [array.sizeOf_spec]
    omega
  | _ => cases h

end Value

/-- What a value is to a tree that may repeat a key: an object has each key once, with the last of
its members in the tree.  A double may be rounded in another way. -/
inductive Denotes : Value → Value → Prop
  | null : Denotes .null .null
  | bool (b : Bool) : Denotes (.bool b) (.bool b)
  | posInt (n : UInt64) : Denotes (.number (.posInt n)) (.number (.posInt n))
  | negInt (n : Int64) : Denotes (.number (.negInt n)) (.number (.negInt n))
  | float (x y : F64) : Denotes (.number (.float x)) (.number (.float y))
  | string (s : String) : Denotes (.string s) (.string s)
  | array {items items' : List Value} (h : List.Forall₂ Denotes items items') :
      Denotes (.array items) (.array items')
  | object {members members' : List (String × Value)} (hnodup : (members'.map Prod.fst).Nodup)
      (hkeys : ∀ key, (members'.lookup key).isSome = (members.lookup key).isSome)
      (h : ∀ key v v', members.reverse.lookup key = some v → members'.lookup key = some v' →
        Denotes v v') : Denotes (.object members) (.object members')

namespace Denotes

theorem isSome_lookup_reverse {α : Type} (members : List (String × α)) (key : String) :
    (members.reverse.lookup key).isSome = (members.lookup key).isSome := by
  rw [Bool.eq_iff_iff, List.lookup_isSome_iff, List.lookup_isSome_iff]
  simp

/-- Where no key is twice, an object is what it says. -/
theorem of_nodup {members : List (String × Value)} (hnodup : (members.map Prod.fst).Nodup)
    (h : ∀ m ∈ members, Denotes m.2 m.2) : Denotes (.object members) (.object members) := by
  refine .object hnodup (fun _ => rfl) fun key v v' hv hv' => ?_
  have hmem := List.mem_reverse.1 (Value.mem_of_lookup hv)
  have hmem' := Value.mem_of_lookup hv'
  cases List.inj_on_of_nodup_map hnodup hmem hmem' rfl
  exact h _ hmem

/-- The last member under a key. -/
theorem get {members : List (String × Value)} {w v : Value} {key : String}
    (h : Denotes (.object members) w) (hv : members.reverse.lookup key = some v) :
    ∃ v', w.get key = some v' ∧ Denotes v v' := by
  cases h with
  | @object _ members' hnodup hkeys h =>
    have hsome : (members'.lookup key).isSome = true := by
      rw [hkeys, ← isSome_lookup_reverse, hv]
      rfl
    obtain ⟨v', hv'⟩ := Option.isSome_iff_exists.1 hsome
    exact ⟨v', hv', h key v v' hv hv'⟩

/-- An object with one member. -/
theorem singleton {w v : Value} {key : String} (h : Denotes (.object [(key, v)]) w) :
    ∃ v', w = .object [(key, v')] ∧ Denotes v v' := by
  obtain ⟨v', hget, hv'⟩ := @get _ _ v key h (by simp)
  cases h with
  | @object _ members' hnodup hkeys _ =>
    have honly : ∀ m ∈ members', m.1 = key := by
      intro m hm
      have hsome : (members'.lookup m.1).isSome = true := by
        rw [List.lookup_isSome_iff]
        exact ⟨m, hm, by simp⟩
      rw [hkeys, List.lookup_isSome_iff] at hsome
      simpa using hsome
    cases members' with
    | nil => cases hget
    | cons m members' =>
      cases members' with
      | nil =>
        have hm := honly m List.mem_cons_self
        obtain ⟨k, u⟩ := m
        cases hm
        rw [Value.get, List.lookup_cons_self] at hget
        cases hget
        exact ⟨v', rfl, hv'⟩
      | cons m' members' =>
        have hm := honly m List.mem_cons_self
        have hm' := honly m' (List.mem_cons_of_mem _ List.mem_cons_self)
        rw [List.map_cons, List.map_cons, List.nodup_cons, hm, hm'] at hnodup
        exact absurd List.mem_cons_self hnodup.1

end Denotes

end Lib.Json

/-! ## Trees that repeat a key

A tree in which no object has a key twice is read as a whole (`Denotes.whole`), and exactly where its
doubles are read as they are (`Exact`).  `lastOf` reads every tree, of the members under one key the
last, and puts them in the order of their keys.
-/

namespace Lib.Json

/-- No object of the tree has a key twice. -/
inductive Distinct : Value → Prop
  | null : Distinct .null
  | bool (b : Bool) : Distinct (.bool b)
  | number (n : Number) : Distinct (.number n)
  | string (s : String) : Distinct (.string s)
  | array {items : List Value} (h : ∀ v ∈ items, Distinct v) : Distinct (.array items)
  | object {members : List (String × Value)} (hnodup : (members.map Prod.fst).Nodup)
      (h : ∀ m ∈ members, Distinct m.2) : Distinct (.object members)

/-- A value with all of a tree, each object with exactly its members.  A double may be rounded in
another way. -/
inductive Whole : Value → Value → Prop
  | null : Whole .null .null
  | bool (b : Bool) : Whole (.bool b) (.bool b)
  | posInt (n : UInt64) : Whole (.number (.posInt n)) (.number (.posInt n))
  | negInt (n : Int64) : Whole (.number (.negInt n)) (.number (.negInt n))
  | float (x y : F64) : Whole (.number (.float x)) (.number (.float y))
  | string (s : String) : Whole (.string s) (.string s)
  | array {items items' : List Value} (h : List.Forall₂ Whole items items') :
      Whole (.array items) (.array items')
  | object {members members' : List (String × Value)} (hnodup : (members.map Prod.fst).Nodup)
      (hnodup' : (members'.map Prod.fst).Nodup)
      (hkeys : ∀ key, (members'.lookup key).isSome = (members.lookup key).isSome)
      (h : ∀ key v v', members.lookup key = some v → members'.lookup key = some v' → Whole v v') :
      Whole (.object members) (.object members')

theorem lookup_reverse_of_nodup {members : List (String × Value)}
    (hnodup : (members.map Prod.fst).Nodup) {key : String} {v : Value}
    (h : members.lookup key = some v) : members.reverse.lookup key = some v := by
  have hsome : (members.reverse.lookup key).isSome = true := by
    rw [Denotes.isSome_lookup_reverse, h]
    rfl
  obtain ⟨w, hw⟩ := Option.isSome_iff_exists.1 hsome
  cases List.inj_on_of_nodup_map hnodup (Value.mem_of_lookup h)
    (List.mem_reverse.1 (Value.mem_of_lookup hw)) rfl
  exact hw

/-- **Of a tree that repeats no key nothing is left out.** -/
theorem Denotes.whole {v : Value} : ∀ {w : Value}, Denotes v w → Distinct v → Whole v w := by
  induction v using Value.ind with
  | null =>
    intro w hd _
    cases hd
    exact .null
  | bool b =>
    intro w hd _
    cases hd
    exact .bool b
  | number n =>
    intro w hd _
    cases hd
    · exact .posInt _
    · exact .negInt _
    · exact .float _ _
  | string s =>
    intro w hd _
    cases hd
    exact .string s
  | array items ih =>
    intro w hd hv
    cases hd with
    | @array _ items' hitems =>
      cases hv with
      | array hv =>
        refine .array ?_
        induction hitems with
        | nil => exact .nil
        | @cons a b as bs hab _ ihs =>
          refine .cons (ih a List.mem_cons_self hab (hv a List.mem_cons_self)) (ihs ?_ ?_)
          · exact fun v hmem => ih v (List.mem_cons_of_mem _ hmem)
          · exact fun v hmem => hv v (List.mem_cons_of_mem _ hmem)
  | object members ih =>
    intro w hd hv
    cases hd with
    | @object _ members' hnodup' hkeys h =>
      cases hv with
      | object hnodup hv =>
        refine .object hnodup hnodup' hkeys fun key v v' hlookup hlookup' => ?_
        have hmem := Value.mem_of_lookup hlookup
        exact ih _ hmem (h key v v' (lookup_reverse_of_nodup hnodup hlookup) hlookup')
          (hv _ hmem)

/-! ### Doubles -/

inductive Step where
  | key (key : String)
  | item (i : Nat)

namespace Value

def step (v : Value) : Step → Option Value
  | .key key => v.get key
  | .item i => v.asArray.bind fun items => items[i]?

/-- What stands at a place of the tree. -/
def follow (v : Value) : List Step → Option Value
  | [] => some v
  | s :: path => (v.step s).bind fun w => w.follow path
termination_by structural path => path

end Value

/-- Where both have a double at one place, it is the same. -/
def SameDoubles (v w : Value) : Prop :=
  ∀ path x y, v.follow path = some (.number (.float x)) →
    w.follow path = some (.number (.float y)) → x = y

theorem SameDoubles.step {v w v' w' : Value} {s : Step} (h : SameDoubles v w)
    (hv : v.step s = some v') (hw : w.step s = some w') : SameDoubles v' w' := by
  intro path x y hx hy
  refine h (s :: path) x y ?_ ?_
  · rw [Value.follow, hv, Option.bind_some, hx]
  · rw [Value.follow, hw, Option.bind_some, hy]

/-- A value with all of a tree, and with the same doubles. -/
structure Exact (v w : Value) : Prop where
  whole : Whole v w
  doubles : SameDoubles v w

namespace Exact

variable {w : Value}

theorem string {s : String} (h : Exact (.string s) w) : w = .string s := by
  obtain ⟨hwhole, -⟩ := h
  cases hwhole
  rfl

theorem number {n : Number} (h : Exact (.number n) w) : w = .number n := by
  obtain ⟨hwhole, hdoubles⟩ := h
  cases hwhole with
  | posInt => rfl
  | negInt => rfl
  | float x y => rw [hdoubles [] x y rfl rfl]

theorem array {items : List Value} (h : Exact (.array items) w) :
    ∃ items', w = .array items' ∧ List.Forall₂ Exact items items' := by
  obtain ⟨hwhole, hdoubles⟩ := h
  cases hwhole with
  | @array _ items' hitems =>
    refine ⟨items', rfl, List.forall₂_iff_get.2 ⟨hitems.length_eq, fun i hi hi' => ?_⟩⟩
    refine ⟨(List.forall₂_iff_get.1 hitems).2 i hi hi', ?_⟩
    exact hdoubles.step (s := .item i) (List.getElem?_eq_getElem hi) (List.getElem?_eq_getElem hi')

/-- The members are those of the tree, in any order. -/
structure Members (members members' : List (String × Value)) : Prop where
  keys : ∀ key, (members'.lookup key).isSome = (members.lookup key).isSome
  under : ∀ {key v}, members.lookup key = some v → ∃ v', members'.lookup key = some v' ∧ Exact v v'

theorem object {members : List (String × Value)} (h : Exact (.object members) w) :
    ∃ members', w = .object members' ∧ Members members members' := by
  obtain ⟨hwhole, hdoubles⟩ := h
  cases hwhole with
  | @object _ members' _ _ hkeys hmembers =>
    refine ⟨members', rfl, hkeys, fun {key v} hv => ?_⟩
    obtain ⟨v', hv'⟩ := Option.isSome_iff_exists.1 ((hkeys key).trans (by rw [hv]; rfl))
    exact ⟨v', hv', hmembers key v v' hv hv', hdoubles.step (s := .key key) hv hv'⟩

end Exact

/-! ### A reader for every tree -/

/-- A member at its place in the order of the keys. -/
def insertKey (key : String) (v : Value) : List (String × Value) → List (String × Value)
  | [] => [(key, v)]
  | m :: members => if key < m.1 then (key, v) :: m :: members else m :: insertKey key v members

theorem perm_insertKey (key : String) (v : Value) (members : List (String × Value)) :
    (insertKey key v members).Perm ((key, v) :: members) := by
  induction members with
  | nil => exact .refl _
  | cons m members ih =>
    rw [insertKey]
    split_ifs
    · exact .refl _
    · exact (ih.cons m).trans (.swap _ _ _)

theorem lookup_cons_if (key k : String) (v : Value) (members : List (String × Value)) :
    ((key, v) :: members).lookup k = if k = key then some v else members.lookup k := by
  rw [List.lookup_cons]
  split_ifs with hk
  · rw [hk, beq_self_eq_true]
  · rw [beq_false_of_ne hk]

theorem lookup_insertKey {key : String} {v : Value} {members : List (String × Value)}
    (hfresh : members.lookup key = none) (k : String) :
    (insertKey key v members).lookup k = if k = key then some v else members.lookup k := by
  induction members with
  | nil => exact lookup_cons_if key k v []
  | cons m members ih =>
    obtain ⟨k', w⟩ := m
    rw [lookup_cons_if] at hfresh
    rw [insertKey]
    split_ifs at hfresh with hne
    split
    · exact lookup_cons_if key k v _
    · rw [lookup_cons_if, lookup_cons_if, ih hfresh]
      split_ifs with hk' hk
      · exact absurd (hk.symm.trans hk') hne
      · rfl
      · rfl
      · rfl

mutual

/-- The value of a tree: of the members under one key the last, in the order of the keys. -/
def lastOf : Value → Value
  | .array items => .array (lastOfItems items)
  | .object members => .object (lastOfMembers members)
  | v => v
termination_by structural v => v

def lastOfItems : List Value → List Value
  | [] => []
  | v :: items => lastOf v :: lastOfItems items
termination_by structural items => items

def lastOfMembers : List (String × Value) → List (String × Value)
  | [] => []
  | (key, v) :: members =>
    if (members.lookup key).isSome then lastOfMembers members
    else insertKey key (lastOf v) (lastOfMembers members)
termination_by structural members => members

end

theorem lookup_lastOfMembers (members : List (String × Value)) (key : String) :
    (lastOfMembers members).lookup key = (members.reverse.lookup key).map lastOf := by
  induction members generalizing key with
  | nil => rfl
  | cons m members ih =>
    obtain ⟨k, v⟩ := m
    rw [lastOfMembers, List.reverse_cons, List.lookup_append, lookup_cons_if, List.lookup_nil]
    split_ifs with hsome hk hk
    · rw [ih, hk]
      rw [← Denotes.isSome_lookup_reverse] at hsome
      obtain ⟨w, hw⟩ := Option.isSome_iff_exists.1 hsome
      rw [hw]
      rfl
    · rw [ih, Option.or_none]
    all_goals
      rw [← Denotes.isSome_lookup_reverse, Bool.not_eq_true, Option.isSome_eq_false_iff,
        Option.isNone_iff_eq_none] at hsome
      rw [lookup_insertKey (by rw [ih, hsome]; rfl)]
    · rw [if_pos hk, hk, hsome]
      rfl
    · rw [if_neg hk, ih, Option.or_none]

theorem nodup_lastOfMembers (members : List (String × Value)) :
    ((lastOfMembers members).map Prod.fst).Nodup := by
  induction members with
  | nil => exact List.nodup_nil
  | cons m members ih =>
    obtain ⟨k, v⟩ := m
    rw [lastOfMembers]
    split_ifs with hsome
    · exact ih
    · rw [((perm_insertKey k (lastOf v) (lastOfMembers members)).map Prod.fst).nodup_iff,
        List.map_cons, List.nodup_cons]
      refine ⟨fun hmem => hsome ?_, ih⟩
      obtain ⟨m, hm, hk⟩ := List.mem_map.1 hmem
      have hlookup : ((lastOfMembers members).lookup k).isSome = true := by
        rw [List.lookup_isSome_iff]
        exact ⟨m, hm, by simpa using hk.symm⟩
      rwa [lookup_lastOfMembers, Option.isSome_map, Denotes.isSome_lookup_reverse] at hlookup

/-- A tree denotes its value. -/
theorem denotes_lastOf (v : Value) : Denotes v (lastOf v) := by
  induction v using Value.ind with
  | null => exact .null
  | bool b => exact .bool b
  | number n =>
    cases n with
    | posInt n => exact .posInt n
    | negInt n => exact .negInt n
    | float x => exact .float x x
  | string s => exact .string s
  | array items ih =>
    refine .array ?_
    induction items with
    | nil => exact .nil
    | cons v items ihs =>
      exact .cons (ih v List.mem_cons_self) (ihs fun w hw => ih w (List.mem_cons_of_mem _ hw))
  | object members ih =>
    refine .object (nodup_lastOfMembers members) (fun key => ?_) fun key v v' hv hv' => ?_
    · rw [lookup_lastOfMembers, Option.isSome_map, Denotes.isSome_lookup_reverse]
    · rw [lookup_lastOfMembers, hv] at hv'
      cases hv'
      exact ih _ (List.mem_reverse.1 (Value.mem_of_lookup hv))

theorem lastOfItems_eq (items : List Value) : lastOfItems items = items.map lastOf := by
  induction items with
  | nil => rfl
  | cons v items ih => rw [lastOfItems, ih, List.map_cons]

/-- Where no key is twice, what stands at a place of a tree stands there in its value. -/
theorem follow_lastOf (path : List Step) : ∀ {v u : Value}, Distinct v → v.follow path = some u →
    (lastOf v).follow path = some (lastOf u) := by
  induction path with
  | nil =>
    intro v u _ h
    cases h
    rfl
  | cons s path ih =>
    intro v u hv h
    rw [Value.follow] at h
    obtain ⟨w, hw, hrest⟩ := Option.bind_eq_some_iff.1 h
    cases s with
    | key key =>
      cases hv with
      | @object members hnodup hmembers =>
        have hlookup : (lastOf (.object members)).step (.key key) = some (lastOf w) := by
          show (lastOfMembers members).lookup key = some (lastOf w)
          rw [lookup_lastOfMembers, lookup_reverse_of_nodup hnodup hw, Option.map_some]
        rw [Value.follow, hlookup, Option.bind_some]
        exact ih (hmembers _ (Value.mem_of_lookup hw)) hrest
      | _ => cases hw
    | item i =>
      cases hv with
      | @array items hitems =>
        have hget : (lastOf (.array items)).step (.item i) = some (lastOf w) := by
          show (lastOfItems items)[i]? = some (lastOf w)
          rw [lastOfItems_eq, List.getElem?_map, show items[i]? = some w from hw, Option.map_some]
        rw [Value.follow, hget, Option.bind_some]
        exact ih (hitems _ (List.mem_of_getElem? hw)) hrest
      | _ => cases hw

theorem sameDoubles_lastOf {v : Value} (hv : Distinct v) : SameDoubles v (lastOf v) := by
  intro path x y hx hy
  have h := follow_lastOf path hv hx
  rw [hy] at h
  cases h
  rfl

end Lib.Json
