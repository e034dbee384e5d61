import SpatialIde.Kernel.DatasetRef.Closed
import SpatialIde.Kernel.SessionHistory.Shape

/-! # What a shape accepts

`Fits shape v` says what the values of a shape are: at every object exactly the members the shape
declares there, every text, list and number within its bound and every word one of the declared
words.  `check` accepts these values and no others (`check_eq_ok`), and it reads no member that is
not there (`Panicking.check_eq`).
-/

namespace SpatialIde.Kernel.SessionHistory

open Lib Lib.Json
open Lib.Json.Value (asF64)

/-! ### The check as it indexes -/

namespace Panicking

open Kernel.Panicking (indexMap)

section

variable (display : F64 → String)

def checkState (v : Value) (path : String) (words : List String) : Panics RefParseError Unit := do
  let o ← .of (closed v path ["state", "basis"])
  let word ← indexMap o "state"
  let word ← .of (bounded word (joinKey path "state") MAX_TEXT)
  if word = "" ∨ ¬(words = [] ∨ word ∈ words) then
    .of (malformed path ("\x60" ++ word ++ "\x60 is not a state word here"))
  else do
    let basis ← indexMap o "basis"
    .of (checkText basis (joinKey path "basis") MAX_TEXT)

mutual

/-- `check`.  `v[tag]` of a value is null where there is no such member; `o[key]` of a map panics. -/
def check (v : Value) (path : String) : Shape → Panics RefParseError Unit
  | .null => .of (if v.isNull then .ok () else malformed path "expected null")
  | .any => .of (.ok ())
  | .text max => .of (checkText v path max)
  | .hex start n => .of (checkHex v path start n)
  | .timestamp => .of (checkTimestamp v path)
  | .observed => do
    let _ ← Kernel.Panicking.parseObserved v path
    return ()
  | .word words => .of (checkWord v path words)
  | .int lo hi => .of (checkInt v path lo hi)
  | .num max => .of (checkNum display v path max)
  | .state words => checkState v path words
  | .obj members => do
    let o ← .of (closed v path (members.map Prod.fst))
    checkMembers o path members
  | .tagged tag variants => do
    let w ← .of (bounded (member v tag) (joinKey path tag) MAX_TEXT)
    checkVariants v path tag w variants
  | .list item max =>
    match v.asArray with
    | none => .of (malformed path ("expected at most " ++ toString max ++ " entries"))
    | some items =>
      if items.length ≤ max then
        items.zipIdx.forM fun x => check x.1 (path ++ "[" ++ toString x.2 ++ "]") item
      else .of (malformed path ("expected at most " ++ toString max ++ " entries"))
  | .or a b => do
    -- A panic of the first is not caught.
    match ← .unwrap (check v path a).run with
    | .ok () => return ()
    | .error _ => check v path b
  | .stateOr inner => if (v.get "state").isSome then checkState v path [] else check v path inner
termination_by structural shape => shape

def checkMembers (o : List (String × Value)) (path : String) :
    List (String × Shape) → Panics RefParseError Unit
  | [] => .of (.ok ())
  | (key, shape) :: members => do
    let u ← indexMap o key
    check u (joinKey path key) shape
    checkMembers o path members
termination_by structural members => members

def checkVariants (v : Value) (path tag w : String) :
    List (String × List (String × Shape)) → Panics RefParseError Unit
  | [] => .of (malformed (joinKey path tag) ("\x60" ++ w ++ "\x60 is not a known " ++ tag))
  | (name, members) :: variants =>
    if name = w then do
      let o ← .of (closed v path (tag :: members.map Prod.fst))
      checkMembers o path members
    else checkVariants v path tag w variants
termination_by structural variants => variants

end

end

end Panicking

/-! ### By the shape -/

/-- A shape by the shapes of its members, its variants and its items. -/
theorem Shape.ind {P : Shape → Prop} (null : P .null) (any : P .any) (text : ∀ max, P (.text max))
    (hex : ∀ start n, P (.hex start n)) (timestamp : P .timestamp) (observed : P .observed)
    (word : ∀ words, P (.word words)) (int : ∀ lo hi, P (.int lo hi)) (num : ∀ max, P (.num max))
    (state : ∀ words, P (.state words))
    (obj : ∀ members, (∀ m ∈ members, P m.2) → P (.obj members))
    (tagged : ∀ tag variants, (∀ variant ∈ variants, ∀ m ∈ variant.2, P m.2) →
      P (.tagged tag variants))
    (list : ∀ item max, P item → P (.list item max)) (or : ∀ a b, P a → P b → P (.or a b))
    (stateOr : ∀ inner, P inner → P (.stateOr inner)) (shape : Shape) : P shape := by
  refine @Shape.rec P (fun members => ∀ m ∈ members, P m.2)
    (fun variants => ∀ variant ∈ variants, ∀ m ∈ variant.2, P m.2) (fun m => P m.2)
    (fun variant => ∀ m ∈ variant.2, P m.2) null any text hex timestamp observed word int num state
    obj tagged list or stateOr ?_ ?_ ?_ ?_ (fun _ _ h => h) (fun _ _ h => h) shape
  · intro m hm
    cases hm
  · intro m members hm ih m' hm'
    rcases List.mem_cons.1 hm' with rfl | hm'
    · exact hm
    · exact ih m' hm'
  · intro variant hvariant
    cases hvariant
  · intro variant variants hvariant ih variant' hvariant'
    rcases List.mem_cons.1 hvariant' with rfl | hvariant'
    · exact hvariant
    · exact ih variant' hvariant'

/-! ### No index is missing -/

namespace Panicking

open Kernel.Panicking

variable {display : F64 → String} {path : String}

theorem checkState_eq (v : Value) (path : String) (words : List String) :
    checkState v path words = .of (SessionHistory.checkState v path words) := by
  refine Panics.of_bind rfl fun o hclosed => indexMap_bind hclosed (by simp) ?_
  refine Panics.of_bind rfl fun word _ => ?_
  split_ifs
  · rfl
  · exact indexMap_bind hclosed (by simp) rfl

theorem checkMembers_eq {v : Value} {keys : List String} {o : List (String × Value)}
    (hclosed : closed v path keys = .ok o) {members : List (String × Shape)}
    (hkeys : ∀ m ∈ members, m.1 ∈ keys)
    (h : ∀ m ∈ members, ∀ (v : Value) (path : String),
      check display v path m.2 = .of (SessionHistory.check display v path m.2)) :
    checkMembers display o path members =
      .of (SessionHistory.checkMembers display o path members) := by
  induction members with
  | nil => rfl
  | cons m members ih =>
    refine indexMap_bind hclosed (hkeys m List.mem_cons_self) ?_
    refine Panics.of_bind (h m List.mem_cons_self _ _) fun _ _ => ?_
    exact ih (fun m' hm' => hkeys m' (List.mem_cons_of_mem _ hm'))
      fun m' hm' => h m' (List.mem_cons_of_mem _ hm')

theorem checkVariants_eq {v : Value} {tag w : String}
    {variants : List (String × List (String × Shape))}
    (h : ∀ variant ∈ variants, ∀ m ∈ variant.2, ∀ (v : Value) (path : String),
      check display v path m.2 = .of (SessionHistory.check display v path m.2)) :
    checkVariants display v path tag w variants =
      .of (SessionHistory.checkVariants display v path tag w variants) := by
  induction variants with
  | nil => rfl
  | cons variant variants ih =>
    rw [checkVariants, SessionHistory.checkVariants]
    split_ifs
    · refine Panics.of_bind rfl fun o hclosed => ?_
      exact checkMembers_eq hclosed (fun m hm => List.mem_cons_of_mem _ (List.mem_map_of_mem hm))
        (h variant List.mem_cons_self)
    · exact ih fun variant' hvariant' => h variant' (List.mem_cons_of_mem _ hvariant')

/-- **The check does not panic.** -/
theorem check_eq (shape : Shape) (v : Value) (path : String) :
    check display v path shape = .of (SessionHistory.check display v path shape) := by
  induction shape using Shape.ind generalizing v path with
  | null => rfl
  | any => rfl
  | text => rfl
  | hex => rfl
  | timestamp => rfl
  | observed => exact Panics.of_bind (Kernel.Panicking.parseObserved_eq v path) fun _ _ => rfl
  | word => rfl
  | int => rfl
  | num => rfl
  | state words => exact checkState_eq v path words
  | obj members ih =>
    refine Panics.of_bind rfl fun o hclosed => ?_
    exact checkMembers_eq hclosed (fun m hm => List.mem_map_of_mem hm) ih
  | tagged tag variants ih => exact Panics.of_bind rfl fun w _ => checkVariants_eq ih
  | list item max ih =>
    rw [check, SessionHistory.check]
    cases v.asArray with
    | none => rfl
    | some items =>
      dsimp only
      split_ifs
      · exact Panics.of_forM fun x _ => ih _ _
      · rfl
  | or a b iha ihb =>
    rw [check, SessionHistory.check, iha]
    cases SessionHistory.check display v path a with
    | ok => rfl
    | error => exact ihb v path
  | stateOr inner ih =>
    rw [check, SessionHistory.check]
    split_ifs
    · exact checkState_eq v path []
    · exact ih v path

end Panicking

/-! ### What the leaves accept -/

section

variable {display : F64 → String} {v : Value} {path : String}

theorem checkText_eq_ok {max : Nat} : checkText v path max = .ok () ↔
    ∃ s, v = .string s ∧ s ≠ "" ∧ s.utf8ByteSize ≤ max := by
  constructor
  · intro h
    obtain ⟨s, hs, h⟩ := bind_eq_ok.1 h
    split_ifs at h with hempty
    · cases h
    · obtain ⟨hv, hlen⟩ := bounded_eq_ok hs
      exact ⟨s, hv, hempty, hlen⟩
  · rintro ⟨s, rfl, hempty, hlen⟩
    exact bind_eq_ok.2 ⟨s, bounded_eq_ok_iff.2 ⟨rfl, hlen⟩, if_neg hempty⟩

/-- A start and `n` lowercase hexadecimal digits. -/
def IsHex (start : String) (n : Nat) (s : String) : Prop :=
  ∃ hex, s = start ++ hex ∧ Text.isLowerHexOf n hex = true

theorem isHex_iff {start s : String} {n : Nat} :
    ((Text.stripPrefix s start).map (Text.isLowerHexOf n)).getD false = true ↔ IsHex start n s := by
  constructor
  · intro h
    cases hstrip : Text.stripPrefix s start with
    | none =>
      rw [hstrip] at h
      cases h
    | some hex =>
      rw [hstrip] at h
      exact ⟨hex, Text.stripPrefix_eq_some.1 hstrip, h⟩
  · rintro ⟨hex, hs, hhex⟩
    rw [Text.stripPrefix_eq_some.2 hs]
    exact hhex

theorem checkHex_eq_ok_iff {start : String} {n : Nat} : checkHex v path start n = .ok () ↔
    ∃ s, v = .string s ∧ IsHex start n s ∧ s.utf8ByteSize ≤ MAX_TEXT := by
  constructor
  · intro h
    obtain ⟨s, hs, h⟩ := bind_eq_ok.1 h
    split_ifs at h with hhex
    · obtain ⟨hv, hlen⟩ := bounded_eq_ok hs
      exact ⟨s, hv, isHex_iff.1 hhex, hlen⟩
    · cases h
  · rintro ⟨s, rfl, hhex, hlen⟩
    exact bind_eq_ok.2 ⟨s, bounded_eq_ok_iff.2 ⟨rfl, hlen⟩, if_pos (isHex_iff.2 hhex)⟩

/-- `YYYY-MM-DDTHH:MM:SSZ`. -/
def TimestampForm (s : String) : Prop :=
  s.length = 20 ∧ ∀ i c, s.toList[i]? = some c →
    match timestampMark i with
    | some mark => c = mark
    | none => c.isDigit = true

theorem isTimestamp_iff {s : String} : isTimestamp s = true ↔ TimestampForm s := by
  rw [isTimestamp, Bool.and_eq_true, beq_iff_eq, List.all_eq_true, TimestampForm]
  refine and_congr_right fun _ => ⟨fun h i c hc => ?_, fun h x hx => ?_⟩
  · have := h (c, i) (List.mem_zipIdx_iff_getElem?.2 hc)
    dsimp only at this
    split at this <;> simp_all
  · have := h x.2 x.1 (List.mem_zipIdx_iff_getElem?.1 hx)
    split at this <;> simp_all

theorem checkTimestamp_eq_ok : checkTimestamp v path = .ok () ↔
    ∃ s, v = .string s ∧ TimestampForm s ∧ s.utf8ByteSize ≤ 32 := by
  constructor
  · intro h
    obtain ⟨s, hs, h⟩ := bind_eq_ok.1 h
    split_ifs at h with hform
    · obtain ⟨hv, hlen⟩ := bounded_eq_ok hs
      exact ⟨s, hv, isTimestamp_iff.1 hform, hlen⟩
    · cases h
  · rintro ⟨s, rfl, hform, hlen⟩
    exact bind_eq_ok.2 ⟨s, bounded_eq_ok_iff.2 ⟨rfl, hlen⟩, if_pos (isTimestamp_iff.2 hform)⟩

theorem checkWord_eq_ok {words : List String} : checkWord v path words = .ok () ↔
    ∃ w, v = .string w ∧ w ∈ words ∧ w.utf8ByteSize ≤ MAX_TEXT := by
  constructor
  · intro h
    obtain ⟨w, hw, h⟩ := bind_eq_ok.1 h
    split_ifs at h with hmem
    · obtain ⟨hv, hlen⟩ := bounded_eq_ok hw
      exact ⟨w, hv, hmem, hlen⟩
    · cases h
  · rintro ⟨w, rfl, hmem, hlen⟩
    exact bind_eq_ok.2 ⟨w, bounded_eq_ok_iff.2 ⟨rfl, hlen⟩, if_pos hmem⟩

theorem checkInt_eq_ok {lo hi : Nat} : checkInt v path lo hi = .ok () ↔
    ∃ n : UInt64, v = .number (.posInt n) ∧ lo ≤ n.toNat ∧ n.toNat ≤ hi := by
  rw [checkInt]
  constructor
  · intro h
    split_ifs at h with hbounds
    · unfold Value.asU64 at hbounds
      split at hbounds
      · exact ⟨_, rfl, of_decide_eq_true hbounds⟩
      · cases hbounds
    · cases h
  · rintro ⟨n, rfl, hbounds⟩
    exact if_pos (decide_eq_true hbounds)

theorem checkNum_eq_ok {max : F64} : checkNum display v path max = .ok () ↔
    ∃ x, asF64 v = some x ∧ F64.zero.le x = true ∧ x.le max = true := by
  rw [checkNum]
  constructor
  · intro h
    split_ifs at h with hbounds
    · obtain ⟨x, hx⟩ : ∃ x, asF64 v = some x := by
        cases hv : asF64 v with
        | none =>
          rw [hv] at hbounds
          cases hbounds
        | some x => exact ⟨x, rfl⟩
      rw [hx] at hbounds
      exact ⟨x, hx, Bool.and_eq_true_iff.1 hbounds⟩
    · cases h
  · rintro ⟨x, hx, hbounds⟩
    refine if_pos ?_
    rw [hx]
    exact Bool.and_eq_true_iff.2 hbounds

/-- A named state, of the declared words where some are declared. -/
def NamedStateForm (words : List String) : Value → Prop :=
  StateForm (fun w => w ≠ "" ∧ w.utf8ByteSize ≤ MAX_TEXT ∧ (words = [] ∨ w ∈ words)) fun b =>
    b ≠ "" ∧ b.utf8ByteSize ≤ MAX_TEXT

theorem checkState_eq_ok {words : List String} :
    checkState v path words = .ok () ↔ NamedStateForm words v := by
  constructor
  · intro h
    obtain ⟨o, hclosed, hbound⟩ := bind_eq_ok.1 h
    obtain ⟨w, hw, hrest⟩ := bind_eq_ok.1 hbound
    obtain ⟨hv, hkeys⟩ := closed_eq_ok_iff.1 hclosed
    obtain ⟨hword, hlen⟩ := bounded_eq_ok hw
    split_ifs at hrest with hbad
    · cases hrest
    · obtain ⟨b, hb, hbasis⟩ := checkText_eq_ok.1 hrest
      push Not at hbad
      exact ⟨o, w, b, hv, hkeys, (index_eq_iff hkeys (by simp)).1 hword, ⟨hbad.1, hlen, hbad.2⟩,
        (index_eq_iff hkeys (by simp)).1 hb, hbasis⟩
  · rintro ⟨o, w, b, rfl, hkeys, hw, ⟨hne, hlen, hwords⟩, hb, hbasis⟩
    have hw' := (index_eq_iff hkeys (by simp)).2 hw
    have hb' := (index_eq_iff hkeys (by simp)).2 hb
    refine bind_eq_ok.2 ⟨o, closed_eq_ok_iff.2 ⟨rfl, hkeys⟩, bind_eq_ok.2 ⟨w, ?_, ?_⟩⟩
    · exact bounded_eq_ok_iff.2 ⟨hw', hlen⟩
    · rw [if_neg (by push Not; exact ⟨hne, hwords⟩)]
      exact checkText_eq_ok.2 ⟨b, hb', hbasis⟩

/-! ### What a shape accepts -/

/-- The values of a shape. -/
inductive Fits : Shape → Value → Prop
  | null : Fits .null .null
  | any (v : Value) : Fits .any v
  | text {max : Nat} {s : String} : s ≠ "" → s.utf8ByteSize ≤ max → Fits (.text max) (.string s)
  | hex {start s : String} {n : Nat} :
      IsHex start n s → s.utf8ByteSize ≤ MAX_TEXT → Fits (.hex start n) (.string s)
  | timestamp {s : String} :
      TimestampForm s → s.utf8ByteSize ≤ 32 → Fits .timestamp (.string s)
  | observed {v : Value} : ObservedForm v → Fits .observed v
  | word {words : List String} {w : String} :
      w ∈ words → w.utf8ByteSize ≤ MAX_TEXT → Fits (.word words) (.string w)
  | int {lo hi : Nat} {n : UInt64} :
      lo ≤ n.toNat → n.toNat ≤ hi → Fits (.int lo hi) (.number (.posInt n))
  | num {max x : F64} {v : Value} : asF64 v = some x → F64.zero.le x = true → x.le max = true →
      Fits (.num max) v
  | state {words : List String} {v : Value} : NamedStateForm words v → Fits (.state words) v
  | obj {members : List (String × Shape)} {o : List (String × Value)} :
      HasKeys o (members.map Prod.fst) →
      (∀ m ∈ members, ∀ u, o.lookup m.1 = some u → Fits m.2 u) → Fits (.obj members) (.object o)
  /-- The word under the tag picks the first variant of its name. -/
  | tagged {tag w : String} {variants : List (String × List (String × Shape))}
      {members : List (String × Shape)} {o : List (String × Value)} :
      o.lookup tag = some (.string w) → w.utf8ByteSize ≤ MAX_TEXT →
      variants.lookup w = some members → HasKeys o (tag :: members.map Prod.fst) →
      (∀ m ∈ members, ∀ u, o.lookup m.1 = some u → Fits m.2 u) →
      Fits (.tagged tag variants) (.object o)
  | list {item : Shape} {max : Nat} {items : List Value} :
      items.length ≤ max → (∀ u ∈ items, Fits item u) → Fits (.list item max) (.array items)
  | orLeft {a b : Shape} {v : Value} : Fits a v → Fits (.or a b) v
  | orRight {a b : Shape} {v : Value} : Fits b v → Fits (.or a b) v
  | stated {inner : Shape} {v : Value} :
      (v.get "state").isSome = true → NamedStateForm [] v → Fits (.stateOr inner) v
  | unstated {inner : Shape} {v : Value} :
      (v.get "state").isSome = false → Fits inner v → Fits (.stateOr inner) v

theorem checkMembers_eq_ok_iff {o : List (String × Value)} {keys : List String}
    (hkeys : HasKeys o keys) {members : List (String × Shape)} (hmem : ∀ m ∈ members, m.1 ∈ keys)
    (h : ∀ m ∈ members, ∀ (v : Value) (path : String),
      check display v path m.2 = .ok () ↔ Fits m.2 v) :
    checkMembers display o path members = .ok () ↔
      ∀ m ∈ members, ∀ u, o.lookup m.1 = some u → Fits m.2 u := by
  constructor
  · intro hok m hm u hu
    have := checkMembers_eq_ok hok m hm
    rw [(index_eq_iff hkeys (hmem m hm)).2 hu] at this
    exact (h m hm _ _).1 this
  · intro hfits
    induction members with
    | nil => rfl
    | cons m members ih =>
      refine bind_eq_ok.2 ⟨(), (h m List.mem_cons_self _ _).2 ?_, ?_⟩
      · exact hfits m List.mem_cons_self _ ((index_eq_iff hkeys (hmem m List.mem_cons_self)).1 rfl)
      · exact ih (fun m' hm' => hmem m' (List.mem_cons_of_mem _ hm'))
          (fun m' hm' => h m' (List.mem_cons_of_mem _ hm'))
          fun m' hm' => hfits m' (List.mem_cons_of_mem _ hm')

theorem checkVariants_eq_ok_iff {tag w : String}
    {variants : List (String × List (String × Shape))}
    (h : ∀ variant ∈ variants, ∀ m ∈ variant.2, ∀ (v : Value) (path : String),
      check display v path m.2 = .ok () ↔ Fits m.2 v) :
    checkVariants display v path tag w variants = .ok () ↔
      ∃ o members, v = .object o ∧ variants.lookup w = some members ∧
        HasKeys o (tag :: members.map Prod.fst) ∧
        ∀ m ∈ members, ∀ u, o.lookup m.1 = some u → Fits m.2 u := by
  induction variants with
  | nil =>
    constructor
    · intro hok
      cases hok
    · rintro ⟨o, members, -, hlookup, -⟩
      cases hlookup
  | cons variant variants ih =>
    have hmem : ∀ m ∈ variant.2, m.1 ∈ tag :: variant.2.map Prod.fst :=
      fun m hm => List.mem_cons_of_mem _ (List.mem_map_of_mem hm)
    rw [checkVariants]
    split_ifs with hname
    · have hlookup : (variant :: variants).lookup w = some variant.2 := by
        rw [List.lookup_cons, hname, beq_self_eq_true]
      constructor
      · intro hok
        obtain ⟨o, hclosed, hok⟩ := bind_eq_ok.1 hok
        obtain ⟨hv, hkeys⟩ := closed_eq_ok_iff.1 hclosed
        exact ⟨o, variant.2, hv, hlookup, hkeys,
          (checkMembers_eq_ok_iff hkeys hmem (h variant List.mem_cons_self)).1 hok⟩
      · rintro ⟨o, members, hv, hlookup', hkeys, hfits⟩
        rw [hlookup] at hlookup'
        cases hlookup'
        exact bind_eq_ok.2 ⟨o, closed_eq_ok_iff.2 ⟨hv, hkeys⟩,
          (checkMembers_eq_ok_iff hkeys hmem (h variant List.mem_cons_self)).2 hfits⟩
    · have hlookup : (variant :: variants).lookup w = variants.lookup w := by
        rw [List.lookup_cons, beq_eq_false_iff_ne.2 (Ne.symm hname)]
      rw [hlookup]
      exact ih fun variant' hvariant' => h variant' (List.mem_cons_of_mem _ hvariant')

theorem checkObj_eq_ok_iff {members : List (String × Shape)}
    (ih : ∀ m ∈ members, ∀ (v : Value) (path : String), check display v path m.2 = .ok () ↔ Fits m.2 v)
    (v : Value) (path : String) :
    check display v path (.obj members) = .ok () ↔ Fits (.obj members) v := by
  have hmem : ∀ m ∈ members, m.1 ∈ members.map Prod.fst := fun m hm => List.mem_map_of_mem hm
  constructor
  · intro h
    obtain ⟨o, hclosed, hok⟩ := bind_eq_ok.1 h
    obtain ⟨rfl, hkeys⟩ := closed_eq_ok_iff.1 hclosed
    exact .obj hkeys ((checkMembers_eq_ok_iff hkeys hmem ih).1 hok)
  · intro h
    cases h with
    | obj hkeys hfits =>
      exact bind_eq_ok.2 ⟨_, closed_eq_ok_iff.2 ⟨rfl, hkeys⟩,
        (checkMembers_eq_ok_iff hkeys hmem ih).2 hfits⟩

theorem checkTagged_eq_ok_iff {tag : String} {variants : List (String × List (String × Shape))}
    (ih : ∀ variant ∈ variants, ∀ m ∈ variant.2, ∀ (v : Value) (path : String),
      check display v path m.2 = .ok () ↔ Fits m.2 v) (v : Value) (path : String) :
    check display v path (.tagged tag variants) = .ok () ↔ Fits (.tagged tag variants) v := by
  constructor
  · intro h
    obtain ⟨w, hw, h⟩ := bind_eq_ok.1 h
    obtain ⟨o, members, rfl, hlookup, hkeys, hfits⟩ := (checkVariants_eq_ok_iff ih).1 h
    obtain ⟨hword, hlen⟩ := bounded_eq_ok hw
    rw [member_object, index_eq_iff hkeys List.mem_cons_self] at hword
    exact .tagged hword hlen hlookup hkeys hfits
  · intro h
    cases h with
    | tagged hword hlen hlookup hkeys hfits =>
      refine bind_eq_ok.2 ⟨_, bounded_eq_ok_iff.2 ⟨?_, hlen⟩,
        (checkVariants_eq_ok_iff ih).2 ⟨_, _, rfl, hlookup, hkeys, hfits⟩⟩
      rw [member_object]
      exact (index_eq_iff hkeys List.mem_cons_self).2 hword

section Inside

variable {item a b inner : Shape}

theorem checkList_eq_ok_iff (max : Nat)
    (ih : ∀ (v : Value) (path : String), check display v path item = .ok () ↔ Fits item v)
    (v : Value) (path : String) :
    check display v path (.list item max) = .ok () ↔ Fits (.list item max) v := by
  rw [check]
  constructor
  · intro h
    cases v with
    | array items =>
      replace h : (if items.length ≤ max then _ else _) = Except.ok () := h
      split_ifs at h with hlen
      · refine .list hlen fun u hu => ?_
        obtain ⟨i, hi⟩ := List.mem_iff_getElem?.1 hu
        exact (ih _ _).1 (forM_eq_ok.1 h (u, i) (List.mem_zipIdx_iff_getElem?.2 hi))
      · cases h
    | _ => cases h
  · intro h
    cases h with
    | list hlen hfits =>
      refine (if_pos hlen).trans (forM_eq_ok.2 fun x hx => (ih _ _).2 (hfits _ ?_))
      exact List.mem_iff_getElem?.2 ⟨_, List.mem_zipIdx_iff_getElem?.1 hx⟩

theorem checkOr_eq_ok_iff
    (iha : ∀ (v : Value) (path : String), check display v path a = .ok () ↔ Fits a v)
    (ihb : ∀ (v : Value) (path : String), check display v path b = .ok () ↔ Fits b v)
    (v : Value) (path : String) : check display v path (.or a b) = .ok () ↔ Fits (.or a b) v := by
  rw [check]
  constructor
  · intro h
    split at h
    · next ha => exact .orLeft ((iha _ _).1 ha)
    · exact .orRight ((ihb _ _).1 h)
  · intro h
    split
    · rfl
    · next e ha =>
      cases h with
      | orLeft h =>
        rw [(iha _ _).2 h] at ha
        cases ha
      | orRight h => exact (ihb _ _).2 h

theorem checkStateOr_eq_ok_iff
    (ih : ∀ (v : Value) (path : String), check display v path inner = .ok () ↔ Fits inner v)
    (v : Value) (path : String) :
    check display v path (.stateOr inner) = .ok () ↔ Fits (.stateOr inner) v := by
  rw [check]
  split_ifs with hstate
  · refine checkState_eq_ok.trans ⟨.stated hstate, fun h => ?_⟩
    cases h with
    | stated _ h => exact h
    | unstated hnone => exact absurd hstate (by rw [hnone]; decide)
  · refine (ih v path).trans ⟨.unstated (by simpa using hstate), fun h => ?_⟩
    cases h with
    | stated hsome => exact absurd hsome hstate
    | unstated _ h => exact h

end Inside

/-- **A check accepts exactly what its shape says.** -/
theorem check_eq_ok (shape : Shape) (v : Value) (path : String) :
    check display v path shape = .ok () ↔ Fits shape v := by
  induction shape using Shape.ind generalizing v path with
  | null =>
    constructor
    · intro h
      cases v <;> first | exact .null | cases h
    · rintro ⟨⟩
      rfl
  | any => exact ⟨fun _ => .any v, fun _ => rfl⟩
  | text max =>
    refine checkText_eq_ok.trans ⟨?_, ?_⟩
    · rintro ⟨s, rfl, hne, hlen⟩
      exact .text hne hlen
    · rintro ⟨⟩
      exact ⟨_, rfl, ‹_›, ‹_›⟩
  | hex start n =>
    refine checkHex_eq_ok_iff.trans ⟨?_, ?_⟩
    · rintro ⟨s, rfl, hhex, hlen⟩
      exact .hex hhex hlen
    · rintro ⟨⟩
      exact ⟨_, rfl, ‹_›, ‹_›⟩
  | timestamp =>
    refine checkTimestamp_eq_ok.trans ⟨?_, ?_⟩
    · rintro ⟨s, rfl, hform, hlen⟩
      exact .timestamp hform hlen
    · rintro ⟨⟩
      exact ⟨_, rfl, ‹_›, ‹_›⟩
  | observed =>
    constructor
    · intro h
      obtain ⟨o, ho, -⟩ := bind_eq_ok.1 h
      exact .observed (parseObserved_eq_ok.1 ⟨o, ho⟩)
    · rintro ⟨⟩
      obtain ⟨o, ho⟩ := parseObserved_eq_ok.2 ‹_›
      exact bind_eq_ok.2 ⟨o, ho, rfl⟩
  | word words =>
    refine checkWord_eq_ok.trans ⟨?_, ?_⟩
    · rintro ⟨w, rfl, hmem, hlen⟩
      exact .word hmem hlen
    · rintro ⟨⟩
      exact ⟨_, rfl, ‹_›, ‹_›⟩
  | int lo hi =>
    refine checkInt_eq_ok.trans ⟨?_, ?_⟩
    · rintro ⟨n, rfl, hlo, hhi⟩
      exact .int hlo hhi
    · rintro ⟨⟩
      exact ⟨_, rfl, ‹_›, ‹_›⟩
  | num max =>
    refine checkNum_eq_ok.trans ⟨?_, ?_⟩
    · rintro ⟨x, hx, hzero, hmax⟩
      exact .num hx hzero hmax
    · rintro ⟨⟩
      exact ⟨_, ‹_›, ‹_›, ‹_›⟩
  | state words =>
    refine checkState_eq_ok.trans ⟨.state, ?_⟩
    rintro ⟨⟩
    assumption
  | obj members ih => exact checkObj_eq_ok_iff ih v path
  | tagged tag variants ih => exact checkTagged_eq_ok_iff ih v path
  | list item max ih => exact checkList_eq_ok_iff max ih v path
  | or a b iha ihb => exact checkOr_eq_ok_iff iha ihb v path
  | stateOr inner ih => exact checkStateOr_eq_ok_iff ih v path

end

/-- **Accepted lines are closed at every depth.**  The check of a value against a shape reads no
member that is not there, and accepts exactly the values of the shape. -/
theorem accepts_iff_fits (display : F64 → String) (shape : Shape) (v : Value) (path : String) :
    ∃ result, Panicking.check display v path shape = .of result ∧
      (result = .ok () ↔ Fits shape v) :=
  ⟨_, Panicking.check_eq shape v path, check_eq_ok shape v path⟩

end SpatialIde.Kernel.SessionHistory
