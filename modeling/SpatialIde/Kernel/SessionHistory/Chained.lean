import SpatialIde.Kernel.SessionHistory.Recovers

/-! # Recovered lines chain

A history behind its header is a list of entries.  Each of those that are kept follows what stands
before it (`Chained`): a step names as its parent the step before it or where the work was restored
to, and every name is the id of an earlier step.  Where no id occurs twice the steps are a tree.
-/

namespace SpatialIde.Kernel.SessionHistory

open Lib Lib.Json

/-- A line behind the header, as far as it chains. -/
inductive Entry where
  | step (id : String) (parent : Option String)
  | savedHere (after : String)
  | restored (target : String)
  deriving DecidableEq, Repr

namespace Entry

def stepId : Entry → Option String
  | step id _ => some id
  | _ => none

/-- What a step behind the entry has as its parent, if the entry says so. -/
def leaves : Entry → Option String
  | step id _ => some id
  | savedHere _ => none
  | restored target => some target

end Entry

/-- The ids of the steps. -/
def stepIds (entries : List Entry) : List String := entries.filterMap Entry.stepId

def lastStep (entries : List Entry) : Option String := (stepIds entries).getLast?

/-- The parent of the next step: the last step, or the target of the last restored mark behind it. -/
def due (entries : List Entry) : Option String := (entries.filterMap Entry.leaves).getLast?

/-- How an entry follows those before it. -/
inductive Follows (before : List Entry) : Entry → Prop
  | step {id : String} {parent : Option String} (h : parent = due before) :
      Follows before (.step id parent)
  | savedHere {after : String} (h : lastStep before = some after) :
      Follows before (.savedHere after)
  | restored {target : String} (h : target ∈ stepIds before) : Follows before (.restored target)

/-- Every entry follows those before it. -/
def Chained (entries : List Entry) : Prop :=
  ∀ before e after, entries = before ++ e :: after → Follows before e

theorem chained_nil : Chained [] := by
  intro before e after h
  cases before <;> cases h

theorem Chained.concat {entries : List Entry} {e : Entry} (h : Chained entries)
    (he : Follows entries e) : Chained (entries ++ [e]) := by
  intro before e' after heq
  rcases List.eq_nil_or_concat after with rfl | ⟨after, e'', rfl⟩
  · obtain ⟨rfl, he'⟩ := List.append_inj' heq rfl
    cases he'
    exact he
  · rw [List.concat_eq_append, ← List.cons_append, ← List.append_assoc] at heq
    obtain ⟨rfl, -⟩ := List.append_inj' heq rfl
    exact h before e' after rfl

theorem stepIds_append (entries entries' : List Entry) :
    stepIds (entries ++ entries') = stepIds entries ++ stepIds entries' :=
  List.filterMap_append

theorem stepIds_concat (entries : List Entry) (e : Entry) :
    stepIds (entries ++ [e]) = stepIds entries ++ e.stepId.toList := by
  rw [stepIds, List.filterMap_append]
  cases h : e.stepId <;> simp [h, stepIds]

theorem due_concat (entries : List Entry) (e : Entry) :
    due (entries ++ [e]) = e.leaves.or (due entries) := by
  rw [due, List.filterMap_append]
  cases h : e.leaves <;> simp [h, due]

/-! ### What is due is an earlier step -/

theorem Chained.of_append {entries rest : List Entry} (h : Chained (entries ++ rest)) :
    Chained entries := by
  rintro before e after rfl
  exact h before e (after ++ rest) (by simp)

theorem Chained.mem_of_due {entries : List Entry} (h : Chained entries) {id : String}
    (hdue : due entries = some id) : id ∈ stepIds entries := by
  induction entries using List.reverseRecOn with
  | nil => cases hdue
  | append_singleton entries e ih =>
    rw [due_concat] at hdue
    rw [stepIds_concat, List.mem_append]
    cases e with
    | step id' parent =>
      cases hdue
      exact .inr List.mem_cons_self
    | savedHere after => exact .inl (ih h.of_append hdue)
    | restored target =>
      cases hdue
      cases h entries (.restored id) [] rfl with
      | restored hmem => exact .inl hmem

/-- Behind a step something is due. -/
theorem exists_due {entries : List Entry} (h : stepIds entries ≠ []) :
    ∃ p, due entries = some p := by
  induction entries using List.reverseRecOn with
  | nil => exact absurd rfl h
  | append_singleton entries e ih =>
    rw [due_concat]
    rw [stepIds_concat] at h
    cases e with
    | step id parent => exact ⟨id, rfl⟩
    | savedHere after => exact ih (by simpa [Entry.stepId] using h)
    | restored target => exact ⟨target, rfl⟩

/-- Before the first step there is no mark. -/
theorem Chained.eq_nil {entries rest : List Entry} (h : Chained (entries ++ rest))
    (hnone : stepIds entries = []) : entries = [] := by
  cases entries with
  | nil => rfl
  | cons e entries =>
    have he := h [] e (entries ++ rest) rfl
    cases e with
    | step => cases hnone
    | savedHere =>
      cases he with
      | savedHere hlast => cases hlast
    | restored =>
      cases he with
      | restored hmem => cases hmem

/-! ### The tree -/

/-- The steps with their parents. -/
def steps (entries : List Entry) : List (String × Option String) :=
  entries.filterMap fun
    | .step id parent => some (id, parent)
    | _ => none

/-- The `j`th step bears the id that the `i`th names as its parent. -/
def ParentAt (entries : List Entry) (i j : Nat) : Prop :=
  ∃ p, (steps entries)[i]?.bind Prod.snd = some p ∧ (stepIds entries)[j]? = some p

/-- A step with what stands before it. -/
theorem exists_step {entries : List Entry} {i : Nat} {id : String} {parent : Option String}
    (h : (steps entries)[i]? = some (id, parent)) :
    ∃ before after, entries = before ++ .step id parent :: after ∧ (stepIds before).length = i := by
  induction entries generalizing i with
  | nil => cases h
  | cons e entries ih =>
    cases e with
    | step id' parent' =>
      cases i with
      | zero =>
        cases h
        exact ⟨[], entries, rfl, rfl⟩
      | succ i =>
        obtain ⟨before, after, rfl, hlen⟩ := ih (i := i) h
        exact ⟨.step id' parent' :: before, after, rfl, by simp [stepIds, Entry.stepId, ← hlen]⟩
    | savedHere after' =>
      obtain ⟨before, after, rfl, hlen⟩ := ih (i := i) h
      exact ⟨.savedHere after' :: before, after, rfl, hlen⟩
    | restored target =>
      obtain ⟨before, after, rfl, hlen⟩ := ih (i := i) h
      exact ⟨.restored target :: before, after, rfl, hlen⟩

/-- The first step has no parent, and every later one the id of an earlier step. -/
theorem Chained.parent {entries : List Entry} (h : Chained entries) {i : Nat} {id : String}
    {parent : Option String} (hi : (steps entries)[i]? = some (id, parent)) :
    (i = 0 ∧ parent = none) ∨ ∃ j p, j < i ∧ parent = some p ∧ (stepIds entries)[j]? = some p := by
  obtain ⟨before, after, rfl, hlen⟩ := exists_step hi
  cases h before _ after rfl with
  | step hparent =>
    cases hbefore : stepIds before with
    | nil =>
      left
      rw [h.eq_nil hbefore] at hparent
      rw [hbefore] at hlen
      exact ⟨hlen.symm, hparent⟩
    | cons first ids =>
      right
      obtain ⟨p, hdue⟩ := exists_due (by rw [hbefore]; simp)
      have hmem := h.of_append.mem_of_due hdue
      obtain ⟨j, hj⟩ := List.mem_iff_getElem?.1 hmem
      have hlt : j < (stepIds before).length := (List.getElem?_eq_some_iff.1 hj).1
      refine ⟨j, p, by omega, by rw [hparent, hdue], ?_⟩
      rw [stepIds_append, List.getElem?_append_left hlt]
      exact hj

/-- Where no id occurs twice, a name is the id of one step. -/
theorem existsUnique_of_mem {ids : List String} (h : ids.Nodup) {p : String} (hp : p ∈ ids) :
    ∃! j : Nat, ids[j]? = some p := by
  obtain ⟨j, hj⟩ := List.mem_iff_getElem?.1 hp
  refine ⟨j, hj, fun j' hj' => ?_⟩
  obtain ⟨hlt, -⟩ := List.getElem?_eq_some_iff.1 hj
  exact ((List.getElem?_inj hlt h).1 (hj.trans hj'.symm)).symm

/-- Every later step has a parent, an earlier step. -/
theorem Chained.exists_parentAt {entries : List Entry} (h : Chained entries) {i : Nat}
    (hi : i < (steps entries).length) (h₀ : i ≠ 0) : ∃ j, j < i ∧ ParentAt entries i j := by
  obtain ⟨⟨id, parent⟩, hstep⟩ : ∃ s, (steps entries)[i]? = some s :=
    ⟨_, List.getElem?_eq_getElem hi⟩
  rcases h.parent hstep with ⟨rfl, -⟩ | ⟨j, p, hlt, rfl, hj⟩
  · exact absurd rfl h₀
  · exact ⟨j, hlt, p, by rw [hstep]; rfl, hj⟩

/-- **Following parents ends at the root.** -/
theorem Chained.reaches_root {entries : List Entry} (h : Chained entries) {i : Nat}
    (hi : i < (steps entries).length) : Relation.ReflTransGen (ParentAt entries) i 0 := by
  induction i using Nat.strongRecOn with
  | ind i ih =>
    by_cases h₀ : i = 0
    · rw [h₀]
    · obtain ⟨j, hlt, hparent⟩ := h.exists_parentAt hi h₀
      exact .head hparent (ih j hlt (by omega))

/-! ### What the reader keeps -/

section

variable (r : Reader)

/-- What a line behind the header says of the chain. -/
def entryOf (line : String) : Option Entry :=
  match r.fromStr line with
  | .error _ => none
  | .ok v =>
    if onlyKey v = some "step" then
      ((member v "step").getStr "id").map fun id => .step id ((member v "step").getStr "parent")
    else if onlyKey v = some "mark" then
      if (member v "mark").getStr "kind" = some "saved-here" then
        ((member v "mark").getStr "after").map .savedHere
      else ((member v "mark").getStr "to").map .restored
    else none

variable {r}

theorem getStr_object {o : List (String × Value)} {key s : String} (h : index o key = .string s) :
    (Value.object o).getStr key = some s := by
  rw [index] at h
  rw [Value.getStr, Value.get]
  cases hlookup : o.lookup key with
  | none =>
    rw [hlookup] at h
    cases h
  | some v =>
    rw [hlookup] at h
    cases h
    rfl

/-- The chain knows what the entries say. -/
structure Linked (chain : Chain) (entries : List Entry) : Prop where
  seen : chain.seen = stepIds entries
  last : chain.last = lastStep entries
  parent : chain.parent = due entries

theorem readStep_eq_ok {step : Value} {chain chain' : Chain}
    (h : readStep r step chain = .ok chain') :
    ∃ id, step.getStr "id" = some id ∧ step.getStr "parent" = chain.parent ∧
      chain' = ⟨chain.actions, chain.seen ++ [id], some id, some id⟩ := by
  obtain ⟨_, hcheck, h⟩ := bind_eq_ok.1 h
  obtain ⟨_, hshape, -⟩ := bind_eq_ok.1 hcheck
  obtain ⟨o, rfl, -, hmembers⟩ := check_obj_eq_ok hshape
  have hid := hmembers ("id", Shape.ID) (by simp)
  rw [Shape.ID, check] at hid
  obtain ⟨id, hid, -⟩ := checkHex_eq_ok hid
  have hgot := getStr_object hid
  split_ifs at h with hne
  · cases h
  · cases h
    exact ⟨id, hgot, not_not.1 hne, by rw [hgot]; rfl⟩

theorem readMark_eq_ok {mark : Value} {chain chain' : Chain}
    (h : readMark r mark chain = .ok chain') :
    (∃ after, mark.getStr "kind" = some "saved-here" ∧ mark.getStr "after" = some after ∧
      chain.last = some after ∧ chain' = chain) ∨
    ∃ target, mark.getStr "kind" = some "restored" ∧ mark.getStr "to" = some target ∧
      target ∈ chain.seen ∧ chain' = { chain with parent := some target } := by
  obtain ⟨_, hshape, h⟩ := bind_eq_ok.1 h
  obtain ⟨o, w, members, rfl, hkind, hvariant, hmembers⟩ := check_tagged_eq_ok hshape
  have hw := getStr_object hkind
  rw [List.mem_cons, List.mem_singleton, Prod.mk.injEq, Prod.mk.injEq] at hvariant
  rcases hvariant with ⟨rfl, rfl⟩ | ⟨rfl, rfl⟩
  · left
    have hafter := hmembers ("after", Shape.ID) (by simp)
    rw [Shape.ID, check] at hafter
    obtain ⟨after, hafter, -⟩ := checkHex_eq_ok hafter
    have hgot := getStr_object hafter
    rw [hw, if_neg (show ¬some "saved-here" = some "restored" by simp)] at h
    split_ifs at h with hne
    · cases h
    · cases h
      have hlast : (Value.object o).getStr "after" = chain.last := by
        by_contra hdiffers
        exact hne ⟨rfl, hdiffers⟩
      exact ⟨after, hw, hgot, by rw [← hlast, hgot], rfl⟩
  · right
    have hto := hmembers ("to", Shape.ID) (by simp)
    rw [Shape.ID, check] at hto
    obtain ⟨target, hto, -⟩ := checkHex_eq_ok hto
    have hgot := getStr_object hto
    rw [hw, if_neg (show ¬(some "restored" = some "saved-here" ∧ _) by simp), if_pos rfl] at h
    dsimp only at h
    rw [hgot, Option.getD_some] at h
    by_cases hseen : target ∈ chain.seen
    · rw [if_neg (not_not.2 hseen)] at h
      cases h
      exact ⟨target, hw, hgot, hseen, rfl⟩
    · rw [if_pos hseen] at h
      cases h

/-- **One line**: the entry follows those before it, and the chain goes along. -/
theorem readLine_follows {raw : List UInt8} {chain chain' : Chain} {header header' : Option Header}
    {text : String} {entries : List Entry} (hlinked : Linked chain entries)
    (h : readLine r raw false chain header = .ok (text, chain', header')) :
    ∃ e, entryOf r text = some e ∧ Follows entries e ∧ Linked chain' (entries ++ [e]) := by
  obtain ⟨text', -, h⟩ := bind_eq_ok.1 h
  obtain ⟨v, hv, h⟩ := bind_eq_ok.1 h
  have hfrom : r.fromStr text' = .ok v := by
    rw [lineValue] at hv
    split at hv
    · cases hv
    · next v' hv' =>
      split_ifs at hv with hdup
      · cases hv
      · cases hv
        exact hv'
  rw [if_neg (by simp)] at h
  split_ifs at h with hstep hmark
  · obtain ⟨chain'', hread, h⟩ := bind_eq_ok.1 h
    cases h
    obtain ⟨id, hid, hparent, rfl⟩ := readStep_eq_ok hread
    refine ⟨.step id ((member v "step").getStr "parent"), ?_, .step ?_, ?_⟩
    · simp [entryOf, hfrom, hstep, hid]
    · rw [hparent, hlinked.parent]
    · refine ⟨?_, ?_, ?_⟩
      · rw [stepIds_concat, hlinked.seen]
        rfl
      · rw [lastStep, stepIds_concat]
        exact List.getLast?_concat.symm
      · rw [due_concat]
        rfl
  · obtain ⟨chain'', hread, h⟩ := bind_eq_ok.1 h
    cases h
    rcases readMark_eq_ok hread with ⟨after, hkind, hafter, hlast, rfl⟩ |
      ⟨target, hkind, hto, hseen, rfl⟩
    · refine ⟨.savedHere after, ?_, .savedHere ?_, ?_⟩
      · simp [entryOf, hfrom, hmark, hkind, hafter]
      · rw [← hlinked.last, hlast]
      · refine ⟨?_, ?_, ?_⟩
        · rw [stepIds_concat, hlinked.seen]
          exact (List.append_nil _).symm
        · rw [lastStep, stepIds_concat, hlinked.last]
          exact congrArg List.getLast? (List.append_nil _).symm
        · rw [due_concat, hlinked.parent]
          rfl
    · refine ⟨.restored target, ?_, .restored ?_, ?_⟩
      · simp [entryOf, hfrom, hmark, hkind, hto]
      · rw [← hlinked.seen]
        exact hseen
      · refine ⟨?_, ?_, ?_⟩
        · rw [stepIds_concat]
          exact hlinked.seen.trans (List.append_nil _).symm
        · rw [lastStep, stepIds_concat]
          exact hlinked.last.trans (congrArg List.getLast? (List.append_nil _).symm)
        · rw [due_concat]
          rfl
  · cases h

/-- What the loop carries, as entries: nothing is behind a header that is not there. -/
def Carries (r : Reader) (st : Reading) : Prop :=
  st.n = st.lines.length ∧ ∃ entries, st.lines.tail.map (entryOf r) = entries.map some ∧
    Chained entries ∧ Linked st.chain entries

theorem carries_start : Carries r Reading.start := ⟨rfl, [], rfl, chained_nil, rfl, rfl, rfl⟩

/-- The header says nothing of the chain but its `actions`. -/
theorem readLine_header {raw : List UInt8} {chain chain' : Chain} {header header' : Option Header}
    {text : String} (h : readLine r raw true chain header = .ok (text, chain', header')) :
    chain' = { chain with actions := chain'.actions } := by
  obtain ⟨text', -, h⟩ := bind_eq_ok.1 h
  obtain ⟨v, -, h⟩ := bind_eq_ok.1 h
  rw [if_pos rfl] at h
  obtain ⟨datasets, -, h⟩ := bind_eq_ok.1 h
  cases h
  rfl

theorem Carries.step {st st' : Reading} {raw : List UInt8} (h : Carries r st)
    (hstep : stepLine r st raw = .ok st') : Carries r st' := by
  obtain ⟨hn, entries, hentries, hchained, hlinked⟩ := h
  obtain ⟨text, chain, header, hline, -, rfl⟩ := stepLine_eq_ok hstep
  refine ⟨by simp [hn], ?_⟩
  cases hlines : st.lines with
  | nil =>
    rw [hlines] at hn hentries
    rw [hn] at hline
    have hnone : entries = [] := List.map_eq_nil_iff.1 hentries.symm
    rw [hnone] at hlinked
    refine ⟨[], rfl, chained_nil, ?_⟩
    show Linked chain []
    rw [readLine_header hline]
    exact ⟨hlinked.seen, hlinked.last, hlinked.parent⟩
  | cons first rest =>
    rw [hlines] at hn hentries
    have hfirst : (st.n == 0) = false := by
      rw [hn]
      rfl
    rw [hfirst] at hline
    obtain ⟨e, he, hfollows, hlinked'⟩ := readLine_follows hlinked hline
    refine ⟨entries ++ [e], ?_, hchained.concat hfollows, hlinked'⟩
    simp only [List.cons_append, List.tail_cons, List.map_append, List.map_cons, List.map_nil, he]
      at hentries ⊢
    rw [hentries]

variable (r)

/-- The entries of the kept lines, which chain. -/
theorem exists_entries (bytes : List UInt8) :
    ∃ entries, (recoverBytes r bytes).lines.tail.map (entryOf r) = entries.map some ∧
      Chained entries := by
  have hcarries : Carries r (longest (stepLine r) LF Reading.start bytes).state :=
    longest_state (fun h hstep => h.step hstep) carries_start bytes
  obtain ⟨-, entries, hentries, hchained, -⟩ := hcarries
  rw [recoverBytes_eq]
  exact ⟨entries, hentries, hchained⟩

/-- **The kept lines chain.**  The first step has no parent and no mark stands before it; a later one
has what is due as its parent; every parent and every `to` is the id of an earlier step, and every
`after` that of the last one.  Where no two steps share an id, each names exactly one of them, and
following parents ends at the root. -/
theorem recoverBytes_chained (bytes : List UInt8) :
    ∃ entries, (recoverBytes r bytes).lines.tail.map (entryOf r) = entries.map some ∧
      (∀ before id parent after, entries = before ++ .step id parent :: after →
        parent = due before ∧ (stepIds before = [] → before = [] ∧ parent = none) ∧
          (stepIds before ≠ [] → ∃ p ∈ stepIds before, parent = some p)) ∧
      (∀ before target after, entries = before ++ .restored target :: after →
        target ∈ stepIds before) ∧
      (∀ before saved after, entries = before ++ .savedHere saved :: after →
        lastStep before = some saved) ∧
      ((stepIds entries).Nodup →
        (∀ before id p after, entries = before ++ .step id (some p) :: after →
          ∃! j : Nat, (stepIds before)[j]? = some p) ∧
        (∀ before target after, entries = before ++ .restored target :: after →
          ∃! j : Nat, (stepIds before)[j]? = some target) ∧
        (∀ i j j', ParentAt entries i j → ParentAt entries i j' → j = j') ∧
        ∀ i, i < (steps entries).length → Relation.ReflTransGen (ParentAt entries) i 0) := by
  obtain ⟨entries, hentries, hchained⟩ := exists_entries r bytes
  have hrestored : ∀ before target after, entries = before ++ .restored target :: after →
      target ∈ stepIds before := by
    intro before target after heq
    cases hchained before _ after heq with
    | restored hmem => exact hmem
  have hsteps : ∀ before id parent after, entries = before ++ .step id parent :: after →
      parent = due before ∧ (stepIds before = [] → before = [] ∧ parent = none) ∧
        (stepIds before ≠ [] → ∃ p ∈ stepIds before, parent = some p) := by
    rintro before id parent after rfl
    cases hchained before _ after rfl with
    | step hparent =>
      refine ⟨hparent, fun hnone => ?_, fun hsome => ?_⟩
      · obtain rfl := hchained.eq_nil hnone
        exact ⟨rfl, hparent⟩
      · obtain ⟨p, hp⟩ := exists_due hsome
        exact ⟨p, hchained.of_append.mem_of_due hp, by rw [hparent, hp]⟩
  have hnodup : ∀ {before after}, (stepIds entries).Nodup → entries = before ++ after →
      (stepIds before).Nodup := by
    rintro before after h rfl
    rw [stepIds_append] at h
    exact h.of_append_left
  refine ⟨entries, hentries, hsteps, hrestored, ?_, fun hids => ⟨?_, ?_, ?_, ?_⟩⟩
  · intro before saved after heq
    cases hchained before _ after heq with
    | savedHere hlast => exact hlast
  · intro before id p after heq
    obtain ⟨-, hnone, hsome⟩ := hsteps before id _ after heq
    refine existsUnique_of_mem (hnodup hids heq) ?_
    by_cases hbefore : stepIds before = []
    · cases (hnone hbefore).2
    · obtain ⟨p', hmem, hp⟩ := hsome hbefore
      cases hp
      exact hmem
  · intro before target after heq
    exact existsUnique_of_mem (hnodup hids heq) (hrestored before target after heq)
  · rintro i j j' ⟨p, hi, hj⟩ ⟨p', hi', hj'⟩
    rw [hi] at hi'
    cases hi'
    obtain ⟨k, -, huniq⟩ := existsUnique_of_mem hids (List.mem_of_getElem? hj)
    rw [huniq j hj, huniq j' hj']
  · intro i hi
    exact hchained.reaches_root hi

end

/-! ### Steps with one id -/

/-- The line of `sample` is its entry. -/
theorem entryOf_sample {parent : Option String} {line : String}
    (hparent : parent = none ∨ parent = some sample.id)
    (hline : Renderer.toCanonicalString (sampleObject parent) = .ok line) :
    entryOf grammar line = some (.step sample.id parent) := by
  have hkey : onlyKey (sampleObject parent).value = some "step" := rfl
  have hid : (member (sampleObject parent).value "step").getStr "id" = some sample.id := rfl
  have hnames : (member (sampleObject parent).value "step").getStr "parent" = parent := by
    rcases hparent with hparent | hparent <;> rw [hparent] <;> rfl
  rw [entryOf, fromStr_grammar hline]
  dsimp only
  rw [if_pos hkey, hid, hnames]
  rfl

/-- Three steps of one id: nothing checks that an id is fresh, so the last of them names both of the
steps before it. -/
theorem recoverBytes_chained_sample : ∃ bytes id,
    (recoverBytes grammar bytes).failure = none ∧
    (recoverBytes grammar bytes).lines.tail.map (entryOf grammar) =
      [some (.step id none), some (.step id (some id)), some (.step id (some id))] ∧
    ¬(stepIds [.step id none, .step id (some id), .step id (some id)]).Nodup ∧
    ¬∃! j : Nat, (stepIds [.step id none, .step id (some id)])[j]? = some id := by
  obtain ⟨headerLine, hsize, hcreate⟩ := create_linkedFile
  obtain ⟨_, _, _, st, -, -, -, hholds⟩ := holds_create faithful_grammar hcreate
  -- The session is named, so that it is not computed.
  generalize hs₀ : Session.mk _ [] none = s₀ at hholds
  obtain ⟨st', hholds'⟩ :=
    hholds.run (fun _ => "") faithful_grammar [sampleCall, sampleCall, sampleCall]
  obtain ⟨-, hlines, hfailure, -⟩ := hholds'.recovers
  obtain ⟨s₁, hs₁⟩ : ∃ s₁, s₀.step grammar (fun _ => "") sampleCall = s₁ := ⟨_, rfl⟩
  obtain ⟨s₂, hs₂⟩ : ∃ s₂, s₁.step grammar (fun _ => "") sampleCall = s₂ := ⟨_, rfl⟩
  obtain ⟨s₃, hs₃⟩ : ∃ s₃, s₂.step grammar (fun _ => "") sampleCall = s₃ := ⟨_, rfl⟩
  have hrun : Session.run grammar (fun _ => "") s₀ [sampleCall, sampleCall, sampleCall] = s₃ := by
    rw [Session.run, List.foldl_cons, List.foldl_cons, List.foldl_cons, List.foldl_nil, hs₁, hs₂, hs₃]
  rw [hrun] at hlines hfailure
  have hu₀ : s₀.record.uri = linkedFile.uri := hs₀ ▸ rfl
  have hp₀ : s₀.record.lastStep = none := hs₀ ▸ rfl
  have hb₀ : s₀.record.history.bytes = headerLine.utf8ByteSize + 1 := hs₀ ▸ rfl
  obtain ⟨l₁, ht₁, ha₁, hf₁, hu₁, hp₁, hs₁', hb₁⟩ :=
    step_sampleCall hs₁ hu₀ (.inl hp₀) (hs₀ ▸ rfl) (by omega)
  obtain ⟨l₂, ht₂, ha₂, hf₂, hu₂, hp₂, hs₂', hb₂⟩ :=
    step_sampleCall hs₂ hu₁ (.inr hp₁) hs₁' (by omega)
  obtain ⟨l₃, ht₃, ha₃, hf₃, hu₃, hp₃, hs₃', hb₃⟩ :=
    step_sampleCall hs₃ hu₂ (.inr hp₂) hs₂' (by omega)
  have hf₀ : s₀.failed = none := hs₀ ▸ rfl
  have ha₀ : s₀.acknowledged = [] := hs₀ ▸ rfl
  have he₁ := entryOf_sample (.inl hp₀) ht₁
  have he₂ := entryOf_sample (.inr hp₁) ht₂
  have he₃ := entryOf_sample (.inr hp₂) ht₃
  rw [hf₃, hf₂, hf₁, hf₀] at hfailure
  rw [ha₃, ha₂, ha₁, ha₀, hf₃, hf₂, hf₁, hf₀] at hlines
  refine ⟨_, sample.id, hfailure not_false, ?_, by decide, ?_⟩
  · rw [hlines]
    simp only [wholeOf, List.nil_append, List.cons_append, List.append_nil, List.tail_cons,
      List.map_cons, List.map_nil, he₁, he₂, he₃, hp₀, hp₁, hp₂]
  · rintro ⟨j, -, hunique⟩
    have h₀ := hunique 0 rfl
    have h₁ := hunique 1 rfl
    omega

end SpatialIde.Kernel.SessionHistory
