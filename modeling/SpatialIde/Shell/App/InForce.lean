import SpatialIde.Shell.App
import SpatialIde.Shell.Streaming.ViewportStreamManager.Serial

/-! # The filter in force is the filter on the map

The manager serialises the queries by their generation.  Whoever waits for the latest request gets
the filter of that request when its stream starts, so that filter is committed in the step that puts
it on the map.
-/

namespace SpatialIde.Shell.App

open Canvas (Filter)
open Streaming Workspace
open Streaming.ViewportStreamManager (Await Answer Effect Goes Request Requested Serial Sink
  generation?_eq not_mem_filterMap_erase)

/-! ### What is on the map -/

/-- The last stream that was started, and the batches forwarded since. -/
structure OnMap where
  last : Option Sink
  since : List Sink

def OnMap.hear (map : OnMap) : Entry → OnMap
  | .started sink => ⟨some sink, []⟩
  | .forwarded sink => { map with since := map.since ++ [sink] }
  | .committed .. => map

def onMap (log : List Entry) : OnMap := log.foldl OnMap.hear ⟨none, []⟩

theorem onMap_snoc (log : List Entry) (entry : Entry) :
    onMap (log ++ [entry]) = (onMap log).hear entry := by
  rw [onMap, List.foldl_append]
  rfl

/-- **The filter on the map** is the one committed, that of the view and that of its cards. -/
structure InForce (s : State) : Prop where
  last : ∀ sink, (onMap s.log).last = some sink → sink.filter = s.activeFilter
  since : ∀ sink ∈ (onMap s.log).since, (onMap s.log).last = some sink
  view : s.activeFilter = s.view.filter
  combined : s.view.filter = combineClauses (viewClauses s.view)

/-! ### Who waits for what -/

section

variable {calls : List ApplyCall} {call : ApplyCall} {a b : Await} {filter : Option Filter}

def ApplyCall.generation? (call : ApplyCall) : Option Nat := call.await.bind Await.generation?

def holder (calls : List ApplyCall) (a : Await) : Option ApplyCall :=
  calls.find? fun call => call.await = some a

/-- The filter that is in force when the query of a call has been issued. -/
def ApplyCall.wants (call : ApplyCall) (filter : Option Filter) : Option Filter :=
  if call.recovering then filter else call.newFilter

/-- A query nobody waits for is of the filter in force. -/
def wanted (holder : Option ApplyCall) (filter : Option Filter) : Option Filter :=
  holder.elim filter (·.wants filter)

theorem find?_erase {α : Type} [DecidableEq α] {p : α → Bool} {x : α} (h : p x = false)
    (xs : List α) : (xs.erase x).find? p = xs.find? p := by
  induction xs with
  | nil => rfl
  | cons y xs ih =>
    by_cases hxy : y = x
    · subst hxy
      simp [h]
    · rw [List.erase_cons_tail (by simpa using hxy), List.find?_cons, List.find?_cons, ih]

theorem holder_erase (h : call.await ≠ some a) : holder (calls.erase call) a = holder calls a := by
  rw [holder, find?_erase (by simpa using h), holder]

theorem holder_snoc_of_ne (h : call.await ≠ some a) :
    holder (calls ++ [call]) a = holder calls a := by
  simp [holder, List.find?_append, h]

theorem holder_eq_none : holder calls a = none ↔ ∀ call ∈ calls, call.await ≠ some a := by
  simp [holder]

theorem holder_eq_some (h : holder calls a = some call) : call ∈ calls ∧ call.await = some a :=
  ⟨List.mem_of_find?_eq_some h, by simpa using List.find?_some h⟩

theorem holder_snoc_of_none (h : holder calls a = none) (hcall : call.await = some a) :
    holder (calls ++ [call]) a = some call := by
  rw [holder] at h ⊢
  simp [List.find?_append, h, hcall]

/-- The calls but the one that waits. -/
def others (calls : List ApplyCall) (a : Await) : List ApplyCall :=
  match holder calls a with
  | none => calls
  | some call => calls.erase call

theorem others_sublist (calls : List ApplyCall) (a : Await) : (others calls a).Sublist calls := by
  unfold others
  cases holder calls a with
  | none => exact .refl _
  | some call => exact List.erase_sublist

/-- The call that waited goes on waiting. -/
def goOn (calls : List ApplyCall) (a : Await) (next : Option Await) : List ApplyCall :=
  others calls a ++ ((holder calls a).bind fun call =>
    next.map fun b => { call with await := some b }).toList

theorem goOn_none (calls : List ApplyCall) (a : Await) : goOn calls a none = others calls a := by
  unfold goOn
  cases holder calls a <;> exact List.append_nil _

/-- The queries and those who wait for them, where a filter is on the map. -/
structure Plays (m : ViewportStreamManager.State) (log : List Entry) (calls : List ApplyCall)
    (filter : Option Filter) : Prop where
  serial : Serial (onMap log).last m
  last : ∀ sink, (onMap log).last = some sink → sink.filter = filter
  since : ∀ sink ∈ (onMap log).since, (onMap log).last = some sink
  generations_nodup : (calls.filterMap ApplyCall.generation?).Nodup
  held : ∀ call ∈ calls, ∀ a g, call.await = some a → a.generation? = some g → a ∈ m.awaiting
  /-- The latest request is of the filter that will be in force. -/
  mine : ∀ a ∈ m.awaiting, ∀ r, a.request? = some r → r.myGeneration = m.generation →
    r.filter = wanted (holder calls a) filter

variable {m m' : ViewportStreamManager.State} {log : List Entry}

theorem mem_generations {g : Nat} : g ∈ calls.filterMap ApplyCall.generation? ↔
    ∃ call ∈ calls, ∃ a, call.await = some a ∧ a.generation? = some g := by
  simp [ApplyCall.generation?, Option.bind_eq_some_iff]

theorem Plays.generations_le (h : Plays m log calls filter) :
    ∀ g ∈ calls.filterMap ApplyCall.generation?, g ≤ m.generation := by
  intro g hg
  obtain ⟨call, hcall, a, ha, hag⟩ := mem_generations.1 hg
  exact h.serial.generations_le g (List.mem_filterMap.2 ⟨a, h.held call hcall a g ha hag, hag⟩)

/-! ### A request -/

/-- **A request** that is not returned from at once is the latest, and of the filter that its
holder wants. -/
theorem Plays.issue (h : Plays m log calls filter) (bbox : Option Canvas.Bbox)
    (bboxCrs : Option String) (nowMs : Int) (held : Option ApplyCall) :
    (∃ outcome, (∀ k, outcome ≠ .issued k) ∧
      Attempt.of m (m.requestViewport bbox bboxCrs nowMs (wanted held filter)) =
        .returned outcome ∧
      Plays (m.requestViewport bbox bboxCrs nowMs (wanted held filter)) log calls filter) ∨
    ∃ next, Attempt.of m (m.requestViewport bbox bboxCrs nowMs (wanted held filter)) =
        .pending next ∧
      Plays (m.requestViewport bbox bboxCrs nowMs (wanted held filter)) log
        (calls ++ held.toList.map fun call => { call with await := some next }) filter := by
  have hserial := h.serial.requestViewport bbox bboxCrs nowMs (wanted held filter)
  have hrequested := ViewportStreamManager.requested m bbox bboxCrs nowMs (wanted held filter)
  generalize m.requestViewport bbox bboxCrs nowMs (wanted held filter) = m' at *
  cases hrequested with
  | returned outcome houtcome =>
    have hof : Attempt.of m (m.tell (.returned outcome)) = .returned outcome := by
      simp [Attempt.of, ViewportStreamManager.State.tell]
    exact .inl ⟨outcome, houtcome, hof, { h with serial := hserial }⟩
  | awaits _ request next hrequest hnext hawaiting hgeneration hstreams hcalls =>
    obtain ⟨hlatest, hfilter⟩ := hrequest
    have hgen : next.generation? = some (m.generation + 1) := by
      rw [generation?_eq, hnext, Option.map_some, hlatest]
    have hfresh : m.generation + 1 ∉ calls.filterMap ApplyCall.generation? :=
      fun hin => Nat.not_succ_le_self _ (h.generations_le _ hin)
    have hnone : holder calls next = none :=
      holder_eq_none.2 fun call hcall ha =>
        hfresh (mem_generations.2 ⟨call, hcall, next, ha, hgen⟩)
    have hof : Attempt.of m m' = .pending next := by
      simp [Attempt.of, hawaiting]
    refine .inr ⟨next, hof, {
      h with
      serial := hserial
      generations_nodup := ?_
      held := ?_
      mine := ?_ }⟩
    · cases held with
      | none => simpa using h.generations_nodup
      | some call =>
        rw [List.filterMap_append]
        refine h.generations_nodup.append (by simp [ApplyCall.generation?, hgen]) ?_
        simpa [ApplyCall.generation?, hgen] using hfresh
    · intro call hcall a g ha hg
      rw [hawaiting]
      rcases List.mem_append.1 hcall with hcall | hcall
      · exact List.mem_append_left _ (h.held call hcall a g ha hg)
      · obtain ⟨c, -, rfl⟩ := List.mem_map.1 hcall
        cases ha
        exact Lib.mem_snoc
    · intro a ha r hr hlast
      rw [hawaiting] at ha
      rcases List.mem_append.1 ha with ha | ha
      · -- What was under way is not the latest any more.
        have hle := h.serial.generations_le r.myGeneration (List.mem_filterMap.2 ⟨a, ha, by
          rw [generation?_eq, hr, Option.map_some]⟩)
        omega
      · rw [List.mem_singleton.1 ha, hnext] at hr
        cases hr
        rw [hfilter, List.mem_singleton.1 ha]
        cases held with
        | none => rw [Option.toList_none, List.map_nil, List.append_nil, hnone]
        | some call =>
          rw [Option.toList_some, List.map_singleton, holder_snoc_of_none hnone rfl]
          rfl

/-! ### An answer -/

/-- Nobody else waits for the request an answer is for. -/
theorem Plays.not_mem_others (h : Plays m log calls filter) (ha : a ∈ m.awaiting) {g : Nat}
    (hg : a.generation? = some g) : g ∉ (others calls a).filterMap ApplyCall.generation? := by
  unfold others
  cases hholder : holder calls a with
  | none =>
    intro hin
    obtain ⟨call, hcall, b, hb, hbg⟩ := mem_generations.1 hin
    have hne : b ≠ a := by
      rintro rfl
      exact holder_eq_none.1 hholder call hcall hb
    have hmem : b ∈ m.awaiting.erase a :=
      (List.mem_erase_of_ne hne).2 (h.held call hcall b g hb hbg)
    exact not_mem_filterMap_erase h.serial.generations_nodup ha hg
      (List.mem_filterMap.2 ⟨b, hmem, hbg⟩)
  | some call =>
    obtain ⟨hcall, hawait⟩ := holder_eq_some hholder
    apply not_mem_filterMap_erase h.generations_nodup hcall
    rw [ApplyCall.generation?, hawait]
    exact hg

/-- Another request's generation is another. -/
theorem Plays.ne_of_mem_erase (h : Plays m log calls filter) (ha : a ∈ m.awaiting)
    (hb : b ∈ m.awaiting.erase a) {g : Nat} (hg : b.generation? = some g) :
    a.generation? ≠ some g :=
  fun hag => not_mem_filterMap_erase h.serial.generations_nodup ha hag
    (List.mem_filterMap.2 ⟨b, hb, hg⟩)

theorem Plays.goOn_nodup (h : Plays m log calls filter) (ha : a ∈ m.awaiting) {next : Option Await}
    (hnext : ∀ b, next = some b → b.generation? = none ∨ b.generation? = a.generation?) :
    ((goOn calls a next).filterMap ApplyCall.generation?).Nodup := by
  have hothers := h.generations_nodup.sublist ((others_sublist calls a).filterMap _)
  unfold goOn
  rw [List.filterMap_append]
  cases holder calls a with
  | none => simpa using hothers
  | some call =>
    cases next with
    | none => simpa using hothers
    | some b =>
      cases hg : b.generation? with
      | none => simpa [ApplyCall.generation?, hg] using hothers
      | some g =>
        have hag : a.generation? = some g := by
          rcases hnext b rfl with hn | hn
          · rw [hg] at hn
            cases hn
          · rw [← hn, hg]
        have hnot := h.not_mem_others ha hag
        refine hothers.append (by simp [ApplyCall.generation?, hg]) ?_
        simpa [ApplyCall.generation?, hg] using hnot

theorem Plays.goOn_held (h : Plays m log calls filter) (ha : a ∈ m.awaiting) (next : Option Await) :
    ∀ call ∈ goOn calls a next, ∀ b g, call.await = some b → b.generation? = some g →
      b ∈ m.awaiting.erase a ++ next.toList := by
  intro call hcall b g hb hg
  rcases List.mem_append.1 hcall with hcall | hcall
  · have hne : b ≠ a := by
      rintro rfl
      exact h.not_mem_others ha hg (mem_generations.2 ⟨call, hcall, b, hb, hg⟩)
    have hmem := h.held call ((others_sublist calls a).subset hcall) b g hb hg
    exact List.mem_append_left _ ((List.mem_erase_of_ne hne).2 hmem)
  · rw [Option.mem_toList, Option.bind_eq_some_iff] at hcall
    obtain ⟨c, -, hc⟩ := hcall
    obtain ⟨d, rfl, rfl⟩ := Option.map_eq_some_iff.1 hc
    cases hb
    exact Lib.mem_snoc

theorem holder_others (h : a ≠ b) : holder (others calls a) b = holder calls b := by
  unfold others
  cases hholder : holder calls a with
  | none => rfl
  | some call =>
    apply holder_erase
    rw [(holder_eq_some hholder).2]
    exact fun heq => h (Option.some.inj heq)

/-- Who waits for another request still waits for it. -/
theorem Plays.holder_goOn (h : Plays m log calls filter) (ha : a ∈ m.awaiting)
    {next : Option Await}
    (hnext : ∀ b, next = some b → b.generation? = none ∨ b.generation? = a.generation?)
    (hb : b ∈ m.awaiting.erase a) {g : Nat} (hg : b.generation? = some g) :
    holder (goOn calls a next) b = holder calls b := by
  have hag := h.ne_of_mem_erase ha hb hg
  have hne : a ≠ b := by
    rintro rfl
    exact hag hg
  rw [goOn]
  cases holder calls a with
  | none => rw [Option.bind_none, Option.toList_none, List.append_nil, holder_others hne]
  | some call =>
    cases next with
    | none =>
      rw [Option.bind_some, Option.map_none, Option.toList_none, List.append_nil, holder_others hne]
    | some c =>
      have hcb : c ≠ b := by
        rintro rfl
        rcases hnext c rfl with hn | hn
        · rw [hn] at hg
          cases hg
        · exact hag (hn ▸ hg)
      rw [Option.bind_some, Option.map_some, Option.toList_some,
        holder_snoc_of_ne (by simpa using hcb), holder_others hne]

/-- Who waited for a request waits for what comes next of it. -/
theorem Plays.wanted_goOn (h : Plays m log calls filter) (ha : a ∈ m.awaiting) {g : Nat}
    (hag : a.generation? = some g) (hg : b.generation? = some g) :
    wanted (holder (goOn calls a (some b)) b) filter = wanted (holder calls a) filter := by
  have hnone : holder (others calls a) b = none :=
    holder_eq_none.2 fun call hcall hb =>
      h.not_mem_others ha hag (mem_generations.2 ⟨call, hcall, b, hb, hg⟩)
  rw [goOn]
  cases holder calls a with
  | none => rw [Option.bind_none, Option.toList_none, List.append_nil, hnone]
  | some call =>
    rw [Option.bind_some, Option.map_some, Option.toList_some, holder_snoc_of_none hnone rfl]
    rfl

/-- What an answer came to: the wait goes on, it is over without a stream, or its stream is the last
one started. -/
inductive Answered (m : ViewportStreamManager.State) (log : List Entry) (calls : List ApplyCall)
    (filter : Option Filter) (a : Await) (answer : Answer) (m' : ViewportStreamManager.State) : Prop
  | waits (next : Await) (hof : Attempt.of { m with awaiting := m.awaiting.erase a } m' =
      .pending next) (hheard : heard m m' = [])
      (hplays : Plays m' log (goOn calls a (some next)) filter)
  | returned (attempt : Attempt) (hof : Attempt.of { m with awaiting := m.awaiting.erase a } m' =
      attempt) (hover : (∀ next, attempt ≠ .pending next) ∧ ∀ k, attempt ≠ .returned (.issued k))
      (hheard : heard m m' = []) (hplays : Plays m' log (others calls a) filter)
  | started (request : Request) (k : String) (attach : DataPlaneAttach)
      (hawait : a = .dataPlaneAttach request k) (hanswer : answer = .attached attach)
      (hlatest : request.myGeneration = m.generation) (hended : m.sessionEnded = false)
      (hof : Attempt.of { m with awaiting := m.awaiting.erase a } m' = .returned (.issued k))
      (hheard : heard m m' = [.started ⟨k, request.filter⟩])
      (hfilter : request.filter = wanted (holder calls a) filter)
      (hplays : Plays m' (log ++ [.started ⟨k, request.filter⟩]) (others calls a) request.filter)

/-- Only the answer of an attach in time starts a stream. -/
theorem attached_of_started {request : Request} {k : String} {answer : Answer} {sink : Sink}
    (hstep : ViewportStreamManager.step m (.answer (.dataPlaneAttach request k) answer) = some m')
    (hstreams : m'.streams = m.streams ++ [sink]) :
    (∃ attach, answer = .attached attach) ∧ m.sessionEnded = false := by
  have hlonger : m'.streams ≠ m.streams := by
    rw [hstreams]
    simp
  unfold ViewportStreamManager.step at hstep
  dsimp only at hstep
  split_ifs at hstep
  cases answer with
  | attached attach =>
    refine ⟨⟨attach, rfl⟩, ?_⟩
    by_contra hended
    cases hstep
    unfold ViewportStreamManager.State.afterAttach at hlonger
    rw [if_pos (by simpa using hended)] at hlonger
    exact hlonger rfl
  | rejected =>
    cases hstep
    exact absurd rfl hlonger
  | _ => cases hstep

theorem filterMap_forwarded {told : List Effect}
    (h : ∀ e ∈ told, e.isBatch = false) : told.filterMap Entry.forwarded? = [] := by
  rw [List.filterMap_eq_nil_iff]
  intro e he
  have hbatch := h e he
  cases e <;> first | rfl | cases hbatch

theorem generation?_of_request {r : Request} (hr : b.request? = some r) :
    b.generation? = some r.myGeneration := by
  rw [generation?_eq, hr, Option.map_some]

section Goes

variable {next : Option Await} {told : List Effect}

/-- What comes next of a request is of its generation. -/
theorem generation?_of_goes (hgoes : Goes m a m' next told) (b : Await)
    (hb : next = some b) : b.generation? = none ∨ b.generation? = a.generation? := by
  rw [generation?_eq, generation?_eq]
  rcases hgoes.request b hb with hn | hn
  · exact .inl (by rw [hn, Option.map_none])
  · exact .inr (by rw [hn])

/-- The request goes on, or it is over without a stream. -/
theorem Plays.goes (h : Plays m log calls filter)
    (hgoes : Goes m a m' next told) (hserial : Serial (onMap log).last m') :
    Plays m' log (goOn calls a next) filter :=
  have hnext := generation?_of_goes hgoes
  { h with
    serial := hserial
    generations_nodup := h.goOn_nodup hgoes.mem hnext
    held := by
      rw [hgoes.awaiting]
      exact h.goOn_held hgoes.mem next
    mine := by
      intro b hb r hr hmine
      rw [hgoes.generation] at hmine
      rw [hgoes.awaiting] at hb
      rcases List.mem_append.1 hb with hb | hb
      · rw [h.holder_goOn hgoes.mem hnext hb (generation?_of_request hr)]
        exact h.mine b (List.mem_of_mem_erase hb) r hr hmine
      · obtain rfl := Option.mem_toList.1 hb
        have hrequest : a.request? = some r := by
          rcases hgoes.request b rfl with hn | hn
          · rw [hn] at hr
            cases hr
          · rw [← hn, hr]
        rw [h.wanted_goOn hgoes.mem (generation?_of_request hrequest) (generation?_of_request hr)]
        exact h.mine a hgoes.mem r hrequest hmine }

/-- The stream of the request that waits to attach is the one on the map. -/
theorem Plays.begin (h : Plays m log calls filter) {request : Request} {k : String}
    (hgoes : Goes m (.dataPlaneAttach request k) m' none told)
    (hlatest : request.myGeneration = m.generation)
    (hserial : Serial (some ⟨k, request.filter⟩) m') :
    Plays m' (log ++ [.started ⟨k, request.filter⟩]) (others calls (.dataPlaneAttach request k))
      request.filter := by
  have hnodup := h.goOn_nodup hgoes.mem (generation?_of_goes hgoes)
  have hheld := h.goOn_held hgoes.mem none
  rw [goOn_none] at hnodup hheld
  exact {
    serial := by
      rw [onMap_snoc]
      exact hserial
    last := by
      intro sink hsink
      rw [onMap_snoc] at hsink
      cases hsink
      rfl
    since := by
      rw [onMap_snoc]
      nofun
    generations_nodup := hnodup
    held := by
      rw [hgoes.awaiting]
      exact hheld
    mine := by
      intro b hb r hr hmine
      rw [hgoes.awaiting, Option.toList_none, List.append_nil] at hb
      rw [hgoes.generation] at hmine
      have hne := h.ne_of_mem_erase hgoes.mem hb (generation?_of_request hr)
      rw [hmine, ← hlatest] at hne
      exact absurd rfl hne }

end Goes

theorem Plays.answer (h : Plays m log calls filter) {answer : Answer}
    (hstep : ViewportStreamManager.step m (.answer a answer) = some m') :
    Answered m log calls filter a answer m' := by
  obtain ⟨next, told, hgoes⟩ := h.serial.goes hstep
  have hserial := h.serial.answer hstep hgoes
  have hquiet := filterMap_forwarded hgoes.quiet
  rcases hgoes.started with ⟨hstreams, hissued⟩ | ⟨request, k, attach, rfl, hlatest, hstreams,
    rfl, htold⟩
  · have hserial' : Serial (onMap log).last m' := by
      rcases hserial with ⟨-, hs⟩ | ⟨sink, heq, -⟩
      · exact hs
      · rw [hstreams] at heq
        simp at heq
    have hheard : heard m m' = [] := by
      simp [heard, hstreams, hgoes.calls, hquiet]
    have hplays := h.goes hgoes hserial'
    cases next with
    | some b =>
      refine .waits b ?_ hheard hplays
      simp [Attempt.of, hgoes.awaiting]
    | none =>
      rw [goOn_none] at hplays
      refine .returned _ rfl ⟨?_, ?_⟩ hheard hplays
      · intro b
        simp only [Attempt.of, hgoes.awaiting, hgoes.calls, Option.toList_none, List.append_nil,
          List.drop_length]
        split <;> nofun
      · intro k hk
        simp only [Attempt.of, hgoes.awaiting, hgoes.calls, Option.toList_none, List.append_nil,
          List.drop_length, List.drop_left] at hk
        split at hk
        · next outcome hlast =>
          cases hk
          exact hissued k rfl hlast
        · cases hk
  · obtain ⟨⟨attach', hanswer⟩, hended⟩ := attached_of_started hstep hstreams
    have hserial' : Serial (some ⟨k, request.filter⟩) m' := by
      rcases hserial with ⟨heq, -⟩ | ⟨sink, heq, hs⟩
      · rw [hstreams] at heq
        simp at heq
      · rw [hstreams, List.append_cancel_left_eq, List.singleton_inj] at heq
        rw [heq]
        exact hs
    have hof : Attempt.of { m with awaiting := m.awaiting.erase (.dataPlaneAttach request k) } m' =
        .returned (.issued k) := by
      simp [Attempt.of, hgoes.awaiting, hgoes.calls, htold]
    have hheard : heard m m' = [.started ⟨k, request.filter⟩] := by
      simp [heard, hstreams, hgoes.calls, hquiet]
    exact .started request k attach' rfl hanswer hlatest hended hof hheard
      (h.mine _ hgoes.mem request rfl hlatest) (h.begin hgoes hlatest hserial')

/-! ### Everything else -/

theorem Plays.manage (h : Plays m log calls filter) {e : ViewportStreamManager.Event}
    (hstep : ViewportStreamManager.step m e = some m')
    (hrequest : ∀ bbox bboxCrs nowMs filter, e ≠ .requestViewport bbox bboxCrs nowMs filter)
    (hanswer : ∀ a answer, e ≠ .answer a answer) : Plays m' (log ++ heard m m') calls filter := by
  have hcarries := h.serial.carries_step hstep hrequest hanswer
  have hstreams : m'.streams.drop m.streams.length = [] := List.drop_eq_nil_of_le hcarries.streams
  have hplays : Plays m' log calls filter :=
    { h with
      serial := hcarries.serial
      held := fun call hcall b g hb hg => hcarries.kept (h.held call hcall b g hb hg)
      mine := by
        intro b hb r hr hmine
        rcases hcarries.awaiting b hb with hb | hnone
        · have hle := h.serial.generations_le r.myGeneration (List.mem_filterMap.2 ⟨b, hb, by
            rw [generation?_eq, hr, Option.map_some]⟩)
          have hge := hcarries.generation
          exact h.mine b hb r hr (by omega)
        · rw [hnone] at hr
          cases hr }
  rcases hcarries.calls with ⟨told, hcalls, hquiet⟩ | ⟨sink, n, payload, hlast, hcalls⟩
  · have hheard : heard m m' = [] := by
      simp [heard, hstreams, hcalls, filterMap_forwarded hquiet]
    rw [hheard, List.append_nil]
    exact hplays
  · have hheard : heard m m' = [.forwarded sink] := by
      simp [heard, hstreams, hcalls, Entry.forwarded?]
    rw [hheard]
    exact { hplays with
      serial := by
        rw [onMap_snoc]
        exact hplays.serial
      last := by
        rw [onMap_snoc]
        exact hplays.last
      since := by
        rw [onMap_snoc]
        exact Lib.forall_snoc hplays.since hlast }

end

/-! ### The view -/

/-- Whatever the view, the transition sets this filter and cards that combine into it. -/
def SetsTo (t : ViewTransition) (filter : Option Filter) : Prop :=
  ∀ view, (applyViewTransition view t).filter = filter ∧
    combineClauses (viewClauses (applyViewTransition view t)) = filter

theorem setsTo_filterApply (text : String) :
    SetsTo (.filterApply (predicateTextToFilter text)) (predicateTextToFilter text) := by
  intro view
  unfold predicateTextToFilter
  split_ifs
  · exact ⟨rfl, rfl⟩
  · exact ⟨rfl, combineClauses_alone rfl⟩

theorem setsTo_filterClausesSet (clauses : List FilterClause) :
    SetsTo (.filterClausesSet clauses) (combineClauses clauses) := fun _ => ⟨rfl, rfl⟩

/-- The filter of a view, its cards and the next number. -/
def filterPart (view : ViewState) : Option Filter × List FilterClause × Nat :=
  (view.filter, viewClauses view, viewNextClauseNumber view)

theorem filterPart_ite {p : Prop} [Decidable p] {view v w : ViewState}
    (hv : filterPart v = filterPart view) (hw : filterPart w = filterPart view) :
    filterPart (if p then v else w) = filterPart view := by
  split_ifs
  · exact hv
  · exact hw

/-- The other transitions leave the filter and the cards as they are. -/
theorem filterPart_applyViewTransition (view : ViewState) {t : ViewTransition}
    (h : setsFilter t = false) : filterPart (applyViewTransition view t) = filterPart view := by
  cases t with
  | filterApply filter => cases h
  | filterClausesSet clauses => cases h
  | styleSet set => rfl
  | toolSet tool => exact filterPart_ite rfl rfl
  | modeSet mode => exact filterPart_ite rfl rfl
  | selectionApply click =>
    show filterPart (applySelection view click) = _
    unfold applySelection
    split
    · rfl
    · rfl
    · exact filterPart_ite rfl rfl
  | selectionClear => exact filterPart_ite rfl rfl
  | selectionEnd reason dropped => exact filterPart_ite rfl rfl
  | inspectSet feature =>
    cases feature with
    | none => exact filterPart_ite rfl rfl
    | some feature => rfl
  | inspectPin pinned => exact filterPart_ite rfl rfl

/-! ### The invariant -/

/-- The state of the shell beside its queries. -/
structure Based (s : State) : Prop where
  sets : ∀ call ∈ s.calls, SetsTo call.transition call.newFilter
  view : s.activeFilter = s.view.filter
  combined : s.view.filter = combineClauses (viewClauses s.view)

structure Sound (s : State) : Prop extends Based s where
  plays : Plays s.manager s.log s.calls s.activeFilter

variable {s s' t : State} {call : ApplyCall} {attempt : Attempt} {nowMs : Int}

theorem Sound.inForce (h : Sound s) : InForce s :=
  ⟨h.plays.last, h.plays.since, h.view, h.combined⟩

/-- Nothing is committed, and whoever waits waited before or has this transition. -/
structure Stays (s s' : State) (t : ViewTransition) : Prop where
  activeFilter : s'.activeFilter = s.activeFilter
  view : s'.view = s.view
  rendered : s'.rendered = s.rendered
  log : s'.log = s.log
  calls : ∀ call ∈ s'.calls, call ∈ s.calls ∨ call.transition = t

theorem stays_finish (s : State) (call : ApplyCall) : Stays s (s.finish call) call.transition :=
  ⟨rfl, rfl, rfl, rfl, fun _ hc => .inl hc⟩

theorem stays_await (s : State) (call : ApplyCall) {call' : ApplyCall}
    (h : call'.transition = call.transition) :
    Stays s { s with calls := s.calls ++ [call'] } call.transition :=
  ⟨rfl, rfl, rfl, rfl, Lib.forall_snoc (fun _ hc => .inl hc) (.inr h)⟩

/-- While a retry waits, nothing is asked for it. -/
theorem Plays.wait {m : ViewportStreamManager.State} {log : List Entry} {calls : List ApplyCall}
    {filter : Option Filter} (h : Plays m log calls filter) (hcall : call.await = none) :
    Plays m log (calls ++ [call]) filter :=
  { h with
    generations_nodup := by
      simpa [ApplyCall.generation?, hcall] using h.generations_nodup
    held := by
      refine Lib.forall_snoc h.held fun a g ha => ?_
      rw [hcall] at ha
      cases ha
    mine := by
      intro a ha r hr hmine
      rw [holder_snoc_of_ne (by rw [hcall]; nofun)]
      exact h.mine a ha r hr hmine }

/-- A query of the filter in force that nobody waits for. -/
theorem Sound.keeps_issue (h : Sound s) (bbox : Option Canvas.Bbox) (nowMs : Int) :
    Sound (s.issueViewportQuery bbox s.activeFilter nowMs) := by
  refine ⟨⟨h.sets, h.view, h.combined⟩, ?_⟩
  rcases h.plays.issue bbox none nowMs none with ⟨_, -, -, hplays⟩ | ⟨_, -, hplays⟩
  · exact hplays
  · rw [Option.toList_none, List.map_nil, List.append_nil] at hplays
    exact hplays

/-- A call that was not issued goes on, and nothing is committed. -/
theorem Based.proceed (h : Based s) (hcall : SetsTo call.transition call.newFilter)
    (hissued : ∀ k, attempt ≠ .returned (.issued k))
    (hpending : ∀ a, attempt = .pending a →
      Plays s.manager s.log (s.calls ++ [{ call with await := some a }]) s.activeFilter)
    (hover : (∀ a, attempt ≠ .pending a) → Plays s.manager s.log s.calls s.activeFilter) :
    Sound (s.proceed call attempt) ∧ Stays s (s.proceed call attempt) call.transition := by
  have hfinish : (∀ a, attempt ≠ .pending a) →
      Sound (s.finish call) ∧ Stays s (s.finish call) call.transition :=
    fun hnot => ⟨⟨⟨h.sets, h.view, h.combined⟩, hover hnot⟩, stays_finish s call⟩
  cases attempt with
  | pending a =>
    refine ⟨⟨⟨?_, h.view, h.combined⟩, hpending a rfl⟩, stays_await s call rfl⟩
    exact Lib.forall_snoc h.sets hcall
  | threw => exact hfinish nofun
  | returned outcome =>
    cases outcome with
    | issued k => exact absurd rfl (hissued k)
    | throttled =>
      simp only [State.proceed]
      split_ifs
      · exact hfinish nofun
      · refine ⟨⟨⟨?_, h.view, h.combined⟩, (hover nofun).wait rfl⟩, stays_await s call rfl⟩
        exact Lib.forall_snoc h.sets hcall
    | superseded => exact hfinish nofun
    | stopped => exact hfinish nofun
    | sessionEnded => exact hfinish nofun

/-- An attempt asks for the filter its call wants. -/
theorem attempt_eq (s : State) (call : ApplyCall) (nowMs : Int) : ∃ bbox,
    s.attempt call nowMs =
      (s.issueViewportQuery bbox (wanted (some call) s.activeFilter) nowMs).proceed call
        (.of s.manager (s.manager.requestViewport bbox none nowMs
          (wanted (some call) s.activeFilter))) := by
  obtain ⟨newFilter, transition, clauseStep, recovering, retried, await⟩ := call
  cases recovering with
  | false => exact ⟨none, rfl⟩
  | true => exact ⟨s.lastViewportBbox, rfl⟩

/-- **An attempt commits nothing**: the stream of its query is not started yet. -/
theorem Sound.keeps_attempt (h : Sound s) (hcall : SetsTo call.transition call.newFilter) (nowMs : Int) :
    Sound (s.attempt call nowMs) ∧ Stays s (s.attempt call nowMs) call.transition := by
  obtain ⟨bbox, heq⟩ := attempt_eq s call nowMs
  rw [heq]
  have hbased : Based (s.issueViewportQuery bbox (wanted (some call) s.activeFilter) nowMs) :=
    ⟨h.sets, h.view, h.combined⟩
  have hstays : ∀ t : State,
      Stays (s.issueViewportQuery bbox (wanted (some call) s.activeFilter) nowMs) t
        call.transition → Stays s t call.transition :=
    fun t ht => ⟨ht.activeFilter, ht.view, ht.rendered, ht.log, ht.calls⟩
  rcases h.plays.issue bbox none nowMs (some call) with ⟨outcome, houtcome, hof, hplays⟩ |
    ⟨next, hof, hplays⟩
  · rw [hof]
    have hissued : ∀ k, Attempt.returned outcome ≠ .returned (.issued k) :=
      fun k hk => houtcome k (Attempt.returned.inj hk)
    have hgoes := hbased.proceed hcall hissued nofun fun _ => hplays
    exact ⟨hgoes.1, hstays _ hgoes.2⟩
  · rw [hof]
    have hissued : ∀ k, Attempt.pending next ≠ .returned (.issued k) := nofun
    have hgoes := hbased.proceed hcall hissued (fun a ha => Attempt.pending.inj ha ▸ hplays)
      fun hnot => absurd rfl (hnot next)
    exact ⟨hgoes.1, hstays _ hgoes.2⟩

theorem Based.settle (h : Based s) (hcall : SetsTo call.transition call.newFilter)
    (hissued : ∀ k, attempt ≠ .returned (.issued k))
    (hpending : ∀ a, attempt = .pending a →
      Plays s.manager s.log (s.calls ++ [{ call with await := some a }]) s.activeFilter)
    (hover : (∀ a, attempt ≠ .pending a) → Plays s.manager s.log s.calls s.activeFilter)
    (refused : Bool) (nowMs : Int) :
    Sound (s.settle call attempt refused nowMs) ∧
      Stays s (s.settle call attempt refused nowMs) call.transition := by
  unfold State.settle
  split_ifs with hrefused
  · -- The query before the refusal is issued again.
    have hplays := hover (by rw [hrefused.1]; nofun)
    exact @Sound.keeps_attempt s { call with recovering := true, retried := false, await := none }
      ⟨h, hplays⟩ hcall nowMs
  · exact h.proceed hcall hissued hpending hover

/-! ### Steps -/

def Entry.clauses : Entry → List FilterClause
  | .committed _ clauses => clauses
  | _ => []

/-- The cards a view was ever given, as they were at that time. -/
def handedOut (log : List Entry) : List FilterClause := log.flatMap Entry.clauses

/-- The cards of the transition are cards of before, and one new card at most. -/
def Changes (clauses : List FilterClause) (t : ViewTransition) : Prop :=
  ∀ next, t = .filterClausesSet next → ∃ added : FilterClause, ∀ c ∈ next,
    (∃ old ∈ clauses, old.id = c.id ∧ old.text = c.text) ∨ c = added

theorem changes_of_proposed {clauses next : List FilterClause} {request : ClauseRequest}
    {mintId : ClauseId} {filter : Option Filter} {clauseStep : ClauseStep}
    (h : proposeClauseChange clauses request mintId = .propose next filter clauseStep) :
    filter = combineClauses next ∧ Changes clauses (.filterClausesSet next) := by
  have hpart : ∀ next' : List FilterClause, (∀ c ∈ next', ∃ old ∈ clauses, old.id = c.id ∧
      old.text = c.text) → Changes clauses (.filterClausesSet next') := by
    intro next' hold _ heq
    cases heq
    exact ⟨⟨mintId, "", true⟩, fun c hc => .inl (hold c hc)⟩
  cases request with
  | add text =>
    unfold proposeClauseChange at h
    dsimp only at h
    split at h
    · cases h
      refine ⟨rfl, fun _ heq => ?_⟩
      cases heq
      exact ⟨⟨mintId, text, true⟩,
        Lib.forall_snoc (fun c hc => .inl ⟨c, hc, rfl, rfl⟩) (.inr rfl)⟩
    · cases h
  | setEnabled clause enabled =>
    unfold proposeClauseChange at h
    dsimp only at h
    split at h
    · cases h
    · cases h
      refine ⟨rfl, hpart _ fun c hc => ?_⟩
      obtain ⟨old, hold, rfl⟩ := List.mem_map.1 hc
      refine ⟨old, hold, ?_⟩
      split_ifs <;> exact ⟨rfl, rfl⟩
  | remove clause =>
    cases h
    exact ⟨rfl, hpart _ fun c hc => ⟨c, (List.mem_filter.1 hc).1, rfl, rfl⟩⟩

/-- Nothing is committed; a new call changes the cards of the last render. -/
structure Keeps (s s' : State) : Prop where
  activeFilter : s'.activeFilter = s.activeFilter
  view : filterPart s'.view = filterPart s.view
  rendered : s'.rendered = s.rendered ∨ s'.rendered = s.view
  handedOut : handedOut s'.log = handedOut s.log
  calls : ∀ call ∈ s'.calls, (∃ c ∈ s.calls, c.transition = call.transition) ∨
    Changes (viewClauses s.rendered) call.transition

/-- The stream of a call is started by the answer it waits for, in time. -/
structure Commits (s : State) (e : Event) (s' : State) (call : ApplyCall) (sink : Sink) : Prop where
  awaited : ∃ request k attach refused nowMs,
    e = .answer (.dataPlaneAttach request k) (.attached attach) refused nowMs ∧
    holder s.calls (.dataPlaneAttach request k) = some call ∧
    request.myGeneration = s.manager.generation
  ended : s.manager.sessionEnded = false
  primary : call.recovering = false
  log : s'.log = s.log ++ [.started sink, .committed sink.filter (viewClauses s'.view)]
  activeFilter : s'.activeFilter = sink.filter
  view : s'.view = applyViewTransition s.view call.transition
  rendered : s'.rendered = s.rendered
  calls : s'.calls ⊆ s.calls

theorem Stays.keeps {transition : ViewTransition} (h : Stays s s' transition)
    (hchanges : (∃ c ∈ s.calls, c.transition = transition) ∨
      Changes (viewClauses s.rendered) transition) : Keeps s s' where
  activeFilter := h.activeFilter
  view := congrArg filterPart h.view
  rendered := .inl h.rendered
  handedOut := congrArg _ h.log
  calls := by
    intro call hcall
    rcases h.calls call hcall with hold | rfl
    · exact .inl ⟨call, hold, rfl⟩
    · exact hchanges

theorem keeps_of_stays_others {transition : ViewTransition} {m : ViewportStreamManager.State}
    {a : Await} (hmem : call ∈ s.calls ∧ call.transition = transition)
    (h : Stays { s with manager := m, calls := others s.calls a } s' transition) : Keeps s s' where
  activeFilter := h.activeFilter
  view := congrArg filterPart h.view
  rendered := .inl h.rendered
  handedOut := congrArg _ h.log
  calls := by
    intro c hc
    rcases h.calls c hc with hold | rfl
    · exact .inl ⟨c, (others_sublist s.calls a).subset hold, rfl⟩
    · exact .inl ⟨call, hmem⟩

/-- What a request that no call waits for comes to, and the answer that leads there. -/
theorem Sound.answer_free (h : Sound s) {a : Await} {answer : Answer}
    {m : ViewportStreamManager.State} (hholder : holder s.calls a = none)
    (hanswered : Answered s.manager s.log s.calls s.activeFilter a answer m) :
    Sound { s with manager := m, log := s.log ++ heard s.manager m } ∧
      Keeps s { s with manager := m, log := s.log ++ heard s.manager m } := by
  have hothers : others s.calls a = s.calls := by
    rw [others, hholder]
  cases hanswered with
  | waits next hof hheard hplays =>
    rw [goOn, hholder, Option.bind_none, Option.toList_none, List.append_nil, hothers] at hplays
    rw [hheard, List.append_nil]
    exact ⟨⟨⟨h.sets, h.view, h.combined⟩, hplays⟩,
      ⟨rfl, rfl, .inl rfl, rfl, fun c hc => .inl ⟨c, hc, rfl⟩⟩⟩
  | returned attempt hof hover hheard hplays =>
    rw [hothers] at hplays
    rw [hheard, List.append_nil]
    exact ⟨⟨⟨h.sets, h.view, h.combined⟩, hplays⟩,
      ⟨rfl, rfl, .inl rfl, rfl, fun c hc => .inl ⟨c, hc, rfl⟩⟩⟩
  | started request k attach hawait hanswer hlatest hended hof hheard hfilter hplays =>
    -- A pan: its filter is the one in force.
    rw [hholder] at hfilter
    rw [hothers, hfilter] at hplays
    rw [hheard, hfilter]
    refine ⟨⟨⟨h.sets, h.view, h.combined⟩, hplays⟩,
      ⟨rfl, rfl, .inl rfl, ?_, fun c hc => .inl ⟨c, hc, rfl⟩⟩⟩
    simp [handedOut, Entry.clauses]

/-- The answer in time commits the call that waits for it. -/
theorem Sound.commit (h : Sound s) {request : Request} {k : String} {attach : DataPlaneAttach}
    {m : ViewportStreamManager.State}
    (hholder : holder s.calls (.dataPlaneAttach request k) = some call)
    (hprimary : call.recovering = false) (hlatest : request.myGeneration = s.manager.generation)
    (hended : s.manager.sessionEnded = false)
    (hfilter : request.filter = wanted (some call) s.activeFilter)
    (hplays : Plays m (s.log ++ [.started ⟨k, request.filter⟩])
      (others s.calls (.dataPlaneAttach request k)) request.filter) (refused : Bool) (nowMs : Int) :
    Sound (({ s with
        manager := m
        calls := others s.calls (.dataPlaneAttach request k)
        log := s.log ++ [.started ⟨k, request.filter⟩] } : State).settle call
          (.returned (.issued k)) refused nowMs) ∧
      Commits s (.answer (.dataPlaneAttach request k) (.attached attach) refused nowMs)
        (({ s with
          manager := m
          calls := others s.calls (.dataPlaneAttach request k)
          log := s.log ++ [.started ⟨k, request.filter⟩] } : State).settle call
            (.returned (.issued k)) refused nowMs) call ⟨k, request.filter⟩ := by
  obtain ⟨hcall, -⟩ := holder_eq_some hholder
  obtain ⟨newFilter, transition, clauseStep, recovering, retried, await⟩ := call
  obtain rfl : recovering = false := hprimary
  change request.filter = newFilter at hfilter
  obtain ⟨hset, hcombined⟩ := h.sets _ hcall s.view
  have hsets : ∀ c ∈ others s.calls (.dataPlaneAttach request k), SetsTo c.transition c.newFilter :=
    fun c hc => h.sets c ((others_sublist s.calls _).subset hc)
  have hlog : ∀ (log : List Entry) (e e' : Entry), log ++ [e] ++ [e'] = log ++ [e, e'] :=
    fun log e e' => List.append_assoc log [e] [e']
  refine ⟨⟨⟨hsets, hset.symm, hset.trans hcombined.symm⟩, ?_⟩, ?_⟩
  · show Plays m (s.log ++ [.started ⟨k, request.filter⟩] ++ [.committed newFilter _])
      (others s.calls _) newFilter
    rw [hfilter] at hplays ⊢
    exact { hplays with
      serial := by
        rw [onMap_snoc]
        exact hplays.serial
      last := by
        rw [onMap_snoc]
        exact hplays.last
      since := by
        rw [onMap_snoc]
        exact hplays.since }
  · exact {
      awaited := ⟨request, k, attach, refused, nowMs, rfl, hholder, hlatest⟩
      ended := hended
      primary := rfl
      log := by
        rw [hfilter]
        exact hlog _ _ _
      activeFilter := hfilter.symm
      view := rfl
      rendered := rfl
      calls := (others_sublist s.calls _).subset }

theorem Sound.answer (h : Sound s) {a : Await} {answer : Answer} {refused : Bool}
    (hstep : s.answer a answer refused nowMs = some s') :
    Sound s' ∧ (Keeps s s' ∨ ∃ call sink, Commits s (.answer a answer refused nowMs) s' call sink) := by
  unfold State.answer at hstep
  obtain ⟨m, hm, hstep⟩ := Option.bind_eq_some_iff.1 hstep
  dsimp only at hstep
  change (match holder s.calls a with | none => _ | some call => _) = _ at hstep
  have hanswered := h.plays.answer hm
  have hsets : ∀ call ∈ others s.calls a, SetsTo call.transition call.newFilter :=
    fun call hcall => h.sets call ((others_sublist s.calls a).subset hcall)
  cases hholder : holder s.calls a with
  | none =>
    rw [hholder] at hstep
    cases hstep
    obtain ⟨hsound, hkeeps⟩ := h.answer_free hholder hanswered
    exact ⟨hsound, .inl hkeeps⟩
  | some call =>
    obtain ⟨hcall, hawait⟩ := holder_eq_some hholder
    have hothers : others s.calls a = s.calls.erase call := by
      rw [others, hholder]
    rw [hholder] at hstep
    cases hstep
    rw [← hothers]
    cases hanswered with
    | waits next hof hheard hplays =>
      rw [goOn, hholder] at hplays
      rw [hheard, List.append_nil, hof]
      have hbased : Based { s with manager := m, calls := others s.calls a } :=
        ⟨hsets, h.view, h.combined⟩
      have hissued : ∀ k, Attempt.pending next ≠ .returned (.issued k) := nofun
      obtain ⟨hsound, hstays⟩ := hbased.settle (h.sets call hcall) hissued
        (fun b hb => Attempt.pending.inj hb ▸ hplays) (fun hnot => absurd rfl (hnot next)) refused
        nowMs
      exact ⟨hsound, .inl (keeps_of_stays_others ⟨hcall, rfl⟩ hstays)⟩
    | returned attempt hof hover hheard hplays =>
      rw [hheard, List.append_nil, hof]
      have hbased : Based { s with manager := m, calls := others s.calls a } :=
        ⟨hsets, h.view, h.combined⟩
      obtain ⟨hsound, hstays⟩ := hbased.settle (h.sets call hcall) hover.2
        (fun b hb => absurd hb (hover.1 b)) (fun _ => hplays) refused nowMs
      exact ⟨hsound, .inl (keeps_of_stays_others ⟨hcall, rfl⟩ hstays)⟩
    | started request k attach hattach hanswer hlatest hended hof hheard hfilter hplays =>
      rw [hholder] at hfilter
      rw [hheard, hof]
      obtain ⟨newFilter, transition, clauseStep, recovering, retried, await⟩ := call
      cases recovering with
      | true =>
        -- What is issued again is of the filter in force, and nothing is committed.
        change request.filter = s.activeFilter at hfilter
        rw [hfilter] at hplays ⊢
        refine ⟨⟨⟨hsets, h.view, h.combined⟩, hplays⟩, .inl ⟨rfl, rfl, .inl rfl, ?_, ?_⟩⟩
        · simp [handedOut, Entry.clauses, State.settle, State.proceed, State.finish]
        · intro c hc
          exact .inl ⟨c, (others_sublist s.calls a).subset hc, rfl⟩
      | false =>
        subst hattach
        subst hanswer
        obtain ⟨hsound, hcommits⟩ := h.commit hholder rfl hlatest hended hfilter hplays refused nowMs
        exact ⟨hsound, .inr ⟨_, _, hcommits⟩⟩

theorem Sound.manage (h : Sound s) {e : ViewportStreamManager.Event}
    (hstep : s.manage e = some s') : Sound s' ∧ Keeps s s' := by
  have hmanaged : (∀ bbox bboxCrs nowMs filter, e ≠ .requestViewport bbox bboxCrs nowMs filter) ∧
      (∀ a answer, e ≠ .answer a answer) ∧ ∃ m, ViewportStreamManager.step s.manager e = some m ∧
        { s with manager := m, log := s.log ++ heard s.manager m } = s' := by
    unfold State.manage at hstep
    split at hstep
    · cases hstep
    · cases hstep
    · next hrequest hanswer =>
      obtain ⟨m, hm, hstep⟩ := Option.bind_eq_some_iff.1 hstep
      exact ⟨hrequest, hanswer, m, hm, Option.some.inj hstep⟩
  obtain ⟨hrequest, hanswer, m, hm, rfl⟩ := hmanaged
  refine ⟨⟨⟨h.sets, h.view, h.combined⟩, h.plays.manage hm hrequest hanswer⟩, rfl, rfl, .inl rfl, ?_,
    fun c hc => .inl ⟨c, hc, rfl⟩⟩
  have hheard : (heard s.manager m).flatMap Entry.clauses = [] := by
    rw [List.flatMap_eq_nil_iff]
    intro entry hentry
    rcases List.mem_append.1 hentry with hin | hin
    · obtain ⟨sink, -, rfl⟩ := List.mem_map.1 hin
      rfl
    · obtain ⟨effect, -, heffect⟩ := List.mem_filterMap.1 hin
      cases effect <;> cases heffect
      rfl
  rw [handedOut, handedOut, List.flatMap_append, hheard, List.append_nil]

/-- The changes that touch no query. -/
theorem keeps_of_eq (hactive : s'.activeFilter = s.activeFilter)
    (hview : filterPart s'.view = filterPart s.view)
    (hrendered : s'.rendered = s.rendered ∨ s'.rendered = s.view) (hlog : s'.log = s.log)
    (hcalls : s'.calls ⊆ s.calls) : Keeps s s' :=
  ⟨hactive, hview, hrendered, congrArg _ hlog, fun c hc => .inl ⟨c, hcalls hc, rfl⟩⟩

/-- **One step**: the filter on the map stays the filter in force, and is changed by a call whose
stream is started only. -/
theorem Sound.step (h : Sound s) {e : Event} (hstep : step s e = some s') :
    Sound s' ∧ (Keeps s s' ∨ ∃ call sink, Commits s e s' call sink) := by
  cases e with
  | viewportChanged bbox =>
    cases hstep
    exact ⟨⟨⟨h.sets, h.view, h.combined⟩, h.plays⟩,
      .inl (keeps_of_eq rfl rfl (.inl rfl) rfl fun _ hc => hc)⟩
  | viewportWithinLastQuery bbox =>
    cases hstep
    exact ⟨⟨⟨h.sets, h.view, h.combined⟩, h.plays⟩,
      .inl (keeps_of_eq rfl rfl (.inl rfl) rfl fun _ hc => hc)⟩
  | settled nowMs =>
    unfold App.step at hstep
    dsimp only at hstep
    split at hstep
    · cases hstep
    · next bbox _ =>
      cases hstep
      have hsound : Sound { s with debounced := none } := ⟨⟨h.sets, h.view, h.combined⟩, h.plays⟩
      exact ⟨hsound.keeps_issue (some bbox) nowMs,
        .inl (keeps_of_eq rfl rfl (.inl rfl) rfl fun _ hc => hc)⟩
  | apply text nowMs =>
    cases hstep
    have hsound : Sound { s with debounced := none } := ⟨⟨h.sets, h.view, h.combined⟩, h.plays⟩
    obtain ⟨hsound', hstays⟩ := @Sound.keeps_attempt _ ⟨predicateTextToFilter text,
      .filterApply (predicateTextToFilter text), none, false, false, none⟩ hsound
      (setsTo_filterApply text) nowMs
    have hkeeps : Stays s _ _ :=
      ⟨hstays.activeFilter, hstays.view, hstays.rendered, hstays.log, hstays.calls⟩
    exact ⟨hsound', .inl (hkeeps.keeps (.inr nofun))⟩
  | changeClauses request nowMs =>
    cases hstep
    have hstays : Keeps s s := keeps_of_eq rfl rfl (.inl rfl) rfl fun _ hc => hc
    unfold State.changeClauses
    split_ifs
    · exact ⟨h, .inl hstays⟩
    · dsimp only
      cases hproposal : proposeClauseChange (viewClauses s.rendered) request
          ⟨viewNextClauseNumber s.rendered⟩ with
      | refuse blocking => exact ⟨h, .inl hstays⟩
      | propose clauses filter clauseStep =>
        obtain ⟨rfl, hchanges⟩ := changes_of_proposed hproposal
        have hsound : Sound { s with clausePending := true, debounced := none } :=
          ⟨⟨h.sets, h.view, h.combined⟩, h.plays⟩
        obtain ⟨hsound', hstays⟩ := @Sound.keeps_attempt _ ⟨combineClauses clauses,
          .filterClausesSet clauses, some clauseStep, false, false, none⟩ hsound
          (setsTo_filterClausesSet clauses) nowMs
        have hkeeps : Stays s _ _ :=
          ⟨hstays.activeFilter, hstays.view, hstays.rendered, hstays.log, hstays.calls⟩
        exact ⟨hsound', .inl (hkeeps.keeps (.inr hchanges))⟩
  | retry call nowMs =>
    unfold App.step at hstep
    dsimp only at hstep
    split_ifs at hstep with hcall
    cases hstep
    obtain ⟨hmem, hawait⟩ := hcall
    have hplays : Plays s.manager s.log (s.calls.erase call) s.activeFilter :=
      { h.plays with
        generations_nodup :=
          h.plays.generations_nodup.sublist (List.erase_sublist.filterMap _)
        held := fun c hc => h.plays.held c (List.mem_of_mem_erase hc)
        mine := by
          intro a ha r hr hmine
          rw [holder_erase (by rw [hawait]; nofun)]
          exact h.plays.mine a ha r hr hmine }
    have hsound : Sound { s with calls := s.calls.erase call } :=
      ⟨⟨fun c hc => h.sets c (List.mem_of_mem_erase hc), h.view, h.combined⟩, hplays⟩
    obtain ⟨hsound', hstays⟩ := hsound.keeps_attempt (h.sets call hmem) nowMs
    refine ⟨hsound', .inl ⟨hstays.activeFilter, congrArg _ hstays.view, .inl hstays.rendered,
      congrArg _ hstays.log, fun c hc => .inl ?_⟩⟩
    rcases hstays.calls c hc with hold | hnew
    · exact ⟨c, List.mem_of_mem_erase hold, rfl⟩
    · exact ⟨call, hmem, hnew.symm⟩
  | answer a answer refused nowMs => exact h.answer hstep
  | manager e =>
    obtain ⟨hsound, hkeeps⟩ := h.manage hstep
    exact ⟨hsound, .inl hkeeps⟩
  | render =>
    cases hstep
    exact ⟨⟨⟨h.sets, h.view, h.combined⟩, h.plays⟩,
      .inl (keeps_of_eq rfl rfl (.inr rfl) rfl fun _ hc => hc)⟩
  | transition t =>
    unfold App.step at hstep
    dsimp only at hstep
    split_ifs at hstep with hsets
    cases hstep
    have hpart := filterPart_applyViewTransition s.view (Bool.eq_false_iff.2 hsets)
    obtain ⟨hfilter, hclauses, -⟩ : (applyViewTransition s.view t).filter = s.view.filter ∧
        viewClauses (applyViewTransition s.view t) = viewClauses s.view ∧ True :=
      ⟨congrArg (·.1) hpart, congrArg (·.2.1) hpart, trivial⟩
    refine ⟨⟨⟨h.sets, h.view.trans hfilter.symm, ?_⟩, h.plays⟩,
      .inl (keeps_of_eq rfl hpart (.inl rfl) rfl fun _ hc => hc)⟩
    show (applyViewTransition s.view t).filter = _
    rw [hfilter, hclauses]
    exact h.combined

end SpatialIde.Shell.App
