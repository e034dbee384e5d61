import SpatialIde.Lib.Runs
import SpatialIde.Shell.Publish

/-! # One prompt, one publish

What holds of the two stores after every run of overlapping calls: a prompt's attempt is taken once
and in time, its grant is copied once, and it publishes once.  The invariant is in three parts, one
for the calls that prepare, one for the attempts and one for the grants.
-/

namespace SpatialIde.Shell.Publish

open Lib SpatialIde.Kernel SpatialIde.Kernel.Permission

def Preparing.request : Preparing → Request
  | .holding request _ => request
  | .naming request => request
  | .stashing _ attempt => attempt.request

/-- The facts a stage has found. -/
def Stage.facts : Stage → Option OperationFacts
  | .resolving => none
  | .auditing facts => some facts
  | .consuming facts _ => some facts
  | .authorizing facts _ => some facts
  | .authorized facts _ _ => some facts
  | .running facts _ _ => some facts

def Stage.isRunning : Stage → Bool
  | .running _ _ _ => true
  | _ => false

/-- The facts whose grants a call has removed under its own guard and not yet returned. -/
def Stage.spent : Stage → Option OperationFacts
  | .authorized facts _ (.own _) => some facts
  | .running facts _ (.own _) => some facts
  | _ => none

/-- Facts of the operation a request asks for. -/
structure Describes (request : Request) (facts : OperationFacts) : Prop where
  operation : facts.operation = .publish
  datasetName : facts.datasetName = request.datasetName

/-- A grant for the operation a request asks for. -/
structure Grants (request : Request) (grant : PublishGrant) : Prop where
  operation : grant.operation = .publish
  datasetName : grant.source.datasetName = request.datasetName

/-- The grant scopes the source and the destination of these facts. -/
structure Unmoved (grant : PublishGrant) (facts : OperationFacts) : Prop where
  contentHash : grant.source.contentHash = facts.contentHash
  destination : grant.destination = .exact facts.destination

theorem Grants.covers {request : Request} {grant : PublishGrant} {facts : OperationFacts}
    (hg : Grants request grant) (hf : Describes request facts) (h : Unmoved grant facts) :
    grant.Covers facts where
  operation := hg.operation.trans hf.operation.symm
  datasetName := hg.datasetName.trans hf.datasetName.symm
  contentHash := h.contentHash
  destination := by rw [h.destination]; exact decide_eq_true rfl

theorem grants_of_mintGrant {machine : Machine} {request : Request}
    {pre : Except Kernel.Publish.PublishError PublishPreflight}
    {forPrompt forScope : Path → Except String Path} {now : Nat} {grant : PublishGrant}
    (h : mintGrant machine request pre forPrompt forScope now = .ok grant) :
    Grants request grant := by
  unfold mintGrant at h
  cases pre with
  | error e => cases h
  | ok pre =>
    cases hprompt : resolveDestination machine forPrompt request.destination with
    | error e =>
      rw [hprompt] at h
      cases h
    | ok d =>
      cases hscope : resolveDestination machine forScope request.destination with
      | error e =>
        rw [hprompt, hscope] at h
        cases h
      | ok d' =>
        rw [hprompt, hscope] at h
        cases h
        exact ⟨rfl, rfl⟩

/-! ### The boundary publishes once -/

section

variable {machine : Machine} {attempt : PublishAttempt}

abbrev Quiet {α : Type} (p : Boundary α) : Prop := Prog.Asks (fun q => State.isPublish q = false) p

theorem quiet_finish (ctx : OutcomeContext) (e : BoundaryError) :
    Quiet (finish machine attempt ctx e) := by
  refine Prog.Asks.bind (.query rfl) fun writtenAt => Prog.Asks.bind (.query rfl) fun written => ?_
  cases written with
  | ok u => exact .pure e
  | error audit => exact Prog.Asks.bind (.query rfl) fun _ => .pure e

theorem quiet_refuse (ctx : OutcomeContext) (e : BoundaryError) :
    Quiet (refuse machine attempt ctx e) :=
  Prog.Asks.bind (quiet_finish ctx e) fun _ => trivial

theorem quiet_succeed (ctx : OutcomeContext) (outcome : PublishOutcome) :
    Quiet (succeed machine attempt ctx outcome) := by
  refine Prog.Asks.bind (.query rfl) fun hash => Prog.Asks.bind (.query rfl) fun writtenAt => ?_
  refine Prog.Asks.bind (.query rfl) fun written => ?_
  cases written with
  | ok u => exact .pure outcome
  | error e => trivial

theorem quiet_resolveDestination (destination : Path) :
    Quiet (Permission.resolveDestination machine destination) := by
  rw [Permission.resolveDestination]
  cases destination.fileName with
  | none => trivial
  | some name =>
    refine Prog.Asks.bind (.query rfl) fun resolved => ?_
    cases resolved with
    | error e => trivial
    | ok parent => exact .pure _

abbrev Once {α : Type} (p : Boundary α) : Prop := Prog.AtMost State.isPublish 1 p

theorem once_refuse (ctx : OutcomeContext) (e : BoundaryError) :
    Once (refuse machine attempt ctx e) := .of_asks (quiet_refuse ctx e) 1

theorem once_operate (ctx : OutcomeContext) (pre : PublishPreflight) :
    Once (operate machine attempt ctx pre) := by
  refine Prog.AtMost.ask_one fun result => ?_
  cases result with
  | ok outcome => exact quiet_succeed ctx outcome
  | error e => exact quiet_refuse ctx _

theorem once_confirm (ctx : OutcomeContext) (pre : PublishPreflight) (facts : OperationFacts)
    (grant : PublishGrant) (now : Nat) : Once (confirm machine attempt ctx pre facts grant now) := by
  refine Prog.AtMost.bind (.query rfl) fun route => Prog.AtMost.bind (.query rfl) fun given => ?_
  cases given with
  | error e => exact once_refuse _ _
  | ok given =>
    dsimp only
    split
    · exact once_refuse _ _
    · refine Prog.AtMost.bind (.query rfl) fun now => ?_
      split
      · exact once_refuse _ _
      · exact once_operate _ _

theorem once_gated (id : String) (pre : PublishPreflight) (facts : OperationFacts) :
    Once (gated machine attempt id pre facts) := by
  refine Prog.AtMost.bind (.query rfl) fun now => ?_
  split
  · exact once_refuse _ _
  · exact once_confirm _ _ _ _ _

theorem once_record (pre : PublishPreflight) (facts : OperationFacts) :
    Once (record machine attempt pre facts) := by
  refine Prog.AtMost.bind (.query rfl) fun id => Prog.AtMost.bind (.query rfl) fun writtenAt => ?_
  refine Prog.AtMost.bind (.query rfl) fun written => ?_
  cases written with
  | error e => trivial
  | ok u => exact once_gated _ _ _

/-- **A run of the boundary publishes at most once.** -/
theorem once_execute : Once (execute machine attempt) := by
  refine Prog.AtMost.bind (.query rfl) fun pre => ?_
  cases pre with
  | error e => trivial
  | ok pre =>
    refine Prog.AtMost.bind (quiet_resolveDestination _) fun destination => ?_
    dsimp only
    split_ifs
    · trivial
    · exact once_record _ _

end

/-! ### The invariant -/

/-- The calls that prepare. -/
structure Preparations (requests : List Request) (preparing : OrderedMap Nat Preparing)
    (prompted : List Prompt) (minted : List Minted) : Prop where
  request : ∀ c p, preparing.get c = some p → requests[c]? = some p.request
  unprompted : ∀ c p, preparing.get c = some p → c ∉ prompted.map Prompt.call
  holding : ∀ c request grant, preparing.get c = some (.holding request grant) →
    Grants request grant ∧ c ∉ minted.map Minted.call
  stashing : ∀ c id attempt, preparing.get c = some (.stashing id attempt) → attempt.call = c
  prompted_lt : ∀ p ∈ prompted, p.call < requests.length
  prompted_nodup : (prompted.map Prompt.call).Nodup
  minted_grants : ∀ m ∈ minted, ∃ request, requests[m.call]? = some request ∧ Grants request m.grant
  minted_nodup : (minted.map Minted.call).Nodup

/-- The attempts, in the store, under way, and at their end. -/
structure Attempts (requests : List Request) (prompted : List Prompt) (store : PendingAttempts)
    (executing : OrderedMap Nat Executing) (taken : List Taken) (entered : List (Taken × Nat))
    (published : List Nat) (returned : List Returned) : Prop where
  stored : ∀ id a, store.get id = some a → ⟨id, a.call⟩ ∈ prompted ∧
    a.call ∉ taken.map (·.prompt.call) ∧ requests[a.call]? = some a.request
  taken_prompted : ∀ t ∈ taken, t.prompt ∈ prompted ∧ t.time ≤ t.createdAt + PENDING_ATTEMPT_TTL
  taken_nodup : (taken.map (·.prompt.call)).Nodup
  executing_taken : ∀ c e, executing.get c = some e → e.attempt.call = c ∧
    c ∈ taken.map (·.prompt.call) ∧ c ∉ returned.map Returned.call ∧
    requests[c]? = some e.attempt.request
  facts : ∀ c e, executing.get c = some e →
    ∀ facts, e.stage.facts = some facts → Describes e.attempt.request facts
  running : ∀ c e, executing.get c = some e →
    (e.stage.isRunning = true ↔ c ∈ entered.map (·.1.prompt.call))
  entered_taken : ∀ e ∈ entered, e.1 ∈ taken
  entered_nodup : (entered.map (·.1.prompt.call)).Nodup
  published_entered : ∀ c ∈ published, c ∈ entered.map (·.1.prompt.call) ∧ c ∈ returned.map Returned.call
  published_nodup : published.Nodup
  returned_taken : ∀ r ∈ returned, r.call ∈ taken.map (·.prompt.call) ∧
    ∀ facts, r.facts = some facts → ∃ request, requests[r.call]? = some request ∧
      Describes request facts

/-- No grant of the call covers the facts any more. -/
def Spent (held : Held) (call : Nat) (facts : OperationFacts) : Prop :=
  ∀ m ∈ held.minted, m.call = call → ¬m.grant.Covers facts

/-- The grants, in the shared set and copied out of it. -/
structure Grantings (held : Held) (minted : List Minted) (copied : List (Minted × Nat))
    (executing : OrderedMap Nat Executing) (returned : List Returned) : Prop where
  held_minted : ∀ m ∈ held.minted, m ∈ minted
  held_nodup : held.calls.Nodup
  copied_minted : ∀ c ∈ copied, c.1 ∈ minted ∧ c.1.grant.expired c.2 = false ∧ c.1.call ∉ held.calls
  copied_nodup : (copied.map (·.1.call)).Nodup
  executing_spent : ∀ c e, executing.get c = some e →
    ∀ facts, e.stage.spent = some facts → Spent held c facts
  returned_spent : ∀ r ∈ returned, ∀ facts, r.facts = some facts → Spent held r.call facts

structure Sound (s : State) : Prop where
  preparations : Preparations s.requests s.preparing s.prompted s.minted
  attempts : Attempts s.requests s.prompted s.store s.executing s.taken s.entered s.published
    s.returned
  grantings : Grantings s.held s.minted s.copied s.executing s.returned

theorem sound_new : Sound .new where
  preparations := ⟨nofun, nofun, nofun, nofun, nofun, List.nodup_nil, nofun, List.nodup_nil⟩
  attempts := ⟨nofun, nofun, List.nodup_nil, nofun, nofun, nofun, nofun, List.nodup_nil, nofun,
    List.nodup_nil, nofun⟩
  grantings := ⟨nofun, List.nodup_nil, nofun, List.nodup_nil, nofun, nofun⟩

section

variable {requests : List Request} {preparing : OrderedMap Nat Preparing} {prompted : List Prompt}
  {minted : List Minted} {store : PendingAttempts} {executing : OrderedMap Nat Executing}
  {taken : List Taken} {entered : List (Taken × Nat)} {published : List Nat}
  {returned : List Returned} {held : Held} {copied : List (Minted × Nat)}
  {call : Nat} {request : Request} {grant : PublishGrant} {facts : OperationFacts}

theorem getElem?_snoc {c : Nat} {r : Request} (h : requests[c]? = some r) :
    (requests ++ [request])[c]? = some r := by
  rw [List.getElem?_append_left (List.getElem?_eq_some_iff.1 h).1]
  exact h

/-! ### The calls that prepare -/

namespace Preparations

theorem call_lt (h : Preparations requests preparing prompted minted) {p : Preparing}
    (hp : preparing.get call = some p) : call < requests.length :=
  (List.getElem?_eq_some_iff.1 (h.request _ _ hp)).1

/-- A call that prepares goes on. -/
theorem set (h : Preparations requests preparing prompted minted) {p : Preparing}
    (hp : preparing.get call = some p) (p' : Preparing) (hrequest : p'.request = p.request)
    (hholding : ∀ request grant, p' ≠ .holding request grant)
    (hstashing : ∀ id attempt, p' = .stashing id attempt → attempt.call = call) :
    Preparations requests (preparing.set call p') prompted minted := by
  refine { h with request := ?_, unprompted := ?_, holding := ?_, stashing := ?_ }
  · intro c q hq
    rw [OrderedMap.get_set] at hq
    split_ifs at hq with hc
    · cases hq
      rw [hc, hrequest]
      exact h.request _ _ hp
    · exact h.request c q hq
  · intro c q hq
    rw [OrderedMap.get_set] at hq
    split_ifs at hq with hc
    · rw [hc]
      exact h.unprompted _ _ hp
    · exact h.unprompted c q hq
  · intro c r g hq
    rw [OrderedMap.get_set] at hq
    split_ifs at hq with hc
    · exact absurd (Option.some.inj hq) (hholding r g)
    · exact h.holding c r g hq
  · intro c id a hq
    rw [OrderedMap.get_set] at hq
    split_ifs at hq with hc
    · rw [hc]
      exact hstashing id a (Option.some.inj hq)
    · exact h.stashing c id a hq

theorem delete (h : Preparations requests preparing prompted minted) (call : Nat) :
    Preparations requests (preparing.delete call) prompted minted := by
  have hget : ∀ c p, (preparing.delete call).get c = some p → preparing.get c = some p := by
    intro c p hp
    rw [OrderedMap.get_delete] at hp
    split_ifs at hp
    exact hp
  exact { h with
    request := fun c p hp => h.request c p (hget c p hp)
    unprompted := fun c p hp => h.unprompted c p (hget c p hp)
    holding := fun c r g hp => h.holding c r g (hget c _ hp)
    stashing := fun c id a hp => h.stashing c id a (hget c _ hp) }

theorem begin (h : Preparations requests preparing prompted minted) (hg : Grants request grant) :
    Preparations (requests ++ [request])
      (preparing.set requests.length (.holding request grant)) prompted minted := by
  have hlt : ∀ m ∈ minted, m.call < requests.length := by
    intro m hm
    obtain ⟨r, hr, -⟩ := h.minted_grants m hm
    exact (List.getElem?_eq_some_iff.1 hr).1
  refine { h with
    request := ?_, unprompted := ?_, holding := ?_, stashing := ?_, prompted_lt := ?_,
    minted_grants := ?_ }
  · intro c q hq
    rw [OrderedMap.get_set] at hq
    split_ifs at hq with hc
    · cases hq
      rw [hc]
      exact List.getElem?_concat_length
    · exact getElem?_snoc (h.request c q hq)
  · intro c q hq hmem
    rw [OrderedMap.get_set] at hq
    split_ifs at hq with hc
    · obtain ⟨p, hp, hcall⟩ := List.mem_map.1 hmem
      have := h.prompted_lt p hp
      omega
    · exact h.unprompted c q hq hmem
  · intro c r g hq
    rw [OrderedMap.get_set] at hq
    split_ifs at hq with hc
    · cases hq
      refine ⟨hg, fun hmem => ?_⟩
      obtain ⟨m, hm, hcall⟩ := List.mem_map.1 hmem
      have := hlt m hm
      omega
    · exact h.holding c r g hq
  · intro c id a hq
    rw [OrderedMap.get_set] at hq
    split_ifs at hq with hc
    · cases hq
    · exact h.stashing c id a hq
  · intro p hp
    rw [List.length_append]
    exact Nat.lt_of_lt_of_le (h.prompted_lt p hp) (Nat.le_add_right _ _)
  · intro m hm
    obtain ⟨r, hr, hgrants⟩ := h.minted_grants m hm
    exact ⟨r, getElem?_snoc hr, hgrants⟩

/-- The grant comes into the shared set. -/
theorem hold (h : Preparations requests preparing prompted minted)
    (hp : preparing.get call = some (.holding request grant)) :
    Preparations requests (preparing.set call (.naming request)) prompted
      (minted ++ [⟨call, grant⟩]) := by
  have hgrant := h.holding _ _ _ hp
  have hset := h.set hp (.naming request) rfl nofun nofun
  refine { hset with holding := ?_, minted_grants := ?_, minted_nodup := ?_ }
  · intro c r g hq
    obtain ⟨hg, hc⟩ := hset.holding c r g hq
    refine ⟨hg, not_mem_map_snoc hc ?_⟩
    rintro rfl
    rw [OrderedMap.get_set_self] at hq
    cases hq
  · exact forall_snoc h.minted_grants ⟨request, h.request _ _ hp, hgrant.1⟩
  · exact nodup_map_snoc h.minted_nodup hgrant.2

theorem stash (h : Preparations requests preparing prompted minted) {p : Preparing}
    (hp : preparing.get call = some p) (id : String) :
    Preparations requests (preparing.delete call) (prompted ++ [⟨id, call⟩]) minted := by
  refine { h.delete call with unprompted := ?_, prompted_lt := ?_, prompted_nodup := ?_ }
  · intro c q hq
    have hne : c ≠ call := by
      rintro rfl
      rw [OrderedMap.get_delete_self] at hq
      cases hq
    exact not_mem_map_snoc ((h.delete call).unprompted c q hq) hne
  · exact forall_snoc h.prompted_lt (h.call_lt hp)
  · exact nodup_map_snoc h.prompted_nodup (h.unprompted _ _ hp)

end Preparations

/-! ### The attempts -/

namespace Attempts

theorem grow (h : Attempts requests prompted store executing taken entered published returned)
    (request : Request) : Attempts (requests ++ [request]) prompted store executing taken entered
      published returned := by
  refine { h with stored := ?_, executing_taken := ?_, returned_taken := ?_ }
  · intro id a ha
    obtain ⟨hp, ht, hr⟩ := h.stored id a ha
    exact ⟨hp, ht, getElem?_snoc hr⟩
  · intro c e he
    obtain ⟨ha, ht, hc, hr⟩ := h.executing_taken c e he
    exact ⟨ha, ht, hc, getElem?_snoc hr⟩
  · intro r hr
    refine ⟨(h.returned_taken r hr).1, fun facts hfacts => ?_⟩
    obtain ⟨request, hrequest, hdescribes⟩ := (h.returned_taken r hr).2 facts hfacts
    exact ⟨request, getElem?_snoc hrequest, hdescribes⟩

/-- An attempt comes into the store, which drops the expired ones. -/
theorem stash (h : Attempts requests prompted store executing taken entered published returned)
    (id : String) (createdAt now : Nat) (hcall : call ∉ prompted.map Prompt.call)
    (hrequest : requests[call]? = some request) :
    Attempts requests (prompted ++ [⟨id, call⟩])
      (PendingAttempts.insert store id ⟨call, request, createdAt⟩ now) executing taken entered
      published returned := by
  refine { h with stored := ?_, taken_prompted := ?_ }
  · intro id' a ha
    rw [PendingAttempts.insert, OrderedMap.get_set] at ha
    split_ifs at ha with hid
    · cases ha
      refine ⟨by rw [hid]; exact mem_snoc, fun hmem => hcall ?_, hrequest⟩
      obtain ⟨t, ht, htc⟩ := List.mem_map.1 hmem
      exact List.mem_map.2 ⟨t.prompt, (h.taken_prompted t ht).1, htc⟩
    · obtain ⟨hp, ht, hr⟩ := h.stored id' a (OrderedMap.get_of_get_retain ha)
      exact ⟨List.mem_append_left _ hp, ht, hr⟩
  · intro t ht
    exact ⟨List.mem_append_left _ (h.taken_prompted t ht).1, (h.taken_prompted t ht).2⟩

theorem delete (h : Attempts requests prompted store executing taken entered published returned)
    (id : String) : Attempts requests prompted (store.delete id) executing taken entered published
      returned := by
  refine { h with stored := ?_ }
  intro id' a ha
  rw [OrderedMap.get_delete] at ha
  split_ifs at ha
  exact h.stored id' a ha

theorem take (h : Attempts requests prompted store executing taken entered published returned)
    (hprompted : (prompted.map Prompt.call).Nodup) {id : String} {a : PendingAttempt}
    (ha : store.get id = some a) {now : Nat} (hnow : now - a.createdAt ≤ PENDING_ATTEMPT_TTL) :
    Attempts requests prompted (store.delete id) (executing.set a.call ⟨id, a, .resolving⟩)
      (taken ++ [⟨⟨id, a.call⟩, a.createdAt, now⟩]) entered published returned := by
  obtain ⟨hp, hfresh, hrequest⟩ := h.stored id a ha
  have hentered : a.call ∉ entered.map (·.1.prompt.call) := by
    intro hmem
    obtain ⟨e, he, hcall⟩ := List.mem_map.1 hmem
    exact hfresh (List.mem_map.2 ⟨e.1, h.entered_taken e he, hcall⟩)
  have hreturned : a.call ∉ returned.map Returned.call := by
    intro hmem
    obtain ⟨r, hr, hcall⟩ := List.mem_map.1 hmem
    exact hfresh (hcall ▸ (h.returned_taken r hr).1)
  refine { h with
    stored := ?_, taken_prompted := ?_, taken_nodup := ?_, executing_taken := ?_, facts := ?_,
    running := ?_, entered_taken := ?_, returned_taken := ?_ }
  · intro id' b hb
    rw [OrderedMap.get_delete] at hb
    split_ifs at hb with hid
    obtain ⟨hpb, htb, hrb⟩ := h.stored id' b hb
    refine ⟨hpb, not_mem_map_snoc htb fun hcall => hid ?_, hrb⟩
    have heq := List.inj_on_of_nodup_map hprompted hpb hp hcall
    exact congrArg Prompt.id heq
  · exact forall_snoc h.taken_prompted ⟨hp, by dsimp only; omega⟩
  · exact nodup_map_snoc h.taken_nodup hfresh
  · intro c e he
    rw [OrderedMap.get_set] at he
    split_ifs at he with hc
    · cases he
      rw [hc]
      exact ⟨rfl, List.mem_map.2 ⟨_, mem_snoc, rfl⟩, hreturned, hrequest⟩
    · obtain ⟨hcall, ht, hr, hrq⟩ := h.executing_taken c e he
      exact ⟨hcall, mem_map_snoc ht, hr, hrq⟩
  · intro c e he
    rw [OrderedMap.get_set] at he
    split_ifs at he with hc
    · cases he
      exact nofun
    · exact h.facts c e he
  · intro c e he
    rw [OrderedMap.get_set] at he
    split_ifs at he with hc
    · cases he
      rw [hc]
      exact ⟨nofun, fun hmem => absurd hmem hentered⟩
    · exact h.running c e he
  · exact fun e he => List.mem_append_left _ (h.entered_taken e he)
  · exact fun r hr => ⟨mem_map_snoc (h.returned_taken r hr).1, (h.returned_taken r hr).2⟩

/-- An `execute` call goes on, short of the boundary. -/
theorem advance (h : Attempts requests prompted store executing taken entered published returned)
    {e : Executing} (he : executing.get call = some e) {stage : Stage}
    (hfacts : ∀ facts, stage.facts = some facts → Describes e.attempt.request facts)
    (hrunning : stage.isRunning = e.stage.isRunning) :
    Attempts requests prompted store (executing.set call { e with stage := stage }) taken entered
      published returned := by
  refine { h with executing_taken := ?_, facts := ?_, running := ?_ }
  · intro c e' he'
    rw [OrderedMap.get_set] at he'
    split_ifs at he' with hc
    · cases he'
      rw [hc]
      exact h.executing_taken call e he
    · exact h.executing_taken c e' he'
  · intro c e' he'
    rw [OrderedMap.get_set] at he'
    split_ifs at he' with hc
    · cases he'
      exact hfacts
    · exact h.facts c e' he'
  · intro c e' he'
    rw [OrderedMap.get_set] at he'
    split_ifs at he' with hc
    · cases he'
      rw [hc, hrunning]
      exact h.running _ _ he
    · exact h.running c e' he'

/-- The boundary is called. -/
theorem enter (h : Attempts requests prompted store executing taken entered published returned)
    {e : Executing} (he : executing.get call = some e) (stage : Stage)
    (hfacts : ∀ facts, stage.facts = some facts → Describes e.attempt.request facts)
    (hrunning : e.stage.isRunning = false) (hstage : stage.isRunning = true) {t : Taken}
    (ht : t ∈ taken) (hcall : t.prompt.call = call) (now : Nat) :
    Attempts requests prompted store (executing.set call { e with stage := stage }) taken
      (entered ++ [(t, now)]) published returned := by
  have hfresh : call ∉ entered.map (·.1.prompt.call) := by
    intro hmem
    rw [(h.running _ _ he).2 hmem] at hrunning
    cases hrunning
  refine { h with
    executing_taken := ?_, facts := ?_, running := ?_, entered_taken := ?_, entered_nodup := ?_,
    published_entered := ?_ }
  · intro c e' he'
    rw [OrderedMap.get_set] at he'
    split_ifs at he' with hc
    · cases he'
      rw [hc]
      exact h.executing_taken call e he
    · exact h.executing_taken c e' he'
  · intro c e' he'
    rw [OrderedMap.get_set] at he'
    split_ifs at he' with hc
    · cases he'
      exact hfacts
    · exact h.facts c e' he'
  · intro c e' he'
    rw [OrderedMap.get_set] at he'
    split_ifs at he' with hc
    · cases he'
      exact ⟨fun _ => List.mem_map.2 ⟨_, mem_snoc, hcall.trans hc.symm⟩, fun _ => hstage⟩
    · rw [h.running c e' he']
      refine ⟨mem_map_snoc, fun hmem => ?_⟩
      by_contra hno
      exact not_mem_map_snoc hno (by rw [hcall]; exact hc) hmem
  · exact forall_snoc h.entered_taken ht
  · exact nodup_map_snoc h.entered_nodup (by rw [hcall]; exact hfresh)
  · exact fun c hc => ⟨mem_map_snoc (h.published_entered c hc).1, (h.published_entered c hc).2⟩

/-- An `execute` call returns, with the publishes its boundary asked for. -/
theorem finish (h : Attempts requests prompted store executing taken entered published returned)
    {e : Executing} (he : executing.get call = some e) {facts : Option OperationFacts}
    (hfacts : ∀ f, facts = some f → Describes e.attempt.request f) {n : Nat} (hone : n ≤ 1)
    (hn : 0 < n → e.stage.isRunning = true) (outcome : ExecuteOutcome) :
    Attempts requests prompted store (executing.delete call) taken entered
      (published ++ List.replicate n call) (returned ++ [⟨call, facts, outcome⟩]) := by
  obtain ⟨-, htaken, hreturned, hrequest⟩ := h.executing_taken _ _ he
  have hget : ∀ c e', (executing.delete call).get c = some e' →
      c ≠ call ∧ executing.get c = some e' := by
    intro c e' he'
    rw [OrderedMap.get_delete] at he'
    split_ifs at he' with hc
    exact ⟨hc, he'⟩
  refine { h with
    executing_taken := ?_, facts := ?_, running := ?_, published_entered := ?_,
    published_nodup := ?_, returned_taken := ?_ }
  · intro c e' he'
    obtain ⟨hc, hold⟩ := hget c e' he'
    obtain ⟨ha, ht, hr, hrq⟩ := h.executing_taken c e' hold
    exact ⟨ha, ht, not_mem_map_snoc hr hc, hrq⟩
  · exact fun c e' he' => h.facts c e' (hget c e' he').2
  · exact fun c e' he' => h.running c e' (hget c e' he').2
  · intro c hc
    rcases List.mem_append.1 hc with hc | hc
    · exact ⟨(h.published_entered c hc).1, mem_map_snoc (h.published_entered c hc).2⟩
    · obtain ⟨hpos, rfl⟩ := List.mem_replicate.1 hc
      exact ⟨(h.running _ _ he).1 (hn (Nat.pos_of_ne_zero hpos)), List.mem_map.2 ⟨_, mem_snoc, rfl⟩⟩
  · refine h.published_nodup.append (List.nodup_replicate.2 hone) fun c hc hc' => ?_
    obtain ⟨-, rfl⟩ := List.mem_replicate.1 hc'
    exact hreturned (h.published_entered c hc).2
  · exact forall_snoc h.returned_taken ⟨htaken, fun f hf => ⟨_, hrequest, hfacts f hf⟩⟩

end Attempts

/-! ### The grants -/

theorem Spent.sub {held' : Held} (h : Spent held call facts)
    (hsub : ∀ m ∈ held'.minted, m ∈ held.minted) : Spent held' call facts :=
  fun m hm => h m (hsub m hm)

namespace Grantings

/-- Some grants leave the shared set. -/
theorem shrink (h : Grantings held minted copied executing returned) (held' : Held)
    (hsub : held'.minted.Sublist held.minted) :
    Grantings held' minted copied executing returned := by
  have hmem : ∀ m ∈ held'.minted, m ∈ held.minted := fun m hm => hsub.subset hm
  have hcalls : held'.calls.Sublist held.calls := hsub.map _
  exact
    { h with
      held_minted := fun m hm => h.held_minted m (hmem m hm)
      held_nodup := h.held_nodup.sublist hcalls
      copied_minted := fun c hc =>
        ⟨(h.copied_minted c hc).1, (h.copied_minted c hc).2.1,
          fun hin => (h.copied_minted c hc).2.2 (hcalls.subset hin)⟩
      executing_spent := fun c e he facts hf => (h.executing_spent c e he facts hf).sub hmem
      returned_spent := fun r hr facts hf => (h.returned_spent r hr facts hf).sub hmem }

/-- A grant comes into the shared set, of a call that has handed out no prompt. -/
theorem add (h : Grantings held minted copied executing returned) {held' : Held}
    (hadd : held'.minted = held.minted ++ [⟨call, grant⟩]) (hfresh : call ∉ minted.map Minted.call)
    (hexecuting : executing.get call = none) (hreturned : call ∉ returned.map Returned.call) :
    Grantings held' (minted ++ [⟨call, grant⟩]) copied executing returned := by
  have hheld : call ∉ held.calls := by
    intro hmem
    obtain ⟨m, hm, hcall⟩ := List.mem_map.1 hmem
    exact hfresh (List.mem_map.2 ⟨m, h.held_minted m hm, hcall⟩)
  have hspent : ∀ c, c ≠ call → ∀ f, Spent held c f → Spent held' c f := by
    intro c hc f hs m hm hmc
    rw [hadd] at hm
    rcases List.mem_append.1 hm with hm | hm
    · exact hs m hm hmc
    · rw [List.mem_singleton.1 hm] at hmc
      exact absurd hmc.symm hc
  refine { h with
    held_minted := ?_, held_nodup := ?_, copied_minted := ?_, executing_spent := ?_,
    returned_spent := ?_ }
  · intro m hm
    rw [hadd] at hm
    rcases List.mem_append.1 hm with hm | hm
    · exact List.mem_append_left _ (h.held_minted m hm)
    · exact List.mem_append_right _ hm
  · rw [Held.calls, hadd]
    exact nodup_map_snoc h.held_nodup hheld
  · intro c hc
    obtain ⟨hm, hlive, hout⟩ := h.copied_minted c hc
    refine ⟨List.mem_append_left _ hm, hlive, ?_⟩
    rw [Held.calls, hadd]
    refine not_mem_map_snoc hout fun hcall => hfresh ?_
    exact List.mem_map.2 ⟨c.1, hm, hcall⟩
  · intro c e he facts hf
    refine hspent c ?_ facts (h.executing_spent c e he facts hf)
    rintro rfl
    rw [hexecuting] at he
    cases he
  · intro r hr facts hf
    refine hspent r.call (fun hcall => hreturned ?_) facts (h.returned_spent r hr facts hf)
    exact List.mem_map.2 ⟨r, hr, hcall⟩

/-- An `execute` call begins or goes on. -/
theorem set (h : Grantings held minted copied executing returned) {e : Executing}
    (hspent : ∀ facts, e.stage.spent = some facts → Spent held call facts) :
    Grantings held minted copied (executing.set call e) returned := by
  refine { h with executing_spent := ?_ }
  intro c e' he' facts hf
  rw [OrderedMap.get_set] at he'
  split_ifs at he' with hc
  · cases he'
    rw [hc]
    exact hspent facts hf
  · exact h.executing_spent c e' he' facts hf

/-- A grant is copied, and with it every grant for these facts leaves the shared set. -/
theorem copy (h : Grantings held minted copied executing returned) {normalize : Path → String}
    {now : Nat} {m : Minted} (hm : held.find normalize facts now = some m) :
    Grantings (held.removeMatching normalize facts) minted (copied ++ [(m, now)]) executing
      returned := by
  obtain ⟨hin, hcovers, hlive⟩ := Held.of_find normalize hm
  have hcall : m.call ∈ held.calls := List.mem_map_of_mem hin
  have hout : m.call ∉ (held.removeMatching normalize facts).calls := by
    intro hmem
    obtain ⟨m', hm', heq⟩ := List.mem_map.1 hmem
    obtain ⟨hin', hnot⟩ := (Held.mem_removeMatching normalize).1 hm'
    rw [List.inj_on_of_nodup_map h.held_nodup hin' hin heq] at hnot
    exact hnot hcovers
  have hshrink := h.shrink (held.removeMatching normalize facts) List.filter_sublist
  refine { hshrink with copied_minted := ?_, copied_nodup := ?_ }
  · exact forall_snoc hshrink.copied_minted ⟨h.held_minted m hin, hlive, hout⟩
  · refine nodup_map_snoc h.copied_nodup fun hmem => ?_
    obtain ⟨c, hc, heq⟩ := List.mem_map.1 hmem
    exact (h.copied_minted c hc).2.2 (heq ▸ hcall)

theorem finish (h : Grantings held minted copied executing returned)
    {facts : Option OperationFacts} (hspent : ∀ f, facts = some f → Spent held call f)
    (outcome : ExecuteOutcome) :
    Grantings held minted copied (executing.delete call) (returned ++ [⟨call, facts, outcome⟩]) := by
  refine { h with executing_spent := ?_, returned_spent := ?_ }
  · intro c e he
    rw [OrderedMap.get_delete] at he
    split_ifs at he
    exact h.executing_spent c e he
  · exact forall_snoc h.returned_spent hspent

end Grantings

theorem spent_removeMatching (normalize : Path → String) (held : Held) (call : Nat)
    (facts : OperationFacts) : Spent (held.removeMatching normalize facts) call facts :=
  fun _ hm _ => ((Held.mem_removeMatching normalize).1 hm).2

end

/-! ### Steps -/

namespace Sound

variable {machine : Machine} {s s' : State} {call : Nat}

theorem clock (h : Sound s) (now : Nat) : Sound { s with clock := now } :=
  ⟨h.preparations, h.attempts, h.grantings⟩

theorem prepare (h : Sound s) (request : Request)
    (pre : Except Kernel.Publish.PublishError PublishPreflight)
    (forPrompt forScope : Path → Except String Path) :
    Sound (s.prepare machine request pre forPrompt forScope) := by
  unfold State.prepare
  cases hgrant : mintGrant machine request pre forPrompt forScope s.clock with
  | error e => exact h
  | ok grant =>
    exact ⟨h.preparations.begin (grants_of_mintGrant hgrant), h.attempts.grow request, h.grantings⟩

theorem not_returned (h : Sound s) (hc : call ∉ s.prompted.map Prompt.call) :
    call ∉ s.returned.map Returned.call := by
  intro hmem
  obtain ⟨r, hr, hcall⟩ := List.mem_map.1 hmem
  obtain ⟨t, ht, htc⟩ := List.mem_map.1 (h.attempts.returned_taken r hr).1
  exact hc (List.mem_map.2 ⟨t.prompt, (h.attempts.taken_prompted t ht).1, htc.trans hcall⟩)

theorem not_executing (h : Sound s) (hc : call ∉ s.prompted.map Prompt.call) :
    s.executing.get call = none := by
  rcases Option.eq_none_or_eq_some (s.executing.get call) with he | ⟨e, he⟩
  · exact he
  · obtain ⟨t, ht, htc⟩ := List.mem_map.1 (h.attempts.executing_taken _ _ he).2.1
    exact absurd (List.mem_map.2 ⟨t.prompt, (h.attempts.taken_prompted t ht).1, htc⟩) hc

theorem hold (h : Sound s) (hs : s.hold call = some s') : Sound s' := by
  unfold State.hold at hs
  split_ifs at hs
  split at hs
  · next request grant hp =>
    have hpruned := h.grantings.shrink (s.held.pruneExpired s.clock) List.filter_sublist
    dsimp only at hs
    split at hs
    · cases hs
      exact ⟨h.preparations.delete call, h.attempts, hpruned⟩
    · next held hadd =>
      cases hs
      have hminted : held.minted = (s.held.pruneExpired s.clock).minted ++ [⟨call, grant⟩] := by
        unfold Held.add at hadd
        split_ifs at hadd
        cases hadd
        rfl
      have hc := h.preparations.unprompted _ _ hp
      exact ⟨h.preparations.hold hp, h.attempts,
        hpruned.add hminted (h.preparations.holding _ _ _ hp).2 (h.not_executing hc)
          (h.not_returned hc)⟩
  · cases hs

theorem name (h : Sound s) {id : Except String String} (hs : s.name call id = some s') :
    Sound s' := by
  unfold State.name at hs
  split at hs
  · next request hp =>
    cases id with
    | error e =>
      cases hs
      exact ⟨h.preparations.delete call, h.attempts, h.grantings⟩
    | ok id =>
      cases hs
      refine ⟨h.preparations.set hp _ rfl nofun ?_, h.attempts, h.grantings⟩
      intro id' attempt heq
      cases heq
      rfl
  · cases hs

theorem stash (h : Sound s) (hs : s.stash call = some s') : Sound s' := by
  unfold State.stash at hs
  split at hs
  · next id attempt hp =>
    cases hs
    have hcall : attempt.call = call := h.preparations.stashing _ _ _ hp
    have hrequest : s.requests[call]? = some attempt.request := h.preparations.request _ _ hp
    obtain ⟨c, request, createdAt⟩ := attempt
    cases hcall
    exact ⟨h.preparations.stash hp id,
      h.attempts.stash id createdAt s.clock (h.preparations.unprompted _ _ hp) hrequest,
      h.grantings⟩
  · cases hs

theorem take (h : Sound s) (id : String) : Sound (s.take id) := by
  unfold State.take PendingAttempts.take
  rcases Option.eq_none_or_eq_some (s.store.get id) with ha | ⟨a, ha⟩
  · rw [ha]
    exact h
  · rw [ha]
    dsimp only
    by_cases hexpired : PENDING_ATTEMPT_TTL < s.clock - a.createdAt
    · rw [if_pos hexpired]
      exact ⟨h.preparations, h.attempts.delete id, h.grantings⟩
    · rw [if_neg hexpired]
      exact ⟨h.preparations,
        h.attempts.take h.preparations.prompted_nodup ha (Nat.not_lt.1 hexpired),
        h.grantings.set nofun⟩

theorem advance (h : Sound s) {e : Executing} (he : s.executing.get call = some e) {stage : Stage}
    (hfacts : ∀ facts, stage.facts = some facts → Describes e.attempt.request facts)
    (hrunning : stage.isRunning = e.stage.isRunning)
    (hspent : ∀ facts, stage.spent = some facts → Spent s.held call facts) :
    Sound (s.advance call e stage) :=
  ⟨h.preparations, h.attempts.advance he hfacts hrunning, h.grantings.set hspent⟩

theorem finish (h : Sound s) {e : Executing} (he : s.executing.get call = some e)
    {facts : Option OperationFacts} (hfacts : ∀ f, facts = some f → Describes e.attempt.request f)
    (hspent : ∀ f, facts = some f → Spent s.held call f) (outcome : ExecuteOutcome) :
    Sound (s.finish call facts outcome) := by
  have hattempts := h.attempts.finish he hfacts (Nat.zero_le 1) nofun outcome
  rw [List.replicate_zero, List.append_nil] at hattempts
  exact ⟨h.preparations, hattempts, h.grantings.finish hspent outcome⟩

theorem resolve (h : Sound s) {canonicalize : Path → Except String Path}
    {contentPin : Option String} (hs : s.resolve machine call canonicalize contentPin = some s') :
    Sound s' := by
  unfold State.resolve at hs
  split at hs
  · next e he =>
    split at hs
    · next hstage =>
      split at hs
      · cases hs
        refine h.finish he ?_ ?_ _
        · exact nofun
        · exact nofun
      · cases hs
        refine h.advance he ?_ (by rw [hstage]; rfl) nofun
        intro facts hf
        cases hf
        exact ⟨rfl, rfl⟩
    · cases hs
  · cases hs

theorem openAudit (h : Sound s) {log : Except AuditError Path}
    (hs : s.openAudit call log = some s') : Sound s' := by
  unfold State.openAudit at hs
  split at hs
  · next e he =>
    split at hs
    · next facts hstage =>
      have hfacts := h.attempts.facts _ _ he
      rw [hstage] at hfacts
      cases log with
      | error err =>
        cases hs
        exact h.advance he hfacts (by rw [hstage]; rfl) nofun
      | ok audit =>
        cases hs
        exact h.advance he hfacts (by rw [hstage]; rfl) nofun
    · cases hs
  · cases hs

theorem shrink (h : Sound s) (held : Held) (hsub : held.minted.Sublist s.held.minted) :
    Sound { s with held := held } :=
  ⟨h.preparations, h.attempts, h.grantings.shrink held hsub⟩

theorem consume (h : Sound s) (hs : s.consume machine call = some s') : Sound s' := by
  unfold State.consume at hs
  split_ifs at hs
  split at hs
  · next e he =>
    split at hs
    · next facts err hstage =>
      cases hs
      have hfacts := h.attempts.facts _ _ he
      rw [hstage] at hfacts
      have hremoved := h.shrink
        (s.held.removeMatching machine.normalizeDestination facts) List.filter_sublist
      refine hremoved.finish he hfacts ?_ _
      intro f hf
      cases hf
      exact spent_removeMatching _ _ _ _
    · cases hs
  · cases hs

theorem authorize (h : Sound s) (hs : s.authorize machine call = some s') : Sound s' := by
  unfold State.authorize at hs
  split_ifs at hs
  split at hs
  · next e he =>
    split at hs
    · next facts audit hstage =>
      have hfacts := h.attempts.facts _ _ he
      rw [hstage] at hfacts
      dsimp only at hs
      split at hs
      · next m one hm _ =>
        cases hs
        have hcopied : Sound { s with
            held := s.held.removeMatching machine.normalizeDestination facts
            copied := s.copied ++ [(m, s.clock)] } :=
          ⟨h.preparations, h.attempts, h.grantings.copy hm⟩
        refine hcopied.advance he hfacts (by rw [hstage]; rfl) ?_
        intro f hf
        cases hf
        exact spent_removeMatching _ _ _ _
      · cases hs
        have hguarded : Sound { s with guard := some call } :=
          ⟨h.preparations, h.attempts, h.grantings⟩
        exact hguarded.advance he hfacts (by rw [hstage]; rfl) nofun
    · cases hs
  · cases hs

theorem enter (h : Sound s) (hs : s.enter call = some s') : Sound s' := by
  unfold State.enter at hs
  split at hs
  · next e he =>
    split at hs
    · next facts audit authority t hstage ht =>
      cases hs
      have hfacts := h.attempts.facts _ _ he
      have hspent := h.grantings.executing_spent _ _ he
      rw [hstage] at hfacts hspent
      have hcall : t.prompt.call = call := by simpa using List.find?_some ht
      refine ⟨h.preparations,
        h.attempts.enter he (.running facts audit authority) hfacts (by rw [hstage]; rfl) rfl
          (List.mem_of_find?_eq_some ht) hcall s.clock, h.grantings.set ?_⟩
      cases authority with
      | own one => exact hspent
      | shared => exact nofun
    · cases hs
  · cases hs

theorem leave (h : Sound s) {tr : List (Lib.Event Answer)}
    (hs : s.leave machine call tr = some s') : Sound s' := by
  unfold State.leave at hs
  split at hs
  · next e he =>
    split at hs
    · next facts audit authority hstage =>
      have hfacts := h.attempts.facts _ _ he
      have hspent := h.grantings.executing_spent _ _ he
      rw [hstage] at hfacts hspent
      split at hs
      · cases hs
      · next r hr =>
        have hattempts := h.attempts.finish he hfacts (once_execute.runs (Prog.runs_of_replay hr))
          (fun _ => by rw [hstage]; rfl) (executeOutcome r)
        cases authority with
        | own one =>
          cases hs
          exact ⟨h.preparations, hattempts, h.grantings.finish hspent _⟩
        | shared =>
          cases hs
          refine ⟨h.preparations, hattempts,
            (h.grantings.shrink _ List.filter_sublist).finish ?_ _⟩
          intro f hf
          cases hf
          exact spent_removeMatching _ _ _ _
    · cases hs
  · cases hs

theorem step (h : Sound s) {e : Nat × Event} (hs : s.step machine e = some s') : Sound s' := by
  obtain ⟨now, e⟩ := e
  unfold State.step at hs
  split_ifs at hs
  have hclock := h.clock now
  cases e with
  | prepare request pre forPrompt forScope =>
    cases hs
    exact hclock.prepare request pre forPrompt forScope
  | hold call => exact hclock.hold hs
  | name call id => exact hclock.name hs
  | stash call => exact hclock.stash hs
  | take id =>
    cases hs
    exact hclock.take id
  | resolve call canonicalize contentPin => exact hclock.resolve hs
  | openAudit call log => exact hclock.openAudit hs
  | consume call => exact hclock.consume hs
  | authorize call => exact hclock.authorize hs
  | enter call => exact hclock.enter hs
  | leave call tr => exact hclock.leave hs

theorem run {events : List (Nat × Event)}
    (hs : runFrom (State.step machine) .new events = some s) : Sound s :=
  runFrom_keeps_all sound_new (fun _ _ _ ht hstep => ht.step hstep) hs

end Sound

/-! ### What every run keeps -/

/-- What has happened to the prompts so far. -/
structure SingleUse (s : State) : Prop where
  /-- An attempt is taken once, and in time. -/
  taken : (s.taken.map Taken.prompt).Subperm s.prompted
  in_time : ∀ t ∈ s.taken, t.time ≤ t.createdAt + PENDING_ATTEMPT_TTL
  /-- It reaches the boundary once. -/
  entered : (s.entered.map Prod.fst).Subperm s.taken
  /-- A grant is copied once, and not after it has expired. -/
  copied : (s.copied.map Prod.fst).Subperm s.minted
  unexpired : ∀ c ∈ s.copied, c.1.grant.expired c.2 = false
  minted : (s.minted.map Minted.call).Nodup
  /-- There are no more publishes than prompts, and each is one of an attempt that reached the
  boundary. -/
  published : s.published.Subperm (s.entered.map (·.1.prompt.call))
  published_le : s.published.length ≤ s.prompted.length
  /-- Once a call has returned, the grant of its attempt is gone, unless the call found the
  destination or the pin elsewhere. -/
  spent : ∀ m ∈ s.minted, ∀ r ∈ s.returned, r.call = m.call →
    ∀ facts, r.facts = some facts → Unmoved m.grant facts → m.call ∉ s.held.calls

theorem Sound.singleUse {s : State} (h : Sound s) : SingleUse s := by
  obtain ⟨hp, ha, hg⟩ := h
  have hprompt : (s.taken.map Taken.prompt).Nodup := by
    refine List.Nodup.of_map Prompt.call ?_
    rw [List.map_map]
    exact ha.taken_nodup
  have htaken : (s.taken.map Taken.prompt).Subperm s.prompted := by
    refine hprompt.subperm fun p hp => ?_
    obtain ⟨t, ht, rfl⟩ := List.mem_map.1 hp
    exact (ha.taken_prompted t ht).1
  have hentered : (s.entered.map Prod.fst).Subperm s.taken := by
    refine List.Nodup.subperm (List.Nodup.of_map (·.prompt.call) ?_) fun t ht => ?_
    · rw [List.map_map]
      exact ha.entered_nodup
    · obtain ⟨e, he, rfl⟩ := List.mem_map.1 ht
      exact ha.entered_taken e he
  have hpublished : s.published.Subperm (s.entered.map (·.1.prompt.call)) :=
    ha.published_nodup.subperm fun c hc => (ha.published_entered c hc).1
  refine
    { taken := htaken
      in_time := fun t ht => (ha.taken_prompted t ht).2
      entered := hentered
      copied := ?_
      unexpired := fun c hc => (hg.copied_minted c hc).2.1
      minted := hp.minted_nodup
      published := hpublished
      published_le := ?_
      spent := ?_ }
  · refine List.Nodup.subperm (List.Nodup.of_map Minted.call ?_) fun m hm => ?_
    · rw [List.map_map]
      exact hg.copied_nodup
    · obtain ⟨c, hc, rfl⟩ := List.mem_map.1 hm
      exact (hg.copied_minted c hc).1
  · have h₁ := hpublished.length_le
    have h₂ := hentered.length_le
    have h₃ := htaken.length_le
    rw [List.length_map] at h₁ h₂ h₃
    omega
  · intro m hm r hr hcall facts hf hunmoved hmem
    obtain ⟨m', hm', heq⟩ := List.mem_map.1 hmem
    have hsame : m' = m :=
      List.inj_on_of_nodup_map hp.minted_nodup (hg.held_minted m' hm') hm heq
    obtain ⟨request, hrequest, hgrants⟩ := hp.minted_grants m hm
    obtain ⟨request', hrequest', hdescribes⟩ := (ha.returned_taken r hr).2 facts hf
    rw [hcall, hrequest] at hrequest'
    cases hrequest'
    rw [hsame] at hm'
    exact hg.returned_spent r hr facts hf m hm' hcall.symm (hgrants.covers hdescribes hunmoved)

/-- **A prompt authorizes one publish.**  After any steps of overlapping calls every attempt was
taken once and in time and reached the boundary once, every grant was copied once, there are no more
publishes than prompts, and a call that returned has left no grant of its attempt behind, unless the
destination or the pin had moved under it; where no attempt id was minted twice, none has reached
the boundary twice. -/
theorem run_singleUse (machine : Machine) {events : List (Nat × Event)} {s : State}
    (h : runFrom (State.step machine) .new events = some s) :
    SingleUse s ∧ ((s.prompted.map Prompt.id).Nodup →
      (s.entered.map (·.1.prompt.id)).Nodup) := by
  have huse := (Sound.run h).singleUse
  refine ⟨huse, fun hfresh => ?_⟩
  obtain ⟨ts, htperm, htsub⟩ := huse.taken
  obtain ⟨es, heperm, hesub⟩ := huse.entered
  have htaken : (s.taken.map (·.prompt.id)).Nodup := by
    have hperm := htperm.map Prompt.id
    rw [List.map_map] at hperm
    exact hperm.nodup_iff.1 (hfresh.sublist (htsub.map Prompt.id))
  have hperm := heperm.map (·.prompt.id)
  rw [List.map_map] at hperm
  exact hperm.nodup_iff.1 (htaken.sublist (hesub.map (·.prompt.id)))

/-! ### Two prompts -/

/-- A machine on which nothing needs showing. -/
def plainMachine : Machine := ⟨fun _ => "", fun _ => "", false, fun _ => ""⟩

/-- The publish both prompts ask for. -/
def plainRequest : Request :=
  ⟨"parcels", ⟨[.rootDir, .normal "out", .normal "parcels"]⟩, ⟨.osUser, "operator"⟩⟩

/-- A call of `prepare` on a file system that resolves every path to itself. -/
def prompting (now call : Nat) (id : String) : List (Nat × Event) :=
  [(now, .prepare plainRequest (.ok ⟨"00", "style"⟩) .ok .ok), (now, .hold call),
    (now, .name call (.ok id)), (now, .stash call)]

/-- The attempt `a` is taken a second before it expires and reaches the boundary a second after;
the destination of the attempt `b` is gone when it is executed. -/
def lateAndLost : List (Nat × Event) :=
  let late := 599 * NANOS_PER_SEC
  let later := 601 * NANOS_PER_SEC
  prompting 0 0 "a" ++
    [(late, .take "a"), (late, .resolve 0 .ok (some "00")), (late, .openAudit 0 (.ok Path.here)),
      (late, .authorize 0), (later, .enter 0)] ++
    prompting later 1 "b" ++ [(later, .take "b"), (later, .resolve 1 (fun _ => .error "gone") none)]

theorem lateAndLost_run : ∃ s, runFrom (State.step plainMachine) .new lateAndLost = some s ∧
    (∃ e ∈ s.entered, e.1.createdAt + PENDING_ATTEMPT_TTL < e.2) ∧
    ∃ m ∈ s.minted, ∃ r ∈ s.returned, r.call = m.call ∧ m.call ∈ s.held.calls := by
  refine ⟨_, rfl, ⟨_, List.mem_singleton.2 rfl, by decide⟩, ?_⟩
  exact ⟨_, List.mem_cons_of_mem _ (List.mem_singleton.2 rfl), _, List.mem_singleton.2 rfl, rfl,
    List.mem_singleton.2 rfl⟩

theorem run_singleUse_late : ∃ s, runFrom (State.step plainMachine) .new lateAndLost = some s ∧
    s.entered.length = 1 ∧ SingleUse s ∧ (s.entered.map (·.1.prompt.id)).Nodup := by
  obtain ⟨s, hs, hids, hlen⟩ : ∃ s, runFrom (State.step plainMachine) .new lateAndLost = some s ∧
      s.prompted.map Prompt.id = ["a", "b"] ∧ s.entered.length = 1 := ⟨_, rfl, rfl, rfl⟩
  have huse := run_singleUse plainMachine hs
  exact ⟨s, hs, hlen, huse.1, huse.2 (by rw [hids]; decide)⟩

end SpatialIde.Shell.Publish
