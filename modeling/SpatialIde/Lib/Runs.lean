import Mathlib.Data.List.Induction
import Mathlib.Data.List.Nodup

/-! # Runs of a machine that takes events

A machine is a step that takes a state and an event, where it can.  `runFrom` takes a list of
events, and `Meets` says that each of them meets a condition on the state it finds.  What holds at
the start and is kept by every step that meets the condition holds after every such run.
-/

namespace Lib

variable {σ ε : Type} {step : σ → ε → Option σ} {ok : σ → ε → Prop} {s : σ} {es : List ε}

def runFrom (step : σ → ε → Option σ) (s : σ) (es : List ε) : Option σ := es.foldlM step s

theorem runFrom_snoc (step : σ → ε → Option σ) (s : σ) (es : List ε) (e : ε) :
    runFrom step s (es ++ [e]) = (runFrom step s es).bind (step · e) := by
  rw [runFrom, List.foldlM_append]
  refine congrArg _ (funext fun t => ?_)
  exact bind_pure (step t e)

theorem runFrom_append (step : σ → ε → Option σ) (s : σ) (es es' : List ε) :
    runFrom step s (es ++ es') = (runFrom step s es).bind (runFrom step · es') := by
  rw [runFrom, List.foldlM_append]
  rfl

/-- Every event meets the condition on the state it finds. -/
def Meets (step : σ → ε → Option σ) (ok : σ → ε → Prop) (s : σ) (es : List ε) : Prop :=
  ∀ pre e post t, es = pre ++ e :: post → runFrom step s pre = some t → ok t e

theorem Meets.append_left {es' : List ε} (h : Meets step ok s (es ++ es')) :
    Meets step ok s es := by
  intro pre e post t hes ht
  exact h pre e (post ++ es') t (by rw [hes, List.append_assoc]; rfl) ht

theorem meets_nil : Meets step ok s [] := by
  intro pre e post t hes
  cases pre <;> cases hes

theorem Meets.cons {e : ε} {t : σ} (he : ok s e) (ht : step s e = some t)
    (h : Meets step ok t es) : Meets step ok s (e :: es) := by
  intro pre a post u hes hu
  cases pre with
  | nil =>
    cases hes
    cases hu
    exact he
  | cons b pre =>
    rw [List.cons_append, List.cons.injEq] at hes
    obtain ⟨rfl, hes⟩ := hes
    refine h pre a post u hes ?_
    rw [runFrom, List.foldlM_cons, ht] at hu
    exact hu

/-- What every step keeps holds after a run. -/
theorem runFrom_keeps {I : σ → Prop} (hs : I s)
    (hstep : ∀ t e t', I t → ok t e → step t e = some t' → I t') (h : Meets step ok s es)
    {t : σ} (ht : runFrom step s es = some t) : I t := by
  induction es using List.reverseRecOn generalizing t with
  | nil =>
    cases ht
    exact hs
  | append_singleton es e ih =>
    rw [runFrom_snoc] at ht
    cases hes : runFrom step s es with
    | none =>
      rw [hes] at ht
      cases ht
    | some u =>
      rw [hes] at ht
      exact hstep u e t (ih h.append_left hes) (h es e [] u rfl hes) ht

/-- What every step keeps, whatever the event. -/
theorem runFrom_keeps_all {I : σ → Prop} (hs : I s)
    (hstep : ∀ t e t', I t → step t e = some t' → I t') {t : σ} (ht : runFrom step s es = some t) :
    I t := by
  have htrivial : Meets step (fun _ _ => True) s es := fun _ _ _ _ _ _ => trivial
  exact runFrom_keeps hs (fun t e t' h _ => hstep t e t' h) htrivial ht

/-- What every step keeps of a state and the events before it. -/
theorem runFrom_keeps_history {I : List ε → σ → Prop} (hs : I [] s)
    (hstep : ∀ es t e t', I es t → step t e = some t' → I (es ++ [e]) t') {t : σ}
    (ht : runFrom step s es = some t) : I es t := by
  induction es using List.reverseRecOn generalizing t with
  | nil =>
    cases ht
    exact hs
  | append_singleton es e ih =>
    rw [runFrom_snoc] at ht
    obtain ⟨u, hu, he⟩ := Option.bind_eq_some_iff.1 ht
    exact hstep es u e t (ih hu) he

/-! ### Histories

A history grows at its end: what holds of all its entries, of one of them, and of one of them and
those before it.
-/

section

variable {α β : Type} {es : List α} {e : α} {p : α → Prop}

theorem forall_snoc (hes : ∀ a ∈ es, p a) (he : p e) : ∀ a ∈ es ++ [e], p a := by
  intro a ha
  rcases List.mem_append.1 ha with ha | ha
  · exact hes a ha
  · rw [List.mem_singleton.1 ha]
    exact he

theorem exists_snoc (hes : ∃ a ∈ es, p a) : ∃ a ∈ es ++ [e], p a := by
  obtain ⟨a, ha, hp⟩ := hes
  exact ⟨a, List.mem_append_left _ ha, hp⟩

theorem mem_snoc : e ∈ es ++ [e] := List.mem_append_right _ List.mem_cons_self

/-- An entry of a history is the last one, or one of the history before that. -/
theorem snoc_eq_append_cons {pre post : List α} {a : α} (h : es ++ [e] = pre ++ a :: post) :
    (pre = es ∧ a = e ∧ post = []) ∨ ∃ post', post = post' ++ [e] ∧ es = pre ++ a :: post' := by
  rcases List.eq_nil_or_concat post with rfl | ⟨post', last, rfl⟩
  · obtain ⟨hes, hlast⟩ := List.append_inj' h rfl
    exact .inl ⟨hes.symm, (List.singleton_inj.1 hlast).symm, rfl⟩
  · rw [List.concat_eq_append] at h ⊢
    rw [← List.cons_append, ← List.append_assoc] at h
    obtain ⟨hes, hlast⟩ := List.append_inj' h rfl
    rw [List.singleton_inj.1 hlast]
    exact .inr ⟨post', rfl, hes⟩

theorem nodup_map_snoc {f : α → β} (hes : (es.map f).Nodup) (he : f e ∉ es.map f) :
    ((es ++ [e]).map f).Nodup := by
  rw [List.map_append]
  exact hes.append (List.nodup_singleton _) (List.disjoint_singleton.2 he)

theorem mem_map_snoc {f : α → β} {b : β} (hb : b ∈ es.map f) : b ∈ (es ++ [e]).map f := by
  rw [List.map_append]
  exact List.mem_append_left _ hb

theorem not_mem_map_snoc {f : α → β} {b : β} (hb : b ∉ es.map f) (he : b ≠ f e) :
    b ∉ (es ++ [e]).map f := by
  rw [List.map_append, List.mem_append, not_or]
  exact ⟨hb, fun hmem => he (List.mem_singleton.1 hmem)⟩

end

end Lib
