import SpatialIde.Kernel.Permission.Grant

/-! # Looking a grant up among the grants held

A lookup answers with the first grant that covers the facts and has not expired, or with the weakest
condition that no grant meets.  Pruning takes only grants a later lookup would pass over, and
`remove_matching` takes every grant a lookup of the same facts could find.
-/

namespace SpatialIde.Kernel.Permission

open Lib

namespace PublishGrant

instance (g : PublishGrant) (facts : OperationFacts) : Decidable (g.Covers facts) :=
  decidable_of_iff
    (g.operation = facts.operation ∧ g.source.datasetName = facts.datasetName ∧
      g.source.contentHash = facts.contentHash ∧ g.destination.covers facts.destination = true)
    ⟨fun ⟨hop, hname, hhash, hdest⟩ => ⟨hop, hname, hhash, hdest⟩,
      fun ⟨hop, hname, hhash, hdest⟩ => ⟨hop, hname, hhash, hdest⟩⟩

/-- The grant would be found for the facts at `now` if it stood alone. -/
structure Authorizes (g : PublishGrant) (facts : OperationFacts) (now : Nat) : Prop where
  covers : g.Covers facts
  live : g.expired now = false

instance (g : PublishGrant) (facts : OperationFacts) (now : Nat) :
    Decidable (g.Authorizes facts now) :=
  decidable_of_iff (g.Covers facts ∧ g.expired now = false)
    ⟨fun ⟨hcov, hlive⟩ => ⟨hcov, hlive⟩, fun ⟨hcov, hlive⟩ => ⟨hcov, hlive⟩⟩

/-- How long ago an expired grant lapsed. -/
def lapsedFor (g : PublishGrant) (now : Nat) : Nat := g.elapsed now - g.lifetime

/-- A grant that authorizes later has not expired earlier. -/
theorem Authorizes.live_of_le {g : PublishGrant} {facts : OperationFacts} {t t' : Nat}
    (h : g.Authorizes facts t') (hle : t ≤ t') : g.expired t = false := by
  by_contra hexp
  have hlate := expired_mono hle (by simpa using hexp)
  rw [h.live] at hlate
  exact Bool.noConfusion hlate

end PublishGrant

namespace GrantSet

section Lookups

variable (normalize : Path → String) (s : GrantSet) (facts : OperationFacts)

/-- The two filters of `find` keep the grants that cover the facts, in order. -/
theorem inScope_eq :
    ((s.grants.filter fun g => g.operation == facts.operation).filter
      fun g => (g.scopeMismatch normalize facts).isNone) =
    s.grants.filter fun g => decide (g.Covers facts) := by
  rw [List.filter_filter]
  refine List.filter_congr fun g _ => ?_
  rw [Bool.eq_iff_iff, decide_eq_true_iff, @PublishGrant.covers_iff normalize]
  simp only [Bool.and_eq_true, beq_iff_eq, Option.isNone_iff_eq_none]
  exact And.comm

theorem find?_inScope (now : Nat) :
    ((s.grants.filter fun g => decide (g.Covers facts)).find? fun g => !g.expired now) =
      s.grants.find? fun g => decide (g.Authorizes facts now) := by
  rw [List.find?_filter]
  congr 1
  funext g
  rw [Bool.eq_iff_iff]
  simp only [decide_eq_true_iff, Bool.not_eq_true']
  exact ⟨fun ⟨hcov, hlive⟩ => ⟨hcov, hlive⟩, fun ⟨hcov, hlive⟩ => ⟨hcov, hlive⟩⟩

/-- `find` over the grants that cover the facts. -/
theorem find_eq (now : Nat) :
    s.find normalize facts now =
      let forOperation := s.grants.filter fun g => g.operation == facts.operation
      let inScope := s.grants.filter fun g => decide (g.Covers facts)
      if forOperation = [] then .error (.noGrant facts.operation.asStr)
      else if inScope = [] then
        .error (.grantScopeMismatch
          ((forOperation.findSome? fun g => g.scopeMismatch normalize facts).getD
            "no grant covers it"))
      else
        match s.grants.find? fun g => decide (g.Authorizes facts now) with
        | some g => .ok g
        | none =>
          match inScope.argmin fun g => g.lapsedFor now with
          | some g => .error (.grantExpired (asSecs g.lifetime) (asSecs (g.elapsed now)))
          | none => .error (.grantExpired 0 0) := by
  simp only [find, inScope_eq, find?_inScope]
  rfl

theorem forOperation_eq_nil :
    (s.grants.filter fun g => g.operation == facts.operation) = [] ↔
      ∀ g ∈ s.grants, g.operation ≠ facts.operation := by
  rw [List.filter_eq_nil_iff]
  exact forall₂_congr fun g _ => not_congr beq_iff_eq

theorem inScope_eq_nil :
    (s.grants.filter fun g => decide (g.Covers facts)) = [] ↔ ∀ g ∈ s.grants, ¬g.Covers facts := by
  simp [List.filter_eq_nil_iff]

end Lookups

/-- What a lookup answers, by the weakest condition that some grant meets. -/
structure Answers (normalize : Path → String) (s : GrantSet) (facts : OperationFacts) (now : Nat) :
    Prop where
  found : (∃ g, s.find normalize facts now = .ok g) ↔ ∃ g ∈ s.grants, g.Authorizes facts now
  /-- The first grant that covers the facts and has not expired. -/
  ok : ∀ g, s.find normalize facts now = .ok g ↔ ∃ before after,
    s.grants = before ++ g :: after ∧ g.Authorizes facts now ∧
      ∀ h ∈ before, ¬h.Authorizes facts now
  noGrant : s.find normalize facts now = .error (.noGrant facts.operation.asStr) ↔
    ∀ g ∈ s.grants, g.operation ≠ facts.operation
  scopeMismatch : (∃ detail, s.find normalize facts now = .error (.grantScopeMismatch detail)) ↔
    (∃ g ∈ s.grants, g.operation = facts.operation) ∧ ∀ g ∈ s.grants, ¬g.Covers facts
  /-- Every grant that covers the facts has lapsed, and the error tells of one that did so last. -/
  expired : (∃ g ∈ s.grants, g.Covers facts ∧
      (∀ h ∈ s.grants, h.Covers facts → g.lapsedFor now ≤ h.lapsedFor now) ∧
      s.find normalize facts now =
        .error (.grantExpired (asSecs g.lifetime) (asSecs (g.elapsed now)))) ↔
    (∃ g ∈ s.grants, g.Covers facts) ∧ ∀ g ∈ s.grants, g.Covers facts → g.expired now = true

section Cases

variable {normalize : Path → String} {s : GrantSet} {facts : OperationFacts} {now : Nat}

theorem find_of_no_operation (h : ∀ g ∈ s.grants, g.operation ≠ facts.operation) :
    s.find normalize facts now = .error (.noGrant facts.operation.asStr) := by
  rw [find_eq]
  exact if_pos ((forOperation_eq_nil s facts).2 h)

theorem find_of_no_scope (hop : ∃ g ∈ s.grants, g.operation = facts.operation)
    (h : ∀ g ∈ s.grants, ¬g.Covers facts) :
    ∃ detail, s.find normalize facts now = .error (.grantScopeMismatch detail) := by
  rw [find_eq]
  obtain ⟨g, hg, hgop⟩ := hop
  have hsome : ¬(s.grants.filter fun g => g.operation == facts.operation) = [] :=
    fun hnil => (forOperation_eq_nil s facts).1 hnil g hg hgop
  exact ⟨_, (if_neg hsome).trans (if_pos ((inScope_eq_nil s facts).2 h))⟩

/-- With a covering grant, only the search for a live one is left. -/
theorem find_of_covers (h : ∃ g ∈ s.grants, g.Covers facts) :
    s.find normalize facts now =
      match s.grants.find? fun g => decide (g.Authorizes facts now) with
      | some g => .ok g
      | none =>
        match (s.grants.filter fun g => decide (g.Covers facts)).argmin fun g => g.lapsedFor now with
        | some g => .error (.grantExpired (asSecs g.lifetime) (asSecs (g.elapsed now)))
        | none => .error (.grantExpired 0 0) := by
  obtain ⟨g, hg, hcov⟩ := h
  have hop : ¬(s.grants.filter fun g => g.operation == facts.operation) = [] :=
    fun hnil => (forOperation_eq_nil s facts).1 hnil g hg hcov.operation
  have hscope : ¬(s.grants.filter fun g => decide (g.Covers facts)) = [] :=
    fun hnil => (inScope_eq_nil s facts).1 hnil g hg hcov
  rw [find_eq]
  exact (if_neg hop).trans (if_neg hscope)

theorem find_of_expired (h : ∃ g ∈ s.grants, g.Covers facts)
    (hexp : ∀ g ∈ s.grants, g.Covers facts → g.expired now = true) :
    ∃ g ∈ s.grants, g.Covers facts ∧
      (∀ h ∈ s.grants, h.Covers facts → g.lapsedFor now ≤ h.lapsedFor now) ∧
      s.find normalize facts now =
        .error (.grantExpired (asSecs g.lifetime) (asSecs (g.elapsed now))) := by
  have hnone : (s.grants.find? fun g => decide (g.Authorizes facts now)) = none := by
    refine List.find?_eq_none.2 fun g hg hauth => ?_
    have hauth : g.Authorizes facts now := of_decide_eq_true hauth
    exact absurd (hexp g hg hauth.covers) (by simp [hauth.live])
  have hcovers := h
  obtain ⟨g, hg, hcov⟩ := h
  rw [find_of_covers hcovers, hnone]
  cases hmin : (s.grants.filter fun g => decide (g.Covers facts)).argmin
      fun g => g.lapsedFor now with
  | none =>
    rw [List.argmin_eq_none, inScope_eq_nil] at hmin
    exact absurd hcov (hmin g hg)
  | some m =>
    have hmem := List.mem_filter.1 (List.argmin_mem hmin)
    refine ⟨m, hmem.1, of_decide_eq_true hmem.2, fun h hh hhcov => ?_, rfl⟩
    exact List.le_of_mem_argmin (List.mem_filter.2 ⟨hh, decide_eq_true hhcov⟩) hmin

theorem find_eq_ok_iff (g : PublishGrant) :
    s.find normalize facts now = .ok g ↔
      (s.grants.find? fun g => decide (g.Authorizes facts now)) = some g := by
  constructor
  · intro hfind
    have hcov : ∃ g ∈ s.grants, g.Covers facts :=
      ⟨g, (find_eq_ok hfind).1, (find_eq_ok hfind).2.1⟩
    rw [find_of_covers hcov] at hfind
    split at hfind
    · next g' hg' => cases hfind; exact hg'
    · split at hfind <;> cases hfind
  · intro hfind
    have hauth : g.Authorizes facts now := by
      have hfound := List.find?_some hfind
      exact of_decide_eq_true hfound
    rw [find_of_covers ⟨g, List.mem_of_find?_eq_some hfind, hauth.covers⟩, hfind]

/-- The three errors and a grant found are the only answers, each with its own condition. -/
theorem answers (normalize : Path → String) (s : GrantSet) (facts : OperationFacts) (now : Nat) :
    s.Answers normalize facts now where
  found := by
    refine ⟨fun ⟨g, hfind⟩ => ?_, fun ⟨g, hg, hauth⟩ => ?_⟩
    · exact ⟨g, (find_eq_ok hfind).1, (find_eq_ok hfind).2.1, (find_eq_ok hfind).2.2⟩
    · cases hsearch : s.grants.find? fun g => decide (g.Authorizes facts now) with
      | none => exact absurd (decide_eq_true hauth) (List.find?_eq_none.1 hsearch g hg)
      | some found => exact ⟨found, (find_eq_ok_iff found).2 hsearch⟩
  ok g := by
    rw [find_eq_ok_iff, List.find?_eq_some_iff_append]
    simp only [decide_eq_true_iff, Bool.not_eq_true', decide_eq_false_iff_not]
    exact ⟨fun ⟨hauth, before, after, hs, hbefore⟩ => ⟨before, after, hs, hauth, hbefore⟩,
      fun ⟨before, after, hs, hauth, hbefore⟩ => ⟨hauth, before, after, hs, hbefore⟩⟩
  noGrant := by
    refine ⟨fun hfind => ?_, find_of_no_operation⟩
    by_contra hop
    push Not at hop
    by_cases hcov : ∃ g ∈ s.grants, g.Covers facts
    · rw [find_of_covers hcov] at hfind
      split at hfind
      · cases hfind
      · split at hfind <;> cases hfind
    · push Not at hcov
      obtain ⟨detail, hdetail⟩ := @find_of_no_scope normalize s facts now hop hcov
      rw [hdetail] at hfind
      cases hfind
  scopeMismatch := by
    refine ⟨fun ⟨detail, hfind⟩ => ⟨?_, ?_⟩, fun ⟨hop, hcov⟩ => find_of_no_scope hop hcov⟩
    · by_contra hop
      push Not at hop
      rw [find_of_no_operation hop] at hfind
      cases hfind
    · by_contra hcov
      push Not at hcov
      rw [find_of_covers hcov] at hfind
      split at hfind
      · cases hfind
      · split at hfind <;> cases hfind
  expired := by
    refine ⟨fun ⟨g, hg, hcov, _, hfind⟩ => ⟨⟨g, hg, hcov⟩, fun h hh hhcov => ?_⟩,
      fun ⟨hcov, hexp⟩ => find_of_expired hcov hexp⟩
    by_contra hlive
    have hauth : h.Authorizes facts now := ⟨hhcov, by simpa using hlive⟩
    cases hsearch : s.grants.find? fun g => decide (g.Authorizes facts now) with
    | none => exact List.find?_eq_none.1 hsearch h hh (decide_eq_true hauth)
    | some found =>
      rw [(find_eq_ok_iff found).2 hsearch] at hfind
      cases hfind

end Cases

/-- What pruning takes, a lookup at a later time passes over. -/
theorem find_pruneExpired (normalize : Path → String) (s : GrantSet) (facts : OperationFacts)
    {t t' : Nat} (hle : t ≤ t') (g : PublishGrant) :
    (s.pruneExpired t).find normalize facts t' = .ok g ↔ s.find normalize facts t' = .ok g := by
  rw [find_eq_ok_iff, find_eq_ok_iff, pruneExpired, List.find?_filter]
  have hsame : (fun g : PublishGrant => !g.expired t && decide (g.Authorizes facts t')) =
      fun g => decide (g.Authorizes facts t') := by
    funext g
    by_cases hauth : g.Authorizes facts t'
    · simp [hauth, hauth.live_of_le hle]
    · simp [hauth]
  simp only [Bool.decide_and, Bool.decide_eq_true] at *
  rw [hsame]

theorem removeMatching_grants (normalize : Path → String) (s : GrantSet) (facts : OperationFacts) :
    (s.removeMatching normalize facts).2.grants = s.grants.filter fun g => ¬g.Covers facts := by
  refine List.filter_congr fun g _ => ?_
  rw [Bool.eq_iff_iff, decide_eq_true_iff, @PublishGrant.covers_iff normalize, not_and_or,
    Bool.or_eq_true, bne_iff_ne, Option.isSome_iff_ne_none]

theorem find_removeMatching (normalize : Path → String) (s : GrantSet) (facts : OperationFacts)
    (now : Nat) (g : PublishGrant) :
    (s.removeMatching normalize facts).2.find normalize facts now ≠ .ok g := by
  intro hfind
  obtain ⟨hmem, hcov, _⟩ := find_eq_ok hfind
  rw [removeMatching_grants] at hmem
  exact of_decide_eq_true (List.mem_filter.1 hmem).2 hcov

/-- One call on the set. -/
inductive Call where
  | add (grant : PublishGrant)
  | pruneExpired (now : Nat)
  | removeMatching (facts : OperationFacts)
  | find (facts : OperationFacts) (now : Nat)
  deriving DecidableEq, Repr

/-- The set after one call: a refused `add` and a `find` leave it as it is. -/
def call (normalize : Path → String) (s : GrantSet) : Call → GrantSet
  | .add grant =>
    match s.add grant with
    | .ok s' => s'
    | .error _ => s
  | .pruneExpired now => s.pruneExpired now
  | .removeMatching facts => (s.removeMatching normalize facts).2
  | .find _ _ => s

/-- The set after the calls, from the empty one. -/
def run (normalize : Path → String) (calls : List Call) : GrantSet :=
  calls.foldl (call normalize) empty

/-- Whatever was added, pruned, removed and looked up before, a lookup answers with the first grant
that authorizes the facts, pruning before it changes no grant it returns, and a removal of the same
facts leaves it nothing. -/
theorem lookups_of_run (normalize : Path → String) (calls : List Call) (facts : OperationFacts) :
    (run normalize calls).grants.length ≤ MAX_GRANTS ∧
    (∀ now, (run normalize calls).Answers normalize facts now) ∧
    (∀ t t' g, t ≤ t' →
      (((run normalize calls).pruneExpired t).find normalize facts t' = .ok g ↔
        (run normalize calls).find normalize facts t' = .ok g)) ∧
    (∀ now g,
      ((run normalize calls).removeMatching normalize facts).2.find normalize facts now ≠ .ok g) ∧
    ((run normalize calls).removeMatching normalize facts).2.grants =
      (run normalize calls).grants.filter fun g => ¬g.Covers facts := by
  refine ⟨(run normalize calls).length_le, fun now => answers _ _ _ now, fun t t' g hle => ?_,
    fun now g => find_removeMatching _ _ _ now g, removeMatching_grants _ _ _⟩
  exact find_pruneExpired normalize _ facts hle g

end GrantSet

end SpatialIde.Kernel.Permission
