import SpatialIde.Kernel.Permission.Error
import SpatialIde.Lib.Path

/-! # Scoped publish grants

A grant authorizes one kind of operation against one source and one destination scope, for a time.
Times are nanoseconds of the monotonic clock.  `find_eq_ok` says what a grant that was found gives;
`expired_mono` that a grant stays expired.
-/

namespace SpatialIde.Kernel.Permission

open Lib

inductive OperationKind where
  | publish
  deriving DecidableEq, Repr

/-- `publish::OPERATION`. -/
def OPERATION : String := "publish-static-bundle"

def OperationKind.asStr : OperationKind → String
  | publish => OPERATION

inductive PrincipalKind where
  | osUser
  deriving DecidableEq, Repr

def PrincipalKind.asStr : PrincipalKind → String
  | osUser => "os-user"

structure Principal where
  kind : PrincipalKind
  id : String
  deriving DecidableEq, Repr

structure SourceScope where
  datasetName : String
  contentHash : String
  deriving DecidableEq, Repr

inductive DestinationScope where
  /-- One resolved path. -/
  | exact (path : Path)
  | directChildOf (dir : Path)
  deriving DecidableEq, Repr

namespace DestinationScope

def covers (scope : DestinationScope) (resolved : Path) : Bool :=
  match scope with
  | .exact p => p = resolved
  | .directChildOf d => resolved.parent = some d

/-- `normalize` is `normalize_destination`, which reads the environment. -/
def describe (normalize : Path → String) : DestinationScope → String
  | .exact p => "exactly \x60" ++ normalize p ++ "\x60"
  | .directChildOf d => "a direct child of \x60" ++ normalize d ++ "\x60"

end DestinationScope

structure OperationFacts where
  operation : OperationKind
  datasetName : String
  contentHash : String
  /-- The resolved destination. -/
  destination : Path
  deriving DecidableEq, Repr

def NANOS_PER_SEC : Nat := 1000000000

/-- `Duration::as_secs`. -/
def asSecs (nanos : Nat) : Nat := nanos / NANOS_PER_SEC

/-- Twenty minutes. -/
def MAX_GRANT_LIFETIME : Nat := 20 * 60 * NANOS_PER_SEC

def MAX_GRANTS : Nat := 64

structure PublishGrant where
  operation : OperationKind
  source : SourceScope
  destination : DestinationScope
  grantedBy : Principal
  grantedAt : Nat
  lifetime : Nat
  /-- The declared ceiling on a lifetime, which `PublishGrant::new` checks. -/
  lifetime_le : lifetime ≤ MAX_GRANT_LIFETIME
  deriving DecidableEq, Repr

namespace PublishGrant

/-- `PublishGrant::new` at the time `now`. -/
def new (operation : OperationKind) (source : SourceScope) (destination : DestinationScope)
    (grantedBy : Principal) (lifetime now : Nat) : Except PermissionError PublishGrant :=
  if h : lifetime ≤ MAX_GRANT_LIFETIME then
    .ok ⟨operation, source, destination, grantedBy, now, lifetime, h⟩
  else .error (.grantLifetimeExceeded (asSecs lifetime) (asSecs MAX_GRANT_LIFETIME))

def elapsed (g : PublishGrant) (now : Nat) : Nat := now - g.grantedAt

def remaining (g : PublishGrant) (now : Nat) : Nat := g.lifetime - g.elapsed now

def expired (g : PublishGrant) (now : Nat) : Bool := g.lifetime ≤ g.elapsed now

/-- The first part of the scope that does not cover the facts. -/
def scopeMismatch (normalize : Path → String) (g : PublishGrant) (facts : OperationFacts) :
    Option String :=
  if g.source.datasetName ≠ facts.datasetName then
    some ("the grant scopes dataset \x60" ++ g.source.datasetName ++ "\x60 and this publish names \x60" ++
      facts.datasetName ++ "\x60 — the catalog name becomes \x60spatial://dataset/<name>\x60 in the " ++
      "manifest, so it is part of the artifact the grant authorizes, not a handle")
  else if g.source.contentHash ≠ facts.contentHash then
    some ("the grant scopes source content \x60" ++ g.source.contentHash ++
      "\x60 and this publish's source hashes to \x60" ++ facts.contentHash ++ "\x60. The hash " ++
      "compared is the one read from the file, never one the request supplied")
  else if ¬g.destination.covers facts.destination then
    some ("the grant scopes " ++ g.destination.describe normalize ++
      " and this publish resolves to \x60" ++ normalize facts.destination ++ "\x60")
  else none

/-- The grant authorizes the operation, whenever it is used. -/
structure Covers (g : PublishGrant) (facts : OperationFacts) : Prop where
  operation : g.operation = facts.operation
  datasetName : g.source.datasetName = facts.datasetName
  contentHash : g.source.contentHash = facts.contentHash
  destination : g.destination.covers facts.destination = true

theorem covers_iff {normalize : Path → String} {g : PublishGrant} {facts : OperationFacts} :
    g.Covers facts ↔ g.operation = facts.operation ∧ g.scopeMismatch normalize facts = none := by
  constructor
  · rintro ⟨hop, hname, hhash, hdest⟩
    exact ⟨hop, by simp [scopeMismatch, hname, hhash, hdest]⟩
  · rintro ⟨hop, hscope⟩
    rw [scopeMismatch] at hscope
    split_ifs at hscope with h₁ h₂ h₃
    exact ⟨hop, not_not.1 h₁, not_not.1 h₂, h₃⟩

/-- An expired grant stays expired. -/
theorem expired_mono {g : PublishGrant} {t t' : Nat} (h : t ≤ t') (ht : g.expired t = true) :
    g.expired t' = true := by
  have hle := of_decide_eq_true ht
  rw [elapsed] at hle
  refine decide_eq_true ?_
  rw [elapsed]
  omega

end PublishGrant

/-- The grants held; there are never more than `MAX_GRANTS`. -/
structure GrantSet where
  grants : List PublishGrant
  length_le : grants.length ≤ MAX_GRANTS

namespace GrantSet

def empty : GrantSet := ⟨[], Nat.zero_le _⟩

def add (s : GrantSet) (grant : PublishGrant) : Except PermissionError GrantSet :=
  if h : s.grants.length < MAX_GRANTS then
    .ok ⟨s.grants ++ [grant], by rw [List.length_append]; exact h⟩
  else .error (.grantCeilingExceeded "MAX_GRANTS" MAX_GRANTS)

def pruneExpired (s : GrantSet) (now : Nat) : GrantSet :=
  ⟨s.grants.filter fun g => !g.expired now,
    Nat.le_trans (List.length_filter_le _ _) s.length_le⟩

/-- The set without the grants that cover the facts, and whether there were any. -/
def removeMatching (normalize : Path → String) (s : GrantSet) (facts : OperationFacts) :
    Bool × GrantSet :=
  let kept := s.grants.filter fun g =>
    g.operation != facts.operation || (g.scopeMismatch normalize facts).isSome
  (kept.length != s.grants.length, ⟨kept, Nat.le_trans (List.length_filter_le _ _) s.length_le⟩)

/-- The grant that authorizes these facts, or why there is none. -/
def find (normalize : Path → String) (s : GrantSet) (facts : OperationFacts) (now : Nat) :
    Except PermissionError PublishGrant :=
  let forOperation := s.grants.filter fun g => g.operation == facts.operation
  if forOperation = [] then .error (.noGrant facts.operation.asStr)
  else
    let inScope := forOperation.filter fun g => (g.scopeMismatch normalize facts).isNone
    let closest := forOperation.findSome? fun g => g.scopeMismatch normalize facts
    if inScope = [] then .error (.grantScopeMismatch (closest.getD "no grant covers it"))
    else
      match inScope.find? fun g => !g.expired now with
      | some g => .ok g
      | none =>
        -- The one that lapsed last, which is there: `inScope` is not empty.
        match inScope.argmin fun g => g.elapsed now - g.lifetime with
        | some g => .error (.grantExpired (asSecs g.lifetime) (asSecs (g.elapsed now)))
        | none => .error (.grantExpired 0 0)

/-- A grant that was found is one of the set, covers the facts and has not expired. -/
theorem find_eq_ok {normalize : Path → String} {s : GrantSet} {facts : OperationFacts} {now : Nat}
    {g : PublishGrant} (h : s.find normalize facts now = .ok g) :
    g ∈ s.grants ∧ g.Covers facts ∧ g.expired now = false := by
  simp only [find] at h
  split_ifs at h with hop hscope
  split at h
  · next g' hfind =>
    cases h
    have hmem := List.mem_filter.1 (List.mem_of_find?_eq_some hfind)
    have hmem' := List.mem_filter.1 hmem.1
    have hlive := List.find?_some hfind
    have hnone : g.scopeMismatch normalize facts = none := by simpa using hmem.2
    exact ⟨hmem'.1, PublishGrant.covers_iff.2 ⟨eq_of_beq hmem'.2, hnone⟩, by simpa using hlive⟩
  · split at h <;> cases h

end GrantSet

end SpatialIde.Kernel.Permission
