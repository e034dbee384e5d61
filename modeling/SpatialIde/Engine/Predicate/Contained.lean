import SpatialIde.Engine.Predicate.Admission
import SpatialIde.Engine.Query.Text

/-! # An admitted predicate stays between its brackets

A quote or a comment that a predicate leaves open swallows the sentinel of either probe.  Then
the text does not parse, or both probes are the same tokens and cannot end in different
sentinels (`outside_of_admitted`).  So the tokens of what a statement has in front of an
admitted predicate and behind it are the same as without it.
-/

namespace SpatialIde.Engine.Predicate

open Lib Lib.Json
open Lib.Sql hiding scan

/-- One node is the sentinel of one probe only. -/
theorem sentinel_value {node : Value} {m n : Int} (hm : isIntegerEqualitySentinel node m = true)
    (hn : isIntegerEqualitySentinel node n = true) : m = n := by
  simp only [isIntegerEqualitySentinel, Bool.and_eq_true] at hm hn
  cases hleft : node.get "left" with
  | none =>
    rw [hleft] at hm
    exact absurd hm.1.2 (by simp [isIntegerConstant])
  | some left =>
    rw [hleft] at hm hn
    have hm' := hm.1.2
    have hn' := hn.1.2
    simp only [isIntegerConstant, Bool.and_eq_true, beq_iff_eq] at hm' hn'
    exact Option.some.inj (hm'.2.symm.trans hn'.2)

theorem payloadChildren_errorPayload (message : String) (cs : List Value) :
    payloadChildren (errorPayload message) ≠ .ok cs := by
  have herror : reportsError (errorPayload message) = true := rfl
  rw [payloadChildren, if_pos herror]
  nofun

/-- A probe that does not tokenize is refused. -/
theorem exists_tokens_of_parse {db : Serializer} {predicate sentinel : String} {cs : List Value}
    (h : parseAndChildren db predicate sentinel = .ok cs) :
    ∃ ts payload, tokenize (wrapWith predicate sentinel).toList = some ts ∧
      db.ofTokens ts = .ok payload ∧ payloadChildren payload = .ok cs := by
  obtain ⟨payload, hpayload, hcs⟩ := bind_eq_ok.1 h
  unfold serializeSql at hpayload
  cases htokens : tokenize (wrapWith predicate sentinel).toList with
  | none =>
    rw [htokens] at hpayload
    cases hpayload
    exact absurd hcs (payloadChildren_errorPayload _ _)
  | some ts =>
    rw [htokens] at hpayload
    simp only at hpayload
    cases hdb : db.ofTokens ts with
    | error detail =>
      rw [hdb] at hpayload
      cases hpayload
    | ok payload' =>
      rw [hdb] at hpayload
      cases hpayload
      exact ⟨ts, payload, rfl, hdb, hcs⟩

/-- In front of the predicate in a probe. -/
def WRAPPER_OPEN : String := "SELECT 1 WHERE ("

def wrapperTokens : List Token :=
  [wordToken "SELECT", numberToken 1, wordToken "WHERE", .punct '(']

theorem scan_wrapper (predicate sentinel : String) :
    Sql.scan (.gap, []) (wrapWith predicate sentinel).toList =
      Sql.scan ((Sql.scan (.gap, []) predicate.toList).1,
        wrapperTokens ++ (Sql.scan (.gap, []) predicate.toList).2) (") AND " ++ sentinel).toList := by
  have hopen : Sql.scan (.gap, []) WRAPPER_OPEN.toList = (.gap, wrapperTokens ++ []) := by decide
  have htext : wrapWith predicate sentinel = WRAPPER_OPEN ++ predicate ++ (") AND " ++ sentinel) :=
    String.append_assoc
  rw [htext, String.toList_append, String.toList_append, scan_append, scan_append, hopen,
    scan_start .gap wrapperTokens [] predicate.toList]

/-- **An admitted predicate ends outside of every quote and comment.** -/
theorem outside_of_admitted {db : Serializer} {predicate : String} {ops : List Value}
    (h : differentialOperands db predicate = .ok ops) :
    (Sql.scan (.gap, []) predicate.toList).1.inside = false := by
  obtain ⟨childrenA, childrenB, lastA, lastB, hA, hB, hlastA, hlastB, hsentA, hsentB, _⟩ :=
    differentialOperands_eq_ok h
  obtain ⟨tsA, payloadA, htsA, hdbA, hcsA⟩ := exists_tokens_of_parse hA
  obtain ⟨tsB, payloadB, htsB, hdbB, hcsB⟩ := exists_tokens_of_parse hB
  by_contra hinside
  rw [Bool.not_eq_false] at hinside
  rw [tokenize_eq, scan_wrapper, ended_quiet hinside (forall_listed (by decide))] at htsA htsB
  -- Both probes are the same tokens, so that both end in the same operand.
  cases htsA.symm.trans htsB
  cases hdbA.symm.trans hdbB
  cases hcsA.symm.trans hcsB
  cases hlastA.symm.trans hlastB
  exact absurd (sentinel_value hsentA hsentB) (by decide)

/-! ### The statements -/

/-- The tokens of a text between two others are its own, and so are theirs. -/
def Contained (before text behind : String) : Prop :=
  ∃ ts inner us, tokenize before.toList = some ts ∧ tokenize text.toList = some inner ∧
    tokenize behind.toList = some us ∧
    tokenize (before ++ text ++ behind).toList = some (ts ++ inner ++ us)

theorem contained {before text behind : String} {ts us : List Token} {ks' : List Kind}
    (hbefore : Writes [.gap] before.toList ts [.gap])
    (htext : (Sql.scan (.gap, []) text.toList).1.inside = false)
    (hbehind : Writes outside behind.toList us ks') : Contained before text behind := by
  obtain ⟨inner, hinner, hall⟩ := tokenize_between hbefore htext hbehind
  have hus := (hbehind.mono (by decide : [Kind.gap] ⊆ outside) (List.Subset.refl _)).tokenize
  refine ⟨ts, inner, us, hbefore.tokenize, hinner, hus, ?_⟩
  rw [String.toList_append, String.toList_append]
  exact hall

theorem writes_BEFORE_BOUND :
    Writes [.gap] BEFORE_BOUND.toList [wordToken "SELECT", .punct '('] [.gap] :=
  writes_text (by decide) (by decide) (by decide)

/-- A plan puts the predicate first, and behind it only conditions of its own. -/
theorem conditions_of_buildSql {src : PlanSource} {q : ViewportQuery String} {indexUse : IndexUse}
    {ordering : RowOrdering} {st : Statement String} {plan : FilterPlan} {predicate : String}
    (hfilter : q.filter = some predicate) (h : buildSql src q indexUse ordering = .ok (st, plan)) :
    ∃ planned, st = ⟨.filter predicate :: planned, ordering = .byIdentityAscending, q.limit⟩ ∧
      ∀ c ∈ planned, c.Planned := by
  unfold buildSql at h
  rw [hfilter] at h
  cases hbbox : q.bbox with
  | none =>
    rw [hbbox] at h
    cases h
    exact ⟨[], rfl, fun c hc => absurd hc List.not_mem_nil⟩
  | some view =>
    rw [hbbox] at h
    cases hcovering : src.covering with
    | error detail =>
      rw [hcovering] at h
      cases h
    | ok u =>
      rw [hcovering] at h
      cases h
      refine ⟨(narrowing src view indexUse).1.toList.map .oneOf ++ [.meets view], rfl, ?_⟩
      intro c hc
      rcases List.mem_append.1 hc with hc | hc
      · obtain ⟨tests, _, rfl⟩ := List.mem_map.1 hc
        trivial
      · rw [List.mem_singleton.1 hc]
        trivial

theorem wrapper_inside {predicate : String}
    (h : (Sql.scan (.gap, []) predicate.toList).1.inside = false) :
    (Sql.scan (.gap, []) (WRAPPER_OPEN ++ predicate).toList).1.inside = false := by
  have hopen : Sql.scan (.gap, []) WRAPPER_OPEN.toList = (.gap, wrapperTokens ++ []) := by decide
  rw [String.toList_append, scan_append, hopen, scan_start]
  exact h

end SpatialIde.Engine.Predicate
