import Mathlib.Data.List.Basic

/-! # Regular expressions over classes of characters

An expression is matched from the start of a text to its end.  `test` decides by
derivatives what `Matches` says (`test_iff`).

`Leads step P r Q` is about a machine that reads the matched text character by character:
from a state in `P` it comes to one in `Q`.  There is one rule for each way to build an
expression, so that what a machine does on a whole text follows from what it does on a class.
-/

namespace Lib

variable {α : Type}

inductive Regex (α : Type) where
  | never
  | empty
  | cls (p : α → Bool)
  | alt (r s : Regex α)
  | seq (r s : Regex α)
  | star (r : Regex α)

namespace Regex

/-- One character. -/
def chr [DecidableEq α] (c : α) : Regex α := .cls fun d => d = c

def opt (r : Regex α) : Regex α := .alt r .empty

def plus (r : Regex α) : Regex α := .seq r (.star r)

/-- One after the other. -/
def all : List (Regex α) → Regex α
  | [] => .empty
  | [r] => r
  | r :: rs => .seq r (all rs)

/-- A given number of times. -/
def times (n : Nat) (r : Regex α) : Regex α := all (List.replicate n r)

/-- Any of them. -/
def any : List (Regex α) → Regex α
  | [] => .never
  | [r] => r
  | r :: rs => .alt r (any rs)

inductive Matches : Regex α → List α → Prop
  | empty : Matches .empty []
  | cls {p : α → Bool} {c : α} : p c = true → Matches (.cls p) [c]
  | left {r s : Regex α} {w : List α} : Matches r w → Matches (.alt r s) w
  | right {r s : Regex α} {w : List α} : Matches s w → Matches (.alt r s) w
  | seq {r s : Regex α} {u v : List α} : Matches r u → Matches s v → Matches (.seq r s) (u ++ v)
  | stop {r : Regex α} : Matches (.star r) []
  | more {r : Regex α} {u v : List α} : Matches r u → Matches (.star r) v →
    Matches (.star r) (u ++ v)

/-! ### Derivatives -/

def nullable : Regex α → Bool
  | .never => false
  | .empty => true
  | .cls _ => false
  | .alt r s => r.nullable || s.nullable
  | .seq r s => r.nullable && s.nullable
  | .star _ => true

/-- What has to follow a character. -/
def deriv (c : α) : Regex α → Regex α
  | .never => .never
  | .empty => .never
  | .cls p => if p c then .empty else .never
  | .alt r s => .alt (r.deriv c) (s.deriv c)
  | .seq r s => if r.nullable then .alt (.seq (r.deriv c) s) (s.deriv c) else .seq (r.deriv c) s
  | .star r => .seq (r.deriv c) (.star r)

def test (r : Regex α) (w : List α) : Bool := (w.foldl (fun r c => r.deriv c) r).nullable

theorem matches_empty {w : List α} : Matches .empty w ↔ w = [] := by
  constructor
  · intro h
    cases h
    rfl
  · rintro rfl
    exact .empty

theorem matches_cls {p : α → Bool} {w : List α} :
    Matches (.cls p) w ↔ ∃ c, w = [c] ∧ p c = true := by
  constructor
  · intro h
    cases h with
    | cls hp => exact ⟨_, rfl, hp⟩
  · rintro ⟨c, rfl, hp⟩
    exact .cls hp

theorem matches_alt {r s : Regex α} {w : List α} :
    Matches (.alt r s) w ↔ Matches r w ∨ Matches s w := by
  constructor
  · intro h
    cases h with
    | left h => exact .inl h
    | right h => exact .inr h
  · rintro (h | h)
    · exact .left h
    · exact .right h

theorem matches_seq {r s : Regex α} {w : List α} :
    Matches (.seq r s) w ↔ ∃ u v, w = u ++ v ∧ Matches r u ∧ Matches s v := by
  constructor
  · intro h
    cases h with
    | seq hr hs => exact ⟨_, _, rfl, hr, hs⟩
  · rintro ⟨u, v, rfl, hr, hs⟩
    exact .seq hr hs

/-- A star that matches a character begins with a part that does. -/
theorem matches_star_cons {r : Regex α} {c : α} {w : List α} :
    Matches (.star r) (c :: w) ↔ ∃ u v, w = u ++ v ∧ Matches r (c :: u) ∧ Matches (.star r) v := by
  constructor
  · have hall : ∀ {s : Regex α} {w' : List α}, Matches s w' → s = .star r → w' = c :: w →
        ∃ u v, w = u ++ v ∧ Matches r (c :: u) ∧ Matches (.star r) v := by
      intro s w' h
      induction h with
      | @more r' u v hu hv _ ih =>
        rintro ⟨⟩ hw
        cases u with
        | nil => exact ih rfl hw
        | cons d u =>
          rw [List.cons_append, List.cons.injEq] at hw
          obtain ⟨rfl, rfl⟩ := hw
          exact ⟨u, v, rfl, hu, hv⟩
      | stop => rintro _ hw; cases hw
      | empty => rintro ⟨⟩
      | cls => rintro ⟨⟩
      | left => rintro ⟨⟩
      | right => rintro ⟨⟩
      | seq => rintro ⟨⟩
    exact fun h => hall h rfl rfl
  · rintro ⟨u, v, rfl, hu, hv⟩
    exact Matches.more hu hv

/-- A class any number of times. -/
theorem matches_star_cls {p : α → Bool} {w : List α} :
    Matches (.star (.cls p)) w ↔ ∀ c ∈ w, p c = true := by
  induction w with
  | nil => exact ⟨nofun, fun _ => .stop⟩
  | cons c w ih =>
    rw [matches_star_cons, List.forall_mem_cons]
    constructor
    · rintro ⟨u, v, rfl, hu, hv⟩
      obtain ⟨d, hd, hp⟩ := matches_cls.1 hu
      obtain ⟨rfl, rfl⟩ := List.cons.inj hd
      exact ⟨hp, ih.1 hv⟩
    · rintro ⟨hp, hw⟩
      exact ⟨[], w, rfl, .cls hp, ih.2 hw⟩

/-- A class a given number of times. -/
theorem matches_times_cls {p : α → Bool} {n : Nat} {w : List α} :
    Matches (times n (.cls p)) w ↔ w.length = n ∧ ∀ c ∈ w, p c = true := by
  induction n generalizing w with
  | zero => exact matches_empty.trans ⟨fun h => h ▸ ⟨rfl, nofun⟩, fun h => List.eq_nil_of_length_eq_zero h.1⟩
  | succ n ih =>
    have hcons : Matches (times (n + 1) (.cls p)) w ↔
        ∃ c v, w = c :: v ∧ p c = true ∧ Matches (times n (.cls p)) v := by
      cases n with
      | zero =>
        refine matches_cls.trans ⟨?_, ?_⟩
        · rintro ⟨c, rfl, hp⟩
          exact ⟨c, [], rfl, hp, .empty⟩
        · rintro ⟨c, v, rfl, hp, hv⟩
          cases matches_empty.1 hv
          exact ⟨c, rfl, hp⟩
      | succ n =>
        refine matches_seq.trans ⟨?_, ?_⟩
        · rintro ⟨u, v, rfl, hu, hv⟩
          obtain ⟨c, rfl, hp⟩ := matches_cls.1 hu
          exact ⟨c, v, rfl, hp, hv⟩
        · rintro ⟨c, v, rfl, hp, hv⟩
          exact ⟨[c], v, rfl, .cls hp, hv⟩
    rw [hcons]
    constructor
    · rintro ⟨c, v, rfl, hp, hv⟩
      obtain ⟨hlength, hall⟩ := ih.1 hv
      exact ⟨congrArg (· + 1) hlength, List.forall_mem_cons.2 ⟨hp, hall⟩⟩
    · rintro ⟨hlength, hall⟩
      obtain ⟨c, v, rfl⟩ := List.exists_cons_of_length_eq_add_one hlength
      obtain ⟨hp, hall⟩ := List.forall_mem_cons.1 hall
      exact ⟨c, v, rfl, hp, ih.2 ⟨Nat.succ.inj hlength, hall⟩⟩

theorem nullable_iff {r : Regex α} : r.nullable = true ↔ Matches r [] := by
  induction r with
  | never => exact ⟨fun h => Bool.noConfusion h, fun h => by cases h⟩
  | empty => exact ⟨fun _ => .empty, fun _ => rfl⟩
  | cls p => simp [nullable, matches_cls]
  | alt r s ihr ihs => simp [nullable, matches_alt, ihr, ihs]
  | seq r s ihr ihs => simp [nullable, matches_seq, ihr, ihs]
  | star r _ => exact ⟨fun _ => .stop, fun _ => rfl⟩

theorem matches_deriv {c : α} {r : Regex α} : ∀ {w : List α},
    Matches (r.deriv c) w ↔ Matches r (c :: w) := by
  induction r with
  | never =>
    intro w
    constructor
    · intro h
      cases h
    · intro h
      cases h
  | empty =>
    intro w
    constructor
    · intro h
      cases h
    · intro h
      cases h
  | cls p =>
    intro w
    unfold deriv
    split
    · simp [matches_empty, matches_cls, *]
    · rw [matches_cls]
      constructor
      · intro h
        cases h
      · rintro ⟨d, hw, hd⟩
        cases hw
        contradiction
  | alt r s ihr ihs =>
    intro w
    rw [deriv, matches_alt, matches_alt, ihr, ihs]
  | seq r s ihr ihs =>
    intro w
    have hseq : Matches (.seq (r.deriv c) s) w ↔
        ∃ u v, w = u ++ v ∧ Matches r (c :: u) ∧ Matches s v := by
      simp only [matches_seq, ihr]
    have hcons : Matches (.seq r s) (c :: w) ↔ (Matches r [] ∧ Matches s (c :: w)) ∨
        ∃ u v, w = u ++ v ∧ Matches r (c :: u) ∧ Matches s v := by
      rw [matches_seq]
      constructor
      · rintro ⟨_ | ⟨d, u⟩, v, hw, hr, hs⟩
        · exact .inl ⟨hr, hw ▸ hs⟩
        · rw [List.cons_append, List.cons.injEq] at hw
          obtain ⟨rfl, rfl⟩ := hw
          exact .inr ⟨u, v, rfl, hr, hs⟩
      · rintro (⟨hr, hs⟩ | ⟨u, v, rfl, hr, hs⟩)
        · exact ⟨[], c :: w, rfl, hr, hs⟩
        · exact ⟨c :: u, v, rfl, hr, hs⟩
    unfold deriv
    by_cases hnull : r.nullable = true
    · rw [if_pos hnull, matches_alt, hseq, ihs, hcons, or_comm]
      simp [nullable_iff.1 hnull]
    · rw [if_neg hnull, hseq, hcons]
      rw [nullable_iff] at hnull
      simp [hnull]
  | star r ih =>
    intro w
    simp only [deriv, matches_seq, matches_star_cons, ih]

/-- **The test decides the match.** -/
theorem test_iff {r : Regex α} {w : List α} : r.test w = true ↔ Matches r w := by
  induction w generalizing r with
  | nil => exact nullable_iff
  | cons c w ih =>
    rw [← matches_deriv]
    exact ih

/-! ### A machine that reads a matched text -/

variable {σ : Type} {step : σ → α → σ} {P P' Q Q' R : σ → Prop}

/-- Over a text that is matched, the machine comes from `P` to `Q`. -/
structure Leads (step : σ → α → σ) (P : σ → Prop) (r : Regex α) (Q : σ → Prop) : Prop where
  run : ∀ w, Matches r w → ∀ s, P s → Q (w.foldl step s)

namespace Leads

theorem imp {r : Regex α} (h : Leads step P r Q) (hP : ∀ s, P' s → P s) (hQ : ∀ s, Q s → Q' s) :
    Leads step P' r Q' :=
  ⟨fun w hw s hs => hQ _ (h.run w hw s (hP s hs))⟩

theorem weaken {r : Regex α} (h : Leads step P r Q) (hQ : ∀ s, Q s → Q' s) : Leads step P r Q' :=
  h.imp (fun _ hs => hs) hQ

theorem empty (h : ∀ s, P s → Q s) : Leads step P .empty Q := by
  constructor
  intro w hw s hs
  rw [matches_empty.1 hw]
  exact h s hs

theorem never : Leads step P .never Q := by
  constructor
  intro w hw
  cases hw

theorem cls {p : α → Bool} (h : ∀ c, p c = true → ∀ s, P s → Q (step s c)) :
    Leads step P (.cls p) Q := by
  constructor
  intro w hw s hs
  obtain ⟨c, rfl, hc⟩ := matches_cls.1 hw
  exact h c hc s hs

theorem chr [DecidableEq α] {c : α} (h : ∀ s, P s → Q (step s c)) :
    Leads step P (Regex.chr c) Q := by
  apply cls
  intro d hd s hs
  rw [of_decide_eq_true hd]
  exact h s hs

theorem alt {r r' : Regex α} (h : Leads step P r Q) (h' : Leads step P r' Q) :
    Leads step P (.alt r r') Q := by
  constructor
  intro w hw s hs
  rcases matches_alt.1 hw with hw | hw
  · exact h.run w hw s hs
  · exact h'.run w hw s hs

theorem seq {r r' : Regex α} (h : Leads step P r R) (h' : Leads step R r' Q) :
    Leads step P (.seq r r') Q := by
  constructor
  intro w hw s hs
  obtain ⟨u, v, rfl, hu, hv⟩ := matches_seq.1 hw
  rw [List.foldl_append]
  exact h'.run v hv _ (h.run u hu s hs)

/-- What a part keeps, any number of them keeps. -/
theorem star {r : Regex α} (h : Leads step P r P) : Leads step P (.star r) P := by
  have hall : ∀ {s : Regex α} {w : List α}, Matches s w → s = .star r →
      ∀ x, P x → P (w.foldl step x) := by
    intro s w hw
    induction hw with
    | stop => exact fun _ x hx => hx
    | more hu _ _ ih =>
      rintro ⟨⟩ x hx
      rw [List.foldl_append]
      exact ih rfl _ (h.run _ hu x hx)
    | empty => rintro ⟨⟩
    | cls => rintro ⟨⟩
    | left => rintro ⟨⟩
    | right => rintro ⟨⟩
    | seq => rintro ⟨⟩
  exact ⟨fun w hw s hs => hall hw rfl s hs⟩

theorem opt {r : Regex α} (h : Leads step P r Q) (hPQ : ∀ s, P s → Q s) :
    Leads step P r.opt Q :=
  h.alt (empty hPQ)

theorem plus {r : Regex α} (h : Leads step P r Q) (h' : Leads step Q r Q) :
    Leads step P r.plus Q :=
  h.seq h'.star

theorem all_cons {r : Regex α} {rs : List (Regex α)} (h : Leads step P r R)
    (h' : Leads step R (Regex.all rs) Q) : Leads step P (Regex.all (r :: rs)) Q := by
  cases rs with
  | nil => exact h.weaken fun s hs => h'.run [] .empty s hs
  | cons r' rs => exact h.seq h'

/-- What each keeps, all of them keep. -/
theorem all {rs : List (Regex α)} (h : ∀ r ∈ rs, Leads step P r P) :
    Leads step P (Regex.all rs) P := by
  induction rs with
  | nil => exact empty fun _ hs => hs
  | cons r rs ih =>
    exact all_cons (h r List.mem_cons_self) (ih fun r' hr' => h r' (List.mem_cons_of_mem _ hr'))

theorem any {rs : List (Regex α)} (h : ∀ r ∈ rs, Leads step P r Q) :
    Leads step P (Regex.any rs) Q := by
  induction rs with
  | nil => exact never
  | cons r rs ih =>
    cases rs with
    | nil => exact h r List.mem_cons_self
    | cons r' rs =>
      exact (h r List.mem_cons_self).alt (ih fun x hx => h x (List.mem_cons_of_mem _ hx))

end Leads

end Regex

end Lib
