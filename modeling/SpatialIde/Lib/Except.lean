import Mathlib.Data.List.Forall2

/-! # Fallible steps

When a sequence of fallible steps, or a fallible step for each item of a list,
succeeds.  `verdict` forgets what a step computes: `verdict_bind` and
`verdict_mapM` compare how two sequences of steps end.
-/

namespace Lib

variable {ε α β : Type}

/-- A value, or the error for its absence. -/
def okOr (e : ε) : Option α → Except ε α
  | some a => .ok a
  | none => .error e

theorem okOr_eq_ok {e : ε} {o : Option α} {a : α} : okOr e o = .ok a ↔ o = some a := by
  cases o <;> simp [okOr]

theorem bind_eq_ok {x : Except ε α} {f : α → Except ε β} {b : β} :
    (x >>= f) = .ok b ↔ ∃ a, x = .ok a ∧ f a = .ok b := by
  cases x with
  | error e =>
    show (Except.error e : Except ε β) = .ok b ↔ _
    simp
  | ok a =>
    show f a = .ok b ↔ _
    simp

theorem mapM_eq_ok {f : α → Except ε β} : ∀ {xs : List α} {ys : List β},
    xs.mapM f = .ok ys ↔ List.Forall₂ (fun x y => f x = .ok y) xs ys := by
  intro xs
  induction xs with
  | nil =>
    intro ys
    rw [List.mapM_nil, List.forall₂_nil_left_iff]
    show (Except.ok [] : Except ε (List β)) = .ok ys ↔ _
    rw [Except.ok.injEq, eq_comm]
  | cons x xs ih =>
    intro ys
    rw [List.mapM_cons, bind_eq_ok, List.forall₂_cons_left_iff]
    constructor
    · rintro ⟨y, hy, h⟩
      obtain ⟨ys', hys, h⟩ := bind_eq_ok.1 h
      cases h
      exact ⟨y, ys', hy, ih.1 hys, rfl⟩
    · rintro ⟨y, ys', hy, hys, rfl⟩
      exact ⟨y, hy, bind_eq_ok.2 ⟨ys', ih.2 hys, rfl⟩⟩

theorem mapM_total {f : α → Except ε β} {xs : List α} (h : ∀ x ∈ xs, ∃ y, f x = .ok y) :
    ∃ ys, xs.mapM f = .ok ys := by
  induction xs with
  | nil => exact ⟨[], mapM_eq_ok.2 List.Forall₂.nil⟩
  | cons x xs ih =>
    obtain ⟨y, hy⟩ := h x List.mem_cons_self
    obtain ⟨ys, hys⟩ := ih fun x' hx' => h x' (List.mem_cons_of_mem x hx')
    exact ⟨y :: ys, mapM_eq_ok.2 (List.Forall₂.cons hy (mapM_eq_ok.1 hys))⟩

/-- Where all steps succeed, each does. -/
theorem exists_ok_of_mem {f : α → Except ε β} {xs : List α} {ys : List β} {x : α}
    (h : xs.mapM f = .ok ys) (hx : x ∈ xs) : ∃ y, f x = .ok y := by
  induction xs generalizing ys with
  | nil => cases hx
  | cons x' xs ih =>
    rw [List.mapM_cons] at h
    obtain ⟨y, hy, h⟩ := bind_eq_ok.1 h
    obtain ⟨ys', hys, -⟩ := bind_eq_ok.1 h
    cases hx with
    | head => exact ⟨y, hy⟩
    | tail _ hmem => exact ih hys hmem

/-- Each result stands at the place of its item. -/
theorem getElem?_of_mapM_ok {f : α → Except ε β} {xs : List α} {ys : List β} {i : Nat} {x : α}
    (h : xs.mapM f = .ok ys) (hx : xs[i]? = some x) : ∃ y, ys[i]? = some y ∧ f x = .ok y := by
  induction xs generalizing ys i with
  | nil => cases hx
  | cons x' xs ih =>
    rw [List.mapM_cons] at h
    obtain ⟨y, hy, hrest⟩ := bind_eq_ok.1 h
    obtain ⟨ys', hys, hcons⟩ := bind_eq_ok.1 hrest
    obtain rfl := Except.ok.inj hcons
    cases i with
    | zero =>
      obtain rfl := Option.some.inj hx
      exact ⟨y, rfl, hy⟩
    | succ i =>
      obtain ⟨z, hz, hfz⟩ := ih hys hx
      exact ⟨z, hz, hfz⟩

theorem exists_of_mem_mapM {f : α → Except ε β} {xs : List α} {ys : List β} {y : β}
    (h : xs.mapM f = .ok ys) (hy : y ∈ ys) : ∃ x ∈ xs, f x = .ok y := by
  induction xs generalizing ys with
  | nil =>
    cases h
    cases hy
  | cons x xs ih =>
    rw [List.mapM_cons] at h
    obtain ⟨z, hz, h⟩ := bind_eq_ok.1 h
    obtain ⟨zs, hzs, h⟩ := bind_eq_ok.1 h
    cases h
    cases hy with
    | head => exact ⟨x, List.mem_cons_self, hz⟩
    | tail _ hmem =>
      obtain ⟨x', hx', hfx⟩ := ih hzs hmem
      exact ⟨x', List.mem_cons_of_mem x hx', hfx⟩

/-- What holds of each result by its item. -/
theorem map_of_mapM {γ : Type} {f : α → Except ε β} {g : β → γ} {h : α → γ} {xs : List α}
    {ys : List β} (hxs : xs.mapM f = .ok ys) (heach : ∀ x y, f x = .ok y → g y = h x) :
    ys.map g = xs.map h := by
  induction xs generalizing ys with
  | nil =>
    cases hxs
    rfl
  | cons x xs ih =>
    rw [List.mapM_cons] at hxs
    obtain ⟨y, hy, hxs⟩ := bind_eq_ok.1 hxs
    obtain ⟨ys', hys, hxs⟩ := bind_eq_ok.1 hxs
    cases hxs
    rw [List.map_cons, List.map_cons, heach x y hy, ih hys]

theorem mapM_congr {f g : α → Except ε β} {xs : List α} (h : ∀ x ∈ xs, f x = g x) :
    xs.mapM f = xs.mapM g := by
  induction xs with
  | nil => rfl
  | cons x xs ih =>
    rw [List.mapM_cons, List.mapM_cons, h x List.mem_cons_self,
      ih fun x' hx' => h x' (List.mem_cons_of_mem x hx')]

theorem bind_eq_error {x : Except ε α} {f : α → Except ε β} {e : ε} (h : (x >>= f) = .error e) :
    x = .error e ∨ ∃ a, x = .ok a ∧ f a = .error e := by
  cases x with
  | error e' =>
    cases h
    exact .inl rfl
  | ok a => exact .inr ⟨a, rfl, h⟩

theorem okOr_eq_error {e e' : ε} {o : Option α} (h : okOr e o = .error e') : e' = e := by
  cases o with
  | none => exact (Except.error.inj h).symm
  | some a => cases h

/-- One of the steps failed. -/
theorem mapM_eq_error {f : α → Except ε β} {e : ε} {xs : List α} (h : xs.mapM f = .error e) :
    ∃ x ∈ xs, f x = .error e := by
  induction xs with
  | nil => cases h
  | cons x xs ih =>
    rw [List.mapM_cons] at h
    rcases bind_eq_error h with h | ⟨_, _, h⟩
    · exact ⟨x, List.mem_cons_self, h⟩
    · rcases bind_eq_error h with h | ⟨_, _, h⟩
      · obtain ⟨y, hy, he⟩ := ih h
        exact ⟨y, List.mem_cons_of_mem _ hy, he⟩
      · cases h

theorem forM_eq_ok {f : α → Except ε Unit} {as : List α} :
    as.forM f = .ok () ↔ ∀ a ∈ as, f a = .ok () := by
  induction as with
  | nil =>
    refine ⟨fun _ a ha => ?_, fun _ => rfl⟩
    cases ha
  | cons a as ih =>
    show (f a >>= fun _ => as.forM f) = _ ↔ _
    rw [bind_eq_ok]
    constructor
    · rintro ⟨_, ha, has⟩ b hb
      rcases List.mem_cons.1 hb with rfl | hb
      · exact ha
      · exact ih.1 has b hb
    · intro h
      exact ⟨⟨⟩, h a List.mem_cons_self, ih.2 fun b hb => h b (List.mem_cons_of_mem _ hb)⟩

theorem bind_eq_error_iff {x : Except ε α} {f : α → Except ε β} {e : ε} :
    (x >>= f) = .error e ↔ x = .error e ∨ ∃ a, x = .ok a ∧ f a = .error e := by
  refine ⟨bind_eq_error, ?_⟩
  rintro (rfl | ⟨a, rfl, h⟩)
  · rfl
  · exact h

/-- The first step that fails, and those in front of it. -/
theorem mapM_eq_error_iff {f : α → Except ε β} {e : ε} {xs : List α} :
    xs.mapM f = .error e ↔ ∃ before x after, xs = before ++ x :: after ∧
      (∀ y ∈ before, ∃ b, f y = .ok b) ∧ f x = .error e := by
  induction xs with
  | nil =>
    constructor
    · intro h
      cases h
    · rintro ⟨before, x, after, h, -, -⟩
      simp at h
  | cons x xs ih =>
    rw [List.mapM_cons, bind_eq_error_iff]
    constructor
    · rintro (hx | ⟨y, hy, h⟩)
      · exact ⟨[], x, xs, rfl, by simp, hx⟩
      · obtain h | ⟨ys, -, h⟩ := bind_eq_error h
        · obtain ⟨before, z, after, rfl, hbefore, hz⟩ := ih.1 h
          exact ⟨x :: before, z, after, rfl, List.forall_mem_cons.2 ⟨⟨y, hy⟩, hbefore⟩, hz⟩
        · cases h
    · rintro ⟨before, z, after, hxs, hbefore, hz⟩
      cases before with
      | nil =>
        obtain ⟨rfl, rfl⟩ := List.cons.inj hxs
        exact .inl hz
      | cons y before =>
        obtain ⟨rfl, rfl⟩ := List.cons.inj hxs
        obtain ⟨⟨b, hb⟩, hbefore⟩ := List.forall_mem_cons.1 hbefore
        exact .inr ⟨b, hb, bind_eq_error_iff.2 (.inl (ih.2 ⟨before, z, after, rfl, hbefore, hz⟩))⟩

/-- The first step that fails, and the state it fails in. -/
theorem foldlM_eq_error_iff {f : β → α → Except ε β} {e : ε} {xs : List α} {s : β} :
    xs.foldlM f s = .error e ↔ ∃ before x after s', xs = before ++ x :: after ∧
      before.foldlM f s = .ok s' ∧ f s' x = .error e := by
  induction xs generalizing s with
  | nil =>
    constructor
    · intro h
      cases h
    · rintro ⟨before, x, after, s', h, -, -⟩
      simp at h
  | cons x xs ih =>
    rw [List.foldlM_cons, bind_eq_error_iff]
    constructor
    · rintro (hx | ⟨s₁, hs₁, h⟩)
      · exact ⟨[], x, xs, s, rfl, rfl, hx⟩
      · obtain ⟨before, z, after, s', rfl, hbefore, hz⟩ := ih.1 h
        exact ⟨x :: before, z, after, s', rfl, bind_eq_ok.2 ⟨s₁, hs₁, hbefore⟩, hz⟩
    · rintro ⟨before, z, after, s', hxs, hbefore, hz⟩
      cases before with
      | nil =>
        obtain ⟨rfl, rfl⟩ := List.cons.inj hxs
        obtain rfl := Except.ok.inj hbefore
        exact .inl hz
      | cons y before =>
        obtain ⟨rfl, rfl⟩ := List.cons.inj hxs
        rw [List.foldlM_cons] at hbefore
        obtain ⟨s₁, hs₁, hbefore⟩ := bind_eq_ok.1 hbefore
        exact .inr ⟨s₁, hs₁, ih.2 ⟨before, z, after, s', rfl, hbefore, hz⟩⟩

/-- Steps over a list of lists are the steps over all items. -/
theorem mapM_flatMap {γ : Type} (f : α → Except ε β) (part : γ → List α) (xs : List γ) :
    (xs.mapM fun x => (part x).mapM f).map List.flatten = (xs.flatMap part).mapM f := by
  induction xs with
  | nil => rfl
  | cons x xs ih =>
    rw [List.mapM_cons, List.flatMap_cons, List.mapM_append, ← ih]
    cases (part x).mapM f with
    | error e => rfl
    | ok ys => cases xs.mapM fun x => (part x).mapM f <;> rfl

/-- A loop that adds what a step returns is a loop over what the steps return. -/
theorem foldlM_map_add {σ : Type} (f : α → Except ε β) (add : σ → β → σ) (xs : List α) (s : σ) :
    xs.foldlM (fun s x => (f x).map (add s)) s = (xs.mapM f).map fun ys => ys.foldl add s := by
  induction xs generalizing s with
  | nil => rfl
  | cons x xs ih =>
    rw [List.foldlM_cons, List.mapM_cons]
    cases f x with
    | error e => rfl
    | ok y =>
      change xs.foldlM (fun s x => (f x).map (add s)) (add s y) = _
      rw [ih]
      cases xs.mapM f <;> rfl

/-! ### Steps that may panic -/

/-- A fallible step that may also panic, which is none. -/
abbrev Panics (ε α : Type) := ExceptT ε Option α

namespace Panics

/-- A step that does not panic. -/
def of (x : Except ε α) : Panics ε α := ExceptT.mk (some x)

/-- `unwrap`, and an index that is not there. -/
def unwrap (o : Option α) : Panics ε α := ExceptT.mk (o.map Except.ok)

theorem unwrap_some (a : α) : unwrap (some a) = of (.ok a : Except ε α) := rfl

theorem of_bind {x : Panics ε α} {y : Except ε α} {f : α → Panics ε β} {g : α → Except ε β}
    (hx : x = of y) (h : ∀ a, y = .ok a → f a = of (g a)) : (x >>= f) = of (y >>= g) := by
  subst hx
  cases y with
  | error e => rfl
  | ok a => exact h a rfl

theorem of_forM {f : α → Panics ε PUnit} {g : α → Except ε PUnit} {as : List α}
    (h : ∀ a ∈ as, f a = of (g a)) : as.forM f = of (as.forM g) := by
  induction as with
  | nil => rfl
  | cons a as ih =>
    exact of_bind (h a List.mem_cons_self) fun _ _ => ih fun b hb => h b (List.mem_cons_of_mem _ hb)

/-- The step does not panic, and what it returns is as wanted. -/
def Yields (x : Panics ε α) (wanted : α → Prop) : Prop :=
  ∃ y, x = of y ∧ ∀ a, y = .ok a → wanted a

variable {wanted : β → Prop}

theorem yields_pure {b : β} (h : wanted b) : Yields (pure b : Panics ε β) wanted := by
  refine ⟨.ok b, rfl, fun a ha => ?_⟩
  cases ha
  exact h

theorem yields_of_bind {y : Except ε α} {f : α → Panics ε β}
    (h : ∀ a, y = .ok a → Yields (f a) wanted) : Yields (of y >>= f) wanted := by
  cases y with
  | error e =>
    refine ⟨.error e, rfl, fun a ha => ?_⟩
    cases ha
  | ok a => exact h a rfl

theorem yields_unwrap_bind {o : Option α} {a : α} {f : α → Panics ε β} (ho : o = some a)
    (h : Yields (f a) wanted) : Yields (unwrap o >>= f) wanted := by
  subst ho
  exact h

end Panics

/-- Whether a step succeeds, or how it fails. -/
def verdict (x : Except ε α) : Except ε Unit := x.map fun _ => ()

theorem verdict_bind {α' β' : Type} {x : Except ε α} {x' : Except ε α'} {f : α → Except ε β}
    {f' : α' → Except ε β'} (hx : verdict x = verdict x')
    (hf : ∀ a a', x = .ok a → x' = .ok a' → verdict (f a) = verdict (f' a')) :
    verdict (x >>= f) = verdict (x' >>= f') := by
  cases x with
  | error e =>
    cases x' with
    | error e' =>
      cases hx
      rfl
    | ok a' => cases hx
  | ok a =>
    cases x' with
    | error e' => cases hx
    | ok a' => exact hf a a' rfl rfl

theorem verdict_mapM {β' : Type} {f : α → Except ε β} {f' : α → Except ε β'} {xs : List α}
    (h : ∀ x ∈ xs, verdict (f x) = verdict (f' x)) :
    verdict (xs.mapM f) = verdict (xs.mapM f') := by
  induction xs with
  | nil => rfl
  | cons x xs ih =>
    rw [List.mapM_cons, List.mapM_cons]
    refine verdict_bind (h x List.mem_cons_self) fun _ _ _ _ => ?_
    exact verdict_bind (ih fun y hy => h y (List.mem_cons_of_mem _ hy)) fun _ _ _ _ => rfl

theorem verdict_eq_ok {x : Except ε α} : verdict x = .ok () ↔ ∃ a, x = .ok a := by
  cases x with
  | error e =>
    refine ⟨fun h => (by cases h), ?_⟩
    rintro ⟨a, h⟩
    cases h
  | ok a => exact ⟨fun _ => ⟨a, rfl⟩, fun _ => rfl⟩

theorem verdict_eq_error {x : Except ε α} {e : ε} : verdict x = .error e ↔ x = .error e := by
  cases x with
  | error e' =>
    show (Except.error e' : Except ε Unit) = _ ↔ _
    simp
  | ok a => exact ⟨fun h => (by cases h), fun h => (by cases h)⟩

end Lib
