import SpatialIde.Lib.Batcher
import SpatialIde.Lib.Prog

/-! # A batcher that can be refused

The batcher of `Lib.Batcher` where an item may turn out unreadable before it is
weighed or undecodable after the cut in front of it, and where a batch may be
refused when it is handed over.  The first refusal ends everything.

* `feed_stops`: a refused run has cut a beginning of what `run` cuts, and every
  batch but a refused last one was sent;
* `feed_late`: where no cut is early, boundaries change nothing.
-/

namespace Lib.Batcher

/-- What happens to a batch: it is handed over, and it is sent when it is not refused. -/
inductive Mark (β : Type) where
  | handed (b : β)
  | sent (b : β)
  deriving DecidableEq, Repr

/-- The batches handed over, in order. -/
def handed {β : Type} (ms : List (Mark β)) : List β :=
  ms.filterMap fun | .handed b => some b | .sent _ => none

/-- The batches sent, in order. -/
def sent {β : Type} (ms : List (Mark β)) : List β :=
  ms.filterMap fun | .handed _ => none | .sent b => some b

/-- What can be refused. -/
structure Refusals (α ε : Type) where
  /-- An item, before anything is done with it. -/
  read : α → Option ε
  /-- An item, in front of the open items it would join. -/
  decode : List α → α → Option ε
  batch : Batch α → Option ε

variable {α ε : Type}

section

variable (cfg : Config α) (r : Refusals α ε)

def offer (b : Batch α) : Trail (Mark (Batch α)) ε Unit := do
  .tell (.handed b)
  .refuse (r.batch b)
  .tell (.sent b)

def offerAll : List (Batch α) → Trail (Mark (Batch α)) ε Unit
  | [] => pure ()
  | b :: bs => do
    offer r b
    offerAll bs

def feedPush (early : Bool) (s : Open α) (x : α) : Trail (Mark (Batch α)) ε (Open α) := do
  .refuse (r.read x)
  offerAll r (before cfg s x).1
  .refuse (r.decode (before cfg s x).2.items x)
  offerAll r (after cfg (cfg.target s.emitted) early (before cfg s x).2 x).1
  pure (after cfg (cfg.target s.emitted) early (before cfg s x).2 x).2

def feedStep (s : Open α) : Op α → Trail (Mark (Batch α)) ε (Open α)
  | .push x early => feedPush cfg r early s x
  | .boundary early => do
    offerAll r (boundary cfg early s).1
    pure (boundary cfg early s).2
  | .finish => do
    offerAll r (finish cfg s).1
    pure (finish cfg s).2

def feed (s : Open α) : List (Op α) → Trail (Mark (Batch α)) ε (Open α)
  | [] => pure s
  | op :: ops => feedStep cfg r s op >>= fun s' => feed s' ops

theorem feed_append (s : Open α) (ops ops' : List (Op α)) :
    feed cfg r s (ops ++ ops') = feed cfg r s ops >>= fun s' => feed cfg r s' ops' := by
  induction ops generalizing s with
  | nil => rfl
  | cons op ops ih =>
    rw [List.cons_append, feed, feed, bind_assoc]
    exact bind_congr fun s' => ih s'

/-! ### Refused runs -/

/-- What is put out for batches that were all sent. -/
def marks (bs : List (Batch α)) : List (Mark (Batch α)) := bs.flatMap fun b => [.handed b, .sent b]

@[simp] theorem marks_append (bs bs' : List (Batch α)) : marks (bs ++ bs') = marks bs ++ marks bs' :=
  List.flatMap_append

@[simp] theorem handed_marks (bs : List (Batch α)) : handed (marks bs) = bs := by
  induction bs with
  | nil => rfl
  | cons b bs ih => exact congrArg (b :: ·) ih

@[simp] theorem sent_marks (bs : List (Batch α)) : sent (marks bs) = bs := by
  induction bs with
  | nil => rfl
  | cons b bs ih => exact congrArg (b :: ·) ih

@[simp] theorem handed_append (ms ms' : List (Mark (Batch α))) :
    handed (ms ++ ms') = handed ms ++ handed ms' := List.filterMap_append

@[simp] theorem sent_append (ms ms' : List (Mark (Batch α))) :
    sent (ms ++ ms') = sent ms ++ sent ms' := List.filterMap_append

/-- **How a run that may be refused compares with one that is not**: `bs` is what the unrefused run
cuts, `s` is where it ends, `xs` are its items and `D` says what an item is refused for. -/
inductive Stops (D : α → ε → Prop) (xs : List α) (bs : List (Batch α)) (s : Open α) :
    Trail (Mark (Batch α)) ε (Open α) → Prop
  /-- Nothing was refused. -/
  | whole (sent : ∀ b ∈ bs, r.batch b = none) : Stops D xs bs s ⟨marks bs, .ok s⟩
  /-- A batch was. -/
  | batch (pre : List (Batch α)) (b : Batch α) (e : ε) (isPrefix : pre ++ [b] <+: bs)
      (sent : ∀ b ∈ pre, r.batch b = none) (refused : r.batch b = some e) :
      Stops D xs bs s ⟨marks pre ++ [.handed b], .error e⟩
  /-- An item was. -/
  | item (pre : List (Batch α)) (x : α) (e : ε) (isPrefix : pre <+: bs)
      (sent : ∀ b ∈ pre, r.batch b = none) (mem : x ∈ xs) (refused : D x e) :
      Stops D xs bs s ⟨marks pre, .error e⟩

/-- Among items of `P`, an item is refused for `D` only. -/
def Refuses (P : α → Prop) (D : α → ε → Prop) : Prop :=
  ∀ x e, P x → r.read x = some e ∨ (∃ ys, (∀ y ∈ ys, P y) ∧ r.decode ys x = some e) → D x e

variable {r} {D : α → ε → Prop}

theorem offer_ok {b : Batch α} (h : r.batch b = none) :
    offer r b = ⟨[.handed b, .sent b], .ok ()⟩ := by
  rw [offer, h]
  rfl

theorem offer_refused {b : Batch α} {e : ε} (h : r.batch b = some e) :
    offer r b = ⟨[.handed b], .error e⟩ := by
  rw [offer, h]
  rfl

/-- What was sent is a beginning of what the unrefused run cuts. -/
theorem Stops.sent_beginning {xs : List α} {bs : List (Batch α)} {s : Open α}
    {t : Trail (Mark (Batch α)) ε (Open α)} (h : Stops r D xs bs s t) : Batcher.sent t.out <+: bs := by
  cases h with
  | whole sent =>
    simp only [sent_marks, List.prefix_refl]
  | batch pre b e isPrefix sent refused =>
    have hnone : Batcher.sent [Mark.handed b] = [] := rfl
    rw [sent_append, sent_marks, hnone, List.append_nil]
    exact (List.prefix_append pre [b]).trans isPrefix
  | item pre x e isPrefix sent mem refused =>
    rw [sent_marks]
    exact isPrefix

/-- What was handed over is too. -/
theorem Stops.handed_beginning {xs : List α} {bs : List (Batch α)} {s : Open α}
    {t : Trail (Mark (Batch α)) ε (Open α)} (h : Stops r D xs bs s t) :
    Batcher.handed t.out <+: bs := by
  cases h with
  | whole sent =>
    simp only [handed_marks, List.prefix_refl]
  | batch pre b e isPrefix sent refused =>
    rw [handed_append, handed_marks]
    exact isPrefix
  | item pre x e isPrefix sent mem refused =>
    rw [handed_marks]
    exact isPrefix

/-- What is put out after the batches `bs`, with the rest of the run. -/
theorem Stops.after {xs ys : List α} {bs bs' : List (Batch α)} {s : Open α}
    {t : Trail (Mark (Batch α)) ε (Open α)} (sent : ∀ b ∈ bs, r.batch b = none)
    (h : Stops r D ys bs' s t) (hxs : ys ⊆ xs) :
    Stops r D xs (bs ++ bs') s ⟨marks bs ++ t.out, t.outcome⟩ := by
  have hall : ∀ pre : List (Batch α), (∀ b ∈ pre, r.batch b = none) →
      ∀ b ∈ bs ++ pre, r.batch b = none := by
    intro pre hpre b hb
    rcases List.mem_append.1 hb with hb | hb
    · exact sent b hb
    · exact hpre b hb
  cases h with
  | whole sent' =>
    rw [← marks_append]
    exact .whole (hall bs' sent')
  | batch pre b e isPrefix sent' refused =>
    rw [← List.append_assoc, ← marks_append]
    refine .batch (bs ++ pre) b e ?_ (hall pre sent') refused
    rw [List.append_assoc]
    exact (List.prefix_append_right_inj bs).2 isPrefix
  | item pre x e isPrefix sent' mem refused =>
    rw [← marks_append]
    exact .item (bs ++ pre) x e ((List.prefix_append_right_inj bs).2 isPrefix) (hall pre sent')
      (hxs mem) refused

/-- Offering batches, then the rest of the run. -/
theorem stops_offerAll {xs : List α} {s : Open α} {k : Trail (Mark (Batch α)) ε (Open α)}
    {bs' : List (Batch α)} : ∀ bs : List (Batch α), Stops r D xs bs' s k →
    Stops r D xs (bs ++ bs') s (offerAll r bs >>= fun _ => k) := by
  intro bs hk
  induction bs with
  | nil => exact hk
  | cons b bs ih =>
    rw [offerAll, bind_assoc]
    cases h : r.batch b with
    | none =>
      rw [offer_ok h, Trail.ok_bind]
      have hb : ∀ c ∈ [b], r.batch c = none := by simpa using h
      exact Stops.after hb ih (List.Subset.refl xs)
    | some e =>
      rw [offer_refused h, Trail.error_bind]
      exact .batch [] b e (by simp) (by simp) h

/-- A refusal of an item, or the rest of the run. -/
theorem stops_refuse {xs : List α} {s : Open α} {k : Trail (Mark (Batch α)) ε (Open α)}
    {bs : List (Batch α)} {x : α} (mem : x ∈ xs) {o : Option ε}
    (ho : ∀ e, o = some e → D x e)
    (hk : Stops r D xs bs s k) : Stops r D xs bs s (Trail.refuse o >>= fun _ => k) := by
  cases o with
  | none => exact hk
  | some e => exact .item [] x e List.nil_prefix (by simp) mem (ho e rfl)

theorem stops_pure (xs : List α) (s : Open α) : Stops r D xs [] s (pure s) := .whole (by simp)

/-- What is open is some of what was open and of what was taken. -/
theorem open_subset {P : α → Prop} {s : Open α} {op : Op α} (hs : ∀ x ∈ s.items, P x)
    (hop : ∀ x ∈ itemsOf [op], P x) : ∀ x ∈ (step cfg s op).2.items, P x := by
  intro x hx
  have hitems := (conserve cfg [op] s).items
  have hmem : x ∈ s.items ++ itemsOf [op] := by
    rw [← hitems]
    exact List.mem_append_right _ hx
  rcases List.mem_append.1 hmem with hmem | hmem
  · exact hs x hmem
  · exact hop x hmem

/-- **One operation**, with what follows it. -/
theorem feedStep_stops {P : α → Prop} (hD : Refuses r P D) {xs : List α} {bs : List (Batch α)}
    {s s'' : Open α} {op : Op α} {k : Open α → Trail (Mark (Batch α)) ε (Open α)}
    (hs : ∀ x ∈ s.items, P x) (hop : ∀ x ∈ itemsOf [op], P x)
    (hk : Stops r D xs bs s'' (k (step cfg s op).2)) :
    Stops r D (itemsOf [op] ++ xs) ((step cfg s op).1 ++ bs) s'' (feedStep cfg r s op >>= k) := by
  have hxs : ∀ ys : List α, xs ⊆ ys ++ xs := fun ys => List.subset_append_right ys xs
  have hk' : ∀ ys : List α, Stops r D (ys ++ xs) bs s'' (k (step cfg s op).2) := fun ys =>
    Stops.after (fun _ hb => absurd hb List.not_mem_nil) hk (hxs ys)
  cases op with
  | push x early =>
    have hx : P x := hop x List.mem_cons_self
    have hbefore : ∀ y ∈ (before cfg s x).2.items, P y := by
      intro y hy
      have hitems := (before_conserves cfg s x).items
      rw [List.append_nil] at hitems
      exact hs y (by rw [← hitems]; exact List.mem_append_right _ hy)
    have mem : x ∈ itemsOf [Op.push x early] ++ xs := by simp [itemsOf]
    simp only [feedStep, feedPush, bind_assoc, pure_bind, step, push, List.append_assoc]
    refine stops_refuse mem (fun e he => hD x e hx (.inl he)) ?_
    refine stops_offerAll _ ?_
    refine stops_refuse mem (fun e he => hD x e hx (.inr ⟨_, hbefore, he⟩)) ?_
    exact stops_offerAll _ (hk' _)
  | boundary early =>
    simp only [feedStep, bind_assoc, pure_bind]
    exact stops_offerAll _ (hk' _)
  | finish =>
    simp only [feedStep, bind_assoc, pure_bind]
    exact stops_offerAll _ (hk' _)

/-- **A refused run cuts a beginning of what an unrefused one cuts.** -/
theorem feed_stops {P : α → Prop} (hD : Refuses r P D) : ∀ (ops : List (Op α)) (s : Open α),
    (∀ x ∈ s.items, P x) → (∀ x ∈ itemsOf ops, P x) →
    Stops r D (itemsOf ops) (run cfg s ops).1 (run cfg s ops).2 (feed cfg r s ops) := by
  intro ops
  induction ops with
  | nil => intro s _ _; exact stops_pure _ s
  | cons op ops ih =>
    intro s hs hops
    have hitems : itemsOf (op :: ops) = itemsOf [op] ++ itemsOf ops := itemsOf_append [op] ops
    rw [hitems] at hops ⊢
    have hop : ∀ x ∈ itemsOf [op], P x := fun x hx => hops x (List.mem_append_left _ hx)
    rw [run_cons, feed]
    exact feedStep_stops cfg hD hs hop
      (ih _ (open_subset cfg hs hop) fun x hx => hops x (List.mem_append_right _ hx))

/-- A refused run, with the refusals themselves for what an item is refused for. -/
theorem feed_stops_refusals (ops : List (Op α)) (s : Open α) :
    Stops r (fun x e => r.read x = some e ∨ ∃ ys, r.decode ys x = some e) (itemsOf ops)
      (run cfg s ops).1 (run cfg s ops).2 (feed cfg r s ops) := by
  refine feed_stops cfg (P := fun _ => True) ?_ ops s (fun _ _ => trivial) fun _ _ => trivial
  rintro x e - (h | ⟨ys, -, h⟩)
  · exact .inl h
  · exact .inr ⟨ys, h⟩

/-! ### Early cuts -/

/-- The operation without its early cut. -/
def Op.late : Op α → Op α
  | .push x _ => .push x false
  | .boundary _ => .boundary false
  | .finish => .finish

/-- The operations with some early cuts, or with none when there is no budget. -/
def Timing (budgeted : Bool) (plan ops : List (Op α)) : Prop :=
  ops.map Op.late = plan.map Op.late ∧ (budgeted = false → ops = plan.map Op.late)

@[simp] theorem itemsOf_map_late (ops : List (Op α)) : itemsOf (ops.map Op.late) = itemsOf ops := by
  induction ops with
  | nil => rfl
  | cons op ops ih => cases op <;> simp [itemsOf, Op.late, ih]

theorem Timing.itemsOf_eq {budgeted : Bool} {plan ops : List (Op α)}
    (h : Timing budgeted plan ops) : itemsOf ops = itemsOf plan := by
  rw [← itemsOf_map_late ops, h.1, itemsOf_map_late]

theorem Timing.append {budgeted : Bool} {plan plan' ops ops' : List (Op α)}
    (h : Timing budgeted plan ops) (h' : Timing budgeted plan' ops') :
    Timing budgeted (plan ++ plan') (ops ++ ops') := by
  refine ⟨?_, ?_⟩
  · rw [List.map_append, List.map_append, h.1, h'.1]
  · intro hb
    rw [List.map_append, h.2 hb, h'.2 hb]

theorem timing_late (budgeted : Bool) (plan : List (Op α)) :
    Timing budgeted plan (plan.map Op.late) := by
  refine ⟨?_, fun _ => rfl⟩
  rw [List.map_map]
  exact List.map_congr_left fun op _ => by cases op <;> rfl

variable (r)

/-- The trails of a plan, whatever is early. -/
def Fed (budgeted : Bool) (s : Open α) (plan : List (Op α))
    (t : Trail (Mark (Batch α)) ε (Open α)) : Prop :=
  ∃ ops, Timing budgeted plan ops ∧ t = feed cfg r s ops

theorem exists_fed (budgeted : Bool) (s : Open α) (plan : List (Op α)) :
    ∃ t, Fed cfg r budgeted s plan t := ⟨_, _, timing_late budgeted plan, rfl⟩

/-- One plan after another, and what `k` makes of where they end. -/
theorem fed_seq {τ : Type} {budgeted : Bool} {s : Open α} {plan plan' : List (Op α)}
    {k : Open α → Trail (Mark (Batch α)) ε τ} {t : Trail (Mark (Batch α)) ε τ}
    (h : Watch.seq (Fed cfg r budgeted s plan)
      (fun s' t' => ∃ t₀, Fed cfg r budgeted s' plan' t₀ ∧ t' = t₀ >>= k) t) :
    ∃ t₀, Fed cfg r budgeted s (plan ++ plan') t₀ ∧ t = t₀ >>= k := by
  obtain ⟨t₁, u, ⟨ops, hops, rfl⟩, hu, rfl⟩ := h
  choose t₀ ht₀ hut using hu
  choose ops' hops' ht₀ using ht₀
  cases hout : (feed cfg r s ops).outcome with
  | error e =>
    refine ⟨_, ⟨ops ++ plan'.map Op.late, hops.append (timing_late _ _), rfl⟩, ?_⟩
    rw [feed_append]
    generalize feed cfg r s ops = t₁ at hout
    obtain ⟨out, oc⟩ := t₁
    subst hout
    rfl
  | ok s' =>
    refine ⟨_, ⟨ops ++ ops' s', hops.append (hops' s'), rfl⟩, ?_⟩
    rw [feed_append, bind_assoc]
    generalize feed cfg r s ops = t₁ at hout
    obtain ⟨out, oc⟩ := t₁
    subst hout
    rw [Trail.ok_bind, Trail.ok_bind, hut, ht₀]

theorem fed_append {budgeted : Bool} {s : Open α} {plan plan' : List (Op α)}
    {t : Trail (Mark (Batch α)) ε (Open α)}
    (h : Watch.seq (Fed cfg r budgeted s plan) (fun s' => Fed cfg r budgeted s' plan') t) :
    Fed cfg r budgeted s (plan ++ plan') t := by
  obtain ⟨t₀, ht₀, rfl⟩ := fed_seq cfg r (k := pure) (t := t) (by
    obtain ⟨t₁, u, ht₁, hu, rfl⟩ := h
    exact ⟨t₁, u, ht₁, fun s' => ⟨u s', hu s', (bind_pure _).symm⟩, rfl⟩)
  rw [bind_pure]
  exact ht₀

/-- A late boundary changes nothing. -/
theorem feed_boundary (s : Open α) (ops : List (Op α)) :
    feed cfg r s (.boundary false :: ops) = feed cfg r s ops := rfl

/-- The items as they are taken when nothing is early. -/
def pushes (xs : List α) : List (Op α) := xs.map fun x => .push x false

theorem pushes_append (xs ys : List α) : pushes (xs ++ ys) = pushes xs ++ pushes ys :=
  List.map_append

/-- **Without early cuts only the items count**, not where the boundaries are. -/
theorem feed_late (s : Open α) : ∀ (yss : List (List α)) (ops : List (Op α)),
    feed cfg r s (yss.flatMap (fun ys => pushes ys ++ [.boundary false]) ++ ops) =
      feed cfg r s (pushes yss.flatten ++ ops) := by
  intro yss
  induction yss generalizing s with
  | nil => intro ops; rfl
  | cons ys yss ih =>
    intro ops
    rw [List.flatMap_cons, List.flatten_cons, pushes_append, List.append_assoc, List.append_assoc,
      List.append_assoc, feed_append, feed_append]
    refine bind_congr fun s' => ?_
    rw [List.singleton_append, feed_boundary, ih]

end

end Lib.Batcher

/-! ## A ceiling above every target

Where no target exceeds the ceiling on a batch, only one item can exceed it: the
batch refused is a single item, the first that is over the ceiling, and everything
in front of it has been sent (`refused_alone`).  `feed_over` is the other direction:
with nothing else to refuse, that item is reached and refused.
-/

namespace Lib.Batcher

variable {α ε : Type} {cfg : Config α} {r : Refusals α ε} {limit : Nat}

/-- Batches are refused above a ceiling, which no target exceeds. -/
structure Capped (cfg : Config α) (r : Refusals α ε) (limit : Nat) : Prop where
  target : ∀ i, cfg.target i ≤ limit
  weight : ∀ x, cfg.weight x ≤ cfg.bound x
  batch : ∀ b, r.batch b = none ↔ cfg.load b.items ≤ limit

/-- `x`, behind the items `front`, is the first item over a limit. -/
structure FirstOver (cfg : Config α) (limit : Nat) (xs front : List α) (x : α) : Prop where
  isPrefix : front ++ [x] <+: xs
  under : ∀ y ∈ front, cfg.weight y ≤ limit
  exceeds : limit < cfg.weight x

theorem Config.weight_le_load {x : α} {xs : List α} (h : x ∈ xs) : cfg.weight x ≤ cfg.load xs := by
  obtain ⟨ys, zs, rfl⟩ := List.append_of_mem h
  have hcons : ys ++ x :: zs = ys ++ ([x] ++ zs) := rfl
  rw [hcons, load_append, load_append, load_singleton]
  omega

/-- There is at most one first item over a limit. -/
theorem FirstOver.unique {xs front front' : List α} {x x' : α}
    (h : FirstOver cfg limit xs front x) (h' : FirstOver cfg limit xs front' x') :
    front = front' ∧ x = x' := by
  have hover : ∀ {f f' : List α} {y y' : α}, FirstOver cfg limit xs f y →
      FirstOver cfg limit xs f' y' → ¬f.length < f'.length := by
    intro f f' y y' hf hf' hlt
    have hpre : f ++ [y] <+: f' := by
      refine List.prefix_of_prefix_length_le hf.isPrefix
        ((List.prefix_append f' [y']).trans hf'.isPrefix) ?_
      rw [List.length_append]
      exact hlt
    have hunder := hf'.under y (hpre.subset (by simp))
    have := hf.exceeds
    omega
  have hlen : front.length = front'.length := by
    have := hover h h'
    have := hover h' h
    omega
  have hsame : front ++ [x] = front' ++ [x'] := by
    refine (List.prefix_of_prefix_length_le h.isPrefix h'.isPrefix ?_).eq_of_length ?_
    · rw [List.length_append, List.length_append, hlen]
      exact Nat.le_refl _
    · rw [List.length_append, List.length_append, hlen]
      rfl
  obtain ⟨hfront, hx⟩ := List.append_inj hsame hlen
  exact ⟨hfront, List.head_eq_of_cons_eq hx⟩

/-- The items of a beginning of the batches cut are a beginning of the items. -/
theorem items_beginning {ops : List (Op α)} {bs : List (Batch α)}
    (h : bs <+: (run cfg .start ops).1) : (bs.map Batch.items).flatten <+: itemsOf ops := by
  obtain ⟨rest, hrest⟩ := h
  have hitems := (conserve cfg ops .start).items
  rw [← hrest, List.map_append, List.flatten_append, List.append_assoc] at hitems
  exact ⟨_, hitems⟩

/-- **A batch is refused for one item only**, the first that is over the ceiling. -/
theorem refused_alone (h : Capped cfg r limit) {ops : List (Op α)} {pre : List (Batch α)}
    {b : Batch α} {e : ε} (hcut : pre ++ [b] <+: (run cfg .start ops).1)
    (hsent : ∀ c ∈ pre, r.batch c = none) (hrefused : r.batch b = some e) :
    ∃ x, b.items = [x] ∧
      FirstOver cfg limit (itemsOf ops) (pre.map Batch.items).flatten x := by
  have hb : b ∈ (run cfg .start ops).1 := hcut.subset (by simp)
  have hbounded := (load_le_target cfg h.weight ops .start fun h => by simp [Open.start] at h).1 b hb
  have hne := (conserve cfg ops .start).ne_nil b hb
  have hover : limit < cfg.load b.items := by
    by_contra hle
    rw [(h.batch b).2 (Nat.not_lt.1 hle)] at hrefused
    cases hrefused
  have hone : ¬2 ≤ b.items.length := by
    intro htwo
    have := (hbounded htwo).1
    have := h.target b.index
    omega
  obtain ⟨x, hx⟩ : ∃ x, b.items = [x] := by
    rw [← List.length_eq_one_iff]
    have := List.length_pos_iff.2 hne
    omega
  refine ⟨x, hx, ?_, ?_, ?_⟩
  · have hitems := items_beginning hcut
    rw [List.map_append, List.flatten_append, List.map_singleton, List.flatten_singleton, hx] at hitems
    exact hitems
  · intro y hy
    obtain ⟨ys, hys, hy⟩ := List.mem_flatten.1 hy
    obtain ⟨c, hc, rfl⟩ := List.mem_map.1 hys
    exact Nat.le_trans (Config.weight_le_load hy) ((h.batch c).1 (hsent c hc))
  · rw [hx, Config.load_singleton] at hover
    exact hover

/-- Behind an item that reaches the target nothing is open. -/
theorem push_open_nil {s : Open α} {x : α} (early : Bool)
    (h : cfg.target s.emitted ≤ cfg.weight x) : (push cfg early s x).2.items = [] := by
  have hload : ∀ xs : List α, cfg.target s.emitted ≤ cfg.load (xs ++ [x]) := by
    intro xs
    rw [Config.load_append, Config.load_singleton]
    omega
  simp only [push, after, cause?]
  rw [if_pos (hload _)]
  rfl

theorem run_push_items {x : α} (early : Bool) (h : ∀ i, cfg.target i ≤ cfg.weight x)
    (ops : List (Op α)) (s : Open α) : (run cfg s (ops ++ [.push x early])).2.items = [] := by
  induction ops generalizing s with
  | nil => exact push_open_nil early (h _)
  | cons op ops ih => exact ih (step cfg s op).2

/-- **An item over the ceiling is reached and refused** where nothing in front of it is refused. -/
theorem feed_over (h : Capped cfg r limit) {P : α → Prop} (hP : Refuses r P fun _ _ => False)
    {ops : List (Op α)} {x : α} (early : Bool) (hops : ∀ y ∈ itemsOf ops, P y) (hx : P x)
    (hunder : ∀ y ∈ itemsOf ops, cfg.weight y ≤ limit) (hover : limit < cfg.weight x) :
    ∃ b e, b.items = [x] ∧ r.batch b = some e ∧
      (feed cfg r .start (ops ++ [.push x early])).outcome = .error e := by
  have hitems : itemsOf (ops ++ [.push x early]) = itemsOf ops ++ [x] := itemsOf_append _ _
  have hfirst : FirstOver cfg limit (itemsOf (ops ++ [.push x early])) (itemsOf ops) x :=
    ⟨hitems ▸ List.prefix_refl _, hunder, hover⟩
  have hall : ∀ y ∈ itemsOf (ops ++ [.push x early]), P y := by
    intro y hy
    rw [hitems] at hy
    rcases List.mem_append.1 hy with hy | hy
    · exact hops y hy
    · exact List.mem_singleton.1 hy ▸ hx
  have hstops := feed_stops cfg hP (ops ++ [.push x early]) .start (by simp [Open.start]) hall
  generalize feed cfg r .start (ops ++ [.push x early]) = t at hstops
  cases hstops with
  | item pre y e isPrefix sent mem refused => exact refused.elim
  | batch pre b e isPrefix sent refused =>
    obtain ⟨y, hy, hfirst'⟩ := refused_alone h isPrefix sent refused
    obtain ⟨-, rfl⟩ := hfirst.unique hfirst'
    exact ⟨b, e, hy, refused, rfl⟩
  | whole sent =>
    -- Nothing is open behind the item, so it was sent in a batch within the ceiling.
    exfalso
    have hopen : (run cfg .start (ops ++ [.push x early])).2.items = [] :=
      run_push_items early (fun i => Nat.le_trans (h.target i) (Nat.le_of_lt hover)) ops .start
    have hcons := (conserve cfg (ops ++ [.push x early]) .start).items
    rw [hopen, List.append_nil, hitems] at hcons
    have hmem : x ∈ ((run cfg .start (ops ++ [.push x early])).1.map Batch.items).flatten := by
      rw [hcons]
      simp
    obtain ⟨ys, hys, hmem⟩ := List.mem_flatten.1 hmem
    obtain ⟨c, hc, rfl⟩ := List.mem_map.1 hys
    exact Nat.not_le.2 hover (Nat.le_trans (Config.weight_le_load hmem) ((h.batch c).1 (sent c hc)))

end Lib.Batcher
