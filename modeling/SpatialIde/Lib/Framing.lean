import Mathlib.Data.List.Basic

/-! # Frames in a stream

A stream is frames, one behind the other.  `cut` says what stands at its start: a frame, nothing
yet, or something it refuses.  As more of the stream changes neither a frame nor a refusal
(`Framing`), what the frames are does not depend on how the stream arrives (`drain_append`).

`feed` takes a stream in chunks and hands out, with each chunk, the frames that it completes; a chunk
that brings something refused has only the report of it.  `feed_eq` says what is handed out: where
nothing is refused every frame, else the frames of the chunks before (`before`).
-/

namespace Lib

variable {α φ ε : Type}

/-- What stands at the start of a stream. -/
inductive Cut (α φ ε : Type) where
  | more
  | refused (e : ε)
  | frame (f : φ) (rest : List α)

structure Framing (α φ ε : Type) where
  cut : List α → Cut α φ ε
  shorter : ∀ {s f rest}, cut s = .frame f rest → rest.length < s.length
  frame_append : ∀ {s f rest} t, cut s = .frame f rest → cut (s ++ t) = .frame f (rest ++ t)
  refused_append : ∀ {s e} t, cut s = .refused e → cut (s ++ t) = .refused e

/-- The frames of a stream, what is behind them, and what was refused there. -/
structure Drained (α φ ε : Type) where
  frames : List φ
  rest : List α
  fault : Option ε

namespace Framing

variable (F : Framing α φ ε)

def drain (s : List α) : Drained α φ ε :=
  match _h : F.cut s with
  | .more => ⟨[], s, none⟩
  | .refused e => ⟨[], s, some e⟩
  | .frame f rest =>
    let d := drain rest
    ⟨f :: d.frames, d.rest, d.fault⟩
termination_by s.length
decreasing_by exact F.shorter _h

variable {F}

theorem drain_more {s : List α} (h : F.cut s = .more) : F.drain s = ⟨[], s, none⟩ := by
  rw [drain]
  split
  · rfl
  · next h' => rw [h] at h'; cases h'
  · next h' => rw [h] at h'; cases h'

theorem drain_refused {s : List α} {e : ε} (h : F.cut s = .refused e) :
    F.drain s = ⟨[], s, some e⟩ := by
  rw [drain]
  split
  · next h' => rw [h] at h'; cases h'
  · next h' =>
    rw [h] at h'
    cases h'
    rfl
  · next h' => rw [h] at h'; cases h'

theorem drain_frame {s rest : List α} {f : φ} (h : F.cut s = .frame f rest) :
    F.drain s = ⟨f :: (F.drain rest).frames, (F.drain rest).rest, (F.drain rest).fault⟩ := by
  rw [drain]
  split
  · next h' => rw [h] at h'; cases h'
  · next h' => rw [h] at h'; cases h'
  · next h' =>
    rw [h] at h'
    cases h'
    rfl

/-- Induction on the frames of a stream. -/
@[elab_as_elim]
theorem drain_induction (F : Framing α φ ε) {P : List α → Prop}
    (more : ∀ s, F.cut s = .more → P s) (refused : ∀ s e, F.cut s = .refused e → P s)
    (frame : ∀ s f rest, F.cut s = .frame f rest → P rest → P s) (s : List α) : P s := by
  induction hn : s.length using Nat.strongRecOn generalizing s with
  | ind n ih =>
    cases hcut : F.cut s with
    | more => exact more s hcut
    | refused e => exact refused s e hcut
    | frame f rest => exact frame s f rest hcut (ih rest.length (hn ▸ F.shorter hcut) rest rfl)

/-- More of the stream goes behind what was left of it. -/
theorem drain_append (s t : List α) (h : (F.drain s).fault = none) :
    F.drain (s ++ t) =
      ⟨(F.drain s).frames ++ (F.drain ((F.drain s).rest ++ t)).frames,
        (F.drain ((F.drain s).rest ++ t)).rest, (F.drain ((F.drain s).rest ++ t)).fault⟩ := by
  induction s using F.drain_induction with
  | more s hcut => rw [drain_more hcut, List.nil_append]
  | refused s e hcut =>
    rw [drain_refused hcut] at h
    cases h
  | frame s f rest hcut ih =>
    rw [drain_frame hcut] at h ⊢
    rw [drain_frame (F.frame_append t hcut), ih h]
    rfl

/-- Behind what was refused nothing is looked at. -/
theorem drain_append_fault (s t : List α) {e : ε} (h : (F.drain s).fault = some e) :
    F.drain (s ++ t) = ⟨(F.drain s).frames, (F.drain s).rest ++ t, some e⟩ := by
  induction s using F.drain_induction with
  | more s hcut =>
    rw [drain_more hcut] at h
    cases h
  | refused s e' hcut =>
    rw [drain_refused hcut] at h ⊢
    cases h
    rw [drain_refused (F.refused_append t hcut)]
  | frame s f rest hcut ih =>
    rw [drain_frame hcut] at h ⊢
    rw [drain_frame (F.frame_append t hcut), ih h]

/-- The frames of a beginning are the first of the frames. -/
theorem frames_append (s t : List α) : (F.drain s).frames <+: (F.drain (s ++ t)).frames := by
  cases h : (F.drain s).fault with
  | none =>
    rw [drain_append s t h]
    exact List.prefix_append _ _
  | some e =>
    have heq : (F.drain (s ++ t)).frames = (F.drain s).frames := by
      rw [drain_append_fault s t h]
    exact heq.symm ▸ List.prefix_refl (F.drain s).frames

/-! ### Chunks -/

variable (F)

/-- What was handed out, what is left, and what was refused. -/
def feed {ψ : Type} (hand : φ → ψ) (report : ε → ψ) (left : List α) :
    List (List α) → Drained α ψ ε
  | [] => ⟨[], left, none⟩
  | chunk :: chunks =>
    let d := F.drain (left ++ chunk)
    match d.fault with
    | some e => ⟨[report e], d.rest, some e⟩
    | none =>
      let d' := feed hand report d.rest chunks
      ⟨d.frames.map hand ++ d'.frames, d'.rest, d'.fault⟩

/-- The part of a stream that came before the chunk with which something is refused. -/
def before (s : List α) : List (List α) → List α
  | [] => s
  | chunk :: chunks => if (F.drain (s ++ chunk)).fault.isSome then s else before (s ++ chunk) chunks

variable {F}

/-- **Chunks do not matter, up to what is refused.** -/
theorem feed_eq {ψ : Type} (hand : φ → ψ) (report : ε → ψ) (s : List α)
    (h : (F.drain s).fault = none) (chunks : List (List α)) :
    (F.drain s).frames.map hand ++ (F.feed hand report (F.drain s).rest chunks).frames =
      (F.drain (F.before s chunks)).frames.map hand ++
        ((F.drain (s ++ chunks.flatten)).fault.map report).toList ∧
    (F.feed hand report (F.drain s).rest chunks).fault = (F.drain (s ++ chunks.flatten)).fault := by
  induction chunks generalizing s with
  | nil => simp [feed, before, h]
  | cons chunk chunks ih =>
    have hdrain := drain_append s chunk h
    rw [List.flatten_cons, ← List.append_assoc, feed, before]
    cases hfault : (F.drain (s ++ chunk)).fault with
    | some e =>
      have hleft : (F.drain ((F.drain s).rest ++ chunk)).fault = some e := by
        rw [← hfault, hdrain]
      rw [hleft, drain_append_fault _ _ hfault]
      exact ⟨rfl, rfl⟩
    | none =>
      have hleft : (F.drain ((F.drain s).rest ++ chunk)).fault = none := by
        rw [← hfault, hdrain]
      obtain ⟨hframes, hfault'⟩ := ih (s ++ chunk) hfault
      have hrest : (F.drain ((F.drain s).rest ++ chunk)).rest = (F.drain (s ++ chunk)).rest := by
        rw [hdrain]
      have hall : (F.drain s).frames.map hand ++
          (F.drain ((F.drain s).rest ++ chunk)).frames.map hand =
            (F.drain (s ++ chunk)).frames.map hand := by
        rw [hdrain, List.map_append]
      rw [hleft]
      dsimp only
      rw [hrest, ← List.append_assoc, hall]
      exact ⟨hframes, hfault'⟩

/-- The frames that came before a refusal are the first of the frames. -/
theorem before_frames (s : List α) (chunks : List (List α)) :
    (F.drain (F.before s chunks)).frames <+: (F.drain (s ++ chunks.flatten)).frames := by
  induction chunks generalizing s with
  | nil => simp [before]
  | cons chunk chunks ih =>
    rw [List.flatten_cons, before]
    split_ifs with hfault
    · exact frames_append s _
    · rw [← List.append_assoc]
      exact ih (s ++ chunk)

/-- Where nothing is refused everything came before. -/
theorem before_eq (s : List α) (chunks : List (List α))
    (h : (F.drain (s ++ chunks.flatten)).fault = none) :
    F.before s chunks = s ++ chunks.flatten := by
  induction chunks generalizing s with
  | nil => simp [before]
  | cons chunk chunks ih =>
    rw [List.flatten_cons, ← List.append_assoc] at h ⊢
    have hchunk : (F.drain (s ++ chunk)).fault = none := by
      cases hfault : (F.drain (s ++ chunk)).fault with
      | none => rfl
      | some e =>
        rw [drain_append_fault _ _ hfault] at h
        cases h
    rw [before, hchunk, if_neg (by simp)]
    exact ih (s ++ chunk) h

end Framing

end Lib
