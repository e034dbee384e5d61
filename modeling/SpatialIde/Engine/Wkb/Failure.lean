import SpatialIde.Engine.Wkb.Builders

/-! # How a decode fails

Every refusal of the strict decode is an `EngineError.wkb`: no builder refuses a
value for its size.
-/

namespace SpatialIde.Engine.Wkb

open Lib

/-- A refusal of the strict decode. -/
def IsWkb (e : EngineError) : Prop := ∃ detail, e = .wkb detail

variable {σ : Type}

theorem fails_take (n : Nat) : FailsWith IsWkb (take n : Decoder σ (List UInt8)) := by
  intro st e st' h
  change take n st = _ at h
  unfold take at h
  dsimp only at h
  split_ifs at h
  cases h
  exact ⟨_, rfl⟩

theorem fails_byteOrder : FailsWith IsWkb (byteOrder : Decoder σ Unit) := by
  refine (fails_take 1).bind fun raw => ?_
  dsimp only
  cases littleOf (raw.headD 0) with
  | none => exact .fail ⟨_, rfl⟩
  | some little => exact .setMode little

theorem fails_u32 : FailsWith IsWkb (u32 : Decoder σ UInt32) :=
  (fails_take 4).bind fun _ => FailsWith.mode.bind fun _ => .pure _

theorem fails_f64 : FailsWith IsWkb (f64 : Decoder σ F64) :=
  (fails_take 8).bind fun _ => FailsWith.mode.bind fun _ => .pure _

theorem fails_readPosition : FailsWith IsWkb readPosition :=
  fails_f64.bind fun _ => fails_f64.bind fun _ => .modifyOut _

theorem fails_readRing (ring : Nat) : FailsWith IsWkb (readRing ring) := by
  refine fails_u32.bind fun n => (FailsWith.refuseIf ⟨_, rfl⟩).bind fun _ => ?_
  refine FailsWith.getOut.bind fun _ => ?_
  refine (FailsWith.forRange (fun _ => .zoom fails_readPosition) _ _).bind fun _ => ?_
  exact FailsWith.getOut.bind fun _ => (FailsWith.refuseIf ⟨_, rfl⟩).bind fun _ => .modifyOut _

theorem fails_readLine (what : String) : FailsWith IsWkb (readLine what) :=
  fails_u32.bind fun _ => (FailsWith.refuseIf ⟨_, rfl⟩).bind fun _ =>
    .forRange (fun _ => fails_readPosition) _ _

theorem fails_readPartHeader (multi single : String) (wanted : UInt32) (part : Nat) :
    FailsWith IsWkb (readPartHeader multi single wanted part : Decoder σ Unit) :=
  fails_byteOrder.bind fun _ => fails_u32.bind fun _ =>
    (FailsWith.refuseIf ⟨_, rfl⟩).bind fun _ => .refuseIf ⟨_, rfl⟩

theorem fails_trailing (what : String) :
    FailsWith IsWkb (expectEnd (trailingRefusal what) : Decoder σ Unit) :=
  .expectEnd fun _ => ⟨_, rfl⟩

theorem fails_decodeAll {bytes : List UInt8} {body : Decoder σ Unit} (h : FailsWith IsWkb body)
    {s : σ} {e : EngineError} (hrun : (decodeAll bytes body s).1 = .error e) : IsWkb e := by
  unfold decodeAll at hrun
  cases hnew : Reader.new bytes with
  | error e' =>
    rw [hnew] at hrun
    cases hrun
    unfold Reader.new at hnew
    split at hnew
    · cases hnew
      exact ⟨_, rfl⟩
    · split at hnew
      · cases hnew
      · cases hnew
        exact ⟨_, rfl⟩
  | ok r =>
    rw [hnew] at hrun
    dsimp only at hrun
    cases hbody : body.run (r, s) with
    | ok a st =>
      rw [hbody] at hrun
      cases hrun
    | error e' st =>
      rw [hbody] at hrun
      cases hrun
      exact h _ _ _ hbody

theorem fails_polygon : FailsWith IsWkb PolygonBuilder.body := by
  refine fails_u32.bind fun _ => (FailsWith.refuseIf ⟨_, rfl⟩).bind fun _ => ?_
  refine (FailsWith.refuseIf ⟨_, rfl⟩).bind fun _ => fails_u32.bind fun _ => ?_
  refine (FailsWith.refuseIf ⟨_, rfl⟩).bind fun _ => ?_
  refine (FailsWith.forRange (fun ring => .zoom (fails_readRing ring)) _ _).bind fun _ => ?_
  exact (FailsWith.modifyOut _).bind fun _ => .expectEnd fun _ => ⟨_, rfl⟩

theorem fails_multiPolygon : FailsWith IsWkb MultiPolygonBuilder.body := by
  have hpart : ∀ part, FailsWith IsWkb (MultiPolygonBuilder.pushPart part) := fun part =>
    fails_u32.bind fun _ => (FailsWith.refuseIf ⟨_, rfl⟩).bind fun _ =>
      (FailsWith.forRange (fun ring => .zoom (fails_readRing ring)) _ _).bind fun _ =>
        .modifyOut _
  have hparts : FailsWith IsWkb MultiPolygonBuilder.pushParts :=
    fails_u32.bind fun _ => (FailsWith.refuseIf ⟨_, rfl⟩).bind fun _ =>
      .forRange (fun part => (fails_readPartHeader _ _ _ part).bind fun _ => hpart part) _ _
  refine fails_u32.bind fun rawType => (FailsWith.refuseIf ⟨_, rfl⟩).bind fun _ => ?_
  refine FailsWith.bind (.ite (hpart 0) (.ite hparts (.fail ⟨_, rfl⟩))) fun _ => ?_
  exact (fails_trailing _).bind fun _ => .modifyOut _

theorem fails_point : FailsWith IsWkb PointBuilder.body := by
  refine fails_u32.bind fun _ => (FailsWith.refuseIf ⟨_, rfl⟩).bind fun _ => ?_
  refine (FailsWith.refuseIf ⟨_, rfl⟩).bind fun _ => fails_f64.bind fun _ => ?_
  refine fails_f64.bind fun _ => (FailsWith.refuseIf ⟨_, rfl⟩).bind fun _ => ?_
  exact (fails_trailing _).bind fun _ => .modifyOut _

theorem fails_lineString : FailsWith IsWkb LineStringBuilder.decode := by
  refine fails_u32.bind fun _ => (FailsWith.refuseIf ⟨_, rfl⟩).bind fun _ => ?_
  refine (FailsWith.refuseIf ⟨_, rfl⟩).bind fun _ => ?_
  exact (FailsWith.zoom (fails_readLine _)).bind fun _ => fails_trailing _

theorem fails_multiLineString : FailsWith IsWkb MultiLineStringBuilder.decode := by
  have hpart : ∀ what, FailsWith IsWkb (MultiLineStringBuilder.pushPart what) := fun what =>
    (FailsWith.zoom (fails_readLine what)).bind fun _ => .modifyOut _
  have hparts : FailsWith IsWkb MultiLineStringBuilder.pushParts :=
    fails_u32.bind fun _ => (FailsWith.refuseIf ⟨_, rfl⟩).bind fun _ =>
      .forRange (fun part => (fails_readPartHeader _ _ _ part).bind fun _ => hpart _) _ _
  refine fails_u32.bind fun rawType => (FailsWith.refuseIf ⟨_, rfl⟩).bind fun _ => ?_
  exact FailsWith.bind (.ite (hpart _) (.ite hparts (.fail ⟨_, rfl⟩))) fun _ => fails_trailing _

/-- **A refusal of a builder is a WKB refusal.** -/
theorem GeometryBuilder.pushWkb_error {b : GeometryBuilder} {bytes : List UInt8} {e : EngineError}
    (h : (b.pushWkb bytes).1 = .error e) : IsWkb e := by
  cases b with
  | polygon b => exact fails_decodeAll fails_polygon h
  | multiPolygon b => exact fails_decodeAll fails_multiPolygon h
  | point b => exact fails_decodeAll fails_point h
  | lineString b =>
    have hsame : (b.pushWkb bytes).1 = (decodeAll bytes LineStringBuilder.decode b).1 := by
      unfold LineStringBuilder.pushWkb
      rcases decodeAll bytes LineStringBuilder.decode b with ⟨_ | ⟨⟩, b'⟩ <;> rfl
    exact fails_decodeAll fails_lineString (hsame.symm.trans h)
  | multiLineString b =>
    have hsame : (b.pushWkb bytes).1 = (decodeAll bytes MultiLineStringBuilder.decode b).1 := by
      unfold MultiLineStringBuilder.pushWkb
      rcases decodeAll bytes MultiLineStringBuilder.decode b with ⟨_ | ⟨⟩, b'⟩ <;> rfl
    exact fails_decodeAll fails_multiLineString (hsame.symm.trans h)

end SpatialIde.Engine.Wkb
