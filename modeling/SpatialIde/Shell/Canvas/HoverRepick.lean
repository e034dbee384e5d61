import SpatialIde.Lib.Runs
import SpatialIde.Shell.Canvas.Pick

/-! # What stands under the pointer

The canvas shows what the pointer is on.  A camera write labels a standing id, or refuses it, and starts
one timer; when the timer fires the canvas picks again at the pixel it has stored, unless a pointer came
down, a hover came in between, or the pixel no longer means what it meant.

`Inv` says what a label and the timer have to do with one another, `Told` where a standing id and the
stored pixel come from.
-/

namespace SpatialIde.Shell.Canvas.Hover

open Lib

/-! ### The readout -/

inductive HoverReadout where
  /-- `null`. -/
  | nothing
  | id (pick : PickResult)
  | belowPickResolution
  | confirming (standing : PickResult)
  | sessionEnded
  deriving DecidableEq, Repr

def HoverReadout.isPickConfirming : HoverReadout → Bool
  | .confirming _ => true
  | _ => false

/-- It names an id, bare or labelled. -/
def HoverReadout.names : HoverReadout → Bool
  | .id _ | .confirming _ => true
  | _ => false

/-- What the canvas computes with numbers: `Math.pow(2, zoom)`, a product, and
`pickResolutionExtentFor` of what is open. -/
structure Measure where
  pixelsPerWorldUnitAtZoom : F64 → F64
  times : F64 → F64 → F64
  pickResolutionExtentFor : List ResidentBatch → F64

/-- 9. -/
def SUB_PIXEL_PICK_REFUSAL_THRESHOLD_PX : F64 := ⟨0x4022000000000000⟩

def Measure.isBelowPickResolution (m : Measure) (averageFeatureExtentWorldUnits pixelsPerWorldUnit : F64) :
    Bool :=
  F64.lt (m.times averageFeatureExtentWorldUnits pixelsPerWorldUnit) SUB_PIXEL_PICK_REFUSAL_THRESHOLD_PX

/-- The readout to emit, `none` where nothing is emitted. -/
def reevaluateStandingHoverOnCameraChange (m : Measure) (standing : HoverReadout)
    (averageFeatureExtentWorldUnits pixelsPerWorldUnit : F64) : Option HoverReadout :=
  match standing with
  | .nothing => none
  | .belowPickResolution =>
    if m.isBelowPickResolution averageFeatureExtentWorldUnits pixelsPerWorldUnit then none
    else some .nothing
  | .confirming _ | .sessionEnded =>
    if m.isBelowPickResolution averageFeatureExtentWorldUnits pixelsPerWorldUnit then
      some .belowPickResolution
    else none
  | .id pick =>
    if m.isBelowPickResolution averageFeatureExtentWorldUnits pixelsPerWorldUnit then
      some .belowPickResolution
    else some (.confirming pick)

structure FramebufferIdentity where
  clientWidth : F64
  clientHeight : F64
  devicePixelRatio : F64
  deriving DecidableEq, Repr

/-- A pixel, with the framebuffer it was captured against. -/
structure HoverPointerCapture where
  x : F64
  y : F64
  basis : FramebufferIdentity
  deriving DecidableEq, Repr

def isPointerOnCanvas (capture : HoverPointerCapture) : Bool :=
  F64.le F64.zero capture.x && F64.le F64.zero capture.y

def isFramebufferIdentical (capture : HoverPointerCapture) (now : FramebufferIdentity) : Bool :=
  F64.eq capture.basis.clientWidth now.clientWidth &&
  F64.eq capture.basis.clientHeight now.clientHeight &&
  F64.eq capture.basis.devicePixelRatio now.devicePixelRatio

def shouldArmHoverRepick (readoutWasStanding zoomChanged repickOnPan : Bool) : Bool :=
  if !repickOnPan && !zoomChanged then false else readoutWasStanding

def mayRepickAtSettle (armed onCanvas framebufferIdentical : Bool) : Bool :=
  armed && onCanvas && framebufferIdentical

def clearLabelledStateWithoutRepick (standing : HoverReadout) : Option HoverReadout :=
  if standing.isPickConfirming then some .nothing else none

def readoutOf : Option PickResult → HoverReadout
  | none => .nothing
  | some pick => .id pick

def decideHoverReadoutAtSettle (armed onCanvas framebufferIdentical belowThreshold : Bool)
    (pickOutcome : Option PickResult) (standing : HoverReadout) : Option HoverReadout :=
  if !mayRepickAtSettle armed onCanvas framebufferIdentical then
    clearLabelledStateWithoutRepick standing
  else if belowThreshold then some .belowPickResolution
  else some (readoutOf pickOutcome)

inductive HoverRepickCameraChangeAction where
  | cancel
  | arm
  | schedule
  deriving DecidableEq, Repr

def hoverRepickActionForCameraChange
    (readoutWasStanding zoomChanged repickOnPan pointerButtonDown : Bool) :
    HoverRepickCameraChangeAction :=
  if pointerButtonDown then .cancel
  else if shouldArmHoverRepick readoutWasStanding zoomChanged repickOnPan then .arm
  else .schedule

def HOVER_REPICK_ON_PAN : Bool := true

/-! ### The canvas -/

/-- What the GPU answers: the place of a datum and the layer it is in. -/
structure PickingInfo where
  index : Option Int
  layer : Option String
  deriving DecidableEq, Repr

structure HoverPickCandidate where
  batch : ResidentBatch
  gpuOrdinal : Int

def batchForLayerId (batches : List ResidentBatch) (id : String) : Option ResidentBatch :=
  batches.find? fun b => layerId b = id

def candidateOf (batches : List ResidentBatch) (info : PickingInfo) : Option HoverPickCandidate := do
  let index ← info.index
  if index < 0 then none
  else
    let layer ← info.layer
    let batch ← batchForLayerId batches layer
    some ⟨batch, index⟩

def resolveCandidate (candidate : HoverPickCandidate) : Option PickResult :=
  resolvePick candidate.batch (some candidate.gpuOrdinal)

/-- A readout as it was emitted, with the extent and the zoom of that moment. -/
structure Emission where
  readout : HoverReadout
  averageFeatureExtent : F64
  currentZoom : F64

structure State where
  /-- `activeBatches()`. -/
  batches : List ResidentBatch
  averageFeatureExtent : F64
  currentZoom : F64
  lastHoverReadout : HoverReadout
  lastPointerPx : Option HoverPointerCapture
  hoverRepickArmed : Bool
  pointerButtonDown : Bool
  /-- The timer that `debounce` knows of. -/
  timer : Option Nat
  /-- The timers of the host. -/
  timeouts : List Nat
  nextTimeout : Nat
  framebuffer : Option FramebufferIdentity
  /-- The pointers that are down on the canvas. -/
  pointers : List Nat
  /-- Every emission, the last one in front. -/
  emitted : List Emission
  /-- Every pixel that a settle picked at. -/
  picked : List HoverPointerCapture

def INITIAL_ZOOM : F64 := ⟨0⟩

def State.new (framebuffer : Option FramebufferIdentity) : State :=
  ⟨[], F64.zero, INITIAL_ZOOM, .nothing, none, false, false, none, [], 0, framebuffer, [], [], []⟩

inductive Event where
  | onHover (x y : F64) (info : PickingInfo)
  | onViewStateChange (zoom : F64)
  | fitToExtent (zoom : F64)
  | pointerDown (pointer : Nat)
  /-- `pointerup` or `pointercancel`, anywhere in the window. -/
  | pointerRelease (pointer : Nat)
  /-- A timer fires, and the GPU answers so if it is asked. -/
  | settles (timeout : Nat) (info : Option PickingInfo)
  | framebuffer (framebuffer : Option FramebufferIdentity)
  | batches (batches : List ResidentBatch)
  | render
  deriving DecidableEq

def Event.isCameraWrite : Event → Bool
  | .onViewStateChange _ | .fitToExtent _ => true
  | _ => false

namespace State

def emitHoverReadout (s : State) (readout : HoverReadout) : State :=
  { s with
    lastHoverReadout := readout
    emitted := ⟨readout, s.averageFeatureExtent, s.currentZoom⟩ :: s.emitted }

def emitSome (s : State) : Option HoverReadout → State
  | none => s
  | some readout => s.emitHoverReadout readout

def clearStandingLabelledState (s : State) : State :=
  s.emitSome (clearLabelledStateWithoutRepick s.lastHoverReadout)

/-- `debounced.cancel()`. -/
def cancel (s : State) : State :=
  match s.timer with
  | none => s
  | some t => { s with timeouts := s.timeouts.erase t, timer := none }

/-- `debounced.call()`. -/
def schedule (s : State) : State :=
  { s.cancel with
    timer := some s.nextTimeout
    timeouts := s.cancel.timeouts ++ [s.nextTimeout]
    nextTimeout := s.nextTimeout + 1 }

def disarm (s : State) : State := { s with hoverRepickArmed := false }

variable (m : Measure)

def belowPickResolutionNow (s : State) : Bool :=
  m.isBelowPickResolution s.averageFeatureExtent (m.pixelsPerWorldUnitAtZoom s.currentZoom)

def render (s : State) : State :=
  { s with averageFeatureExtent := m.pickResolutionExtentFor s.batches }

def reevaluateHoverForZoom (s : State) (newZoom : F64) : State :=
  s.emitSome
    (reevaluateStandingHoverOnCameraChange m s.lastHoverReadout s.averageFeatureExtent
      (m.pixelsPerWorldUnitAtZoom newZoom))

def scheduleHoverRepick (s : State) (zoomChanged readoutWasStanding : Bool) : State :=
  match hoverRepickActionForCameraChange readoutWasStanding zoomChanged HOVER_REPICK_ON_PAN
      s.pointerButtonDown with
  | .cancel => s.disarm.cancel.clearStandingLabelledState
  | .arm => { s with hoverRepickArmed := true }.schedule
  | .schedule => s.schedule

/-- What every camera write does, in its order. -/
def writeCamera (s : State) (zoom : F64) : State :=
  ({ s with currentZoom := zoom }.reevaluateHoverForZoom m zoom).scheduleHoverRepick
    (!F64.eq zoom s.currentZoom) (s.lastHoverReadout != HoverReadout.nothing)

def captureHoverPointer (s : State) (x y : F64) : State :=
  { s with lastPointerPx := s.framebuffer.map fun basis => ⟨x, y, basis⟩ }

def onHover (s : State) (x y : F64) (info : PickingInfo) : State :=
  let s' := (s.captureHoverPointer x y).disarm.cancel
  match candidateOf s'.batches info with
  | none => s'.emitHoverReadout .nothing
  | some candidate =>
    if s'.belowPickResolutionNow m then s'.emitHoverReadout .belowPickResolution
    else s'.emitHoverReadout (readoutOf (resolveCandidate candidate))

/-- What the timer runs. -/
def settle (s : State) (info : Option PickingInfo) : State :=
  match s.lastPointerPx with
  | none => s.disarm.clearStandingLabelledState
  | some capture =>
    let onCanvas := isPointerOnCanvas capture
    let framebufferIdentical := (s.framebuffer.map (isFramebufferIdentical capture)).getD false
    if !mayRepickAtSettle s.hoverRepickArmed onCanvas framebufferIdentical then
      s.disarm.clearStandingLabelledState
    else
      let candidate := info.bind (candidateOf s.batches)
      let belowThreshold := s.belowPickResolutionNow m
      let pickOutcome := if belowThreshold then none else candidate.bind resolveCandidate
      { s.disarm with picked := capture :: s.picked }.emitSome
        (decideHoverReadoutAtSettle s.hoverRepickArmed onCanvas framebufferIdentical belowThreshold
          pickOutcome s.lastHoverReadout)

def pointerDown (s : State) (pointer : Nat) : State :=
  { s with pointers := pointer :: s.pointers, pointerButtonDown := true }.disarm.cancel.clearStandingLabelledState

def pointerRelease (s : State) (pointer : Nat) : State :=
  { s with
    pointers := s.pointers.filter (· ≠ pointer)
    pointerButtonDown := false
    lastPointerPx := none }

def step (s : State) : Event → Option State
  | .onHover x y info => some (s.onHover m x y info)
  | .onViewStateChange zoom => some (s.writeCamera m zoom)
  | .fitToExtent zoom => some ((s.writeCamera m zoom).render m)
  | .pointerDown pointer => some (s.pointerDown pointer)
  | .pointerRelease pointer => some (s.pointerRelease pointer)
  | .settles timeout info =>
    if timeout ∈ s.timeouts then
      some ({ s with timeouts := s.timeouts.erase timeout, timer := none }.settle m info)
    else none
  | .framebuffer framebuffer => some { s with framebuffer := framebuffer }
  | .batches batches => some { s with batches := batches }
  | .render => some (s.render m)

end State

/-! ### The timer -/

section

variable {s : State}

/-- A debounce knows the one timer that the host holds. -/
def Debounced (s : State) : Prop := s.timeouts = s.timer.toList

theorem State.cancel_eq (h : Debounced s) : s.cancel = { s with timeouts := [], timer := none } := by
  rw [Debounced] at h
  rw [State.cancel]
  cases htimer : s.timer with
  | none =>
    rw [htimer] at h
    change s = { s with timeouts := [], timer := none }
    rw [← htimer]
    exact congrArg (fun ts => { s with timeouts := ts }) h
  | some t =>
    rw [htimer] at h
    change { s with timeouts := s.timeouts.erase t, timer := none } = _
    rw [h]
    exact congrArg (fun ts => { s with timeouts := ts, timer := none }) (List.erase_cons_head t [])

theorem State.schedule_eq (h : Debounced s) :
    s.schedule = { s with
      timer := some s.nextTimeout
      timeouts := [s.nextTimeout]
      nextTimeout := s.nextTimeout + 1 } := by
  rw [State.schedule, State.cancel_eq h]
  rfl

end

/-! ### Labels and emissions -/

section

variable {m : Measure} {s : State}

/-- The debounce is in order, and no id was emitted below the threshold. -/
structure Base (m : Measure) (s : State) : Prop where
  timers : Debounced s
  honest : ∀ e ∈ s.emitted, e.readout.names = true →
    m.isBelowPickResolution e.averageFeatureExtent (m.pixelsPerWorldUnitAtZoom e.currentZoom) = false

/-- A label stands while a settle is pending, and while the canvas knows of no button. -/
structure Inv (m : Measure) (s : State) : Prop extends Base m s where
  labelled : s.lastHoverReadout.isPickConfirming = true → s.timer ≠ none ∧ s.pointerButtonDown = false

theorem Base.emit (h : Base m s) {readout : HoverReadout}
    (hnames : readout.names = true → s.belowPickResolutionNow m = false) :
    Base m (s.emitHoverReadout readout) := by
  refine ⟨h.timers, fun e he hid => ?_⟩
  rcases List.mem_cons.1 he with rfl | he
  · exact hnames hid
  · exact h.honest e he hid

theorem Base.plain (h : Base m s) (hplain : s.lastHoverReadout.isPickConfirming = false) : Inv m s :=
  ⟨h, fun hlabel => absurd (hplain.symm.trans hlabel) Bool.false_ne_true⟩

theorem Base.emit_plain (h : Base m s) {readout : HoverReadout} (hplain : readout.isPickConfirming = false)
    (hnames : readout.names = true → s.belowPickResolutionNow m = false) :
    Inv m (s.emitHoverReadout readout) := (h.emit hnames).plain hplain

/-- Where a label is cleared nothing needs a timer. -/
theorem Base.clear (h : Base m s) : Inv m s.clearStandingLabelledState := by
  rw [State.clearStandingLabelledState, clearLabelledStateWithoutRepick]
  cases hlabel : s.lastHoverReadout.isPickConfirming with
  | true => exact h.emit_plain rfl nofun
  | false => exact h.plain hlabel

theorem Base.cancel (h : Base m s) : Base m s.cancel := by
  rw [State.cancel_eq h.timers]
  exact ⟨rfl, h.honest⟩

theorem Base.disarm (h : Base m s) : Base m s.disarm := ⟨h.timers, h.honest⟩

/-- A camera change names an id above the threshold only. -/
theorem above_of_names {standing next : HoverReadout} {extent pixels : F64}
    (hnext : reevaluateStandingHoverOnCameraChange m standing extent pixels = some next)
    (hid : next.names = true) : m.isBelowPickResolution extent pixels = false := by
  refine eq_false_of_ne_true fun hbelow => ?_
  cases standing with
  | nothing => cases hnext
  | belowPickResolution =>
    have hnone := (if_pos hbelow).symm.trans hnext
    cases hnone
  | confirming pick | sessionEnded | id pick =>
    have hrefused := (if_pos hbelow).symm.trans hnext
    obtain rfl := Option.some.inj hrefused
    cases hid

theorem Base.reevaluate (h : Base m s) {zoom : F64} (hzoom : s.currentZoom = zoom) :
    Base m (s.reevaluateHoverForZoom m zoom) := by
  subst hzoom
  rw [State.reevaluateHoverForZoom]
  cases hnext : reevaluateStandingHoverOnCameraChange m s.lastHoverReadout s.averageFeatureExtent
      (m.pixelsPerWorldUnitAtZoom s.currentZoom) with
  | none => exact h
  | some next => exact h.emit (above_of_names hnext)

theorem Base.schedule (h : Base m s) (hbutton : s.pointerButtonDown = false) : Inv m s.schedule := by
  rw [State.schedule_eq h.timers]
  exact ⟨⟨rfl, h.honest⟩, fun _ => ⟨Option.some_ne_none _, hbutton⟩⟩

theorem button_of_action {readoutWasStanding zoomChanged repickOnPan pointerButtonDown : Bool}
    (h : hoverRepickActionForCameraChange readoutWasStanding zoomChanged repickOnPan pointerButtonDown ≠
      .cancel) : pointerButtonDown = false := by
  refine eq_false_of_ne_true fun hdown => h ?_
  rw [hoverRepickActionForCameraChange, if_pos hdown]

/-- A burst is dropped under a button, and a label with it; otherwise the timer starts. -/
theorem Base.scheduleHoverRepick (h : Base m s) (zoomChanged readoutWasStanding : Bool) :
    Inv m (s.scheduleHoverRepick zoomChanged readoutWasStanding) := by
  rw [State.scheduleHoverRepick]
  split
  · exact h.disarm.cancel.clear
  next haction =>
    have harmed : Base m { s with hoverRepickArmed := true } := ⟨h.timers, h.honest⟩
    exact harmed.schedule (button_of_action (by rw [haction]; decide))
  next haction => exact h.schedule (button_of_action (by rw [haction]; decide))

theorem Base.writeCamera (h : Base m s) (zoom : F64) : Inv m (s.writeCamera m zoom) := by
  have hwritten : Base m { s with currentZoom := zoom } := ⟨h.timers, h.honest⟩
  exact (hwritten.reevaluate rfl).scheduleHoverRepick _ _

theorem isPickConfirming_readoutOf (pick : Option PickResult) :
    (readoutOf pick).isPickConfirming = false := by
  cases pick <;> rfl

theorem Base.onHover (h : Base m s) (x y : F64) (info : PickingInfo) : Inv m (s.onHover m x y info) := by
  have hcaptured : Base m (s.captureHoverPointer x y) := ⟨h.timers, h.honest⟩
  have hready := hcaptured.disarm.cancel
  rw [State.onHover]
  generalize (s.captureHoverPointer x y).disarm.cancel = t at hready ⊢
  split
  · exact hready.emit_plain rfl nofun
  · split_ifs with hbelow
    · exact hready.emit_plain rfl nofun
    · exact hready.emit_plain (isPickConfirming_readoutOf _) fun _ => eq_false_of_ne_true hbelow

/-- What the settle finds at its pixel. -/
def outcomeAt (s : State) (info : Option PickingInfo) : Option PickResult :=
  (info.bind (candidateOf s.batches)).bind resolveCandidate

/-- A settle clears a label, or it is armed, has a pixel of this framebuffer and picks there. -/
theorem settle_cases (m : Measure) (s : State) (info : Option PickingInfo) :
    s.settle m info = s.disarm.clearStandingLabelledState ∨
    ∃ capture now, s.hoverRepickArmed = true ∧ s.lastPointerPx = some capture ∧
      isPointerOnCanvas capture = true ∧ s.framebuffer = some now ∧
      isFramebufferIdentical capture now = true ∧
      s.settle m info = { s.disarm with picked := capture :: s.picked }.emitHoverReadout
        (if s.belowPickResolutionNow m then .belowPickResolution else readoutOf (outcomeAt s info)) := by
  cases hcapture : s.lastPointerPx with
  | none =>
    refine .inl ?_
    rw [State.settle, hcapture]
  | some capture =>
    cases hmay : mayRepickAtSettle s.hoverRepickArmed (isPointerOnCanvas capture)
        ((s.framebuffer.map (isFramebufferIdentical capture)).getD false) with
    | false =>
      refine .inl ?_
      simp only [State.settle, hcapture, hmay, Bool.not_false, if_true]
    | true =>
      have hall := hmay
      rw [mayRepickAtSettle, Bool.and_eq_true_iff, Bool.and_eq_true_iff] at hall
      obtain ⟨⟨harmed, hon⟩, hsame⟩ := hall
      cases hnow : s.framebuffer with
      | none =>
        rw [hnow] at hsame
        cases hsame
      | some now =>
        rw [hnow] at hsame
        refine .inr ⟨capture, now, harmed, rfl, hon, rfl, hsame, ?_⟩
        simp only [State.settle, hcapture, hmay, Bool.not_true, Bool.false_eq_true, if_false,
          decideHoverReadoutAtSettle]
        cases s.belowPickResolutionNow m <;> rfl

/-- A settle emits no label, and clears one that stands. -/
theorem Base.settle (h : Base m s) (info : Option PickingInfo) : Inv m (s.settle m info) := by
  rcases settle_cases m s info with heq | ⟨capture, now, -, -, -, -, -, heq⟩
  · rw [heq]
    exact h.disarm.clear
  · rw [heq]
    have hpicked : Base m { s.disarm with picked := capture :: s.picked } := ⟨h.timers, h.honest⟩
    split_ifs with hbelow
    · exact hpicked.emit_plain rfl nofun
    · exact hpicked.emit_plain (isPickConfirming_readoutOf _) fun _ => eq_false_of_ne_true hbelow

theorem Base.fired (h : Base m s) {timeout : Nat} (ht : timeout ∈ s.timeouts) :
    Base m { s with timeouts := s.timeouts.erase timeout, timer := none } := by
  refine ⟨?_, h.honest⟩
  have hall := h.timers
  rw [Debounced] at hall
  cases htimer : s.timer with
  | none =>
    rw [hall, htimer] at ht
    cases ht
  | some t =>
    rw [hall, htimer] at ht
    obtain rfl := List.mem_singleton.1 ht
    change s.timeouts.erase timeout = []
    rw [hall, htimer]
    exact List.erase_cons_head timeout []

theorem Inv.step {e : Event} {s' : State} (h : Inv m s) (hs : s.step m e = some s') : Inv m s' := by
  cases e with
  | onHover x y info =>
    obtain rfl := Option.some.inj hs
    exact h.toBase.onHover x y info
  | onViewStateChange zoom =>
    obtain rfl := Option.some.inj hs
    exact h.toBase.writeCamera zoom
  | fitToExtent zoom =>
    obtain rfl := Option.some.inj hs
    have hwritten := h.toBase.writeCamera zoom
    exact ⟨⟨hwritten.timers, hwritten.honest⟩, hwritten.labelled⟩
  | pointerDown pointer =>
    obtain rfl := Option.some.inj hs
    have hpressed : Base m { s with pointers := pointer :: s.pointers, pointerButtonDown := true } :=
      ⟨h.timers, h.honest⟩
    exact hpressed.disarm.cancel.clear
  | pointerRelease pointer =>
    obtain rfl := Option.some.inj hs
    exact ⟨⟨h.timers, h.honest⟩, fun hlabel => ⟨(h.labelled hlabel).1, rfl⟩⟩
  | settles timeout info =>
    rw [State.step] at hs
    split_ifs at hs with ht
    obtain rfl := Option.some.inj hs
    exact (h.toBase.fired ht).settle info
  | framebuffer f | batches bs | render =>
    obtain rfl := Option.some.inj hs
    exact ⟨⟨h.timers, h.honest⟩, h.labelled⟩

theorem inv_new (framebuffer : Option FramebufferIdentity) : Inv m (State.new framebuffer) :=
  ⟨⟨rfl, nofun⟩, nofun⟩

/-! ### What a step changes -/

/-- The pointers, the pixel that is stored and the pixels picked at. -/
def hand (s : State) : List Nat × Bool × Option HoverPointerCapture × List HoverPointerCapture :=
  (s.pointers, s.pointerButtonDown, s.lastPointerPx, s.picked)

@[simp] theorem hand_emitSome (s : State) (readout : Option HoverReadout) :
    hand (s.emitSome readout) = hand s := by
  cases readout <;> rfl

@[simp] theorem hand_clear (s : State) : hand s.clearStandingLabelledState = hand s :=
  hand_emitSome s _

@[simp] theorem hand_cancel (s : State) : hand s.cancel = hand s := by
  rw [State.cancel]
  split <;> rfl

@[simp] theorem hand_schedule (s : State) : hand s.schedule = hand s := hand_cancel s

@[simp] theorem hand_disarm (s : State) : hand s.disarm = hand s := rfl

theorem hand_writeCamera (m : Measure) (s : State) (zoom : F64) : hand (s.writeCamera m zoom) = hand s := by
  have hread : hand ({ s with currentZoom := zoom }.reevaluateHoverForZoom m zoom) = hand s :=
    hand_emitSome _ _
  rw [← hread, State.writeCamera, State.scheduleHoverRepick]
  split
  · rw [hand_clear, hand_cancel, hand_disarm]
  · exact hand_schedule _
  · exact hand_schedule _

theorem hand_onHover (m : Measure) (s : State) (x y : F64) (info : PickingInfo) :
    hand (s.onHover m x y info) = hand (s.captureHoverPointer x y) := by
  have hready : hand (s.captureHoverPointer x y).disarm.cancel = hand (s.captureHoverPointer x y) := by
    rw [hand_cancel, hand_disarm]
  rw [← hready, State.onHover]
  split
  · rfl
  · split_ifs <;> rfl

@[simp] theorem lastHoverReadout_cancel (s : State) : s.cancel.lastHoverReadout = s.lastHoverReadout := by
  rw [State.cancel]
  split <;> rfl

@[simp] theorem batches_cancel (s : State) : s.cancel.batches = s.batches := by
  rw [State.cancel]
  split <;> rfl

theorem id_of_clear {pick : PickResult} (h : s.clearStandingLabelledState.lastHoverReadout = .id pick) :
    s.lastHoverReadout = .id pick := by
  rw [State.clearStandingLabelledState, clearLabelledStateWithoutRepick] at h
  split_ifs at h
  · cases h
  · exact h

/-- No id is left bare by a camera write. -/
theorem not_id_reevaluate (s : State) (zoom : F64) (pick : PickResult) :
    (s.reevaluateHoverForZoom m zoom).lastHoverReadout ≠ .id pick := by
  rw [State.reevaluateHoverForZoom]
  cases hlast : s.lastHoverReadout with
  | nothing =>
    change s.lastHoverReadout ≠ .id pick
    rw [hlast]
    exact nofun
  | belowPickResolution | confirming r | sessionEnded | id r =>
    rw [reevaluateStandingHoverOnCameraChange.eq_def]
    dsimp only
    intro hid
    split_ifs at hid
    all_goals
      first
      | cases hid
      | change s.lastHoverReadout = .id pick at hid
        rw [hlast] at hid
        cases hid

theorem not_id_writeCamera (s : State) (zoom : F64) (pick : PickResult) :
    (s.writeCamera m zoom).lastHoverReadout ≠ .id pick := by
  have hread := not_id_reevaluate (m := m) { s with currentZoom := zoom } zoom pick
  rw [State.writeCamera, State.scheduleHoverRepick]
  generalize { s with currentZoom := zoom }.reevaluateHoverForZoom m zoom = t at hread ⊢
  split
  · intro hid
    have hstood := id_of_clear hid
    rw [lastHoverReadout_cancel] at hstood
    exact hread hstood
  · rw [State.schedule]
    change (State.cancel _).lastHoverReadout ≠ _
    rw [lastHoverReadout_cancel]
    exact hread
  · rw [State.schedule]
    change t.cancel.lastHoverReadout ≠ _
    rw [lastHoverReadout_cancel]
    exact hread

/-- The id that an event picks in a state. -/
def Event.picks (s : State) : Event → Option PickResult
  | .onHover _ _ info => (candidateOf s.batches info).bind resolveCandidate
  | .settles _ info => outcomeAt s info
  | _ => none

theorem readoutOf_eq_id {outcome : Option PickResult} {pick : PickResult} :
    readoutOf outcome = .id pick ↔ outcome = some pick := by
  cases outcome with
  | none => exact ⟨nofun, nofun⟩
  | some r => exact ⟨fun h => by cases h; rfl, fun h => by cases h; rfl⟩

/-- A bare id was there and the camera stayed, or it was picked. -/
theorem id_of_step {e : Event} {s' : State} (hs : s.step m e = some s') {pick : PickResult}
    (hid : s'.lastHoverReadout = .id pick) :
    s.lastHoverReadout = .id pick ∧ e.isCameraWrite = false ∨ e.picks s = some pick := by
  cases e with
  | onHover x y info =>
    obtain rfl := Option.some.inj hs
    refine .inr ?_
    have hbatches : (s.captureHoverPointer x y).disarm.cancel.batches = s.batches := by
      rw [batches_cancel]
      rfl
    rw [Event.picks, ← hbatches]
    rw [State.onHover] at hid
    split at hid
    · cases hid
    next candidate hcandidate =>
      split_ifs at hid
      · cases hid
      · rw [hcandidate]
        exact readoutOf_eq_id.1 hid
  | onViewStateChange zoom | fitToExtent zoom =>
    obtain rfl := Option.some.inj hs
    exact absurd hid (not_id_writeCamera s zoom pick)
  | pointerDown pointer =>
    obtain rfl := Option.some.inj hs
    have hstood := id_of_clear hid
    rw [lastHoverReadout_cancel] at hstood
    exact .inl ⟨hstood, rfl⟩
  | settles timeout info =>
    rw [State.step] at hs
    split_ifs at hs
    obtain rfl := Option.some.inj hs
    rcases settle_cases m { s with timeouts := s.timeouts.erase timeout, timer := none } info with
      heq | ⟨capture, now, -, -, -, -, -, heq⟩
    · rw [heq] at hid
      have hstood := id_of_clear hid
      exact .inl ⟨hstood, rfl⟩
    · rw [heq] at hid
      split_ifs at hid
      · cases hid
      · exact .inr (readoutOf_eq_id.1 hid)
  | pointerRelease pointer | framebuffer f | batches bs | render =>
    obtain rfl := Option.some.inj hs
    exact .inl ⟨hid, rfl⟩

/-- A pointer comes down or up, a pixel is stored, a settle picks at the stored pixel, or nothing of
that happens. -/
theorem hand_of_step {e : Event} {s' : State} (hs : s.step m e = some s') :
    (hand s' = hand s ∧ ∀ p, e ≠ .pointerRelease p) ∨
    (∃ p, e = .pointerDown p ∧ hand s' = (p :: s.pointers, true, s.lastPointerPx, s.picked)) ∨
    (∃ p, e = .pointerRelease p ∧
      hand s' = (s.pointers.filter (· ≠ p), false, none, s.picked)) ∨
    (∃ x y info, e = .onHover x y info ∧
      hand s' = (s.pointers, s.pointerButtonDown, s.framebuffer.map fun basis => ⟨x, y, basis⟩,
        s.picked)) ∨
    ∃ timeout info capture now, e = .settles timeout info ∧ s.hoverRepickArmed = true ∧
      s.lastPointerPx = some capture ∧ s.framebuffer = some now ∧
      isFramebufferIdentical capture now = true ∧
      hand s' = (s.pointers, s.pointerButtonDown, s.lastPointerPx, capture :: s.picked) := by
  cases e with
  | onHover x y info =>
    obtain rfl := Option.some.inj hs
    exact .inr (.inr (.inr (.inl ⟨x, y, info, rfl, hand_onHover m s x y info⟩)))
  | onViewStateChange zoom | fitToExtent zoom =>
    obtain rfl := Option.some.inj hs
    exact .inl ⟨hand_writeCamera m s zoom, nofun⟩
  | pointerDown pointer =>
    obtain rfl := Option.some.inj hs
    refine .inr (.inl ⟨pointer, rfl, ?_⟩)
    rw [State.pointerDown, hand_clear, hand_cancel, hand_disarm]
    rfl
  | pointerRelease pointer =>
    obtain rfl := Option.some.inj hs
    exact .inr (.inr (.inl ⟨pointer, rfl, rfl⟩))
  | settles timeout info =>
    rw [State.step] at hs
    split_ifs at hs
    obtain rfl := Option.some.inj hs
    rcases settle_cases m { s with timeouts := s.timeouts.erase timeout, timer := none } info with
      heq | ⟨capture, now, harmed, hcapture, -, hnow, hsame, heq⟩
    · rw [heq, hand_clear, hand_disarm]
      exact .inl ⟨rfl, nofun⟩
    · rw [heq]
      exact .inr (.inr (.inr (.inr ⟨timeout, info, capture, now, rfl, harmed, hcapture, hnow, hsame, rfl⟩)))
  | framebuffer f | batches bs | render =>
    obtain rfl := Option.some.inj hs
    exact .inl ⟨rfl, nofun⟩

/-! ### Where an id and a pixel come from -/

/-- A bare id was picked behind the last camera write, and the stored pixel was captured behind the last
release, against the framebuffer of that moment. -/
structure Told (m : Measure) (start : State) (events : List Event) (s : State) : Prop where
  bare : ∀ pick, s.lastHoverReadout = .id pick → ∃ pre e post t, events = pre ++ e :: post ∧
    runFrom (State.step m) start pre = some t ∧ e.picks t = some pick ∧
    ∀ c ∈ post, c.isCameraWrite = false
  captured : ∀ capture, s.lastPointerPx = some capture → ∃ pre x y info post t,
    events = pre ++ .onHover x y info :: post ∧ runFrom (State.step m) start pre = some t ∧
    t.framebuffer = some capture.basis ∧ capture.x = x ∧ capture.y = y ∧
    ∀ p, .pointerRelease p ∉ post

theorem told_new (framebuffer : Option FramebufferIdentity) :
    Told m (State.new framebuffer) [] (State.new framebuffer) := ⟨nofun, nofun⟩

theorem lastPointerPx_of_hand {s' : State} {ps : List Nat} {down : Bool}
    {capture : Option HoverPointerCapture} {picked : List HoverPointerCapture}
    (h : hand s' = (ps, down, capture, picked)) : s'.lastPointerPx = capture :=
  congrArg (fun v => v.2.2.1) h

theorem Told.step {start : State} {events : List Event} {s' : State} {e : Event}
    (h : Told m start events s) (hrun : runFrom (State.step m) start events = some s)
    (hs : s.step m e = some s') : Told m start (events ++ [e]) s' := by
  refine ⟨fun pick hid => ?_, fun capture hcapture => ?_⟩
  · rcases id_of_step hs hid with ⟨hstood, hcamera⟩ | hpick
    · obtain ⟨pre, a, post, t, rfl, ht, hpicks, hpost⟩ := h.bare pick hstood
      refine ⟨pre, a, post ++ [e], t, ?_, ht, hpicks, forall_snoc hpost hcamera⟩
      rw [List.append_assoc, List.cons_append]
    · exact ⟨events, e, [], s, rfl, hrun, hpick, nofun⟩
  · have hkept : s.lastPointerPx = some capture → (∀ p, e ≠ .pointerRelease p) →
        ∃ pre x y info post t, events ++ [e] = pre ++ .onHover x y info :: post ∧
          runFrom (State.step m) start pre = some t ∧ t.framebuffer = some capture.basis ∧
          capture.x = x ∧ capture.y = y ∧ ∀ p, .pointerRelease p ∉ post := by
      intro hstored hrelease
      obtain ⟨pre, x, y, info, post, t, rfl, ht, hbasis, hx, hy, hpost⟩ := h.captured capture hstored
      refine ⟨pre, x, y, info, post ++ [e], t, ?_, ht, hbasis, hx, hy, fun p hp => ?_⟩
      · rw [List.append_assoc, List.cons_append]
      · rcases List.mem_append.1 hp with hp | hp
        · exact hpost p hp
        · exact hrelease p (List.mem_singleton.1 hp).symm
    rcases hand_of_step hs with ⟨heq, hrelease⟩ | ⟨p, rfl, heq⟩ | ⟨p, rfl, heq⟩ |
      ⟨x, y, info, rfl, heq⟩ | ⟨timeout, info, c, now, rfl, -, -, -, -, heq⟩
    · exact hkept ((lastPointerPx_of_hand heq).symm.trans hcapture) hrelease
    · exact hkept ((lastPointerPx_of_hand heq).symm.trans hcapture) nofun
    · cases (lastPointerPx_of_hand heq).symm.trans hcapture
    · have hnew := (lastPointerPx_of_hand heq).symm.trans hcapture
      obtain ⟨basis, hbasis, rfl⟩ := Option.map_eq_some_iff.1 hnew
      exact ⟨events, x, y, info, [], s, rfl, hrun, hbasis, rfl, rfl, nofun⟩
    · exact hkept ((lastPointerPx_of_hand heq).symm.trans hcapture) nofun

theorem told_of_run {framebuffer : Option FramebufferIdentity} {events : List Event}
    (hs : runFrom (State.step m) (State.new framebuffer) events = some s) :
    Inv m s ∧ Told m (State.new framebuffer) events s := by
  have hall := runFrom_keeps_history
    (I := fun es s => runFrom (State.step m) (State.new framebuffer) es = some s ∧ Inv m s ∧
      Told m (State.new framebuffer) es s) ⟨rfl, inv_new framebuffer, told_new framebuffer⟩ ?_ hs
  · exact hall.2
  · intro es t e t' ⟨hrun, hinv, htold⟩ hstep
    refine ⟨?_, hinv.step hstep, htold.step hrun hstep⟩
    rw [runFrom_snoc, hrun]
    exact hstep

/-! ### The readout -/

/-- In a state: a bare id was picked behind the last camera write, a label stands while a settle is
pending, one settle at most is pending, and no id was emitted below the threshold. -/
structure Shown (m : Measure) (start : State) (events : List Event) (s : State) : Prop where
  bare : ∀ pick, s.lastHoverReadout = .id pick → ∃ pre e post t, events = pre ++ e :: post ∧
    runFrom (State.step m) start pre = some t ∧ e.picks t = some pick ∧
    ∀ c ∈ post, c.isCameraWrite = false
  labelled : s.lastHoverReadout.isPickConfirming = true → s.timeouts ≠ []
  one : s.timeouts.length ≤ 1
  honest : ∀ e ∈ s.emitted, e.readout.names = true →
    m.isBelowPickResolution e.averageFeatureExtent (m.pixelsPerWorldUnitAtZoom e.currentZoom) = false

/-- In a step: a settle removes a label, as does whatever leaves none pending, and it picks where it was
armed, at a pixel captured behind the last release against the framebuffer that is there now. -/
structure ShownBy (m : Measure) (start : State) (before : List Event) (s : State) (e : Event)
    (s' : State) : Prop where
  removed : (∃ timeout info, e = .settles timeout info) ∨ s'.timeouts = [] →
    s'.lastHoverReadout.isPickConfirming = false
  picks : s'.picked ≠ s.picked → ∃ timeout info capture now, e = .settles timeout info ∧
    s'.picked = capture :: s.picked ∧ s.hoverRepickArmed = true ∧ s.framebuffer = some now ∧
    isFramebufferIdentical capture now = true ∧
    ∃ pre x y info post t, before = pre ++ .onHover x y info :: post ∧
      runFrom (State.step m) start pre = some t ∧ t.framebuffer = some capture.basis ∧
      capture.x = x ∧ capture.y = y ∧ ∀ p, .pointerRelease p ∉ post

/-- A release leaves no pointer on the canvas. -/
def LeavesNone (s : State) (e : Event) : Prop :=
  ∀ p, e = .pointerRelease p → s.pointers.filter (· ≠ p) = []

theorem Inv.pending (h : Inv m s) (hlabel : s.lastHoverReadout.isPickConfirming = true) :
    s.timeouts ≠ [] := by
  obtain ⟨t, ht⟩ := Option.ne_none_iff_exists'.1 (h.labelled hlabel).1
  rw [h.timers, ht]
  exact List.cons_ne_nil t []

theorem Inv.one_timeout (h : Inv m s) : s.timeouts.length ≤ 1 := by
  rw [h.timers]
  cases s.timer with
  | none => exact Nat.zero_le 1
  | some t => exact Nat.le_refl 1

theorem isPickConfirming_settle (info : Option PickingInfo) :
    (s.settle m info).lastHoverReadout.isPickConfirming = false := by
  rcases settle_cases m s info with heq | ⟨capture, now, -, -, -, -, -, heq⟩
  · rw [heq, State.clearStandingLabelledState, clearLabelledStateWithoutRepick]
    split_ifs with hlabel
    · rfl
    · exact eq_false_of_ne_true hlabel
  · rw [heq]
    split_ifs
    · rfl
    · exact isPickConfirming_readoutOf _

theorem shownBy_of_step {start : State} {before : List Event} {s' : State} {e : Event}
    (hinv : Inv m s) (htold : Told m start before s) (hs : s.step m e = some s') :
    ShownBy m start before s e s' := by
  refine ⟨fun hcase => ?_, fun hne => ?_⟩
  · rcases hcase with ⟨timeout, info, rfl⟩ | hnone
    · rw [State.step] at hs
      split_ifs at hs
      obtain rfl := Option.some.inj hs
      exact isPickConfirming_settle info
    · exact eq_false_of_ne_true fun hlabel => (hinv.step hs).pending hlabel hnone
  · have hpicked : ∀ {ps down capture}, hand s' = (ps, down, capture, s.picked) → False :=
      fun heq => hne (congrArg (fun v => v.2.2.2) heq)
    rcases hand_of_step hs with ⟨heq, -⟩ | ⟨p, rfl, heq⟩ | ⟨p, rfl, heq⟩ | ⟨x, y, info, rfl, heq⟩ |
      ⟨timeout, info, capture, now, rfl, harmed, hcapture, hnow, hsame, heq⟩
    · exact (hpicked heq).elim
    · exact (hpicked heq).elim
    · exact (hpicked heq).elim
    · exact (hpicked heq).elim
    · refine ⟨timeout, info, capture, now, rfl, congrArg (fun v => v.2.2.2) heq, harmed, hnow, hsame, ?_⟩
      exact htold.captured capture hcapture

/-- Where every release leaves no pointer down, the canvas knows of a button while one is down. -/
theorem pointers_of_step {e : Event} {s' : State} (h : s.pointerButtonDown = false → s.pointers = [])
    (he : LeavesNone s e) (hs : s.step m e = some s') :
    s'.pointerButtonDown = false → s'.pointers = [] := by
  have hpair : ∀ {ps down capture picked}, hand s' = (ps, down, capture, picked) →
      s'.pointers = ps ∧ s'.pointerButtonDown = down :=
    fun heq => ⟨congrArg (fun v => v.1) heq, congrArg (fun v => v.2.1) heq⟩
  intro hup
  rcases hand_of_step hs with ⟨heq, -⟩ | ⟨p, rfl, heq⟩ | ⟨p, rfl, heq⟩ | ⟨x, y, info, rfl, heq⟩ |
    ⟨timeout, info, capture, now, rfl, -, -, -, -, heq⟩
  · exact (hpair heq).1.trans (h ((hpair heq).2.symm.trans hup))
  · cases (hpair heq).2.symm.trans hup
  · exact (hpair heq).1.trans (he p rfl)
  · exact (hpair heq).1.trans (h ((hpair heq).2.symm.trans hup))
  · exact (hpair heq).1.trans (h ((hpair heq).2.symm.trans hup))

/-- **The hover readout never asserts an unconfirmed id**, in every run; and no label stands under a
pointer that is down in every run whose releases leave none. -/
theorem hoverReadout_confirmed (m : Measure) (framebuffer : Option FramebufferIdentity)
    (events : List Event) (s : State)
    (hs : runFrom (State.step m) (State.new framebuffer) events = some s) :
    Shown m (State.new framebuffer) events s ∧
    (∀ e s', s.step m e = some s' → ShownBy m (State.new framebuffer) events s e s') ∧
    (Meets (State.step m) LeavesNone (State.new framebuffer) events →
      s.lastHoverReadout.isPickConfirming = true → s.pointers = []) := by
  obtain ⟨hinv, htold⟩ := told_of_run hs
  refine ⟨⟨htold.bare, hinv.pending, hinv.one_timeout, hinv.honest⟩,
    fun e s' hstep => shownBy_of_step hinv htold hstep, fun hmeets hlabel => ?_⟩
  have hheld : s.pointerButtonDown = false → s.pointers = [] := by
    refine runFrom_keeps (I := fun s => s.pointerButtonDown = false → s.pointers = []) (fun _ => rfl) ?_
      hmeets hs
    intro t e t' ht he hstep
    exact pointers_of_step ht he hstep
  exact hheld (hinv.labelled hlabel).2

end

/-! ### Two fingers -/

def onePoint : ResidentBatch where
  streamHandle := "s"
  batchSeq := 0
  ids := [7]
  parts := [[[[(F64.zero, F64.zero)]]]]
  partToRow := [0]
  partCount := 1
  totalVertices := 1
  attributes := .unprojected
  filter := none

/-- One point has nothing to be confused with: its extent is infinite at every zoom. -/
def unconfused : Measure where
  pixelsPerWorldUnitAtZoom := fun zoom =>
    if zoom = INITIAL_ZOOM then ⟨0x3FF0000000000000⟩ else ⟨0x4000000000000000⟩
  times := fun extent _ => extent
  pickResolutionExtentFor := fun _ => F64.posInf

def screen : FramebufferIdentity := ⟨⟨0x4089000000000000⟩, ⟨0x4082C00000000000⟩, ⟨0x3FF0000000000000⟩⟩

/-- The pointer is on the point, pointers come and go, and the wheel turns. -/
def hoverThenWheel (presses : List Event) : List Event :=
  [.batches [onePoint], .render,
    .onHover ⟨0x4024000000000000⟩ ⟨0x4024000000000000⟩ ⟨some 0, some "s:0"⟩] ++ presses ++
  [.onViewStateChange ⟨0x3FF0000000000000⟩]

theorem hoverReadout_confirmed_wheel :
    ∃ s, runFrom (State.step unconfused) (State.new (some screen))
        (hoverThenWheel [.pointerDown 1, .pointerRelease 1]) = some s ∧
      s.lastHoverReadout.isPickConfirming = true ∧ s.pointers = [] := by
  obtain ⟨s, hs⟩ : ∃ s, runFrom (State.step unconfused) (State.new (some screen))
      (hoverThenWheel [.pointerDown 1, .pointerRelease 1]) = some s := ⟨_, rfl⟩
  have hmeets : Meets (State.step unconfused) LeavesNone (State.new (some screen))
      (hoverThenWheel [.pointerDown 1, .pointerRelease 1]) := by
    refine .cons nofun rfl (.cons nofun rfl (.cons nofun rfl (.cons nofun rfl (.cons ?_ rfl ?_))))
    · intro p hp
      cases hp
      rfl
    · exact .cons nofun rfl meets_nil
  have hlabel : s.lastHoverReadout.isPickConfirming = true := by
    cases hs
    rfl
  exact ⟨s, hs, hlabel, (hoverReadout_confirmed _ _ _ s hs).2.2 hmeets hlabel⟩

/-- The second finger stays down when the first goes up, and a camera write labels the id under it. -/
theorem hoverReadout_labelled_under_a_finger :
    ∃ s, runFrom (State.step unconfused) (State.new (some screen))
        (hoverThenWheel [.pointerDown 1, .pointerDown 2, .pointerRelease 1]) = some s ∧
      s.lastHoverReadout.isPickConfirming = true ∧ s.pointers = [2] :=
  ⟨_, rfl, rfl, rfl⟩

end SpatialIde.Shell.Canvas.Hover
