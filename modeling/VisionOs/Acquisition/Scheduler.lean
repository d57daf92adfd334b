/-
  `FrameScheduler`: which frames of a camera are processed, and what it reports of a camera whose
  frames it sheds.  The admission policy and the change detector are ports.
-/
import VisionOs.Acquisition.Buffer
import VisionOs.Core.Frame
import VisionOs.Kernel.Health
import VisionOs.Lib.Effect

namespace VisionOs.Acquisition

open Core Lib Effect Kernel.HealthMonitor PyFloat

structure PipelineProfileFields where
  profileId : String
  targetFps : PyFloat
  maxInFlight : Int := 4
  priorityClass : String := "default"
  inferenceWidth : Int := 640
  inferenceHeight : Int := 640
  deriving DecidableEq

def PipelineProfileFields.postInit (p : PipelineProfileFields) : Raises Unit := do
  require (¬ p.targetFps.le (.finite 0) = true)
    (.valueError [.text "target_fps must be positive, got ", .float p.targetFps])
  require (¬ p.maxInFlight < 1) (.valueError s!"max_in_flight must be >= 1, got {p.maxInFlight}")

structure PipelineProfile extends PipelineProfileFields where
  accepted : toPipelineProfileFields.postInit = .ok ()
  deriving DecidableEq

theorem PipelineProfileFields.postInit_eq_ok {p : PipelineProfileFields} :
    p.postInit = .ok () ↔ p.targetFps.le (.finite 0) = false ∧ 1 ≤ p.maxInFlight := by
  simp only [postInit, check_bind_eq_ok, require_eq_ok]
  simp

inductive DropReason where
  | cadence | budgetExhausted | tenantQuota | queueFull | duplicate | qualityReject
  | deadlineExpired
  deriving DecidableEq, Repr

def DropReason.indicatesPressure : DropReason → Bool
  | budgetExhausted | tenantQuota | queueFull | deadlineExpired => true
  | cadence | duplicate | qualityReject => false

structure Fidelity where
  inferenceWidth : Int
  inferenceHeight : Int
  tier : String := "primary"
  deriving DecidableEq, Repr

structure AdmissionVerdictFields where
  admitted : Bool
  reason : Option DropReason := none
  fidelity : Option Fidelity := none
  deriving DecidableEq

def AdmissionVerdictFields.postInit (v : AdmissionVerdictFields) : Raises Unit := do
  require (¬ (v.admitted = true ∧ v.reason ≠ none))
    (.valueError "an admitted frame cannot carry a drop reason")
  require (¬ (v.admitted = false ∧ v.reason = none))
    (.valueError "every drop must carry an attributed reason (V8)")

structure AdmissionVerdict extends AdmissionVerdictFields where
  accepted : toAdmissionVerdictFields.postInit = .ok ()
  deriving DecidableEq

def AdmissionVerdict.refuse (reason : DropReason) : AdmissionVerdict where
  admitted := false
  reason := some reason
  accepted := rfl

def AdmissionVerdict.admitAt (fidelity : Fidelity) : AdmissionVerdict where
  admitted := true
  fidelity := some fidelity
  accepted := rfl

structure AdmissionContext where
  cameraId : CameraId
  profile : PipelineProfile
  semantics : SourceSemantics
  monotonicNow : Instant
  lastAdmittedMonotonic : Option Instant
  inFlight : Nat
  budgetPressure : PyFloat
  queueFull : Bool := false

/-! ## The scheduler -/

structure SchedulerSectionFields where
  globalBudgetFps : PyFloat := .finite 150
  sustainedDropThreshold : PyFloat := .finite (1 / 2)
  dropAlarmWindowMs : Int := 5000
  duplicateSuppression : Bool := false
  deriving DecidableEq

def SchedulerSectionFields.postInit (c : SchedulerSectionFields) : Raises Unit := do
  require (¬ c.globalBudgetFps.le (.finite 0) = true)
    (.validationError "scheduler.global_budget_fps must be positive")
  require (c.sustainedDropThreshold.inUnit = true)
    (.validationError "scheduler.sustained_drop_threshold must be in [0,1]")

structure SchedulerSection extends SchedulerSectionFields where
  accepted : toSchedulerSectionFields.postInit = .ok ()
  deriving DecidableEq

structure CadenceOverride where
  fps : PyFloat
  expires : Instant
  positive : fps.le (.finite 0) = false

structure CameraState where
  profile : PipelineProfile
  semantics : SourceSemantics
  lastAdmittedMonotonic : Option Instant := none
  inFlight : Nat := 0
  offeredWindow : Nat := 0
  admittedWindow : Nat := 0
  droppedWindow : OrderedDict DropReason Nat := ∅
  cadenceOverride : Option CadenceOverride := none
  alarmActive : Bool := false

structure CameraRate where
  cameraId : CameraId
  offered : Nat
  admitted : Nat
  effectiveRate : PyFloat
  drops : OrderedDict DropReason Nat

inductive SchedulerEvent where
  | budgetExceeded (pressure : PyFloat)
  | sustainedDropAlarm (cameraId : CameraId) (reason : String) (effectiveRate : PyFloat)

structure FrameScheduler where
  cameras : OrderedDict CameraId CameraState := ∅
  windowStarted : Instant
  admittedInWindow : Nat := 0
  budgetAlarmActive : Bool := false
  bus : List SchedulerEvent := []

structure Scheduling where
  scheduler : FrameScheduler
  health : Kernel.HealthMonitor

/-- What a call of `offer` finds: what its readings of the clock are, what the policy makes of
    the frame, and what the change detector says, where it is asked about a view. -/
structure OfferPorts where
  now : Instant
  /-- The clock when the pressure of the closing window is taken. -/
  rolled : Instant
  /-- The clock when the pressure for the policy is taken. -/
  pressed : Instant
  wall : Instant := ⟨0⟩
  evaluate : AdmissionContext → Raises AdmissionVerdict
  changed : Option (Raises Bool) := none

namespace CameraState

def expireOverride (now : Instant) (state : CameraState) : CameraState :=
  match state.cadenceOverride with
  | some cadence =>
    if cadence.expires.ns ≤ now.ns then { state with cadenceOverride := none } else state
  | none => state

def effectiveProfile (state : CameraState) : PipelineProfile :=
  match state.cadenceOverride with
  | none => state.profile
  | some cadence =>
    { state.profile with
      targetFps := cadence.fps
      accepted := PipelineProfileFields.postInit_eq_ok.mpr
        ⟨cadence.positive, (PipelineProfileFields.postInit_eq_ok.mp state.profile.accepted).2⟩ }

def effectiveRate (config : SchedulerSection) (state : CameraState) : PyFloat :=
  let windowSeconds := (PyFloat.round config.dropAlarmWindowMs).quotient (.finite 1000)
  let expected := pyMax (.finite 1) (state.effectiveProfile.targetFps.mul windowSeconds)
  -- the divisor is at least one
  pyMin (.finite 1) ((round state.admittedWindow).quotient expected)

def rate (config : SchedulerSection) (cameraId : CameraId) (state : CameraState) : CameraRate where
  cameraId
  offered := state.offeredWindow
  admitted := state.admittedWindow
  effectiveRate := state.effectiveRate config
  drops := state.droppedWindow

def newWindow (state : CameraState) : CameraState :=
  { state with offeredWindow := 0, admittedWindow := 0, droppedWindow := ∅ }

def decided (now : Instant) (verdict : AdmissionVerdict) (state : CameraState) : CameraState :=
  match verdict.admitted, verdict.reason with
  | true, _ =>
    { state with
      lastAdmittedMonotonic := some now
      admittedWindow := state.admittedWindow + 1
      inFlight := state.inFlight + 1 }
  | false, some reason =>
    { state with
      droppedWindow :=
        state.droppedWindow.set reason ((state.droppedWindow.get? reason).getD 0 + 1) }
  -- no verdict is built without a reason
  | false, none => state

end CameraState

def CameraRate.pressureDrops (rate : CameraRate) : Nat :=
  ((rate.drops.entries.filter fun entry => entry.1.indicatesPressure).map Prod.snd).sum

def CameraRate.sheds (config : SchedulerSection) (rate : CameraRate) : Bool :=
  0 < rate.pressureDrops && rate.effectiveRate.lt config.sustainedDropThreshold

namespace FrameScheduler

/-- `FrameScheduler(...)`. -/
def start (now : Instant) : FrameScheduler where
  windowStarted := now

def registerCamera (cameraId : CameraId) (profile : PipelineProfile)
    (semantics : SourceSemantics) (s : FrameScheduler) : FrameScheduler :=
  { s with cameras := s.cameras.set cameraId { profile, semantics } }

def forgetCamera (cameraId : CameraId) (s : FrameScheduler) : FrameScheduler :=
  { s with cameras := s.cameras.erase cameraId }

def complete (cameraId : CameraId) (s : FrameScheduler) : FrameScheduler :=
  { s with cameras := s.cameras.modify cameraId fun state =>
      { state with inFlight := state.inFlight - 1 } }

def overrideCadence (cameraId : CameraId) (fps : PyFloat) (expires : Instant)
    (s : FrameScheduler) : Raises FrameScheduler :=
  if h : fps.le (.finite 0) = true then
    .error (.valueError [.text "cadence override must be positive, got ", .float fps])
  else .ok { s with cameras := s.cameras.modify cameraId fun state =>
      { state with
        cadenceOverride := some { fps, expires, positive := Bool.eq_false_iff.mpr h } } }

def pressure (config : SchedulerSection) (now : Instant) (s : FrameScheduler) : PyFloat :=
  let elapsedNs := max 1 (now.ns - s.windowStarted.ns)
  let elapsedSeconds := ofRatio elapsedNs 1000000000
  if elapsedSeconds.le (.finite 0) = true then .finite 0
  else
    let rate := (round s.admittedInWindow).quotient elapsedSeconds
    pyMin (.finite 4) (rate.quotient config.globalBudgetFps)

def windowOver (config : SchedulerSection) (now : Instant) (s : FrameScheduler) : Bool :=
  ¬ now.ns - s.windowStarted.ns < config.dropAlarmWindowMs * 1000000

def setAlarm (cameraId : CameraId) (active : Bool) (s : FrameScheduler) : FrameScheduler :=
  { s with cameras := s.cameras.modify cameraId fun state => { state with alarmActive := active } }

def publish (event : SchedulerEvent) (s : FrameScheduler) : FrameScheduler :=
  { s with bus := s.bus ++ [event] }

def closeWindow (config : SchedulerSection) (ports : OfferPorts) (s : FrameScheduler) :
    FrameScheduler :=
  let pressure := s.pressure config ports.rolled
  let exceeded := (finite 1).le pressure
  let rolled := { s with
    cameras := s.cameras.keys.foldl (fun cameras id => cameras.modify id .newWindow) s.cameras
    windowStarted := ports.now
    admittedInWindow := 0
    budgetAlarmActive := exceeded }
  if exceeded && !s.budgetAlarmActive then rolled.publish (.budgetExceeded pressure) else rolled

def rates (config : SchedulerSection) (s : FrameScheduler) : List (CameraRate × Bool) :=
  s.cameras.entries.map fun entry => (entry.2.rate config entry.1, entry.2.alarmActive)

def endsAlarm (config : SchedulerSection) (now : Instant) (cameraId : CameraId)
    (s : FrameScheduler) : Bool :=
  match s.cameras.get? cameraId with
  | some state =>
    s.windowOver config now && state.alarmActive && state.offeredWindow ≠ 0 &&
      !(state.rate config cameraId).sheds config
  | none => false

end FrameScheduler

namespace Scheduling

variable (config : SchedulerSection)

/-- `set_observability`. -/
def report (cameraId : CameraId) (now : Instant) (status : Kernel.HealthState)
    (reason : Kernel.ObservabilityReason) (effectiveRate : PyFloat) (detail : Message)
    (t : Scheduling) : Scheduling :=
  { t with health :=
      (t.health.setObservability cameraId now status reason effectiveRate detail) }

def onScheduler (f : FrameScheduler → FrameScheduler) (t : Scheduling) : Scheduling :=
  { t with scheduler := f t.scheduler }

def evaluateCameraRate (now : Instant) (t : Scheduling) (rate : CameraRate)
    (alarmWasActive : Bool) : Scheduling :=
  if rate.offered = 0 then t
  else if rate.sheds config then
    let t := t.onScheduler (.setAlarm rate.cameraId true)
    let t := if alarmWasActive then t else
      t.onScheduler (.publish (.sustainedDropAlarm rate.cameraId "pressure" rate.effectiveRate))
    t.report rate.cameraId now .degraded .schedulerShedding rate.effectiveRate
      s!"{rate.pressureDrops} pressure drops in window"
  else if alarmWasActive then
    (t.onScheduler (.setAlarm rate.cameraId false)).report rate.cameraId now .healthy .normal
      rate.effectiveRate []
  else t

def maybeRollWindow (ports : OfferPorts) (t : Scheduling) : Scheduling :=
  if t.scheduler.windowOver config ports.now then
    (t.scheduler.rates config).foldl
      (fun t entry => t.evaluateCameraRate config ports.wall entry.1 entry.2)
      (t.onScheduler (.closeWindow config ports))
  else t

def shouldSuppress (ports : OfferPorts) : Raises Bool :=
  match config.duplicateSuppression, ports.changed with
  | true, some changed => do
    let changed ← changed
    pure !changed
  | _, _ => pure false

/-- What the policy and the change detector make of a frame. -/
def verdict (ports : OfferPorts) (context : AdmissionContext) : Raises AdmissionVerdict := do
  let verdict ← ports.evaluate context
  if verdict.admitted then do
    let suppress ← shouldSuppress config ports
    pure (if suppress then .refuse .duplicate else verdict)
  else pure verdict

def withFidelity (profile : PipelineProfile) (verdict : AdmissionVerdict) : AdmissionVerdict :=
  match verdict.admitted, verdict.fidelity with
  | true, none =>
    .admitAt
      { inferenceWidth := profile.inferenceWidth
        inferenceHeight := profile.inferenceHeight }
  | _, _ => verdict

def countOffer (cameraId : CameraId) (now : Instant) (s : FrameScheduler) : FrameScheduler :=
  { s with cameras := s.cameras.modify cameraId fun state =>
      { state with offeredWindow := state.offeredWindow + 1 }.expireOverride now }

def keepVerdict (cameraId : CameraId) (now : Instant) (verdict : AdmissionVerdict)
    (s : FrameScheduler) : FrameScheduler :=
  { s with
    cameras := s.cameras.modify cameraId (.decided now verdict)
    admittedInWindow := if verdict.admitted then s.admittedInWindow + 1 else s.admittedInWindow }

def offerFrom (cameraId : CameraId) (ports : OfferPorts) (state : CameraState) :
    Effect PyException Scheduling AdmissionVerdict := do
  modify (onScheduler (countOffer cameraId ports.now))
  let t ← read
  let profile := (state.expireOverride ports.now).effectiveProfile
  let verdict ← ofExcept (verdict config ports
    { cameraId
      profile
      semantics := state.semantics
      monotonicNow := ports.now
      lastAdmittedMonotonic := state.lastAdmittedMonotonic
      inFlight := state.inFlight
      budgetPressure := t.scheduler.pressure config ports.pressed
      queueFull := profile.maxInFlight ≤ state.inFlight })
  modify (onScheduler (keepVerdict cameraId ports.now verdict))
  pure (withFidelity profile verdict)

def offer (cameraId : CameraId) (ports : OfferPorts) :
    Effect PyException Scheduling AdmissionVerdict := do
  modify (maybeRollWindow config ports)
  let t ← read
  match t.scheduler.cameras.get? cameraId with
  | none => pure (.refuse .queueFull)
  | some state => offerFrom config cameraId ports state

/-! ## What the scheduler reports -/

def reported (cameraId : CameraId) (t : Scheduling) :
    Kernel.HealthState × Kernel.ObservabilityReason :=
  t.health.reported cameraId

variable {config} {cameraId : CameraId} {t : Scheduling}

theorem reported_evaluateCameraRate (now : Instant) (rate : CameraRate) (active : Bool) :
    (t.evaluateCameraRate config now rate active).reported cameraId = t.reported cameraId ∨
      (t.evaluateCameraRate config now rate active).reported cameraId =
        (.degraded, .schedulerShedding) ∨
      ((t.evaluateCameraRate config now rate active).reported cameraId = (.healthy, .normal) ∧
        rate.cameraId = cameraId ∧ rate.offered ≠ 0 ∧ rate.sheds config = false ∧
        active = true) := by
  unfold evaluateCameraRate
  by_cases hoffered : rate.offered = 0
  · rw [if_pos hoffered]
    exact .inl rfl
  rw [if_neg hoffered]
  by_cases hcamera : rate.cameraId = cameraId
  · -- the rate of the camera itself
    subst hcamera
    cases hsheds : rate.sheds config with
    | true => exact .inr (.inl (reported_setObservability ..))
    | false =>
      cases active with
      | false => exact .inl rfl
      | true =>
        exact .inr (.inr ⟨reported_setObservability .., rfl, hoffered, rfl,
          rfl⟩)
  · -- the rate of another one
    refine .inl ?_
    cases rate.sheds config with
    | true =>
      show (setObservability _ _ _ _ _ _ _).reported cameraId = _
      rw [reported_setObservability_of_ne hcamera]
      cases active <;> rfl
    | false =>
      cases active with
      | false => rfl
      | true => exact reported_setObservability_of_ne hcamera

def RollReports (config : SchedulerSection) (cameraId : CameraId) (now : Instant)
    (t u : Scheduling) : Prop :=
  u.reported cameraId = t.reported cameraId ∨
    u.reported cameraId = (.degraded, .schedulerShedding) ∨
    (u.reported cameraId = (.healthy, .normal) ∧
      t.scheduler.endsAlarm config now cameraId = true)

theorem rollReports_evaluateCameraRate {u : Scheduling} {now wall : Instant}
    {entry : CameraRate × Bool} (hover : t.scheduler.windowOver config now = true)
    (hentry : entry ∈ t.scheduler.rates config) (h : RollReports config cameraId now t u) :
    RollReports config cameraId now t (u.evaluateCameraRate config wall entry.1 entry.2) := by
  obtain hsame | hshed | ⟨hhealthy, hcamera, hoffered, hsheds, hactive⟩ :=
    @reported_evaluateCameraRate config cameraId u wall entry.1 entry.2
  · unfold RollReports
    rw [hsame]
    exact h
  · exact .inr (.inl hshed)
  · refine .inr (.inr ⟨hhealthy, ?_⟩)
    -- the rate is that of the camera's own counters
    obtain ⟨⟨id, state⟩, hmem, rfl⟩ := List.mem_map.mp hentry
    change id = cameraId at hcamera
    subst hcamera
    have hheld : t.scheduler.cameras.get? id = some state :=
      OrderedDict.get?_eq_some_iff.mpr hmem
    unfold FrameScheduler.endsAlarm
    rw [hheld]
    change state.offeredWindow ≠ 0 at hoffered
    dsimp only at hsheds hactive ⊢
    rw [hover, hactive, hsheds]
    simpa using hoffered

theorem rollReports_maybeRollWindow (ports : OfferPorts) :
    RollReports config cameraId ports.now t (t.maybeRollWindow config ports) := by
  unfold maybeRollWindow
  cases hover : t.scheduler.windowOver config ports.now with
  | false => exact .inl rfl
  | true =>
    rw [if_pos rfl]
    have hevaluated : ∀ (rates : List (CameraRate × Bool)) (u : Scheduling),
        (∀ entry ∈ rates, entry ∈ t.scheduler.rates config) →
        RollReports config cameraId ports.now t u →
        RollReports config cameraId ports.now t
          (rates.foldl (fun t entry => t.evaluateCameraRate config ports.wall entry.1 entry.2)
            u) := by
      intro rates
      induction rates with
      | nil => exact fun u _ hu => hu
      | cons entry rest ih =>
        intro u hmem hu
        refine ih _ (fun e he => hmem e (List.mem_cons_of_mem _ he)) ?_
        exact rollReports_evaluateCameraRate hover (hmem entry List.mem_cons_self) hu
    exact hevaluated _ _ (fun _ h => h) (.inl rfl)

theorem health_offer (offered : CameraId) (ports : OfferPorts) :
    (offer config offered ports t).2.health = (t.maybeRollWindow config ports).health := by
  have hspec : (offer config offered ports).wp
      (fun _ t' => t'.health = (t.maybeRollWindow config ports).health)
      (fun _ t' => t'.health = (t.maybeRollWindow config ports).health) t := by
    unfold offer
    rw [wp_bind, wp_modify, wp_bind, wp_read]
    split
    · exact rfl
    · unfold offerFrom
      rw [wp_bind, wp_modify, wp_bind, wp_read, wp_bind,
        wp_ofExcept]
      refine ⟨fun verdict _ => ?_, fun _ _ => rfl⟩
      rw [wp_bind, wp_modify]
      exact rfl
  exact wp_state.mp hspec

end Scheduling

end VisionOs.Acquisition
