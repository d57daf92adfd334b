/-
  `HealthMonitor`, as far as cameras go: what each camera's observability is, and
  the gaps in which it could not see.  The reports of components, the liveness
  check of frame contents, metrics and the events of the bus are left out.
-/
import VisionOs.Core.FloatArith
import VisionOs.Core.Ids
import VisionOs.Lib.Bounded

namespace VisionOs.Kernel

open Core Lib OrderedDict

inductive HealthState where
  | starting | healthy | degraded | blind | failed | draining
  deriving DecidableEq, Repr

def HealthState.observing : HealthState → Bool
  | healthy | degraded => true
  | starting | blind | failed | draining => false

inductive ObservabilityReason where
  | normal | streamDisconnected | decodeFailing | privacyMaskFailed | schedulerShedding
  | sceneObscured | calibrationSuspect | startingUp | draining
  deriving DecidableEq, Repr

structure ObservabilityState where
  cameraId : CameraId
  status : HealthState
  since : Instant
  reason : ObservabilityReason := .normal
  effectiveRate : PyFloat := .finite 1
  detail : Message := []

def ObservabilityState.observing (s : ObservabilityState) : Bool := s.status.observing

structure CoverageGap where
  cameraId : CameraId
  start : Instant
  finish : Option Instant
  reason : ObservabilityReason
  detail : Message := []

structure CameraRecord where
  state : ObservabilityState
  openGap : Option CoverageGap := none
  closedGaps : BoundedDeque CoverageGap := .empty 256

structure HealthMonitor where
  cameras : OrderedDict CameraId CameraRecord := ∅

/-- The record of a camera that was never reported on. -/
def CameraRecord.register (cameraId : CameraId) (now : Instant) : CameraRecord where
  state :=
    { cameraId
      status := .starting
      since := now
      reason := .startingUp
      effectiveRate := .finite 0 }

/-- What `set_observability` compares before it changes anything. -/
def ObservabilityState.same (previous : ObservabilityState) (status : HealthState)
    (reason : ObservabilityReason) (effectiveRate : PyFloat) : Bool :=
  previous.status = status ∧ previous.reason = reason ∧
    (previous.effectiveRate.sub effectiveRate).abs.lt (.round (1 / 1000000))

def CameraRecord.transition (record : CameraRecord) (cameraId : CameraId) (now : Instant)
    (status : HealthState) (reason : ObservabilityReason) (effectiveRate : PyFloat) (detail : Message) :
    CameraRecord :=
  let record := { record with
    state := { cameraId, status, since := now, reason, effectiveRate, detail } }
  match status.observing, record.openGap with
  | false, none =>
    { record with openGap := some { cameraId, start := now, finish := none, reason, detail } }
  | true, some gap =>
    { record with
      openGap := none
      closedGaps := record.closedGaps.push
        { cameraId, start := gap.start, finish := some now, reason := gap.reason,
          detail := gap.detail } }
  | _, _ => record

theorem CameraRecord.status_transition (record : CameraRecord) (cameraId : CameraId) (now : Instant)
    (status : HealthState) (reason : ObservabilityReason) (effectiveRate : PyFloat) (detail : Message) :
    (record.transition cameraId now status reason effectiveRate detail).state.status = status := by
  unfold CameraRecord.transition
  dsimp only
  split <;> rfl

theorem CameraRecord.reason_transition (record : CameraRecord) (cameraId : CameraId) (now : Instant)
    (status : HealthState) (reason : ObservabilityReason) (effectiveRate : PyFloat) (detail : Message) :
    (record.transition cameraId now status reason effectiveRate detail).state.reason = reason := by
  unfold CameraRecord.transition
  dsimp only
  split <;> rfl

namespace HealthMonitor

def registerCamera (m : HealthMonitor) (cameraId : CameraId) (now : Instant) : HealthMonitor :=
  match m.cameras.get? cameraId with
  | some _ => m
  | none => { m with cameras := m.cameras.set cameraId (.register cameraId now) }

def forgetCamera (m : HealthMonitor) (cameraId : CameraId) : HealthMonitor :=
  { m with cameras := m.cameras.erase cameraId }

/-- The record of a camera, or the one it is registered with. -/
def record (m : HealthMonitor) (cameraId : CameraId) (now : Instant) : CameraRecord :=
  (m.cameras.get? cameraId).getD (.register cameraId now)

def setObservability (m : HealthMonitor) (cameraId : CameraId) (now : Instant)
    (status : HealthState) (reason : ObservabilityReason) (effectiveRate : PyFloat)
    (detail : Message := []) : HealthMonitor :=
  let record := m.record cameraId now
  if record.state.same status reason effectiveRate then m.registerCamera cameraId now
  else { m with
    cameras := m.cameras.set cameraId
      (record.transition cameraId now status reason effectiveRate detail) }

def observability (m : HealthMonitor) (cameraId : CameraId) (now : Instant) : ObservabilityState :=
  match m.cameras.get? cameraId with
  | some record => record.state
  | none =>
    { cameraId
      status := .failed
      since := now
      reason := .streamDisconnected
      effectiveRate := .finite 0
      detail := "camera not registered" }

def observing (m : HealthMonitor) (cameraId : CameraId) : Bool :=
  (m.observability cameraId ⟨0⟩).observing

variable {m : HealthMonitor} {cameraId : CameraId} {now : Instant} {status : HealthState}
  {reason : ObservabilityReason} {effectiveRate : PyFloat} {detail : Message}

theorem get?_registerCamera (m : HealthMonitor) (cameraId other : CameraId) (now : Instant) :
    (m.registerCamera cameraId now).cameras.get? other =
      if cameraId = other then some (m.record cameraId now) else m.cameras.get? other := by
  unfold registerCamera record
  cases hrecord : m.cameras.get? cameraId with
  | none => exact get?_set _ _ _ _
  | some record =>
    by_cases hother : cameraId = other
    · rw [if_pos hother, ← hother]
      exact hrecord
    · rw [if_neg hother]

theorem get?_setObservability (other : CameraId) :
    (m.setObservability cameraId now status reason effectiveRate detail).cameras.get? other =
      if cameraId = other then some (
        if (m.record cameraId now).state.same status reason effectiveRate then m.record cameraId now
        else (m.record cameraId now).transition cameraId now status reason effectiveRate detail)
      else m.cameras.get? other := by
  unfold setObservability
  dsimp only
  split
  · exact get?_registerCamera m cameraId other now
  · exact get?_set _ _ _ _

theorem setObservability_shown (seen : Instant) :
    ((m.setObservability cameraId now status reason effectiveRate detail).observability cameraId
      seen).status = status ∧
    ((m.setObservability cameraId now status reason effectiveRate detail).observability cameraId
      seen).reason = reason := by
  unfold observability
  rw [get?_setObservability, if_pos rfl]
  dsimp only
  split
  · rename_i hsame
    unfold ObservabilityState.same at hsame
    exact ⟨(of_decide_eq_true hsame).1, (of_decide_eq_true hsame).2.1⟩
  · exact ⟨CameraRecord.status_transition .., CameraRecord.reason_transition ..⟩

variable {other : CameraId}

theorem observability_setObservability_of_ne (hne : cameraId ≠ other)
    (seen : Instant) :
    (m.setObservability cameraId now status reason effectiveRate detail).observability other seen =
      m.observability other seen := by
  unfold observability
  rw [get?_setObservability, if_neg hne]

def reported (m : HealthMonitor) (cameraId : CameraId) : HealthState × ObservabilityReason :=
  ((m.observability cameraId ⟨0⟩).status, (m.observability cameraId ⟨0⟩).reason)

theorem reported_setObservability :
    (m.setObservability cameraId now status reason effectiveRate detail).reported cameraId =
      (status, reason) := by
  unfold reported
  rw [(setObservability_shown _).1, (setObservability_shown _).2]

theorem reported_setObservability_of_ne (hne : cameraId ≠ other) :
    (m.setObservability cameraId now status reason effectiveRate detail).reported other =
      m.reported other := by
  unfold reported
  rw [observability_setObservability_of_ne hne]

@[simp] theorem observing_setObservability :
    (m.setObservability cameraId now status reason effectiveRate detail).observing cameraId =
      status.observing := by
  unfold observing ObservabilityState.observing
  rw [(setObservability_shown _).1]

end HealthMonitor

end VisionOs.Kernel
