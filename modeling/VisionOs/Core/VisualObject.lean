/-
  The registry's published record of a persisting thing, and the bindings that
  tie it to tracks.  Each carries the proof that its constructor accepted it.
-/
import VisionOs.Core.Observation
import VisionOs.Lib.OrderedDict

namespace VisionOs.Core

open Lib Confidence

namespace LifecycleState

def isTerminal (s : LifecycleState) : Bool := s = mergedInto || s = expired

/-- Whether the platform believes the object is in the observable area. -/
def isPresent (s : LifecycleState) : Bool := s = provisional || s = active || s = occluded

/-- Whether a current measurement is expected this frame. -/
def isMeasurable (s : LifecycleState) : Bool := s = provisional || s = active

end LifecycleState

def Confidence.uncalibrated (value : PyFloat) (semantics : ConfidenceSemantics) :
    Raises Confidence :=
  construct { value, semantics, rawScore := some value }

theorem Confidence.uncalibrated_eq_ok_iff {value : PyFloat} {semantics : ConfidenceSemantics} :
    (∃ c, uncalibrated value semantics = .ok c) ↔ value.inUnit = true := by
  constructor
  · rintro ⟨c, hc⟩
    obtain ⟨h, -⟩ := constructWith_eq_ok_iff.mp hc
    exact require_eq_ok.mp (check_bind_eq_ok.mp h).1
  · intro h
    exact ⟨_, constructWith_eq_ok (ConfidenceFields.postInit_uncalibrated semantics h)⟩

theorem Confidence.uncalibrated_semantics {value : PyFloat} {semantics : ConfidenceSemantics}
    {c : Confidence} (h : uncalibrated value semantics = .ok c) :
    c.semantics = semantics ∧ c.value = value := by
  obtain ⟨haccepted, rfl⟩ := constructWith_eq_ok_iff.mp h
  exact ⟨rfl, rfl⟩

/-! ## Tracks and bindings -/

abbrev BindingId := String

structure TrackIdFields where
  cameraId : CameraId
  trackerEpoch : Int
  localId : Int
  deriving DecidableEq, Repr

def TrackIdFields.postInit (t : TrackIdFields) : Raises Unit := do
  require (¬ t.trackerEpoch < 0)
    (.valueError s!"tracker_epoch must be non-negative, got {t.trackerEpoch}")
  require (¬ t.localId < 0) (.valueError s!"local_id must be non-negative, got {t.localId}")

/-- A track's id, as its constructor accepts it. -/
structure TrackId extends TrackIdFields where
  accepted : toTrackIdFields.postInit = .ok ()
  deriving DecidableEq

theorem TrackIdFields.postInit_eq_ok {t : TrackIdFields} :
    t.postInit = .ok () ↔ 0 ≤ t.trackerEpoch ∧ 0 ≤ t.localId := by
  simp [postInit, check_bind_eq_ok, require_eq_ok]

inductive BindingMethod where
  | firstSight | trackContinuity | spatioTemporal | epochRebind | appearance | resolver | manual
  deriving DecidableEq, Repr

namespace BindingMethod

def value : BindingMethod → String
  | firstSight => "first_sight"
  | trackContinuity => "track_continuity"
  | spatioTemporal => "spatio_temporal"
  | epochRebind => "epoch_rebind"
  | appearance => "appearance"
  | resolver => "resolver"
  | manual => "manual"

end BindingMethod

structure TrackBindingFields where
  bindingId : BindingId
  trackId : TrackId
  boundFrom : Instant
  boundTo : Option Instant := none
  confidence : Option Confidence := none
  method : BindingMethod := .firstSight
  supersededBy : Option BindingId := none
  deriving DecidableEq

def TrackBindingFields.checkConfidence (b : TrackBindingFields) : Raises Unit :=
  match b.confidence with
  | none => .ok ()
  | some c => require (c.semantics = .identity) (.valueError
      s!"a track binding must carry IDENTITY confidence, got {c.semantics.value}; association confidence measures whether a detection continues a track, which is a different claim (02_VOM section 7)")

def TrackBindingFields.postInit (b : TrackBindingFields) : Raises Unit := do
  b.checkConfidence
  match b.boundTo with
  | none => .ok ()
  | some boundTo =>
    require (¬ boundTo.ns < b.boundFrom.ns)
      (.valueError "a binding cannot close before it opened")

structure TrackBinding extends TrackBindingFields where
  accepted : toTrackBindingFields.postInit = .ok ()
  deriving DecidableEq

/-- `TrackBinding(...)`. -/
def TrackBinding.construct : TrackBindingFields → Raises TrackBinding :=
  constructWith TrackBindingFields.postInit TrackBinding.mk

theorem TrackBindingFields.postInit_eq_ok {b : TrackBindingFields} :
    b.postInit = .ok () ↔
      (∀ c, b.confidence = some c → c.semantics = .identity) ∧
      (∀ t, b.boundTo = some t → b.boundFrom.ns ≤ t.ns) := by
  unfold postInit checkConfidence
  rw [check_bind_eq_ok]
  apply and_congr
  · cases b.confidence <;> simp [require_eq_ok]
  · cases b.boundTo <;> simp [require_eq_ok]

def TrackBinding.isOpen (b : TrackBinding) : Bool := b.boundTo.isNone

def TrackBinding.isSuperseded (b : TrackBinding) : Bool := b.supersededBy.isSome

structure ClassObservation where
  classId : ClassId
  observedAt : Instant
  confidence : Confidence
  deriving DecidableEq

structure VisualObjectFields where
  objectId : ObjectId
  tenantId : TenantId
  siteId : SiteId
  cameraId : CameraId
  classId : ClassId
  confidence : Confidence
  lifecycle : LifecycleState
  classHistory : List ClassObservation
  trackBindings : List TrackBinding
  currentSpatial : SpatialInfo
  spatialHistory : List (Instant × SpatialInfo)
  attributes : OrderedDict AttributeKey Attribute
  firstSeen : Instant
  lastSeen : Instant
  lastConfirmed : Instant
  observationCount : Int
  provenance : Provenance
  mergedInto : Option ObjectId := none
  lineage : List ObjectId := []
  schemaVersion : String := "1.0.0"
  labels : OrderedDict String String := ∅

def VisualObjectFields.postInit (o : VisualObjectFields) : Raises Unit := do
  require (o.confidence.semantics = .identity) (.valueError
    s!"a VisualObject must carry IDENTITY confidence, got {o.confidence.semantics.value} (02_VOM section 10.6)")
  require (o.lifecycle = .mergedInto ↔ o.mergedInto ≠ none) (.valueError
    "merged_into and LifecycleState.MERGED_INTO must be set together; a merged object without a target is unresolvable history (V5)")
  require (o.mergedInto ≠ some o.objectId)
    (.valueError "an object cannot be merged into itself")
  require (¬ o.observationCount < 0)
    (.valueError "observation_count must be non-negative")
  require (¬ o.lastSeen.ns < o.firstSeen.ns)
    (.valueError "last_seen cannot precede first_seen")
  require (¬ o.lastConfirmed.ns > o.lastSeen.ns) (.valueError
    "last_confirmed cannot follow last_seen; a measurement cannot be newer than the most recent update")

structure VisualObject extends VisualObjectFields where
  accepted : toVisualObjectFields.postInit = .ok ()

/-- `VisualObject(...)`. -/
def VisualObject.construct : VisualObjectFields → Raises VisualObject :=
  constructWith VisualObjectFields.postInit VisualObject.mk

theorem VisualObjectFields.postInit_eq_ok {o : VisualObjectFields} :
    o.postInit = .ok () ↔
      o.confidence.semantics = .identity ∧
      (o.lifecycle = .mergedInto ↔ o.mergedInto ≠ none) ∧
      o.mergedInto ≠ some o.objectId ∧ 0 ≤ o.observationCount ∧
      o.firstSeen.ns ≤ o.lastSeen.ns ∧ o.lastConfirmed.ns ≤ o.lastSeen.ns := by
  unfold postInit
  simp only [check_bind_eq_ok, require_eq_ok, not_lt, gt_iff_lt]

end VisionOs.Core
