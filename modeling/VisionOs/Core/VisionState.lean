/-
  The Vision State: what one camera partition holds.  An `ObjectState` carries
  the three conditions its constructor checks, so that updating one cannot break
  them.
-/
import VisionOs.Core.Observation
import VisionOs.Lib.OrderedDict

namespace VisionOs.Core

open Lib

def boundedRing {α : Type} (existing : List α) (item : α) (limit : Nat) : List α :=
  (item :: existing).take limit

structure AttributeState where
  key : AttributeKey
  value : PyValue
  confidence : Confidence
  observedAt : Instant
  validUntil : Option Instant := none
  evidenceRef : Option EvidenceRef := none
  producer : Option Provenance := none
  previous : List (PyValue × Instant) := []

structure RegionMembership where
  regionId : RegionId
  geometryVersion : String
  enteredAt : Instant
  deriving DecidableEq

structure IdentitySummary where
  bindingCount : Nat := 0
  assertionConfidence : Option Confidence := none
  method : String := ""
  ambiguous : Bool := false
  deriving DecidableEq

structure ObjectState where
  objectId : ObjectId
  classId : ClassId
  classConfidence : Confidence
  lifecycle : LifecycleState
  firstSeen : Instant
  lastSeen : Instant
  lastConfirmed : Instant
  spatial : Option SpatialInfo := none
  measurementBasis : MeasurementBasis := .measured
  trajectory : List (Instant × Point × MeasurementBasis) := []
  classHistory : List (ClassId × Instant × Confidence) := []
  regions : OrderedDict RegionId RegionMembership := ∅
  attributes : OrderedDict AttributeKey AttributeState := ∅
  identity : IdentitySummary := {}
  provenanceSummary : OrderedDict String String := ∅
  observationCount : Nat := 0
  lastObservation : Option ObservationId := none
  objectId_ne_empty : objectId ≠ ""
  confirmed_le_seen : lastConfirmed.ns ≤ lastSeen.ns
  first_le_seen : firstSeen.ns ≤ lastSeen.ns

/-- Whether the platform believes the object is in the observable area. -/
def ObjectState.isPresent (s : ObjectState) : Bool :=
  s.lifecycle = .provisional || s.lifecycle = .active || s.lifecycle = .occluded

structure RegionState where
  regionId : RegionId
  geometryVersion : String
  occupancy : OrderedDict ClassId Nat := ∅
  presentObjects : List ObjectId := []
  dwellCurrentMax : Duration := ⟨0⟩
  dwellCurrentMean : Duration := ⟨0⟩
  lastTransition : Option Instant := none
  deriving DecidableEq

/-- Whether the platform can see, and how well. -/
structure ObservabilityState where
  cameraId : CameraId
  status : ObservabilityStatus := .observing
  since : Instant := ⟨0⟩
  reason : ObservabilityReason := .normal
  effectiveRate : PyFloat := .finite 1
  regionsAffected : List RegionId := []
  capabilityGaps : List (String × String) := []
  rate_inUnit : effectiveRate.inUnit = true
  deriving DecidableEq

structure CameraStatus where
  cameraId : CameraId
  streamEpoch : Int := 0
  lastObservationAt : Option Instant := none
  deriving DecidableEq

/-- The unit of ownership: one camera's projection.  Replaced wholesale on every
    applied observation. -/
structure CameraPartition where
  cameraId : CameraId
  objects : OrderedDict ObjectId ObjectState := ∅
  regions : OrderedDict RegionId RegionState := ∅
  status : Option CameraStatus := none
  observability : Option ObservabilityState := none
  logPosition : Int := 0
  version : Int := 0
  degradedReason : String := ""

def CameraPartition.isDegraded (p : CameraPartition) : Bool := p.degradedReason ≠ ""

/-- What `append` did.  The source keeps how many observations were accepted; here
    `accepted` lists their ids, in the order in which they were projected. -/
structure CommitResult where
  accepted : List ObservationId := []
  rejected : List (ObservationId × Message) := []
  quarantined : List (ObservationId × Message) := []
  logPosition : Int := 0
  version : Int := 0
  degraded : Bool := false
  deriving DecidableEq

/-- The answer about a past window, with the fraction its constructor accepts. -/
structure CoverageReport where
  observableFraction : PyFloat
  gaps : List (Instant × Instant × ObservabilityReason × String) := []
  effectiveRate : PyFloat := .finite 1
  capabilityGaps : List (String × String) := []
  fraction_inUnit : observableFraction.inUnit = true

end VisionOs.Core
