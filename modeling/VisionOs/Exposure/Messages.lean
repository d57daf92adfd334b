/-
  What a subscriber asks for and what it can receive: a scope, a filter, a delivery
  policy, and the five kinds of message.  A policy's mode, lag and batch window
  decide nothing in the functions modelled here and are left out.
-/
import VisionOs.Core.Observation

namespace VisionOs.Exposure

open Core

structure ScopeFields where
  tenantId : TenantId
  siteIds : List SiteId := []
  cameraIds : List CameraId := []
  regionIds : List RegionId := []
  deriving DecidableEq, Repr

def ScopeFields.postInit (s : ScopeFields) : Raises Unit :=
  require (s.tenantId ≠ "") (.valueError
    "a scope must name a tenant; tenancy is part of identity rather than a filter applied afterwards (12_SECURITY §4.1)")

structure Scope extends ScopeFields where
  accepted : toScopeFields.postInit = .ok ()
  deriving DecidableEq

namespace Scope

def coversCamera (s : Scope) (camera : CameraId) : Bool :=
  s.cameraIds.isEmpty || s.cameraIds.contains camera

theorem coversCamera_iff {s : Scope} {camera : CameraId} :
    s.coversCamera camera = true ↔ s.cameraIds = [] ∨ camera ∈ s.cameraIds := by
  unfold coversCamera
  rw [Bool.or_eq_true, List.isEmpty_iff, List.contains_iff_mem]

end Scope

inductive GapReason where
  | slowConsumer | platformBlind | budgetShed | partitionUnavailable | retentionExpired
  deriving DecidableEq, Repr

def GapReason.recoverable : GapReason → Bool
  | .slowConsumer | .budgetShed | .partitionUnavailable => true
  | .platformBlind | .retentionExpired => false

structure Gap where
  start : Instant
  finish : Instant
  reason : GapReason
  cameras : List CameraId := []
  observationsMissed : Option Nat := none
  recoverable : Bool := true
  deriving DecidableEq, Repr

structure Heartbeat where
  at_ : Instant
  cursor : Option String := none
  deriving DecidableEq, Repr

structure CoverageChange where
  cameraId : CameraId
  status : String
  reason : String
  at_ : Instant
  effectiveRate : PyFloat := .finite 1
  deriving DecidableEq, Repr

structure StateDeltaMessage where
  cameraId : CameraId
  changedObjects : List ObjectId := []
  changedRegions : List RegionId := []
  at_ : Option Instant := none
  deriving DecidableEq, Repr

inductive Message where
  | observation (o : Observation)
  | delta (d : StateDeltaMessage)
  | gap (g : Gap)
  | heartbeat (h : Heartbeat)
  | coverage (c : CoverageChange)

namespace Message

def momentOf : Message → Option Instant
  | observation o => some o.tCapture
  | delta d => d.at_
  | gap g => some g.start
  | heartbeat h => some h.at_
  | coverage c => some c.at_

def camerasOf : Message → List CameraId
  | observation o => [o.cameraId]
  | delta d => [d.cameraId]
  | coverage c => [c.cameraId]
  | gap _ | heartbeat _ => []

/-- `_cursor_of`: the resumption token; only an observation carries one. -/
def cursorOf : Message → Option String
  | observation o => some o.observationId
  | delta _ | gap _ | heartbeat _ | coverage _ => none

def concerns : Message → List CameraId
  | gap g => g.cameras
  | m => m.camerasOf

end Message

def classMatchesAny (classId : Option ClassId) (wanted : List ClassId) : Bool :=
  match classId with
  | none => false
  | some classId => wanted.any fun known =>
      classId = known || (known ++ ".").toList.isPrefixOf classId.toList

structure SubscriptionFilter where
  observationTypes : List ObservationType := []
  classIds : List ClassId := []
  objectIds : List ObjectId := []
  attributeKeys : List AttributeKey := []
  deriving DecidableEq, Repr

def SubscriptionFilter.accepts (f : SubscriptionFilter) (o : Observation) : Bool :=
  (f.observationTypes.isEmpty || f.observationTypes.contains o.observationType) &&
  (f.classIds.isEmpty || classMatchesAny o.classId f.classIds) &&
  (f.objectIds.isEmpty || (o.objectId.any f.objectIds.contains)) &&
  (f.attributeKeys.isEmpty || o.attributes.any fun a => f.attributeKeys.contains a.key)

inductive OverflowPolicy where
  | conflate | dropWithGap | disconnect
  deriving DecidableEq, Repr

structure DeliveryPolicyFields where
  overflow : OverflowPolicy := .dropWithGap
  heartbeat : Duration := ⟨10000000000⟩
  resumeFrom : Option String := none
  queueCapacity : Int := 1024
  deriving DecidableEq, Repr

def DeliveryPolicyFields.postInit (p : DeliveryPolicyFields) : Raises Unit := do
  require (¬ p.queueCapacity < 1)
    (.valueError "a subscription queue must have positive capacity")
  require (¬ p.heartbeat.ns ≤ 0) (.valueError
    "a subscription must have a positive heartbeat; without one, a dead connection and a quiet scene are indistinguishable (V8)")

/-- How a subscription behaves under pressure. -/
structure DeliveryPolicy extends DeliveryPolicyFields where
  accepted : toDeliveryPolicyFields.postInit = .ok ()
  deriving DecidableEq

theorem DeliveryPolicy.capacity_pos (p : DeliveryPolicy) : 1 ≤ p.queueCapacity :=
  not_lt.mp (require_eq_ok.mp (check_bind_eq_ok.mp p.accepted).1)

end VisionOs.Exposure
