/-
  What the Crop Manager decides and hands on: trigger decisions, crop requests,
  skips, one frame's evaluation, and the crops.
-/
import VisionOs.Core.Observation

namespace VisionOs.Cropping

open Core

/-- Why a candidate was selected for analysis. -/
inductive TriggerReason where
  | firstSight | attributeMissing | attributeStale | appearanceChanged | lowConfidence
  | identityUnverified | qualityImproved | periodicRefresh | explicitRequest
  | lifecycleTransition
  deriving DecidableEq, Repr

inductive SkipReason where
  | noDemand | budgetExhausted | qualityInsufficient | freshEnough | evidenceSufficient
  | deduplicated | priorityPreempted | frameUnavailable
  deriving DecidableEq, Repr

structure TriggerDecisionFields where
  objectId : ObjectId
  reason : Option TriggerReason := none
  skip : Option SkipReason := none
  attributes : List AttributeKey := []
  priorityClass : String := ""
  demandIds : List String := []
  detail : String := ""
  deriving DecidableEq, Repr

def TriggerDecisionFields.postInit (d : TriggerDecisionFields) : Raises Unit :=
  require (¬ (d.reason.isNone = d.skip.isNone))
    (.valueError (s!"a trigger decision for '{d.objectId}' must carry exactly one of reason " ++
      "or skip; a candidate that produces neither becomes invisible, which is what invariant " ++
      "V8 forbids"))

structure TriggerDecision extends TriggerDecisionFields where
  accepted : toTriggerDecisionFields.postInit = .ok ()
  deriving DecidableEq

structure CropRequestFields where
  objectId : ObjectId
  cameraId : CameraId
  frameRef : FrameRef
  sourceBox : Box
  triggerReason : TriggerReason
  tenantId : TenantId
  siteId : SiteId
  classId : ClassId := ""
  requiredAttributes : List String := []
  priorityClass : String := ""
  demandIds : List String := []
  deriving DecidableEq

def CropRequestFields.postInit (r : CropRequestFields) : Raises Unit :=
  require (r.frameRef.cameraId = r.cameraId)
    (.valueError "a crop request must name the frame's own camera")

structure CropRequest extends CropRequestFields where
  accepted : toCropRequestFields.postInit = .ok ()
  deriving DecidableEq

/-- A candidate that was not analysed, and why. -/
structure Skipped where
  objectId : ObjectId
  cameraId : CameraId
  reason : SkipReason
  detail : String := ""
  attributeKeys : List String := []
  deriving DecidableEq, Repr

structure EvaluationResult where
  cameraId : CameraId
  frameRef : FrameRef
  requests : List CropRequest := []
  skipped : List Skipped := []
  deriving DecidableEq

structure CropFields where
  cropId : CropId
  tenantId : TenantId
  siteId : SiteId
  cameraId : CameraId
  sourceFrame : FrameRef
  objectId : Option ObjectId
  quality : QualityGrades
  tCapture : Instant
  triggerReason : TriggerReason
  deriving DecidableEq

/-- `Crop.__post_init__`, on these fields. -/
def CropFields.postInit (c : CropFields) : Raises Unit := do
  require (c.cropId ≠ "") (.valueError "a crop requires a content-addressed crop_id")
  require (c.sourceFrame.cameraId = c.cameraId)
    (.valueError (s!"crop claims camera {c.cameraId} but its frame is from " ++
      s!"{c.sourceFrame.cameraId}; evidence must be traceable"))

structure Crop extends CropFields where
  accepted : toCropFields.postInit = .ok ()
  deriving DecidableEq

/-- `Crop(...)`. -/
def Crop.construct : CropFields → Raises Crop := constructWith CropFields.postInit Crop.mk

theorem Crop.sourceFrame_cameraId (c : Crop) : c.sourceFrame.cameraId = c.cameraId :=
  require_eq_ok.mp (check_bind_eq_ok.mp c.accepted).2

end VisionOs.Cropping
