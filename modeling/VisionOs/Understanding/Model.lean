/-
  What the Understanding Engine is asked and what it answers: a request with the
  question of one crop, and a result with its receipt.
-/
import VisionOs.Cropping.Request

namespace VisionOs.Understanding

open Core Cropping

/-- What `new_ulid` returns: 26 characters, so never the empty string. -/
abbrev Ulid := { id : RequestId // id ≠ "" }

inductive UnderstandingOutcome where
  | succeeded | noAttributes | refused | timedOut | unavailable | unsupported
  deriving DecidableEq, Repr

namespace UnderstandingOutcome

def value : UnderstandingOutcome → String
  | succeeded => "succeeded"
  | noAttributes => "no_attributes"
  | refused => "refused"
  | timedOut => "timed_out"
  | unavailable => "unavailable"
  | unsupported => "unsupported"

def isFailure : UnderstandingOutcome → Bool
  | timedOut | unavailable | unsupported => true
  | _ => false

end UnderstandingOutcome

structure UnderstandingRequestFields where
  requestId : Ulid
  tenantId : TenantId
  siteId : SiteId
  cameraId : CameraId
  objectId : Option ObjectId
  classId : ClassId
  cropIds : List CropId
  frameRef : FrameRef
  requestedAttributes : List AttributeKey
  triggerReason : TriggerReason
  tCapture : Instant
  quality : QualityGrades
  priorityClass : String := ""
  demandIds : List String := []
  deriving DecidableEq

def UnderstandingRequestFields.postInit (q : UnderstandingRequestFields) : Raises Unit := do
  require (q.cropIds ≠ [])
    (.valueError ("an understanding request requires at least one crop; there is nothing to " ++
      "understand without pixels"))
  require (q.requestedAttributes ≠ [])
    (.valueError ("an understanding request with no requested attributes would spend a model " ++
      "call on nothing"))
  require (q.frameRef.cameraId = q.cameraId)
    (.valueError "a request must name the frame's own camera")

structure UnderstandingRequest extends UnderstandingRequestFields where
  accepted : toUnderstandingRequestFields.postInit = .ok ()
  deriving DecidableEq

/-- `UnderstandingRequest(...)`. -/
def UnderstandingRequest.construct : UnderstandingRequestFields → Raises UnderstandingRequest :=
  constructWith UnderstandingRequestFields.postInit UnderstandingRequest.mk

theorem UnderstandingRequestFields.postInit_eq_ok {q : UnderstandingRequestFields} :
    q.postInit = .ok () ↔
      q.cropIds ≠ [] ∧ q.requestedAttributes ≠ [] ∧ q.frameRef.cameraId = q.cameraId := by
  simp [postInit, check_bind_eq_ok, require_eq_ok]

def UnderstandingRequest.primaryCrop (q : UnderstandingRequest) : CropId :=
  q.cropIds.head (UnderstandingRequestFields.postInit_eq_ok.mp q.accepted).1

/-- Why one field the model produced was refused. -/
inductive RejectionReason where
  | unregisteredKey | notInOutputSchema | wrongType | outOfDomain | cardinalityViolation
  | classNotApplicable | deprecatedKey | unparseableValue
  deriving DecidableEq, Repr

structure RejectedFieldFields where
  fieldName : String
  reason : RejectionReason
  rawValue : String := ""
  detail : Message := []
  deriving DecidableEq

def RejectedFieldFields.postInit (f : RejectedFieldFields) : Raises Unit :=
  require (f.fieldName ≠ "") (.valueError "a rejection must name the field it refused")

structure RejectedField extends RejectedFieldFields where
  accepted : toRejectedFieldFields.postInit = .ok ()
  deriving DecidableEq

/-- `RejectedField(...)`. -/
def RejectedField.construct : RejectedFieldFields → Raises RejectedField :=
  constructWith RejectedFieldFields.postInit RejectedField.mk

/-- What a result says of why and of what it was computed. -/
structure UnderstandingEvidence where
  triggerReason : TriggerReason
  frameRef : FrameRef
  cropRef : Option CropId
  deriving DecidableEq

structure UnderstandingResultFields where
  requestId : Ulid
  tenantId : TenantId
  siteId : SiteId
  cameraId : CameraId
  objectId : Option ObjectId
  classId : ClassId
  outcome : UnderstandingOutcome
  evidence : UnderstandingEvidence
  attributes : List Attribute := []
  rejectedFields : List RejectedField := []
  requestedAttributes : List AttributeKey := []
  demandIds : List String := []
  cacheHit : Bool := false
  costUnits : PyFloat := .finite 0
  rawOutput : Option (List UInt8) := none

/-- `UnderstandingResult.__post_init__`, on these fields. -/
def UnderstandingResultFields.postInit (r : UnderstandingResultFields) : Raises Unit := do
  let named := r.objectId.getD ""
  require (¬ (r.evidence.cropRef.isNone ∧ r.objectId.isSome))
    (.valueError (s!"result for object '{named}' carries no crop reference; an " ++
      "attribute claim that cannot name the pixels behind it is not evidence (02_VOM section " ++
      "10.9)"))
  require (¬ (r.outcome = .succeeded ∧ r.attributes.isEmpty))
    (.valueError ("outcome is 'succeeded' but no attribute was produced; 'the model answered " ++
      "and nothing fit' is NO_ATTRIBUTES, and conflating them hides a schema drift problem"))
  require (¬ (r.attributes.isEmpty = false ∧ r.outcome.isFailure))
    (.valueError (s!"outcome '{r.outcome.value}' cannot carry attributes; a failed " ++
      "understanding that produced values would be fabrication (port obligation U2)"))

structure UnderstandingResult extends UnderstandingResultFields where
  accepted : toUnderstandingResultFields.postInit = .ok ()

theorem UnderstandingResultFields.postInit_eq_ok {r : UnderstandingResultFields} :
    r.postInit = .ok () ↔
      (r.evidence.cropRef = none → r.objectId = none) ∧
      (r.outcome = .succeeded → r.attributes ≠ []) ∧
      (r.attributes ≠ [] → r.outcome.isFailure = false) := by
  simp [postInit, check_bind_eq_ok, require_eq_ok]

def UnderstandingResult.withoutRawOutput (r : UnderstandingResult) : UnderstandingResult :=
  { r with
    rawOutput := none
    accepted := UnderstandingResultFields.postInit_eq_ok.mpr
      (UnderstandingResultFields.postInit_eq_ok.mp r.accepted) }

end VisionOs.Understanding
