/-
  The observation envelope.  It and each nested payload carry the proof that their constructor
  accepted them.  Fields that no modelled function reads are left out.
-/
import VisionOs.Core.Confidence
import VisionOs.Core.Space
import VisionOs.Core.Values

namespace VisionOs.Core

/-! ## Closed sets -/

inductive ObservationType where
  | presence | spatial | attributes | identity | lifecycle | quality | coverage
  deriving DecidableEq, Repr

namespace ObservationType

def value : ObservationType → String
  | presence => "presence"
  | spatial => "spatial"
  | attributes => "attribute"
  | identity => "identity"
  | lifecycle => "lifecycle"
  | quality => "quality"
  | coverage => "coverage"

def members : List ObservationType :=
  [presence, spatial, attributes, identity, lifecycle, quality, coverage]

/-- `coverage` is a statement about the platform, not about anything seen. -/
def concernsAnObject (k : ObservationType) : Bool := k ≠ coverage

end ObservationType

inductive MeasurementBasis where
  | measured | predicted | interpolated
  deriving DecidableEq, Repr

namespace MeasurementBasis

def value : MeasurementBasis → String
  | measured => "measured"
  | predicted => "predicted"
  | interpolated => "interpolated"

def members : List MeasurementBasis := [measured, predicted, interpolated]

def isDirect (b : MeasurementBasis) : Bool := b = measured

end MeasurementBasis

inductive ObservabilityStatus where
  | observing | degraded | blind | disconnected
  deriving DecidableEq, Repr

namespace ObservabilityStatus

def value : ObservabilityStatus → String
  | observing => "observing"
  | degraded => "degraded"
  | blind => "blind"
  | disconnected => "disconnected"

def members : List ObservabilityStatus := [observing, degraded, blind, disconnected]

def isObserving (s : ObservabilityStatus) : Bool := s = observing

end ObservabilityStatus

inductive ObservabilityReason where
  | normal
  | streamDisconnected
  | decodeFailing
  | privacyMaskFailed
  | schedulerShedding
  | detectorUnavailable
  | understandingBudgetExhausted
  | sceneObscured
  | calibrationSuspect
  | modelCapabilityGap
  | partitionUnavailable
  | restart
  deriving DecidableEq, Repr

namespace ObservabilityReason

def value : ObservabilityReason → String
  | normal => "normal"
  | streamDisconnected => "stream_disconnected"
  | decodeFailing => "decode_failing"
  | privacyMaskFailed => "privacy_mask_failed"
  | schedulerShedding => "scheduler_shedding"
  | detectorUnavailable => "detector_unavailable"
  | understandingBudgetExhausted => "understanding_budget_exhausted"
  | sceneObscured => "scene_obscured"
  | calibrationSuspect => "calibration_suspect"
  | modelCapabilityGap => "model_capability_gap"
  | partitionUnavailable => "partition_unavailable"
  | restart => "restart"

def members : List ObservabilityReason :=
  [normal, streamDisconnected, decodeFailing, privacyMaskFailed, schedulerShedding,
    detectorUnavailable, understandingBudgetExhausted, sceneObscured, calibrationSuspect,
    modelCapabilityGap, partitionUnavailable, restart]

end ObservabilityReason

inductive LifecycleState where
  | provisional | active | occluded | dormant | departed | mergedInto | expired
  deriving DecidableEq, Repr

namespace LifecycleState

def value : LifecycleState → String
  | provisional => "provisional"
  | active => "active"
  | occluded => "occluded"
  | dormant => "dormant"
  | departed => "departed"
  | mergedInto => "merged_into"
  | expired => "expired"

def members : List LifecycleState :=
  [provisional, active, occluded, dormant, departed, mergedInto, expired]

end LifecycleState

/-- How much to trust the capture instant.  The enum member's value is a pair; the
    label is its first component. -/
inductive ClockQuality where
  | ptpLocked | ntpSynced | rtcpDerived | estimated | unknown
  deriving DecidableEq, Repr

namespace ClockQuality

def label : ClockQuality → String
  | ptpLocked => "ptp_locked"
  | ntpSynced => "ntp_synced"
  | rtcpDerived => "rtcp_derived"
  | estimated => "estimated"
  | unknown => "unknown"

def members : List ClockQuality := [ptpLocked, ntpSynced, rtcpDerived, estimated, unknown]

end ClockQuality

/-! ## Payloads -/

structure AttributeFields where
  key : AttributeKey
  schemaVersion : String
  value : PyValue
  confidence : Confidence
  observedAt : Instant
  producer : Provenance
  validUntil : Option Instant := none
  evidenceRef : Option String := none

def AttributeFields.postInit (a : AttributeFields) : Raises Unit :=
  require (a.confidence.semantics.claimsAttribute = true) (.valueError
    s!"an Attribute must carry ATTRIBUTE or SELF_REPORTED confidence, got {a.confidence.semantics.value} (02_VOM section 9.2)")

/-- One attribute instance, as its constructor accepts it. -/
structure Attribute extends AttributeFields where
  accepted : toAttributeFields.postInit = .ok ()

/-- `Attribute(...)`. -/
def Attribute.construct : AttributeFields → Raises Attribute :=
  constructWith AttributeFields.postInit Attribute.mk

structure CoverageFields where
  status : ObservabilityStatus
  reason : ObservabilityReason
  since : Instant
  effectiveRate : PyFloat := .finite 1
  regionsAffected : List String := []
  capabilityGaps : List (String × String) := []
  untilInstant : Option Instant := none
  deriving DecidableEq, Repr

def CoverageFields.postInit (w : CoverageFields) : Raises Unit := do
  require (w.effectiveRate.inUnit = true)
    (.valueError [.text "effective_rate must be in [0,1], got ", .float w.effectiveRate])
  require (¬ (w.status.isObserving = true ∧ w.reason ≠ .normal)) (.valueError
    s!"status 'observing' cannot carry reason '{w.reason.value}'; a camera that is observing has no observability problem to name")

theorem CoverageFields.postInit_eq_ok {w : CoverageFields} :
    w.postInit = .ok () ↔
      w.effectiveRate.inUnit = true ∧ (w.status = .observing → w.reason = .normal) := by
  simp only [postInit, check_bind_eq_ok, require_eq_ok, ObservabilityStatus.isObserving,
    decide_eq_true_eq]
  tauto

structure CoverageWindow extends CoverageFields where
  accepted : toCoverageFields.postInit = .ok ()
  deriving DecidableEq

/-- `CoverageWindow(...)`. -/
def CoverageWindow.construct : CoverageFields → Raises CoverageWindow :=
  constructWith CoverageFields.postInit CoverageWindow.mk

theorem CoverageWindow.effectiveRate_inUnit (w : CoverageWindow) : w.effectiveRate.inUnit = true :=
  require_eq_ok.mp (check_bind_eq_ok.mp w.accepted).1

def CoverageWindow.isGap (w : CoverageWindow) : Bool := ¬ w.status.isObserving

def addBlind (since untilInstant : Instant) (blind : Int) (w : CoverageWindow) : Int :=
  if w.isGap then
    let start := max w.since.ns since.ns
    let finish := min (w.untilInstant.getD untilInstant).ns untilInstant.ns
    blind + max 0 (finish - start)
  else blind

/-- `coverage_gap`'s loop: the nanoseconds of a query that the gap windows take, summed. -/
def coverageBlind (windows : List CoverageWindow) (since untilInstant : Instant) : Int :=
  windows.foldl (addBlind since untilInstant) 0

/-- `max(0.0, min(1.0, 1.0 - blind / span))`. -/
def observableOf (blind span : Int) : PyFloat :=
  .pyMax (.finite 0) (.pyMin (.finite 1) ((PyFloat.finite 1).sub (.ofRatio blind span)))

/-- `coverage_gap`: the fraction of a query that was observable. -/
def coverageGap (windows : List CoverageWindow) (since untilInstant : Instant) : PyFloat :=
  observableOf (coverageBlind windows since untilInstant) (max 1 (untilInstant.ns - since.ns))

structure TransitionFields where
  previous : LifecycleState
  current : LifecycleState
  trigger : String := ""
  deriving DecidableEq, Repr

def TransitionFields.postInit (t : TransitionFields) : Raises Unit :=
  require (t.previous ≠ t.current) (.valueError
    s!"a lifecycle observation must record a change; '{t.current.value}' to itself is not a transition")

structure LifecycleTransition extends TransitionFields where
  accepted : toTransitionFields.postInit = .ok ()
  deriving DecidableEq

/-- `LifecycleTransition(...)`. -/
def LifecycleTransition.construct : TransitionFields → Raises LifecycleTransition :=
  constructWith TransitionFields.postInit LifecycleTransition.mk

structure IdentityFields where
  bindingId : String
  method : String := ""
  ambiguous : Bool := false
  alternatives : Int := 0
  deriving DecidableEq, Repr

def IdentityFields.postInit (a : IdentityFields) : Raises Unit :=
  require (¬ (a.ambiguous = true ∧ a.alternatives < 1)) (.valueError
    "an ambiguous assertion must name how many alternatives it declined to choose between; ambiguity with no alternatives is not ambiguity")

structure IdentityAssertionRef extends IdentityFields where
  accepted : toIdentityFields.postInit = .ok ()
  deriving DecidableEq

structure EvidenceFields where
  evidenceId : EvidenceId
  status : String := "stored"
  cropRef : Option CropId := none
  rawOutputRef : Option String := none
  retention : String := "evidence"
  deriving DecidableEq, Repr

def EvidenceFields.postInit (e : EvidenceFields) : Raises Unit := do
  require (e.evidenceId ≠ "") (.valueError "an evidence reference requires an id")
  require (e.status ∈ ["stored", "pending", "unavailable"]) (.valueError
    s!"unknown evidence status '{e.status}'; the three states are stored, pending and unavailable, and each means something different to a consumer trying to retrieve it")

structure EvidenceRef extends EvidenceFields where
  accepted : toEvidenceFields.postInit = .ok ()
  deriving DecidableEq

/-- `EvidenceRef(...)`. -/
def EvidenceRef.construct : EvidenceFields → Raises EvidenceRef :=
  constructWith EvidenceFields.postInit EvidenceRef.mk

inductive QualityLevel where
  | excellent | good | marginal | insufficient
  deriving DecidableEq, Repr

/-- The grades of a quality observation; only their verdict is read. -/
structure QualityGrades where
  overall : Option QualityLevel := none
  deriving DecidableEq, Repr

/-! ## The envelope -/

def observationSchemaVersion : String := "1.0.0"

structure ObservationFields where
  observationId : ObservationId
  observationType : ObservationType
  tenantId : TenantId
  siteId : SiteId
  cameraId : CameraId
  frameRef : FrameRef
  tCapture : Instant
  tCaptureUnc : Duration
  clockQuality : ClockQuality
  tPublished : Instant
  provenance : Provenance
  objectId : Option ObjectId := none
  classId : Option ClassId := none
  taxonomyVersion : String := ""
  lifecycleState : Option LifecycleState := none
  confidence : Option Confidence := none
  spatial : Option SpatialInfo := none
  attributes : List Attribute := []
  measurementBasis : MeasurementBasis := .measured
  quality : Option QualityGrades := none
  coverage : Option CoverageWindow := none
  lifecycleTransition : Option LifecycleTransition := none
  identity : Option IdentityAssertionRef := none
  evidenceRef : Option EvidenceRef := none
  lineage : List ObservationId := []
  supersedes : Option ObservationId := none
  demandIds : List DemandId := []
  schemaVersion : String := observationSchemaVersion

def ObservationFields.checkObjectPayload (o : ObservationFields) : Raises Unit := do
  require (¬ (o.observationType = .lifecycle ∧ o.lifecycleTransition = none))
    (.valueError "a lifecycle observation must carry its transition")
  require (¬ (o.observationType = .identity ∧ o.identity = none))
    (.valueError "an identity observation must carry its assertion")
  require (¬ (o.observationType = .attributes ∧ o.attributes.isEmpty)) (.valueError
    "an attribute observation with no attributes says nothing; 'the model produced nothing' is not published as a fact — it is an understanding outcome (04_MODULES section M9)")
  require (¬ (o.observationType = .quality ∧ o.quality = none))
    (.valueError "a quality observation must carry its grades")
  require (¬ ((o.observationType = .presence ∨ o.observationType = .spatial) ∧
      o.spatial = none))
    (.valueError s!"a '{o.observationType.value}' observation must carry spatial information")

def ObservationFields.checkTypePayload (o : ObservationFields) : Raises Unit := do
  require (¬ (o.observationType.concernsAnObject = true ∧ o.objectId = none)) (.valueError
    s!"a '{o.observationType.value}' observation must name its object; only coverage is a statement about the platform rather than about something seen")
  if o.observationType = .coverage then
    require (o.coverage ≠ none)
      (.valueError "a coverage observation must carry a coverage window")
    require (o.objectId = none) (.valueError
      "a coverage observation describes the platform's ability to see, not an object; attaching one would make a blindness report look like a sighting")
  else
    o.checkObjectPayload

def ObservationFields.checkAttributes (o : ObservationFields) : Raises Unit :=
  match o.attributes.find? (fun a => !a.confidence.semantics.claimsAttribute) with
  | none => .ok ()
  | some a => .error (.valueError
      s!"attribute '{a.key}' carries {a.confidence.semantics.value} confidence; an attribute claim must carry ATTRIBUTE or SELF_REPORTED (02_VOM section 9.2)")

def ObservationFields.postInit (o : ObservationFields) : Raises Unit := do
  require (o.observationId ≠ "") (.valueError "an observation requires an id")
  require (o.provenance.producerModule ≠ "") (.valueError
    "an observation without a producer module cannot be audited; an unexplainable observation is worse than no observation (04_MODULES section M11)")
  require (o.provenance.configRevision ≠ "") (.valueError
    "an observation without a config revision is not reproducible (invariant V4)")
  require (o.frameRef.cameraId = o.cameraId) (.valueError
    s!"observation claims camera {o.cameraId} but its frame is from {o.frameRef.cameraId}; a fact must be traceable to the instant it describes")
  require (¬ o.tCaptureUnc.ns < 0) (.valueError "capture uncertainty cannot be negative")
  o.checkTypePayload
  o.checkAttributes
  require (o.supersedes ≠ some o.observationId)
    (.valueError "an observation cannot supersede itself")
  require (o.observationId ∉ o.lineage) (.valueError
    "an observation cannot be its own ancestor; a lineage cycle makes provenance unresolvable")

structure Observation extends ObservationFields where
  accepted : toObservationFields.postInit = .ok ()

/-- `Observation(...)`. -/
def Observation.construct : ObservationFields → Raises Observation :=
  constructWith ObservationFields.postInit Observation.mk

def Observation.isMeasured (o : Observation) : Bool := o.measurementBasis.isDirect

structure ObservationFields.PayloadPresent (o : ObservationFields) : Prop where
  object : o.observationType ≠ .coverage → o.objectId ≠ none
  coverage : o.observationType = .coverage → o.coverage ≠ none ∧ o.objectId = none
  lifecycle : o.observationType = .lifecycle → o.lifecycleTransition ≠ none
  identity : o.observationType = .identity → o.identity ≠ none
  attributes : o.observationType = .attributes → o.attributes ≠ []
  quality : o.observationType = .quality → o.quality ≠ none
  spatial : o.observationType = .presence ∨ o.observationType = .spatial → o.spatial ≠ none

variable {o : ObservationFields}

theorem ObservationFields.checkTypePayload_eq_ok :
    o.checkTypePayload = .ok () ↔ o.PayloadPresent := by
  unfold checkTypePayload checkObjectPayload
  rw [check_bind_eq_ok, require_eq_ok]
  by_cases hcov : o.observationType = .coverage
  · simp only [hcov, if_true, check_bind_eq_ok, require_eq_ok]
    constructor
    · rintro ⟨-, hwindow, hobject⟩
      refine ⟨?_, ?_, ?_, ?_, ?_, ?_, ?_⟩ <;> simp_all
    · intro h
      have hc := h.coverage hcov
      simp [ObservationType.concernsAnObject, hc]
  · simp only [hcov, if_false, check_bind_eq_ok, require_eq_ok,
      ObservationType.concernsAnObject, List.isEmpty_iff]
    constructor
    · rintro ⟨hobject, hl, hi, ha, hq, hs⟩
      refine ⟨?_, ?_, ?_, ?_, ?_, ?_, ?_⟩ <;> simp_all
    · intro h
      have h1 := h.object hcov
      have h2 := h.lifecycle
      have h3 := h.identity
      have h4 := h.attributes
      have h5 := h.quality
      have h6 := h.spatial
      simp_all

theorem ObservationFields.postInit_eq_ok :
    o.postInit = .ok () ↔
      o.observationId ≠ "" ∧ o.frameRef.cameraId = o.cameraId ∧ 0 ≤ o.tCaptureUnc.ns ∧
      o.PayloadPresent ∧ o.supersedes ≠ some o.observationId ∧
      o.observationId ∉ o.lineage := by
  have hprov := ProvenanceFields.postInit_eq_ok.mp o.provenance.accepted
  have hattrs : o.checkAttributes = .ok () := by
    unfold checkAttributes
    have hnone : o.attributes.find? (fun a => !a.confidence.semantics.claimsAttribute) = none := by
      rw [List.find?_eq_none]
      intro a _
      simp [require_eq_ok.mp a.accepted]
    rw [hnone]
  unfold postInit
  simp only [check_bind_eq_ok, require_eq_ok, checkTypePayload_eq_ok, hattrs, not_lt]
  tauto

theorem Observation.payload (o : Observation) : o.toObservationFields.PayloadPresent :=
  (ObservationFields.postInit_eq_ok.mp o.accepted).2.2.2.1

/-- A coverage observation: the camera cannot see, from the given instant on. -/
def blindnessReport (observationId : ObservationId) (cameraId : CameraId) (since : Instant)
    (hid : observationId ≠ "") : Observation where
  observationId
  observationType := .coverage
  tenantId := "tenant"
  siteId := "site"
  cameraId
  frameRef := { cameraId, streamEpoch := 0, frameSeq := 0, accepted := rfl }
  tCapture := since
  tCaptureUnc := ⟨0⟩
  clockQuality := .ntpSynced
  tPublished := since
  provenance := {
    producerModule := "observation_builder"
    producerVersion := "1.0.0"
    configRevision := "revision"
    accepted := rfl }
  coverage := some {
    status := .blind, reason := .restart, since
    accepted := CoverageFields.postInit_eq_ok.mpr ⟨PyFloat.one_inUnit, by simp⟩ }
  accepted := ObservationFields.postInit_eq_ok.mpr
    ⟨hid, rfl, le_refl 0, by constructor <;> simp, by simp, by simp⟩

end VisionOs.Core
