/-
  The observation builder.  The ids that `new_ulid` mints and the instants of publication come in
  as stamps.  Metrics, events and the builders that the runtime does not call are left out.
-/
import VisionOs.Synthesis.Gate
import VisionOs.Synthesis.Suppression
import VisionOs.Understanding.Model

namespace VisionOs.Core

def ClockQuality.typicalUncertaintyMs : ClockQuality → Int
  | .ptpLocked => 1
  | .ntpSynced => 10
  | .rtcpDerived => 50
  | .estimated => 500
  | .unknown => 5000

end VisionOs.Core

namespace VisionOs.Synthesis

open Core Understanding

/-- What an envelope is stamped with: the id minted for it, and when it was published. -/
structure Stamp where
  observationId : ObservationId
  tPublished : Instant
  observationId_ne_empty : observationId ≠ ""

structure BuildContextFields where
  cameraId : CameraId
  tenantId : TenantId
  siteId : SiteId
  frameRef : FrameRef
  tCapture : Instant
  tCaptureUnc : Duration := ⟨0⟩
  clockQuality : ClockQuality := .unknown
  taxonomyVersion : String := ""

def BuildContextFields.postInit (c : BuildContextFields) : Raises Unit :=
  require (c.frameRef.cameraId = c.cameraId)
    (.valueError "a build context must name the frame's own camera")

structure BuildContext extends BuildContextFields where
  accepted : toBuildContextFields.postInit = .ok ()

/-- `BuildContext(...)`. -/
def BuildContext.construct : BuildContextFields → Raises BuildContext :=
  constructWith BuildContextFields.postInit BuildContext.mk

/-- A result with the rest of its receipt: what the observation made of it names. -/
structure AnsweredResult extends UnderstandingResult where
  provenance : Provenance
  evidenceId : EvidenceId
  rawOutputRef : Option String := none
  retention : String := "evidence"
  totalMs : PyFloat := .finite 0
  evidenceId_ne_empty : evidenceId ≠ ""
  totalMs_nonneg : totalMs.lt (.finite 0) = false

/-- What an envelope holds beyond its subject and its moment: `_envelope`'s keyword
    arguments, with their defaults. -/
structure Content where
  confidence : Option Confidence := none
  spatial : Option SpatialInfo := none
  attributes : List Attribute := []
  basis : MeasurementBasis := .measured
  evidenceRef : Option EvidenceRef := none
  totalMs : PyFloat := .round (1 / 100)
  provenance : Option Provenance := none
  lifecycleTransition : Option LifecycleTransition := none
  demandIds : List DemandId := []

structure ObservationBuilder where
  gate : CeilingGate
  policy : SuppressionPolicy
  tools : DigestTools
  provenance : Provenance
  heartbeatMs : Int
  suppressionCapacity : Nat
  heartbeatMs_pos : 0 < heartbeatMs
  suppressionCapacity_pos : 1 ≤ suppressionCapacity

namespace ObservationBuilder

def uncertainty (c : BuildContext) : Duration :=
  let floor : Duration := ⟨c.clockQuality.typicalUncertaintyMs * 1000000⟩
  if c.tCaptureUnc.ns > floor.ns then c.tCaptureUnc else floor

theorem uncertainty_nonneg (c : BuildContext) : 0 ≤ (uncertainty c).ns := by
  have hfloor : 0 ≤ c.clockQuality.typicalUncertaintyMs * 1000000 := by
    cases c.clockQuality <;> decide
  unfold uncertainty
  dsimp only
  split
  · omega
  · exact hfloor

def envelopeFields (b : ObservationBuilder) (stamp : Stamp) (kind : ObservationType)
    (obj : VisualObject) (c : BuildContext) (content : Content) : ObservationFields where
  observationId := stamp.observationId
  observationType := kind
  tenantId := obj.tenantId
  siteId := obj.siteId
  cameraId := c.cameraId
  frameRef := c.frameRef
  tCapture := c.tCapture
  tCaptureUnc := uncertainty c
  clockQuality := c.clockQuality
  tPublished := stamp.tPublished
  provenance := content.provenance.getD b.provenance
  objectId := some obj.objectId
  classId := some obj.classId
  taxonomyVersion := c.taxonomyVersion
  lifecycleState := some obj.lifecycle
  confidence := content.confidence
  spatial := content.spatial
  attributes := content.attributes
  measurementBasis := content.basis
  evidenceRef := content.evidenceRef
  lifecycleTransition := content.lifecycleTransition
  demandIds := content.demandIds

def envelope (b : ObservationBuilder) (stamp : Stamp) (kind : ObservationType)
    (obj : VisualObject) (c : BuildContext) (content : Content) : Raises Candidate := do
  let o ← Observation.construct (b.envelopeFields stamp kind obj c content)
  return { toObservation := o, totalMs := content.totalMs }

/-- `_admit`: ask the policy whether this says anything new, and note what is published.  The
    policy's signature may raise, and the candidate is then lost. -/
def admits (b : ObservationBuilder) (s : CameraSuppressionState) (o : Observation) :
    Raises Bool × CameraSuppressionState :=
  let key := subjectKey o
  let previous := s.last key
  let elapsed : Duration := ⟨previous.elim 0 fun p => max 0 (o.tCapture.ns - p.publishedAt.ns)⟩
  let heartbeat : Duration := ⟨b.heartbeatMs * 1000000⟩
  match b.policy.shouldPublish b.tools o (previous.map (·.signature)) elapsed heartbeat with
  | .error exc => (.error exc, s)
  | .ok decision =>
    if decision.publish then
      match b.policy.signature b.tools o with
      | .error exc => (.error exc, s)
      | .ok signature => (.ok true, s.record b.suppressionCapacity key signature o)
    else
      (.ok false, { s with suppressed := s.suppressed ++ [o] })

def refusal (c : Candidate) (r : ValidationResult) : Message :=
  (s!"observation for camera '{c.cameraId}' was refused: " : Message) ++
    (((r.envelopeViolations.take 3).map (·.detail)).intersperse ("; " : Message)).flatten

/-- `_finish`: validate, then suppress. -/
def finish (b : ObservationBuilder) (s : CameraSuppressionState) (c : Candidate) :
    Raises (Option Observation) × CameraSuppressionState :=
  match b.gate.validate c with
  | .error exc => (.error exc, s)
  | .ok r =>
    if r.envelopeViolations ≠ [] then (.error (.validationFailedError (refusal c r)), s)
    else
      match r.observation with
      | none => (.ok none, s)
      | some o =>
        match b.admits s o with
        | (.error exc, s) => (.error exc, s)
        | (.ok true, s) => (.ok (some o), s)
        | (.ok false, s) => (.ok none, s)

/-- `_envelope`, then `_finish`. -/
def publish (b : ObservationBuilder) (s : CameraSuppressionState) (candidate : Raises Candidate) :
    Raises (Option Observation) × CameraSuppressionState :=
  match candidate with
  | .error exc => (.error exc, s)
  | .ok c => b.finish s c

def buildPresence (b : ObservationBuilder) (stamp : Stamp) (s : CameraSuppressionState)
    (obj : VisualObject) (c : BuildContext) (basis : MeasurementBasis) :
    Raises (Option Observation) × CameraSuppressionState :=
  b.publish s (b.envelope stamp .presence obj c
    { confidence := some obj.confidence, spatial := some obj.currentSpatial, basis })

def buildSpatial (b : ObservationBuilder) (stamp : Stamp) (s : CameraSuppressionState)
    (obj : VisualObject) (c : BuildContext) (basis : MeasurementBasis) :
    Raises (Option Observation) × CameraSuppressionState :=
  b.publish s (b.envelope stamp .spatial obj c
    { confidence := some obj.confidence, spatial := some obj.currentSpatial, basis })

def buildLifecycle (b : ObservationBuilder) (stamp : Stamp) (s : CameraSuppressionState)
    (obj : VisualObject) (transition : LifecycleTransition) (c : BuildContext) :
    Raises (Option Observation) × CameraSuppressionState :=
  b.publish s (b.envelope stamp .lifecycle obj c
    { confidence := some obj.confidence, lifecycleTransition := some transition })

def evidenceRef (r : AnsweredResult) : EvidenceRef where
  evidenceId := r.evidenceId
  status := "stored"
  cropRef := r.evidence.cropRef
  rawOutputRef := r.rawOutputRef
  retention := r.retention
  accepted := check_bind_eq_ok.mpr
    ⟨require_eq_ok.mpr r.evidenceId_ne_empty, require_eq_ok.mpr (by simp)⟩

def buildAttribute (b : ObservationBuilder) (stamp : Stamp) (s : CameraSuppressionState)
    (obj : VisualObject) (r : AnsweredResult) (c : BuildContext) :
    Raises (Option Observation) × CameraSuppressionState :=
  if r.outcome ≠ .succeeded then (.ok none, s)
  else
    b.publish s (b.envelope stamp .attributes obj c
      { attributes := r.attributes
        evidenceRef := some (evidenceRef r)
        totalMs := r.totalMs
        provenance := some r.provenance
        demandIds := r.demandIds })

/-! ## What is published -/

variable {b : ObservationBuilder} {s : CameraSuppressionState} {o : Observation}

/-- What `_admit` does with an observation that can be signed: it is noted, or it was said last
    of its subject and is held back. -/
inductive Admission (b : ObservationBuilder) (s : CameraSuppressionState) (o : Observation)
    (signature : String) : Raises Bool × CameraSuppressionState → Prop
  | noted : Admission b s o signature
      (.ok true, s.record b.suppressionCapacity (subjectKey o) signature o)
  | held (last : PublishedSignature) (htype : o.observationType ∉ alwaysPublish)
      (hlast : s.last (subjectKey o) = some last) (hsame : last.signature = signature)
      (hearly : o.tCapture.ns - last.publishedAt.ns < b.heartbeatMs * 1000000) :
      Admission b s o signature (.ok false, { s with suppressed := s.suppressed ++ [o] })

variable {signature : String}

theorem admits_signed (s : CameraSuppressionState)
    (h : b.policy.signature b.tools o = .ok signature) :
    Admission b s o signature (b.admits s o) := by
  unfold admits
  dsimp only
  obtain ⟨d, hd, hheld⟩ := SuppressionPolicy.shouldPublish_of_signature h
    ((s.last (subjectKey o)).map (·.signature))
    ⟨(s.last (subjectKey o)).elim 0 fun p => max 0 (o.tCapture.ns - p.publishedAt.ns)⟩
    ⟨b.heartbeatMs * 1000000⟩
  rw [hd]
  dsimp only
  rcases hpublish : d.publish with _ | _
  · rw [if_neg Bool.false_ne_true]
    obtain ⟨hsame, htype, hearly⟩ := hheld hpublish
    obtain ⟨last, hlast, hsignature⟩ := Option.map_eq_some_iff.mp hsame
    rw [hlast] at hearly
    exact .held last htype hlast hsignature ((le_max_right 0 _).trans_lt hearly)
  · rw [if_pos rfl, h]
    exact .noted

variable {exc : PyException}

/-- An observation without a signature is lost, and the memory stays as it was. -/
theorem admits_unsigned (s : CameraSuppressionState)
    (h : b.policy.signature b.tools o = .error exc) :
    ∃ exc', b.admits s o = (.error exc', s) := by
  unfold admits
  dsimp only
  split
  · exact ⟨_, rfl⟩
  · rename_i d hd
    rw [if_pos (SuppressionPolicy.publishes_of_unsigned h hd), h]
    exact ⟨exc, rfl⟩

variable {c : Candidate} {r : ValidationResult}

theorem finish_passed (s : CameraSuppressionState)
    (hgate : b.gate.validate c = .ok r)
    (henvelope : r.envelopeViolations = []) (ho : r.observation = some o) :
    b.finish s c = ((b.admits s o).1.map fun publish => if publish then some o else none,
      (b.admits s o).2) := by
  unfold finish
  rw [hgate]
  dsimp only
  rw [if_neg (not_not.mpr henvelope), ho]
  dsimp only
  rcases b.admits s o with ⟨exc | publish, s'⟩
  · rfl
  · cases publish <;> rfl

/-- What passed the gate and can be signed is admitted: noted and published, or held back. -/
theorem finish_signed (s : CameraSuppressionState)
    (hgate : b.gate.validate c = .ok r)
    (henvelope : r.envelopeViolations = []) (ho : r.observation = some o)
    (hsignature : b.policy.signature b.tools o = .ok signature) :
    ∃ publish s', Admission b s o signature (.ok publish, s') ∧
      b.finish s c = (.ok (if publish then some o else none), s') := by
  have hadmits := admits_signed s hsignature
  rw [finish_passed s hgate henvelope ho]
  generalize b.admits s o = out at hadmits ⊢
  cases hadmits with
  | noted => exact ⟨true, _, .noted, rfl⟩
  | held last htype hlast hsame hearly =>
    exact ⟨false, _, .held last htype hlast hsame hearly, rfl⟩

/-- What passed the gate and cannot be signed is lost. -/
theorem finish_unsigned (s : CameraSuppressionState)
    (hgate : b.gate.validate c = .ok r)
    (henvelope : r.envelopeViolations = []) (ho : r.observation = some o)
    (h : b.policy.signature b.tools o = .error exc) :
    ∃ exc', b.finish s c = (.error exc', s) := by
  obtain ⟨exc', hadmits⟩ := admits_unsigned s h
  rw [finish_passed s hgate henvelope ho, hadmits]
  exact ⟨exc', rfl⟩

theorem finish_plain (hattributes : c.attributes = []) (htype : c.observationType ≠ .attributes) :
    (∃ message, b.finish s c = (.error (.validationFailedError message), s)) ∨
    ∃ signature, b.policy.signature b.tools c.toObservation = .ok signature ∧
      ∃ publish s', Admission b s c.toObservation signature (.ok publish, s') ∧
        b.finish s c = (.ok (if publish then some c.toObservation else none), s') := by
  have hvalidate := @CeilingGate.validate_plain b.gate c hattributes htype
  by_cases henvelope : b.gate.checkEnvelope c = []
  · right
    rw [if_neg (not_not.mpr henvelope)] at hvalidate
    obtain ⟨signature, hsignature⟩ := @SuppressionPolicy.signature_returns_iff b.tools b.policy
      c.toObservation |>.mpr fun a ha => by rw [hattributes] at ha; cases ha
    exact ⟨signature, hsignature, finish_signed s hvalidate rfl rfl hsignature⟩
  left
  rw [if_pos henvelope] at hvalidate
  unfold finish
  rw [hvalidate]
  have hviolations : ({ violations := b.gate.checkEnvelope c } :
      ValidationResult).envelopeViolations ≠ [] := by
    unfold ValidationResult.envelopeViolations
    rw [List.filter_eq_self.mpr fun v hv => CeilingGate.checkEnvelope_rejects hv]
    exact henvelope
  dsimp only
  rw [if_pos hviolations]
  exact ⟨_, rfl⟩

theorem finish_cases (b : ObservationBuilder) (s : CameraSuppressionState) (c : Candidate) :
    (∃ answer, b.finish s c = (answer, s) ∧ ∀ o, answer ≠ .ok (some o)) ∨
    ∃ o signature, CeilingGate.Narrowed c.toObservation o ∧
      b.policy.signature b.tools o = .ok signature ∧
      ∃ publish s', Admission b s o signature (.ok publish, s') ∧
        b.finish s c = (.ok (if publish then some o else none), s') := by
  rcases hgate : b.gate.validate c with exc | r
  · left
    unfold finish
    rw [hgate]
    exact ⟨_, rfl, by simp⟩
  by_cases henvelope : r.envelopeViolations = []
  · rcases ho : r.observation with _ | o
    · left
      unfold finish
      rw [hgate]
      dsimp only
      rw [if_neg (not_not.mpr henvelope), ho]
      exact ⟨_, rfl, by simp⟩
    · rcases hsignature : b.policy.signature b.tools o with exc | signature
      · left
        obtain ⟨exc', hlost⟩ := finish_unsigned s hgate henvelope ho hsignature
        exact ⟨_, hlost, by simp⟩
      · right
        exact ⟨o, signature, CeilingGate.narrowed_of_validate hgate ho, hsignature,
          finish_signed s hgate henvelope ho hsignature⟩
  · left
    unfold finish
    rw [hgate]
    dsimp only
    rw [if_pos henvelope]
    exact ⟨_, rfl, by simp⟩

variable {s' : CameraSuppressionState}

theorem finish_published (h : b.finish s c = (.ok (some o), s')) :
    CeilingGate.Narrowed c.toObservation o := by
  rcases b.finish_cases s c with ⟨answer, hanswer, hnone⟩ |
    ⟨o', signature, hnarrowed, -, publish, s'', -, hfinish⟩
  · rw [hanswer] at h
    exact absurd (congrArg Prod.fst h) (hnone o)
  rw [hfinish] at h
  cases publish
  · cases h
  · cases h
    exact hnarrowed

theorem publish_published {stamp : Stamp} {kind : ObservationType}
    {obj : VisualObject} {c : BuildContext} {content : Content}
    (h : b.publish s (b.envelope stamp kind obj c content) = (.ok (some o), s')) :
    ∃ kept, o.toObservationFields =
      { b.envelopeFields stamp kind obj c content with attributes := kept } := by
  unfold publish at h
  split at h
  · cases h
  · rename_i candidate henvelope
    obtain ⟨made, hmade, hcandidate⟩ := bind_eq_ok.mp henvelope
    cases hcandidate
    obtain ⟨haccepted, rfl⟩ := constructWith_eq_ok_iff.mp hmade
    obtain ⟨kept, hkept⟩ := finish_published h
    exact ⟨kept, hkept⟩

end ObservationBuilder

end VisionOs.Synthesis
