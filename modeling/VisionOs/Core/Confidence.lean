/-
  Confidences and provenance: a score with what it means, and who asserted a
  value with what.  Both carry the proof that their constructor accepted them.
-/
import VisionOs.Core.Ids

namespace VisionOs.Core

inductive ConfidenceSemantics where
  | detectionPresence | classification | association | identity | attributeClaim | selfReported
  deriving DecidableEq, Repr

namespace ConfidenceSemantics

def value : ConfidenceSemantics → String
  | detectionPresence => "detection_presence"
  | classification => "classification"
  | association => "association"
  | identity => "identity"
  | attributeClaim => "attribute"
  | selfReported => "self_reported"

def members : List ConfidenceSemantics :=
  [detectionPresence, classification, association, identity, attributeClaim, selfReported]

def claimsAttribute (s : ConfidenceSemantics) : Bool := s = attributeClaim || s = selfReported

end ConfidenceSemantics

structure ConfidenceFields where
  value : PyFloat
  semantics : ConfidenceSemantics
  calibrated : Bool := false
  calibrationId : Option CalibrationId := none
  rawScore : Option PyFloat := none
  deriving DecidableEq, Repr

def ConfidenceFields.postInit (c : ConfidenceFields) : Raises Unit := do
  require (c.value.inUnit = true)
    (.valueError [.text "confidence must be in [0,1], got ", .float c.value])
  require (¬ (c.calibrated = true ∧ c.calibrationId = none))
    (.valueError "a calibrated confidence must name the calibration applied")
  match c.rawScore with
  | none => .ok ()
  | some raw =>
    require (raw.inUnit = true)
      (.valueError [.text "raw_score must be in [0,1], got ", .float raw])

structure Confidence extends ConfidenceFields where
  accepted : toConfidenceFields.postInit = .ok ()
  deriving DecidableEq

/-- `Confidence(...)`. -/
def Confidence.construct : ConfidenceFields → Raises Confidence :=
  constructWith ConfidenceFields.postInit Confidence.mk

theorem Confidence.value_inUnit (c : Confidence) : c.value.inUnit = true :=
  require_eq_ok.mp (check_bind_eq_ok.mp c.accepted).1

theorem ConfidenceFields.postInit_uncalibrated {value : PyFloat}
    (semantics : ConfidenceSemantics) (h : value.inUnit = true) :
    ConfidenceFields.postInit
      { value := value, semantics := semantics, rawScore := some value } = .ok () := by
  simp [postInit, h, check_bind_eq_ok, require_eq_ok]

/-- `Confidence.uncalibrated(0.5, ConfidenceSemantics.IDENTITY)`. -/
def Confidence.defaultIdentity : Confidence where
  value := .finite (1 / 2)
  semantics := .identity
  rawScore := some (.finite (1 / 2))
  accepted := ConfidenceFields.postInit_uncalibrated .identity (by decide +kernel)

structure ProvenanceFields where
  producerModule : String
  producerVersion : String
  configRevision : String
  adapterId : Option String := none
  adapterVersion : Option String := none
  modelId : Option String := none
  modelVersion : Option String := none
  modelArtifactHash : Option String := none
  deterministic : Bool := false
  deriving DecidableEq, Repr

def ProvenanceFields.postInit (p : ProvenanceFields) : Raises Unit := do
  require (p.producerModule ≠ "") (.valueError "provenance requires a producer_module")
  require (p.configRevision ≠ "") (.valueError
    "provenance requires a config_revision; without it no result is reproducible (invariant V4)")
  match p.modelId with
  | none => .ok ()
  | some modelId =>
    require (p.modelArtifactHash ≠ none) (.valueError
      s!"model '{modelId}' named without its artifact hash; the exact weights that produced a result are mandatory (invariant V4)")

structure Provenance extends ProvenanceFields where
  accepted : toProvenanceFields.postInit = .ok ()
  deriving DecidableEq

/-- `Provenance(...)`. -/
def Provenance.construct : ProvenanceFields → Raises Provenance :=
  constructWith ProvenanceFields.postInit Provenance.mk

theorem ProvenanceFields.postInit_eq_ok {p : ProvenanceFields} :
    p.postInit = .ok () ↔ p.producerModule ≠ "" ∧ p.configRevision ≠ "" ∧
      (p.modelId ≠ none → p.modelArtifactHash ≠ none) := by
  unfold postInit
  rw [check_bind_eq_ok, check_bind_eq_ok, require_eq_ok, require_eq_ok]
  cases p.modelId with
  | none => simp
  | some modelId => simp [require_eq_ok]

end VisionOs.Core
