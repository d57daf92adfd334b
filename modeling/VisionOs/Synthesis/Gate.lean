/-
  The final gate of the observation builder.  An incomplete envelope refuses the
  whole candidate; an attribute the registry does not hold is dropped from it.
  What passes is the candidate with some of its attributes.
-/
import VisionOs.Core.Observation
import VisionOs.Registry.Attributes

namespace VisionOs.Synthesis

open Core Registry List

structure TaxonomyView where
  version : String := ""
  classes : List ClassId := []

def TaxonomyView.knows (t : TaxonomyView) (classId : ClassId) : Bool :=
  t.classes.isEmpty || t.classes.any (classMatches classId)

/-- Why an observation, or part of one, was refused. -/
inductive ViolationKind where
  | unregisteredAttribute
  | deprecatedAttribute
  | attributeNotApplicable
  | attributeValueInvalid
  | wrongConfidenceSemantics
  | missingProvenance
  | missingTiming
  | missingEvidence
  | missingMeasurementBasis
  | taxonomyVersionMismatch
  | unregisteredClass
  deriving DecidableEq, Repr

namespace ViolationKind

def rejectsTheEnvelope : ViolationKind → Bool
  | missingProvenance | missingTiming | missingEvidence | missingMeasurementBasis
  | taxonomyVersionMismatch | unregisteredClass => true
  | _ => false

end ViolationKind

structure Violation where
  kind : ViolationKind
  detail : Message
  fieldName : String := ""

structure Candidate extends Observation where
  totalMs : PyFloat

structure ValidationResult where
  observation : Option Observation := none
  violations : List Violation := []
  droppedAttributes : List AttributeKey := []

def ValidationResult.envelopeViolations (r : ValidationResult) : List Violation :=
  r.violations.filter (·.kind.rejectsTheEnvelope)

structure CeilingGate where
  registry : AttributeRegistry := {}
  taxonomy : TaxonomyView := {}
  tools : TextTools

namespace CeilingGate

def checkClaim (c : Candidate) : List Violation :=
  (if c.evidenceRef.isNone then
    [{ kind := .missingEvidence
       detail := "an attribute observation must reference the evidence behind its claims; a claim that cannot name the pixels it rests on is not auditable (V4)" }]
  else []) ++
  (if c.totalMs.le (.finite 0) then
    [{ kind := .missingTiming
       detail := "an attribute observation must carry timing; without it a cost or latency question about this fact is unanswerable" }]
  else [])

def checkClass (gate : CeilingGate) (c : Candidate) : List Violation :=
  match c.classId with
  | none => []
  | some classId =>
    if gate.taxonomy.knows classId then []
    else [{
      kind := .unregisteredClass
      detail := s!"class '{classId}' is not in the declared taxonomy; publishing it would put a class in the record that no consumer can resolve"
      fieldName := classId }]

def checkEnvelope (gate : CeilingGate) (c : Candidate) : List Violation :=
  (if c.observationType = .attributes then checkClaim c else []) ++
  gate.checkClass c ++
  (if gate.taxonomy.version ≠ "" ∧ c.taxonomyVersion ≠ "" ∧
      c.taxonomyVersion ≠ gate.taxonomy.version then
    [{ kind := .taxonomyVersionMismatch
       detail := s!"observation declares taxonomy {c.taxonomyVersion} but this site runs {gate.taxonomy.version}; this indicates a partial deployment and must be loud (04_MODULES section M11)" }]
  else [])

def rejectReason (gate : CeilingGate) (a : Attribute) (classId : Option ClassId) :
    Raises (Option Violation) :=
  match gate.registry.get a.key with
  | none => .ok (some {
      kind := .unregisteredAttribute
      detail := s!"attribute '{a.key}' is not in the Attribute Schema Registry; a key the registry does not hold has not passed the neutrality gate (00_CHARTER section 4.3)"
      fieldName := a.key })
  | some schema =>
    if schema.status ≠ .active then
      .ok (some {
        kind := .deprecatedAttribute
        detail := s!"attribute '{a.key}' is deprecated and no longer published"
        fieldName := a.key })
    else if classId.any (fun c => !gate.registry.applies a.key c) then
      .ok (some {
        kind := .attributeNotApplicable
        detail :=
          let named := classId.getD ""
          s!"attribute '{a.key}' does not apply to class '{named}'"
        fieldName := a.key })
    else do
      match ← schema.accepts gate.tools a.value with
      | some problem => return some {
          kind := .attributeValueInvalid
          detail := (s!"attribute '{a.key}': " : Message) ++ problem
          fieldName := a.key }
      | none =>
        return if a.confidence.semantics.claimsAttribute then none
          else some {
            kind := .wrongConfidenceSemantics
            detail := s!"attribute '{a.key}' carries {a.confidence.semantics.value} confidence; a detector's objectness score answers a different question from an attribute claim, and the two are not comparable (02_VOM section 7.2)"
            fieldName := a.key }

def filterAttributes (gate : CeilingGate) (classId : Option ClassId) :
    List Attribute → Raises (List Attribute × List AttributeKey × List Violation)
  | [] => .ok ([], [], [])
  | a :: rest => do
    match ← gate.rejectReason a classId with
    | none =>
      let (kept, dropped, violations) ← gate.filterAttributes classId rest
      return (a :: kept, dropped, violations)
    | some problem =>
      let (kept, dropped, violations) ← gate.filterAttributes classId rest
      return (kept, a.key :: dropped, problem :: violations)

def validate (gate : CeilingGate) (c : Candidate) : Raises ValidationResult :=
  if gate.checkEnvelope c ≠ [] then
    .ok { violations := gate.checkEnvelope c }
  else do
    let (kept, dropped, violations) ← gate.filterAttributes c.classId c.attributes
    if c.observationType = .attributes ∧ kept = [] then
      return { violations, droppedAttributes := dropped }
    else if kept.length = c.attributes.length then
      return { observation := some c.toObservation, violations, droppedAttributes := dropped }
    else do
      let narrowed ← Observation.construct { c.toObservationFields with attributes := kept }
      return { observation := some narrowed, violations, droppedAttributes := dropped }

def Narrowed (c o : Observation) : Prop :=
  ∃ kept, o.toObservationFields = { c.toObservationFields with attributes := kept }

theorem Narrowed.refl (o : Observation) : Narrowed o o := ⟨o.attributes, rfl⟩

variable {gate : CeilingGate}

theorem narrowed_of_validate {c : Candidate} {r : ValidationResult}
    {o : Observation} (h : gate.validate c = .ok r) (ho : r.observation = some o) :
    Narrowed c.toObservation o := by
  unfold validate at h
  split at h
  · cases h
    cases ho
  obtain ⟨⟨kept, dropped, violations⟩, -, h⟩ := bind_eq_ok.mp h
  dsimp only at h
  split at h
  · cases h
    cases ho
  split at h
  · cases h
    cases ho
    exact Narrowed.refl _
  · obtain ⟨narrowed, hnarrowed, h⟩ := bind_eq_ok.mp h
    cases h
    cases ho
    obtain ⟨haccepted, rfl⟩ := constructWith_eq_ok_iff.mp hnarrowed
    exact ⟨kept, rfl⟩

theorem checkEnvelope_rejects {c : Candidate} {v : Violation}
    (h : v ∈ gate.checkEnvelope c) : v.kind.rejectsTheEnvelope = true := by
  rcases mem_append.mp h with h | hversion
  · rcases mem_append.mp h with hclaim | hclass
    · split at hclaim
      · rcases mem_append.mp hclaim with h | h
        all_goals
          split at h
          · rw [mem_singleton.mp h]
            rfl
          · cases h
      · cases hclaim
    · unfold checkClass at hclass
      split at hclass
      · cases hclass
      · split at hclass
        · cases hclass
        · rw [mem_singleton.mp hclass]
          rfl
  · split at hversion
    · rw [mem_singleton.mp hversion]
      rfl
    · cases hversion

theorem validate_plain {gate : CeilingGate} {c : Candidate} (hattributes : c.attributes = [])
    (htype : c.observationType ≠ .attributes) :
    gate.validate c =
      if gate.checkEnvelope c ≠ [] then .ok { violations := gate.checkEnvelope c }
      else .ok { observation := some c.toObservation } := by
  unfold validate
  split
  · rfl
  · simp only [hattributes, filterAttributes, ok_bind, htype, false_and, if_false,
      length_nil, if_true]
    rfl

end CeilingGate

end VisionOs.Synthesis
