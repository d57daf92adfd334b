/-
  `json.dumps` and `json.loads`, the encoding of an observation key by key, and its decoding.  A
  JSON text is kept as the document it spells: `spelled` turns a tuple into an array, and `loads`
  an array into a list.
-/
import VisionOs.Core.Observation
import VisionOs.Core.Text

namespace VisionOs.Synthesis

open Core LifecycleState

inductive Json where
  | null
  | bool (b : Bool)
  | int (i : Int)
  | float (x : PyFloat)
  | string (s : String)
  | array (items : List Json)
  | object (members : List (String × Json))
  deriving Inhabited

mutual

def spelled : PyValue → Json
  | .none => .null
  | .bool b => .bool b
  | .int i => .int i
  | .float x => .float x
  | .str s => .string s
  | .list items => .array (spelledItems items)
  | .tuple items => .array (spelledItems items)
  | .dict entries => .object (spelledEntries entries)

def spelledItems : List PyValue → List Json
  | [] => []
  | v :: rest => spelled v :: spelledItems rest

def spelledEntries : List (String × PyValue) → List (String × Json)
  | [] => []
  | (k, v) :: rest => (k, spelled v) :: spelledEntries rest

end

/-- `json.dumps(value)`, by an interpreter that goes `room` containers deep. -/
def dumps (room : Nat) (v : PyValue) : Raises Json := do
  v.written room
  return spelled v

theorem dumps_eq_ok {room : Nat} {v : PyValue} {line : Json} : dumps room v = .ok line ↔
    (v.depth ≤ room ∧ v.printable = true) ∧ spelled v = line := by
  unfold dumps
  rw [check_bind_eq_ok, PyValue.written_eq_ok]
  exact and_congr_right fun _ => ⟨Except.ok.inj, congrArg _⟩

mutual

def loads : Json → PyValue
  | .null => .none
  | .bool b => .bool b
  | .int i => .int i
  | .float x => .float x
  | .string s => .str s
  | .array items => .list (loadsItems items)
  | .object members => .dict (loadsMembers members)

def loadsItems : List Json → List PyValue
  | [] => []
  | j :: rest => loads j :: loadsItems rest

def loadsMembers : List (String × Json) → List (String × PyValue)
  | [] => []
  | (k, j) :: rest => (k, loads j) :: loadsMembers rest

end

mutual

/-- A value JSON can represent: no tuple anywhere in it. -/
def isJson : PyValue → Bool
  | .tuple _ => false
  | .list items => areJson items
  | .dict entries => entriesAreJson entries
  | _ => true

def areJson : List PyValue → Bool
  | [] => true
  | v :: rest => isJson v && areJson rest

def entriesAreJson : List (String × PyValue) → Bool
  | [] => true
  | (_, v) :: rest => isJson v && entriesAreJson rest

end

mutual

theorem loads_spelled : ∀ {v : PyValue}, isJson v = true → loads (spelled v) = v
  | .none, _ => by simp only [spelled, loads]
  | .bool _, _ => by simp only [spelled, loads]
  | .int _, _ => by simp only [spelled, loads]
  | .float _, _ => by simp only [spelled, loads]
  | .str _, _ => by simp only [spelled, loads]
  | .tuple _, h => by simp [isJson] at h
  | .list items, h => by
    simp only [isJson] at h
    simp only [spelled, loads, loadsItems_spelledItems h]
  | .dict entries, h => by
    simp only [isJson] at h
    simp only [spelled, loads, loadsMembers_spelledEntries h]

theorem loadsItems_spelledItems :
    ∀ {items : List PyValue}, areJson items = true → loadsItems (spelledItems items) = items
  | [], _ => by simp only [spelledItems, loadsItems]
  | v :: rest, h => by
    simp only [areJson, Bool.and_eq_true] at h
    simp only [spelledItems, loadsItems, loads_spelled h.1, loadsItems_spelledItems h.2]

theorem loadsMembers_spelledEntries :
    ∀ {entries : List (String × PyValue)}, entriesAreJson entries = true →
      loadsMembers (spelledEntries entries) = entries
  | [], _ => by simp only [spelledEntries, loadsMembers]
  | (k, v) :: rest, h => by
    simp only [entriesAreJson, Bool.and_eq_true] at h
    simp only [spelledEntries, loadsMembers, loads_spelled h.1, loadsMembers_spelledEntries h.2]

end

def truthy : PyValue → Bool
  | .none => false
  | .bool b => b
  | .int i => i ≠ 0
  | .float x => !x.eq (.finite 0)
  | .str s => s ≠ ""
  | .list items => !items.isEmpty
  | .tuple items => !items.isEmpty
  | .dict entries => !entries.isEmpty

def item (record : PyValue) (key : String) : Raises PyValue :=
  match record with
  | .dict entries =>
    match entries.lookup key with
    | some v => .ok v
    | none => .error (.keyError key)
  | .list _ | .tuple _ | .str _ => .error (.typeError "indices must be integers or slices, not str")
  | _ => .error (.typeError "object is not subscriptable")

def getOr (record : PyValue) (key : String) (default : PyValue) : Raises PyValue :=
  match record with
  | .dict entries => .ok ((entries.lookup key).getD default)
  | _ => .error (.attributeError "object has no attribute 'get'")

/-! The fields of the model are typed.  Where the record holds a value of another type
    than the one the encoder writes, these raise; the source would carry it along. -/

def asStr : PyValue → Raises String
  | .str s => .ok s
  | _ => .error (.typeError "not a string")

def asInt : PyValue → Raises Int
  | .int i => .ok i
  | _ => .error (.typeError "not an int")

def asFloat : PyValue → Raises PyFloat
  | .float x => .ok x
  | _ => .error (.typeError "not a float")

def asStrOrNone : PyValue → Raises (Option String)
  | .none => .ok none
  | v => (asStr v).map some

def strIfTruthy (v : PyValue) : Raises (Option String) :=
  if truthy v then (asStr v).map some else .ok none

def enumOf {α : Type} (name : String) (members : List α) (value : α → String) (v : PyValue) :
    Raises α :=
  match v with
  | .str s =>
    match members.find? (fun m => value m = s) with
    | some m => .ok m
    | none => .error (.valueError s!"'{s}' is not a valid {name}")
  | _ => .error (.valueError s!"not a valid {name}")

@[simp] theorem truthy_dict_cons (e : String × PyValue) (rest : List (String × PyValue)) :
    truthy (.dict (e :: rest)) = true := rfl

@[simp] theorem truthy_list_cons (v : PyValue) (rest : List PyValue) :
    truthy (.list (v :: rest)) = true := rfl

@[simp] theorem asStr_str (s : String) : asStr (.str s) = .ok s := rfl

theorem mapM_asStr (xs : List String) : (xs.map PyValue.str).mapM asStr = .ok xs := by
  induction xs with
  | nil => rfl
  | cons x rest ih =>
    rw [List.map_cons, List.mapM_cons, ih]
    rfl

@[simp] theorem asInt_int (i : Int) : asInt (.int i) = .ok i := rfl

@[simp] theorem asFloat_float (x : PyFloat) : asFloat (.float x) = .ok x := rfl

def strOrNone : Option String → PyValue
  | none => .none
  | some s => if s = "" then .none else .str s

def orNone {α : Type} (f : α → PyValue) : Option α → PyValue
  | none => .none
  | some a => f a

def encodeSpatial : Option SpatialInfo → Raises PyValue
  | none => .ok .none
  | some spatial =>
    -- `spatial.ground_uncertainty.orientation_rad`: the field is `rotation_degrees`.
    if spatial.groundPoint.isSome ∧ spatial.groundUncertainty.isSome then
      .error (.attributeError "'Ellipse' object has no attribute 'orientation_rad'")
    else
      .ok (.dict [
        ("frame_of_reference", .str spatial.frameOfReference.value),
        ("calibration_id", strOrNone spatial.calibrationId),
        ("bbox", orNone (fun box : Box =>
          .list [.float box.x1, .float box.y1, .float box.x2, .float box.y2]) spatial.bbox),
        ("ground_point", .none),
        ("ground_uncertainty", .none)])

def encodeCoverage : Option CoverageWindow → PyValue
  | none => .none
  | some window =>
    .dict [
      ("status", .str window.status.value),
      ("reason", .str window.reason.value),
      ("since_ns", .int window.since.ns),
      ("until_ns", orNone (fun t => .int t.ns) window.untilInstant),
      ("effective_rate", .float window.effectiveRate),
      ("regions_affected", .list (window.regionsAffected.map .str)),
      ("capability_gaps", .list (window.capabilityGaps.map
        fun gap => .list [.str gap.1, .str gap.2]))]

def encodeTransition : Option LifecycleTransition → PyValue
  | none => .none
  | some transition =>
    .dict [
      ("previous", .str transition.previous.value),
      ("current", .str transition.current.value),
      ("trigger", .str transition.trigger)]

def encodeConfidence : Option Confidence → PyValue
  | none => .none
  | some confidence =>
    .dict [
      ("value", .float confidence.value),
      ("semantics", .str confidence.semantics.value),
      ("calibrated", .bool confidence.calibrated)]

def encodeAttribute (a : Attribute) : PyValue :=
  .dict [
    ("key", .str a.key),
    ("value", a.value),
    ("schema_version", .str a.schemaVersion),
    ("confidence", .float a.confidence.value),
    ("confidence_semantics", .str a.confidence.semantics.value),
    ("observed_at_ns", .int a.observedAt.ns)]

def encodeProvenance (p : Provenance) : PyValue :=
  .dict [
    ("producer_module", .str p.producerModule),
    ("producer_version", .str p.producerVersion),
    ("config_revision", .str p.configRevision),
    ("model_id", strOrNone p.modelId),
    ("model_artifact_hash", orNone .str p.modelArtifactHash)]

def encodeRecord (o : Observation) (spatial : PyValue) : PyValue :=
  .dict [
    ("spatial", spatial),
    ("coverage", encodeCoverage o.coverage),
    ("lifecycle_transition", encodeTransition o.lifecycleTransition),
    ("observation_id", .str o.observationId),
    ("observation_type", .str o.observationType.value),
    ("schema_version", .str o.schemaVersion),
    ("tenant_id", .str o.tenantId),
    ("site_id", .str o.siteId),
    ("camera_id", .str o.cameraId),
    ("frame_ref", .str o.frameRef.str),
    ("t_capture_ns", .int o.tCapture.ns),
    ("t_capture_unc_ns", .int o.tCaptureUnc.ns),
    ("clock_quality", .str o.clockQuality.label),
    ("t_published_ns", .int o.tPublished.ns),
    ("object_id", strOrNone o.objectId),
    ("class_id", strOrNone o.classId),
    ("taxonomy_version", .str o.taxonomyVersion),
    ("lifecycle_state", orNone (fun state => .str state.value) o.lifecycleState),
    ("measurement_basis", .str o.measurementBasis.value),
    ("confidence", encodeConfidence o.confidence),
    ("attributes", .list (o.attributes.map encodeAttribute)),
    ("evidence_id", orNone (fun evidence => .str evidence.evidenceId) o.evidenceRef),
    ("provenance", encodeProvenance o.provenance),
    ("supersedes", strOrNone o.supersedes),
    ("lineage", .list (o.lineage.map .str)),
    ("demand_ids", .list (o.demandIds.map .str))]

/-- The integers that `str(frame_ref)` writes. -/
def FrameWritten (f : FrameRef) : Prop :=
  (PyValue.int f.streamEpoch).printable = true ∧ (PyValue.int f.frameSeq).printable = true

instance (f : FrameRef) : Decidable (FrameWritten f) := inferInstanceAs (Decidable (_ ∧ _))

def encode (o : Observation) : Raises PyValue := do
  let spatial ← encodeSpatial o.spatial
  require (FrameWritten o.frameRef) tooManyDigits
  return encodeRecord o spatial

/-- `json.dumps(_encode(observation))`. -/
def encodeLine (room : Nat) (o : Observation) : Raises Json := do
  let record ← encode o
  dumps room record

/-- The encoder accepts the observation: no ground point, no integer in its frame reference
    or its record that is too long to be written, and no value nested too deep. -/
structure Encodable (room : Nat) (o : Observation) : Prop where
  ground : ∀ s, o.spatial = some s → s.groundPoint = none
  frame : FrameWritten o.frameRef
  written : ∀ spatial, encodeSpatial o.spatial = .ok spatial →
    (encodeRecord o spatial).depth ≤ room ∧ (encodeRecord o spatial).printable = true

theorem encodeSpatial_returns {spatial : Option SpatialInfo} :
    (∃ record, encodeSpatial spatial = .ok record) ↔
      ∀ s, spatial = some s → s.groundPoint = none := by
  cases spatial with
  | none => exact ⟨fun _ s hs => (by cases hs), fun _ => ⟨_, rfl⟩⟩
  | some spatial =>
    have hground := (SpatialFields.postInit_eq_ok.mp spatial.accepted).2
    unfold encodeSpatial
    constructor
    · rintro ⟨record, hrecord⟩ s hs
      cases hs
      by_contra hpoint
      have hboth : spatial.groundPoint.isSome ∧ spatial.groundUncertainty.isSome :=
        ⟨Option.isSome_iff_ne_none.mpr hpoint, Option.isSome_iff_ne_none.mpr (hground hpoint)⟩
      simp only [hboth, and_self, if_true] at hrecord
      cases hrecord
    · intro hnone
      have hno : ¬ (spatial.groundPoint.isSome ∧ spatial.groundUncertainty.isSome) := by
        rw [hnone spatial rfl]
        rintro ⟨h, -⟩
        cases h
      simp only [hno, if_false]
      exact ⟨_, rfl⟩

theorem encode_eq_ok {o : Observation} {record : PyValue} : encode o = .ok record ↔
    FrameWritten o.frameRef ∧ ∃ spatial, encodeSpatial o.spatial = .ok spatial ∧
      encodeRecord o spatial = record := by
  unfold encode
  rw [bind_eq_ok]
  constructor
  · rintro ⟨spatial, hspatial, h⟩
    obtain ⟨hframe, h⟩ := check_bind_eq_ok.mp h
    exact ⟨require_eq_ok.mp hframe, spatial, hspatial, Except.ok.inj h⟩
  · rintro ⟨hframe, spatial, hspatial, rfl⟩
    exact ⟨spatial, hspatial, check_bind_eq_ok.mpr ⟨require_eq_ok.mpr hframe, rfl⟩⟩

theorem encodable_iff {room : Nat} {o : Observation} :
    Encodable room o ↔ ∃ line, encodeLine room o = .ok line := by
  unfold encodeLine
  simp only [bind_eq_ok, encode_eq_ok, dumps_eq_ok]
  constructor
  · rintro ⟨hground, hframe, hwritten⟩
    obtain ⟨spatial, hspatial⟩ := encodeSpatial_returns.mpr hground
    exact ⟨_, _, ⟨hframe, spatial, hspatial, rfl⟩, hwritten spatial hspatial, rfl⟩
  · rintro ⟨line, record, ⟨hframe, spatial, hspatial, rfl⟩, hwritten, -⟩
    refine ⟨encodeSpatial_returns.mp ⟨spatial, hspatial⟩, hframe, fun spatial' hspatial' => ?_⟩
    rw [hspatial] at hspatial'
    cases hspatial'
    exact hwritten

/-- A report of blindness can be written out, its instant permitting. -/
theorem encodable_blindnessReport {room : Nat} (hroom : 2 ≤ room) {observationId : ObservationId}
    {cameraId : CameraId} {since : Instant} (hid : observationId ≠ "")
    (hsince : (PyValue.int since.ns).printable = true) :
    Encodable room (blindnessReport observationId cameraId since hid) where
  ground _ hs := by cases hs
  frame := ⟨PyValue.printable_zero, PyValue.printable_zero⟩
  written spatial hspatial := by
    cases hspatial
    have hzero := PyValue.printable_zero
    simp only [PyValue.printable] at hsince hzero
    constructor
    · refine le_trans ?_ hroom
      simp only [encodeRecord, blindnessReport, encodeCoverage, encodeTransition,
        encodeConfidence, encodeProvenance, strOrNone, orNone, List.map_nil, PyValue.depth,
        PyValue.depthOfEntries, PyValue.depthOfItems]
      decide
    · simp [encodeRecord, blindnessReport, encodeCoverage, encodeTransition,
        encodeConfidence, encodeProvenance, strOrNone, orNone, PyValue.printable,
        PyValue.entriesArePrintable, PyValue.arePrintable, hsince, hzero]

def decodeProvenance (raw : PyValue) : Raises Provenance := do
  let producerModule ← asStr (← item raw "producer_module")
  let producerVersion ← asStr (← getOr raw "producer_version" (.str "1.0.0"))
  let configRevision ← asStr (← item raw "config_revision")
  let modelId ← asStrOrNone (← getOr raw "model_id" .none)
  let modelArtifactHash ← asStrOrNone (← getOr raw "model_artifact_hash" .none)
  Provenance.construct
    { producerModule, producerVersion, configRevision, modelId, modelArtifactHash }

def decodeAttribute (provenance raw : PyValue) : Raises Attribute := do
  let key ← asStr (← item raw "key")
  let schemaVersion ← asStr (← getOr raw "schema_version" (.str "1.0.0"))
  let value ← item raw "value"
  let score ← asFloat (← item raw "confidence")
  let semantics ← enumOf "ConfidenceSemantics" ConfidenceSemantics.members
    ConfidenceSemantics.value (← item raw "confidence_semantics")
  let confidence ← Confidence.construct
    { value := score, semantics, calibrated := false, rawScore := some score }
  let observedAt ← asInt (← item raw "observed_at_ns")
  let producer ← decodeProvenance provenance
  Attribute.construct { key, schemaVersion, value, confidence, observedAt := ⟨observedAt⟩, producer }

def decodeConfidence (raw : PyValue) : Raises (Option Confidence) :=
  if !truthy raw then .ok none
  else do
    let score ← asFloat (← item raw "value")
    let semantics ← enumOf "ConfidenceSemantics" ConfidenceSemantics.members
      ConfidenceSemantics.value (← item raw "semantics")
    some <$> Confidence.construct
      { value := score, semantics, calibrated := false, rawScore := some score }

def decodeClockQuality (value : PyValue) : ClockQuality :=
  match value with
  | .str s => (ClockQuality.members.find? (fun quality => quality.label = s)).getD .unknown
  | _ => .unknown

def framePart (tables : UnicodeTables) (parts : List String) (index : Nat) (tag : Char) :
    Raises Int :=
  match parts[index]? with
  | some part => if startsWithChar part tag then tables.pyInt (dropFirst part) else .ok 0
  | none => .ok 0

def decodeFrameRef (tables : UnicodeTables) (text : String) (cameraId : CameraId) :
    Raises FrameRef := do
  let parts := pySplit text '/'
  let streamEpoch ← framePart tables parts 1 'e'
  let frameSeq ← framePart tables parts 2 'f'
  FrameRef.construct { cameraId, streamEpoch, frameSeq }

def decodeTransition (record : PyValue) : Raises (Option LifecycleTransition) :=
  if !truthy record then .ok none
  else do
    let previous ← enumOf "LifecycleState" members value
      (← item record "previous")
    let current ← enumOf "LifecycleState" members value
      (← item record "current")
    let trigger ← asStr (← getOr record "trigger" (.str ""))
    some <$> LifecycleTransition.construct { previous, current, trigger }

def decodeGap (gap : PyValue) : Raises (String × String) := do
  match ← gap.toTuple with
  | [.str capability, .str reason] => return (capability, reason)
  | _ => .error (.typeError "not a pair of strings")

def instantIfTruthy (v : PyValue) : Raises (Option Instant) :=
  if truthy v then (asInt v).map (fun ns => some ⟨ns⟩) else .ok none

def decodeCoverage (record : PyValue) : Raises (Option CoverageWindow) :=
  if !truthy record then .ok none
  else do
    let status ← enumOf "ObservabilityStatus" ObservabilityStatus.members
      ObservabilityStatus.value (← item record "status")
    let reason ← enumOf "ObservabilityReason" ObservabilityReason.members
      ObservabilityReason.value (← item record "reason")
    let since ← asInt (← item record "since_ns")
    let untilInstant ← instantIfTruthy (← getOr record "until_ns" .none)
    let effectiveRate ← asFloat (← getOr record "effective_rate" (.float (.finite 1)))
    let regions ← (← getOr record "regions_affected" (.tuple [])).toTuple
    let regionsAffected ← regions.mapM asStr
    let gaps ← (← getOr record "capability_gaps" (.tuple [])).toTuple
    let capabilityGaps ← gaps.mapM decodeGap
    some <$> CoverageWindow.construct
      { status, reason, since := ⟨since⟩, effectiveRate, regionsAffected, capabilityGaps,
        untilInstant }

def decodeBox (box : PyValue) : Raises (Option Box) :=
  if !truthy box then .ok none
  else match box with
    | .list [x1, y1, x2, y2] => do
      some <$> Box.construct
        { x1 := ← asFloat x1, y1 := ← asFloat y1, x2 := ← asFloat x2, y2 := ← asFloat y2 }
    | _ => .error (.typeError "not four floats")

def decodePoint (point ellipse : PyValue) : Raises (Option Point) :=
  if !(truthy point && truthy ellipse) then .ok none
  else match point with
    | .list [x, y] => do return some { x := ← asFloat x, y := ← asFloat y }
    | _ => .error (.typeError "not two floats")

def decodeEllipse (point ellipse : PyValue) : Raises (Option Ellipse) :=
  if !(truthy point && truthy ellipse) then .ok none
  else match ellipse with
    | .list [a, b, angle] => do
      return some
        { semiMajor := ← asFloat a, semiMinor := ← asFloat b, rotationDegrees := ← asFloat angle }
    | _ => .error (.typeError "not three floats")

def decodeSpatial (record : PyValue) : Raises (Option SpatialInfo) :=
  if !truthy record then .ok none
  else do
    let box ← getOr record "bbox" .none
    let point ← getOr record "ground_point" .none
    let ellipse ← getOr record "ground_uncertainty" .none
    let frameOfReference ← enumOf "FrameOfReference" FrameOfReference.members
      FrameOfReference.value (← item record "frame_of_reference")
    let bbox ← decodeBox box
    let calibrationId ← strIfTruthy (← getOr record "calibration_id" .none)
    let groundPoint ← decodePoint point ellipse
    let groundUncertainty ← decodeEllipse point ellipse
    some <$> SpatialInfo.construct
      { frameOfReference, bbox, calibrationId, groundPoint, groundUncertainty }

def decodeLifecycleState (value : PyValue) : Raises (Option LifecycleState) :=
  if !truthy value then .ok none
  else some <$> enumOf "LifecycleState" LifecycleState.members LifecycleState.value value

def decodeEvidence (value : PyValue) : Raises (Option EvidenceRef) :=
  if !truthy value then .ok none
  else do some <$> EvidenceRef.construct { evidenceId := ← asStr value }

def build (tables : UnicodeTables) (record : PyValue) : Raises Observation := do
  let cameraId ← asStr (← item record "camera_id")
  let observationId ← asStr (← item record "observation_id")
  let observationType ← enumOf "ObservationType" ObservationType.members ObservationType.value
    (← item record "observation_type")
  let tenantId ← asStr (← item record "tenant_id")
  let siteId ← asStr (← item record "site_id")
  let frameRef ← decodeFrameRef tables (← asStr (← item record "frame_ref")) cameraId
  let tCapture ← asInt (← item record "t_capture_ns")
  let tCaptureUnc ← asInt (← getOr record "t_capture_unc_ns" (.int 0))
  let clockQuality := decodeClockQuality (← getOr record "clock_quality" .none)
  let tPublished ← asInt (← getOr record "t_published_ns" (.int tCapture))
  let provenance ← decodeProvenance (← item record "provenance")
  let objectId ← strIfTruthy (← getOr record "object_id" .none)
  let classId ← strIfTruthy (← getOr record "class_id" .none)
  let taxonomyVersion ← asStr (← getOr record "taxonomy_version" (.str ""))
  let lifecycleState ← decodeLifecycleState (← getOr record "lifecycle_state" .none)
  let confidence ← decodeConfidence (← getOr record "confidence" .none)
  let rawAttributes ← (← getOr record "attributes" (.tuple [])).toTuple
  let attributes ← rawAttributes.mapM (decodeAttribute (← item record "provenance"))
  let measurementBasis ← enumOf "MeasurementBasis" MeasurementBasis.members
    MeasurementBasis.value (← getOr record "measurement_basis" (.str "measured"))
  let evidenceRef ← decodeEvidence (← getOr record "evidence_id" .none)
  let coverage ← decodeCoverage (← getOr record "coverage" .none)
  let lifecycleTransition ← decodeTransition (← getOr record "lifecycle_transition" .none)
  let spatial ← decodeSpatial (← getOr record "spatial" .none)
  let supersedes ← strIfTruthy (← getOr record "supersedes" .none)
  let ancestors ← (← getOr record "lineage" (.tuple [])).toTuple
  let lineage ← ancestors.mapM asStr
  let schemaVersion ← asStr (← getOr record "schema_version" (.str "1.0.0"))
  Observation.construct {
    observationId, observationType, tenantId, siteId, cameraId, frameRef
    tCapture := ⟨tCapture⟩
    tCaptureUnc := ⟨tCaptureUnc⟩
    clockQuality
    tPublished := ⟨tPublished⟩
    provenance, objectId, classId, taxonomyVersion, lifecycleState, confidence, attributes
    measurementBasis, evidenceRef, coverage, lifecycleTransition, spatial, supersedes, lineage
    schemaVersion
    identity := none }

def decodeObservation (tables : UnicodeTables) (line : Json) : Raises (Option Observation) :=
  match build tables (loads line) with
  | .ok o => .ok (some o)
  | .error (.keyError _) | .error (.valueError _) | .error (.typeError _) => .ok none
  | .error exc => .error exc

end VisionOs.Synthesis
