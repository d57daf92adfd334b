/-
  The file store of the object registry: a JSON document for each camera, under a file name made
  of its id.  The document leaves fields out, and ids that differ in other characters than
  letters, digits, `-`, `_` and `.` share a file.
-/
import VisionOs.Registry.Restore
import VisionOs.Synthesis.FileText
import VisionOs.Synthesis.RoundTrip

namespace VisionOs.Registry

open Core Synthesis Lib List Option OrderedDict Except VisualObject ProvenanceFields Registry
open FrameOfReference
open TrackBindingFields

/-! ## The document -/

structure StoredSnapshot extends PartitionSnapshot where
  siteId : SiteId
  version : Int
  nextLocalSequence : Int := 0

def unlessNone {α : Type} (f : PyValue → Raises α) : PyValue → Raises (Option α)
  | .none => .ok none
  | v => some <$> f v

def bindingMethods : List BindingMethod :=
  [.firstSight, .trackContinuity, .spatioTemporal, .epochRebind, .appearance, .resolver, .manual]

def encodeSpatial (spatial : SpatialInfo) : PyValue :=
  .dict [
    ("frame_of_reference", .str spatial.frameOfReference.value),
    ("bbox", orNone (fun box : Box =>
      .list [.float box.x1, .float box.y1, .float box.x2, .float box.y2]) spatial.bbox),
    ("calibration_id", strOrNone spatial.calibrationId)]

def decodeSpatial (payload : PyValue) : Raises SpatialInfo := do
  let box ← getOr payload "bbox" .none
  let frameOfReference ← enumOf "FrameOfReference" members
    value (← item payload "frame_of_reference")
  let bbox ← decodeBox box
  let calibrationId ← asStrOrNone (← getOr payload "calibration_id" .none)
  SpatialInfo.construct { frameOfReference, bbox, calibrationId }

def encodeBinding (binding : TrackBinding) : PyValue :=
  .dict [
    ("binding_id", .str binding.bindingId),
    ("track", .dict [
      ("camera_id", .str binding.trackId.cameraId),
      ("tracker_epoch", .int binding.trackId.trackerEpoch),
      ("local_id", .int binding.trackId.localId)]),
    ("bound_from_ns", .int binding.boundFrom.ns),
    ("bound_to_ns", orNone (fun t : Instant => .int t.ns) binding.boundTo),
    ("confidence", orNone (fun c : Confidence => .float c.value) binding.confidence),
    ("method", .str binding.method.value),
    ("superseded_by", strOrNone binding.supersededBy)]

def decodeConfidence (semantics : ConfidenceSemantics) (value : PyValue) : Raises Confidence := do
  Confidence.uncalibrated (← asFloat value) semantics

def decodeInstant (value : PyValue) : Raises Instant := (asInt value).map (⟨·⟩)

def decodeBinding (payload : PyValue) : Raises TrackBinding := do
  let track ← item payload "track"
  let confidence ← getOr payload "confidence" .none
  let bindingId ← asStr (← item payload "binding_id")
  let trackId ← constructWith TrackIdFields.postInit TrackId.mk
    { cameraId := ← asStr (← item track "camera_id")
      trackerEpoch := ← asInt (← item track "tracker_epoch")
      localId := ← asInt (← item track "local_id") }
  let boundFrom ← decodeInstant (← item payload "bound_from_ns")
  let boundTo ← unlessNone decodeInstant (← getOr payload "bound_to_ns" .none)
  let confidence ← unlessNone (decodeConfidence .identity) confidence
  let method ← enumOf "BindingMethod" bindingMethods BindingMethod.value (← item payload "method")
  let supersededBy ← strIfTruthy (← getOr payload "superseded_by" .none)
  TrackBinding.construct { bindingId, trackId, boundFrom, boundTo, confidence, method, supersededBy }

def encodeClassObservation (c : ClassObservation) : PyValue :=
  .dict [
    ("class_id", .str c.classId),
    ("observed_at_ns", .int c.observedAt.ns),
    ("confidence", .float c.confidence.value)]

def decodeClassObservation (c : PyValue) : Raises ClassObservation := do
  let classId ← asStr (← item c "class_id")
  let observedAt ← decodeInstant (← item c "observed_at_ns")
  let confidence ← decodeConfidence .classification (← item c "confidence")
  return { classId, observedAt, confidence }

def encodeSample (sample : Instant × SpatialInfo) : PyValue :=
  .dict [("at_ns", .int sample.1.ns), ("spatial", encodeSpatial sample.2)]

def decodeSample (s : PyValue) : Raises (Instant × SpatialInfo) := do
  let observedAt ← decodeInstant (← item s "at_ns")
  let spatial ← decodeSpatial (← item s "spatial")
  return (observedAt, spatial)

def encodeProvenance (provenance : Provenance) : PyValue :=
  .dict [
    ("producer_module", .str provenance.producerModule),
    ("producer_version", .str provenance.producerVersion),
    ("config_revision", .str provenance.configRevision),
    ("deterministic", .bool provenance.deterministic)]

def decodeProvenance (provenance : PyValue) : Raises Provenance := do
  let producerModule ← asStr (← item provenance "producer_module")
  let producerVersion ← asStr (← item provenance "producer_version")
  let configRevision ← asStr (← item provenance "config_revision")
  let deterministic ← getOr provenance "deterministic" (.bool false)
  Provenance.construct
    { producerModule, producerVersion, configRevision
      deterministic := truthy deterministic }

def encodeObject (obj : VisualObject) : PyValue :=
  .dict [
    ("object_id", .str obj.objectId),
    ("tenant_id", .str obj.tenantId),
    ("site_id", .str obj.siteId),
    ("camera_id", .str obj.cameraId),
    ("class_id", .str obj.classId),
    ("confidence", .float obj.confidence.value),
    ("lifecycle", .str obj.lifecycle.value),
    ("class_history", .list (obj.classHistory.map encodeClassObservation)),
    ("track_bindings", .list (obj.trackBindings.map encodeBinding)),
    ("spatial", encodeSpatial obj.currentSpatial),
    ("spatial_history", .list (obj.spatialHistory.map encodeSample)),
    ("attributes", .list ((obj.attributes.keys.insertionSort (· ≤ ·)).map .str)),
    ("first_seen_ns", .int obj.firstSeen.ns),
    ("last_seen_ns", .int obj.lastSeen.ns),
    ("last_confirmed_ns", .int obj.lastConfirmed.ns),
    ("observation_count", .int obj.observationCount),
    ("merged_into", strOrNone obj.mergedInto),
    ("lineage", .list (obj.lineage.map .str)),
    ("schema_version", .str obj.schemaVersion),
    ("provenance", encodeProvenance obj.provenance)]

def decodeEach {α : Type} (f : PyValue → Raises α) (values : PyValue) : Raises (List α) := do
  (← values.toTuple).mapM f

def decodeObject (payload : PyValue) : Raises VisualObject := do
  let provenance ← item payload "provenance"
  let objectId ← asStr (← item payload "object_id")
  let tenantId ← asStr (← item payload "tenant_id")
  let siteId ← asStr (← item payload "site_id")
  let cameraId ← asStr (← item payload "camera_id")
  let classId ← asStr (← item payload "class_id")
  let confidence ← decodeConfidence .identity (← item payload "confidence")
  let lifecycle ← enumOf "LifecycleState" LifecycleState.members LifecycleState.value
    (← item payload "lifecycle")
  let classHistory ← decodeEach decodeClassObservation (← item payload "class_history")
  let trackBindings ← decodeEach decodeBinding (← item payload "track_bindings")
  let currentSpatial ← decodeSpatial (← item payload "spatial")
  let spatialHistory ← decodeEach decodeSample (← item payload "spatial_history")
  let firstSeen ← decodeInstant (← item payload "first_seen_ns")
  let lastSeen ← decodeInstant (← item payload "last_seen_ns")
  let lastConfirmed ← decodeInstant (← item payload "last_confirmed_ns")
  let observationCount ← asInt (← item payload "observation_count")
  let provenance ← decodeProvenance provenance
  let mergedInto ← strIfTruthy (← getOr payload "merged_into" .none)
  let lineage ← decodeEach asStr (← getOr payload "lineage" (.tuple []))
  let schemaVersion ← asStr (← getOr payload "schema_version" (.str "1.0.0"))
  -- Attributes are not restored: their values live in the observation log.
  construct
    { objectId, tenantId, siteId, cameraId, classId, confidence, lifecycle, classHistory
      trackBindings, currentSpatial, spatialHistory, attributes := ∅, firstSeen, lastSeen
      lastConfirmed, observationCount, provenance, mergedInto, lineage, schemaVersion }

def snapshotFormatVersion : Int := 1

def encodeSnapshot (snapshot : StoredSnapshot) : PyValue :=
  .dict [
    ("format", .int snapshotFormatVersion),
    ("camera_id", .str snapshot.cameraId),
    ("site_id", .str snapshot.siteId),
    ("version", .int snapshot.version),
    ("taken_at_ns", .int snapshot.takenAt.ns),
    ("next_local_sequence", .int snapshot.nextLocalSequence),
    ("objects", .list (snapshot.objects.map encodeObject))]

def decodeSnapshot (payload : PyValue) : Raises StoredSnapshot := do
  let version ← asInt (← getOr payload "format" .none)
  require (version = snapshotFormatVersion) (.valueError
    s!"snapshot format {version} is not {snapshotFormatVersion}; a format change is a migration, never a silent reinterpretation")
  let cameraId ← asStr (← item payload "camera_id")
  let siteId ← asStr (← item payload "site_id")
  let version ← asInt (← item payload "version")
  let takenAt ← decodeInstant (← item payload "taken_at_ns")
  let objects ← decodeEach decodeObject (← item payload "objects")
  let nextLocalSequence ← asInt (← getOr payload "next_local_sequence" (.int 0))
  return { cameraId, siteId, version, takenAt, objects, nextLocalSequence }

/-- The files of the directory, by their names.  A name of any length is taken for a file
    name; where the file system refuses one, every call on it fails. -/
abbrev FileObjectStore := OrderedDict String Json

/-- A call that changes the files; `fault` is an `OSError` that stops it. -/
inductive StoreCall where
  | save (snapshot : StoredSnapshot) (fault : Option Message)
  | forget (cameraId : CameraId) (fault : Option Message)

namespace FileObjectStore

variable (table : AlnumTable)

/-- `_path`: the name of a camera's file. -/
def pathName (cameraId : CameraId) : String :=
  String.ofList (cameraId.toList.map fun c =>
    if table.isAlnum c || c = '-' || c = '_' || c = '.' then c else '_') ++ ".json"

/-- `save`.  The document is written beside the old one and then takes its place, so a save
    that raises leaves the old one. -/
def save (snapshot : StoredSnapshot) (fault : Option Message) (store : FileObjectStore) :
    Raises Unit × FileObjectStore :=
  match fault with
  | none =>
    let payload := encodeSnapshot snapshot
    match require (payload.printable = true) tooManyDigits with
    | .ok () => (.ok (), store.set (pathName table snapshot.cameraId) (spelled payload))
    | .error exc => (.error exc, store)
  | some exc =>
    (.error (.objectStoreError
      ([.text s!"could not persist partition '{snapshot.cameraId}': "] ++ exc)), store)

def load (cameraId : CameraId) (store : FileObjectStore) : Raises (Option StoredSnapshot) :=
  match store.get? (pathName table cameraId) with
  | none => .ok none
  | some payload =>
    match decodeSnapshot (loads payload) with
    | .ok snapshot => .ok (some snapshot)
    | .error exc =>
      match exc with
      | .keyError _ | .typeError _ | .valueError _ => .error (.objectStoreError
          ([.text s!"partition '{cameraId}' decoded but is structurally invalid: "] ++ exc.text))
      | exc => .error exc

def forget (cameraId : CameraId) (fault : Option Message) (store : FileObjectStore) :
    Raises Unit × FileObjectStore :=
  match fault with
  | none => (.ok (), store.erase (pathName table cameraId))
  | some exc => (.error (.osError exc), store)

/-- The files after a call. -/
def after (store : FileObjectStore) : StoreCall → FileObjectStore
  | .save snapshot fault => (save table snapshot fault store).2
  | .forget cameraId fault => (forget table cameraId fault store).2

end FileObjectStore

/-! ## What is read back -/

def readBinding (b : TrackBinding) : TrackBinding where
  toTrackBindingFields := { b.toTrackBindingFields with
    confidence := b.confidence.map (restate · .identity)
    supersededBy := emptyToNone b.supersededBy }
  accepted := by
    refine postInit_eq_ok.mpr
      ⟨?_, (postInit_eq_ok.mp b.accepted).2⟩
    intro c hc
    obtain ⟨c', -, rfl⟩ := map_eq_some_iff.mp hc
    rfl

def readClassObservation (c : ClassObservation) : ClassObservation :=
  { c with confidence := restate c.confidence .classification }

def readSample (sample : Instant × SpatialInfo) : Raises (Instant × SpatialInfo) := do
  let spatial ← readSpatial sample.2
  return (sample.1, spatial)

def readProvenance (p : Provenance) : Provenance where
  producerModule := p.producerModule
  producerVersion := p.producerVersion
  configRevision := p.configRevision
  deterministic := p.deterministic
  accepted := by
    obtain ⟨hmodule, hrevision, -⟩ := postInit_eq_ok.mp p.accepted
    exact postInit_eq_ok.mpr ⟨hmodule, hrevision, fun h => absurd rfl h⟩

def readObject (o : VisualObject) : Raises VisualObject := do
  let currentSpatial ← readSpatial o.currentSpatial
  let spatialHistory ← o.spatialHistory.mapM readSample
  construct { o.toVisualObjectFields with
    confidence := restate o.confidence .identity
    classHistory := o.classHistory.map readClassObservation
    trackBindings := o.trackBindings.map readBinding
    currentSpatial
    spatialHistory
    attributes := ∅
    provenance := readProvenance o.provenance
    mergedInto := emptyToNone o.mergedInto
    labels := ∅ }

variable {α : Type}

theorem uncalibrated_value (c : Confidence) (semantics : ConfidenceSemantics) :
    Confidence.uncalibrated c.value semantics = .ok (restate c semantics) :=
  constructWith_eq_ok (restate c semantics).accepted

theorem decodeInstant_int (t : Instant) : decodeInstant (.int t.ns) = .ok t := rfl

variable {encode : α → PyValue} {decode : PyValue → Raises α}

theorem unlessNone_orNone {read : α → α}
    (hne : ∀ a, encode a ≠ .none) (h : ∀ a, decode (encode a) = .ok (read a)) (a : Option α) :
    unlessNone decode (orNone encode a) = .ok (a.map read) := by
  cases a with
  | none => rfl
  | some a =>
    have hsome : unlessNone decode (encode a) = some <$> decode (encode a) := by
      unfold unlessNone
      split
      · rename_i hnone
        exact absurd hnone (hne a)
      · rfl
    show unlessNone decode (encode a) = _
    rw [hsome, h]
    rfl

theorem decodeEach_map {read : α → Raises α}
    (h : ∀ a, decode (encode a) = read a) (xs : List α) :
    decodeEach decode (.list (xs.map encode)) = xs.mapM read := by
  show (xs.map encode).mapM decode = _
  rw [mapM_map]
  exact congrArg (xs.mapM ·) (funext h)

theorem mapM_eq_map {β : Type} {f : α → Raises β} {g : α → β} {xs : List α} :
    xs.mapM f = .ok (xs.map g) ↔ ∀ x ∈ xs, f x = .ok (g x) := by
  induction xs with
  | nil => simp [pure, Except.pure]
  | cons x rest ih =>
    rw [mapM_cons, map_cons, forall_mem_cons, ← ih, bind_eq_ok]
    constructor
    · rintro ⟨y, hy, h⟩
      obtain ⟨ys, hys, h⟩ := bind_eq_ok.mp h
      obtain ⟨hhead, htail⟩ := List.cons.inj (ok.inj h)
      exact ⟨hhead ▸ hy, htail ▸ hys⟩
    · rintro ⟨hx, hrest⟩
      refine ⟨g x, hx, ?_⟩
      rw [hrest]
      rfl

theorem decodeSpatial_encode (s : SpatialInfo) :
    decodeSpatial (encodeSpatial s) = readSpatial s := by
  unfold decodeSpatial encodeSpatial
  simp only [item, getOr, lookup_cons, String.reduceBEq, ok_bind, getD_some,
    enumOf_frameOfReference, decodeBox_encode,
    asStrOrNone_strOrNone]
  rfl

theorem decodeSample_encode (s : Instant × SpatialInfo) :
    decodeSample (encodeSample s) = readSample s := by
  unfold decodeSample encodeSample
  simp only [item, lookup_cons, String.reduceBEq, ok_bind, decodeSpatial_encode]
  rfl

theorem decodeClassObservation_encode (c : ClassObservation) :
    decodeClassObservation (encodeClassObservation c) = .ok (readClassObservation c) := by
  unfold decodeClassObservation encodeClassObservation decodeConfidence
  simp only [item, lookup_cons, String.reduceBEq, ok_bind, asStr_str,
    asFloat_float, uncalibrated_value]
  rfl

theorem decodeBinding_encode (b : TrackBinding) :
    decodeBinding (encodeBinding b) = .ok (readBinding b) := by
  have hconfidence : unlessNone (decodeConfidence .identity)
      (orNone (fun c : Confidence => .float c.value) b.confidence) =
        .ok (b.confidence.map (restate · .identity)) :=
    unlessNone_orNone (fun _ h => (by cases h)) (fun c => uncalibrated_value c .identity) _
  have hend : unlessNone decodeInstant (orNone (fun t : Instant => .int t.ns) b.boundTo) =
      .ok b.boundTo := by
    cases b.boundTo <;> rfl
  have hmethod : enumOf "BindingMethod" bindingMethods BindingMethod.value (.str b.method.value) =
      .ok b.method := by
    cases b.method <;> rfl
  have htrack : constructWith TrackIdFields.postInit TrackId.mk
      { cameraId := b.trackId.cameraId, trackerEpoch := b.trackId.trackerEpoch,
        localId := b.trackId.localId } = .ok b.trackId :=
    constructWith_eq_ok b.trackId.accepted
  unfold decodeBinding encodeBinding
  simp only [item, getOr, lookup_cons, String.reduceBEq, ok_bind, getD_some,
    asStr_str, asInt_int, strIfTruthy_strOrNone, hconfidence, hend,
    hmethod, htrack, decodeInstant_int]
  exact constructWith_eq_ok (readBinding b).accepted

theorem decodeProvenance_encode (p : Provenance) :
    decodeProvenance (encodeProvenance p) = .ok (readProvenance p) := by
  unfold decodeProvenance encodeProvenance
  simp only [item, getOr, lookup_cons, String.reduceBEq, ok_bind, getD_some,
    asStr_str]
  exact constructWith_eq_ok (readProvenance p).accepted

theorem decodeObject_encode (o : VisualObject) : decodeObject (encodeObject o) = readObject o := by
  have hlineage : decodeEach asStr (.list (o.lineage.map .str)) = .ok o.lineage :=
    mapM_asStr o.lineage
  have hread : ∀ {α : Type} (read : α → α) (xs : List α),
      xs.mapM (fun x => (.ok (read x) : Raises α)) = .ok (xs.map read) := fun _ _ =>
    mapM_eq_map.mpr fun _ _ => rfl
  unfold decodeObject encodeObject readObject decodeConfidence
  simp only [item, getOr, lookup_cons, String.reduceBEq, ok_bind, getD_some,
    asStr_str, asInt_int, asFloat_float, uncalibrated_value,
    enumOf_lifecycle, decodeEach_map decodeClassObservation_encode,
    decodeEach_map decodeBinding_encode, decodeEach_map decodeSample_encode, hread,
    decodeSpatial_encode, decodeProvenance_encode, strIfTruthy_strOrNone, decodeInstant_int, hlineage]

def readSnapshot (s : StoredSnapshot) : Raises StoredSnapshot := do
  let objects ← s.objects.mapM readObject
  return { s with objects }

theorem isJson_encodeSnapshot (s : StoredSnapshot) : isJson (encodeSnapshot s) = true := by
  have hstr : ∀ xs : List String, areJson (xs.map .str) = true := fun xs =>
    areJson_map fun _ _ => rfl
  have hspatial : ∀ s, isJson (encodeSpatial s) = true := fun s => by
    simp only [encodeSpatial, isJson, entriesAreJson,
      isJson_strOrNone, Bool.true_and, Bool.and_true]
    exact isJson_orNone fun _ => rfl
  have hbinding : ∀ b, isJson (encodeBinding b) = true := fun b => by
    have hend := @isJson_orNone _ (fun t : Instant => .int t.ns) b.boundTo fun _ => rfl
    have hconfidence := @isJson_orNone _ (fun c : Confidence => .float c.value)
      b.confidence fun _ => rfl
    simp only [encodeBinding, isJson, entriesAreJson,
      isJson_strOrNone, hend, hconfidence, Bool.true_and]
  have hsample : ∀ e, isJson (encodeSample e) = true := fun e => by
    simp only [encodeSample, isJson, entriesAreJson, hspatial, Bool.true_and]
  have hobject : ∀ o, isJson (encodeObject o) = true := fun o => by
    have hclasses := @areJson_map _ encodeClassObservation o.classHistory fun _ _ => rfl
    simp only [encodeObject, encodeProvenance, isJson, entriesAreJson, hspatial,
      hclasses, hstr, areJson_map fun b (_ : b ∈ o.trackBindings) => hbinding b,
      areJson_map fun e (_ : e ∈ o.spatialHistory) => hsample e,
      isJson_strOrNone, Bool.true_and]
  simp only [encodeSnapshot, isJson, entriesAreJson,
    areJson_map fun o (_ : o ∈ s.objects) => hobject o, Bool.true_and]

theorem decodeSnapshot_encode (s : StoredSnapshot) :
    decodeSnapshot (loads (spelled (encodeSnapshot s))) = readSnapshot s := by
  rw [loads_spelled (isJson_encodeSnapshot s)]
  unfold decodeSnapshot encodeSnapshot
  simp only [item, getOr, lookup_cons, String.reduceBEq, ok_bind, getD_some,
    asStr_str, asInt_int, decodeInstant_int,
    decodeEach_map decodeObject_encode]
  rfl

/-! ## What comes back as it was -/

/-- A plain score: its raw score is its value. -/
structure Uncalibrated (semantics : ConfidenceSemantics) (c : Confidence) : Prop where
  semantics : c.semantics = semantics
  calibrated : c.calibrated = false
  calibrationId : c.calibrationId = none
  rawScore : c.rawScore = some c.value

/-- A position that the document keeps whole. -/
def InImage (s : SpatialInfo) : Prop := s.groundUncertainty = none ∧ s.calibrationId ≠ some ""

/-- An object of which the document holds everything but the attributes. -/
structure Plain (o : VisualObject) : Prop where
  confidence : Uncalibrated .identity o.confidence
  classHistory : ∀ c ∈ o.classHistory, Uncalibrated .classification c.confidence
  trackBindings : ∀ b ∈ o.trackBindings,
    (∀ c, b.confidence = some c → Uncalibrated .identity c) ∧ b.supersededBy ≠ some ""
  currentSpatial : InImage o.currentSpatial
  spatialHistory : ∀ e ∈ o.spatialHistory, InImage e.2
  provenance : o.provenance.adapterId = none ∧ o.provenance.adapterVersion = none ∧
    o.provenance.modelId = none ∧ o.provenance.modelVersion = none ∧
    o.provenance.modelArtifactHash = none
  mergedInto : o.mergedInto ≠ some ""
  labels : o.labels = ∅

def withoutAttributes (o : VisualObject) : VisualObject where
  toVisualObjectFields := { o.toVisualObjectFields with attributes := ∅ }
  accepted := o.accepted

theorem restate_eq_self {c : Confidence} {semantics : ConfidenceSemantics} :
    restate c semantics = c ↔ Uncalibrated semantics c := by
  obtain ⟨⟨value, semantics', calibrated, calibrationId, rawScore⟩, accepted⟩ := c
  simp only [restate, Confidence.mk.injEq, ConfidenceFields.mk.injEq, true_and]
  constructor
  · rintro ⟨h1, h2, h3, h4⟩
    exact ⟨h1.symm, h2.symm, h3.symm, h4.symm⟩
  · rintro ⟨h1, h2, h3, h4⟩
    exact ⟨h1.symm, h2.symm, h3.symm, h4.symm⟩

theorem readSpatial_eq_self {s : SpatialInfo} : readSpatial s = .ok s ↔ InImage s := by
  have hposition := @readPosition_eq_self (some s)
  have hread : readPosition (some s) = .ok (some s) ↔ readSpatial s = .ok s :=
    map_some_eq_ok
  rw [← hread, hposition]
  exact ⟨fun h => h s rfl, fun h s' hs' => some.inj hs' ▸ h⟩

theorem map_eq_self {f : α → α} {xs : List α} : xs.map f = xs ↔ ∀ x ∈ xs, f x = x := by
  conv_lhs => rhs; rw [← map_id xs]
  exact map_inj_left

theorem mapM_eq_self {f : α → Raises α} {xs : List α} :
    xs.mapM f = .ok xs ↔ ∀ x ∈ xs, f x = .ok x := by
  have hmap := @mapM_eq_map α α f id xs
  rw [List.map_id] at hmap
  exact hmap

theorem readBinding_eq_self {b : TrackBinding} : readBinding b = b ↔
    (∀ c, b.confidence = some c → Uncalibrated .identity c) ∧ b.supersededBy ≠ some "" := by
  have hconfidence : b.confidence.map (restate · .identity) = b.confidence ↔
      ∀ c, b.confidence = some c → Uncalibrated .identity c := by
    cases b.confidence with
    | none => exact ⟨fun _ c hc => (by cases hc), fun _ => rfl⟩
    | some c =>
      rw [map_some, some.injEq, restate_eq_self]
      exact ⟨fun h c' hc' => some.inj hc' ▸ h, fun h => h c rfl⟩
  rw [← hconfidence, ← emptyToNone_eq_self]
  obtain ⟨fields, accepted⟩ := b
  simp only [readBinding, TrackBinding.mk.injEq]
  constructor
  · intro h
    exact ⟨congrArg (·.confidence) h, congrArg (·.supersededBy) h⟩
  · rintro ⟨h1, h2⟩
    rw [h1, h2]

theorem readClassObservation_eq_self {c : ClassObservation} :
    readClassObservation c = c ↔ Uncalibrated .classification c.confidence := by
  rw [← restate_eq_self]
  constructor
  · exact congrArg ClassObservation.confidence
  · intro h
    unfold readClassObservation
    rw [h]

theorem readSample_eq_self {e : Instant × SpatialInfo} : readSample e = .ok e ↔ InImage e.2 := by
  rw [← readSpatial_eq_self]
  unfold readSample
  constructor
  · intro h
    obtain ⟨s, hs, h⟩ := bind_eq_ok.mp h
    rw [hs, ← congrArg Prod.snd (ok.inj h)]
  · intro h
    rw [h]
    rfl

theorem readProvenance_eq_self {p : Provenance} : readProvenance p = p ↔
    p.adapterId = none ∧ p.adapterVersion = none ∧ p.modelId = none ∧ p.modelVersion = none ∧
      p.modelArtifactHash = none := by
  obtain ⟨fields, accepted⟩ := p
  obtain ⟨m, v, r, a, av, i, iv, hash, d⟩ := fields
  simp only [readProvenance, Provenance.mk.injEq, ProvenanceFields.mk.injEq, true_and, and_true]
  simp only [eq_comm]

variable {o : VisualObject}

theorem construct_eq_ok {fields : VisualObjectFields} :
    construct fields = .ok o ↔ fields = o.toVisualObjectFields := by
  unfold construct
  rw [constructWith_eq_ok_iff]
  constructor
  · rintro ⟨h, rfl⟩
    rfl
  · rintro rfl
    exact ⟨o.accepted, rfl⟩

theorem readObject_eq_self :
    readObject o = .ok (withoutAttributes o) ↔ Plain o := by
  unfold readObject
  constructor
  · intro h
    obtain ⟨currentSpatial, hspatial, h⟩ := bind_eq_ok.mp h
    obtain ⟨spatialHistory, hhistory, h⟩ := bind_eq_ok.mp h
    have hfields := construct_eq_ok.mp h
    have hspatial' : currentSpatial = o.currentSpatial := congrArg (·.currentSpatial) hfields
    have hhistory' : spatialHistory = o.spatialHistory := congrArg (·.spatialHistory) hfields
    rw [hspatial'] at hspatial
    rw [hhistory'] at hhistory
    exact
      { confidence := restate_eq_self.mp (congrArg (·.confidence) hfields)
        classHistory := fun c hc => readClassObservation_eq_self.mp
          (map_eq_self.mp (congrArg (·.classHistory) hfields) c hc)
        trackBindings := fun b hb => readBinding_eq_self.mp
          (map_eq_self.mp (congrArg (·.trackBindings) hfields) b hb)
        currentSpatial := readSpatial_eq_self.mp hspatial
        spatialHistory := fun e he => readSample_eq_self.mp (mapM_eq_self.mp hhistory e he)
        provenance := readProvenance_eq_self.mp (congrArg (·.provenance) hfields)
        mergedInto := emptyToNone_eq_self.mp (congrArg (·.mergedInto) hfields)
        labels := (congrArg (·.labels) hfields).symm }
  · intro h
    rw [readSpatial_eq_self.mpr h.currentSpatial, ok_bind,
      mapM_eq_self.mpr fun e he => readSample_eq_self.mpr (h.spatialHistory e he), ok_bind,
      construct_eq_ok, restate_eq_self.mpr h.confidence,
      map_eq_self.mpr fun c hc => readClassObservation_eq_self.mpr (h.classHistory c hc),
      map_eq_self.mpr fun b hb => readBinding_eq_self.mpr (h.trackBindings b hb),
      readProvenance_eq_self.mpr h.provenance, emptyToNone_eq_self.mpr h.mergedInto,
      ← h.labels]
    rfl

/-! ## Any calls -/

/-- What a call that does not fail leaves of a camera: a snapshot that can be written out, or
    nothing. -/
def StoreCall.written : StoreCall → Option (CameraId × Option StoredSnapshot)
  | .save snapshot none =>
    if (encodeSnapshot snapshot).printable then some (snapshot.cameraId, some snapshot) else none
  | .forget cameraId none => some (cameraId, none)
  | _ => none

def StoredSnapshot.withoutAttributes (s : StoredSnapshot) : StoredSnapshot :=
  { s with objects := s.objects.map Registry.withoutAttributes }

namespace FileObjectStore

variable {κ : Type} [DecidableEq κ]

def kept (key : CameraId → κ) (k : κ) (last : Option StoredSnapshot) (call : StoreCall) :
    Option StoredSnapshot :=
  match call.written with
  | some (cameraId, saved) => if key cameraId = k then saved else last
  | none => last

/-- The last snapshot that was saved under a key and not forgotten since. -/
def lastSaved (key : CameraId → κ) (k : κ) (calls : List StoreCall) : Option StoredSnapshot :=
  calls.foldl (kept key k) none

/-- After the calls, the store loads the last snapshot that was saved for exactly this camera
    and not forgotten since, but for attributes. -/
def Faithful (table : AlnumTable) (calls : List StoreCall) (cameraId : CameraId) : Prop :=
  (load table cameraId (calls.foldl (after table) ∅)).map (Option.map (·.withoutAttributes)) =
    .ok ((lastSaved id cameraId calls).map (·.withoutAttributes))

variable {table : AlnumTable} {calls : List StoreCall} {cameraId : CameraId}

theorem lastSaved_concat (key : CameraId → κ) (k : κ) (calls : List StoreCall) (call : StoreCall) :
    lastSaved key k (calls ++ [call]) = kept key k (lastSaved key k calls) call :=
  foldl_concat ..

variable {snapshot : StoredSnapshot} {store : FileObjectStore}

theorem save_of_printable
    (h : (encodeSnapshot snapshot).printable = true) : save table snapshot none store =
      (.ok (), store.set (pathName table snapshot.cameraId) (spelled (encodeSnapshot snapshot))) := by
  unfold save
  dsimp only
  rw [require_eq_ok.mpr h]

theorem save_of_not_printable
    (h : (encodeSnapshot snapshot).printable ≠ true) :
    save table snapshot none store = (.error tooManyDigits, store) := by
  unfold save require
  dsimp only
  rw [if_neg h]

theorem get?_calls (table : AlnumTable) (name : String) (calls : List StoreCall) :
    (calls.foldl (after table) ∅).get? name =
      (lastSaved (pathName table) name calls).map fun s => spelled (encodeSnapshot s) := by
  induction calls using List.reverseRecOn with
  | nil => rfl
  | append_singleton calls call ih =>
    rw [foldl_concat, lastSaved_concat]
    rcases call with ⟨snapshot, _ | exc⟩ | ⟨cameraId, _ | exc⟩
    · show get? (save table snapshot none _).2 _ = Option.map _ (kept _ _ _ _)
      unfold kept StoreCall.written
      by_cases hwritten : (encodeSnapshot snapshot).printable = true
      · rw [save_of_printable hwritten]
        simp only [if_pos hwritten]
        rw [get?_set, ih]
        split <;> rfl
      · rw [save_of_not_printable hwritten]
        simp only [if_neg hwritten]
        exact ih
    · exact ih
    · show get? (erase _ _) _ = Option.map _ (if _ then _ else _)
      rw [get?_erase, ih]
      simp only [eq_comm]
      split <;> rfl
    · exact ih

theorem lastSaved_of_own (calls : List StoreCall) :
    (∀ s, lastSaved id cameraId calls = some s → s.cameraId = cameraId) ∧
    ∀ s, lastSaved (pathName table) (pathName table cameraId) calls = some s →
      s.cameraId = cameraId → lastSaved id cameraId calls = some s := by
  induction calls using List.reverseRecOn with
  | nil => exact ⟨fun _ h => (by cases h), fun _ h => (by cases h)⟩
  | append_singleton calls call ih =>
    have hown : ∀ c s, call.written = some (c, some s) → s.cameraId = c := by
      rintro c s h
      rcases call with ⟨snapshot, _ | exc⟩ | ⟨other, _ | exc⟩
      · unfold StoreCall.written at h
        dsimp only at h
        split at h <;> cases h
        rfl
      all_goals cases h
    rw [lastSaved_concat, lastSaved_concat]
    unfold kept
    cases hcall : call.written with
    | none => exact ih
    | some w =>
      by_cases hsame : w.1 = cameraId
      · simp only [id, if_pos hsame, if_pos (congrArg (pathName table) hsame)]
        refine ⟨fun s hs => ?_, fun s hs _ => hs⟩
        rw [← hsame]
        exact hown _ _ (hcall.trans (congrArg (fun saved => some (w.1, saved)) hs))
      · simp only [id, if_neg hsame]
        refine ⟨ih.1, fun s hs hs' => ?_⟩
        split at hs
        · have hown' := hown _ _ (hcall.trans (congrArg (fun saved => some (w.1, saved)) hs))
          exact absurd (hown'.symm.trans hs') hsame
        · exact ih.2 s hs hs'

theorem load_of_get? {s : StoredSnapshot} {result : Option StoredSnapshot}
    (h : store.get? (pathName table cameraId) = some (spelled (encodeSnapshot s))) :
    load table cameraId store = .ok result ↔
      ∃ s', readSnapshot s = .ok s' ∧ result = some s' := by
  unfold load
  rw [h]
  show (match decodeSnapshot (loads (spelled (encodeSnapshot s))) with | .ok _ => _ | .error _ => _) =
    _ ↔ _
  rw [decodeSnapshot_encode]
  cases readSnapshot s with
  | ok s' => simp [eq_comm]
  | error exc => cases exc <;> simp

theorem readObject_bare {o o' : VisualObject} (h : readObject o = .ok o') :
    withoutAttributes o' = o' := by
  obtain ⟨currentSpatial, -, h⟩ := bind_eq_ok.mp h
  obtain ⟨spatialHistory, -, h⟩ := bind_eq_ok.mp h
  have hfields := construct_eq_ok.mp h
  obtain ⟨fields, accepted⟩ := o'
  subst hfields
  rfl

theorem readSnapshot_eq_ok {s s' : StoredSnapshot} :
    readSnapshot s = .ok s' ↔
      ∃ objects, s.objects.mapM readObject = .ok objects ∧ s' = { s with objects } := by
  unfold readSnapshot
  rw [bind_eq_ok]
  exact exists_congr fun objects => and_congr_right fun _ =>
    ⟨fun h => (ok.inj h).symm, fun h => congrArg ok h.symm⟩

theorem plain_of_withoutAttributes {s s' : StoredSnapshot} (hread : readSnapshot s = .ok s')
    (h : s'.withoutAttributes = s.withoutAttributes) : ∀ o ∈ s.objects, Plain o := by
  obtain ⟨objects, hobjects, rfl⟩ := readSnapshot_eq_ok.mp hread
  have hbare : objects.map withoutAttributes = objects := by
    refine map_eq_self.mpr fun o' ho' => ?_
    obtain ⟨o, -, ho⟩ := (mapM_ok hobjects).2 o' ho'
    exact readObject_bare ho
  have hsame : objects = s.objects.map Registry.withoutAttributes := by
    rw [← hbare]
    exact congrArg (·.objects) h
  rw [hsame] at hobjects
  exact fun o ho => readObject_eq_self.mp (mapM_eq_map.mp hobjects o ho)

/-- The store is faithful to a camera exactly when nobody else has written or removed its file
    since, to any effect, and the objects that were saved last are plain. -/
theorem load_faithful_iff (table : AlnumTable) (calls : List StoreCall) (cameraId : CameraId) :
    Faithful table calls cameraId ↔
      lastSaved (pathName table) (pathName table cameraId) calls = lastSaved id cameraId calls ∧
      ∀ s, lastSaved id cameraId calls = some s → ∀ o ∈ s.objects, Plain o := by
  obtain ⟨hown, hlast⟩ := @lastSaved_of_own table cameraId calls
  unfold Faithful
  have hfile := get?_calls table (pathName table cameraId) calls
  cases hheld : lastSaved (pathName table) (pathName table cameraId) calls with
  | none =>
    have hload : load table cameraId (calls.foldl (after table) ∅) = .ok none := by
      unfold load
      rw [hfile, hheld]
      rfl
    rw [hload]
    cases lastSaved id cameraId calls with
    | none => exact ⟨fun _ => ⟨rfl, fun _ h => (by cases h)⟩, fun _ => rfl⟩
    | some s => exact ⟨fun h => (by cases h), fun h => (by cases h.1)⟩
  | some held =>
    rw [hheld] at hfile
    constructor
    · intro h
      cases hload : load table cameraId (calls.foldl (after table) ∅) with
      | error exc =>
        rw [hload] at h
        cases h
      | ok result =>
        obtain ⟨s', hread, rfl⟩ := (load_of_get? hfile).mp hload
        rw [hload] at h
        obtain ⟨s, hs, hbare⟩ := map_eq_some_iff.mp (ok.inj h).symm
        obtain ⟨objects, -, hs'⟩ := readSnapshot_eq_ok.mp hread
        have hcamera : held.cameraId = cameraId := by
          rw [← hown s hs]
          exact (congrArg (·.cameraId) (hbare.trans (by rw [hs']))).symm
        have hsame := hlast held hheld hcamera
        rw [hs] at hsame
        cases hsame
        refine ⟨hs.symm, fun s₀ hs₀ => ?_⟩
        rw [hs] at hs₀
        cases hs₀
        exact plain_of_withoutAttributes hread hbare.symm
    · rintro ⟨hsame, hplain⟩
      rw [← hsame]
      have hread : readSnapshot held = .ok held.withoutAttributes := by
        refine readSnapshot_eq_ok.mpr ⟨_, mapM_eq_map.mpr fun o ho => ?_, rfl⟩
        exact readObject_eq_self.mpr (hplain held hsame.symm o ho)
      rw [(load_of_get? hfile).mpr ⟨_, hread, rfl⟩]
      show ok (some _) = ok (some _)
      simp [StoredSnapshot.withoutAttributes, withoutAttributes]

def gateSnapshot : StoredSnapshot where
  cameraId := "gate/1"
  takenAt := ⟨0⟩
  siteId := "yard"
  version := 0

/-- It is loaded for a camera that was never saved. -/
theorem shares_a_file : ¬ ∀ calls cameraId, Faithful .ofAscii calls cameraId := by
  intro h
  have hload := h [.save gateSnapshot none] "gate_1"
  have hsome : (load .ofAscii "gate_1"
      (after .ofAscii ∅ (.save gateSnapshot none))).toOption.join.isSome = true := by decide +kernel
  have hnone : lastSaved id "gate_1" [.save gateSnapshot none] = none :=
    Option.isNone_iff_eq_none.mp (by decide +kernel)
  unfold Faithful at hload
  rw [hnone] at hload
  simp only [foldl_cons, foldl_nil] at hload
  cases hloaded : load .ofAscii "gate_1" (after .ofAscii ∅ (.save gateSnapshot none)) with
  | error exc =>
    rw [hloaded] at hsome
    cases hsome
  | ok result =>
    rw [hloaded] at hload hsome
    cases result with
    | none => cases hsome
    | some s => cases hload

end FileObjectStore

end VisionOs.Registry
