/-
  What the log's codec preserves, part by part of the envelope, and the exact condition under
  which an observation comes back.
-/
import VisionOs.Synthesis.Codec

namespace VisionOs.Synthesis

open Core List ObservationFields Option Except ProvenanceFields CoverageFields CoverageWindow
open ConfidenceFields
open ConfidenceSemantics
open FrameRefFields

/-! ## The parts of a record -/

def emptyToNone (s : Option String) : Option String := if s = some "" then none else s

theorem emptyToNone_eq_self {s : Option String} : emptyToNone s = s ↔ s ≠ some "" := by
  unfold emptyToNone
  split
  · rename_i h
    rw [h]
    simp
  · rename_i h
    simp [h]

theorem strIfTruthy_strOrNone (s : Option String) :
    strIfTruthy (strOrNone s) = .ok (emptyToNone s) := by
  cases s with
  | none => rfl
  | some s =>
    by_cases hs : s = ""
    · subst hs
      rfl
    · simp [strOrNone, strIfTruthy, emptyToNone, truthy, asStr, hs, Except.map]

theorem asStrOrNone_strOrNone (s : Option String) :
    asStrOrNone (strOrNone s) = .ok (emptyToNone s) := by
  cases s with
  | none => rfl
  | some s =>
    by_cases hs : s = ""
    · subst hs
      rfl
    · simp [strOrNone, asStrOrNone, emptyToNone, asStr, hs, Except.map]

def readProvenance (p : Provenance) : Provenance where
  producerModule := p.producerModule
  producerVersion := p.producerVersion
  configRevision := p.configRevision
  modelId := emptyToNone p.modelId
  modelArtifactHash := p.modelArtifactHash
  accepted := by
    obtain ⟨hmodule, hrevision, hhash⟩ := postInit_eq_ok.mp p.accepted
    refine postInit_eq_ok.mpr ⟨hmodule, hrevision, fun hmodel => hhash ?_⟩
    rintro hnone
    rw [hnone] at hmodel
    exact hmodel rfl

theorem decodeProvenance_encode (p : Provenance) :
    decodeProvenance (encodeProvenance p) = .ok (readProvenance p) := by
  have hhash : asStrOrNone (orNone .str p.modelArtifactHash) = .ok p.modelArtifactHash := by
    cases p.modelArtifactHash <;> rfl
  unfold decodeProvenance encodeProvenance
  simp only [item, getOr, lookup_cons, String.reduceBEq, ok_bind, asStr_str, getD_some,
    asStrOrNone_strOrNone, hhash]
  exact constructWith_eq_ok (readProvenance p).accepted

theorem enumOf_semantics (s : ConfidenceSemantics) :
    enumOf "ConfidenceSemantics" members value
      (.str s.value) = .ok s := by
  cases s <;> rfl

def readConfidence (c : Confidence) : Confidence where
  value := c.value
  semantics := c.semantics
  rawScore := some c.value
  accepted := postInit_uncalibrated c.semantics c.value_inUnit

theorem construct_readConfidence (c : Confidence) :
    Confidence.construct
      { value := c.value, semantics := c.semantics, calibrated := false,
        rawScore := some c.value } = .ok (readConfidence c) :=
  constructWith_eq_ok (readConfidence c).accepted

theorem decodeConfidence_encode (c : Option Confidence) :
    decodeConfidence (encodeConfidence c) = .ok (c.map readConfidence) := by
  cases c with
  | none => rfl
  | some c =>
    unfold decodeConfidence encodeConfidence
    simp only [truthy_dict_cons, Bool.not_true, Bool.false_eq_true, if_false, item,
      lookup_cons, String.reduceBEq, ok_bind, asFloat_float, enumOf_semantics, construct_readConfidence]
    rfl

def readAttribute (p : Provenance) (a : Attribute) : Attribute where
  key := a.key
  schemaVersion := a.schemaVersion
  value := a.value
  confidence := readConfidence a.confidence
  observedAt := a.observedAt
  producer := readProvenance p
  accepted := require_eq_ok.mpr (require_eq_ok.mp a.accepted)

theorem decodeAttribute_encode (p : Provenance) (a : Attribute) :
    decodeAttribute (encodeProvenance p) (encodeAttribute a) = .ok (readAttribute p a) := by
  unfold decodeAttribute encodeAttribute
  simp only [item, getOr, lookup_cons, String.reduceBEq, ok_bind, asStr_str, asFloat_float,
    asInt_int, getD_some, enumOf_semantics, construct_readConfidence, decodeProvenance_encode]
  exact constructWith_eq_ok (readAttribute p a).accepted

theorem mapM_decodeAttribute (p : Provenance) (attributes : List Attribute) :
    (attributes.map encodeAttribute).mapM (decodeAttribute (encodeProvenance p)) =
      .ok (attributes.map (readAttribute p)) := by
  induction attributes with
  | nil => rfl
  | cons a rest ih =>
    rw [map_cons, mapM_cons, ih, decodeAttribute_encode]
    rfl

theorem enumOf_lifecycle (s : LifecycleState) :
    enumOf "LifecycleState" LifecycleState.members LifecycleState.value (.str s.value) =
      .ok s := by
  cases s <;> rfl

theorem decodeLifecycleState_encode (s : Option LifecycleState) :
    decodeLifecycleState (orNone (fun state : LifecycleState => .str state.value) s) = .ok s := by
  cases s with
  | none => rfl
  | some s => cases s <;> rfl

theorem decodeTransition_encode (t : Option LifecycleTransition) :
    decodeTransition (encodeTransition t) = .ok t := by
  cases t with
  | none => rfl
  | some t =>
    unfold decodeTransition encodeTransition
    simp only [truthy_dict_cons, Bool.not_true, Bool.false_eq_true, if_false, item, getOr,
      lookup_cons, String.reduceBEq, ok_bind, asStr_str, getD_some, enumOf_lifecycle]
    rw [LifecycleTransition.construct, constructWith_eq_ok t.accepted]
    rfl

def readWindow (w : CoverageWindow) : CoverageWindow where
  toCoverageFields := { w.toCoverageFields with
    untilInstant := if w.untilInstant = some ⟨0⟩ then none else w.untilInstant }
  accepted := postInit_eq_ok.mpr (postInit_eq_ok.mp w.accepted)

theorem mapM_decodeGap (gaps : List (String × String)) :
    (gaps.map fun gap => PyValue.list [.str gap.1, .str gap.2]).mapM decodeGap = .ok gaps := by
  induction gaps with
  | nil => rfl
  | cons gap rest ih =>
    rw [map_cons, mapM_cons, ih]
    rfl

theorem enumOf_status (s : ObservabilityStatus) :
    enumOf "ObservabilityStatus" ObservabilityStatus.members ObservabilityStatus.value
      (.str s.value) = .ok s := by
  cases s <;> rfl

theorem enumOf_reason (r : ObservabilityReason) :
    enumOf "ObservabilityReason" ObservabilityReason.members ObservabilityReason.value
      (.str r.value) = .ok r := by
  cases r <;> rfl

theorem instantIfTruthy_encode (t : Option Instant) :
    instantIfTruthy (orNone (fun t : Instant => .int t.ns) t) =
      .ok (if t = some ⟨0⟩ then none else t) := by
  cases t with
  | none => rfl
  | some t =>
    by_cases ht : t.ns = 0
    · have hzero : t = ⟨0⟩ := Instant.ext ht
      simp [instantIfTruthy, orNone, truthy, hzero]
    · have hzero : t ≠ ⟨0⟩ := fun h => ht (congrArg Instant.ns h)
      simp [instantIfTruthy, orNone, truthy, ht, hzero, Except.map]

theorem decodeCoverage_encode (w : Option CoverageWindow) :
    decodeCoverage (encodeCoverage w) = .ok (w.map readWindow) := by
  cases w with
  | none => rfl
  | some w =>
    unfold decodeCoverage encodeCoverage
    simp only [truthy_dict_cons, Bool.not_true, Bool.false_eq_true, if_false, item, getOr,
      lookup_cons, String.reduceBEq, ok_bind, asInt_int, asFloat_float, getD_some,
      enumOf_status, enumOf_reason, PyValue.toTuple, mapM_asStr, mapM_decodeGap,
      instantIfTruthy_encode]
    show some <$> construct (readWindow w).toCoverageFields = _
    rw [construct, constructWith_eq_ok (readWindow w).accepted]
    rfl

/-- A position without a ground point, and what its constructor makes of it. -/
def readSpatial (s : SpatialInfo) : Raises SpatialInfo :=
  SpatialInfo.construct
    { frameOfReference := s.frameOfReference, bbox := s.bbox
      calibrationId := emptyToNone s.calibrationId }

theorem enumOf_frameOfReference (f : FrameOfReference) :
    enumOf "FrameOfReference" FrameOfReference.members FrameOfReference.value (.str f.value) =
      .ok f := by
  cases f <;> rfl

theorem decodeBox_encode (box : Option Box) :
    decodeBox (orNone (fun box : Box =>
      .list [.float box.x1, .float box.y1, .float box.x2, .float box.y2]) box) = .ok box := by
  cases box with
  | none => rfl
  | some box =>
    unfold decodeBox orNone
    simp only [truthy_list_cons, Bool.not_true, Bool.false_eq_true, if_false, asFloat_float,
      ok_bind]
    rw [Box.construct, constructWith_eq_ok box.accepted]
    rfl

def spatialRecord : Option SpatialInfo → PyValue
  | none => .none
  | some s =>
    .dict [
      ("frame_of_reference", .str s.frameOfReference.value),
      ("calibration_id", strOrNone s.calibrationId),
      ("bbox", orNone (fun box : Box =>
        .list [.float box.x1, .float box.y1, .float box.x2, .float box.y2]) s.bbox),
      ("ground_point", .none),
      ("ground_uncertainty", .none)]

theorem encodeSpatial_eq_ok {s : Option SpatialInfo} {record : PyValue}
    (h : encodeSpatial s = .ok record) : record = spatialRecord s := by
  unfold encodeSpatial at h
  cases s with
  | none => exact (ok.inj h).symm
  | some s =>
    dsimp only at h
    split at h
    · cases h
    · exact (ok.inj h).symm

theorem decodeSpatial_record (s : Option SpatialInfo) :
    decodeSpatial (spatialRecord s) =
      match s with
      | none => .ok none
      | some s => some <$> readSpatial s := by
  cases s with
  | none => rfl
  | some s =>
    have hpoint : decodePoint .none .none = .ok none := rfl
    have hellipse : decodeEllipse .none .none = .ok none := rfl
    unfold decodeSpatial spatialRecord
    simp only [truthy_dict_cons, Bool.not_true, Bool.false_eq_true, if_false, item, getOr,
      lookup_cons, String.reduceBEq, ok_bind, getD_some, enumOf_frameOfReference,
      decodeBox_encode, strIfTruthy_strOrNone, hpoint, hellipse]
    rfl

/-! ## The frame reference -/

variable {n : Int}

theorem toString_of_nonneg (h : 0 ≤ n) : toString n = toString n.toNat := by
  cases n with
  | ofNat n => rfl
  | negSucc n => exact absurd h (by omega)

theorem pySplit_tagged {tag : Char} (htag : tag ≠ '/') (n : Nat) :
    pySplit (String.singleton tag ++ toString n) '/' = [String.singleton tag ++ toString n] := by
  refine pySplit_of_not_mem (fun h => ?_)
  have hmem : '/' ∈ tag :: Nat.toDigits 10 n := by
    simpa [Nat.toString_eq_repr] using h
  rcases mem_cons.mp hmem with heq | hdigit
  · exact htag heq.symm
  · obtain ⟨d, hd, heq⟩ := exists_digitChar hdigit
    exact digitChar_ne_of_not_digit hd (by decide) heq.symm

theorem pySplit_str (f : FrameRef) :
    pySplit f.str '/' = pySplit f.cameraId '/' ++
      [String.singleton 'e' ++ toString f.streamEpoch.toNat,
        String.singleton 'f' ++ toString f.frameSeq.toNat] := by
  obtain ⟨hepoch, hseq⟩ := postInit_eq_ok.mp f.accepted
  have htext : f.str = f.cameraId ++ String.singleton '/' ++
      (String.singleton 'e' ++ toString f.streamEpoch.toNat) ++ String.singleton '/' ++
      (String.singleton 'f' ++ toString f.frameSeq.toNat) := by
    unfold FrameRef.str
    rw [toString_of_nonneg hepoch, toString_of_nonneg hseq]
    apply String.toList_injective
    simp
    rfl
  rw [htext, pySplit_append, pySplit_append, pySplit_tagged (by decide),
    pySplit_tagged (by decide), append_assoc]
  rfl

/-- The part reads as the number, or is no such part and the number is 0. -/
def PartReads (tables : UnicodeTables) (part : String) (tag : Char) (n : Int) : Prop :=
  if startsWithChar part tag then tables.pyInt (dropFirst part) = .ok n else n = 0

variable {tables : UnicodeTables}

theorem framePart_eq_ok {parts : List String} {index : Nat}
    {part : String} {tag : Char} (hpart : parts[index]? = some part) :
    framePart tables parts index tag = .ok n ↔ PartReads tables part tag n := by
  unfold framePart PartReads
  rw [hpart]
  dsimp only
  split
  · exact Iff.rfl
  · simp [eq_comm]

theorem partReads_tagged (tables : UnicodeTables) (tag : Char) (h : 0 ≤ n)
    (hshort : (PyValue.int n).printable = true) {m : Int} :
    PartReads tables (String.singleton tag ++ toString n.toNat) tag m ↔ m = n := by
  have hstarts : startsWithChar (String.singleton tag ++ toString n.toNat) tag = true := by
    simp [startsWithChar]
  have hdrop : dropFirst (String.singleton tag ++ toString n.toNat) = toString n.toNat := by
    apply String.toList_injective
    simp [dropFirst]
  unfold PartReads
  have hdigits : n.toNat < 10 ^ PyValue.maxStrDigits := by
    have hsame : n.toNat = n.natAbs := by omega
    rw [hsame]
    exact of_decide_eq_true hshort
  rw [if_pos hstarts, hdrop, tables.pyInt_toString hdigits, Int.toNat_of_nonneg h]
  exact ⟨fun heq => (ok.inj heq).symm, fun heq => congrArg ok heq.symm⟩

/-- The text of the frame reference reads as its numbers, whatever slashes the camera id has. -/
def FrameTextReads (tables : UnicodeTables) (f : FrameRef) : Prop :=
  match pySplit f.cameraId '/' with
  | _ :: second :: third :: _ =>
    PartReads tables second 'e' f.streamEpoch ∧ PartReads tables third 'f' f.frameSeq
  | [_, second] => PartReads tables second 'e' f.streamEpoch ∧ f.frameSeq = 0
  | _ => True

theorem frameTextReads_of_no_slash {f : FrameRef}
    (h : '/' ∉ f.cameraId.toList) : FrameTextReads tables f := by
  unfold FrameTextReads
  rw [pySplit_of_not_mem h]
  trivial

theorem decodeFrameRef_eq_ok {f : FrameRef} (hwritten : FrameWritten f) :
    decodeFrameRef tables f.str f.cameraId = .ok f ↔ FrameTextReads tables f := by
  obtain ⟨hepoch, hseq⟩ := postInit_eq_ok.mp f.accepted
  have hparts : decodeFrameRef tables f.str f.cameraId = .ok f ↔
      framePart tables (pySplit f.str '/') 1 'e' = .ok f.streamEpoch ∧
        framePart tables (pySplit f.str '/') 2 'f' = .ok f.frameSeq := by
    unfold decodeFrameRef
    rw [bind_eq_ok]
    constructor
    · rintro ⟨epoch, hfirst, hrest⟩
      obtain ⟨seq, hsecond, hconstruct⟩ := bind_eq_ok.mp hrest
      obtain ⟨haccepted, hfields⟩ := constructWith_eq_ok_iff.mp hconstruct
      have hepoch' : epoch = f.streamEpoch := congrArg (fun g : FrameRef => g.streamEpoch) hfields
      have hseq' : seq = f.frameSeq := congrArg (fun g : FrameRef => g.frameSeq) hfields
      rw [← hepoch', ← hseq']
      exact ⟨hfirst, hsecond⟩
    · rintro ⟨hfirst, hsecond⟩
      refine ⟨_, hfirst, bind_eq_ok.mpr ⟨_, hsecond, ?_⟩⟩
      exact constructWith_eq_ok f.accepted
  rw [hparts, pySplit_str]
  unfold FrameTextReads
  -- The segments of the camera id come first, and there is at least one.
  cases hsegments : pySplit f.cameraId '/' with
  | nil =>
    have hne := splitOn_ne_nil '/' (String.toList f.cameraId)
    exact absurd (map_eq_nil_iff.mp hsegments) hne
  | cons first segments =>
    cases segments with
    | nil =>
      rw [framePart_eq_ok rfl, framePart_eq_ok rfl,
        partReads_tagged tables 'e' hepoch hwritten.1, partReads_tagged tables 'f' hseq hwritten.2]
      simp
    | cons second segments =>
      cases segments with
      | nil =>
        rw [framePart_eq_ok rfl, framePart_eq_ok rfl]
        have hno : startsWithChar (String.singleton 'e' ++ toString f.streamEpoch.toNat) 'f' =
            false := by
          simp [startsWithChar]
        have hthird : PartReads tables (String.singleton 'e' ++ toString f.streamEpoch.toNat)
            'f' f.frameSeq ↔ f.frameSeq = 0 := by
          unfold PartReads
          rw [hno]
          exact Iff.rfl
        rw [hthird]
      | cons third segments => rw [framePart_eq_ok rfl, framePart_eq_ok rfl]

/-! ## The whole record -/

theorem areJson_map {α : Type} {f : α → PyValue} {xs : List α}
    (h : ∀ x ∈ xs, isJson (f x) = true) : areJson (xs.map f) = true := by
  induction xs with
  | nil => rfl
  | cons x rest ih =>
    simp only [map_cons, areJson, Bool.and_eq_true]
    exact ⟨h x (by simp), ih (fun y hy => h y (mem_cons_of_mem _ hy))⟩

theorem isJson_orNone {α : Type} {f : α → PyValue} {a : Option α}
    (h : ∀ x, isJson (f x) = true) : isJson (orNone f a) = true := by
  cases a with
  | none => rfl
  | some a => exact h a

theorem isJson_strOrNone (s : Option String) : isJson (strOrNone s) = true := by
  unfold strOrNone
  split
  · rfl
  · split <;> rfl

variable {o : Observation}

theorem isJson_encodeRecord (h : ∀ a ∈ o.attributes, isJson a.value = true) :
    isJson (encodeRecord o (spatialRecord o.spatial)) = true := by
  have hstr : ∀ s : String, isJson (.str s) = true := fun _ => rfl
  have hint : ∀ t : Instant, isJson (.int t.ns) = true := fun _ => rfl
  have hspatial : isJson (spatialRecord o.spatial) = true := by
    cases o.spatial with
    | none => rfl
    | some s =>
      simp only [spatialRecord, isJson, entriesAreJson, isJson_strOrNone, Bool.true_and,
        Bool.and_true]
      exact isJson_orNone (fun box => rfl)
  have hcoverage : isJson (encodeCoverage o.coverage) = true := by
    cases o.coverage with
    | none => rfl
    | some w =>
      simp only [encodeCoverage, isJson, entriesAreJson, isJson_orNone hint,
        areJson_map (fun s _ => hstr s), Bool.true_and, Bool.and_true]
      exact areJson_map (fun gap _ => rfl)
  have htransition : isJson (encodeTransition o.lifecycleTransition) = true := by
    cases o.lifecycleTransition <;> rfl
  have hconfidence : isJson (encodeConfidence o.confidence) = true := by
    cases o.confidence <;> rfl
  have hattributes : areJson (o.attributes.map encodeAttribute) = true := by
    refine areJson_map (fun a ha => ?_)
    simp only [encodeAttribute, isJson, entriesAreJson, h a ha, Bool.true_and]
  have hprovenance : isJson (encodeProvenance o.provenance) = true := by
    simp only [encodeProvenance, isJson, entriesAreJson, isJson_strOrNone, Bool.true_and,
      Bool.and_true]
    exact isJson_orNone hstr
  simp only [encodeRecord, isJson, entriesAreJson, hspatial, hcoverage, htransition,
    isJson_strOrNone, isJson_orNone (fun state : LifecycleState => hstr state.value),
    isJson_orNone (fun evidence : EvidenceRef => hstr evidence.evidenceId), hconfidence,
    hattributes, hprovenance, areJson_map (fun s _ => hstr s), Bool.true_and]

def readPosition : Option SpatialInfo → Raises (Option SpatialInfo)
  | none => .ok none
  | some s => some <$> readSpatial s

def readEvidence (e : EvidenceRef) : EvidenceRef where
  evidenceId := e.evidenceId
  accepted := by
    have hid := require_eq_ok.mp (check_bind_eq_ok.mp e.accepted).1
    unfold EvidenceFields.postInit
    rw [check_bind_eq_ok, require_eq_ok, require_eq_ok]
    exact ⟨hid, by simp⟩

theorem decodeEvidence_encode (e : Option EvidenceRef) :
    decodeEvidence (orNone (fun evidence : EvidenceRef => .str evidence.evidenceId) e) =
      .ok (e.map readEvidence) := by
  cases e with
  | none => rfl
  | some e =>
    have hid := require_eq_ok.mp (check_bind_eq_ok.mp e.accepted).1
    have htruthy : truthy (.str e.evidenceId) = true := decide_eq_true hid
    unfold decodeEvidence orNone
    simp only [htruthy, Bool.not_true, Bool.false_eq_true, if_false, asStr_str, ok_bind]
    show some <$> EvidenceRef.construct (readEvidence e).toEvidenceFields = _
    rw [EvidenceRef.construct, constructWith_eq_ok (readEvidence e).accepted]
    rfl

def readFields (o : Observation) (frameRef : FrameRef) (spatial : Option SpatialInfo) :
    ObservationFields where
  observationId := o.observationId
  observationType := o.observationType
  tenantId := o.tenantId
  siteId := o.siteId
  cameraId := o.cameraId
  frameRef := frameRef
  tCapture := o.tCapture
  tCaptureUnc := o.tCaptureUnc
  clockQuality := o.clockQuality
  tPublished := o.tPublished
  provenance := readProvenance o.provenance
  objectId := emptyToNone o.objectId
  classId := emptyToNone o.classId
  taxonomyVersion := o.taxonomyVersion
  lifecycleState := o.lifecycleState
  confidence := o.confidence.map readConfidence
  attributes := o.attributes.map (readAttribute o.provenance)
  measurementBasis := o.measurementBasis
  evidenceRef := o.evidenceRef.map readEvidence
  coverage := o.coverage.map readWindow
  lifecycleTransition := o.lifecycleTransition
  spatial := spatial
  supersedes := emptyToNone o.supersedes
  lineage := o.lineage
  schemaVersion := o.schemaVersion

theorem enumOf_observationType (k : ObservationType) :
    enumOf "ObservationType" ObservationType.members ObservationType.value (.str k.value) =
      .ok k := by
  cases k <;> rfl

theorem enumOf_measurementBasis (b : MeasurementBasis) :
    enumOf "MeasurementBasis" MeasurementBasis.members MeasurementBasis.value (.str b.value) =
      .ok b := by
  cases b <;> rfl

theorem decodeClockQuality_label (q : ClockQuality) : decodeClockQuality (.str q.label) = q := by
  cases q <;> rfl

theorem build_encodeRecord (tables : UnicodeTables) (o : Observation) :
    build tables (encodeRecord o (spatialRecord o.spatial)) = (do
      let frameRef ← decodeFrameRef tables o.frameRef.str o.cameraId
      let spatial ← readPosition o.spatial
      Observation.construct (readFields o frameRef spatial)) := by
  have hposition : decodeSpatial (spatialRecord o.spatial) = readPosition o.spatial := by
    rw [decodeSpatial_record]
    rfl
  unfold build encodeRecord
  simp only [item, getOr, lookup_cons, String.reduceBEq, ok_bind, asStr_str, asInt_int,
    getD_some, enumOf_observationType, decodeClockQuality_label, decodeProvenance_encode,
    strIfTruthy_strOrNone, decodeLifecycleState_encode, decodeConfidence_encode,
    PyValue.toTuple, mapM_decodeAttribute, enumOf_measurementBasis, decodeEvidence_encode,
    decodeCoverage_encode, decodeTransition_encode, hposition, mapM_asStr]
  rfl

/-! ## What survives -/

def attributeView (a : Attribute) : String × PyValue × String × PyFloat × Instant :=
  (a.key, a.value, a.schemaVersion, a.confidence.value, a.observedAt)

/-- The fields that must survive. -/
structure Agrees (o o' : Observation) : Prop where
  observationId : o'.observationId = o.observationId
  evidenceId : o'.evidenceRef.map (·.evidenceId) = o.evidenceRef.map (·.evidenceId)
  observationType : o'.observationType = o.observationType
  tenantId : o'.tenantId = o.tenantId
  siteId : o'.siteId = o.siteId
  cameraId : o'.cameraId = o.cameraId
  frameRef : o'.frameRef = o.frameRef
  tCapture : o'.tCapture = o.tCapture
  tCaptureUnc : o'.tCaptureUnc = o.tCaptureUnc
  clockQuality : o'.clockQuality = o.clockQuality
  objectId : o'.objectId = o.objectId
  classId : o'.classId = o.classId
  lifecycleState : o'.lifecycleState = o.lifecycleState
  spatial : o'.spatial = o.spatial
  coverage : o'.coverage = o.coverage
  lifecycleTransition : o'.lifecycleTransition = o.lifecycleTransition
  attributes : o'.attributes.map attributeView = o.attributes.map attributeView
  measurementBasis : o'.measurementBasis = o.measurementBasis
  provenance : o'.provenance = o.provenance
  supersedes : o'.supersedes = o.supersedes
  lineage : o'.lineage = o.lineage

/-- The observation is encoded, written, read and decoded to one that agrees with it. -/
def RoundTrips (tables : UnicodeTables) (room : Nat) (o : Observation) : Prop :=
  ∃ line o', encodeLine room o = .ok line ∧
    decodeObservation tables line = .ok (some o') ∧ Agrees o o'

/-- What the codec can carry: an observation that can be written out, of a type whose payload
    is encoded, a frame reference whose text reads back, a position without ground coordinates, no window that ends at instant 0,
    no optional id that is the empty string, and a provenance without the fields the
    encoder leaves out. -/
structure Carried (tables : UnicodeTables) (room : Nat) (o : Observation) : Prop where
  encodable : Encodable room o
  identity : o.observationType ≠ .identity
  quality : o.observationType ≠ .quality
  frameRef : FrameTextReads tables o.frameRef
  ground : ∀ s, o.spatial = some s → s.groundUncertainty = none
  calibration : ∀ s, o.spatial = some s → s.calibrationId ≠ some ""
  window : ∀ w, o.coverage = some w → w.untilInstant ≠ some ⟨0⟩
  object : o.objectId ≠ some ""
  class_ : o.classId ≠ some ""
  supersedes : o.supersedes ≠ some ""
  model : o.provenance.modelId ≠ some ""
  adapterId : o.provenance.adapterId = none
  adapterVersion : o.provenance.adapterVersion = none
  modelVersion : o.provenance.modelVersion = none
  deterministic : o.provenance.deterministic = false

theorem readProvenance_eq_self {p : Provenance} :
    readProvenance p = p ↔ p.modelId ≠ some "" ∧ p.adapterId = none ∧ p.adapterVersion = none ∧
      p.modelVersion = none ∧ p.deterministic = false := by
  obtain ⟨⟨producerModule, producerVersion, configRevision, adapterId, adapterVersion, modelId,
    modelVersion, modelArtifactHash, deterministic⟩, accepted⟩ := p
  simp only [readProvenance, Provenance.mk.injEq, ProvenanceFields.mk.injEq, true_and,
    emptyToNone_eq_self]
  constructor
  · rintro ⟨h1, h2, h3, h4, h5⟩
    exact ⟨h3, h1.symm, h2.symm, h4.symm, h5.symm⟩
  · rintro ⟨h1, h2, h3, h4, h5⟩
    exact ⟨h2.symm, h3.symm, h1, h4.symm, h5.symm⟩

theorem readWindow_eq_self {w : CoverageWindow} : readWindow w = w ↔ w.untilInstant ≠ some ⟨0⟩ := by
  obtain ⟨⟨status, reason, since, rate, regions, gaps, untilInstant⟩, accepted⟩ := w
  simp only [readWindow, CoverageWindow.mk.injEq, CoverageFields.mk.injEq, true_and]
  constructor
  · intro h hzero
    rw [hzero] at h
    simp at h
  · intro h
    rw [if_neg h]

theorem map_readWindow_eq_self {w : Option CoverageWindow} :
    w.map readWindow = w ↔ ∀ w', w = some w' → w'.untilInstant ≠ some ⟨0⟩ := by
  cases w with
  | none => exact ⟨fun _ w' h => (by cases h), fun _ => rfl⟩
  | some w =>
    rw [map_some, Option.some.injEq, readWindow_eq_self]
    exact ⟨fun h w' hw => some.inj hw ▸ h, fun h => h w rfl⟩

theorem map_some_eq_ok {α : Type} {x : Raises α} {a : α} :
    (some <$> x : Raises (Option α)) = .ok (some a) ↔ x = .ok a := by
  cases x with
  | error exc => exact ⟨fun h => (by cases h), fun h => (by cases h)⟩
  | ok b =>
    constructor
    · intro h
      exact congrArg ok (some.inj (ok.inj h))
    · intro h
      cases h
      rfl

theorem readPosition_eq_self {s : Option SpatialInfo} :
    readPosition s = .ok s ↔
      ∀ s', s = some s' → s'.groundUncertainty = none ∧ s'.calibrationId ≠ some "" := by
  cases s with
  | none => exact ⟨fun _ s' h => (by cases h), fun _ => rfl⟩
  | some s =>
    have hread : readPosition (some s) = .ok (some s) ↔ readSpatial s = .ok s :=
      map_some_eq_ok
    rw [hread]
    unfold readSpatial SpatialInfo.construct
    rw [constructWith_eq_ok_iff]
    have hground := (SpatialFields.postInit_eq_ok.mp s.accepted).2
    obtain ⟨⟨frame, bbox, calibrationId, groundPoint, groundUncertainty⟩, accepted⟩ := s
    constructor
    · rintro ⟨h, hfields⟩ s' hs'
      cases hs'
      simp only [SpatialInfo.mk.injEq, SpatialFields.mk.injEq, true_and,
        emptyToNone_eq_self] at hfields
      exact ⟨hfields.2.2.symm, hfields.1⟩
    · intro h
      obtain ⟨hnone, hcalibration⟩ := h _ rfl
      simp only at hnone hground hcalibration
      have hpoint : groundPoint = none := by
        by_contra hsome
        exact hground hsome hnone
      subst hnone hpoint
      have hsame := emptyToNone_eq_self.mpr hcalibration
      refine ⟨?_, ?_⟩
      · simp only [hsame]
        exact accepted
      · simp only [hsame]

theorem decodeObservation_eq_some {line : Json} :
    decodeObservation tables line = .ok (some o) ↔ build tables (loads line) = .ok o := by
  unfold decodeObservation
  cases build tables (loads line) with
  | ok o' =>
    constructor
    · intro h
      exact congrArg ok (some.inj (ok.inj h))
    · intro h
      exact congrArg (fun x => ok (some x)) (ok.inj h)
  | error exc =>
    refine ⟨fun h => ?_, fun h => (by cases h)⟩
    cases exc <;> cases h

theorem decode_encode_eq_some {o' : Observation}
    (hjson : ∀ a ∈ o.attributes, isJson a.value = true) {room : Nat} {line : Json}
    (hencode : encodeLine room o = .ok line) :
    decodeObservation tables line = .ok (some o') ↔
      ∃ frameRef spatial, decodeFrameRef tables o.frameRef.str o.cameraId = .ok frameRef ∧
        readPosition o.spatial = .ok spatial ∧
        ∃ haccepted, (⟨readFields o frameRef spatial, haccepted⟩ : Observation) = o' := by
  obtain ⟨record, hrecord, hline⟩ := bind_eq_ok.mp hencode
  obtain ⟨-, spatial, hspatial, rfl⟩ := encode_eq_ok.mp hrecord
  obtain ⟨-, rfl⟩ := dumps_eq_ok.mp hline
  rw [encodeSpatial_eq_ok hspatial]
  rw [decodeObservation_eq_some, loads_spelled (isJson_encodeRecord hjson), build_encodeRecord,
    bind_eq_ok]
  constructor
  · rintro ⟨frameRef, hframe, hrest⟩
    obtain ⟨position, hposition, hconstruct⟩ := bind_eq_ok.mp hrest
    exact ⟨frameRef, position, hframe, hposition, constructWith_eq_ok_iff.mp hconstruct⟩
  · rintro ⟨frameRef, position, hframe, hposition, hconstruct⟩
    refine ⟨frameRef, hframe, bind_eq_ok.mpr ⟨position, hposition, ?_⟩⟩
    exact constructWith_eq_ok_iff.mpr hconstruct

variable {room : Nat}

theorem Carried.accepted (h : Carried tables room o) :
    (readFields o o.frameRef o.spatial).postInit = .ok () := by
  obtain ⟨hid, hcamera, hunc, hpayload, hsupersedes, hlineage⟩ :=
    postInit_eq_ok.mp o.accepted
  have hobject := emptyToNone_eq_self.mpr h.object
  refine postInit_eq_ok.mpr ⟨hid, hcamera, hunc, ?_, ?_, hlineage⟩
  · constructor
    · intro hkind
      show emptyToNone o.objectId ≠ none
      rw [hobject]
      exact hpayload.object hkind
    · intro hkind
      obtain ⟨hwindow, hnone⟩ := hpayload.coverage hkind
      refine ⟨?_, ?_⟩
      · show o.coverage.map readWindow ≠ none
        simpa using hwindow
      · show emptyToNone o.objectId = none
        rw [hobject]
        exact hnone
    · exact hpayload.lifecycle
    · exact fun hkind => absurd hkind h.identity
    · intro hkind
      show o.attributes.map (readAttribute o.provenance) ≠ []
      simpa using hpayload.attributes hkind
    · exact fun hkind => absurd hkind h.quality
    · exact hpayload.spatial
  · show emptyToNone o.supersedes ≠ some o.observationId
    rw [emptyToNone_eq_self.mpr h.supersedes]
    exact hsupersedes

theorem carried_of_roundTrips
    (hjson : ∀ a ∈ o.attributes, isJson a.value = true) (h : RoundTrips tables room o) :
    Carried tables room o := by
  have hcamera := (postInit_eq_ok.mp o.accepted).2.1
  obtain ⟨line, o', hencode, hdecode, hagrees⟩ := h
  have hencodable := encodable_iff.mpr ⟨line, hencode⟩
  obtain ⟨frameRef, position, hframe, hposition, haccepted, rfl⟩ :=
    (decode_encode_eq_some hjson hencode).mp hdecode
  -- The constructor saw no identity assertion and no grades.
  have hpayload := (postInit_eq_ok.mp haccepted).2.2.2.1
  have hprovenance := readProvenance_eq_self.mp hagrees.provenance
  have hsame : position = o.spatial := hagrees.spatial
  have hspatial := readPosition_eq_self.mp (hsame ▸ hposition)
  have hsameFrame : frameRef = o.frameRef := hagrees.frameRef
  rw [hsameFrame, ← hcamera] at hframe
  exact {
    encodable := hencodable
    identity := fun hkind => hpayload.identity hkind rfl
    quality := fun hkind => hpayload.quality hkind rfl
    frameRef := (decodeFrameRef_eq_ok hencodable.frame).mp hframe
    ground := fun s hs => (hspatial s hs).1
    calibration := fun s hs => (hspatial s hs).2
    window := map_readWindow_eq_self.mp hagrees.coverage
    object := emptyToNone_eq_self.mp hagrees.objectId
    class_ := emptyToNone_eq_self.mp hagrees.classId
    supersedes := emptyToNone_eq_self.mp hagrees.supersedes
    model := hprovenance.1
    adapterId := hprovenance.2.1
    adapterVersion := hprovenance.2.2.1
    modelVersion := hprovenance.2.2.2.1
    deterministic := hprovenance.2.2.2.2 }

theorem Carried.agrees (h : Carried tables room o) :
    Agrees o ⟨readFields o o.frameRef o.spatial, h.accepted⟩ := by
  have hattributes : (o.attributes.map (readAttribute o.provenance)).map attributeView =
      o.attributes.map attributeView := by
    rw [List.map_map]
    rfl
  have hevidence : (o.evidenceRef.map readEvidence).map (·.evidenceId) =
      o.evidenceRef.map (·.evidenceId) := by
    rw [Option.map_map]
    rfl
  constructor
  case objectId => exact emptyToNone_eq_self.mpr h.object
  case classId => exact emptyToNone_eq_self.mpr h.class_
  case supersedes => exact emptyToNone_eq_self.mpr h.supersedes
  case coverage => exact map_readWindow_eq_self.mpr h.window
  case provenance =>
    exact readProvenance_eq_self.mpr
      ⟨h.model, h.adapterId, h.adapterVersion, h.modelVersion, h.deterministic⟩
  case attributes => exact hattributes
  case evidenceId => exact hevidence
  all_goals rfl

theorem Carried.roundTrips (h : Carried tables room o)
    (hjson : ∀ a ∈ o.attributes, isJson a.value = true) : RoundTrips tables room o := by
  have hcamera := (postInit_eq_ok.mp o.accepted).2.1
  obtain ⟨line, hencode⟩ := encodable_iff.mp h.encodable
  refine ⟨line, _, hencode, (decode_encode_eq_some hjson hencode).mpr
    ⟨o.frameRef, o.spatial, ?_, ?_, h.accepted, rfl⟩, h.agrees⟩
  · rw [← hcamera]
    exact (decodeFrameRef_eq_ok h.encodable.frame).mpr h.frameRef
  · exact readPosition_eq_self.mpr (fun s hs => ⟨h.ground s hs, h.calibration s hs⟩)

/-- An observation whose attribute values JSON can represent comes back from the log with
    every documented field as it was, if and only if the codec can carry it. -/
theorem round_trips_iff (tables : UnicodeTables) (room : Nat) {o : Observation}
    (hjson : ∀ a ∈ o.attributes, isJson a.value = true) :
    RoundTrips tables room o ↔ Carried tables room o :=
  ⟨carried_of_roundTrips hjson, fun h => h.roundTrips hjson⟩

def plainProvenance : Provenance where
  producerModule := "observation_builder"
  producerVersion := "1.0.0"
  configRevision := "revision"
  accepted := postInit_eq_ok.mpr ⟨by decide, by decide, nofun⟩

def postureAttribute : Attribute where
  key := "posture"
  schemaVersion := "1.0.0"
  value := .dict [("sitting", .bool true), ("angles", .list [.int 4, .none])]
  confidence := {
    value := .finite 1
    semantics := .attributeClaim
    rawScore := some (.finite 1)
    accepted := postInit_uncalibrated _ PyFloat.one_inUnit }
  observedAt := ⟨7⟩
  producer := plainProvenance
  accepted := rfl

theorem northFrame_accepted :
    postInit { cameraId := "north", streamEpoch := 3, frameSeq := 41 } = .ok () :=
  rfl

/-- The common fields of two observations of the object "person". -/
def personFields (observationType : ObservationType) (attributes : List Attribute)
    (quality : Option QualityGrades) : ObservationFields where
  observationId := "observation"
  observationType
  tenantId := "tenant"
  siteId := "site"
  cameraId := "north"
  frameRef := ⟨{ cameraId := "north", streamEpoch := 3, frameSeq := 41 }, northFrame_accepted⟩
  tCapture := ⟨7⟩
  tCaptureUnc := ⟨0⟩
  clockQuality := .ntpSynced
  tPublished := ⟨8⟩
  provenance := plainProvenance
  objectId := some "person"
  attributes
  quality

def postureObservation : Observation where
  toObservationFields := personFields .attributes [postureAttribute] none
  accepted := rfl

def qualityObservation : Observation where
  toObservationFields := personFields .quality [] (some {})
  accepted := rfl

/-- The attribute observation comes back. -/
theorem round_trips_posture : RoundTrips .ascii 900 postureObservation := by
  refine (round_trips_iff .ascii 900 ?_).mpr ?_
  · intro a ha
    rw [mem_singleton.mp ha]
    rfl
  · exact {
      encodable := encodable_iff.mpr (returns_of_isOk (by decide +kernel))
      identity := by decide
      quality := by decide
      frameRef := frameTextReads_of_no_slash (by decide)
      ground := fun s hs => (by cases hs)
      calibration := fun s hs => (by cases hs)
      window := fun w hw => (by cases hw)
      object := by decide
      class_ := by decide
      supersedes := by decide
      model := by decide
      adapterId := rfl
      adapterVersion := rfl
      modelVersion := rfl
      deterministic := rfl }

/-- The quality observation is encoded without its grades, and does not come back. -/
theorem quality_observation_lost : ¬ RoundTrips .ascii 900 qualityObservation := by
  intro h
  have hcarried := carried_of_roundTrips (fun a ha => by cases ha) h
  exact hcarried.quality rfl

end VisionOs.Synthesis
