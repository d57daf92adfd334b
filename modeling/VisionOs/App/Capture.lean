/-
  What `ComplianceDriver` stores as the evidence of a new incident: the retained frame of
  the decision with the crops taken from it, or the camera wall's current picture under
  another name.
-/
import VisionOs.App.DecisionFrames
import VisionOs.Compliance.Absence
import Mathlib.Data.List.Sort

namespace VisionOs.App

open Core Compliance Lib List Option DecisionFrameStore EvidenceStore

/-- A value that an attribute of a condition's outcome has. -/
inductive Attribute where
  | plain (value : PyValue)
  | reason (reason : UnknownReason)
  | instant (instant : Instant)

def getattr (c : ConditionOutcome) (name : String) : Option Attribute :=
  if name = "attribute_key" then some (.plain (.str c.attributeKey))
  else if name = "operator" then some (.plain (.str c.operator))
  else if name = "expected" then some (.plain c.expected)
  else if name = "observed" then some (.plain c.observed)
  else if name = "satisfied" then c.satisfied.map (.plain <| .bool ·)
  else if name = "unknown_reason" then c.unknownReason.map .reason
  else if name = "observed_at" then c.observedAt.map .instant
  else if name = "evidence_ref" then c.evidenceRef.map (.plain <| .str ·)
  else if name = "message" then some (.plain (.str c.message))
  else if name = "failed" then some (.plain (.bool c.failed))
  else if name = "unresolved" then some (.plain (.bool c.unresolved))
  else none

def Attribute.saysFailed (py : Interpreter) : Attribute → Bool
  | .plain (.str s) => s = "failed"
  | .plain value => py.str value = "failed"
  | .reason _ | .instant _ => false

def Attribute.nanoseconds : Attribute → Option Int
  | .plain (.int i) => if i = 0 then none else some i
  | _ => none

def observedAtNs (py : Interpreter) (finding : Finding) : Int :=
  let failed := finding.conditions.filter fun c => (getattr c "outcome").any (·.saysFailed py)
  let candidates := if failed.isEmpty then finding.conditions else failed
  (candidates.findSome? fun c => (getattr c "observed_at_ns").bind (·.nanoseconds)).getD 0

def evidenceRefOf (finding : Finding) : String :=
  (finding.conditions.findSome? fun c => c.evidenceRef.filter (· ≠ "")).getD ""

def storedRefOf (finding : Finding) : String :=
  if evidenceRefOf finding = "" then s!"finding:{finding.findingId}" else evidenceRefOf finding

def decisionFrameToleranceNs : Int := 30000000000

def decisionFrame (py : Interpreter) (frames : DecisionFrameStore) (finding : Finding) :
    Option DecisionFrame :=
  let observedAt := observedAtNs py finding
  if observedAt ≠ 0 then
    frames.nearestBefore finding.subject.cameraId finding.subject.objectId observedAt
      decisionFrameToleranceNs
  else frames.latestForObject finding.subject.cameraId finding.subject.objectId

def maxCropsPerIncident : Nat := 6

structure CropExhibit where
  evidenceRef : String
  objectId : ObjectId
  jpeg : Bytes

/-- The order of `(box[0], box[1])`. -/
def Box.before (a b : Box) : Bool := a.x1.lt b.x1 || (a.x1.eq b.x1 && a.y1.lt b.y1)

def exhibits (frame : DecisionFrame) (finding : Finding) (evidenceRef : String) :
    List CropExhibit :=
  let subjectId := finding.subject.objectId
  let subjectClass := finding.subject.classId
  let relevant := frame.subjects.entries.filter fun e =>
    e.1 = subjectId || (subjectClass ≠ "" && e.2.objectClass = subjectClass)
  if subjectId ∉ relevant.map Prod.fst then []
  else
    let ordered := relevant.insertionSort fun a b => (b.2.box.before a.2.box) = false
    let withPixels := ordered.filter (·.2.hasCrop)
    let subjectFirst :=
      withPixels.filter (·.1 = subjectId) ++ withPixels.filter (·.1 ≠ subjectId)
    (subjectFirst.take maxCropsPerIncident).map fun e =>
      { evidenceRef := s!"{evidenceRef}.crop.{e.1}", objectId := e.1,
        jpeg := e.2.cropJpeg.getD [] }

structure DriverSettings where
  defaultTenantId : TenantId
  evidenceCapture : Bool
  evidenceRetentionDays : Int

/-- What a capture meets: the settings, the retained frames, the camera wall (a camera without
    a stream and one without a picture alike), the disk and the clock. -/
structure CaptureContext where
  py : Interpreter
  hash : Blake2b
  settings : DriverSettings
  frames : DecisionFrameStore
  wall : Option (CameraId → Option Bytes)
  disk : Disk
  now : Instant

/-- The files after a capture, what it added to the session, and the handle it returns. -/
structure Captured where
  files : Files
  added : List PutRequest := []
  ref : String := ""

/-- `datetime.fromtimestamp`. -/
def fromTimestamp (ns : Int) : Raises Instant :=
  if Datable ns then .ok ⟨ns⟩ else .error (.valueError "year is out of range")

def purposeOf (finding : Finding) (kind : String) : String := s!"compliance:{finding.ruleId}:{kind}"

namespace CaptureContext

variable (ctx : CaptureContext)

/-- What `put` is called with, for the frame and for a crop. -/
def request (finding : Finding) (evidenceRef kind : String) (jpeg : Bytes) (capturedAt : Instant)
    (frameRef : String) (objectId : ObjectId) : PutRequest where
  organizationId := ctx.settings.defaultTenantId
  evidenceRef
  cameraKey := finding.subject.cameraId
  payload := jpeg
  capturedAt
  purpose := purposeOf finding kind
  retentionDays := ctx.settings.evidenceRetentionDays
  frameRef
  objectId

/-- `store.put`, in the session of the pass: the files as the write leaves them, and whether
    a row is added. -/
def store (files : Files) (request : PutRequest) : Files × Bool :=
  match writePayload ctx.hash ctx.disk files request with
  | (files, .error _) => (files, false)
  | (files, .ok ()) =>
    match newRecord ctx.hash ctx.now request with
    | .error _ => (files, false)
    | .ok _ => (files, true)

def storeCrop (finding : Finding) (capturedAt : Instant) (frameRef : String) (done : Captured)
    (exhibit : CropExhibit) : Captured :=
  let crop := ctx.request finding exhibit.evidenceRef "decision-crop" exhibit.jpeg capturedAt
    frameRef exhibit.objectId
  match ctx.store done.files crop with
  | (files, false) => { done with files }
  | (files, true) => { done with files, added := done.added ++ [crop] }

def storePicture (files : Files) (finding : Finding) (kind : String) (jpeg : Bytes)
    (capturedAt : Instant) (frameRef : String) (crops : List CropExhibit) : Captured :=
  let ref := storedRefOf finding
  let picture := ctx.request finding ref kind jpeg capturedAt frameRef finding.subject.objectId
  match ctx.store files picture with
  | (files, false) => { files }
  | (files, true) =>
    crops.foldl (ctx.storeCrop finding capturedAt frameRef) { files, added := [picture], ref }

def captureEvidence (files : Files) (finding : Finding) : Raises Captured :=
  if ctx.settings.evidenceCapture = false then .ok { files }
  else
    match decisionFrame ctx.py ctx.frames finding with
    | some frame => do
      let capturedAt ← fromTimestamp frame.capturedAtNs
      return ctx.storePicture files finding "decision-frame" frame.jpeg capturedAt frame.frameRef
        (exhibits frame finding (storedRefOf finding))
    | none =>
      match ctx.wall.bind (· finding.subject.cameraId) with
      | none | some [] => .ok { files }
      | some jpeg => .ok (ctx.storePicture files finding "context-frame" jpeg ctx.now "" [])

end CaptureContext

/-! ## Which frame is stored -/

/-- The purpose of a piece of evidence ends in its kind. -/
def EndsIn (purpose kind : String) : Prop := kind.toList <:+ purpose.toList

theorem getattr_observed_at_ns (c : ConditionOutcome) : getattr c "observed_at_ns" = none := by
  simp [getattr]

theorem observedAtNs_eq_zero (py : Interpreter) (finding : Finding) :
    observedAtNs py finding = 0 := by
  unfold observedAtNs
  simp only [getattr_observed_at_ns, bind_none]
  rw [findSome?_eq_none_iff.mpr (fun _ _ => rfl)]
  rfl

theorem decisionFrame_eq (py : Interpreter) (frames : DecisionFrameStore) (finding : Finding) :
    decisionFrame py frames finding =
      frames.latestForObject finding.subject.cameraId finding.subject.objectId := by
  unfold decisionFrame
  simp only [observedAtNs_eq_zero, ne_eq, not_true_eq_false, if_false]

theorem toList_purposeOf (finding : Finding) (kind : String) :
    (purposeOf finding kind).toList =
      ("compliance:" ++ finding.ruleId).toList ++ ':' :: kind.toList := by
  simp [purposeOf, String.toList_append, toString]

theorem endsIn_decision_frame (finding : Finding) :
    EndsIn (purposeOf finding "decision-frame") "decision-frame" := by
  unfold EndsIn
  rw [toList_purposeOf, append_cons]
  exact suffix_append _ _

theorem not_endsIn_of_length {kind : String} (hlength : kind.toList.length = 13)
    (finding : Finding) : ¬ EndsIn (purposeOf finding kind) "decision-frame" := by
  intro hends
  unfold EndsIn at hends
  rw [toList_purposeOf] at hends
  have hcolon : (':' :: kind.toList) <:+
      ("compliance:" ++ finding.ruleId).toList ++ ':' :: kind.toList := suffix_append _ _
  have hsame : "decision-frame".toList.length = (':' :: kind.toList).length := by
    rw [length_cons, hlength]
    rfl
  have hwithin := suffix_of_suffix_length_le hends hcolon hsame.le
  have heq := hwithin.eq_of_length hsame
  have hhead := congrArg List.head? heq
  simp at hhead

namespace CaptureContext

variable (ctx : CaptureContext)

variable {capturedAt : Instant} {frameRef : String} {finding : Finding}

theorem mem_added_storeCrops (crops : List CropExhibit) (done : Captured) :
    (∀ r ∈ done.added,
      r ∈ (crops.foldl (ctx.storeCrop finding capturedAt frameRef) done).added) ∧
    ∀ r ∈ (crops.foldl (ctx.storeCrop finding capturedAt frameRef) done).added,
      r ∈ done.added ∨ r.purpose = purposeOf finding "decision-crop" := by
  induction crops generalizing done with
  | nil => exact ⟨fun _ h => h, fun _ h => .inl h⟩
  | cons exhibit crops ih =>
    rw [foldl_cons]
    obtain ⟨hkeeps, hadds⟩ := ih (ctx.storeCrop finding capturedAt frameRef done exhibit)
    have hturn : (∀ r ∈ done.added,
          r ∈ (ctx.storeCrop finding capturedAt frameRef done exhibit).added) ∧
        ∀ r ∈ (ctx.storeCrop finding capturedAt frameRef done exhibit).added,
          r ∈ done.added ∨ r.purpose = purposeOf finding "decision-crop" := by
      unfold storeCrop
      dsimp only
      split
      · exact ⟨fun _ h => h, fun _ h => .inl h⟩
      · refine ⟨fun r hr => mem_append_left _ hr, fun r hr => ?_⟩
        rcases mem_append.mp hr with hr | hr
        · exact .inl hr
        · rw [mem_singleton.mp hr]
          exact .inr rfl
    refine ⟨fun r hr => hkeeps r (hturn.1 r hr), fun r hr => ?_⟩
    rcases hadds r hr with hr | hr
    · exact hturn.2 r hr
    · exact .inr hr

variable {files : Files}

variable {kind : String} {jpeg : Bytes} {crops : List CropExhibit}

theorem purpose_of_mem_storePicture {r : PutRequest}
    (hr : r ∈ (ctx.storePicture files finding kind jpeg capturedAt frameRef crops).added) :
    r = ctx.request finding (storedRefOf finding) kind jpeg capturedAt frameRef
        finding.subject.objectId ∨ r.purpose = purposeOf finding "decision-crop" := by
  unfold storePicture at hr
  dsimp only at hr
  split at hr
  · cases hr
  · rcases (ctx.mem_added_storeCrops crops _).2 r hr with hr | hr
    · exact .inl (mem_singleton.mp hr)
    · exact .inr hr

theorem mem_storePicture
    (hstored : (ctx.store files (ctx.request finding (storedRefOf finding) kind
      jpeg capturedAt frameRef finding.subject.objectId)).2 = true) :
    ctx.request finding (storedRefOf finding) kind jpeg capturedAt frameRef
        finding.subject.objectId ∈
      (ctx.storePicture files finding kind jpeg capturedAt frameRef crops).added := by
  unfold storePicture
  dsimp only
  split
  · rename_i hfailed
    rw [hfailed] at hstored
    cases hstored
  · exact (ctx.mem_added_storeCrops crops _).1 _ mem_cons_self

/-- A picture becomes a row exactly when the disk takes it and its expiry is a date. -/
theorem stored_iff {request : PutRequest} : (ctx.store files request).2 = true ↔
    ctx.disk.Takes files (ctx.hash.target request.organizationId request.payload) ∧
      Retainable ctx.now request.retentionDays := by
  rw [← writePayload_returns]
  unfold store
  rcases writePayload ctx.hash ctx.disk files request with ⟨files', exc | ⟨⟩⟩
  · simp
  dsimp only
  rcases hrecord : newRecord ctx.hash ctx.now request with exc | record
  · have hno : ¬ Retainable ctx.now request.retentionDays := fun hdate => by
      rw [newRecord_eq_ok.mpr ⟨hdate, rfl⟩] at hrecord
      cases hrecord
    simp [hno]
  · simp [(newRecord_eq_ok.mp hrecord).1]

/-- The frame shows the subject, and was captured within the tolerance before a failed
    condition's instant. -/
def OfDecision (finding : Finding) (frame : DecisionFrame) : Prop :=
  finding.subject.objectId ∈ frame.subjects.keys ∧
    ∃ c ∈ finding.failedConditions, ∃ observedAt, c.observedAt = some observedAt ∧
      frame.capturedAtNs ≤ observedAt.ns ∧
      observedAt.ns - frame.capturedAtNs ≤ decisionFrameToleranceNs

/-- Everything the capture stores under a purpose that ends in `decision-frame` is the frame of
    the decision. -/
def StoresDecisionFrames (files : Files) (finding : Finding) : Prop :=
  ∀ captured, ctx.captureEvidence files finding = .ok captured →
    ∀ r ∈ captured.added, EndsIn r.purpose "decision-frame" →
      ∃ frame, ctx.frames.get finding.subject.cameraId r.frameRef = some frame ∧
        r.payload = frame.jpeg ∧ r.capturedAt.ns = frame.capturedAtNs ∧
        OfDecision finding frame

/-- Where capturing is on, and the frame that shows the subject last can be dated, written and
    retained, that frame was captured within the tolerance before a failed condition's
    instant. -/
def LastSightingInTime (files : Files) (finding : Finding) : Prop :=
  ctx.settings.evidenceCapture = true →
    ∀ frame, DecisionFrameStore.LastSighting (ctx.frames.ring finding.subject.cameraId)
        finding.subject.objectId frame →
      Datable frame.capturedAtNs →
      ctx.disk.Takes files (ctx.hash.target ctx.settings.defaultTenantId frame.jpeg) →
      Retainable ctx.now ctx.settings.evidenceRetentionDays →
      ∃ c ∈ finding.failedConditions, ∃ observedAt, c.observedAt = some observedAt ∧
        frame.capturedAtNs ≤ observedAt.ns ∧
        observedAt.ns - frame.capturedAtNs ≤ decisionFrameToleranceNs

/-- A decision frame is the frame of the decision exactly when the last frame the subject was
    cut from happens to be: whatever the finding's instants are, that is the frame stored. -/
theorem storesDecisionFrames_iff (ctx : CaptureContext) (calls : List DecisionFrameStore.FrameCall)
    (files : Files) (finding : Finding) :
    let here := { ctx with frames := Runs.run call .initial calls }
    here.StoresDecisionFrames files finding ↔ here.LastSightingInTime files finding := by
  intro here
  have hnamed : here.frames.Named := named_run calls
  have hlookup := decisionFrame_eq here.py here.frames finding
  constructor
  · intro hstores hcapture frame hlast hdatable htakes hretainable
    have hlatest := latestForObject_eq_some.mpr hlast
    have hstored : (here.store files
        (here.request finding (storedRefOf finding) "decision-frame" frame.jpeg
          ⟨frame.capturedAtNs⟩ frame.frameRef finding.subject.objectId)).2 = true :=
      here.stored_iff.mpr ⟨htakes, hretainable⟩
    have hcaptured : here.captureEvidence files finding = .ok (here.storePicture files finding
        "decision-frame" frame.jpeg ⟨frame.capturedAtNs⟩ frame.frameRef
        (exhibits frame finding (storedRefOf finding))) := by
      unfold captureEvidence fromTimestamp
      rw [if_neg (by rw [hcapture]; decide), hlookup, hlatest]
      dsimp only
      rw [if_pos hdatable]
      rfl
    obtain ⟨frame', hget, -, -, -, hwindow⟩ :=
      hstores _ hcaptured _ (here.mem_storePicture hstored) (endsIn_decision_frame finding)
    -- One frame only stands under a reference.
    have hsame := (hlast.get hnamed).symm.trans hget
    cases hsame
    exact hwindow
  · intro hlastInTime captured hcaptured r hr hends
    unfold captureEvidence at hcaptured
    rw [hlookup] at hcaptured
    split at hcaptured
    · cases hcaptured
      cases hr
    rename_i hcapture
    split at hcaptured
    · rename_i frame hlatest
      have hlast := latestForObject_eq_some.mp hlatest
      obtain ⟨capturedAt, hdate, hstored⟩ := bind_eq_ok.mp hcaptured
      cases hstored
      unfold fromTimestamp at hdate
      split at hdate
      · rename_i hrange
        cases hdate
        rcases here.purpose_of_mem_storePicture hr with rfl | hcrop
        · have hcaptureOn : here.settings.evidenceCapture = true := by
            simpa using hcapture
          have hstored : (here.store files
              (here.request finding (storedRefOf finding) "decision-frame" frame.jpeg
                ⟨frame.capturedAtNs⟩ frame.frameRef finding.subject.objectId)).2 = true := by
            unfold storePicture at hr
            dsimp only at hr
            split at hr
            · cases hr
            · rename_i files' hok
              exact congrArg Prod.snd hok
          obtain ⟨htakes, hretainable⟩ := here.stored_iff.mp hstored
          refine ⟨frame, hlast.get hnamed, rfl, rfl, ?_, ?_⟩
          · obtain ⟨-, -, -, hcut, -⟩ := hlast
            exact hcut
          · exact hlastInTime hcaptureOn frame hlast hrange htakes hretainable
        · rw [hcrop] at hends
          exact absurd hends (not_endsIn_of_length (by decide) finding)
      · cases hdate
    · split at hcaptured
      · cases hcaptured
        cases hr
      · cases hcaptured
        cases hr
      · cases hcaptured
        rcases here.purpose_of_mem_storePicture hr with rfl | hcrop
        · exact absurd hends (not_endsIn_of_length (by decide) finding)
        · rw [hcrop] at hends
          exact absurd hends (not_endsIn_of_length (by decide) finding)

end CaptureContext

/-! ### A frame taken after the decision -/

/-- The bareheaded subject, observed 100 s into the day. -/
def observedBareheaded : Situation where
  view := {
    objectId := "object"
    classId := "person"
    cameraId := "camera"
    attributes := OrderedDict.empty.set "head_covering" {
      key := "head_covering"
      value := .str "none"
      observedAt := ⟨100000000000⟩
      validUntil := none
      evidenceRef := none } }
  now := ⟨100000000005⟩
  coverage := none
  capabilityGaps := []

def twoSightings : List DecisionFrameStore.FrameCall :=
  let subject : DecisionSubject :=
    { objectId := "object", box := ⟨.finite 0, .finite 0, .finite 1, .finite 1⟩,
      cropJpeg := none, objectClass := "person" }
  [.remember "camera" "camera/e0/f1" 100000000000 1 1 [255, 216],
    .attachSubject "camera" "camera/e0/f1" subject,
    .remember "camera" "camera/e0/f2" 160000000000 1 1 [255, 217],
    .attachSubject "camera" "camera/e0/f2" subject]

def capturingContext : CaptureContext where
  py := samplePython
  hash := spelledOut
  settings := { defaultTenantId := "org", evidenceCapture := true, evidenceRetentionDays := 30 }
  frames := Runs.run call .initial twoSightings
  wall := none
  disk := {}
  now := ⟨170000000000⟩

/-- The violation observed at 100 s is stored with the frame of 160 s as its decision frame. -/
theorem later_frame_stored :
    ∃ finding,
      sampleEvaluator.evaluateIn samplePython hairnetRule observedBareheaded "" = .ok finding ∧
      finding.state = .violation ∧ ¬ capturingContext.StoresDecisionFrames ∅ finding := by
  obtain ⟨finding, hfinding, hstate, hinstants, hcamera, hstored⟩ :
      ∃ f, sampleEvaluator.evaluateIn samplePython hairnetRule observedBareheaded "" = .ok f ∧
        f.state = .violation ∧ f.failedConditions.map (·.observedAt) = [some ⟨100000000000⟩] ∧
        f.subject.cameraId = "camera" ∧
        (capturingContext.captureEvidence ∅ f).toOption.any (fun captured =>
          decide (∃ r ∈ captured.added, r.purpose = "compliance:headwear:decision-frame" ∧
            r.frameRef = "camera/e0/f2")) = true := returns_of_any (by decide +kernel)
  have hframe : (capturingContext.frames.get "camera" "camera/e0/f2").map (·.capturedAtNs) =
      some 160000000000 := by decide +kernel
  obtain ⟨captured, hcaptured, r, hr, hpurpose, hframeRef⟩ := returns_of_any hstored
  refine ⟨finding, hfinding, hstate, fun hstores => ?_⟩
  have hends : EndsIn r.purpose "decision-frame" := by
    rw [hpurpose]
    unfold EndsIn
    decide
  obtain ⟨frame, hget, -, -, -, c, hc, observedAt, hobserved, hbefore, -⟩ :=
    hstores captured hcaptured r hr hends
  rw [hcamera, hframeRef] at hget
  rw [hget] at hframe
  have hcaptureTime : frame.capturedAtNs = 160000000000 := some.inj hframe
  have hinstant : some observedAt ∈ finding.failedConditions.map (·.observedAt) :=
    mem_map.mpr ⟨c, hc, hobserved⟩
  rw [hinstants, mem_singleton] at hinstant
  cases hinstant
  rw [hcaptureTime] at hbefore
  exact absurd hbefore (by decide)

end VisionOs.App
