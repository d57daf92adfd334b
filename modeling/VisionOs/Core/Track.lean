/-
  Tracks and detections, with what one frame did to a camera's tracks.  What no modelled function
  reads of them (evidence, motion, timing, grades, labels) is left out.
-/
import VisionOs.Core.VisualObject

namespace VisionOs.Core

inductive TrackState where
  | tentative | confirmed | coasting | lost | terminated
  deriving DecidableEq, Repr

namespace TrackState

def value : TrackState → String
  | tentative => "tentative"
  | confirmed => "confirmed"
  | coasting => "coasting"
  | lost => "lost"
  | terminated => "terminated"

/-- Whether a position in this state is inferred rather than measured. -/
def isPredicted (s : TrackState) : Bool := s = coasting || s = lost

end TrackState

def Box.isWithinUnit (b : Box) : Bool :=
  (PyFloat.finite 0).le b.x1 && (PyFloat.finite 0).le b.y1 &&
    b.x2.le (.finite 1) && b.y2.le (.finite 1)

structure TrackFields where
  trackId : TrackId
  cameraId : CameraId
  tenantId : TenantId
  siteId : SiteId
  state : TrackState
  classId : ClassId
  confidence : Confidence
  spatial : SpatialInfo
  measurementBasis : MeasurementBasis
  lastSeen : Instant
  lastUpdated : Instant
  ageFrames : Int
  hitCount : Int
  coastFrames : Int

def TrackFields.checkBox (t : TrackFields) : Raises Unit :=
  match t.spatial.bbox with
  | none => .error (.valueError "a Track must carry a bounding box")
  | some box => require (box.isWithinUnit = true) (.valueError
      [.text "track box Box(x1=", .float box.x1, .text ", y1=", .float box.y1, .text ", x2=",
        .float box.x2, .text ", y2=", .float box.y2, .text ") escapes normalized [0,1] space"])

def TrackFields.postInit (t : TrackFields) : Raises Unit := do
  require (t.confidence.semantics = .association) (.valueError
    s!"a Track must carry ASSOCIATION confidence, got {t.confidence.semantics.value} (port obligation T4)")
  require (t.trackId.cameraId = t.cameraId) (.valueError
    s!"track_id names camera {t.trackId.cameraId} but the track claims {t.cameraId}")
  t.checkBox
  require (¬ (t.ageFrames < 0 ∨ t.hitCount < 0 ∨ t.coastFrames < 0))
    (.valueError "track counters must be non-negative")
  require (¬ t.hitCount > t.ageFrames) (.valueError
    s!"hit_count {t.hitCount} exceeds age_frames {t.ageFrames}; a track cannot be measured more often than it existed")
  require (¬ (t.state.isPredicted = true ∧ t.measurementBasis = .measured)) (.valueError
    s!"a {t.state.value} track claims a MEASURED position; a predicted position presented as measured is invariant V8 violated at object scale")
  require (¬ (t.state = .coasting ∧ t.coastFrames = 0))
    (.valueError "a coasting track must have coasted at least one frame")
  require (¬ t.lastSeen.ns > t.lastUpdated.ns)
    (.valueError "last_seen cannot be later than last_updated")

variable {t : TrackFields}

theorem TrackFields.checkBox_eq_ok :
    t.checkBox = .ok () ↔ ∃ box, t.spatial.bbox = some box ∧ box.isWithinUnit = true := by
  unfold checkBox
  cases t.spatial.bbox with
  | none => exact ⟨nofun, fun ⟨_, h, _⟩ => by cases h⟩
  | some box => simp [require_eq_ok]

theorem TrackFields.postInit_eq_ok :
    t.postInit = .ok () ↔ t.confidence.semantics = .association ∧
      t.trackId.cameraId = t.cameraId ∧
      (∃ box, t.spatial.bbox = some box ∧ box.isWithinUnit = true) ∧
      (0 ≤ t.ageFrames ∧ 0 ≤ t.hitCount ∧ 0 ≤ t.coastFrames) ∧ t.hitCount ≤ t.ageFrames ∧
      (t.state.isPredicted = true → t.measurementBasis ≠ .measured) ∧
      (t.state = .coasting → t.coastFrames ≠ 0) ∧ t.lastSeen.ns ≤ t.lastUpdated.ns := by
  unfold postInit
  simp only [check_bind_eq_ok, require_eq_ok, checkBox_eq_ok, not_or, not_lt, not_and, ne_eq]

structure Track extends TrackFields where
  accepted : toTrackFields.postInit = .ok ()

/-- `Track(...)`. -/
def Track.construct : TrackFields → Raises Track :=
  constructWith TrackFields.postInit Track.mk

def Track.isPredicted (t : Track) : Bool := t.measurementBasis ≠ .measured

/-- What one frame did to a camera's tracks: those of its fields the registry reads. -/
structure TrackUpdate where
  cameraId : CameraId
  frameRef : FrameRef
  trackerEpoch : Int
  active : List Track := []

structure DetectionFields where
  tenantId : TenantId
  siteId : SiteId
  classId : ClassId
  taxonomyVersion : String
  confidence : Confidence
  spatial : SpatialInfo

def DetectionFields.checkBox (d : DetectionFields) : Raises Unit :=
  match d.spatial.bbox with
  | none => .error (.valueError "a Detection must carry a bounding box")
  | some box => require (box.isWithinUnit = true) (.valueError
      [.text "detection box Box(x1=", .float box.x1, .text ", y1=", .float box.y1, .text ", x2=",
        .float box.x2, .text ", y2=", .float box.y2,
        .text ") escapes normalized [0,1] space; adapters must invert letterboxing exactly (port obligation D1)"])

def DetectionFields.postInit (d : DetectionFields) : Raises Unit := do
  require (d.confidence.semantics = .detectionPresence) (.valueError
    s!"a Detection must carry DETECTION_PRESENCE confidence, got {d.confidence.semantics.value} (port obligation D3)")
  d.checkBox
  require (d.taxonomyVersion ≠ "")
    (.valueError "a Detection must name the taxonomy version it used")

variable {d : DetectionFields}

theorem DetectionFields.checkBox_eq_ok :
    d.checkBox = .ok () ↔ ∃ box, d.spatial.bbox = some box ∧ box.isWithinUnit = true := by
  unfold checkBox
  cases d.spatial.bbox with
  | none =>
    constructor
    · intro h
      cases h
    · rintro ⟨_, h, -⟩
      cases h
  | some box => simp [require_eq_ok]

theorem DetectionFields.postInit_eq_ok :
    d.postInit = .ok () ↔ d.confidence.semantics = .detectionPresence ∧
      (∃ box, d.spatial.bbox = some box ∧ box.isWithinUnit = true) ∧ d.taxonomyVersion ≠ "" := by
  unfold postInit
  simp only [check_bind_eq_ok, require_eq_ok, checkBox_eq_ok]

structure Detection extends DetectionFields where
  accepted : toDetectionFields.postInit = .ok ()

theorem Detection.hasBox (d : Detection) :
    ∃ box, d.spatial.bbox = some box ∧ box.isWithinUnit = true := by
  exact (DetectionFields.postInit_eq_ok.mp d.accepted).2.1

end VisionOs.Core
