/-
  The geometric tracker, one table of tracks for each camera, and the three configurations of it
  that ship.
-/
import VisionOs.Tracking.Matching

namespace VisionOs.Tracking

open Core Lib Effect TrackTable PyFloat

def trackerModule : String := "tracking_engine"

def motionFloor : ℚ := 1 / 100

def motionHysteresis : Int := 3

def erraticDirectionChanges : Int := 3

def clampUnit (x : ℚ) : ℚ := max 0 (min 1 x)

def confidenceFromCost (cost : ℚ) (runnerUp : Option ℚ) : ℚ :=
  let base := clampUnit (1 - cost)
  match runnerUp with
  | none => base
  | some r => base * clampUnit (max 0 (r - cost) / (3 / 10))

/-! ## Records under hits and misses -/

namespace TrackRecord

def missReason (r : TrackRecord) (detections : List Detection) : BreakReason :=
  let box := Rect.ofBox r.box
  if box.x1 ≤ 2 / 100 ∨ box.y1 ≤ 2 / 100 ∨ box.x2 ≥ 98 / 100 ∨ box.y2 ≥ 98 / 100 then .exit
  else if detections ≠ [] then .occlusion
  else .detectorMiss

def turnTowards (r : TrackRecord) (heading : Option ℚ) : TrackRecord :=
  match heading with
  | none => r
  | some h =>
    match r.lastHeading with
    | none => { r with lastHeading := some h }
    | some last =>
      let difference := |h - last|
      let shorter := min difference (360 - difference)
      { r with
        lastHeading := some h
        directionChanges := if shorter > 90 then r.directionChanges + 1 else r.directionChanges }

def moveAt (r : TrackRecord) (speed : ℚ) : TrackRecord :=
  if speed < motionFloor then { r with stillFrames := r.stillFrames + 1, movingFrames := 0 }
  else { r with movingFrames := r.movingFrames + 1, stillFrames := 0 }

def classifyMotion (r : TrackRecord) : TrackRecord :=
  if r.directionChanges ≥ erraticDirectionChanges then { r with motionState := .erratic }
  else if r.stillFrames ≥ motionHysteresis then { r with motionState := .stationary }
  else if r.movingFrames ≥ motionHysteresis then { r with motionState := .moving }
  else if r.hitCount < motionHysteresis then { r with motionState := .unknown }
  else r

def updateMotionState (lib : PlatformMath) (r : TrackRecord) : TrackRecord :=
  ((r.turnTowards (lib.headingOf r.predictor.velocity)).moveAt
    (lib.speedOf r.predictor.velocity)).classifyMotion

def countHit (r : TrackRecord) : TrackRecord :=
  { r with ageFrames := r.ageFrames + 1, hitCount := r.hitCount + 1 }

def countMiss (r : TrackRecord) (elapsed : Duration) : TrackRecord :=
  { r with
    ageFrames := r.ageFrames + 1
    coastFrames := r.coastFrames + 1
    sinceMeasurementNs := r.sinceMeasurementNs + elapsed.ns }

def measure (r : TrackRecord) (state : TrackState) (box : Box) (classId : ClassId)
    (now : Instant) (frameRef : FrameRef) (elapsed : Duration) : TrackRecord :=
  { r with
    state
    box
    classId
    lastSeen := now
    lastUpdated := now
    breakReason := .none
    history := r.history.push frameRef
    predictor := r.predictor.observe
      { Rect.ofBox box with elapsed := ⟨r.sinceMeasurementNs + elapsed.ns⟩ }
    coastFrames := 0
    sinceMeasurementNs := 0 }

def assess (r : TrackRecord) (cost : ℚ) (runnerUp : Option ℚ) (method : AssociationMethod) :
    TrackRecord :=
  { r with
    associationCost := cost
    runnerUpCost := runnerUp
    associationConfidence := confidenceFromCost cost runnerUp
    associationMethod := method }

def coast (r : TrackRecord) (state : TrackState) (now : Instant) (breakReason : BreakReason) :
    TrackRecord :=
  { r with
    state
    lastUpdated := now
    breakReason
    associationConfidence := r.associationConfidence * (7 / 10) }

end TrackRecord

namespace GeometricWiring

variable (w : GeometricWiring)

def method : AssociationMethod := if w.config.useMotionModel then .motionGatedIou else .iou

def onHit (detection : Detection) (elapsed : Duration) (now : Instant) (frameRef : FrameRef)
    (result : Resolved) (trackIndex detectionIndex : Nat) :
    Effect PyException TrackRecord Transition :=
  match detection.spatial.bbox with
  | none => raise (.valueError "a detection reaching the tracker must carry a box")
  | some box => do
    modify TrackRecord.countHit
    let r ← read
    let transition ← ofExcept (w.lifecycle.onHit r.state r.hitCount r.ageFrames)
    modify fun r =>
      r.measure transition.current box detection.classId now frameRef elapsed
    modify fun r =>
      r.assess ((result.costs.get? (trackIndex, detectionIndex)).getD 0)
        (result.runnerUp.get? trackIndex) w.method
    modify (TrackRecord.updateMotionState w.lib)
    pure transition

def onMiss (now : Instant) (breakReason : BreakReason) (elapsed : Duration) :
    Effect PyException TrackRecord Transition := do
  modify (·.countMiss elapsed)
  let r ← read
  let transition ← ofExcept
    (w.lifecycle.onMiss r.state r.coastFrames r.ageFrames breakReason r.sinceMeasurementNs)
  modify (·.coast transition.current now transition.breakReason)
  pure transition

def predictedBox (r : TrackRecord) : Raises Box := do
  let prediction ← r.predictor.predict ⟨r.sinceMeasurementNs⟩
  Box.construct
    { x1 := .finite (clampUnit prediction.x1), y1 := .finite (clampUnit prediction.y1)
      x2 := .finite (clampUnit prediction.x2), y2 := .finite (clampUnit prediction.y2) }

def publishedBox (r : TrackRecord) : Box :=
  if r.state.isPredicted then
    match predictedBox r with
    | .ok box => box
    | .error _ => r.box
  else r.box

def motionOf (r : TrackRecord) : Raises MotionEstimate :=
  let point (v : ℚ × ℚ) : Point := ⟨.finite v.1, .finite v.2⟩
  let velocity := r.predictor.velocity
  let speed := w.lib.speedOf velocity
  MotionEstimate.construct
    { velocity := point velocity
      acceleration := r.predictor.acceleration.map point
      headingDegrees := (w.lib.headingOf velocity).map .finite
      speed := .finite (if speed ≥ velocityNoiseFloor then speed else 0)
      uncertainty := .finite ((Duration.mk r.sinceMeasurementNs).seconds * (5 / 100)) }

/-- `_project`: a record as the track that is published. -/
def project (r : TrackRecord) : Raises Track := do
  let motion ← w.motionOf r
  let confidence ← Confidence.construct
    { value := .finite (clampUnit r.associationConfidence)
      semantics := .association
      rawScore := some (.finite (clampUnit r.associationConfidence)) }
  let spatial ← SpatialInfo.construct
    { frameOfReference := .normalized, bbox := some (publishedBox r) }
  let provenance ← Provenance.construct
    { producerModule := trackerModule
      producerVersion := "1.0.0"
      configRevision := w.configRevision
      adapterId := some w.config.trackerId
      adapterVersion := some w.config.version
      deterministic := true }
  let track ← Core.Track.construct
    { trackId := r.trackId
      cameraId := r.trackId.cameraId
      tenantId := r.tenantId
      siteId := r.siteId
      state := r.state
      classId := r.classId
      confidence
      spatial
      measurementBasis := if r.state.isPredicted then .predicted else .measured
      lastSeen := r.lastSeen
      lastUpdated := r.lastUpdated
      ageFrames := r.ageFrames
      hitCount := r.hitCount
      coastFrames := r.coastFrames }
  .ok { track with
    motion
    motionState := r.motionState
    firstSeen := r.firstSeen
    detections := r.history.items
    evidence :=
      { associationMethod := r.associationMethod
        associationCost := r.associationCost
        runnerUpCost := r.runnerUpCost
        gatedCandidates := r.gatedCandidates }
    provenance
    breakReason := r.breakReason }

/-! ## One frame -/

structure Turn where
  trackId : TrackId
  association : Option Association := none
  recovered : Bool := false
  terminated : Option BreakReason := none
  coasting : Bool := false

def onRecord {α : Type} (r : TrackRecord) (x : Effect PyException TrackRecord α) :
    Effect PyException TrackTable (α × TrackRecord) :=
  zoom (fun _ => r) put do
    let a ← x
    let r ← read
    pure (a, r)

def settle (transition : Transition) (r : TrackRecord) (turn : Turn) :
    Effect PyException TrackTable Turn :=
  if transition.isTerminal then do
    modify (put { r with breakReason := transition.breakReason })
    modify (remove r.trackId)
    pure { turn with terminated := some transition.breakReason }
  else pure { turn with coasting := r.state = .coasting || r.state = .lost }

def hitTurn (request : TrackingRequest) (elapsed : Duration) (result : Resolved) (r : TrackRecord)
    (trackIndex detectionIndex : Nat) : Effect PyException TrackTable Turn := do
  let detection ← ofExcept (getItem request.detections detectionIndex)
  let (transition, r) ← onRecord r (w.onHit detection elapsed request.timestamp request.frameRef
    result trackIndex detectionIndex)
  let confidence ← ofExcept (Confidence.construct
    { value := .finite r.associationConfidence
      semantics := .association
      rawScore := some (.finite r.associationConfidence) })
  let association ← ofExcept (Association.construct
    { trackId := r.trackId
      detectionIndex
      confidence
      method := r.associationMethod
      cost := r.associationCost })
  settle transition r
    { trackId := r.trackId, association := some association, recovered := transition.isRecovery }

def missTurn (request : TrackingRequest) (elapsed : Duration) (refused : List RefusedAssociation)
    (r : TrackRecord) : Effect PyException TrackTable Turn := do
  let breakReason :=
    if r.trackId ∈ refused.map (·.trackId) then .associationFailure
    else r.missReason request.detections
  let (transition, r) ← onRecord r (w.onMiss request.timestamp breakReason elapsed)
  settle transition r { trackId := r.trackId }

def turn (request : TrackingRequest) (elapsed : Duration) (p : Pairing)
    (entry : TrackRecord × Nat) :
    Effect PyException TrackTable Turn :=
  match p.matched.get? entry.2 with
  | some detectionIndex => w.hitTurn request elapsed p.result entry.1 entry.2 detectionIndex
  | none => w.missTurn request elapsed p.refused entry.1

def newPredictor : MotionPredictor :=
  if w.config.useMotionModel then .linear {} else .stationary {}

def birth (request : TrackingRequest) (detection : Detection) (box : Box) : TrackTable.Birth where
  classId := detection.classId
  box
  predictor := w.newPredictor
  now := request.timestamp
  frameRef := request.frameRef
  tenantId := detection.tenantId
  siteId := detection.siteId

def createOr (b : TrackTable.Birth) (refused : Effect PyException TrackTable (Option TrackRecord)) :
    Effect PyException TrackTable (Option TrackRecord) :=
  tryCatch (do
    let r ← create b
    pure (some r))
    fun
    | .trackerCapacityError _ => refused
    | e => raise e

def spawn (request : TrackingRequest) (detection : Detection) :
    Effect PyException TrackTable (Option TrackRecord) :=
  match detection.spatial.bbox with
  | none => pure none
  | some box =>
    let b := w.birth request detection box
    createOr b do
      let evicted ← evictWeakest
      match evicted with
      | none => pure none
      | some _ => createOr b (pure none)

def surplus (p : Pairing) : List Nat := p.high.filter (· ∉ p.matched.values)

def spawnAt (request : TrackingRequest) (detectionIndex : Nat) :
    Effect PyException TrackTable (Option TrackRecord) := do
  let detection ← ofExcept (getItem request.detections detectionIndex)
  w.spawn request detection

def apply (records : List TrackRecord) (request : TrackingRequest) (elapsed : Duration)
    (p : Pairing) : Effect PyException TrackTable TrackUpdate := do
  let turns ← collect (w.turn request elapsed p) records.zipIdx
  let created ← collect (w.spawnAt request) (surplus p)
  let t ← read
  let active ← ofExcept (t.records.mapM w.project)
  pure
    { cameraId := request.cameraId
      frameRef := request.frameRef
      trackerEpoch := t.epoch
      active
      new := created.filterMap (·.map (·.trackId))
      terminated := turns.filterMap fun u => u.terminated.map (u.trackId, ·)
      coasting := turns.filterMap fun u => if u.coasting then some u.trackId else none
      recovered := turns.filterMap fun u => if u.recovered then some u.trackId else none
      associations := turns.filterMap (·.association)
      refused := p.refused
      unmatchedDetections :=
        (List.range request.detections.length).filter (· ∉ p.matched.values) }

def advance (request : TrackingRequest) (elapsed : Duration) :
    Effect PyException TrackTable TrackUpdate := do
  let t ← read
  let p ← ofExcept (w.pair t.records request.detections elapsed)
  w.apply t.records request elapsed p

end GeometricWiring

/-! ## The tracker -/

/-- What the tracker holds, camera by camera. -/
structure GeometricTracker where
  tables : OrderedDict CameraId TrackTable := ∅
  /-- Stream epoch and frame number of the last frame. -/
  lastFrame : OrderedDict CameraId (Int × Int) := ∅
  lastTime : OrderedDict CameraId Instant := ∅
  epochs : OrderedDict CameraId Int := ∅

/-- The order of frames by epoch and sequence. -/
def frameLe (a b : Int × Int) : Prop := a.1 < b.1 ∨ (a.1 = b.1 ∧ a.2 ≤ b.2)

instance : DecidableRel frameLe := fun a b => by
  unfold frameLe
  infer_instance

def TrackingRequest.position (request : TrackingRequest) : Int × Int :=
  (request.frameRef.streamEpoch, request.frameRef.frameSeq)

namespace GeometricTracker

def assertOrdering (request : TrackingRequest) (s : GeometricTracker) : Raises Unit :=
  match s.lastFrame.get? request.cameraId with
  | none => .ok ()
  | some previous =>
    require (¬ frameLe request.position previous) (.outOfOrderFrameError
      s!"frame {request.frameRef.str} arrived after epoch/seq ({previous.1}, {previous.2}); per-camera ordering is a pipeline guarantee and its violation corrupts tracking silently (port obligation T1)")

/-- `_elapsed_for`: the caller's measurement, else the time since the last frame. -/
def elapsedFor (request : TrackingRequest) (s : GeometricTracker) : Duration :=
  if request.elapsed.ns > 0 then request.elapsed
  else
    match s.lastTime.get? request.cameraId with
    | none => ⟨0⟩
    | some previous => ⟨max 0 (request.timestamp.ns - previous.ns)⟩

def setdefaultEpoch (cameraId : CameraId) (s : GeometricTracker) : GeometricTracker :=
  match s.epochs.get? cameraId with
  | some _ => s
  | none => { s with epochs := s.epochs.set cameraId 0 }

def putTable (cameraId : CameraId) (t : TrackTable) (s : GeometricTracker) : GeometricTracker :=
  { s with tables := s.tables.set cameraId t }

def tableFor (w : GeometricWiring) (cameraId : CameraId) :
    Effect PyException GeometricTracker TrackTable := do
  let s ← read
  match s.tables.get? cameraId with
  | some t => pure t
  | none => do
    modify (setdefaultEpoch cameraId)
    let s ← read
    let t ← ofExcept (construct cameraId ((s.epochs.get? cameraId).getD 0)
      w.lifecycle.maxTracksPerCamera w.historyLength)
    modify (putTable cameraId t)
    pure t

def recordFrame (request : TrackingRequest) (s : GeometricTracker) : GeometricTracker :=
  { s with
    lastFrame := s.lastFrame.set request.cameraId request.position
    lastTime := s.lastTime.set request.cameraId request.timestamp }

/-- `update`: the table is changed in place, so it stays as it is when the call raises. -/
def update (w : GeometricWiring) (request : TrackingRequest) :
    Effect PyException GeometricTracker TrackUpdate := do
  let s ← read
  ofExcept (assertOrdering request s)
  let t ← tableFor w request.cameraId
  let elapsed := elapsedFor request s
  let u ← zoom (fun _ => t) (putTable request.cameraId) (w.advance request elapsed)
  modify (recordFrame request)
  pure u

def tracks (w : GeometricWiring) (cameraId : CameraId) (s : GeometricTracker) :
    Raises (List Track) :=
  match s.tables.get? cameraId with
  | none => .ok []
  | some t => t.records.mapM w.project

def nextEpoch (cameraId : CameraId) (s : GeometricTracker) : Int :=
  (s.epochs.get? cameraId).getD 0 + 1

def reset (cameraId : CameraId) (s : GeometricTracker) : GeometricTracker :=
  let epoch := s.nextEpoch cameraId
  { tables :=
      match s.tables.get? cameraId with
      | none => s.tables
      | some t => s.tables.set cameraId (t.reset epoch)
    lastFrame := s.lastFrame.erase cameraId
    lastTime := s.lastTime.erase cameraId
    epochs := s.epochs.set cameraId epoch }

end GeometricTracker

/-- What is asked of the tracker about one camera.  A frame is a request less its camera. -/
inductive TrackerCall where
  | update (frameRef : FrameRef) (timestamp : Instant) (elapsed : Duration)
      (detections : List Detection)
  | tracks
  | reset (reason : String)

inductive TrackerAnswer where
  | updated (result : Raises TrackUpdate)
  | listed (result : Raises (List Track))
  | reset (epoch : Int)

def answer (w : GeometricWiring) (s : GeometricTracker) (cameraId : CameraId) :
    TrackerCall → GeometricTracker × TrackerAnswer
  | .update frameRef timestamp elapsed detections =>
    let result := GeometricTracker.update w { cameraId, frameRef, timestamp, elapsed, detections } s
    (result.2, .updated result.1)
  | .tracks => (s, .listed (s.tracks w cameraId))
  | .reset _ => (s.reset cameraId, .reset (s.nextEpoch cameraId))

def LifecyclePolicy.standard : LifecyclePolicy where
  accepted := by decide

def AssociationPolicy.standard : AssociationPolicy where
  accepted := by decide +kernel

structure BuilderArguments where
  lifecycle : Option LifecyclePolicy := none
  association : Option AssociationPolicy := none
  configRevision : String := "unset"
  historyLength : Int := 32

/-- `build_iou_tracker`: pure geometry, the fallback. -/
def buildIouTracker (lib : PlatformMath) (a : BuilderArguments) : GeometricWiring where
  config := { trackerId := "tracker.iou", useMotionModel := false, twoStage := false }
  lifecycle := a.lifecycle.getD
    { minHitsToConfirm := 2, maxCoastFrames := 2, maxLostFrames := 3, accepted := by decide }
  association := a.association.getD .standard
  associator := greedyAssociator
  configRevision := a.configRevision
  historyLength := a.historyLength
  lib

/-- `build_sort_tracker`: linear motion with optimal assignment. -/
def buildSortTracker (lib : PlatformMath) (a : BuilderArguments) : GeometricWiring where
  config := { trackerId := "tracker.sort", useMotionModel := true, twoStage := false }
  lifecycle := a.lifecycle.getD .standard
  association := a.association.getD .standard
  associator := optimalAssociator
  configRevision := a.configRevision
  historyLength := a.historyLength
  lib

/-- `build_bytetrack_tracker`: two stages. -/
def buildBytetrackTracker (lib : PlatformMath) (a : BuilderArguments) : GeometricWiring where
  config :=
    { trackerId := "tracker.bytetrack", useMotionModel := true, twoStage := true
      lowConfidenceFloor := 1 / 10, highConfidenceFloor := 5 / 10 }
  lifecycle := a.lifecycle.getD
    { maxCoastFrames := 8, maxLostFrames := 20, accepted := by decide }
  association := a.association.getD .standard
  associator := optimalAssociator
  configRevision := a.configRevision
  historyLength := a.historyLength
  lib

def trackerFactories : List (String × (PlatformMath → BuilderArguments → GeometricWiring)) :=
  [("tracker.iou", buildIouTracker), ("tracker.sort", buildSortTracker),
    ("tracker.bytetrack", buildBytetrackTracker)]

/-! ## A street camera

People who stand side by side, of one height, so that they differ in the horizontal only. -/

def horizontalMath : PlatformMath where
  hypot := fun x _ => |x|
  degreesAtan2 := fun _ x => if x < 0 then 180 else 0

def columns (left right : ℚ) (h : left < right) : Box where
  x1 := .finite left
  y1 := .finite (1 / 4)
  x2 := .finite right
  y2 := .finite (3 / 4)
  accepted := by
    unfold BoxFields.postInit
    rw [require_eq_ok, not_or]
    constructor
    · simp only [le, lt, eq, Bool.or_eq_true, decide_eq_true_eq,
        ← le_iff_lt_or_eq, not_le]
      exact h
    · show ¬ (finite (3 / 4)).le (.finite (1 / 4)) = true
      decide +kernel

theorem columns_isWithinUnit {left right : ℚ} {h : left < right} (hleft : 0 ≤ left)
    (hright : right ≤ 1) : (columns left right h).isWithinUnit = true := by
  unfold Box.isWithinUnit
  simp only [columns, le, lt, eq, Bool.and_eq_true, Bool.or_eq_true,
    decide_eq_true_eq, ← le_iff_lt_or_eq]
  exact ⟨⟨⟨hleft, by decide +kernel⟩, hright⟩, by decide +kernel⟩

def personAt (left right score : ℚ) (h : left < right) (hunit : 0 ≤ left ∧ right ≤ 1)
    (hscore : 0 ≤ score ∧ score ≤ 1) : Detection where
  tenantId := "tenant"
  siteId := "site"
  classId := "person"
  taxonomyVersion := "1"
  confidence :=
    { value := .finite score
      semantics := .detectionPresence
      rawScore := some (.finite score)
      accepted := ConfidenceFields.postInit_uncalibrated _
        (inUnit_finite hscore.1 hscore.2) }
  spatial :=
    { frameOfReference := .normalized
      bbox := some (columns left right h)
      accepted := SpatialFields.postInit_eq_ok.mpr
        ⟨fun hne => absurd rfl hne, fun hne => absurd rfl hne⟩ }
  accepted := by
    rw [DetectionFields.postInit_eq_ok]
    refine ⟨rfl, ⟨_, rfl, columns_isWithinUnit hunit.1 hunit.2⟩, ?_⟩
    show "1" ≠ ""
    decide

/-- The frame of a second of the street camera's stream, with its detections. -/
def streetRequest (second : Nat) (detections : List Detection) : TrackingRequest where
  cameraId := "street"
  frameRef :=
    { cameraId := "street", streamEpoch := 0, frameSeq := second
      accepted := FrameRefFields.postInit_eq_ok.mpr ⟨le_refl 0, Int.natCast_nonneg second⟩ }
  timestamp := ⟨second * 1000000000⟩
  elapsed := ⟨0⟩
  detections

/-- Two people who are seen clearly, to the left and to the right. -/
def leftPerson : Detection :=
  personAt (1 / 4) (1 / 2) (9 / 10) (by decide +kernel) (by decide +kernel) (by decide +kernel)

def rightPerson : Detection :=
  personAt (1 / 2) (3 / 4) (9 / 10) (by decide +kernel) (by decide +kernel) (by decide +kernel)

end VisionOs.Tracking
