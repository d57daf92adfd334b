/-
  The tracking engine: it tracks each frame with the bound tracker, checks the update before
  publishing it, and replaces a tracker that fails by the fallback.  Metrics and latencies are
  left out.
-/
import VisionOs.Tracking.Runs

namespace VisionOs.Tracking

open Core Lib Effect List GeometricTracker

def trackIdStr (id : TrackId) : String := s!"{id.cameraId}/t{id.trackerEpoch}/#{id.localId}"

def verifyTrack (request : TrackingRequest) (seen : List TrackId) (track : Track) :
    Raises Unit := do
  require (track.trackId ∉ seen) (.trackerContractError
    s!"tracker returned duplicate track id {trackIdStr track.trackId} in one frame; ids are unique within an epoch (port obligation T3)")
  require (track.cameraId = request.cameraId) (.trackerContractError
    s!"track {trackIdStr track.trackId} belongs to camera {track.cameraId} but was returned for {request.cameraId}; no cross-camera state may exist in this port (port obligation T7)")
  require (track.state ≠ .terminated) (.trackerContractError
    s!"track {trackIdStr track.trackId} is terminated but was returned as active")
  require (¬ (track.state.isPredicted = true ∧ track.measurementBasis = .measured))
    (.trackerContractError
      s!"track {trackIdStr track.trackId} is {track.state.value} but reports a MEASURED position; coasting must be explicitly marked (port obligation T5)")

def verifyActive (request : TrackingRequest) : List TrackId → List Track → Raises Unit
  | _, [] => .ok ()
  | seen, track :: rest => do
    verifyTrack request seen track
    verifyActive request (track.trackId :: seen) rest

def verifyTerminated : List (TrackId × BreakReason) → Raises Unit
  | [] => .ok ()
  | (trackId, breakReason) :: rest => do
    require (breakReason ≠ .none) (.trackerContractError
      s!"track {trackIdStr trackId} terminated without a break_reason (port obligation T6)")
    verifyTerminated rest

def verify (u : TrackUpdate) (request : TrackingRequest) : Raises Unit := do
  require (u.cameraId = request.cameraId) (.trackerContractError
    s!"tracker returned an update for camera {u.cameraId} when asked about {request.cameraId} (port obligation T7)")
  verifyActive request [] u.active
  verifyTerminated u.terminated

/-! ## The engine -/

structure TrackerBinding where
  wiring : GeometricWiring
  tracker : GeometricTracker := {}
  isFallback : Bool := false

structure TrackingEngine where
  binding : TrackerBinding
  lastTime : OrderedDict CameraId Instant := ∅

structure DetectionOutcome where
  frameRef : FrameRef
  detections : List Detection

structure TrackingOutcome where
  cameraId : CameraId
  frameRef : String
  trackerEpoch : Int
  tracks : List Track := []
  created : Nat := 0
  terminated : Nat := 0
  recovered : Nat := 0
  coasting : Nat := 0
  failed : Bool := false
  reason : Message := []

namespace TrackingEngine

def fallBack (fallback : GeometricWiring) (e : TrackingEngine) : TrackingEngine :=
  if e.binding.isFallback then e
  else { e with binding := { wiring := fallback, tracker := {}, isFallback := true } }

def elapsed (cameraId : CameraId) (now : Instant) (e : TrackingEngine) : Duration :=
  match e.lastTime.get? cameraId with
  | none => ⟨0⟩
  | some previous => ⟨max 0 (now.ns - previous.ns)⟩

def requestOf (outcome : DetectionOutcome) (now : Instant) (e : TrackingEngine) :
    TrackingRequest where
  cameraId := outcome.frameRef.cameraId
  frameRef := outcome.frameRef
  timestamp := now
  elapsed := e.elapsed outcome.frameRef.cameraId now
  detections := outcome.detections

def putTracker (tracker : GeometricTracker) (e : TrackingEngine) : TrackingEngine :=
  { e with binding := { e.binding with tracker } }

def runFrame (outcome : DetectionOutcome) (now : Instant) :
    Effect PyException TrackingEngine TrackUpdate := do
  let e ← read
  let request := e.requestOf outcome now
  let u ← zoom (·.binding.tracker) putTracker
    (update e.binding.wiring request)
  ofExcept (verify u request)
  modify fun e =>
    { e with lastTime := e.lastTime.set outcome.frameRef.cameraId now }
  pure u

def tracks (cameraId : CameraId) (e : TrackingEngine) : List Track :=
  match e.binding.tracker.tracks e.binding.wiring cameraId with
  | .ok live => live
  | .error _ => []

def epochOf (cameraId : CameraId) (e : TrackingEngine) : Int :=
  match e.tracks cameraId with
  | [] => 0
  | track :: _ => track.trackId.trackerEpoch

def failure (outcome : DetectionOutcome) (reason : Message) (e : TrackingEngine) :
    TrackingOutcome where
  cameraId := outcome.frameRef.cameraId
  frameRef := outcome.frameRef.str
  trackerEpoch := e.epochOf outcome.frameRef.cameraId
  failed := true
  reason

structure Step where
  outcome : TrackingOutcome
  published : Option TrackUpdate := none
  engine : TrackingEngine

/-- The handlers of `track`: a frame out of order and a full table are reported, and any other
    error is a failed tracker (`_degrade`). -/
def handle (fallback : GeometricWiring) (outcome : DetectionOutcome) (exc : PyException)
    (e : TrackingEngine) : Step :=
  match exc with
  | .outOfOrderFrameError _ =>
    { outcome := e.failure outcome "out_of_order_frame", engine := e }
  | .trackerCapacityError message =>
    { outcome := e.failure outcome (.text "capacity: " :: message), engine := e }
  | exc =>
    let e := e.fallBack fallback
    { outcome := e.failure outcome (.text exc.typeName :: .text ": " :: exc.text), engine := e }

def track (fallback : GeometricWiring) (outcome : DetectionOutcome) (now : Instant)
    (e : TrackingEngine) : Step :=
  match runFrame outcome now e with
  | (.error exc, e) => e.handle fallback outcome exc
  | (.ok u, e) =>
    { outcome :=
        { cameraId := outcome.frameRef.cameraId
          frameRef := outcome.frameRef.str
          trackerEpoch := u.trackerEpoch
          tracks := u.active
          created := u.new.length
          terminated := u.terminated.length
          recovered := u.recovered.length
          coasting := u.coasting.length }
      published := some u
      engine := e }

def reset (cameraId : CameraId) (e : TrackingEngine) : TrackingEngine :=
  { binding := { e.binding with tracker := e.binding.tracker.reset cameraId }
    lastTime := e.lastTime.erase cameraId }

/-- What happens to the engine.  `fault` is a frame whose update raises at once, for a reason
    outside the tracker's own code. -/
inductive Input where
  | frame (outcome : DetectionOutcome) (now : Instant)
  | fault (outcome : DetectionOutcome) (exc : PyException)
  | reset (cameraId : CameraId) (reason : String)

def respond (fallback : GeometricWiring) (e : TrackingEngine) :
    Input → TrackingEngine × Option TrackUpdate
  | .frame outcome now =>
    let step := e.track fallback outcome now
    (step.engine, step.published)
  | .fault outcome exc =>
    let step := e.handle fallback outcome exc
    (step.engine, step.published)
  | .reset cameraId _ => (e.reset cameraId, none)

end TrackingEngine

namespace TrackingEngine

/-- The ids that a published update announces. -/
def newIds : Option TrackUpdate → List TrackId
  | none => []
  | some u => u.new

variable {fallback : GeometricWiring}

/-! ## What one input does -/

structure GoesOn (e e' : TrackingEngine) : Prop where
  wiring : e'.binding.wiring = e.binding.wiring
  isFallback : e'.binding.isFallback = e.binding.isFallback
  advances : GeometricTracker.Advances e.binding.wiring e.binding.tracker e'.binding.tracker

theorem runFrame_spec {e : TrackingEngine} (h : e.binding.tracker.Sound e.binding.wiring)
    (outcome : DetectionOutcome) (now : Instant) :
    wp (runFrame outcome now)
      (fun u e' => GoesOn e e' ∧ u.new.Nodup ∧ ∀ id ∈ u.new,
        ¬ e.binding.tracker.Issued id ∧ e'.binding.tracker.Issued id)
      (fun _ e' => GoesOn e e') e := by
  unfold runFrame
  rw [wp_bind, wp_read, wp_bind, wp_zoom]
  refine wp_mono ?_ (fun _ tracker hadvances => ⟨rfl, rfl, hadvances⟩)
    (update_spec h (e.requestOf outcome now))
  intro u tracker htracked
  have hgoes : GoesOn e (e.putTracker tracker) := ⟨rfl, rfl, htracked.advances⟩
  rw [wp_bind, wp_ofExcept]
  refine ⟨fun _ _ => ?_, fun _ _ => hgoes⟩
  obtain ⟨hnodup, hnew⟩ := htracked.new h
  exact ⟨⟨rfl, rfl, htracked.advances⟩, hnodup, hnew⟩

theorem handle_cases (outcome : DetectionOutcome) (exc : PyException) (e : TrackingEngine) :
    (e.handle fallback outcome exc).published = none ∧
      ((e.handle fallback outcome exc).engine = e ∨
        (e.binding.isFallback = false ∧ (e.handle fallback outcome exc).engine.binding =
          { wiring := fallback, tracker := {}, isFallback := true })) := by
  have hfall : e.fallBack fallback = e ∨ (e.binding.isFallback = false ∧
      (e.fallBack fallback).binding = { wiring := fallback, tracker := {}, isFallback := true }) := by
    unfold fallBack
    split
    · exact .inl rfl
    · rename_i hprimary
      exact .inr ⟨Bool.eq_false_iff.mpr hprimary, rfl⟩
  unfold handle
  split
  · exact ⟨rfl, .inl rfl⟩
  · exact ⟨rfl, .inl rfl⟩
  · exact ⟨rfl, hfall⟩

structure Continued (e : TrackingEngine) (result : TrackingEngine × Option TrackUpdate) :
    Prop where
  goesOn : GoesOn e result.1
  nodup : (newIds result.2).Nodup
  fresh : ∀ id ∈ newIds result.2,
    ¬ e.binding.tracker.Issued id ∧ result.1.binding.tracker.Issued id

structure Replaced (fallback : GeometricWiring) (e : TrackingEngine)
    (result : TrackingEngine × Option TrackUpdate) : Prop where
  announced : result.2 = none
  primary : e.binding.isFallback = false
  binding : result.1.binding = { wiring := fallback, tracker := {}, isFallback := true }

theorem handled {e e₁ : TrackingEngine} (hgoes : GoesOn e e₁) (outcome : DetectionOutcome)
    (exc : PyException) :
    let step := e₁.handle fallback outcome exc
    Continued e (step.engine, step.published) ∨
      Replaced fallback e (step.engine, step.published) := by
  obtain ⟨hnone, hkept | ⟨hprimary, hfresh⟩⟩ := @handle_cases fallback outcome exc e₁
  · refine .inl ⟨?_, ?_, ?_⟩
    · rw [hkept]
      exact hgoes
    · rw [hnone]
      exact nodup_nil
    · intro id hid
      rw [hnone] at hid
      exact absurd hid not_mem_nil
  · exact .inr ⟨hnone, hgoes.isFallback ▸ hprimary, hfresh⟩

theorem respond_cases {e : TrackingEngine} (h : e.binding.tracker.Sound e.binding.wiring)
    (i : Input) :
    Continued e (e.respond fallback i) ∨ Replaced fallback e (e.respond fallback i) := by
  cases i with
  | frame outcome now =>
    show Continued e ((e.track fallback outcome now).engine, (e.track fallback outcome now).published)
      ∨ Replaced fallback e
        ((e.track fallback outcome now).engine, (e.track fallback outcome now).published)
    unfold track
    rcases wp_cases (runFrame outcome now) e (runFrame_spec h outcome now) with
      ⟨u, e', hrun, hgoes, hnodup, hnew⟩ | ⟨exc, e', hrun, hspec⟩
    · rw [hrun]
      exact .inl ⟨hgoes, hnodup, hnew⟩
    · rw [hrun]
      exact handled hspec outcome exc
  | fault outcome exc =>
    exact handled ⟨rfl, rfl, GeometricTracker.Advances.refl h⟩ outcome exc
  | reset cameraId reason =>
    refine .inl ⟨⟨rfl, rfl, h.reset cameraId⟩, nodup_nil, ?_⟩
    exact fun id hid => absurd hid not_mem_nil

end TrackingEngine

end VisionOs.Tracking
