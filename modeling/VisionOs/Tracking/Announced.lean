/-
  Whether a track id names one track only, over a run of the engine.  Epochs and counters only go
  up while one tracker is bound; a fallback starts over with epoch 0 and id 0, and takes over when
  a frame's update raises or is refused.
-/
import VisionOs.Tracking.Contract
import VisionOs.Tracking.CamerasApart

namespace VisionOs.Tracking

open Core Lib Effect List GeometricTracker OrderedDict

/-- The wiring of a tracker that a builder makes of arguments the code accepts. -/
structure GeometricWiring.Fit (w : GeometricWiring) : Prop where
  lawful : w.associator.Lawful
  revision : w.configRevision ≠ ""
  history : 1 ≤ w.historyLength

namespace GeometricTracker

/-- The camera's last frame is as late as this one. -/
def Late (s : GeometricTracker) (request : TrackingRequest) : Prop :=
  ∃ previous, s.lastFrame.get? request.cameraId = some previous ∧
    frameLe request.position previous

/-- The frame is refused as out of order; or it is no earlier than the camera's last, and matches
    no track that reaches its largest age in it. -/
def Manageable (w : GeometricWiring) (s : GeometricTracker) (request : TrackingRequest) : Prop :=
  s.Late request ∨ (w.Fit ∧ (∀ last, s.lastTime.get? request.cameraId = some last →
    last.ns ≤ request.timestamp.ns) ∧ ¬ MatchesAtMaxAge w s request)

variable {w : GeometricWiring} {s : GeometricTracker} {request : TrackingRequest}

theorem update_of_late (h : s.Late request) :
    ∃ message, update w request s = (.error (.outOfOrderFrameError message), s) := by
  obtain ⟨previous, hprevious, hle⟩ := h
  have horder : ∃ message,
      assertOrdering request s = .error (.outOfOrderFrameError message) := by
    unfold assertOrdering
    rw [hprevious]
    exact ⟨_, if_neg (not_not_intro hle)⟩
  obtain ⟨message, horder⟩ := horder
  refine ⟨message, ?_⟩
  unfold update
  rw [bind_of_ok (show (read : Effect PyException GeometricTracker _) s = (.ok s, s) from rfl)]
  exact bind_of_error (Prod.ext horder rfl)

/-- What one camera's frame leaves of the cameras. -/
theorem Tracked.settled_all {u : TrackUpdate} (h : ∀ k, Settled w k s)
    (hin : InOrder request.cameraId s request)
    (htracked : Tracked w request s u (after w s request)) (k : CameraId) :
    Settled w k (after w s request) := by
  by_cases hk : request.cameraId = k
  · exact hk ▸ htracked.settled (h _) hin
  -- the other cameras' tables and times are those before
  · obtain ⟨htable, -, htime, -⟩ := view_eq.mp (update_spares w request hk s)
    refine ⟨htracked.advances.sound, ?_⟩
    unfold after
    rw [htable, htime]
    exact (h k).records

theorem Settled.reset {k : CameraId} (h : Settled w k s) (camera : CameraId) :
    Settled w k (s.reset camera) := by
  refine ⟨(h.sound.reset camera).sound, fun t ht id r hr => ?_⟩
  have hview := s.view_reset camera k
  by_cases hk : camera = k
  · -- a table that is reset has no records
    rw [if_pos hk] at hview
    have htable : (s.reset camera).tables.get? k =
        (s.tables.get? camera).map (·.reset (s.nextEpoch camera)) :=
      congrArg CameraView.table hview
    rw [htable] at ht
    obtain ⟨t₀, -, rfl⟩ := Option.map_eq_some_iff.mp ht
    cases hr
  · rw [if_neg hk] at hview
    obtain ⟨htable, -, htime, -⟩ := view_eq.mp hview
    rw [htable] at ht
    rw [htime]
    exact h.records t ht id r hr

/-- A camera that was not seen before, or was reset, may start with any frame. -/
theorem manageable_of_unseen (hfit : w.Fit)
    (htable : (s.tableAt w request.cameraId).records = [])
    (htime : s.lastTime.get? request.cameraId = none) : Manageable w s request := by
  refine .inr ⟨hfit, fun last hlast => ?_, ?_⟩
  · rw [htime] at hlast
    cases hlast
  · rintro ⟨p, -, e, he, -⟩
    rw [htable] at he
    exact absurd he not_mem_nil

theorem manageable_reset (hfit : w.Fit) (s : GeometricTracker) (request : TrackingRequest) :
    Manageable w (s.reset request.cameraId) request := by
  have hview := s.view_reset request.cameraId request.cameraId
  rw [if_pos rfl] at hview
  refine manageable_of_unseen hfit ?_ (congrArg CameraView.lastTime hview)
  have htable : (s.reset request.cameraId).tables.get? request.cameraId = _ :=
    congrArg CameraView.table hview
  unfold tableAt
  rw [htable]
  cases s.tables.get? request.cameraId <;> rfl

end GeometricTracker

namespace TrackingEngine

/-- An engine with the ids it has announced so far, in order: those its published updates list as
    new. -/
structure Announcing where
  engine : TrackingEngine
  announced : List TrackId := []

/-- One input, with the ids that the update it publishes announces. -/
def Announcing.step (fallback : GeometricWiring) (a : Announcing) (i : Input) : Announcing where
  engine := (a.engine.respond fallback i).1
  announced := a.announced ++ newIds (a.engine.respond fallback i).2

/-- The errors that `track` reports and does not put down to the tracker. -/
def Reported : PyException → Prop
  | .outOfOrderFrameError _ => True
  | .trackerCapacityError _ => True
  | _ => False

/-- The input does not make the fallback take the place of a tracker that has announced a track. -/
def Announcing.Keeps (a : Announcing) (i : Input) : Prop :=
  a.engine.binding.isFallback = true ∨
    match i with
    | .frame outcome now =>
      Manageable a.engine.binding.wiring a.engine.binding.tracker (a.engine.requestOf outcome now)
    | .fault _ exc => a.announced = [] ∨ Reported exc
    | .reset _ _ => True

/-- What holds of a run: the ids announced are different and issued, and the primary's records are
    sound at their camera's last frame. -/
structure Announcing.Inv (a : Announcing) : Prop where
  sound : a.engine.binding.tracker.Sound a.engine.binding.wiring
  nodup : a.announced.Nodup
  issued : ∀ id ∈ a.announced, a.engine.binding.tracker.Issued id
  settled : a.engine.binding.isFallback = false →
    ∀ k, Settled a.engine.binding.wiring k a.engine.binding.tracker

variable {fallback : GeometricWiring}

/-! ## Inputs that keep the tracker -/

theorem handle_reported {exc : PyException} (h : Reported exc) (outcome : DetectionOutcome)
    (e : TrackingEngine) : (e.handle fallback outcome exc).engine = e := by
  cases exc with
  | outOfOrderFrameError | trackerCapacityError => rfl
  | _ => exact h.elim

/-- The engine goes on with the tracker that was bound. -/
structure Kept (e e' : TrackingEngine) : Prop where
  wiring : e'.binding.wiring = e.binding.wiring
  isFallback : e'.binding.isFallback = e.binding.isFallback
  settled : ∀ k, Settled e'.binding.wiring k e'.binding.tracker

theorem runFrame_kept {e : TrackingEngine}
    (h : ∀ k, Settled e.binding.wiring k e.binding.tracker) {outcome : DetectionOutcome}
    {now : Instant}
    (hframe : Manageable e.binding.wiring e.binding.tracker (e.requestOf outcome now)) :
    wp (runFrame outcome now) (fun _ e' => Kept e e') (fun exc e' => e' = e ∧ Reported exc) e := by
  unfold runFrame
  rw [wp_bind, wp_read, wp_bind, wp_zoom]
  by_cases hlate : e.binding.tracker.Late (e.requestOf outcome now)
  · obtain ⟨message, hupdate⟩ := @update_of_late e.binding.wiring _ _ hlate
    unfold wp
    rw [hupdate]
    exact ⟨rfl, trivial⟩
  · obtain ⟨hfit, htime, hage⟩ := hframe.resolve_left hlate
    have hin : InOrder outcome.frameRef.cameraId e.binding.tracker (e.requestOf outcome now) :=
      ⟨rfl, fun previous hprevious hle => hlate ⟨previous, hprevious, hle⟩, htime⟩
    obtain ⟨u, hu, htracked, hpasses⟩ :=
      passes_iff hfit.lawful hfit.revision hfit.history (h _) hin
    obtain ⟨u', hu', hverified, -⟩ := hpasses.mpr hage
    obtain rfl := Except.ok.inj (hu.symm.trans hu')
    have hupdate : update e.binding.wiring (e.requestOf outcome now) e.binding.tracker =
        (.ok u, GeometricTracker.after e.binding.wiring e.binding.tracker
          (e.requestOf outcome now)) := Prod.ext hu rfl
    rw [wp, hupdate]
    show wp (ofExcept (verify u (e.requestOf outcome now)) >>= _) _ _ _
    rw [wp_bind, wp_ofExcept_ok hverified]
    exact ⟨rfl, rfl, htracked.settled_all h hin⟩

theorem respond_frame {e : TrackingEngine}
    (h : ∀ k, Settled e.binding.wiring k e.binding.tracker) {outcome : DetectionOutcome}
    {now : Instant}
    (hframe : Manageable e.binding.wiring e.binding.tracker (e.requestOf outcome now)) :
    Kept e (e.respond fallback (.frame outcome now)).1 := by
  show Kept e (e.track fallback outcome now).engine
  unfold track
  rcases wp_cases (runFrame outcome now) e (runFrame_kept h hframe) with
    ⟨u, e', hrun, hkept⟩ | ⟨exc, e', hrun, rfl, hreported⟩
  · rw [hrun]
    exact hkept
  · rw [hrun]
    show Kept e' (e'.handle fallback outcome exc).engine
    rw [handle_reported hreported]
    exact ⟨rfl, rfl, h⟩

theorem Announcing.Keeps.kept {a : Announcing} (h : a.Inv) {i : Input} (hkeeps : a.Keeps i)
    (hprimary : a.engine.binding.isFallback = false) :
    Kept a.engine (a.engine.respond fallback i).1 ∨ (a.announced = [] ∧
      Replaced fallback a.engine (a.engine.respond fallback i)) := by
  have hsettled := h.settled hprimary
  have hinput := hkeeps.resolve_left (by rw [hprimary]; exact Bool.false_ne_true)
  cases i with
  | frame outcome now => exact .inl (respond_frame hsettled hinput)
  | fault outcome exc =>
    show Kept a.engine (a.engine.handle fallback outcome exc).engine ∨ _
    obtain ⟨hnone, hsame | ⟨-, hfresh⟩⟩ := @handle_cases fallback outcome exc a.engine
    · rw [hsame]
      exact .inl ⟨rfl, rfl, hsettled⟩
    · rcases hinput with hempty | hreported
      · exact .inr ⟨hempty, hnone, hprimary, hfresh⟩
      · rw [handle_reported hreported]
        exact .inl ⟨rfl, rfl, hsettled⟩
  | reset cameraId reason => exact .inl ⟨rfl, rfl, fun k => (hsettled k).reset cameraId⟩

/-! ## Runs -/

/-- An engine whose tracker has tracked nothing yet. -/
def start (wiring : GeometricWiring) (isFallback : Bool) : Announcing where
  engine := { binding := { wiring, isFallback } }

theorem Announcing.inv_start (wiring : GeometricWiring) (isFallback : Bool) :
    (start wiring isFallback).Inv where
  sound := sound_empty wiring
  nodup := nodup_nil
  issued := fun id hid => absurd hid not_mem_nil
  settled := fun _ k => ⟨sound_empty wiring, fun t ht => by cases ht⟩

/-- One input keeps what is known of the announced ids. -/
theorem Announcing.Inv.step {a : Announcing} (h : a.Inv) (i : Input) (hkeeps : a.Keeps i) :
    (a.step fallback i).Inv := by
  rcases @respond_cases fallback _ h.sound i with
    ⟨hgoes, hnodup, hfresh⟩ | ⟨hnone, hprimary, hbinding⟩
  · have hwiring := hgoes.wiring
    refine ⟨?_, ?_, ?_, ?_⟩
    · show GeometricTracker.Sound (a.engine.respond fallback i).1.binding.wiring _
      rw [hwiring]
      exact hgoes.advances.sound
    · refine nodup_append.mpr ⟨h.nodup, hnodup, ?_⟩
      rintro id hold id' hnew rfl
      exact (hfresh id hnew).1 (h.issued id hold)
    · intro id hid
      rcases mem_append.mp hid with hold | hnew
      · exact hgoes.advances.issued id (h.issued id hold)
      · exact (hfresh id hnew).2
    · intro hprimary
      have hbefore : a.engine.binding.isFallback = false := hgoes.isFallback ▸ hprimary
      rcases @Keeps.kept fallback _ h _ hkeeps hbefore with hkept | ⟨-, -, -, hbinding⟩
      · exact hkept.settled
      · change (a.engine.respond fallback i).1.binding.isFallback = false at hprimary
        rw [hbinding] at hprimary
        cases hprimary
  · -- nothing was announced before, and nothing is now
    have hempty : (a.step fallback i).announced = [] := by
      show a.announced ++ newIds (a.engine.respond fallback i).2 = []
      rcases hkeeps.kept h hprimary with hkept | ⟨hempty, -⟩
      · have := hkept.isFallback
        rw [hbinding, hprimary] at this
        cases this
      · rw [hnone, hempty]
        rfl
    refine ⟨?_, ?_, ?_, ?_⟩
    · show GeometricTracker.Sound (a.engine.respond fallback i).1.binding.wiring
        (a.engine.respond fallback i).1.binding.tracker
      rw [hbinding]
      exact sound_empty fallback
    · rw [hempty]
      exact nodup_nil
    · intro id hid
      rw [hempty] at hid
      exact absurd hid not_mem_nil
    · intro hnot
      change (a.engine.respond fallback i).1.binding.isFallback = false at hnot
      rw [hbinding] at hnot
      cases hnot

/-- A frame of the street camera, tracked at its second. -/
def streetFrame (second : Nat) (detections : List Detection) : Input :=
  .frame { frameRef := (streetRequest second detections).frameRef, detections }
    (streetRequest second detections).timestamp

def twelveFrameTracker : GeometricWiring :=
  buildSortTracker horizontalMath
    { lifecycle := some { maxAgeFrames := 12, accepted := by decide } }

end TrackingEngine

end VisionOs.Tracking
