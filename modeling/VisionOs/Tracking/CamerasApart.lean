/-
  One tracker serves every camera, and each is answered as by a tracker of its own.
-/
import VisionOs.Tracking.Geometric
import VisionOs.Lib.Runs

namespace VisionOs.Tracking

open Core Lib Effect OrderedDict GeometricTracker TrackerAnswer

structure CameraView where
  table : Option TrackTable
  lastFrame : Option (Int × Int)
  lastTime : Option Instant
  epoch : Option Int

namespace GeometricTracker

def view (cameraId : CameraId) (s : GeometricTracker) : CameraView where
  table := s.tables.get? cameraId
  lastFrame := s.lastFrame.get? cameraId
  lastTime := s.lastTime.get? cameraId
  epoch := s.epochs.get? cameraId

theorem view_eq {cameraId : CameraId} {s s' : GeometricTracker} :
    s.view cameraId = s'.view cameraId ↔ s.tables.get? cameraId = s'.tables.get? cameraId ∧
      s.lastFrame.get? cameraId = s'.lastFrame.get? cameraId ∧
      s.lastTime.get? cameraId = s'.lastTime.get? cameraId ∧
      s.epochs.get? cameraId = s'.epochs.get? cameraId := by
  simp only [view, CameraView.mk.injEq]

theorem get?_setdefaultEpoch (s : GeometricTracker) (k k' : CameraId) :
    (s.setdefaultEpoch k).epochs.get? k' =
      if k = k' then some ((s.epochs.get? k).getD 0) else s.epochs.get? k' := by
  unfold setdefaultEpoch
  split
  · rename_i epoch hepoch
    split
    · rename_i hk
      rw [← hk, hepoch]
      rfl
    · rfl
  · rename_i hnone
    rw [get?_set, hnone]
    rfl

theorem setdefaultEpoch_frame (s : GeometricTracker) (k : CameraId) :
    (s.setdefaultEpoch k).tables = s.tables ∧ (s.setdefaultEpoch k).lastFrame = s.lastFrame ∧
      (s.setdefaultEpoch k).lastTime = s.lastTime := by
  unfold setdefaultEpoch
  split <;> exact ⟨rfl, rfl, rfl⟩

variable (w : GeometricWiring)

theorem tableFor_through (cameraId : CameraId) :
    Effect.Through (view cameraId) (tableFor w cameraId) := by
  refine through_read_bind ?_ ?_
  · intro s s' hview
    rw [(view_eq.mp hview).1]
  · intro s
    split
    · exact through_pure _
    refine through_bind (through_modify ?_) fun _ => ?_
    · intro s s' hview
      obtain ⟨htable, hframe, htime, hepoch⟩ := view_eq.mp hview
      obtain ⟨h1, h2, h3⟩ := s.setdefaultEpoch_frame cameraId
      obtain ⟨h1', h2', h3'⟩ := s'.setdefaultEpoch_frame cameraId
      rw [view_eq, h1, h2, h3, h1', h2', h3', get?_setdefaultEpoch, get?_setdefaultEpoch]
      exact ⟨htable, hframe, htime, by rw [hepoch]⟩
    · refine through_read_bind ?_ ?_
      · intro s s' hview
        rw [(view_eq.mp hview).2.2.2]
      · intro s
        refine through_bind (through_ofExcept _) fun t => ?_
        refine through_bind (through_modify ?_) fun _ => through_pure _
        intro s s' hview
        obtain ⟨-, hframe, htime, hepoch⟩ := view_eq.mp hview
        rw [view_eq]
        refine ⟨?_, hframe, htime, hepoch⟩
        simp only [putTable, get?_set_self]

theorem update_through (request : TrackingRequest) :
    Effect.Through (view request.cameraId) (update w request) := by
  refine through_read_bind ?_ ?_
  · intro s s' hview
    obtain ⟨-, hframe, htime, -⟩ := view_eq.mp hview
    have horder : assertOrdering request s = assertOrdering request s' := by
      unfold assertOrdering
      rw [hframe]
    have helapsed : elapsedFor request s = elapsedFor request s' := by
      unfold elapsedFor
      rw [htime]
    rw [horder, helapsed]
  · intro s
    refine through_bind (through_ofExcept _) fun _ => ?_
    refine through_bind (tableFor_through w _) fun t => ?_
    refine through_bind (through_zoom ?_) fun u => ?_
    · intro t s s' hview
      obtain ⟨-, hframe, htime, hepoch⟩ := view_eq.mp hview
      rw [view_eq]
      refine ⟨?_, hframe, htime, hepoch⟩
      simp only [putTable, get?_set_self]
    · refine through_bind (through_modify ?_) fun _ => through_pure _
      intro s s' hview
      obtain ⟨htable, -, -, hepoch⟩ := view_eq.mp hview
      rw [view_eq]
      refine ⟨htable, ?_, ?_, hepoch⟩
      · simp only [recordFrame, get?_set_self]
      · simp only [recordFrame, get?_set_self]

/-! ## The other cameras' calls -/

theorem tableFor_spares {k k' : CameraId} (hne : k ≠ k') (s : GeometricTracker) {v : CameraView}
    (h : s.view k' = v) :
    Effect.wp (tableFor w k) (fun _ s' => s'.view k' = v) (fun _ s' => s'.view k' = v) s := by
  have hdefault : ∀ s : GeometricTracker, s.view k' = v → (s.setdefaultEpoch k).view k' = v := by
    rintro s rfl
    obtain ⟨h1, h2, h3⟩ := s.setdefaultEpoch_frame k
    rw [view_eq, h1, h2, h3, get?_setdefaultEpoch, if_neg hne]
    exact ⟨rfl, rfl, rfl, rfl⟩
  unfold tableFor
  rw [wp_bind, wp_read]
  split
  · exact h
  rw [wp_bind, wp_modify, wp_bind, wp_read, wp_bind,
    wp_ofExcept]
  refine ⟨fun t _ => ?_, fun _ _ => hdefault s h⟩
  rw [wp_bind, wp_modify]
  show (putTable k t (s.setdefaultEpoch k)).view k' = v
  rw [← hdefault s h, view_eq]
  refine ⟨?_, rfl, rfl, rfl⟩
  show ((s.setdefaultEpoch k).tables.set k t).get? k' = _
  rw [get?_set, if_neg hne]

theorem update_spares (request : TrackingRequest) {k' : CameraId} (hne : request.cameraId ≠ k')
    (s : GeometricTracker) : (update w request s).2.view k' = s.view k' := by
  suffices hkeep : Effect.wp (update w request) (fun _ s' => s'.view k' = s.view k')
      (fun _ s' => s'.view k' = s.view k') s from wp_state.mp hkeep
  unfold update
  rw [wp_bind, wp_read, wp_bind, wp_ofExcept]
  refine ⟨fun _ _ => ?_, fun _ _ => rfl⟩
  rw [wp_bind]
  refine wp_mono (fun t s1 h1 => ?_) (fun _ _ h => h)
    (tableFor_spares w hne s rfl)
  have hput : ∀ t, (putTable request.cameraId t s1).view k' = s.view k' := by
    intro t
    rw [← h1, view_eq]
    refine ⟨?_, rfl, rfl, rfl⟩
    show (s1.tables.set request.cameraId t).get? k' = _
    rw [get?_set, if_neg hne]
  rw [wp_bind, wp_zoom]
  refine wp_mono (fun u t' _ => ?_) (fun _ t' _ => hput t') (wp_true _ _)
  rw [wp_bind, wp_modify]
  show (recordFrame request (putTable request.cameraId t' s1)).view k' = s.view k'
  rw [← hput t', view_eq]
  refine ⟨rfl, ?_, ?_, rfl⟩
  · show ((putTable request.cameraId t' s1).lastFrame.set _ _).get? k' = _
    rw [get?_set, if_neg hne]
  · show ((putTable request.cameraId t' s1).lastTime.set _ _).get? k' = _
    rw [get?_set, if_neg hne]

theorem view_reset (s : GeometricTracker) (k k' : CameraId) :
    (s.reset k).view k' =
      if k = k' then ⟨(s.tables.get? k).map (·.reset (s.nextEpoch k)), none, none,
        some (s.nextEpoch k)⟩
      else s.view k' := by
  have htables : (s.reset k).tables.get? k' =
      if k = k' then (s.tables.get? k).map (·.reset (s.nextEpoch k)) else s.tables.get? k' := by
    unfold reset
    cases ht : s.tables.get? k with
    | none =>
      simp only
      split
      · rename_i hk
        rw [← hk, ht]
        rfl
      · rfl
    | some t =>
      simp only [get?_set, Option.map_some]
  unfold view
  rw [htables]
  show CameraView.mk _ ((s.lastFrame.erase k).get? k') ((s.lastTime.erase k).get? k')
    ((s.epochs.set k (s.nextEpoch k)).get? k') = _
  rw [get?_erase, get?_erase, get?_set]
  by_cases hk : k = k'
  · simp only [hk, if_true]
  · simp only [if_neg hk, if_neg (Ne.symm hk)]

end GeometricTracker

/-- Cameras do not influence each other's tracks: over any interleaving of the calls about any
    cameras, each camera is answered as by a fresh tracker that is asked about it alone. -/
theorem cameras_undisturbed (w : GeometricWiring) (camera : CameraId)
    (calls : List (CameraId × TrackerCall)) :
    Noninterference.Undisturbed (answer w) camera {} calls := by
  refine Noninterference.undisturbed_of_view (view camera) ?_ ?_ {}
  · intro s s' call hview
    cases call with
    | update frameRef timestamp elapsed detections =>
      obtain ⟨hresult, hleft⟩ := update_through w
        { cameraId := camera, frameRef, timestamp, elapsed, detections } s s' hview
      exact ⟨congrArg updated hresult, hleft⟩
    | tracks =>
      refine ⟨congrArg listed ?_, hview⟩
      unfold tracks
      rw [(view_eq.mp hview).1]
    | reset reason =>
      obtain ⟨htable, -, -, hepoch⟩ := view_eq.mp hview
      have hnext : s.nextEpoch camera = s'.nextEpoch camera := by
        unfold nextEpoch
        rw [hepoch]
      refine ⟨congrArg TrackerAnswer.reset hnext, ?_⟩
      show (s.reset camera).view camera = (s'.reset camera).view camera
      rw [view_reset, view_reset, if_pos rfl, if_pos rfl,
        htable, hnext]
  · rintro s ⟨other, call⟩ - hother
    have hne : other ≠ camera := hother
    cases call with
    | update frameRef timestamp elapsed detections =>
      exact update_spares w
        { cameraId := other, frameRef, timestamp, elapsed, detections } hne s
    | tracks => rfl
    | reset reason =>
      show (s.reset other).view camera = s.view camera
      rw [view_reset, if_neg hne]

end VisionOs.Tracking
