/-
  Runs of one tracker.  Its tables stay well kept, and a track id that was issued stays issued:
  within an epoch the counter only goes up.
-/
import VisionOs.Tracking.Frames
import VisionOs.Lib.Runs

namespace VisionOs.Tracking

open Core Lib Effect OrderedDict Option GeometricTracker TrackTable

namespace GeometricTracker

/-- What holds of a tracker in every run. -/
structure Sound (w : GeometricWiring) (s : GeometricTracker) : Prop where
  tables : ∀ k t, s.tables.get? k = some t → t.WellKept ∧ t.cameraId = k ∧
    s.epochs.get? k = some t.epoch ∧ t.maxTracks = w.lifecycle.maxTracksPerCamera ∧
    t.historyLength = w.historyLength
  epochs : ∀ k e, s.epochs.get? k = some e → 0 ≤ e

def Issued (s : GeometricTracker) (id : TrackId) : Prop :=
  ∃ e, s.epochs.get? id.cameraId = some e ∧ (id.trackerEpoch < e ∨ (id.trackerEpoch = e ∧
    ∃ t, s.tables.get? id.cameraId = some t ∧ id.localId < t.nextLocalId))

theorem sound_empty (w : GeometricWiring) : Sound w {} where
  tables := fun k t h => absurd (h.symm.trans (get?_empty k)) (some_ne_none t)
  epochs := fun k e h => absurd (h.symm.trans (get?_empty k)) (some_ne_none e)

structure Advances (w : GeometricWiring) (s s' : GeometricTracker) : Prop where
  sound : Sound w s'
  issued : ∀ id, s.Issued id → s'.Issued id

theorem Advances.refl {w : GeometricWiring} {s : GeometricTracker} (h : Sound w s) :
    Advances w s s := ⟨h, fun _ h => h⟩

theorem Advances.trans {w : GeometricWiring} {s s₁ s₂ : GeometricTracker} (h₁ : Advances w s s₁)
    (h₂ : Advances w s₁ s₂) : Advances w s s₂ :=
  ⟨h₂.sound, fun id h => h₂.issued id (h₁.issued id h)⟩

variable {w : GeometricWiring} {s : GeometricTracker}

/-! ## Its operations -/

theorem Sound.setdefaultEpoch (h : Sound w s) (k : CameraId) :
    Advances w s (s.setdefaultEpoch k) := by
  unfold GeometricTracker.setdefaultEpoch
  cases hk : s.epochs.get? k with
  | some e => exact Advances.refl h
  | none =>
    have hepoch : ∀ k' e, s.epochs.get? k' = some e → (s.epochs.set k 0).get? k' = some e := by
      intro k' e he
      rw [get?_set, if_neg ?_]
      · exact he
      · rintro rfl
        rw [hk] at he
        cases he
    refine ⟨⟨fun k' t ht => ?_, fun k' e he => ?_⟩, ?_⟩
    · obtain ⟨h1, h2, h3, h4⟩ := h.tables k' t ht
      exact ⟨h1, h2, hepoch _ _ h3, h4⟩
    · rcases get?_of_set he with ⟨-, rfl⟩ | ⟨-, he⟩
      · exact le_refl 0
      · exact h.epochs k' e he
    · rintro id ⟨e, he, hid⟩
      exact ⟨e, hepoch _ _ he, hid⟩

theorem Sound.putTable (h : Sound w s) {k : CameraId} {t : TrackTable} (hkept : t.WellKept)
    (hcamera : t.cameraId = k) (hepoch : s.epochs.get? k = some t.epoch)
    (hmax : t.maxTracks = w.lifecycle.maxTracksPerCamera)
    (hhistory : t.historyLength = w.historyLength)
    (hnext : ∀ t₀, s.tables.get? k = some t₀ → t₀.nextLocalId ≤ t.nextLocalId) :
    Advances w s (s.putTable k t) := by
  refine ⟨⟨fun k' t' ht' => ?_, h.epochs⟩, ?_⟩
  · change (s.tables.set k t).get? k' = some t' at ht'
    rcases get?_of_set ht' with ⟨hk, rfl⟩ | ⟨-, ht'⟩
    · rw [← hk]
      exact ⟨hkept, hcamera, hepoch, hmax, hhistory⟩
    · exact h.tables k' t' ht'
  · rintro id ⟨e, he, hlt | ⟨heq, t₀, ht₀, hlocal⟩⟩
    · exact ⟨e, he, .inl hlt⟩
    · refine ⟨e, he, .inr ⟨heq, ?_⟩⟩
      show ∃ t', (s.tables.set k t).get? id.cameraId = some t' ∧ _
      rw [get?_set]
      by_cases hk : k = id.cameraId
      · rw [if_pos hk]
        exact ⟨t, rfl, hlocal.trans_le (hnext t₀ (hk ▸ ht₀))⟩
      · rw [if_neg hk]
        exact ⟨t₀, ht₀, hlocal⟩

def tableAt (w : GeometricWiring) (k : CameraId) (s : GeometricTracker) : TrackTable :=
  (s.tables.get? k).getD
    { cameraId := k
      epoch := (s.epochs.get? k).getD 0
      maxTracks := w.lifecycle.maxTracksPerCamera
      historyLength := w.historyLength }

theorem tableFor_spec (h : Sound w s) (k : CameraId) :
    Effect.wp (tableFor w k)
      (fun t s' => t = s.tableAt w k ∧ s'.tables.get? k = some t ∧ Advances w s s' ∧
        (s'.lastFrame = s.lastFrame ∧ s'.lastTime = s.lastTime))
      (fun _ s' => Advances w s s') s := by
  unfold tableFor
  rw [wp_bind, wp_read]
  cases ht : s.tables.get? k with
  | some t => exact ⟨by rw [tableAt, ht]; rfl, ht, Advances.refl h, rfl, rfl⟩
  | none =>
    have hdefault := h.setdefaultEpoch k
    rw [wp_bind, wp_modify, wp_bind, wp_read, wp_bind,
      wp_ofExcept]
    refine ⟨fun t hconstruct => ?_, fun _ _ => hdefault⟩
    rw [wp_bind, wp_modify]
    -- the camera's epoch, set or there before
    have hepoch : (s.setdefaultEpoch k).epochs.get? k = some ((s.epochs.get? k).getD 0) := by
      unfold setdefaultEpoch
      cases hk : s.epochs.get? k with
      | some e => exact hk
      | none => exact get?_set_self _ _ _
    have hsame : (s.setdefaultEpoch k).lastFrame = s.lastFrame ∧
        (s.setdefaultEpoch k).lastTime = s.lastTime ∧ (s.setdefaultEpoch k).tables = s.tables := by
      unfold setdefaultEpoch
      split <;> exact ⟨rfl, rfl, rfl⟩
    obtain ⟨hmax, hconstruct⟩ := check_bind_eq_ok.mp hconstruct
    obtain ⟨-, hconstruct⟩ := check_bind_eq_ok.mp hconstruct
    rw [require_eq_ok] at hmax
    rw [hepoch, getD_some] at hconstruct
    have hnonneg := hdefault.sound.epochs k _ hepoch
    have htable := Except.ok.inj hconstruct
    subst htable
    refine ⟨by rw [tableAt, ht]; rfl, get?_set_self _ _ _, hdefault.trans ?_,
      hsame.1, hsame.2.1⟩
    refine hdefault.sound.putTable
      (wellKept_of_empty hnonneg (not_lt.mp hmax) rfl rfl) rfl hepoch rfl rfl
      fun t₀ ht₀ => ?_
    rw [hsame.2.2, ht] at ht₀
    cases ht₀

theorem Sound.tableAt (h : Sound w s) (k : CameraId)  :
    (s.tableAt w k).WellKept ∧ (s.tableAt w k).cameraId = k ∧
      (s.tableAt w k).maxTracks = w.lifecycle.maxTracksPerCamera := by
  unfold GeometricTracker.tableAt
  cases ht : s.tables.get? k with
  | some t =>
    obtain ⟨h1, h2, -, h4, -⟩ := h.tables k t ht
    exact ⟨h1, h2, h4⟩
  | none =>
    have hepoch : 0 ≤ (s.epochs.get? k).getD 0 := by
      cases hk : s.epochs.get? k with
      | none => exact le_refl 0
      | some e => exact h.epochs k e hk
    exact ⟨wellKept_of_empty hepoch w.lifecycle.bounds.2.2.2.2 rfl rfl, rfl, rfl⟩

/-! ## A frame -/

open GeometricWiring in
structure Tracked (w : GeometricWiring) (request : TrackingRequest) (s : GeometricTracker)
    (u : TrackUpdate) (s' : GeometricTracker) : Prop where
  advances : Advances w s s'
  frame : ∃ t' p turns t₁ made, s'.tables.get? request.cameraId = some t' ∧
    FrameDone w request (elapsedFor request s) (s.tableAt w request.cameraId) u t' p turns t₁ made
  lastFrame : s'.lastFrame = s.lastFrame.set request.cameraId request.position
  lastTime : s'.lastTime = s.lastTime.set request.cameraId request.timestamp

theorem update_spec (h : Sound w s) (request : TrackingRequest) :
    Effect.wp (update w request) (Tracked w request s) (fun _ s' => Advances w s s') s := by
  unfold update
  rw [wp_bind, wp_read, wp_bind, wp_ofExcept]
  refine ⟨fun _ _ => ?_, fun _ _ => Advances.refl h⟩
  rw [wp_bind]
  refine wp_mono ?_ (fun _ _ h => h) (tableFor_spec h request.cameraId)
  rintro t s₁ ⟨rfl, htable, hadvances, hframes, htimes⟩
  obtain ⟨hkept, hcamera, hepoch, hmax, hhistory⟩ := hadvances.sound.tables _ _ htable
  -- a table that goes on from the camera's own may be put back
  have hput : ∀ t', (s.tableAt w request.cameraId).Continues t' →
      Advances w s (putTable request.cameraId t' s₁) := by
    intro t' hcontinues
    refine hadvances.trans (hadvances.sound.putTable hcontinues.kept
      (hcontinues.cameraId.trans hcamera) (by rw [hcontinues.epoch]; exact hepoch)
      (hcontinues.maxTracks.trans hmax) (hcontinues.historyLength.trans hhistory) ?_)
    intro t₀ ht₀
    rw [htable] at ht₀
    cases ht₀
    exact hcontinues.next
  rw [wp_bind, wp_zoom]
  refine wp_mono ?_ (fun _ t' hcontinues => hput t' hcontinues)
    (GeometricWiring.advance_spec hkept)
  rintro u t' ⟨p, turns, t₁, made, hdone⟩
  rw [wp_bind, wp_modify]
  have hadvanced := hput t' hdone.continues
  refine ⟨⟨⟨hadvanced.sound.tables, hadvanced.sound.epochs⟩, hadvanced.issued⟩, ?_, ?_, ?_⟩
  · exact ⟨t', p, turns, t₁, made, get?_set_self _ _ _, hdone⟩
  · show s₁.lastFrame.set _ _ = _
    rw [hframes]
  · show s₁.lastTime.set _ _ = _
    rw [htimes]

/-- The ids a frame announces are new: each names the frame's camera, was not issued before and
    is issued now. -/
theorem Tracked.new {request : TrackingRequest} {u : TrackUpdate} {s' : GeometricTracker}
    (h : Tracked w request s u s') (hsound : Sound w s) :
    u.new.Nodup ∧ ∀ id ∈ u.new, ¬ s.Issued id ∧ s'.Issued id := by
  obtain ⟨t', p, turns, t₁, made, htable, hdone⟩ := h.frame
  have hnew := hdone.new
  have hspawned := hdone.spawned
  have hturned := hdone.turned.continues
  rw [hnew]
  refine ⟨hspawned.nodup, fun id hid => ?_⟩
  obtain ⟨r, hr, rfl⟩ := List.mem_map.mp hid
  obtain ⟨hcamera, hepoch, hlow, hhigh⟩ := hspawned.fresh r hr
  obtain ⟨-, hcamera', hepoch', -⟩ := h.advances.sound.tables _ _ htable
  have hown : r.trackId.cameraId = request.cameraId := by
    rw [hcamera, ← hspawned.continues.cameraId, hcamera']
  have hnow : r.trackId.trackerEpoch = t'.epoch := by
    rw [hepoch, ← hspawned.continues.epoch]
  constructor
  · rintro ⟨e, he, hissued⟩
    rw [hown] at he hissued
    have hbase : (s.tableAt w request.cameraId).epoch = e := by
      unfold tableAt
      cases ht : s.tables.get? request.cameraId with
      | some t =>
        have := (hsound.tables _ _ ht).2.2.1
        rw [he] at this
        exact (some.inj this).symm
      | none =>
        rw [he]
        rfl
    have hsame : r.trackId.trackerEpoch = e := by
      rw [hnow, hdone.continues.epoch, hbase]
    rcases hissued with hlt | ⟨-, t, ht, hlocal⟩
    · omega
    have hat : s.tableAt w request.cameraId = t := by
      unfold tableAt
      rw [ht]
      rfl
    have hnext := hturned.next
    rw [hat] at hnext
    omega
  · refine ⟨t'.epoch, by rw [hown]; exact hepoch', .inr ⟨hnow, t', ?_, hhigh⟩⟩
    rw [hown]
    exact htable

theorem Sound.reset (h : Sound w s) (k : CameraId) : Advances w s (s.reset k) := by
  have hnext : 0 ≤ s.nextEpoch k := by
    unfold nextEpoch
    cases hk : s.epochs.get? k with
    | none => simp
    | some e =>
      have := h.epochs k e hk
      simp only [getD_some]
      omega
  have htables : ∀ k', (s.reset k).tables.get? k' =
      if k = k' then (s.tables.get? k).map (·.reset (s.nextEpoch k)) else s.tables.get? k' := by
    intro k'
    unfold GeometricTracker.reset
    cases ht : s.tables.get? k with
    | none =>
      simp only
      split
      · rename_i hk
        rw [← hk, ht]
        rfl
      · rfl
    | some t => simp only [get?_set, map_some]
  have hepochs : ∀ k', (s.reset k).epochs.get? k' =
      if k = k' then some (s.nextEpoch k) else s.epochs.get? k' := fun k' =>
    get?_set _ _ _ _
  refine ⟨⟨fun k' t ht => ?_, fun k' e he => ?_⟩, ?_⟩
  · rw [htables] at ht
    rw [hepochs]
    split at ht
    · rename_i hk
      obtain ⟨t₀, ht₀, rfl⟩ := map_eq_some_iff.mp ht
      obtain ⟨h1, h2, -, h4, h5⟩ := h.tables k t₀ ht₀
      rw [if_pos hk]
      exact ⟨wellKept_of_empty hnext h1.max_pos rfl rfl, h2.trans hk, rfl, h4, h5⟩
    · rename_i hk
      rw [if_neg hk]
      exact h.tables k' t ht
  · rw [hepochs] at he
    split at he
    · cases he
      exact hnext
    · exact h.epochs k' e he
  · rintro id ⟨e, he, hissued⟩
    by_cases hk : k = id.cameraId
    · -- the camera moves on to an epoch after all that it had
      refine ⟨s.nextEpoch k, by rw [hepochs, if_pos hk], .inl ?_⟩
      unfold nextEpoch
      rw [hk, he, getD_some]
      rcases hissued with hlt | ⟨heq, -⟩ <;> omega
    · refine ⟨e, by rw [hepochs, if_neg hk]; exact he, ?_⟩
      rw [htables, if_neg hk]
      exact hissued

theorem answer_advances (h : Sound w s) (k : CameraId) (call : TrackerCall) :
    Advances w s (answer w s k call).1 := by
  cases call with
  | update frameRef timestamp elapsed detections =>
    exact wp_state.mp (wp_mono (fun _ _ htracked => htracked.advances)
      (fun _ _ h => h) (update_spec h { cameraId := k, frameRef, timestamp, elapsed, detections }))
  | tracks => exact Advances.refl h
  | reset reason => exact h.reset k

/-- Some calls lead to the tracker. -/
def Reachable (w : GeometricWiring) (s : GeometricTracker) : Prop :=
  ∃ calls : List (CameraId × TrackerCall),
    s = Runs.run (fun s call => (answer w s call.1 call.2).1) {} calls

theorem Reachable.sound (h : Reachable w s) : Sound w s := by
  obtain ⟨calls, rfl⟩ := h
  refine Runs.run_invariant ?_ (sound_empty w) calls
  exact fun s call hs => (answer_advances hs call.1 call.2).sound

/-- After any calls, a camera's table is the camera's own, of its present epoch, and not
    overfull; its tracks are filed under ids that the epoch's counter has passed. -/
theorem geometricTracker_sound (w : GeometricWiring) (calls : List (CameraId × TrackerCall)) :
    Sound w (Runs.run (fun s call => (answer w s call.1 call.2).1) {} calls) :=
  Reachable.sound ⟨calls, rfl⟩

end GeometricTracker

end VisionOs.Tracking
