/-
  `history`: the observations of one object, read from the first records of every partition, four
  for each observation that is asked for, whichever objects they are of.
-/
import VisionOs.Lib.Selection
import VisionOs.State.Manager
import VisionOs.Synthesis.RoundTrip

namespace VisionOs.State

open Core Lib Synthesis List Latest

def Asked (objectId : ObjectId) (cutoff : Option Instant) (o : Observation) : Prop :=
  o.objectId = some objectId ∧ ∀ before ∈ cutoff, before.ns ≤ o.tCapture.ns

instance (objectId : ObjectId) (cutoff : Option Instant) :
    DecidablePred (Asked objectId cutoff) := fun _ => inferInstanceAs (Decidable (_ ∧ _))

namespace Manager

/-- `history`'s loop over the partitions. -/
def matching (m : Manager) (objectId : ObjectId) (cutoff : Option Instant) (limit : Nat) :
    List Observation :=
  m.cameras.flatMap fun cameraId =>
    ((m.cells cameraId).log.read 0 none (limit * 4)).filter (Asked objectId cutoff)

/-- `history`.  The sort is stable.  Where `limit` is 0 nothing was read, so the slice
    `matches[-0:]` is empty as well. -/
def history (now : Instant) (objectId : ObjectId) (window : Option Duration) (limit : Nat)
    (m : Manager) : List Observation :=
  let cutoff := window.map fun w => ⟨now.ns - w.ns⟩
  lastOf (·.tCapture.ns) limit (m.matching objectId cutoff limit)

/-! ## What is read of the log -/

def ofObject (objectId : ObjectId) (records : List Observation) : List Observation :=
  records.filter (·.objectId = some objectId)

/-- The observations of an object that the log holds for some cameras. -/
def logged (m : Manager) (objectId : ObjectId) (cameras : List CameraId) : List Observation :=
  cameras.flatMap fun cameraId => ofObject objectId (m.cells cameraId).log.records

def among (m : Manager) (objectId : ObjectId) (count : Nat) : List Observation :=
  m.cameras.flatMap fun cameraId =>
    ofObject objectId ((m.cells cameraId).log.records.take count)

def beyond (m : Manager) (objectId : ObjectId) (count : Nat) : List Observation :=
  m.cameras.flatMap fun cameraId =>
    ofObject objectId ((m.cells cameraId).log.records.drop count)

theorem matching_none (m : Manager) (objectId : ObjectId) (limit : Nat) :
    m.matching objectId none limit = m.among objectId (limit * 4) := by
  unfold matching among ofObject
  congr 1
  funext cameraId
  rw [LogPartition.read_prefix]
  refine filter_congr fun o _ => ?_
  simp [Asked]

theorem among_append_beyond (m : Manager) (objectId : ObjectId) (count : Nat) :
    (m.among objectId count ++ m.beyond objectId count).Perm
      (m.logged objectId m.cameras) := by
  refine (flatMap_append_perm _ _ _).trans (List.Perm.of_eq ?_)
  congr 1
  funext cameraId
  unfold ofObject
  rw [← filter_append, take_append_drop]

/-- The answer for an object is the last of its observations, whatever the log holds for the
    partitions and for other cameras, if and only if of every observation that the call does
    not get to read there are `limit` among the first records captured no earlier. -/
theorem history_latest_iff (now : Instant) (m : Manager) (objectId : ObjectId) (limit : Nat)
    (others : List CameraId) :
    Latest.IsLatest (·.tCapture.ns) limit (m.logged objectId (m.cameras ++ others))
        (m.history now objectId none limit) ↔
      ∀ o ∈ m.beyond objectId (limit * 4) ++ m.logged objectId others,
        limit ≤ (m.among objectId (limit * 4)).countP (o.tCapture.ns ≤ ·.tCapture.ns) := by
  have hall : (m.among objectId (limit * 4) ++
      (m.beyond objectId (limit * 4) ++ m.logged objectId others)).Perm
      (m.logged objectId (m.cameras ++ others)) := by
    unfold logged
    rw [flatMap_append, ← append_assoc]
    exact (m.among_append_beyond objectId (limit * 4)).append_right _
  have hfound : m.history now objectId none limit =
      lastOf (·.tCapture.ns) limit (m.among objectId (limit * 4)) := by
    rw [← matching_none]
    rfl
  rw [hfound, ← isLatest_congr hall]
  exact isLatest_lastOf_iff

/-- An observation of the person before the camera "north". -/
def seenAt (n : Nat) : Observation where
  toObservationFields :=
    { personFields .attributes [postureAttribute] none with
      observationId := "seen-" ++ toString n, tCapture := ⟨n⟩ }
  accepted := ObservationFields.postInit_eq_ok.mpr
    ⟨by
        intro h
        have := congrArg String.length h
        simp at this,
      rfl, le_refl 0, by constructor <;> simp [personFields], by simp [personFields],
      by simp [personFields]⟩

/-- The manager that was handed five observations, one after another. -/
def seenFiveTimes : Manager :=
  (Manager.new.append .defaults (fun _ => {}) ((List.range 5).map seenAt)).2

/-- Asked for the latest one, `history` returns the one before it. -/
theorem latest_is_missed :
    seenFiveTimes.cameras = ["north"] ∧
      ¬ Latest.IsLatest (·.tCapture.ns) 1 (seenFiveTimes.logged "person" ["north"])
        (seenFiveTimes.history ⟨9⟩ "person" none 1) := by
  have hcameras : seenFiveTimes.cameras = ["north"] := by decide +kernel
  refine ⟨hcameras, fun h => ?_⟩
  have hfound : (seenFiveTimes.history ⟨9⟩ "person" none 1).map (·.tCapture.ns) = [3] := by
    decide +kernel
  have hall : 4 ∈ (seenFiveTimes.logged "person" ["north"]).map (·.tCapture.ns) := by
    decide +kernel
  obtain ⟨o, ho, hlast⟩ := mem_map.mp hall
  obtain ⟨y, hy, hthree⟩ : ∃ y ∈ seenFiveTimes.history ⟨9⟩ "person" none 1,
      y.tCapture.ns = 3 := by
    rw [← mem_map, hfound, mem_singleton]
  -- the fifth observation is neither the one that was found nor one before it
  obtain ⟨rest, hsplit, hle⟩ := h.latest
  rcases mem_append.mp (hsplit.mem_iff.mpr ho) with hin | hin
  · have hmem := @mem_map_of_mem _ _ _ _ (·.tCapture.ns) hin
    rw [hfound, mem_singleton] at hmem
    omega
  · have := hle o hin y hy
    omega

end Manager

end VisionOs.State
