/-
  What one bad record does to a batch.  The batch loop catches the `ProjectionError` for an
  observation of another camera, and not the `ValueError` for one of the object "".
-/
import VisionOs.State.Batching
import VisionOs.State.WellFormed

namespace VisionOs.State

open Core Lib Synthesis StateSection List

/-! ## One observation -/

/-- A partition that projections have made of one without objects. -/
def ReachedByProjection (bounds : ProjectionBounds) (p : CameraPartition) : Prop :=
  ∃ start todo, start.objects = ∅ ∧ foldProject bounds start todo = .ok p

/-- `project` returns, or raises the exception that the batch loop catches. -/
def Contained (bounds : ProjectionBounds) (p : CameraPartition) (o : Observation)
    (position : Int) : Prop :=
  (∃ outcome, project bounds p o position = .ok outcome) ∨
    ∃ message, project bounds p o position = .error (.projectionError message)

def NamesNobody (cameraId : CameraId) (o : Observation) : Prop :=
  o.cameraId = cameraId ∧ o.objectId = some ""

instance (cameraId : CameraId) (o : Observation) : Decidable (NamesNobody cameraId o) :=
  inferInstanceAs (Decidable (_ ∧ _))

variable {p : CameraPartition} {o : Observation}

theorem project_stranger (bounds : ProjectionBounds)
    (h : o.cameraId ≠ p.cameraId) (position : Int) :
    ∃ message, project bounds p o position = .error (.projectionError message) := by
  unfold project
  rw [if_pos h]
  exact ⟨_, rfl⟩

theorem NamesNobody.not_absorbable {cameraId : CameraId}
    (h : NamesNobody cameraId o) : ¬ Absorbable o := fun hok => hok h.2

theorem project_cases (bounds : ProjectionBounds)
    (hinv : PartitionInv p.cameraId p) (o : Observation) (position : Int) :
    (¬ NamesNobody p.cameraId o ∧ o.cameraId = p.cameraId ∧
      ∃ outcome, project bounds p o position = .ok outcome ∧
        PartitionInv p.cameraId outcome.partition) ∨
    (¬ NamesNobody p.cameraId o ∧ o.cameraId ≠ p.cameraId ∧
      ∃ message, project bounds p o position = .error (.projectionError message)) ∨
    (NamesNobody p.cameraId o ∧
      ∃ message, project bounds p o position = .error (.valueError message)) := by
  by_cases hcamera : o.cameraId = p.cameraId
  · by_cases hok : Absorbable o
    · obtain ⟨outcome, hproject, habsorbed⟩ := project_absorbs bounds position hinv hcamera hok
      exact .inl ⟨fun h => h.not_absorbable hok, hcamera, outcome, hproject, habsorbed.inv⟩
    · have hnobody : NamesNobody p.cameraId o := ⟨hcamera, not_not.mp hok⟩
      exact .inr (.inr ⟨hnobody, project_raises bounds position hinv hcamera hok⟩)
  · exact .inr (.inl ⟨fun h => hcamera h.1, hcamera, project_stranger bounds hcamera position⟩)

variable {bounds : ProjectionBounds}

theorem contained_iff
    (hinv : PartitionInv p.cameraId p) (o : Observation) (position : Int) :
    Contained bounds p o position ↔ ¬ NamesNobody p.cameraId o := by
  unfold Contained
  rcases project_cases bounds hinv o position with
    ⟨hnot, -, outcome, hok, -⟩ | ⟨hnot, -, message, herror⟩ | ⟨hnobody, message, herror⟩
  · exact iff_of_true (.inl ⟨outcome, hok⟩) hnot
  · exact iff_of_true (.inr ⟨message, herror⟩) hnot
  · rw [herror]
    refine iff_of_false ?_ (not_not.mpr hnobody)
    rintro (⟨_, ⟨⟩⟩ | ⟨_, ⟨⟩⟩)

theorem ReachedByProjection.inv
    (h : ReachedByProjection bounds p) : PartitionInv p.cameraId p := by
  obtain ⟨start, todo, hstart, hfold⟩ := h
  induction todo using reverseRecOn generalizing p with
  | nil =>
    cases hfold
    refine ⟨rfl, ?_⟩
    rw [hstart]
    rintro k s ⟨⟩
  | append_singleton todo e ih =>
    rw [foldProject_concat] at hfold
    obtain ⟨q, hq, hnext⟩ := bind_eq_ok.mp hfold
    obtain ⟨outcome, houtcome, hlast⟩ := bind_eq_ok.mp hnext
    cases hlast
    rcases project_cases bounds (ih hq) e.2 e.1 with
      ⟨-, -, outcome', hok, hinv⟩ | ⟨-, -, message, herror⟩ | ⟨-, message, herror⟩
    · rw [houtcome] at hok
      cases hok
      rwa [← hinv.camera] at hinv
    · rw [herror] at houtcome
      cases houtcome
    · rw [herror] at houtcome
      cases houtcome

/-! ## A batch -/

/-- The observations that `_project_batch` hands to `project`, at their positions: neither
    duplicates nor seen, an id being seen once an observation of the camera had it. -/
def handled (cameraId : CameraId) (duplicates : List ObservationId) :
    List ObservationId → Int → List Observation → List (Int × Observation)
  | _, _, [] => []
  | seen, position, o :: rest =>
    if o.observationId ∈ duplicates ∨ o.observationId ∈ seen then
      handled cameraId duplicates seen (position + 1) rest
    else
      (position + 1, o) ::
        handled cameraId duplicates
          (if o.cameraId = cameraId then o.observationId :: seen else seen) (position + 1) rest

/-- The refused observations are set aside, and the others absorbed. -/
inductive FoldsAround (bounds : ProjectionBounds) :
    CameraPartition → List (Int × Observation) → List (ObservationId × Message) →
      CameraPartition → Prop
  | nil (p : CameraPartition) : FoldsAround bounds p [] [] p
  | absorbed {p p' : CameraPartition} {e : Int × Observation} {outcome : ProjectionOutcome}
      {todo : List (Int × Observation)} {quarantined : List (ObservationId × Message)}
      (hproject : project bounds p e.2 e.1 = .ok outcome)
      (hrest : FoldsAround bounds outcome.partition todo quarantined p') :
      FoldsAround bounds p (e :: todo) quarantined p'
  | refused {p p' : CameraPartition} {e : Int × Observation} {message : Message}
      {todo : List (Int × Observation)} {quarantined : List (ObservationId × Message)}
      (hproject : project bounds p e.2 e.1 = .error (.projectionError message))
      (hrest : FoldsAround bounds p todo quarantined p') :
      FoldsAround bounds p (e :: todo) ((e.2.observationId, message) :: quarantined) p'

section Loop

variable (bounds : ProjectionBounds) {duplicates : List ObservationId}

theorem projectLoop_folds {position : Int} {observations : List Observation}
    {progress : Cell.Progress} {cameraId : CameraId}
    (hcamera : progress.partition.cameraId = cameraId)
    (hinv : PartitionInv cameraId progress.partition)
    (hall : ∀ e ∈ handled cameraId duplicates progress.seen position observations,
      ¬ NamesNobody cameraId e.2) :
    ∃ after quarantined,
      Cell.projectLoop bounds duplicates position observations progress = (after, none) ∧
      after.quarantined = progress.quarantined ++ quarantined ∧
      FoldsAround bounds progress.partition
        (handled cameraId duplicates progress.seen position observations) quarantined
        after.partition := by
  subst hcamera
  induction observations generalizing position progress with
  | nil => exact ⟨progress, [], rfl, (append_nil _).symm, .nil _⟩
  | cons o rest ih =>
    unfold handled at hall ⊢
    unfold Cell.projectLoop
    split at hall
    · rename_i hskip
      rw [if_pos hskip, if_pos hskip]
      exact ih hinv hall
    rename_i hkeep
    rw [if_neg hkeep, if_neg hkeep]
    obtain ⟨hfirst, hrest⟩ := forall_mem_cons.mp hall
    rcases project_cases bounds hinv o (position + 1) with
      ⟨-, hcamera, outcome, hok, hnext⟩ | ⟨-, hcamera, message, herror⟩ | ⟨hnobody, -⟩
    · -- absorbed: its id counts as seen
      rw [hok]
      rw [if_pos hcamera] at hrest ⊢
      have hsame : outcome.partition.cameraId = progress.partition.cameraId := hnext.camera
      rw [← hsame] at hrest hnext ⊢
      obtain ⟨after, quarantined, hloop, hquarantined, hfolds⟩ := @ih (position + 1)
        { progress with
          partition := outcome.partition
          seen := o.observationId :: progress.seen
          accepted := progress.accepted ++ [o.observationId] } hnext hrest
      exact ⟨after, quarantined, hloop, hquarantined, .absorbed hok hfolds⟩
    · -- refused: the loop goes on from the same partition
      rw [herror]
      rw [if_neg hcamera] at hrest ⊢
      obtain ⟨after, quarantined, hloop, hquarantined, hfolds⟩ := @ih (position + 1)
        { progress with
          quarantined := progress.quarantined ++ [(o.observationId, message)] } hinv hrest
      refine ⟨after, (o.observationId, message) :: quarantined, hloop, ?_, .refused herror hfolds⟩
      rw [hquarantined, append_assoc]
      rfl
    · exact absurd hnobody hfirst

theorem projectLoop_left {position : Int} {observations : List Observation}
    {progress : Cell.Progress} {cameraId : CameraId}
    (hcamera : progress.partition.cameraId = cameraId)
    (hinv : PartitionInv cameraId progress.partition) {e : Int × Observation}
    (he : e ∈ handled cameraId duplicates progress.seen position observations)
    (hnobody : NamesNobody cameraId e.2) :
    ∃ after exc,
      Cell.projectLoop bounds duplicates position observations progress = (after, some exc) := by
  subst hcamera
  induction observations generalizing position progress with
  | nil => cases he
  | cons o rest ih =>
    unfold handled at he
    unfold Cell.projectLoop
    split at he
    · rename_i hskip
      rw [if_pos hskip]
      exact ih hinv he hnobody
    rename_i hkeep
    rw [if_neg hkeep]
    rcases project_cases bounds hinv o (position + 1) with
      ⟨hnot, hcamera, outcome, hok, hnext⟩ | ⟨hnot, hcamera, message, herror⟩ |
      ⟨-, message, herror⟩
    · rw [hok]
      rw [if_pos hcamera] at he
      have hsame : outcome.partition.cameraId = progress.partition.cameraId := hnext.camera
      rcases mem_cons.mp he with rfl | he
      · exact absurd hnobody hnot
      · rw [← hsame] at he hnext hnobody
        exact ih hnext he hnobody
    · rw [herror]
      rw [if_neg hcamera] at he
      rcases mem_cons.mp he with rfl | he
      · exact absurd hnobody hnot
      · exact ih hinv he hnobody
    · rw [herror]
      exact ⟨progress, .valueError message, rfl⟩

end Loop

/-- The observations of a batch that `_project_batch` hands to `project`. -/
def Cell.handled (cell : Cell) (cameraId : CameraId) (observations : List Observation)
    (appended : LogAppendResult) : List (Int × Observation) :=
  State.handled (cell.partitionOf cameraId).cameraId appended.duplicates cell.seen
    (appended.position - observations.length) observations

/-- `_project_batch` finishes the batch, quarantines exactly the observations that `project`
    refuses, and stores the partition folded over all the others. -/
def BatchContained (config : StateSection) (cameraId : CameraId) (cell : Cell)
    (observations : List Observation) (appended : LogAppendResult) : Prop :=
  ∃ result p, (cell.projectBatch config cameraId observations appended).1 = .ok result ∧
    (cell.projectBatch config cameraId observations appended).2.partition = some p ∧
    FoldsAround config.bounds (cell.partitionOf cameraId)
      (cell.handled cameraId observations appended) result.quarantined p

theorem batchContained_iff (config : StateSection) {cameraId : CameraId} {cell : Cell}
    (hinv : PartitionInv (cell.partitionOf cameraId).cameraId (cell.partitionOf cameraId))
    (observations : List Observation) (appended : LogAppendResult) :
    BatchContained config cameraId cell observations appended ↔
      ∀ e ∈ cell.handled cameraId observations appended,
        ¬ NamesNobody (cell.partitionOf cameraId).cameraId e.2 := by
  unfold BatchContained Cell.projectBatch
  constructor
  · rintro ⟨result, p, hresult, -, -⟩ e he hnobody
    obtain ⟨after, exc, hloop⟩ := @projectLoop_left config.bounds _ _ _
      { partition := cell.partitionOf cameraId, seen := cell.seen } _ rfl hinv e he hnobody
    rw [hloop] at hresult
    cases hresult
  · intro hall
    obtain ⟨after, quarantined, hloop, hquarantined, hfolds⟩ := @projectLoop_folds config.bounds
      _ _ _ { partition := cell.partitionOf cameraId, seen := cell.seen } _ rfl hinv hall
    rw [hloop]
    refine ⟨_, _, rfl, rfl, ?_⟩
    rw [hquarantined]
    exact hfolds

/-- In a partition reached by projection `project` is contained exactly on the observations
    that do not name the empty object of its camera, and a batch is exactly when it hands
    `project` none of those. -/
theorem reached_contained_iff (config : StateSection) (p : CameraPartition)
    (hreached : ReachedByProjection config.bounds p) :
    (∀ o position, Contained config.bounds p o position ↔
      ¬ (o.cameraId = p.cameraId ∧ o.objectId = some "")) ∧
    ∀ cell cameraId, cell.partitionOf cameraId = p → ∀ observations appended,
      (BatchContained config cameraId cell observations appended ↔
        ∀ e ∈ cell.handled cameraId observations appended,
          ¬ (e.2.cameraId = p.cameraId ∧ e.2.objectId = some "")) := by
  refine ⟨fun o position => contained_iff hreached.inv o position, ?_⟩
  rintro cell cameraId rfl observations appended
  exact batchContained_iff config hreached.inv observations appended

/-- The partition that two persons have been observed in. -/
theorem reached_contained_two_persons :
    Contained defaults.bounds
      (([(1, activePosture), (2, visitorPosture)] : List (Int × Observation)).foldl
        (absorb defaults.bounds) { cameraId := "north" }) departure 3 := by
  refine ((reached_contained_iff .defaults _ ?_).1 departure 3).mpr (by decide)
  exact ⟨{ cameraId := "north" }, [(1, activePosture), (2, visitorPosture)], rfl, rfl⟩

/-- What `_append_partition` hands on for a batch of two records, the first of which names
    nobody. -/
def twoAppended : LogAppendResult where
  position := 2
  appended := 2
  duplicates := []

/-- The record that names nobody raises out of `project`, and out of the batch: the posture
    behind it is lost. -/
theorem nobody_stops_the_batch :
    ¬ Contained defaults.bounds (freshPartition "north") northNobody 1 ∧
      ¬ BatchContained .defaults "north" {} [northNobody, activePosture] twoAppended := by
  have hinv := freshPartition_inv "north"
  constructor
  · intro h
    exact (contained_iff hinv northNobody 1).mp h ⟨rfl, rfl⟩
  · intro h
    have hall := (@batchContained_iff .defaults "north" {} hinv [northNobody, activePosture]
      twoAppended).mp h
    exact hall (1, northNobody) mem_cons_self ⟨rfl, rfl⟩

end VisionOs.State
