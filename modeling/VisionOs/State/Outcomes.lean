/-
  Which observations a partition absorbs, and what one append to a camera can do.  `todo` is what
  the projection loop is left to project of a pending batch; it absorbs all of it, or raises at an
  observation of the object "".  `AppendOutcome` lists the five ends of `appendPartition`.
-/
import VisionOs.State.Manager

namespace VisionOs.State

open Core Lib List Cell Dedup

/-- Each object is filed under its own id. -/
structure PartitionInv (cameraId : CameraId) (p : CameraPartition) : Prop where
  camera : p.cameraId = cameraId
  keyed : ∀ k s, p.objects.get? k = some s → s.objectId = k

/-- The observation names no empty object. -/
def Absorbable (o : Observation) : Prop := o.objectId ≠ some ""

instance (o : Observation) : Decidable (Absorbable o) :=
  inferInstanceAs (Decidable (o.objectId ≠ some ""))

@[simp] theorem applySpatial_objectId (s : ObjectState) (o : Observation)
    (bounds : ProjectionBounds) : (applySpatial s o bounds).objectId = s.objectId := by
  unfold applySpatial
  split <;> rfl

@[simp] theorem applyPayload_objectId (s : ObjectState) (o : Observation)
    (bounds : ProjectionBounds) : (applyPayload s o bounds).objectId = s.objectId := by
  unfold applyPayload
  split
  · exact applySpatial_objectId s o bounds
  · exact applySpatial_objectId s o bounds
  · rfl
  · split <;> rfl
  · split <;> rfl
  · rfl

@[simp] theorem applyClass_objectId (s previous : ObjectState) (o : Observation)
    (bounds : ProjectionBounds) : (applyClass s previous o bounds).objectId = s.objectId := by
  unfold applyClass
  split
  · rfl
  · split
    · rfl
    · split
      · split <;> rfl
      · rfl

theorem applyKnown_objectId (previous : ObjectState) (o : Observation) (bounds : ProjectionBounds) :
    (applyKnown previous o bounds).objectId = previous.objectId := by
  have hbase : (applyClass (applyPayload (sighted previous o) o bounds) previous o
      bounds).objectId = previous.objectId := by
    rw [applyClass_objectId, applyPayload_objectId]
    rfl
  unfold applyKnown
  split
  · split
    · exact hbase
    · exact hbase
  · exact hbase

theorem create_spec (objectId : ObjectId) (o : Observation) (bounds : ProjectionBounds) :
    (objectId = "" ∧ ∃ message, create objectId o bounds = .error (.valueError message)) ∨
    (objectId ≠ "" ∧ ∃ s, create objectId o bounds = .ok s ∧ s.objectId = objectId) := by
  unfold create
  by_cases hid : objectId = ""
  · refine .inl ⟨hid, "object state requires an object_id", ?_⟩
    rw [dif_pos hid]
  · refine .inr ⟨hid, ?_⟩
    simp only [hid, dite_false]
    refine ⟨_, rfl, ?_⟩
    split <;> rfl

variable {capacity : Nat} {k : ObjectId} {s : ObjectState}

variable {keep : ObjectId} {objects : OrderedDict ObjectId ObjectState}

theorem get?_of_shedLoop {passes : Nat}
    (h : (shedLoop capacity keep passes objects).1.get? k = some s) :
    objects.get? k = some s := by
  induction passes generalizing objects with
  | zero => exact h
  | succ passes ih =>
    unfold shedLoop at h
    split at h
    · exact h
    · split at h
      · exact h
      · have hk := ih h
        exact (OrderedDict.get?_of_erase hk).2

theorem get?_of_shed
    (h : (shed objects capacity keep).1.get? k = some s) :
    objects.get? k = some s :=
  get?_of_shedLoop h

/-! ## Projecting one observation -/

variable {p : CameraPartition}

variable {cameraId : CameraId}

theorem PartitionInv.get?_empty (hinv : PartitionInv cameraId p) : p.objects.get? "" = none := by
  cases hget : p.objects.get? "" with
  | none => rfl
  | some s => exact absurd (hinv.keyed "" s hget) s.objectId_ne_empty

structure Absorbed (cameraId : CameraId) (p : CameraPartition) (position : Int)
    (p' : CameraPartition) : Prop where
  inv : PartitionInv cameraId p'
  logPosition : p'.logPosition = position
  version : p'.version = p.version + 1
  degradedReason : p'.degradedReason = p.degradedReason

theorem projectObject_absorbs (bounds : ProjectionBounds) {objectId : ObjectId} (o : Observation)
    (position : Int)
    (hinv : PartitionInv cameraId p) (hid : objectId ≠ "") :
    ∃ outcome, projectObject bounds p objectId o position = .ok outcome ∧
      Absorbed cameraId p position outcome.partition := by
  have happly : ∃ updated, apply (p.objects.get? objectId) objectId o bounds = .ok updated ∧
      updated.objectId = objectId := by
    cases hget : p.objects.get? objectId with
    | none =>
      rcases create_spec objectId o bounds with ⟨hempty, -⟩ | ⟨-, s, hs, hsid⟩
      · exact absurd hempty hid
      · exact ⟨s, hs, hsid⟩
    | some previous =>
      refine ⟨applyKnown previous o bounds, rfl, ?_⟩
      rw [applyKnown_objectId]
      exact hinv.keyed objectId previous hget
  obtain ⟨updated, hupdated, hupdatedId⟩ := happly
  unfold projectObject
  simp only [hupdated]
  refine ⟨_, rfl, ⟨hinv.camera, ?_⟩, rfl, rfl, rfl⟩
  intro k s hget
  have hset := get?_of_shed hget
  rcases OrderedDict.get?_of_set hset with ⟨hk, rfl⟩ | ⟨-, hset⟩
  · rw [← hk]
    exact hupdatedId
  · exact hinv.keyed k s hset

variable {o : Observation}

theorem project_absorbs (bounds : ProjectionBounds) (position : Int)
    (hinv : PartitionInv cameraId p)
    (hcamera : o.cameraId = cameraId) (hok : Absorbable o) :
    ∃ outcome, project bounds p o position = .ok outcome ∧
      Absorbed cameraId p position outcome.partition := by
  unfold project
  have hsame : ¬ o.cameraId ≠ p.cameraId := by rw [hinv.camera]; simp [hcamera]
  simp only [hsame, if_false]
  by_cases hcov : o.observationType = .coverage
  · simp only [hcov, if_true]
    unfold projectCoverage
    cases hwindow : o.coverage with
    | none => exact absurd hwindow (o.payload.coverage hcov).1
    | some window => exact ⟨_, rfl, ⟨hinv.camera, hinv.keyed⟩, rfl, rfl, rfl⟩
  · simp only [hcov, if_false]
    cases hobject : o.objectId with
    | none => exact absurd hobject (o.payload.object hcov)
    | some objectId =>
      refine projectObject_absorbs bounds o position hinv ?_
      rintro rfl
      exact hok hobject

theorem project_raises (bounds : ProjectionBounds) (position : Int) (hinv : PartitionInv cameraId p)
    (hcamera : o.cameraId = cameraId) (hno : ¬ Absorbable o) :
    ∃ message, project bounds p o position = .error (.valueError message) := by
  unfold Absorbable at hno
  rw [not_not] at hno
  unfold project
  have hsame : ¬ o.cameraId ≠ p.cameraId := by rw [hinv.camera]; simp [hcamera]
  have hcov : o.observationType ≠ .coverage := by
    intro hcov
    have := (o.payload.coverage hcov).2
    rw [hno] at this
    cases this
  simp only [hsame, hcov, if_false, hno]
  obtain ⟨-, message, hcreate⟩ | ⟨hne, -⟩ := create_spec "" o bounds
  · refine ⟨message, ?_⟩
    unfold projectObject
    simp only [hinv.get?_empty, apply, hcreate]
    rfl
  · exact absurd rfl hne

variable {outcome : ProjectionOutcome} {bounds : ProjectionBounds}

/-- The objects after an observation: those there were, where it is about the camera; else
    with the one it names as the observation leaves it, less what is shed. -/
theorem project_objects {position : Int}
    (h : project bounds p o position = .ok outcome) :
    (o.observationType = .coverage ∧ outcome.partition.objects = p.objects) ∨
      ∃ id updated, o.objectId = some id ∧ apply (p.objects.get? id) id o bounds = .ok updated ∧
        outcome.partition.objects = (shed (p.objects.set id updated) bounds.maxObjects id).1 := by
  unfold project at h
  split at h
  · cases h
  split at h
  · rename_i hkind
    unfold projectCoverage at h
    split at h
    · cases h
    · cases h
      exact .inl ⟨hkind, rfl⟩
  · split at h
    · cases h
    · rename_i id hid
      obtain ⟨updated, hupdated, hrest⟩ := bind_eq_ok.mp h
      cases hrest
      exact .inr ⟨id, updated, hid, hupdated, rfl⟩

structure SameWorld (p q : CameraPartition) : Prop where
  camera : p.cameraId = q.cameraId
  objects : p.objects = q.objects
  regions : p.regions = q.regions
  status : p.status.getD { cameraId := p.cameraId } = q.status.getD { cameraId := q.cameraId }
  observability : p.observability = q.observability
  logPosition : p.logPosition = q.logPosition

theorem project_sameWorld {q : CameraPartition} {position : Int}
    (hsame : SameWorld p q)
    (hp : project bounds p o position = .ok outcome) :
    ∃ outcome', project bounds q o position = .ok outcome' ∧
      SameWorld outcome.partition outcome'.partition := by
  obtain ⟨pc, po, pr, ps, pobs, pl, pv, pd⟩ := p
  obtain ⟨qc, qo, qr, qs, qobs, ql, qv, qd⟩ := q
  obtain ⟨hc, ho, hr, hs, hobs, hl⟩ := hsame
  simp only at hc ho hr hs hobs hl
  subst hc ho hr hobs hl
  unfold project at hp ⊢
  split at hp
  · cases hp
  rename_i hcamera
  rw [if_neg hcamera]
  split at hp
  · rename_i hcov
    rw [if_pos hcov]
    unfold projectCoverage at hp ⊢
    cases hwindow : o.coverage with
    | none => simp [hwindow] at hp
    | some window =>
      simp only [hwindow, Except.ok.injEq] at hp ⊢
      subst hp
      exact ⟨_, rfl, rfl, rfl, rfl, hs, rfl, rfl⟩
  · rename_i hcov
    rw [if_neg hcov]
    cases hobject : o.objectId with
    | none => simp [hobject] at hp
    | some objectId =>
      simp only [hobject] at hp ⊢
      unfold projectObject at hp ⊢
      obtain ⟨updated, hupdated, hrest⟩ := bind_eq_ok.mp hp
      simp only [hupdated]
      cases hrest
      refine ⟨_, rfl, rfl, rfl, rfl, ?_, rfl, rfl⟩
      simp only [advanceStatus, Option.getD_some]
      rw [hs]

open Core Lib Synthesis

/-- The partition after one observation at a position. -/
def absorb (bounds : ProjectionBounds) (p : CameraPartition) (e : Int × Observation) :
    CameraPartition :=
  match project bounds p e.2 e.1 with
  | .ok outcome => outcome.partition
  | .error _ => p

theorem absorb_spec (bounds : ProjectionBounds)
    (e : Int × Observation) (hinv : PartitionInv cameraId p) (hcamera : e.2.cameraId = cameraId)
    (hok : Absorbable e.2) :
    (∃ outcome, project bounds p e.2 e.1 = .ok outcome ∧
      outcome.partition = absorb bounds p e) ∧
    Absorbed cameraId p e.1 (absorb bounds p e) := by
  obtain ⟨outcome, hproject, habsorbed⟩ := project_absorbs bounds e.1 hinv hcamera hok
  have heq : absorb bounds p e = outcome.partition := by
    unfold absorb
    rw [hproject]
  rw [heq]
  exact ⟨⟨outcome, hproject, rfl⟩, habsorbed⟩

/-- Absorbing a list: the position of its last, one version each, and the halt as it was. -/
theorem foldl_absorb_spec (bounds : ProjectionBounds) {cameraId : CameraId}
    {p : CameraPartition} {todo : List (Int × Observation)} (hinv : PartitionInv cameraId p)
    (hcamera : ∀ e ∈ todo, e.2.cameraId = cameraId) (hok : ∀ e ∈ todo, Absorbable e.2) :
    PartitionInv cameraId (todo.foldl (absorb bounds) p) ∧
    (todo.foldl (absorb bounds) p).logPosition =
      ((todo.getLast?.map Prod.fst).getD p.logPosition) ∧
    (todo.foldl (absorb bounds) p).version = p.version + todo.length ∧
    (todo.foldl (absorb bounds) p).degradedReason = p.degradedReason := by
  induction todo generalizing p with
  | nil => exact ⟨hinv, rfl, by simp, rfl⟩
  | cons e rest ih =>
    have habsorbed := (absorb_spec bounds e hinv (hcamera e (by simp)) (hok e (by simp))).2
    obtain ⟨hrest, hposition, hversion, hreason⟩ := ih habsorbed.inv
      (fun e' he' => hcamera e' (mem_cons_of_mem _ he'))
      (fun e' he' => hok e' (mem_cons_of_mem _ he'))
    refine ⟨hrest, ?_, ?_, ?_⟩
    · rw [foldl_cons, hposition, habsorbed.logPosition]
      cases rest with
      | nil => rfl
      | cons e' rest => simp [getLast?_cons]
    · rw [foldl_cons, hversion, habsorbed.version, length_cons]
      push_cast
      omega
    · rw [foldl_cons, hreason, habsorbed.degradedReason]

/-! ## What the loop is left to project -/

def picks (duplicates seen : List ObservationId) : Int → List Observation →
    List (Int × Observation)
  | _, [] => []
  | position, o :: rest =>
    if o.observationId ∈ duplicates ∨ o.observationId ∈ seen then
      picks duplicates seen (position + 1) rest
    else
      (position + 1, o) :: picks duplicates seen (position + 1) rest

variable {o : Observation}

variable {duplicates : List ObservationId} {seen : List ObservationId}

theorem picks_of_skipped
    (h : o.observationId ∈ duplicates ∨ o.observationId ∈ seen) (position : Int)
    (rest : List Observation) :
    picks duplicates seen position (o :: rest) = picks duplicates seen (position + 1) rest :=
  if_pos h

theorem picks_of_kept
    (h : ¬ (o.observationId ∈ duplicates ∨ o.observationId ∈ seen)) (position : Int)
    (rest : List Observation) :
    picks duplicates seen position (o :: rest) =
      (position + 1, o) :: picks duplicates seen (position + 1) rest :=
  if_neg h

theorem map_snd_picks (duplicates seen : List ObservationId) (position : Int)
    (observations : List Observation) :
    (picks duplicates seen position observations).map Prod.snd =
      observations.filter
        (fun o => ¬ (o.observationId ∈ duplicates ∨ o.observationId ∈ seen)) := by
  induction observations generalizing position with
  | nil => rfl
  | cons o rest ih =>
    by_cases h : o.observationId ∈ duplicates ∨ o.observationId ∈ seen
    · rw [filter_cons_of_neg (by simpa [or_iff_not_imp_left] using h), picks_of_skipped h]
      exact ih _
    · rw [filter_cons_of_pos (by simpa using h), picks_of_kept h, map_cons, ih]

theorem mem_of_mem_picks {duplicates seen : List ObservationId} {position : Int}
    {observations : List Observation} {e : Int × Observation}
    (h : e ∈ picks duplicates seen position observations) :
    e.2 ∈ observations ∧ e.2.observationId ∉ duplicates ∧ e.2.observationId ∉ seen := by
  have hmem : e.2 ∈ (picks duplicates seen position observations).map Prod.snd :=
    mem_map.mpr ⟨e, h, rfl⟩
  rw [map_snd_picks, mem_filter] at hmem
  simpa [not_or] using hmem

variable {observations : List Observation}

theorem picks_cons_seen (seen : List ObservationId) {id : ObservationId}
    (h : ∀ o ∈ observations, o.observationId ∉ duplicates → o.observationId ≠ id) (position : Int) :
    picks duplicates (id :: seen) position observations =
      picks duplicates seen position observations := by
  induction observations generalizing position with
  | nil => rfl
  | cons o rest ih =>
    have hrest := ih (fun o' ho' => h o' (mem_cons_of_mem _ ho')) (position + 1)
    have ho := h o (by simp)
    by_cases hdup : o.observationId ∈ duplicates
    · simp [picks, hdup, hrest]
    · simp [picks, hdup, hrest, ho hdup]

def NoRepeats (duplicates : List ObservationId) (observations : List Observation) : Prop :=
  (observations.filter (fun o => o.observationId ∉ duplicates)).Pairwise
    (fun o o' => o.observationId ≠ o'.observationId)

variable {rest : List Observation}

theorem NoRepeats.tail (h : NoRepeats duplicates (o :: rest)) :
    NoRepeats duplicates rest := by
  unfold NoRepeats at *
  by_cases hdup : o.observationId ∈ duplicates
  · simpa [hdup] using h
  · simp only [filter_cons, hdup, not_false_eq_true, decide_true, if_true,
      pairwise_cons] at h
    exact h.2

theorem NoRepeats.head (h : NoRepeats duplicates (o :: rest))
    (hdup : o.observationId ∉ duplicates) :
    ∀ o' ∈ rest, o'.observationId ∉ duplicates → o'.observationId ≠ o.observationId := by
  intro o' ho' hdup'
  unfold NoRepeats at h
  simp only [filter_cons, hdup, not_false_eq_true, decide_true, if_true,
    pairwise_cons] at h
  exact Ne.symm (h.1 o' (by simp [ho', hdup']))

/-! ## The loop -/

section Loop

variable (bounds : ProjectionBounds) {cameraId : CameraId} {duplicates : List ObservationId}

theorem projectLoop_absorbs {position : Int} {observations : List Observation}
    {progress : Cell.Progress} (hinv : PartitionInv cameraId progress.partition)
    (hcamera : ∀ o ∈ observations, o.cameraId = cameraId)
    (honce : NoRepeats duplicates observations)
    (hok : ∀ e ∈ picks duplicates progress.seen position observations, Absorbable e.2) :
    projectLoop bounds duplicates position observations progress =
      ({ partition := (picks duplicates progress.seen position observations).foldl
            (absorb bounds) progress.partition
         seen := ((picks duplicates progress.seen position observations).map
            (·.2.observationId)).reverse ++ progress.seen
         accepted := progress.accepted ++
            (picks duplicates progress.seen position observations).map (·.2.observationId)
         quarantined := progress.quarantined }, none) := by
  induction observations generalizing position progress with
  | nil => simp [projectLoop, picks]
  | cons o rest ih =>
    have hcamera' : ∀ o' ∈ rest, o'.cameraId = cameraId :=
      fun o' ho' => hcamera o' (mem_cons_of_mem _ ho')
    by_cases hskip : o.observationId ∈ duplicates ∨ o.observationId ∈ progress.seen
    · rw [picks_of_skipped hskip] at hok ⊢
      simp only [projectLoop, hskip, if_true]
      exact ih hinv hcamera' honce.tail hok
    obtain ⟨hdup, -⟩ := not_or.mp hskip
    rw [picks_of_kept hskip] at hok ⊢
    obtain ⟨⟨outcome, hproject, hpartition⟩, habsorbed⟩ :=
      absorb_spec bounds (position + 1, o) hinv (hcamera o (by simp))
        (hok _ (by simp))
    -- The id just seen does not come back among those left to project.
    have hseen := picks_cons_seen progress.seen (honce.head hdup) (position + 1)
    simp only [projectLoop, hskip, if_false, hproject]
    rw [ih (by rw [hpartition]; exact habsorbed.inv) hcamera' honce.tail (by
      intro e he
      rw [hseen] at he
      exact hok e (mem_cons_of_mem _ he))]
    simp [hseen, hpartition]

theorem projectLoop_raises {position : Int} {observations : List Observation}
    {progress : Cell.Progress} (hinv : PartitionInv cameraId progress.partition)
    (hcamera : ∀ o ∈ observations, o.cameraId = cameraId)
    (honce : NoRepeats duplicates observations)
    (hno : ¬ ∀ e ∈ picks duplicates progress.seen position observations, Absorbable e.2) :
    ∃ progress' message,
      projectLoop bounds duplicates position observations progress =
        (progress', some (.valueError message)) ∧
      ∀ id ∈ progress'.seen,
        id ∈ progress.seen ∨ id ∈ observations.map (·.observationId) := by
  -- over the batch; the first observation that cannot be absorbed ends the loop
  induction observations generalizing position progress with
  | nil => exact absurd (by simp [picks]) hno
  | cons o rest ih =>
    have hcamera' : ∀ o' ∈ rest, o'.cameraId = cameraId :=
      fun o' ho' => hcamera o' (mem_cons_of_mem _ ho')
    by_cases hskip : o.observationId ∈ duplicates ∨ o.observationId ∈ progress.seen
    · rw [picks_of_skipped hskip] at hno
      obtain ⟨progress', message, hloop, hseen⟩ := ih hinv hcamera' honce.tail hno
      refine ⟨progress', message, ?_, fun id hid => ?_⟩
      · simp only [projectLoop, hskip, if_true]
        exact hloop
      · rcases hseen id hid with h | h
        · exact .inl h
        · exact .inr (mem_cons_of_mem _ h)
    · obtain ⟨hdup, -⟩ := not_or.mp hskip
      rw [picks_of_kept hskip] at hno
      simp only [projectLoop, hskip, if_false]
      by_cases hok : Absorbable o
      · obtain ⟨⟨outcome, hproject, hpartition⟩, habsorbed⟩ :=
          absorb_spec bounds (position + 1, o) hinv (hcamera o (by simp)) hok
        have hseen := picks_cons_seen progress.seen (honce.head hdup) (position + 1)
        have hinv' : PartitionInv cameraId outcome.partition := by
          rw [hpartition]
          exact habsorbed.inv
        simp only [hproject]
        obtain ⟨progress', message, hloop, hsub⟩ :=
          @ih (position + 1)
            { progress with
              partition := outcome.partition
              seen := o.observationId :: progress.seen
              accepted := progress.accepted ++ [o.observationId] }
            hinv' hcamera' honce.tail (by
              rw [hseen]
              intro hall
              exact hno (by
                intro e he
                rcases mem_cons.mp he with rfl | he
                · exact hok
                · exact hall e he))
        refine ⟨progress', message, hloop, fun id hid => ?_⟩
        rcases hsub id hid with h | h
        · rcases mem_cons.mp h with rfl | h
          · exact .inr (by simp)
          · exact .inl h
        · exact .inr (mem_cons_of_mem _ h)
      · obtain ⟨message, hraise⟩ :=
          project_raises bounds (position + 1) hinv (hcamera o (by simp)) hok
        rw [hraise]
        exact ⟨progress, message, rfl, fun id hid => .inl hid⟩

end Loop

/-! ## One append to a camera -/

/-- All that is held for the camera is of the camera. -/
structure CellInv (cameraId : CameraId) (cell : Cell) : Prop where
  records : ∀ o ∈ cell.log.records, o.cameraId = cameraId
  pending : ∀ o ∈ cell.buffer.pending, o.cameraId = cameraId
  partition : ∀ p, cell.partition = some p → PartitionInv cameraId p

theorem freshPartition_inv (cameraId : CameraId) :
    PartitionInv cameraId (freshPartition cameraId) :=
  ⟨rfl, fun k s h => by cases h⟩

variable {cell : Cell}

theorem CellInv.pendingWith (h : CellInv cameraId cell)
    (hcamera : ∀ o ∈ observations, o.cameraId = cameraId) :
    ∀ o ∈ cell.buffer.pending ++ observations, o.cameraId = cameraId := by
  intro o ho
  rcases mem_append.mp ho with ho | ho
  · exact h.pending o ho
  · exact hcamera o ho

theorem CellInv.partitionOf (h : CellInv cameraId cell) :
    PartitionInv cameraId (cell.partitionOf cameraId) := by
  unfold Cell.partitionOf
  cases hp : cell.partition with
  | none => exact freshPartition_inv cameraId
  | some p => exact h.partition p hp

@[simp] theorem partitionOf_ensure (cell : Cell) (cameraId : CameraId) :
    (cell.ensure cameraId).partitionOf cameraId = cell.partitionOf cameraId := rfl

def Cell.appended (cell : Cell) (pending : List Observation) : LogAppendResult :=
  (cell.log.append pending).2

/-- What the projection loop is left to project of a pending batch, with the positions
    it gives. -/
def Cell.todo (cell : Cell) (pending : List Observation) : List (Int × Observation) :=
  picks (cell.appended pending).duplicates cell.seen
    ((cell.appended pending).position - pending.length) pending

theorem noRepeats_appended (log : LogPartition) (pending : List Observation) :
    NoRepeats (log.append pending).2.duplicates pending := by
  unfold NoRepeats
  rw [LogPartition.append_duplicates, ← pairwise_map]
  change List.Nodup _
  rw [nodup_iff_count_le_one]
  intro id
  by_contra hmany
  have hsub : ((pending.filter (fun o => o.observationId ∉
      skipped (fun o : Observation => o.observationId) log.ids pending)).map
      (fun o => o.observationId)).Sublist (pending.map (fun o => o.observationId)) :=
    filter_sublist.map _
  have hcount : 2 ≤ (pending.map (fun o => o.observationId)).count id :=
    le_trans (by omega) (hsub.count_le id)
  have hmem : id ∈ pending.map (fun o => o.observationId) :=
    count_pos_iff.mp (by omega)
  have hskipped : id ∈ skipped (fun o : Observation => o.observationId) log.ids pending :=
    mem_skipped.mpr ⟨hmem, .inr hcount⟩
  have hfilter : id ∈ (pending.filter (fun o => o.observationId ∉
      skipped (fun o : Observation => o.observationId) log.ids pending)).map
      (fun o => o.observationId) := count_pos_iff.mp (by omega)
  obtain ⟨o, ho, rfl⟩ := mem_map.mp hfilter
  rw [mem_filter, decide_eq_true_eq] at ho
  exact ho.2 hskipped

theorem mem_map_snd_todo {pending : List Observation} : o ∈ (cell.todo pending).map Prod.snd ↔
      o ∈ pending ∧ o.observationId ∉ cell.log.ids ∧
      (pending.map (·.observationId)).count o.observationId < 2 ∧
      o.observationId ∉ cell.seen := by
  unfold todo appended
  rw [map_snd_picks, mem_filter, LogPartition.append_duplicates]
  simp only [decide_eq_true_eq, not_or, mem_skipped, not_and, not_le]
  constructor
  · rintro ⟨ho, hdup, hseen⟩
    have hsplit := hdup (mem_map.mpr ⟨o, ho, rfl⟩)
    exact ⟨ho, hsplit.1, hsplit.2, hseen⟩
  · rintro ⟨ho, hids, hcount, hseen⟩
    exact ⟨ho, fun _ => ⟨hids, hcount⟩, hseen⟩

inductive AppendOutcome (config : StateSection) (at_ : Circumstance) (cameraId : CameraId)
    (observations : List Observation) (cell : Cell) : Raises CommitResult × Cell → Prop
  | refused (message : Message)
      (hdegraded : (cell.partitionOf cameraId).isDegraded = true) :
      AppendOutcome config at_ cameraId observations cell
        (.error (.partitionDegradedError message), cell.ensure cameraId)
  | buffered (message : Message) (since : Instant)
      (hopen : (cell.partitionOf cameraId).isDegraded = false)
      (hfault : at_.fault.isSome = true)
      (hroom : (cell.buffer.pending ++ observations).length ≤ config.logBufferCapacity) :
      AppendOutcome config at_ cameraId observations cell
        (.error (.logUnavailableError message),
          { cell.ensure cameraId with
            buffer := ⟨cell.buffer.pending ++ observations, some since⟩ })
  | halted
      (hopen : (cell.partitionOf cameraId).isDegraded = false)
      (hfault : at_.fault.isSome = true)
      (hfull : config.logBufferCapacity < (cell.buffer.pending ++ observations).length) :
      AppendOutcome config at_ cameraId observations cell
        (.error (.commitFailedError (haltReason config)),
          { cell with
            partition := some { cell.partitionOf cameraId with
              degradedReason := haltReason config } })
  | raised (message : Message) (seen : List ObservationId)
      (hopen : (cell.partitionOf cameraId).isDegraded = false)
      (hfault : at_.fault = none)
      (hno : ¬ ∀ e ∈ cell.todo (cell.buffer.pending ++ observations), Absorbable e.2)
      (hseen : ∀ id ∈ seen, id ∈ cell.seen ∨
        id ∈ (cell.buffer.pending ++ observations).map (·.observationId)) :
      AppendOutcome config at_ cameraId observations cell
        (.error (.valueError message),
          { log := (cell.log.append (cell.buffer.pending ++ observations)).1
            partition := some (cell.partitionOf cameraId)
            buffer := {}
            seen })
  | committed
      (hopen : (cell.partitionOf cameraId).isDegraded = false)
      (hfault : at_.fault = none)
      (hok : ∀ e ∈ cell.todo (cell.buffer.pending ++ observations), Absorbable e.2) :
      AppendOutcome config at_ cameraId observations cell
        (.ok {
            accepted :=
              (cell.todo (cell.buffer.pending ++ observations)).map (·.2.observationId)
            logPosition := ((cell.todo (cell.buffer.pending ++ observations)).foldl
              (absorb config.bounds) (cell.partitionOf cameraId)).logPosition
            version := ((cell.todo (cell.buffer.pending ++ observations)).foldl
              (absorb config.bounds) (cell.partitionOf cameraId)).version },
          { log := (cell.log.append (cell.buffer.pending ++ observations)).1
            partition := some ((cell.todo (cell.buffer.pending ++ observations)).foldl
              (absorb config.bounds) (cell.partitionOf cameraId))
            buffer := {}
            seen := trimSeen config
              (((cell.todo (cell.buffer.pending ++ observations)).map
                (·.2.observationId)).reverse ++ cell.seen) })

/-- An append to one camera ends in one of five ways. -/
theorem appendPartition_outcome (config : StateSection) (at_ : Circumstance)
    (hinv : CellInv cameraId cell) (hcamera : ∀ o ∈ observations, o.cameraId = cameraId) :
    AppendOutcome config at_ cameraId observations cell
      (cell.appendPartition config at_ cameraId observations) := by
  unfold appendPartition
  simp only [partitionOf_ensure]
  by_cases hdegraded : (cell.partitionOf cameraId).isDegraded = true
  · simp only [hdegraded, if_true]
    exact .refused _ hdegraded
  simp only [hdegraded, if_false, Bool.false_eq_true]
  rw [Bool.not_eq_true] at hdegraded
  cases hfault : at_.fault with
  | some cause =>
    have hfault' : at_.fault.isSome = true := by rw [hfault]; rfl
    unfold bufferOrHalt
    by_cases hroom :
        (cell.buffer.pending ++ observations).length ≤ config.logBufferCapacity
    · simp only [ensure, hroom, if_true]
      exact .buffered _ _ hdegraded hfault' hroom
    · simp only [ensure, hroom, if_false]
      exact .halted hdegraded hfault' (not_le.mp hroom)
  | none =>
    have hpending := hinv.pendingWith hcamera
    have honce := noRepeats_appended cell.log (cell.buffer.pending ++ observations)
    unfold projectBatch
    by_cases hok : ∀ e ∈ cell.todo (cell.buffer.pending ++ observations), Absorbable e.2
    · have hloop := @projectLoop_absorbs config.bounds cameraId _
        ((cell.log.append (cell.buffer.pending ++ observations)).2.position -
          (cell.buffer.pending ++ observations).length) _
        { partition := cell.partitionOf cameraId, seen := cell.seen }
        hinv.partitionOf hpending honce hok
      simp only [ensure, partitionOf, Option.getD_some] at hloop ⊢
      rw [hloop]
      exact .committed hdegraded hfault hok
    · obtain ⟨progress, message, hloop, hseen⟩ := @projectLoop_raises config.bounds cameraId _
        ((cell.log.append (cell.buffer.pending ++ observations)).2.position -
          (cell.buffer.pending ++ observations).length) _
        { partition := cell.partitionOf cameraId, seen := cell.seen }
        hinv.partitionOf hpending honce hok
      simp only [ensure, partitionOf, Option.getD_some] at hloop ⊢
      rw [hloop]
      exact .raised message progress.seen hdegraded hfault hok hseen

def Cell.committed (config : StateSection) (cameraId : CameraId) (pending : List Observation)
    (cell : Cell) : Cell where
  log := (cell.log.append pending).1
  partition := some ((cell.todo pending).foldl (absorb config.bounds) (cell.partitionOf cameraId))
  buffer := {}
  seen := trimSeen config
    (((cell.todo pending).map (·.2.observationId)).reverse ++ cell.seen)

theorem appendPartition_quiet (config : StateSection) (hinv : CellInv cameraId cell)
    (hpending : cell.buffer.pending = []) (hopen : (cell.partitionOf cameraId).isDegraded = false)
    (hcamera : ∀ o ∈ observations, o.cameraId = cameraId) :
    ((¬ ∀ e ∈ cell.todo observations, Absorbable e.2) ∧
      ∃ message seen,
        (∀ id ∈ seen, id ∈ cell.seen ∨ id ∈ observations.map (·.observationId)) ∧
        cell.appendPartition config {} cameraId observations =
          (.error (.valueError message),
            { log := (cell.log.append observations).1
              partition := some (cell.partitionOf cameraId)
              buffer := {}
              seen })) ∨
    ((∀ e ∈ cell.todo observations, Absorbable e.2) ∧
      ∃ result : CommitResult,
        result.accepted = (cell.todo observations).map (·.2.observationId) ∧
        cell.appendPartition config {} cameraId observations =
          (.ok result, cell.committed config cameraId observations)) := by
  have hout := appendPartition_outcome config {} hinv hcamera
  have hnil : cell.buffer.pending ++ observations = observations := by
    rw [hpending, nil_append]
  generalize cell.appendPartition config {} cameraId observations = out at hout ⊢
  cases hout with
  | refused message hdegraded => exact absurd hdegraded (by rw [hopen]; decide)
  | buffered message since hopen hfault hroom => cases hfault
  | halted hopen hfault hfull => cases hfault
  | raised message seen hopen hfault hno hseen =>
    rw [hnil] at hno hseen ⊢
    exact .inl ⟨hno, message, seen, hseen, rfl⟩
  | committed hopen hfault hok =>
    rw [hnil] at hok ⊢
    exact .inr ⟨hok, _, rfl, rfl⟩

end VisionOs.State
