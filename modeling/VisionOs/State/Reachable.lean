/-
  The operations of a manager as a step relation, and what holds of every reachable manager.  An
  append projects, once each, exactly what it adds to the log, provided that what is new to the
  log occurs once in the batch, was not seen before and can be absorbed.
-/
import VisionOs.State.Outcomes

namespace VisionOs.State

open Core Lib Synthesis List Manager Cell LogPartition Dedup

/-! ## Rebuilding -/

variable {cameraId : CameraId}

theorem replayLoop_absorbs (bounds : ProjectionBounds)
    {records : List Observation} {shadow : CameraPartition} {handle : Cell.RebuildHandle}
    (hinv : PartitionInv cameraId shadow) (hcamera : ∀ o ∈ records, o.cameraId = cameraId)
    (hok : ∀ o ∈ records, Absorbable o) :
    replayLoop bounds records shadow handle =
      .ok ((picks [] [] handle.toPosition records).foldl (absorb bounds) shadow,
        { handle with
          replayed := handle.replayed + records.length
          toPosition := handle.toPosition + records.length }) := by
  induction records generalizing shadow handle with
  | nil => simp [replayLoop, picks]
  | cons o rest ih =>
    obtain ⟨⟨outcome, hproject, hpartition⟩, habsorbed⟩ :=
      absorb_spec bounds (handle.toPosition + 1, o) hinv (hcamera o (by simp)) (hok o (by simp))
    have hinv' : PartitionInv cameraId outcome.partition := by
      rw [hpartition]
      exact habsorbed.inv
    simp only [replayLoop, hproject]
    rw [ih hinv' (fun o' ho' => hcamera o' (mem_cons_of_mem _ ho'))
      (fun o' ho' => hok o' (mem_cons_of_mem _ ho'))]
    simp only [picks, not_mem_nil, or_self, if_false, foldl_cons, hpartition,
      length_cons, Except.ok.injEq, Prod.mk.injEq, true_and]
    congr 1
    · omega
    · push_cast
      omega

theorem replayLoop_raises (bounds : ProjectionBounds) {cameraId : CameraId}
    {records : List Observation} {shadow : CameraPartition} {handle : Cell.RebuildHandle}
    (hinv : PartitionInv cameraId shadow) (hcamera : ∀ o ∈ records, o.cameraId = cameraId)
    (hno : ¬ ∀ o ∈ records, Absorbable o) :
    ∃ message, replayLoop bounds records shadow handle = .error (.valueError message) := by
  induction records generalizing shadow handle with
  | nil => exact absurd (by simp) hno
  | cons o rest ih =>
    have hcamera' : ∀ o' ∈ rest, o'.cameraId = cameraId :=
      fun o' ho' => hcamera o' (mem_cons_of_mem _ ho')
    by_cases hok : Absorbable o
    · obtain ⟨⟨outcome, hproject, hpartition⟩, habsorbed⟩ :=
        absorb_spec bounds (handle.toPosition + 1, o) hinv (hcamera o (by simp)) hok
      have hinv' : PartitionInv cameraId outcome.partition := by
        rw [hpartition]
        exact habsorbed.inv
      simp only [replayLoop, hproject]
      refine ih hinv' hcamera' (fun hall => hno ?_)
      intro o' ho'
      rcases mem_cons.mp ho' with rfl | ho'
      · exact hok
      · exact hall o' ho'
    · obtain ⟨message, hraise⟩ :=
        project_raises bounds (handle.toPosition + 1) hinv (hcamera o (by simp)) hok
      refine ⟨message, ?_⟩
      simp only [replayLoop, hraise]

theorem emptyPartition_inv (cameraId : CameraId) : PartitionInv cameraId { cameraId := cameraId } :=
  ⟨rfl, fun k s h => by cases h⟩

variable {log : LogPartition} {o : Observation}

theorem mem_read {start : Int} {finish : Option Int} {limit : Nat}
    (h : o ∈ log.read start finish limit) : o ∈ log.records :=
  mem_of_mem_take (mem_of_mem_drop (mem_of_mem_take h))

def Cell.replayed (cell : Cell) (fromPosition : Int) : List Observation :=
  cell.log.read fromPosition none defaultLimit

def Cell.shadow (config : StateSection) (cameraId : CameraId) (fromPosition : Int)
    (cell : Cell) : CameraPartition :=
  (picks [] [] fromPosition (cell.replayed fromPosition)).foldl (absorb config.bounds)
    { cameraId := cameraId }

variable {cell : Cell}

/-- A rebuild replays what it reads, or raises and leaves the cell as it was. -/
theorem rebuild_outcome (config : StateSection) (fromPosition : Int)
    (hinv : CellInv cameraId cell) :
    ((∀ o ∈ cell.replayed fromPosition, Absorbable o) ∧
      PartitionInv cameraId (cell.shadow config cameraId fromPosition) ∧
      ∃ handle, cell.rebuild config cameraId fromPosition =
        (.ok handle, { cell with
          partition := some
            (swapIn (cell.shadow config cameraId fromPosition) cell.partition)
          seen := [] })) ∨
    ((¬ ∀ o ∈ cell.replayed fromPosition, Absorbable o) ∧
      ∃ message, cell.rebuild config cameraId fromPosition =
        (.error (.valueError message), cell)) := by
  have hcamera : ∀ o ∈ cell.replayed fromPosition, o.cameraId = cameraId :=
    fun o ho => hinv.records o (mem_read ho)
  unfold Cell.rebuild
  by_cases hok : ∀ o ∈ cell.replayed fromPosition, Absorbable o
  · refine .inl ⟨hok, ?_, ?_⟩
    · refine (foldl_absorb_spec config.bounds (emptyPartition_inv cameraId) ?_ ?_).1
      · exact fun e he => hcamera e.2 (mem_of_mem_picks he).1
      · exact fun e he => hok e.2 (mem_of_mem_picks he).1
    · unfold replayed at hcamera hok
      rw [replayLoop_absorbs config.bounds (emptyPartition_inv cameraId) hcamera hok]
      exact ⟨_, rfl⟩
  · refine .inr ⟨hok, ?_⟩
    unfold replayed at hcamera hok
    obtain ⟨message, hraise⟩ := @replayLoop_raises config.bounds cameraId _ _
      { replayed := 0, fromPosition, toPosition := fromPosition }
      (emptyPartition_inv cameraId) hcamera hok
    rw [hraise]
    exact ⟨message, rfl⟩

/-! ## Every operation on a cell keeps its invariant -/

theorem CellInv.empty (cameraId : CameraId) : CellInv cameraId {} where
  records := fun o ho => by cases ho
  pending := fun o ho => by cases ho
  partition := fun p hp => by cases hp

theorem PartitionInv.withReason {p : CameraPartition}
    (h : PartitionInv cameraId p) (reason : String) :
    PartitionInv cameraId { p with degradedReason := reason } := ⟨h.camera, h.keyed⟩

variable {observations : List Observation}

theorem mem_append_records (h : o ∈ (log.append observations).1.records) :
    o ∈ log.records ∨ o ∈ observations := by
  rw [append_records, mem_append] at h
  exact h.imp id (fun h => (fresh_sublist _ _).subset h)

theorem CellInv.append (config : StateSection) (at_ : Circumstance) (hinv : CellInv cameraId cell)
    (hcamera : ∀ o ∈ observations, o.cameraId = cameraId) :
    CellInv cameraId (cell.appendPartition config at_ cameraId observations).2 := by
  have hpending := hinv.pendingWith hcamera
  have hrecords : ∀ o ∈ (cell.log.append (cell.buffer.pending ++ observations)).1.records,
      o.cameraId = cameraId := by
    intro o ho
    rcases mem_append_records ho with ho | ho
    · exact hinv.records o ho
    · exact hpending o ho
  have hout := appendPartition_outcome config at_ hinv hcamera
  generalize cell.appendPartition config at_ cameraId observations = out at hout
  cases hout with
  | refused message hdegraded =>
    exact ⟨hinv.records, hinv.pending, fun p hp => Option.some.inj hp ▸ hinv.partitionOf⟩
  | buffered message since hopen hfault hroom =>
    exact ⟨hinv.records, hpending, fun p hp => Option.some.inj hp ▸ hinv.partitionOf⟩
  | halted hopen hfault hfull =>
    exact ⟨hinv.records, hinv.pending,
      fun p hp => Option.some.inj hp ▸ hinv.partitionOf.withReason _⟩
  | raised message seen hopen hfault hno hseen =>
    exact ⟨hrecords, fun o ho => (by cases ho),
      fun p hp => Option.some.inj hp ▸ hinv.partitionOf⟩
  | committed hopen hfault hok =>
    refine ⟨hrecords, fun o ho => (by cases ho), fun p hp => Option.some.inj hp ▸ ?_⟩
    refine (foldl_absorb_spec config.bounds hinv.partitionOf ?_ hok).1
    exact fun e he => hpending e.2 (mem_of_mem_picks he).1

theorem CellInv.resume (hinv : CellInv cameraId cell) :
    CellInv cameraId (cell.resume cameraId) where
  records := hinv.records
  pending := hinv.pending
  partition := fun _ hp => Option.some.inj hp ▸ hinv.partitionOf.withReason _

theorem CellInv.rebuild (config : StateSection) (fromPosition : Int)
    (hinv : CellInv cameraId cell) :
    CellInv cameraId (cell.rebuild config cameraId fromPosition).2 := by
  rcases rebuild_outcome config fromPosition hinv with
    ⟨-, hshadow, handle, heq⟩ | ⟨-, message, heq⟩
  · rw [heq]
    exact ⟨hinv.records, hinv.pending,
      fun p hp => Option.some.inj hp ▸ ⟨hshadow.camera, hshadow.keyed⟩⟩
  · rw [heq]
    exact hinv

theorem CellInv.truncate (hinv : CellInv cameraId cell) (before : Instant) :
    CellInv cameraId { cell with log := (cell.log.truncate before).1 } where
  records := fun o ho => hinv.records o ((dropWhile_sublist _).subset ho)
  pending := hinv.pending
  partition := hinv.partition

theorem get?_byCamera (observations : List Observation) (cameraId : CameraId) :
    (byCamera observations).get? cameraId =
      if cameraId ∈ observations.map (·.cameraId) then
        some (observations.filter (fun o => o.cameraId = cameraId))
      else none := by
  induction observations using List.reverseRecOn with
  | nil => rfl
  | append_singleton observations o ih =>
    have hstep : byCamera (observations ++ [o]) =
        (byCamera observations).set o.cameraId
          (((byCamera observations).get? o.cameraId).getD [] ++ [o]) := by
      unfold byCamera
      rw [foldl_append]
      rfl
    rw [hstep, OrderedDict.get?_set]
    by_cases ho : o.cameraId = cameraId
    · subst ho
      rw [ih]
      by_cases hmem : o.cameraId ∈ observations.map (·.cameraId)
      · simp [hmem]
      · have hnone : observations.filter (fun o' => o'.cameraId = o.cameraId) = [] := by
          rw [filter_eq_nil_iff]
          intro o' ho' heq
          exact hmem (mem_map.mpr ⟨o', ho', by simpa using heq⟩)
        simp [hmem, hnone]
    · simp [ih, ho, Ne.symm ho]

theorem mem_byCamera {e : CameraId × List Observation}
    (h : e ∈ (byCamera observations).entries) :
    e.2 = observations.filter (fun o => o.cameraId = e.1) := by
  obtain ⟨cameraId, batch⟩ := e
  have hget := OrderedDict.get?_eq_some_iff.mpr h
  rw [get?_byCamera] at hget
  split at hget
  · exact (Option.some.inj hget).symm
  · cases hget

/-! ## The manager -/

/-- Every cell is sound. -/
def ManagerInv (m : Manager) : Prop := ∀ cameraId, CellInv cameraId (m.cells cameraId)

@[simp] theorem Manager.put_cells_self (m : Manager) (cameraId : CameraId) (cell : Cell) :
    (m.put cameraId cell).cells cameraId = cell := by
  simp [put]

theorem Manager.put_cells_of_ne (m : Manager) {c : CameraId} (cell : Cell)
    (h : c ≠ cameraId) : (m.put cameraId cell).cells c = m.cells c := by
  simp [put, h]

@[simp] theorem Manager.appendPartition_cells (config : StateSection)
    (at_ : Manager.Circumstances) (cameraId : CameraId) (observations : List Observation)
    (m : Manager) :
    (m.appendPartition config at_ cameraId observations).2.cells cameraId =
      ((m.cells cameraId).appendPartition config (at_ cameraId) cameraId observations).2 :=
  put_cells_self _ _ _

variable {m : Manager}

theorem ManagerInv.put (hinv : ManagerInv m)
    (hcell : CellInv cameraId cell) : ManagerInv (m.put cameraId cell) := by
  intro c
  by_cases hc : c = cameraId
  · subst hc
    rw [put_cells_self]
    exact hcell
  · rw [put_cells_of_ne m cell hc]
    exact hinv c

theorem ManagerInv.appendPartition (config : StateSection) (at_ : Manager.Circumstances)
    (hinv : ManagerInv m)
    (hcamera : ∀ o ∈ observations, o.cameraId = cameraId) :
    ManagerInv (m.appendPartition config at_ cameraId observations).2 :=
  hinv.put ((hinv cameraId).append config (at_ cameraId) hcamera)

theorem ManagerInv.appendManyLoop (config : StateSection) (at_ : Manager.Circumstances)
    {groups : List (CameraId × List Observation)}
    (hgroups : ∀ e ∈ groups, ∀ o ∈ e.2, o.cameraId = e.1) {total : CommitResult}
    (hinv : ManagerInv m) : ManagerInv (appendManyLoop config at_ groups total m).2 := by
  induction groups generalizing total m with
  | nil => exact hinv
  | cons e rest ih =>
    obtain ⟨cameraId, batch⟩ := e
    have hnext := hinv.appendPartition config at_ (hgroups (cameraId, batch) (by simp))
    have hrest := fun e' he' => hgroups e' (mem_cons_of_mem _ he')
    unfold appendManyLoop
    split
    · rename_i result m' heq
      rw [heq] at hnext
      exact ih hrest hnext
    · rename_i message m' heq
      rw [heq] at hnext
      exact ih hrest hnext
    · rename_i message m' heq
      rw [heq] at hnext
      exact ih hrest hnext
    · rename_i exc m' _ _ heq
      rw [heq] at hnext
      exact hnext

theorem ManagerInv.append (config : StateSection) (at_ : Manager.Circumstances)
    (observations : List Observation) (hinv : ManagerInv m) :
    ManagerInv (m.append config at_ observations).2 := by
  unfold Manager.append
  cases observations with
  | nil => exact hinv
  | cons o rest =>
    dsimp only
    split
    · rename_i hall
      refine hinv.appendPartition config at_ (fun o' ho' => ?_)
      rcases mem_cons.mp ho' with rfl | ho'
      · rfl
      · simpa using all_eq_true.mp hall o' ho'
    · refine hinv.appendManyLoop config at_ (fun e he o' ho' => ?_)
      rw [mem_byCamera he, mem_filter] at ho'
      simpa using ho'.2

inductive Operation where
  | append (at_ : Manager.Circumstances) (observations : List Observation)
  | resume (cameraId : CameraId)
  | rebuild (cameraId : CameraId) (fromPosition : Int)
  | retentionSweep (at_ : Manager.Circumstances) (now : Instant) (before : Option Instant)
  | forget (cameraId : CameraId)
  | snapshot (scope : Option (List CameraId))
  | coverage (scope : Option (List CameraId))

/-- The manager after an operation; the read paths leave it as it is. -/
def Manager.step (config : StateSection) (m : Manager) : Operation → Manager
  | .append at_ observations => (m.append config at_ observations).2
  | .resume cameraId => m.resume cameraId
  | .rebuild cameraId fromPosition => (m.rebuild config cameraId fromPosition).2
  | .retentionSweep at_ now before => (m.retentionSweep config at_ now before).2
  | .forget cameraId => m.forget cameraId
  | .snapshot _ => m
  | .coverage _ => m

/-- Some run of operations leads to the manager. -/
def Reachable (config : StateSection) (m : Manager) : Prop :=
  ∃ operations, m = Runs.run (step config) new operations

variable {s : Manager.SweepReport × Manager}

theorem ManagerInv.sweepCamera (at_ : Manager.Circumstances) (before : Instant)
    (cameraId : CameraId) (hinv : ManagerInv s.2) :
    ManagerInv (sweepCamera at_ before s cameraId).2 := by
  obtain ⟨report, m⟩ := s
  unfold sweepCamera
  dsimp only
  split
  · exact hinv
  · exact hinv.put ((hinv cameraId).truncate before)

theorem ManagerInv.sweep (at_ : Manager.Circumstances) (before : Instant)
    (cameras : List CameraId) (hinv : ManagerInv s.2) :
    ManagerInv (cameras.foldl (Manager.sweepCamera at_ before) s).2 := by
  induction cameras generalizing s with
  | nil => exact hinv
  | cons cameraId rest ih => exact ih (hinv.sweepCamera at_ before cameraId)

theorem ManagerInv.step (config : StateSection) (m : Manager) (operation : Operation)
    (hinv : ManagerInv m) : ManagerInv (m.step config operation) := by
  cases operation with
  | append at_ observations => exact hinv.append config at_ observations
  | resume cameraId => exact hinv.put (hinv cameraId).resume
  | rebuild cameraId fromPosition =>
    exact hinv.put ((hinv cameraId).rebuild config fromPosition)
  | retentionSweep at_ now before => exact hinv.sweep at_ _ _
  | forget cameraId =>
    intro c
    change CellInv c (if c = cameraId then { log := (m.cells cameraId).log } else m.cells c)
    split
    · rename_i hc
      subst hc
      exact ⟨(hinv c).records, fun o ho => (by cases ho), fun p hp => (by cases hp)⟩
    · exact hinv c
  | snapshot scope => exact hinv
  | coverage scope => exact hinv

theorem managerInv_new : ManagerInv new := fun cameraId => CellInv.empty cameraId

theorem Reachable.inv {config : StateSection} (h : Reachable config m) : ManagerInv m := by
  obtain ⟨operations, rfl⟩ := h
  exact Runs.run_invariant (ManagerInv.step config) managerInv_new operations

/-- Whatever the logs do: a camera's log, its buffer and its partition have observations of
    this camera only, and each object is filed under its own id. -/
theorem cameras_apart (config : StateSection) (operations : List Operation) :
    ManagerInv (Runs.run (Manager.step config) new operations) :=
  Reachable.inv ⟨operations, rfl⟩

variable {cameraId : CameraId} {observations : List Observation}

theorem Manager.append_eq_appendPartition (config : StateSection)
    (at_ : Manager.Circumstances) (hne : observations ≠ [])
    (hcamera : ∀ o ∈ observations, o.cameraId = cameraId) :
    m.append config at_ observations = m.appendPartition config at_ cameraId observations := by
  cases observations with
  | nil => exact absurd rfl hne
  | cons o rest =>
    have ho : o.cameraId = cameraId := hcamera o (by simp)
    have hall : rest.all (fun o' => o'.cameraId = o.cameraId) = true := by
      rw [all_eq_true]
      intro o' ho'
      simp [ho, hcamera o' (mem_cons_of_mem _ ho')]
    unfold append
    dsimp only
    rw [if_pos hall, ho]

def Cell.pendingWith (cell : Cell) (observations : List Observation) : List Observation :=
  cell.buffer.pending ++ observations

/-- What a call newly adds to a camera's log it projects, once each, and it projects
    nothing that was in the log before. -/
def ProjectsWhatItAdds (before after : LogPartition) : Raises CommitResult → Prop
  | .ok result =>
    (∃ added, after.records = before.records ++ added ∧
      (result.accepted ++ result.quarantined.map Prod.fst).Perm
        (added.map (·.observationId))) ∧
    ∀ id ∈ result.accepted ++ result.quarantined.map Prod.fst, id ∉ before.ids
  | .error _ => after.records = before.records

/-- What is new to the log occurs once, was not seen and can be absorbed. -/
def NewOnesProject (cell : Cell) (pending : List Observation) : Prop :=
  ∀ o ∈ pending, o.observationId ∉ cell.log.ids →
    (pending.map (·.observationId)).count o.observationId < 2 ∧
    o.observationId ∉ cell.seen ∧ Absorbable o

/-- When a call meets the property: it records nothing at all (an empty batch, a halted
    partition, a log that raises), or what is new projects. -/
def RecordsSafely (at_ : Circumstance) (cameraId : CameraId) (cell : Cell)
    (observations : List Observation) : Prop :=
  observations = [] ∨ (cell.partitionOf cameraId).isDegraded = true ∨
    at_.fault.isSome = true ∨ NewOnesProject cell (cell.pendingWith observations)

/-! ## The observations projected against the observations added -/

theorem nodup_todo_ids (cell : Cell) (pending : List Observation) :
    ((cell.todo pending).map (·.2.observationId)).Nodup := by
  have honce := noRepeats_appended cell.log pending
  unfold NoRepeats at honce
  rw [← pairwise_map] at honce
  have hsub : ((cell.todo pending).map (·.2)).Sublist
      (pending.filter (fun o => o.observationId ∉ (cell.log.append pending).2.duplicates)) := by
    unfold todo
    rw [map_snd_picks]
    refine monotone_filter_right pending ?_
    intro o ho
    simp only [appended, decide_eq_true_eq, not_or] at ho ⊢
    exact ho.1
  have hmap := (hsub.map (fun o : Observation => o.observationId)).nodup honce
  rw [map_map] at hmap
  exact hmap

def Cell.added (cell : Cell) (pending : List Observation) : List Observation :=
  fresh (·.observationId) cell.log.ids pending

variable {cell : Cell} {pending : List Observation}

theorem todo_perm_added_iff :
    ((cell.todo pending).map (·.2.observationId)).Perm
        ((cell.added pending).map (·.observationId)) ↔
      ∀ o ∈ pending, o.observationId ∉ cell.log.ids →
        (pending.map (·.observationId)).count o.observationId < 2 ∧
        o.observationId ∉ cell.seen := by
  have hadded : ((cell.added pending).map (·.observationId)).Nodup :=
    nodup_map_fresh _ _
  rw [perm_ext_iff_of_nodup (nodup_todo_ids cell pending) hadded]
  have htodo : ∀ id, id ∈ (cell.todo pending).map (·.2.observationId) ↔
      ∃ o ∈ (cell.todo pending).map Prod.snd, o.observationId = id := by
    intro id
    rw [mem_map]
    constructor
    · rintro ⟨e, he, rfl⟩
      exact ⟨e.2, mem_map.mpr ⟨e, he, rfl⟩, rfl⟩
    · rintro ⟨o, ho, rfl⟩
      obtain ⟨e, he, rfl⟩ := mem_map.mp ho
      exact ⟨e, he, rfl⟩
  constructor
  · intro hmem o ho hnew
    have hid : o.observationId ∈ (cell.added pending).map (·.observationId) :=
      mem_map_fresh.mpr ⟨mem_map.mpr ⟨o, ho, rfl⟩, hnew⟩
    obtain ⟨o', ho', heq⟩ := (htodo _).mp ((hmem _).mpr hid)
    have hspec := mem_map_snd_todo.mp ho'
    rw [heq] at hspec
    exact hspec.2.2
  · intro hall id
    rw [htodo]
    unfold added
    rw [mem_map_fresh]
    constructor
    · rintro ⟨o, ho, rfl⟩
      have hspec := mem_map_snd_todo.mp ho
      exact ⟨mem_map.mpr ⟨o, hspec.1, rfl⟩, hspec.2.1⟩
    · rintro ⟨hmem, hnew⟩
      obtain ⟨o, ho, rfl⟩ := mem_map.mp hmem
      exact ⟨o, mem_map_snd_todo.mpr ⟨ho, hnew, hall o ho hnew⟩, rfl⟩

theorem append_records_ne_of_not_absorbable
    (hno : ¬ ∀ e ∈ cell.todo pending, Absorbable e.2) :
    (cell.log.append pending).1.records ≠ cell.log.records := by
  intro hsame
  refine hno (fun e he => ?_)
  have hspec := mem_map_snd_todo.mp (mem_map.mpr ⟨e, he, rfl⟩)
  exact absurd (append_records_eq_self.mp hsame e.2 hspec.1) hspec.2.1

theorem Cell.append_projects_iff (config : StateSection) (at_ : Circumstance)
    (hinv : CellInv cameraId cell) (hcamera : ∀ o ∈ observations, o.cameraId = cameraId) :
    ProjectsWhatItAdds cell.log
        (cell.appendPartition config at_ cameraId observations).2.log
        (cell.appendPartition config at_ cameraId observations).1 ↔
      (cell.partitionOf cameraId).isDegraded = true ∨ at_.fault.isSome = true ∨
        NewOnesProject cell (cell.pendingWith observations) := by
  have hout := appendPartition_outcome config at_ hinv hcamera
  generalize cell.appendPartition config at_ cameraId observations = out at hout
  cases hout with
  | refused message hdegraded => exact ⟨fun _ => .inl hdegraded, fun _ => rfl⟩
  | buffered message since hopen hfault hroom =>
    exact ⟨fun _ => .inr (.inl hfault), fun _ => rfl⟩
  | halted hopen hfault hfull => exact ⟨fun _ => .inr (.inl hfault), fun _ => rfl⟩
  | raised message seen hopen hfault hno hseen =>
    rw [hopen, hfault]
    constructor
    · intro hsame
      exact absurd hsame (append_records_ne_of_not_absorbable hno)
    · rintro (h | h | hall)
      · cases h
      · cases h
      · refine absurd (fun e he => ?_) hno
        have hspec := mem_map_snd_todo.mp (mem_map.mpr ⟨e, he, rfl⟩)
        exact (hall e.2 hspec.1 hspec.2.1).2.2
  | committed hopen hfault hok =>
    rw [hopen, hfault]
    simp only [ProjectsWhatItAdds, map_nil, append_nil, append_records]
    have hnew : ∀ id ∈ (cell.todo (cell.pendingWith observations)).map (·.2.observationId),
        id ∉ cell.log.ids := by
      intro id hid
      obtain ⟨e, he, rfl⟩ := mem_map.mp hid
      exact (mem_map_snd_todo.mp (mem_map.mpr ⟨e, he, rfl⟩)).2.1
    constructor
    · rintro ⟨⟨added, hadded, hperm⟩, -⟩
      rw [append_cancel_left_eq] at hadded
      subst hadded
      have hall := todo_perm_added_iff.mp hperm
      refine .inr (.inr (fun o ho hid => ⟨(hall o ho hid).1, (hall o ho hid).2, ?_⟩))
      have hmem := mem_map_snd_todo.mpr ⟨ho, hid, hall o ho hid⟩
      obtain ⟨e, he, rfl⟩ := mem_map.mp hmem
      exact hok e he
    · rintro (h | h | hall)
      · cases h
      · cases h
      · exact ⟨⟨_, rfl, todo_perm_added_iff.mpr
          (fun o ho hid => ⟨(hall o ho hid).1, (hall o ho hid).2.1⟩)⟩, hnew⟩

/-- In every reachable manager, an append of one camera's batch projects exactly what it
    adds to the log if and only if it records safely. -/
theorem append_projects_what_it_adds_iff (config : StateSection) {m : Manager}
    (hreach : Reachable config m) (at_ : Manager.Circumstances) {cameraId : CameraId}
    {observations : List Observation} (hcamera : ∀ o ∈ observations, o.cameraId = cameraId) :
    ProjectsWhatItAdds (m.cells cameraId).log
        ((m.append config at_ observations).2.cells cameraId).log
        (m.append config at_ observations).1 ↔
      RecordsSafely (at_ cameraId) cameraId (m.cells cameraId) observations := by
  by_cases hne : observations = []
  · subst hne
    refine ⟨fun _ => .inl rfl, fun _ => ⟨⟨[], ?_, ?_⟩, ?_⟩⟩
    · exact (append_nil _).symm
    · exact .refl _
    · intro id hid
      cases hid
  · rw [append_eq_appendPartition config at_ hne hcamera]
    have hiff := append_projects_iff config (at_ cameraId) (hreach.inv cameraId) hcamera
    have hcell : ((m.appendPartition config at_ cameraId observations).2.cells cameraId) =
        ((m.cells cameraId).appendPartition config (at_ cameraId) cameraId observations).2 :=
      put_cells_self _ _ _
    rw [hcell]
    exact hiff.trans ⟨.inr, fun h => h.resolve_left hne⟩

def northBlind : Observation := blindnessReport "observation" "north" ⟨0⟩ (by decide)

def quiet : Manager.Circumstances := fun _ => {}

/-- The report alone is projected by the call that records it. -/
theorem append_projects_what_it_adds_once :
    ProjectsWhatItAdds (new.cells "north").log
      ((new.append .defaults quiet [northBlind]).2.cells "north").log
      (new.append .defaults quiet [northBlind]).1 := by
  refine (append_projects_what_it_adds_iff .defaults ⟨[], rfl⟩ quiet ?_).mpr ?_
  · intro o ho
    rw [mem_singleton.mp ho]
    rfl
  · refine .inr (.inr (.inr (fun o ho _ => ?_)))
    rw [mem_singleton.mp ho]
    decide +kernel

/-- The report twice in one batch is recorded once and never projected. -/
theorem append_misses_repeated_report :
    Reachable .defaults new ∧
    ¬ ProjectsWhatItAdds (new.cells "north").log
      ((new.append .defaults quiet [northBlind, northBlind]).2.cells "north").log
      (new.append .defaults quiet [northBlind, northBlind]).1 := by
  have hcamera : ∀ o ∈ [northBlind, northBlind], o.cameraId = "north" := by
    simp [northBlind, blindnessReport]
  refine ⟨⟨[], rfl⟩, fun h => ?_⟩
  rw [append_eq_appendPartition .defaults quiet (by simp) hcamera] at h
  have hsafe := (append_projects_iff .defaults (quiet "north") (CellInv.empty "north")
    hcamera).mp h
  have hopen : (({} : Cell).partitionOf "north").isDegraded = false := by decide +kernel
  rw [hopen] at hsafe
  rcases hsafe with hdegraded | hfault | hnew
  · cases hdegraded
  · cases hfault
  · exact absurd (hnew northBlind (by simp [pendingWith]) (by decide)).1 (by decide)

end VisionOs.State
