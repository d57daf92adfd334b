/-
  What becomes of a halted partition: only a rebuild that succeeds lifts the halt without the
  operator.  The durability ladder: over a log that fails in any pattern, the log followed by the
  buffer is the concatenation of the batches that were not refused.
-/
import VisionOs.State.Isolation
import VisionOs.State.Rebuild

namespace VisionOs.State

open Core Lib Synthesis List Manager Runs List.Sublist

/-! ## A halted camera refuses -/

/-- The camera's partition accepts nothing. -/
def Manager.IsHalted (m : Manager) (cameraId : CameraId) : Prop :=
  ((m.cells cameraId).partitionOf cameraId).isDegraded = true

/-- Every append leaves all that is held for the camera as it is, and one of the camera's
    own raises `PartitionDegradedError`. -/
def RefusesAppends (config : StateSection) (cameraId : CameraId) (m : Manager) : Prop :=
  ∀ at_ observations,
    (m.append config at_ observations).2.cells cameraId = m.cells cameraId ∧
    (observations ≠ [] → (∀ o ∈ observations, o.cameraId = cameraId) →
      ∃ message, (m.append config at_ observations).1 =
        .error (.partitionDegradedError message))

variable {cameraId : CameraId}

variable {cell : Cell}

theorem partition_of_isDegraded
    (h : (cell.partitionOf cameraId).isDegraded = true) : cell.ensure cameraId = cell := by
  obtain ⟨log, partition, buffer, seen⟩ := cell
  cases partition with
  | none => cases h
  | some p => rfl

theorem appendPartition_halted (config : StateSection) (at_ : Circumstance)
    (observations : List Observation)
    (h : (cell.partitionOf cameraId).isDegraded = true) :
    ∃ message, cell.appendPartition config at_ cameraId observations =
      (.error (.partitionDegradedError message), cell) := by
  unfold Cell.appendPartition
  simp only [partition_of_isDegraded h, h, if_true]
  exact ⟨_, rfl⟩

variable {m : Manager}

theorem manager_appendPartition_halted (config : StateSection) (at_ : Manager.Circumstances)
    (c : CameraId) (observations : List Observation)
    (h : m.IsHalted cameraId) :
    (m.appendPartition config at_ c observations).2.cells cameraId = m.cells cameraId := by
  by_cases hc : cameraId = c
  · subst hc
    obtain ⟨message, heq⟩ := appendPartition_halted config (at_ cameraId) observations h
    unfold appendPartition
    rw [heq]
    exact put_cells_self _ _ _
  · exact put_cells_of_ne m _ hc

theorem appendManyLoop_halted (config : StateSection) (at_ : Manager.Circumstances)
    (groups : List (CameraId × List Observation)) (total : CommitResult) (h : m.IsHalted cameraId) :
    (appendManyLoop config at_ groups total m).2.cells cameraId = m.cells cameraId := by
  induction groups generalizing total m with
  | nil => rfl
  | cons e rest ih =>
    have hself := manager_appendPartition_halted config at_ e.1 e.2 h
    have hnext : (m.appendPartition config at_ e.1 e.2).2.IsHalted cameraId := by
      unfold Manager.IsHalted
      rw [hself]
      exact h
    obtain ⟨total', hloop⟩ := appendManyLoop_cons config at_ e rest total m
    rw [hloop]
    split
    · exact hself
    · rw [ih total' hnext, hself]

theorem Manager.IsHalted.refuses (config : StateSection)
    (h : m.IsHalted cameraId) : RefusesAppends config cameraId m := by
  intro at_ observations
  refine ⟨?_, fun hne hcamera => ?_⟩
  · unfold append
    cases observations with
    | nil => rfl
    | cons o rest =>
      dsimp only
      split
      · exact manager_appendPartition_halted config at_ o.cameraId (o :: rest) h
      · exact appendManyLoop_halted config at_ _ {} h
  · rw [append_eq_appendPartition config at_ hne hcamera]
    obtain ⟨message, heq⟩ := appendPartition_halted config (at_ cameraId) observations h
    unfold appendPartition
    rw [heq]
    exact ⟨message, rfl⟩

variable {config : StateSection}

theorem isHalted_of_refuses
    (hinv : ManagerInv m) (h : RefusesAppends config cameraId m) : m.IsHalted cameraId := by
  have hid : ("observation" : ObservationId) ≠ "" := by decide
  have hcamera : ∀ o ∈ [blindnessReport "observation" cameraId ⟨0⟩ hid],
      o.cameraId = cameraId := by
    intro o ho
    rw [mem_singleton.mp ho]
    rfl
  obtain ⟨message, hresult⟩ := (h quiet _).2 (by simp) hcamera
  rw [append_eq_appendPartition config quiet (by simp) hcamera] at hresult
  have hout := appendPartition_outcome config {} (hinv cameraId) hcamera
  have hcell : ((m.cells cameraId).appendPartition config {} cameraId
      [blindnessReport "observation" cameraId ⟨0⟩ hid]).1 =
        .error (.partitionDegradedError message) := hresult
  generalize (m.cells cameraId).appendPartition config {} cameraId
    [blindnessReport "observation" cameraId ⟨0⟩ hid] = out at hout hcell
  cases hout with
  | refused message' hdegraded => exact hdegraded
  | buffered message' since hopen hfault hroom => cases hfault
  | halted hopen hfault hfull => cases hfault
  | raised message' seen hopen hfault hno hseen => cases hcell
  | committed hopen hfault hok => cases hcell

/-- The append halts the camera: its partition was open before. -/
def Manager.HaltedBy (config : StateSection) (at_ : Manager.Circumstances)
    (observations : List Observation) (cameraId : CameraId) (m : Manager) : Prop :=
  ¬ m.IsHalted cameraId ∧ (m.append config at_ observations).2.IsHalted cameraId

/-- An append to an open camera halts it exactly when it raises `CommitFailedError`. -/
theorem haltedBy_iff_commitFailed (hinv : ManagerInv m) (hopen : ¬ m.IsHalted cameraId)
    {at_ : Manager.Circumstances} {observations : List Observation} (hne : observations ≠ [])
    (hcamera : ∀ o ∈ observations, o.cameraId = cameraId) :
    m.HaltedBy config at_ observations cameraId ↔
      ∃ message, (m.append config at_ observations).1 = .error (.commitFailedError message) := by
  have hout := appendPartition_outcome config (at_ cameraId) (hinv cameraId) hcamera
  have hkept : ∀ {cell : Cell}, (cell.partitionOf cameraId).degradedReason =
      ((m.cells cameraId).partitionOf cameraId).degradedReason →
      (cell.partitionOf cameraId).isDegraded ≠ true := fun hreason hdegraded => hopen <| by
    unfold Manager.IsHalted CameraPartition.isDegraded at *
    rwa [← hreason]
  unfold Manager.HaltedBy
  rw [and_iff_right hopen, append_eq_appendPartition config at_ hne hcamera]
  unfold Manager.IsHalted
  rw [appendPartition_cells]
  unfold appendPartition
  generalize (m.cells cameraId).appendPartition config (at_ cameraId) cameraId observations =
    out at hout ⊢
  cases hout with
  | refused message hdegraded => exact absurd hdegraded hopen
  | buffered message since => exact iff_of_false (hkept rfl) (by rintro ⟨_, h⟩; cases h)
  | halted =>
    refine iff_of_true ?_ ⟨_, rfl⟩
    simp [Cell.partitionOf, CameraPartition.isDegraded, haltReason_ne_empty]
  | raised message => exact iff_of_false (hkept rfl) (by rintro ⟨_, h⟩; cases h)
  | committed _ _ hok =>
    have hpending := (hinv cameraId).pendingWith hcamera
    have hspec := foldl_absorb_spec config.bounds (hinv cameraId).partitionOf
      (fun e he => hpending e.2 (mem_of_mem_picks he).1) hok
    exact iff_of_false (hkept hspec.2.2.2) (by rintro ⟨_, h⟩; cases h)

/-! ## The operations around a halt -/

def Operation.LeavesHalt (cameraId : CameraId) : Operation → Prop
  | .resume c => c ≠ cameraId
  | .forget c => c ≠ cameraId
  | _ => True

/-- An operation that is no successful rebuild of the camera: a rebuild of it reads a
    record that names the empty object, and raises. -/
def KeepsHalt (cameraId : CameraId) (m : Manager) : Operation → Prop
  | .rebuild c fromPosition =>
    c = cameraId → ∃ o ∈ (m.cells cameraId).replayed fromPosition, ¬ Absorbable o
  | _ => True

theorem sweep_partition (at_ : Manager.Circumstances) (before : Instant) (cameras : List CameraId)
    (s : Manager.SweepReport × Manager) (cameraId : CameraId) :
    ((cameras.foldl (sweepCamera at_ before) s).2.cells cameraId).partition =
      (s.2.cells cameraId).partition := by
  induction cameras generalizing s with
  | nil => rfl
  | cons c rest ih =>
    rw [foldl_cons, ih]
    obtain ⟨report, m⟩ := s
    unfold sweepCamera
    dsimp only
    split
    · rfl
    · by_cases hc : cameraId = c
      · subst hc
        rw [put_cells_self]
      · rw [put_cells_of_ne m _ hc]

theorem isHalted_congr {m' : Manager}
    (h : (m'.cells cameraId).partition = (m.cells cameraId).partition) :
    m'.IsHalted cameraId ↔ m.IsHalted cameraId := by
  unfold Manager.IsHalted Cell.partitionOf
  rw [h]

theorem isHalted_rebuild_iff (config : StateSection) (fromPosition : Int) (hinv : ManagerInv m)
    (h : m.IsHalted cameraId) :
    (m.rebuild config cameraId fromPosition).2.IsHalted cameraId ↔
      ∃ o ∈ (m.cells cameraId).replayed fromPosition, ¬ Absorbable o := by
  have hcell : (m.rebuild config cameraId fromPosition).2.cells cameraId =
      ((m.cells cameraId).rebuild config cameraId fromPosition).2 := put_cells_self _ _ _
  unfold Manager.IsHalted at h ⊢
  rw [hcell]
  rcases rebuild_outcome config fromPosition (hinv cameraId) with
    ⟨hok, -, handle, heq⟩ | ⟨hno, message, heq⟩
  · have hreason := (foldl_absorb_spec config.bounds (emptyPartition_inv cameraId)
      (fun e he => (hinv cameraId).records e.2 (mem_read (mem_of_mem_picks he).1))
      (fun e he => hok e.2 (@mem_of_mem_picks [] [] fromPosition _ _ he).1)).2.2.2
    rw [heq]
    -- The shadow starts without a reason and ends without one.
    refine ⟨fun hhalted => ?_, fun ⟨o, ho, hbad⟩ => absurd (hok o ho) hbad⟩
    exact absurd hreason (of_decide_eq_true hhalted)
  · rw [heq]
    push Not at hno
    exact ⟨fun _ => hno, fun _ => h⟩

/-- Of a halted camera's operations, only a rebuild that succeeds lifts the halt. -/
theorem isHalted_step_iff (config : StateSection)
    (hinv : ManagerInv m) (h : m.IsHalted cameraId) {operation : Operation}
    (hleaves : operation.LeavesHalt cameraId) :
    (m.step config operation).IsHalted cameraId ↔ KeepsHalt cameraId m operation := by
  have hkeeps : ∀ {m' : Manager},
      (m'.cells cameraId).partition = (m.cells cameraId).partition → m'.IsHalted cameraId :=
    fun heq => (isHalted_congr heq).mpr h
  cases operation with
  | append at_ observations =>
    refine ⟨fun _ => trivial, fun _ => hkeeps ?_⟩
    exact congrArg Cell.partition (h.refuses config at_ observations).1
  | resume c =>
    refine ⟨fun _ => trivial, fun _ => hkeeps ?_⟩
    exact congrArg Cell.partition (put_cells_of_ne m _ (Ne.symm hleaves))
  | rebuild c fromPosition =>
    by_cases hc : c = cameraId
    · subst hc
      show (m.rebuild config c fromPosition).2.IsHalted c ↔ (c = c → _)
      rw [isHalted_rebuild_iff config fromPosition hinv h]
      exact ⟨fun hbad _ => hbad, fun hbad => hbad rfl⟩
    · refine ⟨fun _ heq => absurd heq hc, fun _ => hkeeps ?_⟩
      exact congrArg Cell.partition (put_cells_of_ne m _ (Ne.symm hc))
  | retentionSweep at_ now before =>
    exact ⟨fun _ => trivial, fun _ => hkeeps (sweep_partition at_ _ _ _ cameraId)⟩
  | forget c =>
    refine ⟨fun _ => trivial, fun _ => hkeeps ?_⟩
    show Cell.partition (if cameraId = c then _ else m.cells cameraId) = _
    rw [if_neg (Ne.symm hleaves)]
  | snapshot scope => exact ⟨fun _ => trivial, fun _ => h⟩
  | coverage scope => exact ⟨fun _ => trivial, fun _ => h⟩

/-! ## Runs from a halt on -/

/-- The operations that are no decision of the operator about the camera. -/
abbrev Undecided (cameraId : CameraId) : Type :=
  { operation : Operation // operation.LeavesHalt cameraId }

def Manager.stepUndecided (config : StateSection) (cameraId : CameraId) (m : Manager)
    (operation : Undecided cameraId) : Manager :=
  m.step config operation.1

/-- From the append that halts a camera on, and until the operator decides about it, every
    state reached refuses every append to the camera if and only if no rebuild of the
    camera succeeds on the way. -/
theorem halted_refuses_iff (config : StateSection) {m : Manager} (hreach : Reachable config m)
    {at_ : Manager.Circumstances} {observations : List Observation} {cameraId : CameraId}
    (hhalts : m.HaltedBy config at_ observations cameraId)
    (operations : List (Undecided cameraId)) :
    (∀ before, before <+: operations →
      RefusesAppends config cameraId
        (run (stepUndecided config cameraId)
          (m.append config at_ observations).2 before)) ↔
      Runs.Always (stepUndecided config cameraId)
        (fun m operation => KeepsHalt cameraId m operation.1)
        (m.append config at_ observations).2 operations := by
  have hinv := hreach.inv.append config at_ observations
  refine @Runs.reached_iff_always _ _ _ (fun m => ManagerInv m ∧ m.IsHalted cameraId)
    _ _ ?_ ?_ ?_ _ ⟨hinv, hhalts.2⟩ operations
  · intro m h
    exact h.2.refuses config
  · intro m operation h hkeeps
    refine ⟨ManagerInv.step config m operation.1 h.1, ?_⟩
    exact (isHalted_step_iff config h.1 h.2 operation.2).mpr hkeeps
  · intro m operation h hlifts hrefuses
    refine hlifts ((isHalted_step_iff config h.1 h.2 operation.2).mp ?_)
    exact isHalted_of_refuses (ManagerInv.step config m operation.1 h.1) hrefuses

/-- A state section whose durability buffer holds one observation. -/
def tight : StateSection :=
  { StateSection.defaults with logBufferCapacity := 1, logBufferCapacity_pos := le_refl 1 }

theorem haltedBy_overflow :
    new.HaltedBy tight northDown [northBlind, northBlind] "north" := by
  unfold Manager.HaltedBy Manager.IsHalted
  decide +kernel

/-- Through a sweep and a snapshot the camera stays halted. -/
theorem halted_refuses_through_sweep :
    RefusesAppends tight "north"
      (run (stepUndecided tight "north")
        (new.append tight northDown [northBlind, northBlind]).2
        [⟨.retentionSweep quiet ⟨0⟩ none, trivial⟩, ⟨.snapshot none, trivial⟩]) :=
  (halted_refuses_iff tight ⟨[], rfl⟩ haltedBy_overflow
    [⟨.retentionSweep quiet ⟨0⟩ none, trivial⟩, ⟨.snapshot none, trivial⟩]).mpr
      ⟨trivial, trivial, trivial⟩ _ (prefix_refl _)

/-- A rebuild of an empty log lifts the halt, and the next report is recorded. -/
theorem halt_lifted_by_rebuild :
    new.HaltedBy tight northDown [northBlind, northBlind] "north" ∧
    ¬ ∀ before, before <+: [(⟨.rebuild "north" 0, trivial⟩ : Undecided "north")] →
      RefusesAppends tight "north"
        (run (stepUndecided tight "north")
          (new.append tight northDown [northBlind, northBlind]).2 before) := by
  refine ⟨haltedBy_overflow, fun hrefuses => ?_⟩
  have hcell := (hrefuses _ (prefix_refl _) quiet [northBlind]).1
  have hrecords := congrArg (fun cell : Cell => cell.log.records.length) hcell
  exact absurd hrecords (by decide +kernel)

/-- A call on one camera: an append, with what surrounds it, or an operator's resume. -/
inductive LadderCall (cameraId : CameraId) where
  | append (at_ : Manager.Circumstances) (batch : Batch cameraId)
  | resume

def Manager.ladderStep (config : StateSection) (cameraId : CameraId) (m : Manager) :
    LadderCall cameraId → Manager
  | .append at_ batch => (m.append config at_ batch.1).2
  | .resume => m.resume cameraId

structure Submission where
  batch : List Observation
  result : Raises CommitResult

def Manager.submission (config : StateSection) {cameraId : CameraId} (m : Manager) :
    LadderCall cameraId → List Submission
  | .append at_ batch => [⟨batch.1, (m.append config at_ batch.1).1⟩]
  | .resume => []

def submissions (config : StateSection) {cameraId : CameraId} :
    Manager → List (LadderCall cameraId) → List Submission
  | _, [] => []
  | m, call :: rest =>
    m.submission config call ++ submissions config (m.ladderStep config cameraId call) rest

/-- The append returned, or raised `LogUnavailableError`: the ladder took the batch. -/
def Submission.IsTaken (s : Submission) : Prop :=
  (∃ result, s.result = .ok result) ∨ ∃ message, s.result = .error (.logUnavailableError message)

/-- The append raised `CommitFailedError` or `PartitionDegradedError`. -/
def Submission.isRefused (s : Submission) : Bool :=
  match s.result with
  | .error (.commitFailedError _) => true
  | .error (.partitionDegradedError _) => true
  | _ => false

variable {s : Submission}

theorem Submission.IsTaken.not_refused (h : s.IsTaken) : s.isRefused = false := by
  unfold Submission.isRefused
  rcases h with ⟨result, h⟩ | ⟨message, h⟩
  · rw [h]
  · rw [h]

def Submission.kept (s : Submission) : List Observation := if s.isRefused then [] else s.batch

/-- The observations held for a camera: its log, then its buffer. -/
def Cell.held (cell : Cell) : List Observation := cell.log.records ++ cell.buffer.pending

variable {cameraId : CameraId}

theorem submissions_append (config : StateSection) (m : Manager)
    (calls : List (LadderCall cameraId)) (call : LadderCall cameraId) :
    submissions config m (calls ++ [call]) =
      submissions config m calls ++
        (run (ladderStep config cameraId) m calls).submission config call := by
  induction calls generalizing m with
  | nil => simp [submissions]
  | cons c rest ih =>
    simp only [cons_append, submissions, run_cons, ih, append_assoc]

structure LadderInv (config : StateSection) (cameraId : CameraId) (held : List Observation)
    (cell : Cell) : Prop where
  inv : CellInv cameraId cell
  held : cell.held = held
  room : cell.buffer.pending.length ≤ config.logBufferCapacity

theorem LadderInv.empty (config : StateSection) (cameraId : CameraId) :
    LadderInv config cameraId [] {} where
  inv := CellInv.empty cameraId
  held := rfl
  room := Nat.zero_le _

theorem LadderInv.append {held : List Observation} (h : LadderInv config cameraId held cell)
    (at_ : Circumstance)
    {batch : List Observation} (hcamera : ∀ o ∈ batch, o.cameraId = cameraId)
    (hdistinct : ((held ++ batch).map (·.observationId)).Nodup) :
    LadderInv config cameraId
      (held ++ Submission.kept ⟨batch, (cell.appendPartition config at_ cameraId batch).1⟩)
      (cell.appendPartition config at_ cameraId batch).2 := by
  have hinv := h.inv.append config at_ hcamera
  have hheld := h.held
  unfold Cell.held at hheld
  -- The pending batch is new to the log, each observation once.
  rw [← hheld, append_assoc, map_append, nodup_append] at hdistinct
  obtain ⟨-, hpending, hdisjoint⟩ := hdistinct
  have hnew : ∀ o ∈ cell.buffer.pending ++ batch, o.observationId ∉ cell.log.ids := by
    intro o ho hold
    exact hdisjoint _ ((cell.log.mem_ids _).mp hold) _ (mem_map.mpr ⟨o, ho, rfl⟩) rfl
  have hrecords : (cell.log.append (cell.buffer.pending ++ batch)).1.records =
      held ++ batch := by
    rw [LogPartition.append_records, Dedup.fresh_eq_self hpending hnew, ← append_assoc,
      hheld]
  have hout := appendPartition_outcome config at_ h.inv hcamera
  generalize cell.appendPartition config at_ cameraId batch = out at hinv hout
  cases hout with
  | refused message hdegraded =>
    exact ⟨hinv, h.held.trans (append_nil held).symm, h.room⟩
  | buffered message since hopen hfault hroom =>
    refine ⟨hinv, ?_, hroom⟩
    show cell.log.records ++ (cell.buffer.pending ++ batch) = held ++ batch
    rw [← append_assoc, hheld]
  | halted hopen hfault hfull =>
    exact ⟨hinv, h.held.trans (append_nil held).symm, h.room⟩
  | raised message seen hopen hfault hno hseen =>
    exact ⟨hinv, (append_nil _).trans hrecords, Nat.zero_le _⟩
  | committed hopen hfault hok =>
    exact ⟨hinv, (append_nil _).trans hrecords, Nat.zero_le _⟩

/-! ## Runs -/

def keptOf (ss : List Submission) : List Observation := ss.flatMap Submission.kept

def submitted (ss : List Submission) : List Observation := ss.flatMap Submission.batch

theorem keptOf_sublist (ss : List Submission) : (keptOf ss).Sublist (submitted ss) := by
  induction ss with
  | nil => exact .slnil
  | cons s rest ih =>
    have hkept : s.kept.Sublist s.batch := by
      unfold Submission.kept
      split
      · exact nil_sublist _
      · exact refl _
    exact hkept.append ih

theorem keptOf_append (ss ss' : List Submission) : keptOf (ss ++ ss') = keptOf ss ++ keptOf ss' :=
  flatMap_append

theorem submitted_append (ss ss' : List Submission) :
    submitted (ss ++ ss') = submitted ss ++ submitted ss' :=
  flatMap_append

variable {ss : List Submission}

/-- One call keeps the log and the buffer in step with what was taken. -/
theorem LadderInv.step (h : LadderInv config cameraId (keptOf ss) (m.cells cameraId))
    (call : LadderCall cameraId)
    (hdistinct : ((submitted (ss ++ m.submission config call)).map (·.observationId)).Nodup) :
    LadderInv config cameraId (keptOf (ss ++ m.submission config call))
      ((m.ladderStep config cameraId call).cells cameraId) := by
  rw [submitted_append] at hdistinct
  rw [keptOf_append]
  cases call with
  | resume =>
    have hcell : (m.ladderStep config cameraId .resume).cells cameraId =
        (m.cells cameraId).resume cameraId := put_cells_self _ _ _
    have hkept : keptOf (m.submission config (.resume : LadderCall cameraId)) = [] := rfl
    rw [hcell, hkept, append_nil]
    exact ⟨h.inv.resume, h.held, h.room⟩
  | append at_ batch =>
    have hkept : keptOf (m.submission config (.append at_ batch)) =
        Submission.kept ⟨batch.1, (m.append config at_ batch.1).1⟩ := append_nil _
    have hbatch : submitted (m.submission config (.append at_ batch)) = batch.1 :=
      append_nil _
    rw [hkept]
    rw [hbatch] at hdistinct
    have hcells : (m.ladderStep config cameraId (.append at_ batch)).cells cameraId =
        (m.append config at_ batch.1).2.cells cameraId := rfl
    rw [hcells]
    by_cases hne : batch.1 = []
    · rw [hne]
      exact ⟨h.inv, h.held.trans (append_nil _).symm, h.room⟩
    · rw [append_eq_appendPartition config at_ hne batch.2]
      have hkeptDistinct : ((keptOf ss ++ batch.1).map (·.observationId)).Nodup :=
        (((keptOf_sublist ss).append (refl _)).map _).nodup hdistinct
      rw [appendPartition_cells]
      exact h.append (at_ cameraId) batch.2 hkeptDistinct

/-- The camera's cell after a run of calls, from a new manager. -/
def cellAfter (config : StateSection) {cameraId : CameraId} (calls : List (LadderCall cameraId)) :
    Cell :=
  (run (ladderStep config cameraId) .new calls).cells cameraId

theorem ladder_run (config : StateSection) {calls : List (LadderCall cameraId)}
    (hdistinct : ((submitted (submissions config .new calls)).map (·.observationId)).Nodup) :
    LadderInv config cameraId (keptOf (submissions config .new calls))
      (cellAfter config calls) := by
  unfold cellAfter
  induction calls using List.reverseRecOn with
  | nil => exact LadderInv.empty config cameraId
  | append_singleton calls call ih =>
    rw [submissions_append] at hdistinct ⊢
    have hbefore : ((submitted (submissions config .new calls)).map
        (·.observationId)).Nodup := by
      rw [submitted_append, map_append] at hdistinct
      exact (nodup_append.mp hdistinct).1
    rw [run_append, run_cons, run_nil]
    exact (ih hbefore).step call hdistinct

theorem refused_disjoint (hdistinct : ((submitted ss).map (·.observationId)).Nodup) (hs : s ∈ ss)
    (hrefused : s.isRefused = true) {o : Observation} (ho : o ∈ s.batch) :
    o.observationId ∉ (keptOf ss).map (·.observationId) := by
  intro hid
  obtain ⟨o', ho', heq⟩ := mem_map.mp hid
  obtain ⟨s', hs', hkept⟩ := mem_flatMap.mp ho'
  unfold Submission.kept at hkept
  split at hkept
  · cases hkept
  rename_i htaken
  unfold submitted at hdistinct
  rw [map_flatMap, nodup_flatMap] at hdistinct
  have hne : s ≠ s' := by
    rintro rfl
    exact htaken hrefused
  -- Two submissions of the run share no id.
  have hsymm : Std.Symm (Function.onFun List.Disjoint
      (fun s : Submission => s.batch.map (·.observationId))) := ⟨fun _ _ h => disjoint_symm h⟩
  exact hdistinct.2.forall hs hs' hne (mem_map.mpr ⟨o, ho, rfl⟩) (mem_map.mpr ⟨o', hkept, heq⟩)

/-- In every run of appends and resumes on one camera, with distinct observation ids and
    any pattern of failures of the log: the buffer keeps to its capacity, what the log and
    the buffer hold is in the order of submission, an observation whose append returned or
    raised `LogUnavailableError` is held once, and one whose append raised
    `CommitFailedError` or `PartitionDegradedError` is not held. -/
theorem ladder_loses_nothing (config : StateSection) {cameraId : CameraId}
    (calls : List (LadderCall cameraId))
    (hdistinct : ((submitted (submissions config .new calls)).map (·.observationId)).Nodup) :
    (cellAfter config calls).buffer.pending.length ≤ config.logBufferCapacity ∧
    (cellAfter config calls).held.Sublist (submitted (submissions config .new calls)) ∧
    ∀ s ∈ submissions config .new calls, ∀ o ∈ s.batch,
      (s.IsTaken → o ∈ (cellAfter config calls).held ∧
        ((cellAfter config calls).held.map (·.observationId)).count o.observationId = 1) ∧
      (s.isRefused = true →
        o.observationId ∉ (cellAfter config calls).held.map (·.observationId)) := by
  have hladder := ladder_run config hdistinct
  rw [hladder.held]
  have hnodup : ((keptOf (submissions config .new calls)).map (·.observationId)).Nodup :=
    ((keptOf_sublist _).map _).nodup hdistinct
  refine ⟨hladder.room, keptOf_sublist _, fun s hs o ho => ⟨fun htaken => ?_, fun hrefused => ?_⟩⟩
  · have hmem : o ∈ keptOf (submissions config .new calls) := by
      refine mem_flatMap.mpr ⟨s, hs, ?_⟩
      unfold Submission.kept
      rw [htaken.not_refused]
      exact ho
    exact ⟨hmem, count_eq_one_of_mem hnodup (mem_map.mpr ⟨o, hmem, rfl⟩)⟩
  · exact refused_disjoint hdistinct hs hrefused ho

/-- A report, another that overflows a buffer of one, a resume, and a third. -/
def threeCalls : List (LadderCall "north") :=
  [.append northDown ⟨[numberedReport 0], by simp [numberedReport, blindnessReport]⟩,
    .append northDown ⟨[numberedReport 1], by simp [numberedReport, blindnessReport]⟩,
    .resume,
    .append quiet ⟨[numberedReport 2], by simp [numberedReport, blindnessReport]⟩]

/-- Three reports of the camera "north": the first buffered, the second refused by the full
    buffer, the third recorded with the first after a resume. -/
theorem ladder_loses_nothing_overflow :
    (cellAfter tight threeCalls).buffer.pending.length ≤ tight.logBufferCapacity ∧
    (cellAfter tight threeCalls).held.Sublist (submitted (submissions tight .new threeCalls)) ∧
    ∀ s ∈ submissions tight .new threeCalls, ∀ o ∈ s.batch,
      (s.IsTaken → o ∈ (cellAfter tight threeCalls).held ∧
        ((cellAfter tight threeCalls).held.map (·.observationId)).count o.observationId = 1) ∧
      (s.isRefused = true →
        o.observationId ∉ (cellAfter tight threeCalls).held.map (·.observationId)) :=
  ladder_loses_nothing tight threeCalls (by decide +kernel)

end VisionOs.State
