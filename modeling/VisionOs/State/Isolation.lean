/-
  A mixed batch against its sub-batches.  The split loop goes on after a halt, but an unreachable
  log with room in the buffer, or an observation of the empty object, takes it out of the loop.
-/
import VisionOs.State.Reachable

namespace VisionOs.State

open Core Lib Synthesis List Manager Cell List.Pairwise LogPartition

/-! ## What takes the loop out of the batch -/

def leavesLoop : Raises CommitResult → Bool
  | .ok _ => false
  | .error (.commitFailedError _) => false
  | .error (.partitionDegradedError _) => false
  | .error _ => true

/-- The append of this batch ends in an exception other than a halt: the log is
    unreachable with room left in the buffer, or something left to project names the
    empty object. -/
def Cell.Stops (config : StateSection) (at_ : Circumstance) (cameraId : CameraId) (cell : Cell)
    (batch : List Observation) : Prop :=
  (cell.partitionOf cameraId).isDegraded = false ∧
    ((at_.fault.isSome = true ∧
        (cell.pendingWith batch).length ≤ config.logBufferCapacity) ∨
      (at_.fault = none ∧ ∃ o ∈ cell.pendingWith batch, o.observationId ∉ cell.log.ids ∧
        ((cell.pendingWith batch).map (·.observationId)).count o.observationId < 2 ∧
        o.observationId ∉ cell.seen ∧ ¬ Absorbable o))

/-- The append of this batch changes neither the log nor the partition: the camera has a
    partition, and it is halted, or the batch goes to the buffer, or the log holds all of
    it. -/
def Cell.Idle (config : StateSection) (at_ : Circumstance) (cameraId : CameraId) (cell : Cell)
    (batch : List Observation) : Prop :=
  cell.partition.isSome = true ∧
    ((cell.partitionOf cameraId).isDegraded = true ∨
      (at_.fault.isSome = true ∧
        (cell.pendingWith batch).length ≤ config.logBufferCapacity) ∨
      (at_.fault = none ∧ ∀ o ∈ cell.pendingWith batch, o.observationId ∈ cell.log.ids))

/-- Two cells with the same log contents and the same partition. -/
def SameFacts (a b : Cell) : Prop := a.log.records = b.log.records ∧ a.partition = b.partition

theorem SameFacts.rfl {a : Cell} : SameFacts a a := ⟨Eq.refl _, Eq.refl _⟩

theorem haltReason_ne_empty (config : StateSection) : haltReason config ≠ "" := by
  unfold haltReason
  intro h
  have hlength := congrArg String.length h
  simp [String.length_append] at hlength

variable {cell : Cell} {pending : List Observation}

theorem exists_todo_iff : (¬ ∀ e ∈ cell.todo pending, Absorbable e.2) ↔
      ∃ o ∈ pending, o.observationId ∉ cell.log.ids ∧
        (pending.map (·.observationId)).count o.observationId < 2 ∧
        o.observationId ∉ cell.seen ∧ ¬ Absorbable o := by
  constructor
  · intro hno
    push Not at hno
    obtain ⟨e, he, hbad⟩ := hno
    obtain ⟨ho, hnew, honce, hseen⟩ := mem_map_snd_todo.mp (mem_map.mpr ⟨e, he, rfl⟩)
    exact ⟨e.2, ho, hnew, honce, hseen, hbad⟩
  · rintro ⟨o, ho, hnew, honce, hseen, hbad⟩ hall
    obtain ⟨e, he, rfl⟩ := mem_map.mp (mem_map_snd_todo.mpr ⟨ho, hnew, honce, hseen⟩)
    exact hbad (hall e he)

variable {cameraId : CameraId} {batch : List Observation}

theorem Cell.stops_iff (config : StateSection) (at_ : Circumstance) (hinv : CellInv cameraId cell)
    (hcamera : ∀ o ∈ batch, o.cameraId = cameraId) :
    leavesLoop (cell.appendPartition config at_ cameraId batch).1 = true ↔
      cell.Stops config at_ cameraId batch := by
  have hout := appendPartition_outcome config at_ hinv hcamera
  generalize cell.appendPartition config at_ cameraId batch = out at hout
  unfold Cell.Stops
  cases hout with
  | refused message hdegraded =>
    rw [hdegraded]
    exact ⟨fun h => (by cases h), fun h => (by cases h.1)⟩
  | buffered message since hopen hfault hroom =>
    exact ⟨fun _ => ⟨hopen, .inl ⟨hfault, hroom⟩⟩, fun _ => rfl⟩
  | halted hopen hfault hfull =>
    refine ⟨fun h => (by cases h), ?_⟩
    rintro ⟨-, ⟨-, hroom⟩ | ⟨hnone, -⟩⟩
    · exact absurd hroom (not_le.mpr hfull)
    · rw [hnone] at hfault
      cases hfault
  | raised message seen hopen hfault hno hseen =>
    exact ⟨fun _ => ⟨hopen, .inr ⟨hfault, exists_todo_iff.mp hno⟩⟩, fun _ => rfl⟩
  | committed hopen hfault hok =>
    refine ⟨fun h => (by cases h), ?_⟩
    rintro ⟨-, ⟨hsome, -⟩ | ⟨-, hbad⟩⟩
    · rw [hfault] at hsome
      cases hsome
    · exact absurd hok (exists_todo_iff.mpr hbad)

theorem ensure_partition_iff :
    cell.partition = (cell.ensure cameraId).partition ↔ cell.partition.isSome = true := by
  unfold ensure partitionOf
  cases cell.partition <;> simp

theorem todo_eq_nil
    (h : ∀ o ∈ pending, o.observationId ∈ cell.log.ids) : cell.todo pending = [] := by
  rw [eq_nil_iff_forall_not_mem]
  intro e he
  have hspec := mem_map_snd_todo.mp (mem_map.mpr ⟨e, he, rfl⟩)
  exact hspec.2.1 (h e.2 hspec.1)

variable {config : StateSection} {at_ : Circumstance}

theorem Cell.Idle.room (h : cell.Idle config at_ cameraId batch)
    (hopen : (cell.partitionOf cameraId).isDegraded = false) (hfault : at_.fault.isSome = true) :
    (cell.pendingWith batch).length ≤ config.logBufferCapacity := by
  rcases h.2 with hdegraded | ⟨-, hroom⟩ | ⟨hnone, -⟩
  · rw [hopen] at hdegraded
    cases hdegraded
  · exact hroom
  · rw [hnone] at hfault
    cases hfault

theorem Cell.Idle.logged (h : cell.Idle config at_ cameraId batch)
    (hopen : (cell.partitionOf cameraId).isDegraded = false) (hfault : at_.fault = none) :
    ∀ o ∈ cell.pendingWith batch, o.observationId ∈ cell.log.ids := by
  rcases h.2 with hdegraded | ⟨hsome, -⟩ | ⟨-, hall⟩
  · rw [hopen] at hdegraded
    cases hdegraded
  · rw [hfault] at hsome
    cases hsome
  · exact hall

theorem Cell.partition_ne_halted (hopen : (cell.partitionOf cameraId).isDegraded = false) :
    cell.partition ≠
      some { cell.partitionOf cameraId with degradedReason := haltReason config } := by
  intro hpartition
  have hof := partitionOf_of_some hpartition cameraId
  rw [hof] at hopen
  exact absurd hopen (by simp [CameraPartition.isDegraded, haltReason_ne_empty])

theorem Cell.idle_iff (config : StateSection) (at_ : Circumstance) (hinv : CellInv cameraId cell)
    (hcamera : ∀ o ∈ batch, o.cameraId = cameraId) :
    SameFacts cell (cell.appendPartition config at_ cameraId batch).2 ↔
      cell.Idle config at_ cameraId batch := by
  have hout := appendPartition_outcome config at_ hinv hcamera
  generalize cell.appendPartition config at_ cameraId batch = out at hout
  cases hout with
  | refused message hdegraded =>
    refine ⟨fun h => ⟨ensure_partition_iff.mp h.2, .inl hdegraded⟩, fun h => ⟨rfl, ?_⟩⟩
    exact ensure_partition_iff.mpr h.1
  | buffered message since hopen hfault hroom =>
    refine ⟨fun h => ⟨ensure_partition_iff.mp h.2, .inr (.inl ⟨hfault, hroom⟩)⟩,
      fun h => ⟨rfl, ?_⟩⟩
    exact ensure_partition_iff.mpr h.1
  | halted hopen hfault hfull =>
    refine ⟨fun h => absurd h.2 (partition_ne_halted hopen), fun h => ?_⟩
    exact absurd (Cell.Idle.room h hopen hfault) (not_le.mpr hfull)
  | raised message seen hopen hfault hno hseen =>
    constructor
    · rintro ⟨hrecords, -⟩
      exact absurd hrecords.symm (append_records_ne_of_not_absorbable hno)
    · intro hidle
      have htodo := todo_eq_nil (Cell.Idle.logged hidle hopen hfault)
      unfold pendingWith at htodo
      refine absurd (fun e he => ?_) hno
      rw [htodo] at he
      cases he
  | committed hopen hfault hok =>
    constructor
    · rintro ⟨hrecords, hpartition⟩
      have hall := append_records_eq_self.mp hrecords.symm
      refine ⟨?_, .inr (.inr ⟨hfault, hall⟩)⟩
      rw [hpartition]
      rfl
    · intro hidle
      have hall := Cell.Idle.logged hidle hopen hfault
      refine ⟨(append_records_eq_self.mpr hall).symm, ?_⟩
      have htodo := todo_eq_nil hall
      unfold pendingWith at htodo
      rw [htodo]
      exact ensure_partition_iff.mpr hidle.1

/-! ## The split loop -/

theorem appendManyLoop_cons (config : StateSection) (at_ : Manager.Circumstances)
    (e : CameraId × List Observation) (rest : List (CameraId × List Observation))
    (total : CommitResult) (m : Manager) :
    ∃ total', (appendManyLoop config at_ (e :: rest) total m).2 =
      if leavesLoop (m.appendPartition config at_ e.1 e.2).1 = true then
        (m.appendPartition config at_ e.1 e.2).2
      else (appendManyLoop config at_ rest total'
        (m.appendPartition config at_ e.1 e.2).2).2 := by
  obtain ⟨cameraId, batch⟩ := e
  simp only [appendManyLoop]
  obtain ⟨result, m'⟩ := m.appendPartition config at_ cameraId batch
  cases result with
  | ok result => exact ⟨_, rfl⟩
  | error exc =>
    cases exc
    case commitFailedError message => exact ⟨_, rfl⟩
    case partitionDegradedError message => exact ⟨_, rfl⟩
    all_goals exact ⟨total, rfl⟩

variable {groups : List (CameraId × List Observation)}

theorem appendManyLoop_frame (config : StateSection) (at_ : Manager.Circumstances)
    (h : cameraId ∉ groups.map Prod.fst) (total : CommitResult) (m : Manager) :
    (appendManyLoop config at_ groups total m).2.cells cameraId = m.cells cameraId := by
  induction groups generalizing total m with
  | nil => rfl
  | cons e rest ih =>
    rw [map_cons, mem_cons, not_or] at h
    obtain ⟨total', hloop⟩ := appendManyLoop_cons config at_ e rest total m
    have hother : (m.appendPartition config at_ e.1 e.2).2.cells cameraId = m.cells cameraId :=
      put_cells_of_ne m _ h.1
    rw [hloop]
    split
    · exact hother
    · rw [ih h.2, hother]

/-- A camera that takes the loop out, and one later in the loop that would change. -/
def IdleAfterStop (config : StateSection) (at_ : Manager.Circumstances) (m : Manager)
    (e e' : CameraId × List Observation) : Prop :=
  (m.cells e.1).Stops config (at_ e.1) e.1 e.2 → (m.cells e'.1).Idle config (at_ e'.1) e'.1 e'.2

variable {m : Manager}

theorem isolated_after_stop (config : StateSection) (at_ : Manager.Circumstances)
    {rest : List (CameraId × List Observation)}
    (hgroups : ∀ e ∈ rest, ∀ o ∈ e.2, o.cameraId = e.1) (hinv : ManagerInv m)
    {e : CameraId × List Observation} (hstops : (m.cells e.1).Stops config (at_ e.1) e.1 e.2) :
    (∀ e' ∈ rest, SameFacts (m.cells e'.1)
      ((m.cells e'.1).appendPartition config (at_ e'.1) e'.1 e'.2).2) ↔
    (∀ e' ∈ rest, IdleAfterStop config at_ m e e') ∧ rest.Pairwise (IdleAfterStop config at_ m) := by
  have hidle : ∀ e' ∈ rest, (SameFacts (m.cells e'.1)
      ((m.cells e'.1).appendPartition config (at_ e'.1) e'.1 e'.2).2 ↔
        (m.cells e'.1).Idle config (at_ e'.1) e'.1 e'.2) := by
    intro e' he'
    exact (m.cells e'.1).idle_iff config (at_ e'.1) (hinv e'.1) (hgroups e' he')
  constructor
  · intro hsame
    refine ⟨fun e' he' _ => (hidle e' he').mp (hsame e' he'), ?_⟩
    refine pairwise_of_forall_mem_list (fun e₁ _ e₂ he₂ _ => ?_)
    exact (hidle e₂ he₂).mp (hsame e₂ he₂)
  · rintro ⟨hall, -⟩ e' he'
    exact (hidle e' he').mpr (hall e' he' hstops)

theorem pairwise_idleAfterStop_congr (config : StateSection) (at_ : Manager.Circumstances)
    {m' : Manager}
    (h : ∀ e ∈ groups, m'.cells e.1 = m.cells e.1) :
    groups.Pairwise (IdleAfterStop config at_ m) ↔
      groups.Pairwise (IdleAfterStop config at_ m') := by
  refine iff_of_mem (fun {e₁ e₂} he₁ he₂ => ?_)
  unfold IdleAfterStop
  rw [h e₁ he₁, h e₂ he₂]

theorem appendManyLoop_isolated_iff (config : StateSection) (at_ : Manager.Circumstances)
    (hnodup : (groups.map Prod.fst).Nodup)
    (hgroups : ∀ e ∈ groups, ∀ o ∈ e.2, o.cameraId = e.1) (total : CommitResult)
    (hinv : ManagerInv m) :
    (∀ e ∈ groups,
      SameFacts ((appendManyLoop config at_ groups total m).2.cells e.1)
        ((m.cells e.1).appendPartition config (at_ e.1) e.1 e.2).2) ↔
      groups.Pairwise (IdleAfterStop config at_ m) := by
  induction groups generalizing total m with
  | nil => simp
  | cons e rest ih =>
    rw [map_cons, nodup_cons] at hnodup
    obtain ⟨hfirst, hrest⟩ := hnodup
    have hcamera := hgroups e (by simp)
    have hgroups' := fun e' he' => hgroups e' (mem_cons_of_mem _ he')
    obtain ⟨total', hloop⟩ := appendManyLoop_cons config at_ e rest total m
    have hself : (m.appendPartition config at_ e.1 e.2).2.cells e.1 =
        ((m.cells e.1).appendPartition config (at_ e.1) e.1 e.2).2 :=
      put_cells_self _ _ _
    have hother : ∀ e' ∈ rest,
        (m.appendPartition config at_ e.1 e.2).2.cells e'.1 = m.cells e'.1 := by
      intro e' he'
      refine put_cells_of_ne m _ ?_
      intro heq
      exact hfirst (mem_map.mpr ⟨e', he', heq⟩)
    have hstops : leavesLoop (m.appendPartition config at_ e.1 e.2).1 = true ↔
        (m.cells e.1).Stops config (at_ e.1) e.1 e.2 :=
      (m.cells e.1).stops_iff config (at_ e.1) (hinv e.1) hcamera
    rw [hloop, forall_mem_cons, pairwise_cons]
    by_cases hstop : leavesLoop (m.appendPartition config at_ e.1 e.2).1 = true
    · -- The rest is not looked at: each of it must be idle.
      rw [if_pos hstop, hself, and_iff_right SameFacts.rfl,
        ← isolated_after_stop config at_ hgroups' hinv (hstops.mp hstop)]
      refine forall₂_congr (fun e' he' => ?_)
      rw [hother e' he']
    · -- The first camera constrains nobody, and the rest runs on its own.
      have hnext := @ih (m.appendPartition config at_ e.1 e.2).2 hrest hgroups' total'
        (hinv.appendPartition config at_ hcamera)
      have hnone : ∀ e' ∈ rest, IdleAfterStop config at_ m e e' :=
        fun e' _ hstops' => absurd (hstops.mpr hstops') hstop
      rw [if_neg hstop, appendManyLoop_frame config at_ hfirst, hself,
        and_iff_right SameFacts.rfl, and_iff_right hnone,
        pairwise_idleAfterStop_congr config at_ hother, ← hnext]
      refine forall₂_congr (fun e' he' => ?_)
      rw [hother e' he']

variable {observations : List Observation}

theorem mem_entries_byCamera : (cameraId, batch) ∈ (byCamera observations).entries ↔
      cameraId ∈ observations.map (·.cameraId) ∧
        batch = observations.filter (·.cameraId = cameraId) := by
  rw [← OrderedDict.get?_eq_some_iff, get?_byCamera]
  by_cases hmem : cameraId ∈ observations.map (·.cameraId)
  · rw [if_pos hmem, Option.some.injEq]
    exact ⟨fun h => ⟨hmem, h.symm⟩, fun h => h.2.symm⟩
  · rw [if_neg hmem]
    exact ⟨fun h => (by cases h), fun h => absurd h.1 hmem⟩

theorem append_alone (config : StateSection) (at_ : Manager.Circumstances) (m : Manager)
    (hmem : cameraId ∈ observations.map (·.cameraId)) :
    (m.append config at_ (observations.filter (·.cameraId = cameraId))).2.cells cameraId =
      ((m.cells cameraId).appendPartition config (at_ cameraId) cameraId
        (observations.filter (·.cameraId = cameraId))).2 := by
  have hne : observations.filter (·.cameraId = cameraId) ≠ [] := by
    obtain ⟨o, ho, hcamera⟩ := mem_map.mp hmem
    refine ne_nil_of_mem (mem_filter.mpr ⟨ho, ?_⟩)
    exact decide_eq_true hcamera
  have hcamera : ∀ o ∈ observations.filter (·.cameraId = cameraId), o.cameraId = cameraId :=
    fun o ho => of_decide_eq_true (mem_filter.mp ho).2
  rw [append_eq_appendPartition config at_ hne hcamera]
  exact put_cells_self _ _ _

theorem byCamera_pairwise_of_one (h : ∀ o ∈ observations, o.cameraId = cameraId)
    (r : CameraId × List Observation → CameraId × List Observation → Prop) :
    (byCamera observations).entries.Pairwise r := by
  have hone : ∀ e ∈ (byCamera observations).entries, e.1 = cameraId := by
    intro e he
    obtain ⟨o, ho, hcamera⟩ := mem_map.mp (mem_entries_byCamera.mp he).1
    rw [← hcamera]
    exact h o ho
  have hnodup := (byCamera observations).nodupKeys
  unfold List.Nodup at hnodup
  rw [pairwise_map] at hnodup
  refine hnodup.imp_of_mem (fun he he' hne => ?_)
  exact absurd ((hone _ he).trans (hone _ he').symm) hne

/-- In every reachable manager, an append of a mixed batch leaves each camera of the batch
    with the log contents and the partition its own sub-batch would have left it with, if
    and only if every camera behind one that takes the loop out is idle. -/
theorem append_isolated_iff (config : StateSection) {m : Manager} (hreach : Reachable config m)
    (at_ : Manager.Circumstances) (observations : List Observation) :
    (∀ cameraId ∈ observations.map (·.cameraId),
      SameFacts ((m.append config at_ observations).2.cells cameraId)
        ((m.append config at_ (observations.filter (·.cameraId = cameraId))).2.cells
          cameraId)) ↔
      (byCamera observations).entries.Pairwise (IdleAfterStop config at_ m) := by
  cases observations with
  | nil => exact ⟨fun _ => nil, fun _ c hc => (by cases hc)⟩
  | cons o rest =>
    by_cases hall : rest.all (fun o' => o'.cameraId = o.cameraId) = true
    · have hcamera : ∀ o' ∈ o :: rest, o'.cameraId = o.cameraId := by
        intro o' ho'
        rcases mem_cons.mp ho' with rfl | ho'
        · rfl
        · simpa using all_eq_true.mp hall o' ho'
      refine ⟨fun _ => byCamera_pairwise_of_one hcamera _, fun _ cameraId hmem => ?_⟩
      have hfilter : (o :: rest).filter (·.cameraId = cameraId) = o :: rest := by
        obtain ⟨o', ho', heq⟩ := mem_map.mp hmem
        rw [filter_eq_self]
        intro o'' ho''
        rw [decide_eq_true_eq, ← heq, hcamera o' ho', hcamera o'' ho'']
      rw [hfilter]
      exact SameFacts.rfl
    · have happend : m.append config at_ (o :: rest) =
          appendManyLoop config at_ (byCamera (o :: rest)).entries {} m := by
        exact if_neg hall
      have hgroups : ∀ e ∈ (byCamera (o :: rest)).entries, ∀ o' ∈ e.2,
          o'.cameraId = e.1 := by
        intro e he o' ho'
        rw [(mem_entries_byCamera.mp he).2, mem_filter] at ho'
        exact of_decide_eq_true ho'.2
      rw [happend, ← appendManyLoop_isolated_iff config at_
        (byCamera (o :: rest)).nodupKeys hgroups {} hreach.inv]
      constructor
      · intro hsame e he
        obtain ⟨hmem, hbatch⟩ := mem_entries_byCamera.mp he
        have hfacts := hsame e.1 hmem
        rw [append_alone config at_ m hmem, ← hbatch] at hfacts
        exact hfacts
      · intro hsame cameraId hmem
        rw [append_alone config at_ m hmem]
        exact hsame (cameraId, _) (mem_entries_byCamera.mpr ⟨hmem, rfl⟩)

def southBlind : Observation := blindnessReport "observation-south" "south" ⟨0⟩ (by decide)

/-- Over a log that raises nowhere the camera "south" gets its facts, after the report of the
    camera "north". -/
theorem append_isolated_quiet :
    SameFacts
      ((new.append .defaults quiet [northBlind, southBlind]).2.cells "south")
      ((new.append .defaults quiet
        ([northBlind, southBlind].filter (·.cameraId = "south"))).2.cells "south") := by
  refine (append_isolated_iff .defaults ⟨[], rfl⟩ quiet _).mpr ?_ "south" (by decide +kernel)
  have hentries : (byCamera [northBlind, southBlind]).entries =
      [("north", [northBlind]), ("south", [southBlind])] := rfl
  rw [hentries, pairwise_pair]
  rintro ⟨-, ⟨hfault, -⟩ | ⟨-, o, ho, -, -, -, hbad⟩⟩
  · cases hfault
  · rw [mem_singleton.mp ho] at hbad
    exact absurd (by decide) hbad

def northDown : Manager.Circumstances :=
  fun cameraId => { fault := if cameraId = "north" then some "disk" else none }

/-- The camera "south" loses its report to the log of the camera "north". -/
theorem append_loses_report_behind_fault :
    Reachable .defaults new ∧
    ¬ ∀ cameraId ∈ [northBlind, southBlind].map (·.cameraId),
      SameFacts
        ((new.append .defaults northDown [northBlind, southBlind]).2.cells cameraId)
        ((new.append .defaults northDown
          ([northBlind, southBlind].filter (·.cameraId = cameraId))).2.cells cameraId) := by
  refine ⟨⟨[], rfl⟩, fun hsame => ?_⟩
  have hsouth := (hsame "south" (by decide +kernel)).1
  exact absurd (congrArg List.length hsouth) (by decide +kernel)

end VisionOs.State
