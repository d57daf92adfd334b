/-
  Rebuilding a camera against its live partition.  The replay projects a prefix of the log, at
  most `defaultLimit` records; the two agree exactly when that prefix is what was projected.
-/
import VisionOs.State.Watermark
import Mathlib.Data.List.DropRight

namespace VisionOs.State

open Core Lib Synthesis List LogPartition Manager Cell

/-! ## Numbered observations -/

variable {observations : List Observation}

theorem picks_eq_all {duplicates seen : List ObservationId}
    (h : ∀ o ∈ observations, o.observationId ∉ duplicates ∧ o.observationId ∉ seen)
    (position : Int) :
    picks duplicates seen position observations = picks [] [] position observations := by
  induction observations generalizing position with
  | nil => rfl
  | cons o rest ih =>
    have ho := h o (by simp)
    have hrest := ih (fun o' ho' => h o' (mem_cons_of_mem _ ho')) (position + 1)
    simp only [picks, ho.1, ho.2, not_mem_nil, or_self, if_false, hrest]

theorem picks_append (position : Int) (xs ys : List Observation) :
    picks [] [] position (xs ++ ys) =
      picks [] [] position xs ++ picks [] [] (position + xs.length) ys := by
  induction xs generalizing position with
  | nil => simp [picks]
  | cons o rest ih =>
    simp only [cons_append, picks, not_mem_nil, or_self, if_false, ih,
      length_cons]
    have hposition : position + 1 + rest.length = position + (rest.length + 1 : Nat) := by
      push_cast
      omega
    rw [hposition]

variable {position : Int}

theorem getLast?_picks (hne : observations ≠ []) :
    (picks [] [] position observations).getLast?.map Prod.fst =
      some (position + observations.length) := by
  cases hlast : (picks [] [] position observations).getLast? with
  | none =>
    have hnil := congrArg (map Prod.snd) (getLast?_eq_none_iff.mp hlast)
    rw [map_snd_picks] at hnil
    simp at hnil
    exact absurd hnil hne
  | some e =>
    obtain ⟨before, after, hsplit, hposition, hafter⟩ := picks_getLast hlast
    have hnil : after = [] := by
      rw [eq_nil_iff_forall_not_mem]
      intro o ho
      rcases hafter o ho with h | h
      · cases h
      · cases h
    rw [hsplit, hnil, Option.map_some, hposition, length_append, length_singleton]
    push_cast
    rw [add_assoc]

variable {cameraId : CameraId} {p : CameraPartition}

theorem logPosition_foldl_picks (bounds : ProjectionBounds)
    (hinv : PartitionInv cameraId p) (hcamera : ∀ o ∈ observations, o.cameraId = cameraId)
    (hok : ∀ o ∈ observations, Absorbable o) (hne : observations ≠ []) :
    ((picks [] [] position observations).foldl (absorb bounds) p).logPosition =
      position + observations.length := by
  have hposition := (foldl_absorb_spec bounds hinv
    (fun e he => hcamera e.2 (mem_of_mem_picks he).1)
    (fun e he => hok e.2 (@mem_of_mem_picks [] [] position _ _ he).1)).2.1
  rw [hposition, getLast?_picks hne]
  rfl

theorem foldl_absorb_sameWorld (bounds : ProjectionBounds)
    {q : CameraPartition} {todo : List (Int × Observation)} (hsame : SameWorld p q)
    (hinv : PartitionInv cameraId p) (hcamera : ∀ e ∈ todo, e.2.cameraId = cameraId)
    (hok : ∀ e ∈ todo, Absorbable e.2) :
    SameWorld (todo.foldl (absorb bounds) p) (todo.foldl (absorb bounds) q) := by
  induction todo generalizing p q with
  | nil => exact hsame
  | cons e rest ih =>
    obtain ⟨⟨outcome, hproject, hpartition⟩, habsorbed⟩ :=
      absorb_spec bounds e hinv (hcamera e (by simp)) (hok e (by simp))
    obtain ⟨outcome', hproject', hnext⟩ := project_sameWorld hsame hproject
    have hq : absorb bounds q e = outcome'.partition := by
      unfold absorb
      rw [hproject']
    rw [hpartition, ← hq] at hnext
    exact ih hnext habsorbed.inv (fun e' he' => hcamera e' (mem_cons_of_mem _ he'))
      (fun e' he' => hok e' (mem_cons_of_mem _ he'))

theorem absorb_status (bounds : ProjectionBounds) (e : Int × Observation)
    (h : p.status.isSome = true) : (absorb bounds p e).status.isSome = true := by
  unfold absorb project
  by_cases hcamera : e.2.cameraId ≠ p.cameraId
  · rw [if_pos hcamera]
    exact h
  rw [if_neg hcamera]
  by_cases hcov : e.2.observationType = .coverage
  · rw [if_pos hcov]
    unfold projectCoverage
    cases e.2.coverage with
    | none => exact h
    | some window => exact h
  · rw [if_neg hcov]
    cases e.2.objectId with
    | none => exact h
    | some objectId =>
      unfold projectObject
      cases hupdated : apply (p.objects.get? objectId) objectId e.2 bounds with
      | error exc =>
        simp only [hupdated]
        exact h
      | ok updated =>
        simp only [hupdated]
        rfl

theorem foldl_absorb_status (bounds : ProjectionBounds)
    (todo : List (Int × Observation)) (h : p.status.isSome = true) :
    (todo.foldl (absorb bounds) p).status.isSome = true := by
  induction todo generalizing p with
  | nil => exact h
  | cons e rest ih => exact ih (absorb_status bounds e h)

theorem sameWorld_fresh (cameraId : CameraId) :
    SameWorld { cameraId := cameraId } (freshPartition cameraId) :=
  ⟨rfl, rfl, rfl, rfl, rfl, rfl⟩

/-! ## Runs of appends of new observations -/

def skips (batch : List Observation) : Bool := batch.isEmpty || batch.any (¬ Absorbable ·)

variable {batch : List Observation}

theorem not_skips (h : ¬ skips batch = true) : batch ≠ [] ∧ ∀ o ∈ batch, Absorbable o := by
  unfold skips at h
  simp only [Bool.or_eq_true, List.isEmpty_iff, List.any_eq_true, decide_eq_true_eq, not_or,
    not_exists, not_and, not_not] at h
  exact h

theorem eq_nil_of_skips (h : skips batch = true) (hok : ∀ o ∈ batch, Absorbable o) :
    batch = [] := by
  unfold skips at h
  simp only [Bool.or_eq_true, List.isEmpty_iff, List.any_eq_true, decide_eq_true_eq] at h
  rcases h with h | ⟨o, ho, hno⟩
  · exact h
  · exact absurd (hok o ho) hno

def projected (batches : List (List Observation)) : List (List Observation) :=
  batches.rdropWhile skips

variable {batches : List (List Observation)}

theorem flatten_projected (hok : ∀ o ∈ batches.flatten, Absorbable o) :
    (projected batches).flatten = batches.flatten := by
  induction batches using reverseRecOn with
  | nil => rfl
  | append_singleton batches batch ih =>
    have hbatches : ∀ o ∈ batches.flatten, Absorbable o := by
      intro o ho
      refine hok o ?_
      rw [flatten_append]
      exact mem_append_left _ ho
    unfold projected at ih ⊢
    by_cases hskip : skips batch = true
    · have hbatch : batch = [] := by
        refine eq_nil_of_skips hskip (fun o ho => hok o ?_)
        rw [flatten_append, mem_append]
        exact .inr (by simpa using ho)
      rw [rdropWhile_concat_pos _ _ _ hskip, ih hbatches, hbatch]
      simp
    · rw [rdropWhile_concat_neg _ _ _ hskip]

structure Appended (config : StateSection) (cameraId : CameraId)
    (batches : List (List Observation)) (cell : Cell) : Prop where
  appendOnly : AppendOnly cameraId cell
  records : cell.log.records = batches.flatten
  isLive : batches.flatten ≠ [] → cell.partition.isSome = true
  position : (cell.partitionOf cameraId).logPosition = (projected batches).flatten.length
  partition : (∀ o ∈ (projected batches).flatten, Absorbable o) →
    cell.partitionOf cameraId =
      (picks [] [] 0 (projected batches).flatten).foldl (absorb config.bounds)
        (freshPartition cameraId)

theorem Appended.empty (config : StateSection) (cameraId : CameraId) :
    Appended config cameraId [] {} where
  appendOnly := AppendOnly.empty cameraId
  records := rfl
  isLive := fun h => absurd rfl h
  position := rfl
  partition := fun _ => rfl

variable {cell : Cell}

theorem AppendOnly.todo_of_new (h : AppendOnly cameraId cell)
    (hdistinct : (batch.map (·.observationId)).Nodup)
    (hnew : ∀ o ∈ batch, o.observationId ∉ cell.log.ids) :
    (cell.log.append batch).1.records = cell.log.records ++ batch ∧
    cell.todo batch = picks [] [] cell.log.records.length batch := by
  have hrecords : (cell.log.append batch).1.records = cell.log.records ++ batch := by
    rw [append_records, Dedup.fresh_eq_self hdistinct hnew]
  refine ⟨hrecords, ?_⟩
  unfold todo appended
  rw [picks_eq_all, append_position, hrecords, length_append]
  · push_cast
    rw [add_sub_cancel_right]
  · intro o ho
    rw [append_duplicates, Dedup.skipped_eq_nil hdistinct hnew]
    exact ⟨not_mem_nil, fun hseen => hnew o ho (h.seen _ hseen)⟩

theorem AppendOnly.append_new (config : StateSection) (h : AppendOnly cameraId cell)
    (hcamera : ∀ o ∈ batch, o.cameraId = cameraId)
    (hdistinct : (batch.map (·.observationId)).Nodup)
    (hnew : ∀ o ∈ batch, o.observationId ∉ cell.log.ids) :
    (cell.appendPartition config {} cameraId batch).2.log.records =
        cell.log.records ++ batch ∧
    (cell.appendPartition config {} cameraId batch).2.partition =
      some (if ∀ o ∈ batch, Absorbable o then
          (picks [] [] cell.log.records.length batch).foldl (absorb config.bounds)
            (cell.partitionOf cameraId)
        else cell.partitionOf cameraId) := by
  obtain ⟨hrecords, htodo⟩ := h.todo_of_new hdistinct hnew
  have hall : (∀ e ∈ cell.todo batch, Absorbable e.2) ↔ ∀ o ∈ batch, Absorbable o := by
    constructor
    · intro hok o ho
      have hmem := h.mem_todo.mpr ⟨ho, hnew o ho, by
        rw [Nat.lt_succ_iff]
        exact nodup_iff_count_le_one.mp hdistinct _⟩
      obtain ⟨e, he, rfl⟩ := mem_map.mp hmem
      exact hok e he
    · intro hok e he
      exact hok e.2 (mem_of_mem_picks he).1
  rcases appendPartition_quiet config h.inv h.pending h.isOpen hcamera with
    ⟨hno, message, seen, -, heq⟩ | ⟨hok, result, -, heq⟩
  · rw [hall] at hno
    rw [heq, if_neg hno]
    exact ⟨hrecords, rfl⟩
  · rw [hall] at hok
    rw [heq, if_pos hok, ← htodo]
    exact ⟨hrecords, rfl⟩

theorem partition_of_skips {bounds : ProjectionBounds} (h : skips batch = true) :
    (if ∀ o ∈ batch, Absorbable o then
        (picks [] [] position batch).foldl (absorb bounds) p
      else p) = p := by
  split
  · rename_i hok
    rw [eq_nil_of_skips h hok]
    rfl
  · rfl

theorem Appended.append (config : StateSection) (h : Appended config cameraId batches cell)
    (hcamera : ∀ o ∈ batch, o.cameraId = cameraId)
    (hdistinct : (batch.map (·.observationId)).Nodup)
    (hnew : ∀ o ∈ batch, o.observationId ∉ cell.log.ids) :
    Appended config cameraId (batches ++ [batch])
      (cell.appendPartition config {} cameraId batch).2 := by
  obtain ⟨hrecords, hpartition⟩ := h.appendOnly.append_new config hcamera hdistinct hnew
  have hflatten : (batches ++ [batch]).flatten = batches.flatten ++ batch := by simp
  have hof := partitionOf_of_some hpartition cameraId
  refine ⟨h.appendOnly.appendPartition config hcamera, ?_, fun _ => ?_, ?_, ?_⟩
  · rw [hrecords, h.records, hflatten]
  · rw [hpartition]
    rfl
  · by_cases hskip : skips batch = true
    · unfold projected
      rw [rdropWhile_concat_pos _ _ _ hskip, hof, partition_of_skips hskip]
      exact h.position
    obtain ⟨hne, hok⟩ := not_skips hskip
    unfold projected
    rw [rdropWhile_concat_neg _ _ _ hskip, hof, if_pos hok, hflatten,
      logPosition_foldl_picks config.bounds h.appendOnly.inv.partitionOf hcamera hok hne,
      h.records, length_append]
    push_cast
    rfl
  · intro hall
    by_cases hskip : skips batch = true
    · unfold projected at hall ⊢
      rw [rdropWhile_concat_pos _ _ _ hskip] at hall ⊢
      rw [hof, partition_of_skips hskip]
      exact h.partition hall
    · have hok := (not_skips hskip).2
      unfold projected at hall ⊢
      rw [rdropWhile_concat_neg _ _ _ hskip, hflatten] at hall ⊢
      have hbefore : ∀ o ∈ batches.flatten, Absorbable o :=
        fun o ho => hall o (mem_append_left _ ho)
      -- So far everything was projected, at its own position.
      have hlive := h.partition (by rwa [flatten_projected hbefore])
      rw [flatten_projected hbefore] at hlive
      rw [hof, if_pos hok, hlive, h.records, picks_append, foldl_append, zero_add]

variable {config : StateSection}

theorem Appended.append_nil (h : Appended config cameraId batches cell) :
    Appended config cameraId (batches ++ [[]]) cell := by
  have hflatten : (batches ++ [[]]).flatten = batches.flatten := by simp
  have hprojected : projected (batches ++ [[]]) = projected batches :=
    rdropWhile_concat_pos _ _ _ rfl
  refine ⟨h.appendOnly, ?_, ?_, ?_, ?_⟩
  · rw [hflatten]
    exact h.records
  · rw [hflatten]
    exact h.isLive
  · rw [hprojected]
    exact h.position
  · rw [hprojected]
    exact h.partition

def Batch.lists {cameraId : CameraId} (batches : List (Batch cameraId)) : List (List Observation) :=
  batches.map Subtype.val

/-- The manager after a run of appends, from a new one. -/
def Manager.afterAppends (config : StateSection) {cameraId : CameraId}
    (batches : List (Batch cameraId)) : Manager :=
  Runs.run (appendStep config cameraId) .new batches

theorem appended_run (config : StateSection) {batches : List (Batch cameraId)}
    (hdistinct : ((Batch.lists batches).flatten.map (·.observationId)).Nodup) :
    Appended config cameraId (Batch.lists batches)
      ((afterAppends config batches).cells cameraId) := by
  unfold afterAppends
  induction batches using reverseRecOn with
  | nil => exact Appended.empty config cameraId
  | append_singleton batches batch ih =>
    have hlists : Batch.lists (batches ++ [batch]) = Batch.lists batches ++ [batch.1] := by
      unfold Batch.lists
      rw [map_append]
      rfl
    rw [hlists] at hdistinct ⊢
    rw [flatten_append, map_append, nodup_append] at hdistinct
    obtain ⟨hbefore, hbatch, hdisjoint⟩ := hdistinct
    have hrun := ih hbefore
    rw [Runs.run_append, Runs.run_cons, Runs.run_nil]
    by_cases hne : batch.1 = []
    · unfold appendStep at hrun ⊢
      rw [hne]
      exact hrun.append_nil
    · rw [appendStep_cell config _ hne]
      refine hrun.append config batch.2 (by simpa using hbatch) ?_
      intro o ho hold
      rw [mem_ids, hrun.records] at hold
      exact hdisjoint _ hold _ (mem_map.mpr ⟨o, by simpa using ho, rfl⟩) rfl

/-! ## The rebuild -/

/-- A rebuild of a live partition succeeds, and what it swaps in shows what the live one
    showed, one version on. -/
def RebuildReproduces (live : Option CameraPartition) (result : Raises Cell.RebuildHandle)
    (rebuilt : Option CameraPartition) : Prop :=
  ∀ p, live = some p →
    (∃ handle, result = .ok handle) ∧
    ∃ q, rebuilt = some q ∧ q.objects = p.objects ∧ q.regions = p.regions ∧
      q.status = p.status ∧ q.observability = p.observability ∧
      q.logPosition = p.logPosition ∧ q.version = p.version + 1

/-- The replay reads exactly what was projected. -/
def RebuildReads (batches : List (List Observation)) : Prop :=
  (∀ o ∈ batches.flatten.take defaultLimit, Absorbable o) ∧
  (batches.flatten.length ≤ defaultLimit ∨
    (projected batches).flatten.length = defaultLimit)

theorem replayed_start (cell : Cell) :
    cell.replayed 0 = cell.log.records.take defaultLimit :=
  read_prefix _ _

theorem RebuildReads.flatten_projected (h : RebuildReads batches) :
    (projected batches).flatten = batches.flatten.take defaultLimit := by
  obtain ⟨hok, hall | hends⟩ := h
  · rw [take_of_length_le hall] at hok ⊢
    exact State.flatten_projected hok
  · obtain ⟨rest, hrest⟩ : projected batches <+: batches := rdropWhile_prefix _ _
    have hflatten : batches.flatten = (projected batches).flatten ++ rest.flatten := by
      rw [← flatten_append, hrest]
    rw [hflatten, ← hends, take_left]

theorem shadow_logPosition (config : StateSection)
    (hinv : CellInv cameraId cell) (hok : ∀ o ∈ cell.replayed 0, Absorbable o) :
    (cell.shadow config cameraId 0).logPosition = (cell.replayed 0).length := by
  unfold shadow
  by_cases hne : cell.replayed 0 = []
  · rw [hne]
    rfl
  · have hcamera : ∀ o ∈ cell.replayed 0, o.cameraId = cameraId :=
      fun o ho => hinv.records o (mem_read ho)
    rw [logPosition_foldl_picks config.bounds (emptyPartition_inv cameraId) hcamera hok hne,
      zero_add]

theorem Appended.replayed (h : Appended config cameraId batches cell) :
    cell.replayed 0 = batches.flatten.take defaultLimit := by
  rw [replayed_start, h.records]

theorem Appended.reads_of_reproduces (h : Appended config cameraId batches cell)
    (hreproduces : RebuildReproduces cell.partition (cell.rebuild config cameraId 0).1
      (cell.rebuild config cameraId 0).2.partition) :
    RebuildReads batches := by
  have hinv := h.appendOnly.inv
  cases hlive : cell.partition with
  | none =>
    have hnil : batches.flatten = [] := by
      by_contra hne
      have hsome := h.isLive hne
      rw [hlive] at hsome
      cases hsome
    unfold RebuildReads
    rw [hnil]
    exact ⟨fun o ho => by simp at ho, .inl (Nat.zero_le _)⟩
  | some live =>
    obtain ⟨⟨handle, hresult⟩, rebuilt, hrebuilt, -, -, -, -, hposition, -⟩ :=
      hreproduces live hlive
    rcases rebuild_outcome config 0 hinv with ⟨hok, -, handle', heq⟩ | ⟨-, message, heq⟩
    · rw [heq] at hrebuilt
      cases hrebuilt
      -- The watermark tells how many records were read.
      have hread : (cell.shadow config cameraId 0).logPosition = live.logPosition := hposition
      rw [shadow_logPosition config hinv hok, ← partitionOf_of_some hlive cameraId,
        h.position, h.replayed, length_take] at hread
      refine ⟨h.replayed ▸ hok, ?_⟩
      omega
    · rw [heq] at hresult
      cases hresult

theorem Appended.reproduces_of_reads
    (h : Appended config cameraId batches cell) (hreads : RebuildReads batches) :
    RebuildReproduces cell.partition (cell.rebuild config cameraId 0).1
      (cell.rebuild config cameraId 0).2.partition := by
  have hinv := h.appendOnly.inv
  intro live hlive
  have hprojected := hreads.flatten_projected
  have hpartition := h.partition (by rw [hprojected]; exact hreads.1)
  rw [partitionOf_of_some hlive, hprojected, ← h.replayed] at hpartition
  rcases rebuild_outcome config 0 hinv with ⟨hok, -, handle, heq⟩ | ⟨hno, -⟩
  · have hsame : SameWorld (cell.shadow config cameraId 0) live := by
      rw [hpartition]
      exact foldl_absorb_sameWorld config.bounds (sameWorld_fresh cameraId)
        (emptyPartition_inv cameraId)
        (fun e he => hinv.records e.2 (mem_read (mem_of_mem_picks he).1))
        (fun e he => hok e.2 (@mem_of_mem_picks [] [] 0 _ _ he).1)
    have hsome : live.status.isSome = true := by
      rw [hpartition]
      exact foldl_absorb_status config.bounds _ rfl
    rw [heq, hlive]
    refine ⟨⟨handle, rfl⟩, _, rfl, hsame.objects, hsame.regions, ?_, hsame.observability,
      hsame.logPosition, rfl⟩
    obtain ⟨status, hstatus⟩ := Option.isSome_iff_exists.mp hsome
    have hget := hsame.status
    show (cell.shadow config cameraId 0).status.or live.status = live.status
    rw [hstatus] at hget ⊢
    -- A shadow that only saw coverage has no status of its own.
    cases hshadow : (cell.shadow config cameraId 0).status with
    | none => rfl
    | some status' =>
      rw [hshadow] at hget
      exact congrArg some hget
  · exact absurd (h.replayed ▸ hreads.1) hno

theorem Appended.rebuild_iff (h : Appended config cameraId batches cell) :
    RebuildReproduces cell.partition (cell.rebuild config cameraId 0).1
        (cell.rebuild config cameraId 0).2.partition ↔
      RebuildReads batches :=
  ⟨h.reads_of_reproduces, h.reproduces_of_reads⟩

theorem rebuild_cells (config : StateSection) (cameraId : CameraId) (fromPosition : Int)
    (m : Manager) :
    (m.rebuild config cameraId fromPosition).1 =
        ((m.cells cameraId).rebuild config cameraId fromPosition).1 ∧
    (m.rebuild config cameraId fromPosition).2.cells cameraId =
        ((m.cells cameraId).rebuild config cameraId fromPosition).2 :=
  ⟨rfl, put_cells_self _ _ _⟩

/-- After any run of appends of observations with distinct ids to one camera, a rebuild
    reproduces the live partition if and only if it reads what was projected. -/
theorem rebuild_reproduces_iff (config : StateSection) {cameraId : CameraId}
    (batches : List (Batch cameraId))
    (hdistinct : ((Batch.lists batches).flatten.map (·.observationId)).Nodup) :
    RebuildReproduces ((afterAppends config batches).cells cameraId).partition
        ((afterAppends config batches).rebuild config cameraId 0).1
        (((afterAppends config batches).rebuild config cameraId 0).2.cells
          cameraId).partition ↔
      RebuildReads (Batch.lists batches) := by
  rw [(rebuild_cells config cameraId 0 _).1, (rebuild_cells config cameraId 0 _).2]
  exact (appended_run config hdistinct).rebuild_iff

def numberedReport (n : Nat) : Observation :=
  blindnessReport (String.ofList (replicate (n + 1) 'a')) "north" ⟨0⟩ (by
    intro hempty
    have hlist := String.ofList_injective (hempty.trans (rfl : "" = String.ofList []))
    cases hlist)

/-- One batch of as many reports of the camera "north". -/
def numberedBatch (n : Nat) : Batch "north" :=
  ⟨(range n).map numberedReport, by
    intro o ho
    obtain ⟨k, -, rfl⟩ := mem_map.mp ho
    rfl⟩

theorem numberedBatch_distinct (n : Nat) :
    ((Batch.lists [numberedBatch n]).flatten.map (·.observationId)).Nodup := by
  have hflatten : (Batch.lists [numberedBatch n]).flatten = (range n).map numberedReport :=
    append_nil _
  rw [hflatten, map_map]
  refine List.Nodup.map ?_ nodup_range
  intro k k' hid
  have hlength := congrArg length (String.ofList_injective hid)
  simpa using hlength

theorem numberedBatch_absorbable {n : Nat} :
    ∀ o ∈ (Batch.lists [numberedBatch n]).flatten, Absorbable o := by
  intro o ho
  have hmem : o ∈ (numberedBatch n).1 := by simpa [Batch.lists] using ho
  obtain ⟨k, -, rfl⟩ := mem_map.mp hmem
  intro hobject
  cases hobject

/-- Two reports are rebuilt as they were. -/
theorem rebuild_reproduces_two_reports :
    RebuildReproduces
      ((afterAppends .defaults [numberedBatch 2]).cells "north").partition
      ((afterAppends .defaults [numberedBatch 2]).rebuild .defaults "north" 0).1
      (((afterAppends .defaults [numberedBatch 2]).rebuild .defaults "north" 0).2.cells
        "north").partition := by
  refine (rebuild_reproduces_iff .defaults _ (numberedBatch_distinct 2)).mpr ⟨?_, ?_⟩
  · exact fun o ho => numberedBatch_absorbable o (mem_of_mem_take ho)
  · exact .inl (by decide)

/-- Of 1001 reports the rebuild reads the first thousand, and the partition it swaps in is
    behind the live one. -/
theorem rebuild_misses_last_report :
    ((Batch.lists [numberedBatch 1001]).flatten.map (·.observationId)).Nodup ∧
    ¬ RebuildReproduces
      ((afterAppends .defaults [numberedBatch 1001]).cells "north").partition
      ((afterAppends .defaults [numberedBatch 1001]).rebuild .defaults "north" 0).1
      (((afterAppends .defaults [numberedBatch 1001]).rebuild .defaults "north" 0).2.cells
        "north").partition := by
  have hdistinct := numberedBatch_distinct 1001
  refine ⟨hdistinct, fun hreproduces => ?_⟩
  rw [(rebuild_cells .defaults "north" 0 _).1, (rebuild_cells .defaults "north" 0 _).2]
    at hreproduces
  have hreads := (appended_run .defaults hdistinct).rebuild_iff.mp hreproduces
  have hlength : (Batch.lists [numberedBatch 1001]).flatten.length = 1001 := by
    simp [Batch.lists, numberedBatch]
  rcases hreads.2 with hshort | hends
  · rw [hlength] at hshort
    exact absurd hshort (by decide)
  · rw [flatten_projected numberedBatch_absorbable, hlength] at hends
    exact absurd hends (by decide)

end VisionOs.State
