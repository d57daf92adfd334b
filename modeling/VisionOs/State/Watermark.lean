/-
  The projection watermark.  The loop computes positions as if every observation of the batch had
  consumed a slot of the log, so a batch is safe when it ends with an observation that is new and
  occurs once.
-/
import VisionOs.State.Reachable

namespace VisionOs.State

open Core Lib Synthesis List LogPartition Manager Dedup

variable {e : Int × Observation}

theorem picks_getLast {duplicates seen : List ObservationId} {position : Int}
    {observations : List Observation}
    (h : (picks duplicates seen position observations).getLast? = some e) :
    ∃ before after, observations = before ++ e.2 :: after ∧
      e.1 = position + before.length + 1 ∧
      ∀ o ∈ after, o.observationId ∈ duplicates ∨ o.observationId ∈ seen := by
  induction observations generalizing position with
  | nil => cases h
  | cons o rest ih =>
    by_cases hskip : o.observationId ∈ duplicates ∨ o.observationId ∈ seen
    · simp only [picks, hskip, if_true] at h
      obtain ⟨before, after, hsplit, hposition, hafter⟩ := ih h
      refine ⟨o :: before, after, by rw [hsplit]; rfl, ?_, hafter⟩
      rw [hposition, length_cons]
      push_cast
      omega
    · simp only [picks, hskip, if_false] at h
      cases hrest : picks duplicates seen (position + 1) rest with
      | nil =>
        rw [hrest] at h
        cases h
        refine ⟨[], rest, rfl, by simp, fun o' ho' => ?_⟩
        -- Nothing of the rest is picked.
        by_contra hno
        have hmem : o' ∈ (picks duplicates seen (position + 1) rest).map Prod.snd := by
          rw [map_snd_picks, mem_filter]
          exact ⟨ho', by simpa [or_iff_not_imp_left] using hno⟩
        rw [hrest] at hmem
        cases hmem
      | cons e' rest' =>
        rw [hrest, getLast?_cons_cons, ← hrest] at h
        obtain ⟨before, after, hsplit, hposition, hafter⟩ := ih h
        refine ⟨o :: before, after, by rw [hsplit]; rfl, ?_, hafter⟩
        rw [hposition, length_cons]
        push_cast
        omega

variable {o : Observation}

theorem append_slot {log : LogPartition} {before after : List Observation}
    (hnew : o.observationId ∉ log.ids)
    (honce : ((before ++ o :: after).map (·.observationId)).count o.observationId < 2) :
    ∃ added later, (log.append (before ++ o :: after)).1.records =
        log.records ++ added ++ o :: later ∧
      later = fresh (·.observationId)
        (o.observationId :: (before.map (·.observationId) ++ log.ids)) after := by
  have hbefore : o.observationId ∉ before.map (·.observationId) := by
    intro hmem
    have hpos := count_pos_iff.mpr hmem
    simp only [map_append, map_cons, count_append, count_cons_self] at honce
    omega
  have hfresh : o.observationId ∉ before.map (·.observationId) ++ log.ids := by
    rw [mem_append]
    exact fun h => h.elim hbefore hnew
  refine ⟨fresh (·.observationId) log.ids before, _, ?_, rfl⟩
  rw [append_records, fresh_append, append_assoc]
  simp only [fresh, hfresh, if_false]

/-! ## One append -/

def Cell.watermark (cell : Cell) (cameraId : CameraId) : Int :=
  (cell.partitionOf cameraId).logPosition

/-- A call does not lower the watermark, and when it accepts something the watermark is
    the log index, counted from one, of the last observation projected. -/
def WatermarkHonest (cameraId : CameraId) (before after : Cell) (result : Raises CommitResult) :
    Prop :=
  before.watermark cameraId ≤ after.watermark cameraId ∧
  ∀ r, result = .ok r → r.accepted ≠ [] →
    ∃ n : Nat, (after.log.records.map (·.observationId))[n]? = r.accepted.getLast? ∧
      after.watermark cameraId = n + 1

/-- New to the log, and once in the batch. -/
def NewOnce (cell : Cell) (batch : List Observation) (o : Observation) : Prop :=
  o.observationId ∉ cell.log.ids ∧
    (batch.map (·.observationId)).count o.observationId < 2

/-- The batches under which the watermark is honest: nothing in them is new and single,
    or the last observation is, or one that is names the empty object (and the call
    raises). -/
def WatermarkSafe (cell : Cell) (batch : List Observation) : Prop :=
  (∀ o ∈ batch, ¬ NewOnce cell batch o) ∨
  (∃ o ∈ batch.getLast?, NewOnce cell batch o) ∨
  (∃ o ∈ batch, NewOnce cell batch o ∧ ¬ Absorbable o)

structure AppendOnly (cameraId : CameraId) (cell : Cell) : Prop where
  inv : CellInv cameraId cell
  pending : cell.buffer.pending = []
  isOpen : (cell.partitionOf cameraId).isDegraded = false
  seen : ∀ id ∈ cell.seen, id ∈ cell.log.ids
  watermark : cell.watermark cameraId ≤ cell.log.records.length

theorem AppendOnly.empty (cameraId : CameraId) : AppendOnly cameraId {} where
  inv := CellInv.empty cameraId
  pending := rfl
  isOpen := rfl
  seen := fun id hid => by cases hid
  watermark := le_refl 0

theorem mem_trimSeen {config : StateSection} {seen : List ObservationId} {id : ObservationId}
    (h : id ∈ Cell.trimSeen config seen) : id ∈ seen := by
  unfold Cell.trimSeen at h
  dsimp only at h
  split at h
  · exact h
  · exact (config.setOrder_perm seen).mem_iff.mp (mem_of_mem_drop h)

variable {cameraId : CameraId} {cell : Cell} {batch : List Observation}

/-- Without a truncation, what is seen is recorded, so the observations left to project
    are those that are new and occur once. -/
theorem AppendOnly.mem_todo (h : AppendOnly cameraId cell) :
    o ∈ (cell.todo batch).map Prod.snd ↔ o ∈ batch ∧ NewOnce cell batch o := by
  rw [mem_map_snd_todo]
  constructor
  · rintro ⟨ho, hnew, honce, -⟩
    exact ⟨ho, hnew, honce⟩
  · rintro ⟨ho, hnew, honce⟩
    exact ⟨ho, hnew, honce, fun hseen => hnew (h.seen _ hseen)⟩

theorem AppendOnly.last_todo (h : AppendOnly cameraId cell)
    (hlast : (cell.todo batch).getLast? = some e) :
    ∃ before after, batch = before ++ e.2 :: after ∧ NewOnce cell batch e.2 ∧
      e.1 + after.length = (cell.log.append batch).1.records.length ∧
      ∀ o ∈ after, ¬ NewOnce cell batch o := by
  obtain ⟨before, after, hsplit, hposition, hafter⟩ := picks_getLast hlast
  have hmem : e.2 ∈ (cell.todo batch).map Prod.snd :=
    mem_map.mpr ⟨e, mem_of_getLast? hlast, rfl⟩
  refine ⟨before, after, hsplit, (h.mem_todo.mp hmem).2, ?_, fun o ho honce => ?_⟩
  · rw [hposition]
    unfold Cell.appended
    rw [append_position]
    have hlength := congrArg length hsplit
    simp only [length_append, length_cons] at hlength
    omega
  · have hbatch : o ∈ batch := by
      rw [hsplit]
      simp [ho]
    have htodo := mem_map_snd_todo.mp (h.mem_todo.mpr ⟨hbatch, honce⟩)
    rcases hafter o ho with hdup | hseen
    · unfold Cell.appended at hdup
      rw [append_duplicates, mem_skipped] at hdup
      rcases hdup.2 with hold | hmany
      · exact htodo.2.1 hold
      · exact absurd hmany (not_le.mpr htodo.2.2.1)
    · exact htodo.2.2.2 hseen

theorem last_index_iff {before after : List Observation} {position : Int}
    (honce : NewOnce cell (before ++ o :: after) o) (hposition : position + after.length =
      (cell.log.append (before ++ o :: after)).1.records.length)
    (hafter : ∀ o' ∈ after, ¬ NewOnce cell (before ++ o :: after) o') :
    (∃ n : Nat,
      ((cell.log.append (before ++ o :: after)).1.records.map (·.observationId))[n]? =
        some o.observationId ∧ position = n + 1) ↔ after = [] := by
  obtain ⟨added, later, hrecords, hlater⟩ := append_slot honce.1 honce.2
  have hslot : ((cell.log.append (before ++ o :: after)).1.records.map
      (·.observationId))[(cell.log.records ++ added).length]? = some o.observationId := by
    rw [hrecords, getElem?_map, getElem?_append_right (le_refl _)]
    simp
  rw [hrecords, length_append, length_cons] at hposition
  constructor
  · rintro ⟨n, hn, hindex⟩
    have hnlt : n < ((cell.log.append (before ++ o :: after)).1.records.map
        (·.observationId)).length := (List.getElem?_eq_some_iff.mp hn).1
    have hsame : n = (cell.log.records ++ added).length :=
      (getElem?_inj hnlt (cell.log.append (before ++ o :: after)).1.nodup).mp
        (hn.trans hslot.symm)
    -- As many observations were added after it as the batch has after it.
    have hlength : later.length = after.length := by omega
    have hkept : later = after := by
      rw [hlater] at hlength ⊢
      exact (fresh_sublist _ _).eq_of_length hlength
    by_contra hne
    obtain ⟨o', ho'⟩ := exists_mem_of_ne_nil after hne
    refine hafter o' ho' ?_
    have hfresh : o'.observationId ∈ later.map (·.observationId) := by
      rw [hkept]
      exact mem_map.mpr ⟨o', ho', rfl⟩
    rw [hlater, mem_map_fresh] at hfresh
    have hnodup : (after.map (·.observationId)).Nodup := by
      rw [← hkept, hlater]
      exact nodup_map_fresh _ _
    simp only [mem_cons, mem_append, not_or] at hfresh
    refine ⟨hfresh.2.2.2, ?_⟩
    have hbefore : (before.map (·.observationId)).count o'.observationId = 0 :=
      count_eq_zero.mpr hfresh.2.2.1
    have hle := nodup_iff_count_le_one.mp hnodup o'.observationId
    rw [map_append, map_cons, count_append, count_cons_of_ne
      (Ne.symm hfresh.2.1), hbefore]
    omega
  · intro hnil
    subst hnil
    have hempty : later = [] := by
      rw [hlater]
      rfl
    rw [hempty] at hposition
    refine ⟨(cell.log.records ++ added).length, hslot, ?_⟩
    simp only [length_nil] at hposition
    omega

/-! ## What one append does -/

theorem AppendOnly.watermark_committed (config : StateSection) (h : AppendOnly cameraId cell)
    (hcamera : ∀ o ∈ batch, o.cameraId = cameraId) (hok : ∀ e ∈ cell.todo batch, Absorbable e.2) :
    (cell.committed config cameraId batch).watermark cameraId =
      ((cell.todo batch).getLast?.map Prod.fst).getD (cell.watermark cameraId) :=
  (foldl_absorb_spec config.bounds h.inv.partitionOf
    (fun e he => hcamera e.2 (mem_of_mem_picks he).1) hok).2.1

theorem length_le_append (log : LogPartition) (batch : List Observation) :
    (log.records.length : Int) ≤ (log.append batch).1.records.length := by
  rw [append_records, length_append]
  omega

theorem AppendOnly.appendPartition (config : StateSection) (h : AppendOnly cameraId cell)
    (hcamera : ∀ o ∈ batch, o.cameraId = cameraId) :
    AppendOnly cameraId (cell.appendPartition config {} cameraId batch).2 := by
  have hinv := h.inv.append config {} hcamera
  have hgrown := length_le_append cell.log batch
  rcases appendPartition_quiet config h.inv h.pending h.isOpen hcamera with
    ⟨-, message, seen, hseen, heq⟩ | ⟨hok, result, -, heq⟩
  · rw [heq] at hinv ⊢
    refine ⟨hinv, rfl, h.isOpen, fun id hid => ?_, le_trans h.watermark hgrown⟩
    rw [mem_append_ids]
    exact (hseen id hid).imp_left (h.seen id)
  · have hmem : ∀ e ∈ cell.todo batch, e.2 ∈ batch :=
      fun e he => (mem_of_mem_picks he).1
    have hposition := h.watermark_committed config hcamera hok
    rw [heq] at hinv ⊢
    refine ⟨hinv, rfl, ?_, fun id hid => ?_, ?_⟩
    · -- Absorbing keeps the reason a partition is degraded for.
      have hreason := (foldl_absorb_spec config.bounds h.inv.partitionOf
        (fun e he => hcamera e.2 (hmem e he)) hok).2.2.2
      exact (congrArg (fun reason => decide (reason ≠ "")) hreason).trans h.isOpen
    · show id ∈ (cell.log.append batch).1.ids
      rw [mem_append_ids]
      rcases mem_append.mp (mem_trimSeen hid) with hid | hid
      · obtain ⟨e, he, rfl⟩ := mem_map.mp (mem_reverse.mp hid)
        exact .inr (mem_map.mpr ⟨e.2, hmem e he, rfl⟩)
      · exact .inl (h.seen id hid)
    · show (cell.committed config cameraId batch).watermark cameraId ≤
        (cell.log.append batch).1.records.length
      rw [hposition]
      cases hlast : (cell.todo batch).getLast? with
      | none => exact le_trans h.watermark hgrown
      | some e =>
        obtain ⟨before, after, -, -, hindex, -⟩ := h.last_todo hlast
        show e.1 ≤ _
        omega

/-- A batch whose last pick ends it, and only such a batch among those with a pick, is
    safe. -/
theorem AppendOnly.safe_iff (h : AppendOnly cameraId cell) {before after : List Observation}
    (hok : ∀ e ∈ cell.todo (before ++ o :: after), Absorbable e.2)
    (honce : NewOnce cell (before ++ o :: after) o)
    (hafter : ∀ o' ∈ after, ¬ NewOnce cell (before ++ o :: after) o') :
    WatermarkSafe cell (before ++ o :: after) ↔ after = [] := by
  constructor
  · rintro (hnone | ⟨o', ho', hlast⟩ | ⟨o', ho', hbad, hno⟩)
    · exact absurd honce (hnone o (by simp))
    · by_contra hne
      have hafterLast : after.getLast? = some (after.getLast hne) :=
        getLast?_eq_some_getLast hne
      rw [Option.mem_def, getLast?_append, getLast?_cons, hafterLast] at ho'
      cases ho'
      exact hafter _ (mem_of_getLast? hafterLast) hlast
    · obtain ⟨e, he, rfl⟩ := mem_map.mp (h.mem_todo.mpr ⟨ho', hbad⟩)
      exact absurd (hok e he) hno
  · rintro rfl
    exact .inr (.inl ⟨o, by rw [getLast?_append]; rfl, honce⟩)

theorem AppendOnly.honest_iff (config : StateSection) (h : AppendOnly cameraId cell)
    (hcamera : ∀ o ∈ batch, o.cameraId = cameraId) :
    WatermarkHonest cameraId cell (cell.appendPartition config {} cameraId batch).2
        (cell.appendPartition config {} cameraId batch).1 ↔
      WatermarkSafe cell batch := by
  rcases appendPartition_quiet config h.inv h.pending h.isOpen hcamera with
    ⟨hno, message, seen, -, heq⟩ | ⟨hok, result, haccepted, heq⟩
  · rw [heq]
    -- What the loop stopped at is the third way to be safe.
    refine ⟨fun _ => .inr (.inr ?_), fun _ => ⟨le_refl _, fun r hr => by cases hr⟩⟩
    push Not at hno
    obtain ⟨e, he, hbad⟩ := hno
    have hmem := h.mem_todo.mp (mem_map.mpr ⟨e, he, rfl⟩)
    exact ⟨e.2, hmem.1, hmem.2, hbad⟩
  have hposition := h.watermark_committed config hcamera hok
  have hids : result.accepted.getLast? =
      (cell.todo batch).getLast?.map (·.2.observationId) := by
    rw [haccepted, getLast?_map]
  rw [heq]
  unfold WatermarkHonest
  rw [hposition]
  cases hlast : (cell.todo batch).getLast? with
  | none =>
    have hnil : cell.todo batch = [] := getLast?_eq_none_iff.mp hlast
    refine ⟨fun _ => .inl (fun o ho honce => ?_), fun _ => ⟨le_refl _, fun r hr hne => ?_⟩⟩
    · have hmem := h.mem_todo.mpr ⟨ho, honce⟩
      rw [hnil] at hmem
      cases hmem
    · cases hr
      rw [haccepted, hnil] at hne
      exact absurd rfl hne
  | some e =>
    obtain ⟨before, after, hsplit, honce, hindex, hafter⟩ := h.last_todo hlast
    have hlog : (cell.committed config cameraId batch).log = (cell.log.append batch).1 := rfl
    rw [hlog]
    rw [hlast] at hids
    subst hsplit
    have hindexed := last_index_iff honce hindex hafter
    rw [h.safe_iff hok honce hafter, ← hindexed]
    constructor
    · rintro ⟨-, hhonest⟩
      obtain ⟨n, hn, hpos⟩ := hhonest result rfl (by
        rintro hnil
        rw [hnil] at hids
        cases hids)
      exact ⟨n, hn.trans hids, hpos⟩
    · rintro ⟨n, hn, hpos⟩
      have hgrown := length_le_append cell.log (before ++ e.2 :: after)
      have hle := h.watermark
      rw [hindexed.mp ⟨n, hn, hpos⟩] at hindex hgrown
      refine ⟨?_, fun r hr _ => ?_⟩
      · show cell.watermark cameraId ≤ e.1
        rw [length_nil] at hindex
        omega
      · cases hr
        exact ⟨n, hn.trans hids.symm, hpos⟩

/-! ## Runs of appends -/

abbrev Batch (cameraId : CameraId) : Type :=
  { batch : List Observation // ∀ o ∈ batch, o.cameraId = cameraId }

/-- The manager after one append, over a log that raises nowhere. -/
def Manager.appendStep (config : StateSection) (cameraId : CameraId) (m : Manager)
    (batch : Batch cameraId) : Manager :=
  (m.append config quiet batch.1).2

theorem appendStep_cell (config : StateSection) (m : Manager)
    {batch : Batch cameraId} (hne : batch.1 ≠ []) :
    (m.appendStep config cameraId batch).cells cameraId =
      ((m.cells cameraId).appendPartition config {} cameraId batch.1).2 := by
  unfold appendStep
  rw [append_eq_appendPartition config quiet hne batch.2]
  exact put_cells_self _ _ _

theorem AppendOnly.appendStep (config : StateSection) {m : Manager}
    (h : AppendOnly cameraId (m.cells cameraId)) (batch : Batch cameraId) :
    AppendOnly cameraId ((m.appendStep config cameraId batch).cells cameraId) := by
  by_cases hne : batch.1 = []
  · unfold Manager.appendStep
    rw [hne]
    exact h
  · rw [appendStep_cell config m hne]
    exact h.appendPartition config batch.2

theorem AppendOnly.appendStep_honest_iff (config : StateSection)
    {m : Manager} (h : AppendOnly cameraId (m.cells cameraId)) (batch : Batch cameraId) :
    WatermarkHonest cameraId (m.cells cameraId)
        ((m.appendStep config cameraId batch).cells cameraId)
        (m.append config quiet batch.1).1 ↔
      WatermarkSafe (m.cells cameraId) batch.1 := by
  by_cases hne : batch.1 = []
  · -- An empty batch does nothing and accepts nothing.
    unfold Manager.appendStep
    rw [hne]
    refine ⟨fun _ => .inl (fun o ho => by cases ho), fun _ => ⟨le_refl _, ?_⟩⟩
    rintro r hr haccepted
    cases hr
    exact absurd rfl haccepted
  · rw [appendStep_cell config m hne,
      append_eq_appendPartition config quiet hne batch.2]
    exact h.honest_iff config batch.2

/-- In every run of appends to one camera the watermark is honest throughout if and only
    if every batch is safe when it is appended. -/
theorem watermark_honest_iff (config : StateSection) (cameraId : CameraId)
    (batches : List (Batch cameraId)) :
    Runs.Always (appendStep config cameraId)
        (fun m batch => WatermarkHonest cameraId (m.cells cameraId)
          ((m.appendStep config cameraId batch).cells cameraId)
          (m.append config quiet batch.1).1) .new batches ↔
      Runs.Always (appendStep config cameraId)
        (fun m batch => WatermarkSafe (m.cells cameraId) batch.1) .new batches := by
  refine @Runs.always_iff_of_invariant _ _ _ (fun m => AppendOnly cameraId (m.cells cameraId))
    _ _ ?_ ?_ _ (AppendOnly.empty cameraId) batches
  · intro m batch h
    exact h.appendStep config batch
  · intro m batch h
    exact h.appendStep_honest_iff config batch

def northBlindAgain : Observation := blindnessReport "again" "north" ⟨0⟩ (by decide)

/-- A report, then a new one followed by the first again: the watermark says 1, and the
    new report is the second record of the log. -/
theorem watermark_behind_repeated_report :
    ¬ Runs.Always (appendStep .defaults "north")
      (fun m batch => WatermarkHonest "north" (m.cells "north")
        ((m.appendStep .defaults "north" batch).cells "north")
        (m.append .defaults quiet batch.1).1) .new
      [⟨[northBlind], by simp [northBlind, blindnessReport]⟩,
        ⟨[northBlindAgain, northBlind],
          by simp [northBlind, northBlindAgain, blindnessReport]⟩] := by
  rintro ⟨-, hsecond, -⟩
  have hsafe := (((AppendOnly.empty "north").appendStep .defaults _).appendStep_honest_iff
    .defaults _).mp hsecond
  rcases hsafe with hnone | ⟨o, ho, honce⟩ | ⟨o, ho, -, hbad⟩
  · refine hnone northBlindAgain (by simp) ⟨?_, ?_⟩
    · decide +kernel
    · decide +kernel
  · cases ho
    exact honce.1 (by decide +kernel)
  · simp only [mem_cons, not_mem_nil, or_false] at ho
    rcases ho with rfl | rfl
    · exact hbad (by decide +kernel)
    · exact hbad (by decide +kernel)

end VisionOs.State
