/-
  `FileObservationLog`, one partition at a time: the file, and what a process holds beside it.
  `append` writes its lines first and updates what it holds only after all of them.
-/
import VisionOs.Synthesis.Codec
import VisionOs.Synthesis.MemoryLog

namespace VisionOs.Synthesis

open Core Lib List

/-- `_ids[partition]` and `_positions[partition]`. -/
structure FileIndex where
  seen : List ObservationId
  count : Nat

/-- One partition of the log: the whole lines of its file, and what this process has
    loaded of them. -/
structure FilePartition where
  lines : List Json := []
  index : Option FileIndex := none

structure WriteFault where
  linesWritten : Nat
  message : Message

/-- `ObservationId(record["observation_id"])` for one line. -/
def lineId (line : Json) : Raises ObservationId := do
  asStr (← item (loads line) "observation_id")

/-- The writing of a batch: the lines that reach the file, and what stopped it.  An
    `OSError` can come before any line, between two, or at the flush; a failure of
    `_encode` or `json.dumps` leaves the lines before it, since closing the file flushes
    them. -/
def writeLines (room : Nat) : Option WriteFault → List Observation → List Json × Option PyException
  | some ⟨0, message⟩, _ => ([], some (.osError message))
  | some ⟨_ + 1, message⟩, [] => ([], some (.osError message))
  | none, [] => ([], none)
  | fault, o :: rest =>
    match encodeLine room o with
    | .error exc => ([], some exc)
    | .ok line =>
      let (lines, stopped) :=
        writeLines room (fault.map fun f => { f with linesWritten := f.linesWritten - 1 }) rest
      (line :: lines, stopped)

namespace FilePartition

/-- `_load(partition)`: the id set and the count, from the file on first touch. -/
def load (p : FilePartition) : Raises FileIndex :=
  match p.index with
  | some index => .ok index
  | none => do
    let ids ← p.lines.mapM lineId
    return { seen := ids, count := p.lines.length }

/-- `position(partition)`. -/
def position (p : FilePartition) : FilePartition × Raises Int :=
  match p.load with
  | .error exc => (p, .error exc)
  | .ok index => ({ p with index := some index }, .ok index.count)

/-- The observations of a batch that `append` takes for new. -/
def fresh (index : FileIndex) (observations : List Observation) : List Observation :=
  observations.filter (fun o => o.observationId ∉ index.seen)

/-- `append(partition, observations)`, with the failure its write meets. -/
def append (room : Nat) (path : String) (fault : Option WriteFault) (observations : List Observation)
    (p : FilePartition) : FilePartition × Raises LogAppendResult :=
  match p.load with
  | .error exc => (p, .error exc)
  | .ok index =>
    let fresh := fresh index observations
    let duplicates :=
      (observations.filter (fun o => o.observationId ∈ index.seen)).map (·.observationId)
    if fresh.isEmpty then
      ({ p with index := some index },
        .ok { position := index.count, appended := fresh.length, duplicates })
    else
      match writeLines room fault fresh with
      | (written, some (.osError message)) =>
        ({ lines := p.lines ++ written, index := some index },
          .error (.logUnavailableError
            ([.text s!"cannot append to the observation log at {path}: "] ++ message)))
      | (written, some exc) =>
        ({ lines := p.lines ++ written, index := some index }, .error exc)
      | (written, none) =>
        ({ lines := p.lines ++ written
           index := some {
             seen := index.seen ++ fresh.map (·.observationId)
             count := index.count + fresh.length } },
          .ok { position := index.count + fresh.length, appended := fresh.length, duplicates })

def reopen (p : FilePartition) : FilePartition := { p with index := none }

end FilePartition

/-- What can happen to a partition: an append, with the failure its write meets, or a
    process that opens the log again. -/
inductive FileCall where
  | append (fault : Option WriteFault) (observations : List Observation)
  | reopen

def FileCall.step (room : Nat) (path : String) (p : FilePartition) : FileCall → FilePartition
  | .append fault observations => (p.append room path fault observations).1
  | .reopen => p.reopen

/-- The file holds no id twice, and the position is the number of its records. -/
def FilePartition.Idempotent (p : FilePartition) : Prop :=
  ∃ ids, p.lines.mapM lineId = .ok ids ∧ ids.Nodup ∧ p.position.2 = .ok p.lines.length

/-- The call writes all of its new observations, each under its own id, or no line at
    all: the write fails before the first line or the first observation is one the
    encoder refuses. -/
def WritesWhole (room : Nat) (p : FilePartition) : FileCall → Prop
  | .reopen => True
  | .append fault observations =>
    ∀ index, p.load = .ok index →
      let fresh := FilePartition.fresh index observations
      fresh = [] ∨
      (fault = none ∧ (∀ o ∈ fresh, Encodable room o) ∧ (fresh.map (·.observationId)).Nodup) ∨
      (∃ message, fault = some ⟨0, message⟩) ∨
      (∃ o, fresh.head? = some o ∧ ¬ Encodable room o)

variable {room : Nat} {o : Observation}

theorem lineId_encode {line : Json} (h : encodeLine room o = .ok line) :
    lineId line = .ok o.observationId := by
  obtain ⟨record, hrecord, hline⟩ := bind_eq_ok.mp h
  obtain ⟨-, spatial, -, rfl⟩ := encode_eq_ok.mp hrecord
  obtain ⟨-, rfl⟩ := dumps_eq_ok.mp hline
  rfl

theorem writeLines_spec (fault : Option WriteFault) (observations : List Observation) :
    ∃ written, written <+: observations ∧
      (writeLines room fault observations).1.length = written.length ∧
      (writeLines room fault observations).1.mapM lineId = .ok (written.map (·.observationId)) ∧
      ((writeLines room fault observations).2 = none → written = observations) := by
  fun_induction writeLines room fault observations with
  | case1 observations message =>
    exact ⟨[], nil_prefix, rfl, rfl, fun h => by cases h⟩
  | case2 k message => exact ⟨[], nil_prefix, rfl, rfl, fun _ => rfl⟩
  | case3 => exact ⟨[], nil_prefix, rfl, rfl, fun _ => rfl⟩
  | case4 fault o rest _ exc hencode =>
    -- The encoder refuses this observation: nothing more is written.
    exact ⟨[], nil_prefix, rfl, rfl, fun h => by cases h⟩
  | case5 fault o rest _ line hencode lines stopped hrest ih =>
    rw [hrest] at ih
    obtain ⟨written, hprefix, hlength, hids, hall⟩ := ih
    refine ⟨o :: written, (prefix_cons_inj o).mpr hprefix, ?_, ?_, ?_⟩
    · rw [length_cons, length_cons, hlength]
    · rw [mapM_cons, lineId_encode hencode, ok_bind, hids]
      rfl
    · intro hnone
      rw [hall hnone]

variable {fault : Option WriteFault}

theorem writeLines_completes {observations : List Observation} :
    (writeLines room fault observations).2 = none ↔
      fault = none ∧ ∀ o ∈ observations, Encodable room o := by
  fun_induction writeLines room fault observations with
  | case1 observations message => simp
  | case2 k message => simp
  | case3 => simp
  | case4 fault o rest _ exc hencode =>
    have hrefused : ¬ Encodable room o := by
      intro h
      obtain ⟨line, hline⟩ := encodable_iff.mp h
      rw [hencode] at hline
      cases hline
    simp [hrefused]
  | case5 fault o rest _ line hencode lines stopped hrest ih =>
    rw [hrest] at ih
    have haccepted : Encodable room o := encodable_iff.mpr ⟨line, hencode⟩
    rw [ih, Option.map_eq_none_iff, forall_mem_cons]
    simp [haccepted]

theorem writeLines_nothing {rest : List Observation} :
    (writeLines room fault (o :: rest)).1 = [] ↔
      (∃ message, fault = some ⟨0, message⟩) ∨ ¬ Encodable room o := by
  rcases fault with _ | ⟨_ | k, message⟩
  · cases hencode : encodeLine room o with
    | error exc => simp [writeLines, hencode, encodable_iff]
    | ok line => simp [writeLines, hencode, encodable_iff]
  · simp [writeLines]
  · cases hencode : encodeLine room o with
    | error exc => simp [writeLines, hencode, encodable_iff]
    | ok line => simp [writeLines, hencode, encodable_iff]

/-! ## One call -/

namespace FilePartition

/-- The index is what the file says. -/
structure Reflects (index : FileIndex) (ids : List ObservationId) (p : FilePartition) : Prop where
  seen : ∀ id, id ∈ index.seen ↔ id ∈ ids
  count : index.count = p.lines.length

/-- The file holds no id twice, and what the process has loaded agrees with it. -/
def Kept (p : FilePartition) : Prop :=
  ∃ ids, p.lines.mapM lineId = .ok ids ∧ ids.Nodup ∧
    ∀ index, p.index = some index → Reflects index ids p

theorem kept_empty : Kept {} :=
  ⟨[], rfl, nodup_nil, fun _ h => by cases h⟩

variable {p : FilePartition}

theorem load_of_mapM {ids : List ObservationId} (hids : p.lines.mapM lineId = .ok ids)
    (hindex : ∀ index, p.index = some index → Reflects index ids p) :
    ∃ index, p.load = .ok index ∧ Reflects index ids p := by
  unfold load
  cases h : p.index with
  | some index => exact ⟨index, rfl, hindex index h⟩
  | none =>
    rw [hids, ok_bind]
    exact ⟨_, rfl, fun _ => Iff.rfl, rfl⟩

variable {index : FileIndex}

theorem position_of_load (h : p.load = .ok index) :
    p.position.2 = .ok index.count := by
  unfold position
  rw [h]

theorem idempotent_of_kept (h : Kept p) : p.Idempotent := by
  obtain ⟨ids, hids, hnodup, hindex⟩ := h
  obtain ⟨index, hload, hreflects⟩ := load_of_mapM hids hindex
  refine ⟨ids, hids, hnodup, ?_⟩
  rw [position_of_load hload, hreflects.count]

theorem append_cases {index : FileIndex} (hload : p.load = .ok index)
    (path : String) (fault : Option WriteFault) (observations : List Observation) :
    (fresh index observations = [] ∧
      (p.append room path fault observations).1 = { p with index := some index }) ∨
    (fresh index observations ≠ [] ∧
      (writeLines room fault (fresh index observations)).2 ≠ none ∧
      (p.append room path fault observations).1 =
        { lines := p.lines ++ (writeLines room fault (fresh index observations)).1
          index := some index }) ∨
    ((writeLines room fault (fresh index observations)).2 = none ∧
      (p.append room path fault observations).1 =
        { lines := p.lines ++ (writeLines room fault (fresh index observations)).1
          index := some {
            seen := index.seen ++ (fresh index observations).map (·.observationId)
            count := index.count + (fresh index observations).length } }) := by
  unfold append
  rw [hload]
  dsimp only
  split
  · rename_i hnil
    exact .inl ⟨isEmpty_iff.mp hnil, rfl⟩
  · rename_i hnil
    have hne : fresh index observations ≠ [] := fun h => hnil (isEmpty_iff.mpr h)
    split <;> rename_i hwrite <;> rw [hwrite]
    · exact .inr (.inl ⟨hne, (by simp), rfl⟩)
    · exact .inr (.inl ⟨hne, (by simp), rfl⟩)
    · exact .inr (.inr ⟨rfl, rfl⟩)

theorem mem_fresh {observations : List Observation} :
    o ∈ fresh index observations ↔ o ∈ observations ∧ o.observationId ∉ index.seen := by
  simp [fresh]

theorem mapM_append_lines {lines written : List Json} {ids ids' : List ObservationId}
    (hids : lines.mapM lineId = .ok ids) (hids' : written.mapM lineId = .ok ids') :
    (lines ++ written).mapM lineId = .ok (ids ++ ids') := by
  rw [mapM_append, hids, ok_bind, hids', ok_bind]
  rfl

theorem kept_reopen (h : Kept p) : Kept p.reopen := by
  obtain ⟨ids, hids, hnodup, -⟩ := h
  exact ⟨ids, hids, hnodup, fun _ h => by cases h⟩

variable {call : FileCall}

/-- A call that writes its batch whole keeps the partition. -/
theorem kept_step (path : String) (h : Kept p)
    (hwhole : WritesWhole room p call) : Kept (call.step room path p) := by
  rcases call with ⟨fault, observations⟩ | _
  · obtain ⟨ids, hids, hnodup, hindex⟩ := h
    obtain ⟨index, hload, hreflects⟩ := load_of_mapM hids hindex
    have hcondition := hwhole index hload
    show Kept (p.append room path fault observations).1
    rcases append_cases hload path fault observations with
      ⟨-, hstate⟩ | ⟨hne, hstopped, hstate⟩ | ⟨hdone, hstate⟩
    · rw [hstate]
      refine ⟨ids, hids, hnodup, fun index' h => ?_⟩
      cases h
      exact ⟨hreflects.seen, hreflects.count⟩
    · -- The write failed: it wrote nothing, so the file is as it was.
      have hnothing : (writeLines room fault (fresh index observations)).1 = [] := by
        obtain ⟨o, rest, hfresh⟩ := exists_cons_of_ne_nil hne
        rw [hfresh] at hcondition hstopped ⊢
        rw [writeLines_nothing]
        rcases hcondition with h | ⟨hnone, haccepted, -⟩ | h | ⟨o', ho', hrefused⟩
        · cases h
        · exact absurd (writeLines_completes.mpr ⟨hnone, haccepted⟩) hstopped
        · exact .inl h
        · cases ho'
          exact .inr hrefused
      rw [hstate, hnothing, append_nil]
      refine ⟨ids, hids, hnodup, fun index' h => ?_⟩
      cases h
      exact ⟨hreflects.seen, hreflects.count⟩
    · obtain ⟨written, -, hlength, hwritten, hall⟩ :=
        writeLines_spec fault (fresh index observations)
      have hfresh : written = fresh index observations := hall hdone
      rw [hfresh] at hlength hwritten
      have hdistinct : ((fresh index observations).map (·.observationId)).Nodup := by
        obtain ⟨hnone, haccepted⟩ := writeLines_completes.mp hdone
        rcases hcondition with h | ⟨-, -, h⟩ | ⟨message, h⟩ | ⟨o, ho, hrefused⟩
        · rw [h]
          exact nodup_nil
        · exact h
        · rw [hnone] at h
          cases h
        · exact absurd (haccepted o (mem_of_mem_head? ho)) hrefused
      rw [hstate]
      refine ⟨_, mapM_append_lines hids hwritten, ?_, fun index' h => ?_⟩
      · rw [nodup_append]
        refine ⟨hnodup, hdistinct, ?_⟩
        rintro id hid id' hid' rfl
        obtain ⟨o, ho, hoid⟩ := mem_map.mp hid'
        exact (mem_fresh.mp ho).2 ((hreflects.seen _).mpr (hoid ▸ hid))
      · cases h
        refine ⟨fun id => ?_, ?_⟩
        · rw [mem_append, mem_append, hreflects.seen]
        · rw [length_append, hlength, hreflects.count]
  · exact kept_reopen h

/-- Any other call leaves a second record of one id, or a position that is not the number
    of records. -/
theorem not_idempotent_step (path : String) (h : Kept p)
    (hbroken : ¬ WritesWhole room p call) : ¬ (call.step room path p).Idempotent := by
  rcases call with ⟨fault, observations⟩ | _
  · obtain ⟨ids, hids, hnodup, hindex⟩ := h
    obtain ⟨index, hload, hreflects⟩ := load_of_mapM hids hindex
    have hcondition : ¬ (fresh index observations = [] ∨
        (fault = none ∧ (∀ o ∈ fresh index observations, Encodable room o) ∧
          ((fresh index observations).map (·.observationId)).Nodup) ∨
        (∃ message, fault = some ⟨0, message⟩) ∨
        (∃ o, (fresh index observations).head? = some o ∧ ¬ Encodable room o)) := by
      intro hok
      refine hbroken (fun index' hload' => ?_)
      rw [hload] at hload'
      cases hload'
      exact hok
    simp only [not_or] at hcondition
    obtain ⟨hne, hnotDone, hnotFirst, hnotHead⟩ := hcondition
    show ¬ (p.append room path fault observations).1.Idempotent
    rintro ⟨ids', hids', hnodup', hposition⟩
    rcases append_cases hload path fault observations with
      ⟨hnil, -⟩ | ⟨-, hstopped, hstate⟩ | ⟨hdone, hstate⟩
    · exact hne hnil
    · -- Some lines were written and the position does not count them.
      have hsome : (writeLines room fault (fresh index observations)).1 ≠ [] := by
        obtain ⟨o, rest, hfresh⟩ := exists_cons_of_ne_nil hne
        rw [hfresh] at hnotHead ⊢
        rw [Ne, writeLines_nothing, not_or]
        exact ⟨hnotFirst, fun hrefused => hnotHead ⟨o, rfl, hrefused⟩⟩
      rw [hstate, position_of_load rfl, hreflects.count] at hposition
      have hlength := Int.ofNat_inj.mp (Except.ok.inj hposition)
      rw [length_append] at hlength
      have := length_pos_iff.mpr hsome
      omega
    · obtain ⟨written, -, -, hwritten, hall⟩ := writeLines_spec fault (fresh index observations)
      have hfresh : written = fresh index observations := hall hdone
      rw [hfresh] at hwritten
      obtain ⟨hnone, haccepted⟩ := writeLines_completes.mp hdone
      rw [hstate, mapM_append_lines hids hwritten] at hids'
      rw [← Except.ok.inj hids'] at hnodup'
      exact hnotDone ⟨hnone, haccepted, (nodup_append.mp hnodup').2.1⟩
  · exact absurd trivial hbroken

end FilePartition

/-- Over a run of appends and reopened processes, from an empty file: the file holds no id
    twice and the position counts its records in every state reached, exactly when every
    append of the run writes its new observations whole. -/
theorem file_log_idempotent_iff (room : Nat) (path : String) (calls : List FileCall) :
    (∀ before, before <+: calls → (Runs.run (FileCall.step room path) {} before).Idempotent) ↔
      Runs.Always (FileCall.step room path) (WritesWhole room) {} calls :=
  @Runs.reached_iff_always _ _ (FileCall.step room path) FilePartition.Kept FilePartition.Idempotent
    (WritesWhole room) (fun _ => FilePartition.idempotent_of_kept)
    (fun _ _ => FilePartition.kept_step path)
    (fun _ _ => FilePartition.not_idempotent_step path) {} FilePartition.kept_empty calls

/-- One append of a batch that holds an observation twice, from an empty file, writes it
    twice. -/
theorem repeated_observation_written_twice :
    let twice := [blindnessReport "observation" "north" ⟨0⟩ (by decide),
      blindnessReport "observation" "north" ⟨0⟩ (by decide)]
    let p := Runs.run (FileCall.step 900 "north.jsonl") {} [.append none twice]
    p.lines.mapM lineId = .ok ["observation", "observation"] ∧ ¬ p.Idempotent := by
  intro twice p
  obtain ⟨line, hline⟩ := encodable_iff.mp
    (@encodable_blindnessReport 900 (by decide) "observation" "north" ⟨0⟩ (by decide)
      PyValue.printable_zero)
  have hwrite : writeLines 900 none twice = ([line, line], none) := by
    simp only [twice, writeLines, hline, Option.map_none]
  have hlines : p.lines = [line, line] := by
    rcases @FilePartition.append_cases 900 {} ⟨[], 0⟩ rfl "north.jsonl" none twice with
      ⟨hnil, -⟩ | ⟨-, hstopped, -⟩ | ⟨-, hstate⟩
    · cases hnil
    · exact absurd (congrArg Prod.snd hwrite) hstopped
    · show (FilePartition.append 900 "north.jsonl" none twice {}).1.lines = _
      rw [hstate]
      exact congrArg Prod.fst hwrite
  have hids : p.lines.mapM lineId = .ok ["observation", "observation"] := by
    rw [hlines, mapM_cons, mapM_cons, lineId_encode hline]
    rfl
  refine ⟨hids, ?_⟩
  rintro ⟨ids, hids', hnodup, -⟩
  rw [hids] at hids'
  cases hids'
  exact absurd hnodup (by decide)

end VisionOs.Synthesis
