/-
  `InMemoryObservationLog`, one partition at a time: the records, and the set of
  their ids kept beside them.  That the two agree and that no id is recorded
  twice is part of the type.
-/
import VisionOs.Core.Observation
import VisionOs.Lib.Ledger

namespace VisionOs.Synthesis

open Core Lib List Dedup

structure LogAppendResult where
  position : Int
  appended : Nat
  duplicates : List ObservationId
  deriving DecidableEq

structure LogPartition where
  records : List Observation
  ids : List ObservationId
  mem_ids : ∀ id, id ∈ ids ↔ id ∈ records.map (·.observationId)
  nodup : (records.map (·.observationId)).Nodup

namespace LogPartition

def empty : LogPartition := ⟨[], [], by simp, by simp⟩

instance : Inhabited LogPartition := ⟨empty⟩

def add (log : LogPartition) (o : Observation) (h : o.observationId ∉ log.ids) : LogPartition where
  records := log.records ++ [o]
  ids := o.observationId :: log.ids
  mem_ids := by
    intro id
    rw [map_append, mem_append, mem_cons, log.mem_ids id]
    simp [or_comm]
  nodup := by
    rw [map_append, nodup_append]
    refine ⟨log.nodup, by simp, ?_⟩
    intro id hid id' hid'
    rw [map_singleton, mem_singleton] at hid'
    rw [hid']
    rintro rfl
    exact h ((log.mem_ids _).mpr hid)

def appendLoop : List Observation → LogPartition → Nat → List ObservationId →
    LogPartition × Nat × List ObservationId
  | [], log, appended, duplicates => (log, appended, duplicates)
  | o :: rest, log, appended, duplicates =>
    if h : o.observationId ∈ log.ids then
      appendLoop rest log appended (duplicates ++ [o.observationId])
    else
      appendLoop rest (log.add o h) (appended + 1) duplicates

def append (log : LogPartition) (observations : List Observation) :
    LogPartition × LogAppendResult :=
  let (log, appended, duplicates) := appendLoop observations log 0 []
  (log, { position := log.records.length, appended, duplicates })

def sliceIndex (n : Nat) (bound : Int) : Nat :=
  if bound < 0 then (n + bound).toNat else min n bound.toNat

def read (log : LogPartition) (start : Int) (finish : Option Int) (limit : Nat) :
    List Observation :=
  let n := log.records.length
  let finish := finish.getD n
  ((log.records.take (sliceIndex n finish)).drop (sliceIndex n start)).take limit

def defaultLimit : Nat := 1000

/-- `position(partition)`. -/
def position (log : LogPartition) : Int := log.records.length

/-- `truncate(partition, before)`: drop the prefix captured before an instant, and
    forget its ids. -/
def truncate (log : LogPartition) (before : Instant) : LogPartition × Nat :=
  let removed := log.records.takeWhile (fun o => o.tCapture.ns < before.ns)
  let kept := log.records.dropWhile (fun o => o.tCapture.ns < before.ns)
  ({ records := kept
     ids := log.ids.filter (fun id => id ∉ removed.map (·.observationId))
     mem_ids := by
       intro id
       have hsplit : removed.map (·.observationId) ++ kept.map (·.observationId) =
           log.records.map (·.observationId) := by
         rw [← map_append, takeWhile_append_dropWhile]
       have hdisj := (nodup_append.mp (hsplit ▸ log.nodup)).2.2
       rw [mem_filter, log.mem_ids, ← hsplit, mem_append, decide_eq_true_eq]
       constructor
       · rintro ⟨h | h, hno⟩
         · exact absurd h hno
         · exact h
       · intro h
         exact ⟨.inr h, fun hr => hdisj id hr id h rfl⟩
     nodup := (((dropWhile_sublist _).map _)).nodup log.nodup },
    removed.length)

theorem read_prefix (log : LogPartition) (count : Nat) :
    log.read 0 none count = log.records.take count := by
  have hlength : ¬ (log.records.length : Int) < 0 := by omega
  unfold read sliceIndex
  simp [hlength]

theorem appendLoop_spec (observations : List Observation) (log : LogPartition)
    (appended : Nat) (duplicates : List ObservationId) :
    (appendLoop observations log appended duplicates).1.records =
        log.records ++ fresh (·.observationId) log.ids observations ∧
    (appendLoop observations log appended duplicates).2.1 =
        appended + (fresh (·.observationId) log.ids observations).length ∧
    (appendLoop observations log appended duplicates).2.2 =
        duplicates ++ skipped (·.observationId) log.ids observations := by
  induction observations generalizing log appended duplicates with
  | nil => simp [appendLoop, fresh, skipped]
  | cons o rest ih =>
    by_cases h : o.observationId ∈ log.ids
    · simp only [appendLoop, h, dite_true, fresh, skipped, if_true]
      obtain ⟨hrecords, happended, hduplicates⟩ := ih log appended (duplicates ++ [o.observationId])
      exact ⟨hrecords, happended, by rw [hduplicates, append_assoc]; rfl⟩
    simp only [appendLoop, h, dite_false, fresh, skipped, if_false]
    obtain ⟨hrecords, happended, hduplicates⟩ := ih (log.add o h) (appended + 1) duplicates
    refine ⟨?_, ?_, hduplicates⟩
    · rw [hrecords]
      simp [add]
    · rw [happended]
      simp only [add, length_cons]
      omega

theorem append_records (log : LogPartition) (observations : List Observation) :
    (log.append observations).1.records =
      log.records ++ fresh (·.observationId) log.ids observations :=
  (appendLoop_spec observations log 0 []).1

theorem append_duplicates (log : LogPartition) (observations : List Observation) :
    (log.append observations).2.duplicates =
      skipped (·.observationId) log.ids observations := by
  have h := (appendLoop_spec observations log 0 []).2.2
  rw [nil_append] at h
  exact h

theorem append_position (log : LogPartition) (observations : List Observation) :
    (log.append observations).2.position = (log.append observations).1.records.length := rfl

variable {log : LogPartition} {observations : List Observation}

theorem mem_append_ids {id : ObservationId} :
    id ∈ (log.append observations).1.ids ↔
      id ∈ log.ids ∨ id ∈ observations.map (·.observationId) := by
  rw [mem_ids, append_records, map_append, mem_append, ← mem_ids,
    mem_map_fresh]
  by_cases h : id ∈ log.ids <;> simp [h]

theorem append_records_eq_self :
    (log.append observations).1.records = log.records ↔
      ∀ o ∈ observations, o.observationId ∈ log.ids := by
  rw [append_records, append_right_eq_self]
  constructor
  · intro hnil o ho
    by_contra hno
    have hmem : o.observationId ∈
        (fresh (fun o : Observation => o.observationId) log.ids observations).map
          (fun o => o.observationId) :=
      mem_map_fresh.mpr ⟨mem_map.mpr ⟨o, ho, rfl⟩, hno⟩
    rw [hnil] at hmem
    simp at hmem
  · intro hall
    rw [eq_nil_iff_forall_not_mem]
    intro o ho
    have hmem := mem_map_fresh.mp (mem_map.mpr ⟨o, ho, rfl⟩)
    obtain ⟨o', ho', hid⟩ := mem_map.mp hmem.1
    exact hmem.2 (hid ▸ hall o' ho')

end LogPartition

end VisionOs.Synthesis
