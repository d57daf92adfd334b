/-
  The registry's runtime across a restart.  Starting loads the snapshots of every camera that the
  registry has, and a fresh registry has none.
-/
import VisionOs.Registry.Merges

namespace VisionOs.Registry

open Core Lib Effect

/-- `ObjectStorePort`: where snapshots are kept.  A store may fail, and may fail midway. -/
structure ObjectStore (σ : Type) where
  save (snapshot : PartitionSnapshot) : Effect PyException σ Unit
  load (cameraId : CameraId) : Effect PyException σ (Option PartitionSnapshot)

def inMemoryObjectStore : ObjectStore (OrderedDict CameraId PartitionSnapshot) where
  save snapshot := .modify (·.set snapshot.cameraId snapshot)
  load cameraId := do
    let partitions ← read
    return partitions.get? cameraId

def isObjectStoreError : PyException → Bool
  | .objectStoreError _ => true
  | _ => false

/-! ## The runtime -/

/-- What a registry runtime holds.  Locks, counters and schedules are left out. -/
structure RegistryRuntime (σ : Type) where
  registry : ObjectRegistry := {}
  store : Option σ := none
  persistenceEnabled : Bool := true
  dirty : List CameraId := []
  started : Bool := false

abbrev Running (σ : Type) := Effect PyException (RegistryRuntime σ)

section Runtime

variable {σ : Type} (port : ObjectStore σ) (wiring : RegistryWiring)

def ObjectRegistry.objectsOf (s : ObjectRegistry) (cameraId : CameraId) :
    Raises (List VisualObject) :=
  match s.partitions.get? cameraId with
  | some p => p.objects
  | none => .ok []

def RegistryRuntime.snapshot (x : RegistryRuntime σ) (cameraId : CameraId) (now : Instant) :
    Raises PartitionSnapshot := do
  let objects ← x.registry.objectsOf cameraId
  return { cameraId, takenAt := now, objects }

def flushCamera (cameraId : CameraId) (now : Instant) (x : RegistryRuntime σ) :
    Option PartitionSnapshot × RegistryRuntime σ :=
  match x.store, x.snapshot cameraId now with
  | some store, .ok snapshot =>
    match port.save snapshot store with
    | (.ok (), store') =>
      (some snapshot, { x with store := some store', dirty := x.dirty.erase cameraId })
    | (.error _, store') => (none, { x with store := some store' })
  | _, _ => (none, x)

def flushCameras (clock : CameraId → Instant) :
    List CameraId → RegistryRuntime σ → List PartitionSnapshot × RegistryRuntime σ
  | [], x => ([], x)
  | cameraId :: rest, x =>
    let (saved, x) := flushCamera port cameraId (clock cameraId) x
    let (later, x) := flushCameras clock rest x
    (saved.toList ++ later, x)

def RegistryRuntime.flush (x : RegistryRuntime σ) (force : Bool) (clock : CameraId → Instant) :
    List PartitionSnapshot × RegistryRuntime σ :=
  if x.store.isNone then ([], x)
  else flushCameras port clock (if force then x.registry.cameras else x.dirty) x

/-- `stop`: flush before shutting down. -/
def RegistryRuntime.stop (x : RegistryRuntime σ) (clock : CameraId → Instant) :
    List PartitionSnapshot × RegistryRuntime σ :=
  let (saved, x) := if x.store.isSome ∧ x.persistenceEnabled then x.flush port true clock else ([], x)
  (saved, { x with started := false })

def loadSnapshot (cameraId : CameraId) : Running σ (Option PartitionSnapshot) := fun x =>
  match x.store with
  | none => (.ok none, x)
  | some store =>
    let (result, store') := port.load cameraId store
    (result, { x with store := some store' })

def onRegistry {α : Type} (call : Calling α) : Running σ α := fun x =>
  let (result, registry) := call x.registry
  (result, { x with registry })

def reloadCamera (cameraId : CameraId) : Running σ Unit := fun x =>
  match loadSnapshot port cameraId x with
  | (.ok none, x) => (.ok (), x)
  | (.ok (some snapshot), x) =>
    match onRegistry (restore wiring snapshot) x with
    | (.ok _, x) => (.ok (), x)
    | (.error exc, x) => (.error exc, x)
  | (.error exc, x) => if isObjectStoreError exc then (.ok (), x) else (.error exc, x)

/-- `_reload`: restore durable objects after a restart. -/
def reload : Running σ Unit := do
  let x ← read
  forEach (reloadCamera port wiring) x.registry.cameras

/-- `start`: reload durable objects, then accept traffic. -/
def start : Running σ Unit := do
  let x ← read
  if x.store.isSome ∧ x.persistenceEnabled then reload port wiring
  else pure ()
  .modify fun x => { x with started := true }

end Runtime

/-! ## What survives -/

variable {σ : Type} {port : ObjectStore σ} {wiring : RegistryWiring} {x : RegistryRuntime σ}

/-- A runtime over a fresh registry, started on the store that another left. -/
def RegistryRuntime.restarted (port : ObjectStore σ) (wiring : RegistryWiring)
    (stopped : RegistryRuntime σ) : RegistryRuntime σ :=
  (start port wiring
    { store := stopped.store, persistenceEnabled := stopped.persistenceEnabled }).2

/-- A saved object whose track comes back under a new epoch. -/
structure ComesBack (wiring : RegistryWiring) (saved : List PartitionSnapshot) (k : CameraId)
    (o : VisualObject) (update : TrackUpdate) (track : Track) (now : Instant) : Prop where
  wasSaved : ∃ snapshot ∈ saved, snapshot.cameraId = k ∧ o ∈ snapshot.objects
  around : o.lifecycle = .active ∨ o.lifecycle = .occluded ∨ o.lifecycle = .dormant
  mem : track ∈ update.active
  measured : track.isPredicted = false
  epoch : ∀ b ∈ o.trackBindings, b.trackId.trackerEpoch ≠ update.trackerEpoch
  classId : track.classId = o.classId
  place : track.spatial = o.currentSpatial
  gap : now.ns - o.lastConfirmed.ns ≤ wiring.binding.maxReentryGap.ns
  alone : ∀ snapshot ∈ saved, snapshot.cameraId = k → ∀ other ∈ snapshot.objects,
    other.objectId ≠ o.objectId → ∀ crossingEpoch,
      considerReentry wiring.hypot wiring.binding track.spatial track.classId now crossingEpoch
        (recordFrom other 0 []) = .ok none

/-- The object alone owns the track, by a doubtful binding across the epoch. -/
def ReboundTo (p : RegistryPartition) (track : Track) (id : ObjectId) : Prop :=
  ∃ r b c, p.recordFor id = some r ∧ r.owns track.trackId = true ∧
    r.bindings.getLast? = some b ∧ b.trackId = track.trackId ∧ b.method = .epochRebind ∧
    b.confidence = some c ∧ c.value.lt (.finite 1) = true ∧
    ∀ other, p.Owner track.trackId other → other = id

/-- Whatever was saved at the stop is there after the start, and who comes back is known. -/
def SurvivesRestart (port : ObjectStore σ) (wiring : RegistryWiring)
    (clock : CameraId → Instant) (x : RegistryRuntime σ) : Prop :=
  let saved := (x.stop port clock).1
  let registry := ((x.stop port clock).2.restarted port wiring).registry
  (∀ snapshot ∈ saved, ∀ o ∈ snapshot.objects, registry.Has snapshot.cameraId o.objectId) ∧
  ∀ k o update track now, ComesBack wiring saved k o update track
      (registry.advanceTime k update now) →
    ReboundTo ((ingest wiring k update now registry).2.partitionOf wiring k) track o.objectId

theorem restarted_registry : (x.restarted port wiring).registry = {} := by
  refine (@wp_state PyException (RegistryRuntime σ) Unit _ (fun x' => x'.registry = {})
    (start port wiring)).mp ?_
  unfold start
  rw [wp_bind, wp_read]
  split
  · -- There is no camera to reload.
    rw [wp_bind]
    unfold reload
    rw [wp_bind, wp_read]
    exact rfl
  · exact rfl

/-- The population that stopping saved survives the restart exactly when nobody is in it. -/
theorem survives_restart_iff (port : ObjectStore σ) (wiring : RegistryWiring)
    (clock : CameraId → Instant) (x : RegistryRuntime σ) :
    SurvivesRestart port wiring clock x ↔
      ∀ snapshot ∈ (x.stop port clock).1, snapshot.objects = [] := by
  unfold SurvivesRestart
  simp only [restarted_registry]
  constructor
  · rintro ⟨hheld, -⟩ snapshot hsnapshot
    refine List.eq_nil_iff_forall_not_mem.mpr fun o ho => ?_
    obtain ⟨p, hp, -⟩ := hheld snapshot hsnapshot o ho
    cases hp
  · intro hnobody
    have hnone : ∀ snapshot ∈ (x.stop port clock).1, ∀ o, o ∉ snapshot.objects := by
      intro snapshot hsnapshot o ho
      rw [hnobody snapshot hsnapshot] at ho
      cases ho
    refine ⟨fun snapshot hsnapshot o ho => absurd ho (hnone snapshot hsnapshot o), ?_⟩
    rintro k o update track now hback
    obtain ⟨snapshot, hsnapshot, -, ho⟩ := hback.wasSaved
    exact absurd ho (hnone snapshot hsnapshot o)

/-- A runtime whose registry has seen somebody, on an empty store. -/
def watching : RegistryRuntime (OrderedDict CameraId PartitionSnapshot) where
  registry := afterLeft promptPolicy
  store := some ∅
  started := true

/-- They are saved, and do not come back. -/
theorem restart_forgets :
    ¬ SurvivesRestart inMemoryObjectStore (streetWiring promptPolicy) (fun _ => ⟨1000⟩)
      watching := by
  rintro ⟨hheld, -⟩
  have hsaved : (watching.stop inMemoryObjectStore (fun _ => ⟨1000⟩)).1.any
      (fun snapshot => ! snapshot.objects.isEmpty) = true := by decide +kernel
  obtain ⟨snapshot, hsnapshot, hsomebody⟩ := List.any_eq_true.mp hsaved
  cases hobjects : snapshot.objects with
  | nil =>
    rw [hobjects] at hsomebody
    cases hsomebody
  | cons o rest =>
    have ho : o ∈ snapshot.objects := by
      rw [hobjects]
      exact List.mem_cons_self ..
    obtain ⟨p, hp, -⟩ := hheld snapshot hsnapshot o ho
    rw [restarted_registry] at hp
    cases hp

end VisionOs.Registry
