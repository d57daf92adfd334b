/-
  The registry's timer and its public calls.  A call works on the state of one camera at a time
  and keeps what it did there even when it raises; only `ingest` answers every exception with an
  update.
-/
import VisionOs.Registry.Engine

namespace VisionOs.Registry

open Core Lib Effect BoundedDeque

def horizonLoop (policy : LifecyclePolicy) (since : Duration) :
    Nat → LifecycleState → Option LifecycleTransition → Raises (Option LifecycleTransition)
  | 0, _, moved => .ok moved
  | turns + 1, state, moved =>
    if state.isTerminal then .ok moved
    else do
      let t ← onUnmeasured policy state since false
      if t.changed then
        let previous := (moved.map (·.previous)).getD t.previous
        horizonLoop policy since turns t.current (some { t with previous })
      else return moved

def driveHorizons (policy : LifecyclePolicy) (r : ObjectRecord) (moment : Instant) :
    Raises (Option LifecycleTransition) :=
  horizonLoop policy (sinceConfirmed moment r) 7 r.lifecycle none

section Sweep

variable (wiring : RegistryWiring) (moment : Instant)

def depart (id : ObjectId) : Doing Unit := do
  let w ← read
  match w.partition.recordFor id with
  | none => return ()
  | some r => do
    let frozen ← ofExcept (w.partition.project r)
    modify fun w =>
      { w with
        partition := w.partition.evict id
        departed := w.departed ++ [frozen]
        removed := w.removed ++ [id] }

def sweepMoved (id : ObjectId) (t : LifecycleTransition) : Doing Unit := do
  -- An object moved out of a measurable state has no live track.
  if t.current.isMeasurable then pure () else attempt (·.closeBindings id moment)
  modify fun w =>
    { w with
      partition := w.partition.setLifecycle id t.current
      changes := w.changes ++ [(id, t.previous, t.current)] }
  if t.current = .expired then do
    depart id
    modify fun w => { w with regions := (w.regions.forget id moment).1 }
  else pure ()

def sweepRecord (id : ObjectId) : Doing Unit := do
  let w ← read
  match w.partition.recordFor id with
  | none => return ()
  | some r =>
    if r.lifecycle.isTerminal then
      if r.lifecycle = .expired then depart id else return ()
    else do
      match ← ofExcept (driveHorizons wiring.lifecycle r moment) with
      | none => return ()
      | some t => sweepMoved moment id t

end Sweep

structure ObjectRegistry where
  partitions : OrderedDict CameraId RegistryPartition := ∅
  regions : OrderedDict CameraId RegionTracker := ∅
  epochs : OrderedDict CameraId Int := ∅
  cameraTime : OrderedDict CameraId Instant := ∅
  lastFrame : OrderedDict CameraId FrameRef := ∅
  draws : Nat := 0

abbrev Calling := Effect PyException ObjectRegistry

namespace ObjectRegistry

def cameras (s : ObjectRegistry) : List CameraId := s.partitions.keys.insertionSort (· ≤ ·)

def work (s : ObjectRegistry) (cameraId : CameraId) (p : RegistryPartition) : Work where
  partition := p
  regions := (s.regions.get? cameraId).getD {}
  draws := s.draws

def keep (s : ObjectRegistry) (cameraId : CameraId) (w : Work) : ObjectRegistry :=
  { s with
    partitions := s.partitions.set cameraId w.partition
    regions := if (s.regions.get? cameraId).isSome then s.regions.set cameraId w.regions
      else s.regions
    draws := w.draws }

/-- `_locate`: the first camera that holds an object. -/
def locate (s : ObjectRegistry) (objectId : ObjectId) :
    Raises (CameraId × RegistryPartition × ObjectRecord) :=
  let found := s.cameras.findSome? fun cameraId => do
    let p ← s.partitions.get? cameraId
    let r ← p.recordFor objectId
    return (cameraId, p, r)
  match found with
  | some place => .ok place
  | none => .error (.objectNotFoundError s!"object '{objectId}' is not known to this registry")

def advanceTime (s : ObjectRegistry) (cameraId : CameraId) (update : TrackUpdate)
    (clock : Instant) : Instant :=
  match (update.active.map (·.lastUpdated.ns)).max?, s.cameraTime.get? cameraId with
  | some candidate, none => ⟨candidate⟩
  | some candidate, some previous => ⟨max previous.ns candidate⟩
  | none, some previous => previous
  | none, none => clock

end ObjectRegistry

section Calls

variable (wiring : RegistryWiring)

def within {α : Type} (cameraId : CameraId) (p : RegistryPartition) (x : Doing α) :
    Calling (α × Work) := fun s =>
  match x (s.work cameraId p) with
  | (.ok a, w) => (.ok (a, w), s.keep cameraId w)
  | (.error exc, w) => (.error exc, s.keep cameraId w)

def prepare (cameraId : CameraId) (update : TrackUpdate) (now : Instant) (s : ObjectRegistry) :
    ObjectRegistry :=
  { s with
    partitions := s.partitions.set cameraId
      ((s.partitions.get? cameraId).getD (wiring.newPartition cameraId))
    regions := s.regions.set cameraId ((s.regions.get? cameraId).getD {})
    epochs := s.epochs.set cameraId update.trackerEpoch
    cameraTime := s.cameraTime.set cameraId now
    lastFrame := s.lastFrame.set cameraId update.frameRef }

def failure (cameraId : CameraId) (update : TrackUpdate) (exc : PyException) : RegistryUpdate where
  cameraId
  frameRef := update.frameRef
  failed := true
  reason :=
    match exc with
    | .registryCapacityError message => [.text "capacity: "] ++ message
    | exc => [.text s!"{exc.typeName}: "] ++ exc.text

def reported (cameraId : CameraId) (update : TrackUpdate) (objects : List VisualObject)
    (w : Work) : RegistryUpdate where
  cameraId
  frameRef := update.frameRef
  objects
  created := w.created
  lifecycleChanges := w.changes
  shed := w.shed

def crossesEpoch (s : ObjectRegistry) (cameraId : CameraId) (update : TrackUpdate) : Bool :=
  (s.epochs.get? cameraId).getD update.trackerEpoch ≠ update.trackerEpoch

def frameWork (cameraId : CameraId) (update : TrackUpdate) (clock : Instant)
    (s : ObjectRegistry) : Work :=
  (prepare wiring cameraId update (s.advanceTime cameraId update clock) s).work cameraId
    ((s.partitions.get? cameraId).getD (wiring.newPartition cameraId))

/-- `ingest`: fold one frame's tracks into the object population.  It never raises. -/
def ingest (cameraId : CameraId) (update : TrackUpdate) (clock : Instant)
    (s : ObjectRegistry) : RegistryUpdate × ObjectRegistry :=
  let now := s.advanceTime cameraId update clock
  let ready := prepare wiring cameraId update now s
  match foldFrame wiring update.active now (crossesEpoch s cameraId update)
      (frameWork wiring cameraId update clock s) with
  | (.ok objects, w) => (reported cameraId update objects w, ready.keep cameraId w)
  | (.error exc, w) => (failure cameraId update exc, ready.keep cameraId w)

def sweepCamera (moment : Instant) (cameraId : CameraId) : Calling (List RegistryUpdate) := do
  let s ← read
  match s.partitions.get? cameraId with
  | none => return []
  | some p => do
    let (_, w) ← within cameraId p (forEach (sweepRecord wiring moment) p.ids)
    if w.changes.isEmpty ∧ w.removed.isEmpty then return []
    else
      match s.lastFrame.get? cameraId with
      | none => return []
      | some frameRef => do
        let objects ← ofExcept w.partition.objects
        return [{ cameraId, frameRef, objects := objects ++ w.departed,
                  lifecycleChanges := w.changes, expired := w.removed }]

def sweepCameras (moment : Instant) : List CameraId → Calling (List RegistryUpdate)
  | [] => pure []
  | cameraId :: rest => do
    let updates ← sweepCamera wiring moment cameraId
    let later ← sweepCameras moment rest
    return updates ++ later

/-- `sweep`: advance horizons, and say what changed. -/
def sweep (moment : Instant) : Calling (List RegistryUpdate) := do
  let s ← read
  sweepCameras wiring moment s.cameras

/-! ## Revising identities -/

def bind (trackId : TrackId) (objectId : ObjectId) (method : BindingMethod)
    (confidence : PyFloat) (now : Instant) : Calling BindingId := do
  let s ← read
  let (cameraId, p, r) ← ofExcept (s.locate objectId)
  ofExcept (require (r.lifecycle.isTerminal = false) (.identityConflictError
    s!"object '{objectId}' is {r.lifecycle.value} and cannot accept a binding; terminal states are final (V5)"))
  let (bindingId, _) ← within cameraId p
    (openBinding wiring objectId trackId method confidence now)
  return bindingId

def merge (sourceObject targetObject : ObjectId) (now : Instant) : Calling ObjectId := do
  let s ← read
  let (sourceCamera, p, source) ← ofExcept (s.locate sourceObject)
  let (targetCamera, _, target) ← ofExcept (s.locate targetObject)
  ofExcept (require (sourceCamera = targetCamera) (.identityConflictError
    s!"cross-partition merge from '{sourceCamera}' to '{targetCamera}' must be a two-phase, event-driven operation at the site layer, never a synchronous cross-partition write (03_MODULES M7 Thread Safety)"))
  let _ ← ofExcept (onMerged source.lifecycle)
  let _ ← within sourceCamera p (attempt (·.merge source target now))
  return targetObject

def ObjectRecord.successor (r : ObjectRecord) (point : Instant) (successorId : ObjectId) :
    ObjectRecord where
  objectId := successorId
  cameraId := r.cameraId
  tenantId := r.tenantId
  siteId := r.siteId
  lifecycle := r.lifecycle
  classId := r.classId
  distribution := r.distribution
  spatial := r.spatial
  firstSeen := point
  lastSeen := r.lastSeen
  lastConfirmed := r.lastConfirmed
  identityConfidence := r.identityConfidence.mul (.finite (1 / 2))
  observationCount := max 1 (r.observationCount / 2)
  bindings := r.bindings.filter (fun b => b.boundFrom.ns ≥ point.ns)
  classHistory := (empty 32).extend
    (r.classHistory.items.filter (fun c => c.observedAt.ns ≥ point.ns))
  spatialHistory := (empty 64).extend
    (r.spatialHistory.items.filter (fun e => e.1.ns ≥ point.ns))
  lineage := r.lineage ++ [r.objectId]

def ObjectRecord.original (r : ObjectRecord) (point : Instant) : ObjectRecord :=
  { r with
    spatialHistory := r.spatialHistory.filter (fun e => e.1.ns < point.ns)
    classHistory := r.classHistory.filter (fun c => c.observedAt.ns < point.ns)
    bindings := r.bindings.filter (fun b => b.boundFrom.ns < point.ns)
    lastSeen := point
    lastConfirmed := ⟨min r.lastConfirmed.ns point.ns⟩
    observationCount := max 1 (r.observationCount / 2) }

theorem ObjectRecord.original_objectId (point : Instant) (r : ObjectRecord) :
    (r.original point).objectId = r.objectId := rfl

def splitAt (r : ObjectRecord) (point now : Instant) : Doing ObjectId := do
  let successorId ← drawId wiring now
  edit (·.update r.objectId (fun r => r.original point))
  attempt (·.adopt (r.successor point successorId))
  return successorId

def split (objectId : ObjectId) (point now : Instant) : Calling (ObjectId × ObjectId) := do
  let s ← read
  let (cameraId, p, r) ← ofExcept (s.locate objectId)
  ofExcept (require (r.firstSeen.ns < point.ns ∧ point.ns < r.lastSeen.ns)
    (.identityConflictError
      s!"split point lies outside object '{objectId}' lifetime [{r.firstSeen.ns}, {r.lastSeen.ns}]; one side would be empty"))
  let (successorId, _) ← within cameraId p (splitAt wiring r point now)
  return (objectId, successorId)

def applyAttribute (objectId : ObjectId) (held : Attribute) : Calling Unit := do
  let s ← read
  let (cameraId, p, r) ← ofExcept (s.locate objectId)
  let _ ← ofExcept (wiring.attributes.require held.key)
  ofExcept (require (wiring.attributes.applies held.key r.classId = true)
    (.attributeRejectedError
      s!"attribute '{held.key}' does not apply to class '{r.classId}'"))
  let _ ← within cameraId p (edit (·.applyAttribute objectId held))
  return ()

/-- A public call with its arguments and the clock readings it makes. -/
inductive RegistryCall where
  | ingest (cameraId : CameraId) (update : TrackUpdate) (clock : Instant)
  | sweep (moment : Instant)
  | bind (trackId : TrackId) (objectId : ObjectId) (method : BindingMethod)
      (confidence : PyFloat) (now : Instant)
  | merge (sourceObject targetObject : ObjectId) (now : Instant)
  | split (objectId : ObjectId) (point now : Instant)
  | applyAttribute (objectId : ObjectId) (held : Attribute)

/-- Make a call; the result is the updates it returns. -/
def RegistryCall.perform : RegistryCall → Calling (List RegistryUpdate)
  | .ingest cameraId update clock => fun s =>
    (.ok [(VisionOs.Registry.ingest wiring cameraId update clock s).1],
      (VisionOs.Registry.ingest wiring cameraId update clock s).2)
  | .sweep moment => VisionOs.Registry.sweep wiring moment
  | .bind trackId objectId method confidence now => do
    let _ ← VisionOs.Registry.bind wiring trackId objectId method confidence now
    return []
  | .merge sourceObject targetObject now => do
    let _ ← VisionOs.Registry.merge sourceObject targetObject now
    return []
  | .split objectId point now => do
    let _ ← VisionOs.Registry.split wiring objectId point now
    return []
  | .applyAttribute objectId held => do
    let _ ← VisionOs.Registry.applyAttribute wiring objectId held
    return []

/-- What a call leaves of the registry, whether or not it raises. -/
def RegistryCall.after (s : ObjectRegistry) (call : RegistryCall) : ObjectRegistry :=
  (call.perform wiring s).2

end Calls

end VisionOs.Registry
