/-
  Projecting observations into state, and `VisionStateManager` over the in-memory log.  A `Cell`
  is everything that the manager and the log hold for a camera.  A fault is the text of what a
  store raised, having left itself unchanged.  Metrics, events and subscribers are left out.
-/
import VisionOs.Core.VisionState
import VisionOs.Synthesis.MemoryLog
import Mathlib.Data.List.Sort

namespace VisionOs.State

open Core Lib OrderedDict

/-- The ring bounds; the constructor refuses a bound below one. -/
structure ProjectionBounds where
  trajectoryPoints : Nat
  attributeHistory : Nat
  classHistory : Nat
  maxObjects : Nat
  trajectoryPoints_pos : 1 ≤ trajectoryPoints
  attributeHistory_pos : 1 ≤ attributeHistory
  classHistory_pos : 1 ≤ classHistory
  maxObjects_pos : 1 ≤ maxObjects

structure ProjectionOutcome where
  partition : CameraPartition
  changedObjects : List ObjectId := []
  changedRegions : List RegionId := []
  coverageChanged : Bool := false
  evicted : Nat := 0

/-- `_later`: monotonic time advance. -/
def later (a b : Instant) : Instant := if a.ns ≥ b.ns then a else b

theorem le_later_left (a b : Instant) : a.ns ≤ (later a b).ns := by
  unfold later
  split <;> omega

theorem later_le_later {a b c : Instant} (h : a.ns ≤ b.ns) : (later a c).ns ≤ (later b c).ns := by
  unfold later
  split <;> split <;> omega

/-! ## Object projection -/

def provenanceRole : ObservationType → Option String
  | .presence => some "last_detector"
  | .spatial => some "last_tracker"
  | .attributes => some "last_understander"
  | _ => none

def mergeProvenance (summary : OrderedDict String String) (o : Observation) :
    OrderedDict String String :=
  match provenanceRole o.observationType, o.provenance.modelId with
  | some role, some modelId => if modelId = "" then summary else summary.set role modelId
  | _, _ => summary

def applySpatial (state : ObjectState) (o : Observation) (bounds : ProjectionBounds) :
    ObjectState :=
  match o.spatial with
  | none => state
  | some spatial =>
    let point := match spatial.bbox with
      | some bbox => some bbox.bottomCentre
      | none => spatial.groundPoint
    let trajectory := match point with
      | some point =>
        boundedRing state.trajectory (o.tCapture, point, o.measurementBasis)
          bounds.trajectoryPoints
      | none => state.trajectory
    { state with spatial := some spatial, measurementBasis := o.measurementBasis, trajectory }

def foldAttribute (o : Observation) (bounds : ProjectionBounds)
    (attributes : OrderedDict AttributeKey AttributeState) (a : Attribute) :
    OrderedDict AttributeKey AttributeState :=
  match attributes.get? a.key with
  | none =>
    attributes.set a.key {
      key := a.key, value := a.value, confidence := a.confidence, observedAt := a.observedAt,
      validUntil := a.validUntil, evidenceRef := o.evidenceRef, producer := some a.producer }
  | some existing =>
    if a.observedAt.ns < existing.observedAt.ns then
      -- An out-of-order arrival must not overwrite a newer value.
      attributes
    else
      attributes.set a.key {
        key := a.key, value := a.value, confidence := a.confidence,
        observedAt := a.observedAt, validUntil := a.validUntil,
        evidenceRef := o.evidenceRef, producer := some a.producer,
        previous := boundedRing existing.previous (existing.value, existing.observedAt)
          bounds.attributeHistory }

def applyAttributes (state : ObjectState) (o : Observation) (bounds : ProjectionBounds) :
    ObjectState :=
  { state with attributes := o.attributes.foldl (foldAttribute o bounds) state.attributes }

def applyClassChange (base previous : ObjectState) (classId : ClassId) (o : Observation)
    (bounds : ProjectionBounds) : ObjectState :=
  let confidence := o.confidence.getD previous.classConfidence
  { base with
    classId
    classConfidence := confidence
    classHistory :=
      boundedRing previous.classHistory (classId, o.tCapture, confidence) bounds.classHistory }

def create (objectId : ObjectId) (o : Observation) (bounds : ProjectionBounds) :
    Raises ObjectState :=
  if hid : objectId = "" then
    .error (.valueError "object state requires an object_id")
  else
    let confidence := o.confidence.getD Confidence.defaultIdentity
    let classId := match o.classId with
      | some c => if c = "" then "unknown" else c
      | none => "unknown"
    let state : ObjectState := {
      objectId
      classId
      classConfidence := confidence
      lifecycle := o.lifecycleState.getD .provisional
      firstSeen := o.tCapture
      lastSeen := o.tCapture
      lastConfirmed := o.tCapture
      spatial := o.spatial
      measurementBasis := o.measurementBasis
      classHistory := [(classId, o.tCapture, confidence)]
      observationCount := 1
      lastObservation := some o.observationId
      provenanceSummary := mergeProvenance ∅ o
      objectId_ne_empty := hid
      confirmed_le_seen := le_refl _
      first_le_seen := le_refl _ }
    .ok (if o.observationType = .attributes then applyAttributes state o bounds else state)

def sighted (previous : ObjectState) (o : Observation) : ObjectState :=
  { previous with
    lastSeen := later previous.lastSeen o.tCapture
    lastConfirmed :=
      if o.isMeasured then later previous.lastConfirmed o.tCapture else previous.lastConfirmed
    observationCount := previous.observationCount + 1
    lastObservation := some o.observationId
    provenanceSummary := mergeProvenance previous.provenanceSummary o
    confirmed_le_seen := by
      have hprev := previous.confirmed_le_seen
      have hseen := le_later_left previous.lastSeen o.tCapture
      split
      · exact later_le_later hprev
      · omega
    first_le_seen := by
      have hprev := previous.first_le_seen
      have hseen := le_later_left previous.lastSeen o.tCapture
      omega }

def applyPayload (base : ObjectState) (o : Observation) (bounds : ProjectionBounds) : ObjectState :=
  match o.observationType with
  | .presence | .spatial => applySpatial base o bounds
  | .attributes => applyAttributes base o bounds
  | .lifecycle =>
    match o.lifecycleTransition with
    | some transition => { base with lifecycle := transition.current }
    | none => base
  | .identity =>
    match o.identity with
    | some assertion =>
      { base with identity := {
          bindingCount := base.identity.bindingCount + 1
          assertionConfidence := o.confidence
          method := assertion.method
          ambiguous := assertion.ambiguous } }
    | none => base
  | _ => base

def applyClass (base previous : ObjectState) (o : Observation) (bounds : ProjectionBounds) :
    ObjectState :=
  match o.classId with
  | none => base
  | some classId =>
    if classId ≠ previous.classId then
      applyClassChange base previous classId o bounds
    else
      match o.confidence with
      | some confidence =>
        if o.observationType = .presence then { base with classConfidence := confidence }
        else base
      | none => base

def applyKnown (previous : ObjectState) (o : Observation) (bounds : ProjectionBounds) :
    ObjectState :=
  let base := applyPayload (sighted previous o) o bounds
  let base := applyClass base previous o bounds
  match o.lifecycleState with
  | some lifecycle =>
    if o.observationType = .lifecycle then base else { base with lifecycle := lifecycle }
  | none => base

/-- `_apply`: fold an observation into one object's state. -/
def apply (previous : Option ObjectState) (objectId : ObjectId) (o : Observation)
    (bounds : ProjectionBounds) : Raises ObjectState :=
  match previous with
  | none => create objectId o bounds
  | some previous => .ok (applyKnown previous o bounds)

def shedBefore (a b : ObjectState) : Bool :=
  let provisional (s : ObjectState) : Nat := if s.lifecycle = .provisional then 0 else 1
  decide (provisional a < provisional b) ||
    (provisional a = provisional b && decide (a.lastSeen.ns < b.lastSeen.ns))

/-- `min(candidates, key=rank, default=None)`: the first of the least. -/
def doomed : List (ObjectId × ObjectState) → Option (ObjectId × ObjectState)
  | [] => none
  | x :: rest =>
    match doomed rest with
    | some y => if shedBefore y.2 x.2 then some y else some x
    | none => some x

def shedLoop (capacity : Nat) (keep : ObjectId) :
    Nat → OrderedDict ObjectId ObjectState → OrderedDict ObjectId ObjectState × Nat
  | 0, objects => (objects, 0)
  | passes + 1, objects =>
    if objects.size ≤ capacity then (objects, 0)
    else
      match doomed (objects.entries.filter (fun e => e.1 ≠ keep)) with
      | none => (objects, 0)
      | some (objectId, _) =>
        let (rest, evicted) := shedLoop capacity keep passes (objects.erase objectId)
        (rest, evicted + 1)

def shed (objects : OrderedDict ObjectId ObjectState) (capacity : Nat) (keep : ObjectId) :
    OrderedDict ObjectId ObjectState × Nat :=
  shedLoop capacity keep objects.size objects

def symmetricDifference (before after : List String) : List String :=
  (before.filter (· ∉ after) ++ after.filter (· ∉ before)).insertionSort (· ≤ ·)

def touchedRegions (updated : ObjectState) (previous : Option ObjectState) : List RegionId :=
  symmetricDifference
    (match previous with
      | some previous => previous.regions.keys
      | none => [])
    updated.regions.keys

def recomputeRegion (partition : CameraPartition) (updated : ObjectState)
    (regionId : RegionId) : RegionState :=
  let members := ((partition.objects.set updated.objectId updated).values).filter
    fun state => (state.regions.get? regionId).isSome && state.isPresent
  let memberships := members.filterMap fun state => state.regions.get? regionId
  let dwells := members.filterMap fun state =>
    (state.regions.get? regionId).map fun membership =>
      max 0 (state.lastSeen.ns - membership.enteredAt.ns)
  { regionId
    geometryVersion := match partition.regions.get? regionId with
      | some existing => existing.geometryVersion
      | none => (memberships.head?.map (·.geometryVersion)).getD "1.0.0"
    occupancy := members.foldl
      (fun occupancy state =>
        occupancy.set state.classId ((occupancy.get? state.classId).getD 0 + 1))
      empty
    presentObjects := (members.map (·.objectId)).insertionSort (· ≤ ·)
    dwellCurrentMax := ⟨dwells.foldl max 0⟩
    dwellCurrentMean := ⟨dwells.sum / dwells.length⟩
    lastTransition := some updated.lastSeen }

def projectRegions (partition : CameraPartition) (updated : ObjectState)
    (previous : Option ObjectState) : OrderedDict RegionId RegionState :=
  (touchedRegions updated previous).foldl
    (fun regions regionId =>
      regions.set regionId (recomputeRegion partition updated regionId))
    partition.regions

/-! ## Status, coverage and the projection itself -/

def advanceStatus (partition : CameraPartition) (o : Observation) : CameraStatus :=
  { partition.status.getD { cameraId := partition.cameraId } with
    streamEpoch := o.frameRef.streamEpoch
    lastObservationAt := some o.tCapture }

def projectCoverage (partition : CameraPartition) (o : Observation) (position : Int) :
    Raises ProjectionOutcome :=
  match o.coverage with
  | none =>
    .error (.projectionError "a coverage observation reached the projection with no window")
  | some window =>
    .ok {
      partition := { partition with
        observability := some {
          cameraId := partition.cameraId
          status := window.status
          since := window.since
          reason := window.reason
          effectiveRate := window.effectiveRate
          regionsAffected := window.regionsAffected
          capabilityGaps := window.capabilityGaps
          rate_inUnit := window.effectiveRate_inUnit }
        logPosition := position
        version := partition.version + 1 }
      coverageChanged := true }

def projectObject (bounds : ProjectionBounds) (partition : CameraPartition)
    (objectId : ObjectId) (o : Observation) (position : Int) : Raises ProjectionOutcome := do
  let previous := partition.objects.get? objectId
  let updated ← apply previous objectId o bounds
  let (objects, evicted) :=
    shed (partition.objects.set objectId updated) bounds.maxObjects objectId
  let regions := projectRegions partition updated previous
  let changed := symmetricDifference regions.keys partition.regions.keys
  return {
    partition := { partition with
      objects
      regions
      status := some (advanceStatus partition o)
      logPosition := position
      version := partition.version + 1 }
    changedObjects := [objectId]
    changedRegions := if changed.isEmpty then touchedRegions updated previous else changed
    evicted }

/-- `project`: fold one observation into a partition. -/
def project (bounds : ProjectionBounds) (partition : CameraPartition) (o : Observation)
    (position : Int) : Raises ProjectionOutcome :=
  if o.cameraId ≠ partition.cameraId then
    .error (.projectionError
      s!"observation for camera '{o.cameraId}' cannot be projected into partition '{partition.cameraId}'; the camera is the partition (07_STATE section 4.1)")
  else if o.observationType = .coverage then
    projectCoverage partition o position
  else
    match o.objectId with
    | none => .error (.projectionError
        s!"a '{o.observationType.value}' observation reached the projection with no object")
    | some objectId => projectObject bounds partition objectId o position

open Core Lib Synthesis

/-- The part of `StateSection` the manager reads, as its constructor accepts it. -/
structure StateSection where
  bounds : ProjectionBounds
  logBufferCapacity : Nat
  logRetentionMs : Nat
  /-- The order in which the interpreter lists a set of ids. -/
  setOrder : List ObservationId → List ObservationId
  logBufferCapacity_pos : 1 ≤ logBufferCapacity
  logRetentionMs_pos : 1 ≤ logRetentionMs
  setOrder_perm : ∀ ids, (setOrder ids).Perm ids

def StateSection.defaults : StateSection where
  bounds := {
    trajectoryPoints := 64, attributeHistory := 8, classHistory := 16, maxObjects := 512
    trajectoryPoints_pos := by decide, attributeHistory_pos := by decide
    classHistory_pos := by decide, maxObjects_pos := by decide }
  logBufferCapacity := 4096
  logRetentionMs := 604800000
  setOrder := id
  logBufferCapacity_pos := by decide
  logRetentionMs_pos := by decide
  setOrder_perm := fun _ => .refl _

structure Buffer where
  pending : List Observation := []
  degradedSince : Option Instant := none

structure Cell where
  log : LogPartition := .empty
  partition : Option CameraPartition := none
  buffer : Buffer := {}
  seen : List ObservationId := []

/-- What surrounds one call: the time, and the exception the log raises, if any. -/
structure Circumstance where
  now : Instant := ⟨0⟩
  fault : Option Message := none

/-- A new partition, as `_partition` creates it. -/
def freshPartition (cameraId : CameraId) : CameraPartition :=
  { cameraId, status := some { cameraId } }

namespace Cell

/-- `_partition`: the partition, created where there is none. -/
def partitionOf (cell : Cell) (cameraId : CameraId) : CameraPartition :=
  cell.partition.getD (freshPartition cameraId)

theorem partitionOf_of_some {cell : Cell} {p : CameraPartition} (h : cell.partition = some p)
    (cameraId : CameraId) : cell.partitionOf cameraId = p := by
  unfold partitionOf
  rw [h]
  rfl

def ensure (cell : Cell) (cameraId : CameraId) : Cell :=
  { cell with partition := some (cell.partitionOf cameraId) }

/-- The variables of `_project_batch`'s loop. -/
structure Progress where
  partition : CameraPartition
  seen : List ObservationId
  accepted : List ObservationId := []
  quarantined : List (ObservationId × Message) := []

def projectLoop (bounds : ProjectionBounds) (duplicates : List ObservationId) :
    Int → List Observation → Progress → Progress × Option PyException
  | _, [], progress => (progress, none)
  | position, o :: rest, progress =>
    if o.observationId ∈ duplicates ∨ o.observationId ∈ progress.seen then
      projectLoop bounds duplicates (position + 1) rest progress
    else
      match project bounds progress.partition o (position + 1) with
      | .ok outcome =>
        projectLoop bounds duplicates (position + 1) rest
          { progress with
            partition := outcome.partition
            seen := o.observationId :: progress.seen
            accepted := progress.accepted ++ [o.observationId] }
      | .error (.projectionError message) =>
        projectLoop bounds duplicates (position + 1) rest
          { progress with
            quarantined := progress.quarantined ++ [(o.observationId, message)] }
      | .error exc => (progress, some exc)

def trimSeen (config : StateSection) (seen : List ObservationId) : List ObservationId :=
  let limit := config.logBufferCapacity * 4
  if seen.length ≤ limit then seen
  else (config.setOrder seen).drop (seen.length - limit)

def projectBatch (config : StateSection) (cameraId : CameraId) (cell : Cell)
    (observations : List Observation) (appended : LogAppendResult) :
    Raises CommitResult × Cell :=
  let (progress, raised) :=
    projectLoop config.bounds appended.duplicates
      (appended.position - observations.length) observations
      { partition := cell.partitionOf cameraId, seen := cell.seen }
  match raised with
  | some exc =>
    (.error exc,
      { cell with partition := some (cell.partitionOf cameraId), seen := progress.seen })
  | none =>
    (.ok {
        accepted := progress.accepted
        quarantined := progress.quarantined
        logPosition := progress.partition.logPosition
        version := progress.partition.version },
      { cell with
        partition := some progress.partition
        seen := trimSeen config progress.seen })

def haltReason (config : StateSection) : String :=
  s!"durability buffer full at {config.logBufferCapacity}; the partition stops accepting observations rather than dropping facts silently (10_RELIABILITY section 4.4 step 4)"

def bufferOrHalt (config : StateSection) (cameraId : CameraId) (cell : Cell)
    (pending : List Observation) (now : Instant) (cause : Message) :
    Raises CommitResult × Cell :=
  if pending.length ≤ config.logBufferCapacity then
    (.error (.logUnavailableError
        ((s!"log unavailable for partition '{cameraId}'; {pending.length} observation(s) buffered locally (" : Message)
          ++ cause ++ [.text ")"])),
      { cell with
        buffer := { pending, degradedSince := some (cell.buffer.degradedSince.getD now) } })
  else
    (.error (.commitFailedError (haltReason config)),
      { cell with
        partition := some
          { cell.partitionOf cameraId with degradedReason := haltReason config } })

def appendPartition (config : StateSection) (at_ : Circumstance) (cameraId : CameraId)
    (observations : List Observation) (cell : Cell) : Raises CommitResult × Cell :=
  let cell := cell.ensure cameraId
  let partition := cell.partitionOf cameraId
  if partition.isDegraded then
    (.error (.partitionDegradedError
      s!"partition '{cameraId}' has stopped accepting observations: {partition.degradedReason}"),
      cell)
  else
    let pending := cell.buffer.pending ++ observations
    match at_.fault with
    | some cause => cell.bufferOrHalt config cameraId pending at_.now cause
    | none =>
      let (log, appended) := cell.log.append pending
      -- The buffer is emptied, and a pending recovery is over.
      projectBatch config cameraId { cell with log, buffer := {} } pending appended

def resume (cameraId : CameraId) (cell : Cell) : Cell :=
  { cell with partition := some { cell.partitionOf cameraId with degradedReason := "" } }

structure RebuildHandle where
  replayed : Nat
  fromPosition : Int
  toPosition : Int
  quarantined : Nat := 0
  deriving DecidableEq

def replayLoop (bounds : ProjectionBounds) :
    List Observation → CameraPartition → RebuildHandle → Raises (CameraPartition × RebuildHandle)
  | [], shadow, handle => .ok (shadow, handle)
  | o :: rest, shadow, handle =>
    match project bounds shadow o (handle.toPosition + 1) with
    | .ok outcome =>
      replayLoop bounds rest outcome.partition
        { handle with replayed := handle.replayed + 1, toPosition := handle.toPosition + 1 }
    | .error (.projectionError _) =>
      replayLoop bounds rest shadow
        { handle with quarantined := handle.quarantined + 1, toPosition := handle.toPosition + 1 }
    | .error exc => .error exc

def swapIn (shadow : CameraPartition) (live : Option CameraPartition) : CameraPartition :=
  { shadow with
    version := (live.map (·.version)).getD 0 + 1
    status := shadow.status.or (live.bind (·.status)) }

/-- `rebuild`: replay the log into a shadow partition, then swap. -/
def rebuild (config : StateSection) (cameraId : CameraId) (fromPosition : Int) (cell : Cell) :
    Raises RebuildHandle × Cell :=
  match replayLoop config.bounds (cell.log.read fromPosition none LogPartition.defaultLimit)
      { cameraId } { replayed := 0, fromPosition, toPosition := fromPosition } with
  | .error exc => (.error exc, cell)
  | .ok (shadow, handle) =>
    (.ok handle, { cell with partition := some (swapIn shadow cell.partition), seen := [] })

end Cell

/-! ## The manager -/

/-- `VisionStateManager` and its log.  `cameras` lists the keys of `_partitions`, in
    order. -/
structure Manager where
  cells : CameraId → Cell
  cameras : List CameraId

namespace Manager

def new : Manager := { cells := fun _ => {}, cameras := [] }

def put (m : Manager) (cameraId : CameraId) (cell : Cell) : Manager where
  cells := fun c => if c = cameraId then cell else m.cells c
  cameras :=
    if cell.partition.isSome ∧ cameraId ∉ m.cameras then m.cameras ++ [cameraId] else m.cameras

/-- The circumstances of a call, camera by camera. -/
abbrev Circumstances := CameraId → Circumstance

def appendPartition (config : StateSection) (at_ : Circumstances) (cameraId : CameraId)
    (observations : List Observation) (m : Manager) : Raises CommitResult × Manager :=
  let (result, cell) :=
    (m.cells cameraId).appendPartition config (at_ cameraId) cameraId observations
  (result, m.put cameraId cell)

/-- `by_camera`: the batch split by camera, cameras in order of first appearance. -/
def byCamera (observations : List Observation) : OrderedDict CameraId (List Observation) :=
  observations.foldl
    (fun groups o => groups.set o.cameraId ((groups.get? o.cameraId).getD [] ++ [o]))
    empty

def appendManyLoop (config : StateSection) (at_ : Circumstances) :
    List (CameraId × List Observation) → CommitResult → Manager → Raises CommitResult × Manager
  | [], total, m => (.ok total, m)
  | (cameraId, batch) :: rest, total, m =>
    match m.appendPartition config at_ cameraId batch with
    | (.ok result, m) =>
      appendManyLoop config at_ rest
        { total with
          accepted := total.accepted ++ result.accepted
          rejected := total.rejected ++ result.rejected
          quarantined := total.quarantined ++ result.quarantined
          logPosition := result.logPosition
          version := result.version } m
    | (.error (.commitFailedError message), m)
    | (.error (.partitionDegradedError message), m) =>
      appendManyLoop config at_ rest
        { total with
          degraded := true
          rejected := total.rejected ++ batch.map (fun o => (o.observationId, message)) } m
    -- Any other exception leaves the loop, and the cameras after this one.
    | (.error exc, m) => (.error exc, m)

/-- `append`: the only write path. -/
def append (config : StateSection) (at_ : Circumstances) (observations : List Observation)
    (m : Manager) : Raises CommitResult × Manager :=
  match observations with
  | [] => (.ok {}, m)
  | o :: rest =>
    if rest.all (fun o' => o'.cameraId = o.cameraId) then
      m.appendPartition config at_ o.cameraId (o :: rest)
    else
      appendManyLoop config at_ (byCamera (o :: rest)).entries {} m

def resume (cameraId : CameraId) (m : Manager) : Manager :=
  m.put cameraId ((m.cells cameraId).resume cameraId)

def rebuild (config : StateSection) (cameraId : CameraId) (fromPosition : Int) (m : Manager) :
    Raises Cell.RebuildHandle × Manager :=
  let (result, cell) := (m.cells cameraId).rebuild config cameraId fromPosition
  (result, m.put cameraId cell)

structure SweepReport where
  partitions : Nat
  recordsRemoved : Nat
  before : Instant
  failures : List (CameraId × Message) := []

def sweepCamera (at_ : Circumstances) (before : Instant) :
    SweepReport × Manager → CameraId → SweepReport × Manager
  | (report, m), cameraId =>
    match (at_ cameraId).fault with
    | some cause => ({ report with failures := report.failures ++ [(cameraId, cause)] }, m)
    | none =>
      let (log, removed) := (m.cells cameraId).log.truncate before
      ({ report with recordsRemoved := report.recordsRemoved + removed },
        m.put cameraId { m.cells cameraId with log })

/-- `retention_sweep`: truncate the log's cold prefix. -/
def retentionSweep (config : StateSection) (at_ : Circumstances) (now : Instant)
    (before : Option Instant) (m : Manager) : SweepReport × Manager :=
  let cutoff := before.getD ⟨now.ns - config.logRetentionMs * 1000000⟩
  m.cameras.foldl (sweepCamera at_ cutoff)
    ({ partitions := m.cameras.length, recordsRemoved := 0, before := cutoff }, m)

/-- `forget`: release a camera's partition; the log is untouched. -/
def forget (cameraId : CameraId) (m : Manager) : Manager where
  cells := fun c => if c = cameraId then { log := (m.cells cameraId).log } else m.cells c
  cameras := m.cameras.filter (· ≠ cameraId)

structure StateSnapshot where
  partitions : OrderedDict CameraId CameraPartition
  incomplete : List (CameraId × Message)

def snapshotCamera (m : Manager) (snapshot : StateSnapshot) (cameraId : CameraId) : StateSnapshot :=
  match (m.cells cameraId).partition with
  | none =>
    { snapshot with
      incomplete := snapshot.incomplete ++
        [(cameraId, ("no state for this partition" : Message))] }
  | some p =>
    if p.isDegraded then
      { snapshot with
        incomplete := snapshot.incomplete ++ [(cameraId, (p.degradedReason : Message))] }
    else
      { snapshot with partitions := snapshot.partitions.set cameraId p }

def snapshot (m : Manager) (scope : Option (List CameraId)) : StateSnapshot :=
  (scope.getD m.cameras).foldl m.snapshotCamera ⟨empty, []⟩

/-- `coverage`: live observability, camera by camera. -/
def coverage (m : Manager) (scope : Option (List CameraId)) :
    OrderedDict CameraId ObservabilityState :=
  (scope.getD m.cameras).foldl
    (fun byCamera cameraId =>
      match (m.cells cameraId).partition with
      | none => byCamera
      | some p => byCamera.set cameraId
          (p.observability.getD { cameraId, rate_inUnit := PyFloat.one_inUnit }))
    empty

end Manager

end VisionOs.State
