/-
  The object registry.  A call that raises keeps what it did before, and a frame that raises is
  answered with a failed update.  Randomness is a stream and each reading of the clock an
  argument.  Events, metrics, assertions, latencies and the identity resolver, of which none is
  bound, are left out.
-/
import VisionOs.Lib.Effect
import VisionOs.Registry.Binding
import VisionOs.Registry.Regions

namespace VisionOs.Registry

open Core Lib Effect

/-- What one frame, or one sweep, did to a camera's objects.  Assertions and region transitions
    are left out. -/
structure RegistryUpdate where
  cameraId : CameraId
  frameRef : FrameRef
  objects : List VisualObject := []
  created : List ObjectId := []
  lifecycleChanges : List (ObjectId × LifecycleState × LifecycleState) := []
  expired : List ObjectId := []
  shed : List ObjectId := []
  failed : Bool := false
  reason : Message := []

structure RegistrySection where
  spatialHistoryLength : Nat := 64
  classHistoryLength : Nat := 32
  edgeMargin : PyFloat := .round (2 / 100)
  history_pos : 1 ≤ spatialHistoryLength ∧ 1 ≤ classHistoryLength
  margin_inUnit : edgeMargin.inUnit = true

/-- What a registry is built with.  `math.hypot` is the platform's and `os.urandom` the
    operating system's; what is known of the first is that it is never negative. -/
structure RegistryWiring where
  config : RegistrySection
  tenantId : TenantId
  siteId : SiteId
  provenance : Provenance
  lifecycle : LifecyclePolicy
  binding : BindingPolicy
  attributes : AttributeRegistry := {}
  hypot : PyFloat → PyFloat → PyFloat
  urandom : Nat → Fin (2 ^ 80)
  hypot_nonneg : ∀ x y, (hypot x y).lt (.finite 0) = false

def RegistryWiring.newPartition (wiring : RegistryWiring) (cameraId : CameraId) :
    RegistryPartition where
  cameraId
  tenantId := wiring.tenantId
  siteId := wiring.siteId
  policy := wiring.lifecycle
  provenance := wiring.provenance
  spatialHistory := wiring.config.spatialHistoryLength
  classHistory := wiring.config.classHistoryLength
  table := ∅
  distributions := []
  keyed := by
    intro id r h
    cases h
  bounded := by
    have hpolicy := LifecyclePolicyFields.postInit_eq_ok.mp wiring.lifecycle.accepted
    show (0 : Int) ≤ wiring.lifecycle.maxObjectsPerCamera
    omega

structure Work where
  partition : RegistryPartition
  regions : RegionTracker
  draws : Nat
  created : List ObjectId := []
  changes : List (ObjectId × LifecycleState × LifecycleState) := []
  shed : List ObjectId := []
  touched : List ObjectId := []
  removed : List ObjectId := []
  departed : List VisualObject := []

/-- What a call does to a camera's state: it may raise midway. -/
abbrev Doing := Effect PyException Work

def edit (f : RegistryPartition → RegistryPartition) : Doing Unit :=
  .modify fun w => { w with partition := f w.partition }

def attempt (f : RegistryPartition → Raises RegistryPartition) : Doing Unit := do
  let w ← read
  let p ← ofExcept (f w.partition)
  edit fun _ => p

def RegistryWiring.idAt (wiring : RegistryWiring) (draw : Nat) (now : Instant) : String :=
  newUlid (now.ns / 1000000) (wiring.urandom draw)

def drawId (wiring : RegistryWiring) (now : Instant) : Doing String := do
  let w ← read
  modify fun w => { w with draws := w.draws + 1 }
  return wiring.idAt w.draws now

def openBinding (wiring : RegistryWiring) (id : ObjectId) (trackId : TrackId)
    (method : BindingMethod) (confidence : PyFloat) (now : Instant) : Doing BindingId := do
  attempt (·.closeBindings id now)
  let bindingId ← drawId wiring now
  let stated ← ofExcept (Confidence.uncalibrated confidence .identity)
  let binding ← ofExcept (TrackBinding.construct
    { bindingId, trackId, boundFrom := now, confidence := some stated, method })
  edit (·.addBinding id binding confidence)
  return bindingId

def move (id : ObjectId) (t : LifecycleTransition) : Doing Unit :=
  if t.changed then
    .modify fun w =>
      { w with
        partition := w.partition.setLifecycle id t.current
        changes := w.changes ++ [(id, t.previous, t.current)] }
  else pure ()

/-- How long an object has gone without a measurement. -/
def sinceConfirmed (now : Instant) (r : ObjectRecord) : Duration :=
  ⟨max 0 (now.ns - r.lastConfirmed.ns)⟩

/-! ## Folding a frame -/

def sightingOf (track : Track) : Sighting := ⟨track.classId, track.confidence, track.spatial⟩

def measuredOf (track : Track) : Option Sighting :=
  if track.isPredicted then none else some (sightingOf track)

section Frame

variable (wiring : RegistryWiring)

def tryMint (track : Track) (now : Instant) : Doing (Option ObjectId) := do
  let w ← read
  let objectId := wiring.idAt w.draws now
  match w.partition.mint objectId (sightingOf track) now with
  | .ok p => do
    modify fun w => { w with partition := p, draws := w.draws + 1 }
    return some objectId
  | .error _ => return none

def mint (track : Track) (now : Instant) : Doing (Option ObjectId) := do
  match ← tryMint wiring track now with
  | some id => return some id
  | none => do
    let w ← read
    match w.partition.shedCandidates with
    | [] => return none
    | candidate :: _ => do
      let _ ← ofExcept (onShed candidate.lifecycle)
      modify fun w =>
        { w with
          partition := w.partition.evict candidate.objectId
          shed := w.shed ++ [candidate.objectId] }
      tryMint wiring track now

def absorbNew (track : Track) (now : Instant) (decision : BindingDecision) :
    Doing (Option (ObjectId × Bool)) := do
  match ← mint wiring track now with
  | none => return none
  | some id => do
    let _ ← openBinding wiring id track.trackId .firstSight decision.firstSightConfidence now
    return some (id, true)

/-- `_absorb`: bind one track to an object, minting one if nothing matches.  The records
    it chooses from are read anew before each track; a track that is refused leaves them
    as they were. -/
def absorb (track : Track) (now : Instant) (crossingEpoch : Bool) :
    Doing (Option (ObjectId × Bool)) := do
  let w ← read
  let records := w.partition.records
  match (bindContinuing records track.trackId).matched with
  | some continuity => do
    edit (·.observe continuity.objectId (measuredOf track) now)
    return some (continuity.objectId, false)
  | none => do
    let decision ← ofExcept (bindReentry wiring.hypot wiring.binding track.spatial
      track.classId now crossingEpoch records)
    match decision.matched with
    | some candidate => do
      edit (·.observe candidate.objectId (measuredOf track) now)
      let _ ← openBinding wiring candidate.objectId track.trackId candidate.method
        candidate.score now
      return some (candidate.objectId, false)
    | none => absorbNew wiring track now decision

def trackTransition (track : Track) (now : Instant) (r : ObjectRecord) :
    Raises LifecycleTransition :=
  if track.isPredicted then onUnmeasured wiring.lifecycle r.lifecycle (sinceConfirmed now r) false
  else onMeasured wiring.lifecycle r.lifecycle r.observationCount

def Work.place (w : Work) (id : ObjectId) (instant : Instant) : Work :=
  match w.partition.recordFor id with
  | none => w
  | some r =>
    match r.spatial.bbox with
    | none => w
    | some box =>
      if r.lifecycle.isPresent then { w with regions := (w.regions.update id box instant).1 }
      else w

def Work.touch (w : Work) (id : ObjectId) (wasCreated : Bool) : Work :=
  { w with
    touched := w.touched ++ [id]
    created := if wasCreated then w.created ++ [id] else w.created }

def drive (track : Track) (now : Instant) (id : ObjectId) (wasCreated : Bool) :
    Doing Unit := do
  modify fun w => w.touch id wasCreated
  let w ← read
  match w.partition.recordFor id with
  | none => return ()
  | some r => do
    let t ← ofExcept (trackTransition wiring track now r)
    move id t
    modify fun w => w.place id track.lastSeen

def foldTrack (now : Instant) (crossingEpoch : Bool) (track : Track) : Doing Unit := do
  match ← absorb wiring track now crossingEpoch with
  | none => return ()
  | some (id, wasCreated) => drive wiring track now id wasCreated

def leftFieldOfView (r : ObjectRecord) : Bool :=
  match r.spatial.bbox with
  | none => false
  | some box =>
    let margin := wiring.config.edgeMargin
    box.x1.le margin || box.y1.le margin || ((PyFloat.finite 1).sub margin).le box.x2 ||
      ((PyFloat.finite 1).sub margin).le box.y2

/-- What follows for an object with no track this frame, its bindings closed. -/
def ageUnbound (now : Instant) (id : ObjectId) (r : ObjectRecord) : Doing Unit := do
  let t ← ofExcept (onUnmeasured wiring.lifecycle r.lifecycle (sinceConfirmed now r)
    (leftFieldOfView wiring r))
  edit (·.observe id none now)
  move id t
  if t.changed ∧ t.current.isPresent = false then
    modify fun w => { w with regions := (w.regions.forget id now).1 }
  else pure ()

def ageRecord (now : Instant) (id : ObjectId) : Doing Unit := do
  let w ← read
  match w.partition.recordFor id with
  | none => return ()
  | some r =>
    if id ∈ w.touched ∨ r.lifecycle.isTerminal = true then return ()
    else do
      attempt (·.closeBindings id now)
      ageUnbound wiring now id r

def foldFrame (tracks : List Track) (now : Instant) (crossingEpoch : Bool) :
    Doing (List VisualObject) := do
  forEach (foldTrack wiring now crossingEpoch) tracks
  let folded ← read
  forEach (ageRecord wiring now) folded.partition.ids
  let aged ← read
  ofExcept aged.partition.objects

end Frame

end VisionOs.Registry
