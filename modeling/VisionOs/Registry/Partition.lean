/-
  One camera's objects: their mutable records, and every write to them.  A record stands under its
  own id and the population never passes its cap; both are fields.  A split shares class evidence
  between two records, so records hold a reference to theirs.  The version and the count of minted
  ids, which decide nothing, are left out.
-/
import VisionOs.Core.Track
import VisionOs.Lib.Bounded
import VisionOs.Registry.Lifecycle
import Mathlib.Data.List.Sort
import Mathlib.Data.String.Basic

namespace VisionOs.Registry

open Core Lib List OrderedDict TrackBindingFields PyFloat Option Except BoundedDeque TrackBinding

structure ClassDistribution where
  weights : OrderedDict ClassId PyFloat := ∅
  observations : Int := 0

namespace ClassDistribution

def weight (d : ClassDistribution) (classId : ClassId) : PyFloat :=
  (d.weights.get? classId).getD (.finite 0)

def observe (d : ClassDistribution) (classId : ClassId) (confidence : PyFloat) :
    ClassDistribution where
  weights := d.weights.set classId
    ((d.weight classId).add ((finite 0).pyMax confidence))
  observations := d.observations + 1

def absorb (d source : ClassDistribution) : ClassDistribution where
  weights := source.weights.entries.foldl
    (fun weights e => weights.set e.1 (((weights.get? e.1).getD (.finite 0)).add e.2)) d.weights
  observations := d.observations + source.observations

def best (d : ClassDistribution) : Option ClassId :=
  let total := d.weights.values.foldl add (.finite 0)
  if total.le (.finite 0) then none
  else
    match d.weights.keys.insertionSort (· ≤ ·) with
    | [] => none
    | first :: rest =>
      some (rest.foldl (fun b c => if (d.weight b).lt (d.weight c) then c else b) first)

end ClassDistribution

/-! ## Records -/

def restate (c : Confidence) (semantics : ConfidenceSemantics) : Confidence where
  value := c.value
  semantics
  rawScore := some c.value
  accepted := ConfidenceFields.postInit_uncalibrated semantics c.value_inUnit

structure ObjectRecord where
  objectId : ObjectId
  cameraId : CameraId
  tenantId : TenantId
  siteId : SiteId
  lifecycle : LifecycleState
  classId : ClassId
  /-- Which of the partition's distributions is this record's. -/
  distribution : Nat
  spatial : SpatialInfo
  firstSeen : Instant
  lastSeen : Instant
  lastConfirmed : Instant
  identityConfidence : PyFloat
  observationCount : Int := 0
  unmeasuredFrames : Int := 0
  bindings : List TrackBinding := []
  classHistory : BoundedDeque ClassObservation := .empty 32
  spatialHistory : BoundedDeque (Instant × SpatialInfo) := .empty 64
  attributes : OrderedDict AttributeKey Attribute := ∅
  mergedInto : Option ObjectId := none
  lineage : List ObjectId := []

structure Sighting where
  classId : ClassId
  confidence : Confidence
  spatial : SpatialInfo

def Sighting.classObservation (s : Sighting) (now : Instant) : ClassObservation where
  classId := s.classId
  observedAt := now
  confidence := restate s.confidence .classification

namespace ObjectRecord

def openBinding (r : ObjectRecord) : Option TrackBinding :=
  r.bindings.reverse.find? (fun b => b.isOpen && !b.isSuperseded)

def boundTrack (r : ObjectRecord) : Option TrackId := r.openBinding.map (·.trackId)

def owns (r : ObjectRecord) (trackId : TrackId) : Bool :=
  r.boundTrack = some trackId && !r.lifecycle.isTerminal

def unseen (r : ObjectRecord) (now : Instant) : ObjectRecord :=
  { r with
    lastSeen := now
    observationCount := r.observationCount + 1
    unmeasuredFrames := r.unmeasuredFrames + 1 }

/-- A frame in which it was.  The published class is the best of all evidence, where
    there is any. -/
def seen (r : ObjectRecord) (s : Sighting) (now : Instant) (best : Option ClassId) : ObjectRecord :=
  { r with
    lastSeen := now
    observationCount := r.observationCount + 1
    lastConfirmed := now
    unmeasuredFrames := 0
    spatial := s.spatial
    spatialHistory := r.spatialHistory.push (now, s.spatial)
    classHistory := r.classHistory.push (s.classObservation now)
    classId := best.getD r.classId }

/-- How far two boxes are apart, out of what a frame allows; `hypot` is the platform's. -/
def spatialDistance (hypot : PyFloat → PyFloat → PyFloat) (first second : SpatialInfo) : PyFloat :=
  match first.bbox, second.bbox with
  | some a, some b =>
    let distance := hypot (a.centre.x.sub b.centre.x) (a.centre.y.sub b.centre.y)
    (finite 1).pyMin (distance.quotient (.round (14142135623730951 / 10000000000000000)))
  | _, _ => .finite 1

structure Observed (sighting : Option Sighting) (now : Instant) (r r' : ObjectRecord) :
    Prop where
  objectId : r'.objectId = r.objectId
  lifecycle : r'.lifecycle = r.lifecycle
  bindings : r'.bindings = r.bindings
  mergedInto : r'.mergedInto = r.mergedInto
  firstSeen : r'.firstSeen = r.firstSeen
  lastSeen : r'.lastSeen = now
  observationCount : r'.observationCount = r.observationCount + 1
  lastConfirmed : r'.lastConfirmed = now ∨ r'.lastConfirmed = r.lastConfirmed
  unconfirmed : sighting = none → r'.lastConfirmed = r.lastConfirmed
  spatial : r'.spatial = r.spatial ∨ ∃ s, sighting = some s ∧ r'.spatial = s.spatial
  believed : sighting = none →
    r'.spatialHistory = r.spatialHistory ∧ r'.classHistory = r.classHistory
  measured : ∀ s, sighting = some s → r'.lastConfirmed = now ∧
    r'.spatialHistory = r.spatialHistory.push (now, s.spatial) ∧
    r'.classHistory = r.classHistory.push (s.classObservation now)

/-- What the constructor of the published object demands. -/
structure Projectable (r : ObjectRecord) : Prop where
  merged : r.lifecycle = .mergedInto ↔ r.mergedInto ≠ none
  notSelf : r.mergedInto ≠ some r.objectId
  observed : 0 ≤ r.observationCount
  seen_le : r.firstSeen.ns ≤ r.lastSeen.ns
  confirmed_le : r.lastConfirmed.ns ≤ r.lastSeen.ns

theorem observed_unseen (r : ObjectRecord) (now : Instant) :
    Observed none now r (r.unseen now) := by
  refine ⟨rfl, rfl, rfl, rfl, rfl, rfl, rfl, .inr rfl, fun _ => rfl, .inl rfl,
    fun _ => ⟨rfl, rfl⟩, ?_⟩
  intro s hs
  cases hs

theorem observed_seen (r : ObjectRecord) (s : Sighting) (now : Instant) (best : Option ClassId) :
    Observed (some s) now r (r.seen s now best) := by
  refine ⟨rfl, rfl, rfl, rfl, rfl, rfl, rfl, .inl rfl, fun h => ?_, .inr ⟨s, rfl, rfl⟩,
    fun h => ?_, fun s' hs' => ?_⟩
  · cases h
  · cases h
  rw [← some.inj hs']
  exact ⟨rfl, rfl, rfl⟩

variable {r : ObjectRecord}

theorem boundTrack_of_closed (h : ∀ b ∈ r.bindings, b.isOpen = false) : r.boundTrack = none := by
  unfold boundTrack openBinding
  rw [map_eq_none_iff, find?_eq_none]
  intro b hb
  simp [h b (mem_reverse.mp hb)]

theorem boundTrack_append {before : List TrackBinding} {b : TrackBinding}
    (h : r.bindings = before ++ [b]) (hopen : b.isOpen = true)
    (hcurrent : b.isSuperseded = false) : r.boundTrack = some b.trackId := by
  unfold boundTrack openBinding
  rw [h, reverse_append]
  simp [hopen, hcurrent]

theorem owns_iff {trackId : TrackId} :
    r.owns trackId = true ↔ r.boundTrack = some trackId ∧ r.lifecycle.isTerminal = false := by
  unfold owns
  simp

theorem boundTrack_congr {r' : ObjectRecord} (h : r'.bindings = r.bindings) :
    r'.boundTrack = r.boundTrack := by
  unfold boundTrack openBinding
  rw [h]

end ObjectRecord

structure RegistryPartition where
  cameraId : CameraId
  tenantId : TenantId
  siteId : SiteId
  policy : LifecyclePolicy
  provenance : Provenance
  spatialHistory : Nat
  classHistory : Nat
  /-- The records by id, in the order they came. -/
  table : OrderedDict ObjectId ObjectRecord
  distributions : List ClassDistribution
  keyed : ∀ id r, table.get? id = some r → r.objectId = id
  bounded : (table.size : Int) ≤ policy.maxObjectsPerCamera

namespace RegistryPartition

def recordFor (p : RegistryPartition) (id : ObjectId) : Option ObjectRecord := p.table.get? id

def ids (p : RegistryPartition) : List ObjectId := p.table.keys.insertionSort (· ≤ ·)

/-- `records`: every record in stable id order. -/
def records (p : RegistryPartition) : List ObjectRecord := p.ids.filterMap p.recordFor

/-- `by_track`: the object currently bound to this track. -/
def byTrack (p : RegistryPartition) (trackId : TrackId) : Option ObjectRecord :=
  p.records.find? (·.owns trackId)

def atCapacity (p : RegistryPartition) : Bool := p.table.size ≥ p.policy.maxObjectsPerCamera

def evidence (p : RegistryPartition) (r : ObjectRecord) : ClassDistribution :=
  p.distributions.getD r.distribution {}

def shedCandidates (p : RegistryPartition) : List ObjectRecord :=
  (p.table.values.filter (fun r => r.lifecycle = .provisional)).insertionSort
    (fun a b => a.firstSeen.ns < b.firstSeen.ns ∨
      a.firstSeen.ns = b.firstSeen.ns ∧ a.objectId ≤ b.objectId)

def shedNext (p : RegistryPartition) : Option ObjectRecord :=
  if p.atCapacity then p.shedCandidates.head? else none

/-- `_project`: freeze a record into the published object. -/
def project (p : RegistryPartition) (r : ObjectRecord) : Raises VisualObject := do
  let confidence ← Confidence.uncalibrated
    ((finite 0).pyMax ((finite 1).pyMin r.identityConfidence)) .identity
  VisualObject.construct {
    objectId := r.objectId
    tenantId := r.tenantId
    siteId := r.siteId
    cameraId := r.cameraId
    classId := r.classId
    confidence
    lifecycle := r.lifecycle
    classHistory := r.classHistory.items
    trackBindings := r.bindings
    currentSpatial := r.spatial
    spatialHistory := r.spatialHistory.items
    attributes := r.attributes
    firstSeen := r.firstSeen
    lastSeen := r.lastSeen
    lastConfirmed := r.lastConfirmed
    observationCount := r.observationCount
    provenance := p.provenance
    mergedInto := r.mergedInto
    lineage := r.lineage }

/-- `objects`: every object in stable id order, terminal ones included. -/
def objects (p : RegistryPartition) : Raises (List VisualObject) := p.records.mapM p.project

/-! ### Writes -/

def update (p : RegistryPartition) (id : ObjectId) (f : ObjectRecord → ObjectRecord)
    (hf : ∀ r, (f r).objectId = r.objectId := by intro r; rfl) : RegistryPartition :=
  { p with
    table := p.table.modify id f
    keyed := by
      intro k r hr
      rw [get?_modify] at hr
      split at hr
      · obtain ⟨r', hr', rfl⟩ := map_eq_some_iff.mp hr
        rw [hf, p.keyed k r' hr']
      · exact p.keyed k r hr
    bounded := by
      rw [size_modify]
      exact p.bounded }

def insert (p : RegistryPartition) (r : ObjectRecord)
    (hroom : (p.table.size : Int) < p.policy.maxObjectsPerCamera) : RegistryPartition :=
  { p with
    table := p.table.set r.objectId r
    keyed := by
      intro k r' hr'
      rw [get?_set] at hr'
      split at hr'
      · rename_i hk
        rw [← some.inj hr']
        exact hk
      · exact p.keyed k r' hr'
    bounded := by
      have hsize := p.table.size_set_le r.objectId r
      omega }

def evict (p : RegistryPartition) (id : ObjectId) : RegistryPartition :=
  { p with
    table := p.table.erase id
    keyed := by
      intro k r hr
      rw [get?_erase] at hr
      split at hr
      · cases hr
      · exact p.keyed k r hr
    bounded := by
      have hsize := p.table.size_erase_le id
      have hbounded := p.bounded
      omega }

def newRecord (p : RegistryPartition) (objectId : ObjectId) (s : Sighting) (now : Instant) :
    ObjectRecord where
  objectId
  cameraId := p.cameraId
  tenantId := p.tenantId
  siteId := p.siteId
  lifecycle := .provisional
  classId := s.classId
  distribution := p.distributions.length
  spatial := s.spatial
  firstSeen := now
  lastSeen := now
  lastConfirmed := now
  identityConfidence := s.confidence.value
  observationCount := 1
  classHistory := (empty p.classHistory).push (s.classObservation now)
  spatialHistory := (empty p.spatialHistory).push (now, s.spatial)

def mint (p : RegistryPartition) (objectId : ObjectId) (s : Sighting) (now : Instant) :
    Raises RegistryPartition :=
  if hfull : (p.table.size : Int) ≥ p.policy.maxObjectsPerCamera then
    .error (.registryCapacityError
      s!"partition '{p.cameraId}' holds {p.table.size} objects (max {p.policy.maxObjectsPerCamera}); refusing to grow")
  else
    let evidence := ClassDistribution.observe {} s.classId s.confidence.value
    .ok ({ p with distributions := p.distributions ++ [evidence] }.insert
      (p.newRecord objectId s now) (Int.not_le.mp hfull))

/-- `observe`: fold one frame into an object, with what was measured of it or nothing.
    A frame that measured nothing moves the object's clock and not its evidence. -/
def observe (p : RegistryPartition) (id : ObjectId) (sighting : Option Sighting)
    (now : Instant) : RegistryPartition :=
  match sighting, p.recordFor id with
  | some s, some r =>
    let evidence := (p.evidence r).observe s.classId s.confidence.value
    { p with distributions := p.distributions.set r.distribution evidence }.update id
      (fun r => r.seen s now evidence.best)
  | _, _ => p.update id (fun r => r.unseen now)

def setLifecycle (p : RegistryPartition) (id : ObjectId) (state : LifecycleState) :
    RegistryPartition :=
  p.update id (fun r => { r with lifecycle := state })

def closeBinding (now : Instant) (b : TrackBinding) : Raises TrackBinding :=
  if b.isOpen then construct { b.toTrackBindingFields with boundTo := some now }
  else .ok b

def closeBindings (p : RegistryPartition) (id : ObjectId) (now : Instant) :
    Raises RegistryPartition :=
  match p.recordFor id with
  | none => .ok p
  | some r =>
    if r.bindings.any (·.isOpen) then do
      let bindings ← r.bindings.mapM (closeBinding now)
      return p.update id (fun r => { r with bindings })
    else .ok p

def addBinding (p : RegistryPartition) (id : ObjectId) (binding : TrackBinding)
    (confidence : PyFloat) : RegistryPartition :=
  p.update id (fun r =>
    { r with bindings := r.bindings ++ [binding], identityConfidence := confidence })

def applyAttribute (p : RegistryPartition) (id : ObjectId) (held : Attribute) : RegistryPartition :=
  p.update id (fun r => { r with attributes := r.attributes.set held.key held })

def inherit (p : RegistryPartition) (id : ObjectId) (source : ObjectRecord) : RegistryPartition :=
  match p.recordFor id with
  | none => p
  | some target =>
    let evidence := (p.evidence target).absorb (p.evidence source)
    { p with distributions := p.distributions.set target.distribution evidence }.update id
      (fun r =>
        { r with
          lineage := r.lineage ++ [source.objectId]
          firstSeen := ⟨min r.firstSeen.ns source.firstSeen.ns⟩
          observationCount := r.observationCount + source.observationCount
          classId := evidence.best.getD r.classId })

def merge (p : RegistryPartition) (source target : ObjectRecord) (now : Instant) :
    Raises RegistryPartition := do
  require (source.objectId ≠ target.objectId)
    (.identityConflictError "an object cannot be merged into itself")
  require (source.cameraId = target.cameraId) (.identityConflictError
    s!"cross-partition merge from '{source.cameraId}' to '{target.cameraId}' must be a two-phase, event-driven operation at the site layer; taking a lock across camera partitions reintroduces exactly the global contention the sharding model eliminates (03_MODULES M7)")
  require (target.mergedInto = none) (.identityConflictError
    s!"target '{target.objectId}' has itself been merged; merging into it would leave the surviving identity ambiguous")
  let closed ← p.closeBindings source.objectId now
  let marked := closed.update source.objectId
    (fun r => { r with mergedInto := some target.objectId, lifecycle := .mergedInto })
  return marked.inherit target.objectId source

def adopt (p : RegistryPartition) (r : ObjectRecord) : Raises RegistryPartition :=
  if (p.recordFor r.objectId).isSome then
    .error (.identityConflictError s!"object '{r.objectId}' already exists in this partition")
  else if hfull : (p.table.size : Int) ≥ p.policy.maxObjectsPerCamera then
    .error (.registryCapacityError s!"partition '{p.cameraId}' is at capacity")
  else .ok (p.insert r (by omega))

/-! ### What the writes leave -/

variable {p p' : RegistryPartition} {id k : ObjectId}

theorem recordFor_update (p : RegistryPartition) (id k : ObjectId)
    (f : ObjectRecord → ObjectRecord) (hf : ∀ r, (f r).objectId = r.objectId) :
    (p.update id f hf).recordFor k = if id = k then (p.recordFor k).map f else p.recordFor k :=
  get?_modify p.table id k f

variable {f : ObjectRecord → ObjectRecord}

theorem recordFor_update_self {r : ObjectRecord}
    {hf : ∀ r, (f r).objectId = r.objectId} (hr : p.recordFor id = some r) :
    (p.update id f hf).recordFor id = some (f r) := by
  rw [recordFor_update, if_pos rfl, hr]
  rfl

theorem recordFor_applyAttribute {r : ObjectRecord} (held : Attribute)
    (hr : p.recordFor id = some r) : (p.applyAttribute id held).recordFor id =
      some { r with attributes := r.attributes.set held.key held } :=
  recordFor_update_self hr

theorem recordFor_update_of_ne
    {hf : ∀ r, (f r).objectId = r.objectId} (hk : k ≠ id) :
    (p.update id f hf).recordFor k = p.recordFor k := by
  rw [recordFor_update, if_neg (Ne.symm hk)]

theorem recordFor_insert (p : RegistryPartition) (r : ObjectRecord)
    (hroom : (p.table.size : Int) < p.policy.maxObjectsPerCamera) (k : ObjectId) :
    (p.insert r hroom).recordFor k = if r.objectId = k then some r else p.recordFor k :=
  get?_set p.table r.objectId k r

theorem recordFor_evict (p : RegistryPartition) (id k : ObjectId) :
    (p.evict id).recordFor k = if k = id then none else p.recordFor k :=
  get?_erase p.table id k

variable {r : ObjectRecord}

theorem objectId_of_recordFor (h : p.recordFor id = some r) : r.objectId = id :=
  p.keyed id r h

theorem recordFor_objectId (h : p.recordFor id = some r) : p.recordFor r.objectId = some r := by
  rw [objectId_of_recordFor h]
  exact h

theorem mem_ids : id ∈ p.ids ↔ ∃ r, p.recordFor id = some r := by
  unfold ids
  rw [mem_insertionSort]
  by_cases hid : id ∈ p.table.keys
  · obtain ⟨e, he, rfl⟩ := mem_map.mp hid
    exact ⟨fun _ => ⟨e.2, get?_eq_some_iff.mpr he⟩, fun _ => hid⟩
  · have hnone : p.recordFor id = none := get?_eq_none_iff.mpr hid
    rw [hnone]
    simp [hid]

theorem mem_records : r ∈ p.records ↔ p.recordFor r.objectId = some r := by
  unfold records
  rw [mem_filterMap]
  constructor
  · rintro ⟨k, -, hk⟩
    exact recordFor_objectId hk
  · intro h
    exact ⟨r.objectId, mem_ids.mpr ⟨r, h⟩, h⟩

/-- Some live record of the partition is bound to the track. -/
def Owner (p : RegistryPartition) (trackId : TrackId) (id : ObjectId) : Prop :=
  ∃ r, p.recordFor id = some r ∧ r.owns trackId = true

theorem pairwise_records (p : RegistryPartition) :
    p.records.Pairwise (fun a b => a.objectId ≤ b.objectId) := by
  have hids : p.ids.Pairwise (· ≤ ·) := pairwise_insertionSort _ _
  refine hids.filterMap p.recordFor ?_
  intro a b hab r hr r' hr'
  rw [objectId_of_recordFor hr, objectId_of_recordFor hr']
  exact hab

theorem byTrack_eq_some_iff {trackId : TrackId} :
    p.byTrack trackId = some r ↔ p.recordFor r.objectId = some r ∧ r.owns trackId = true ∧
      ∀ id, p.Owner trackId id → r.objectId ≤ id := by
  have hforward : ∀ r, p.byTrack trackId = some r → p.recordFor r.objectId = some r ∧
      r.owns trackId = true ∧ ∀ id, p.Owner trackId id → r.objectId ≤ id := by
    intro r h
    obtain ⟨howns, before, after, hsplit, hbefore⟩ := find?_eq_some_iff_append.mp h
    refine ⟨mem_records.mp (by rw [hsplit]; simp), howns, ?_⟩
    rintro id ⟨r', hr', howns'⟩
    have hid := objectId_of_recordFor hr'
    have hmem : r' ∈ before ++ r :: after := by
      rw [← hsplit, mem_records, hid]
      exact hr'
    have hsorted := p.pairwise_records
    rw [hsplit, pairwise_append, pairwise_cons] at hsorted
    rw [← hid]
    rcases mem_append.mp hmem with hmem | hmem
    · have hno := hbefore r' hmem
      rw [howns'] at hno
      cases hno
    · rcases mem_cons.mp hmem with rfl | hmem
      · exact le_rfl
      · exact hsorted.2.1.1 r' hmem
  refine ⟨hforward r, ?_⟩
  rintro ⟨hr, howns, hleast⟩
  -- Some record is found, and two least owners are the same.
  obtain ⟨found, hfound⟩ : ∃ found, p.byTrack trackId = some found := by
    rw [← isSome_iff_exists]
    unfold byTrack
    rw [find?_isSome]
    exact ⟨r, mem_records.mpr hr, howns⟩
  obtain ⟨hrecord, howner, hleast'⟩ := hforward found hfound
  have hid : found.objectId = r.objectId :=
    le_antisymm (hleast' _ ⟨r, hr, howns⟩) (hleast _ ⟨found, hrecord, howner⟩)
  rw [hid, hr] at hrecord
  rw [hfound, hrecord]

theorem recordFor_setLifecycle (hr : p.recordFor id = some r) (state : LifecycleState) :
    (p.setLifecycle id state).recordFor id = some { r with lifecycle := state } ∧
    ∀ k, k ≠ id → (p.setLifecycle id state).recordFor k = p.recordFor k := by
  refine ⟨recordFor_update_self hr, fun k hk => ?_⟩
  exact recordFor_update_of_ne hk

theorem recordFor_addBinding (hr : p.recordFor id = some r)
    (binding : TrackBinding) (confidence : PyFloat) :
    (p.addBinding id binding confidence).recordFor id = some
      { r with bindings := r.bindings ++ [binding], identityConfidence := confidence } ∧
    ∀ k, k ≠ id → (p.addBinding id binding confidence).recordFor k = p.recordFor k := by
  refine ⟨recordFor_update_self hr, fun k hk => ?_⟩
  exact recordFor_update_of_ne hk

theorem recordFor_observe (hr : p.recordFor id = some r)
    (sighting : Option Sighting) (now : Instant) :
    (∃ r', (p.observe id sighting now).recordFor id = some r' ∧
      ObjectRecord.Observed sighting now r r') ∧
    ∀ k, k ≠ id → (p.observe id sighting now).recordFor k = p.recordFor k := by
  unfold observe
  rw [hr]
  cases sighting with
  | none =>
    exact ⟨⟨_, recordFor_update_self hr, ObjectRecord.observed_unseen r now⟩,
      fun k hk => recordFor_update_of_ne hk⟩
  | some s =>
    exact ⟨⟨_, recordFor_update_self hr, ObjectRecord.observed_seen r s now _⟩,
      fun k hk => recordFor_update_of_ne hk⟩

theorem recordFor_inherit {target : ObjectRecord} (htarget : p.recordFor id = some target)
    (source : ObjectRecord) :
    (∃ classId, (p.inherit id source).recordFor id = some
      { target with
        lineage := target.lineage ++ [source.objectId]
        firstSeen := ⟨min target.firstSeen.ns source.firstSeen.ns⟩
        observationCount := target.observationCount + source.observationCount
        classId }) ∧
    ∀ k, k ≠ id → (p.inherit id source).recordFor k = p.recordFor k := by
  unfold inherit
  rw [htarget]
  refine ⟨⟨_, recordFor_update_self htarget⟩, fun k hk => ?_⟩
  exact recordFor_update_of_ne hk

theorem recordFor_adopt (h : p.adopt r = .ok p') :
    p'.recordFor r.objectId = some r ∧ ∀ k, k ≠ r.objectId → p'.recordFor k = p.recordFor k := by
  unfold adopt at h
  split at h
  · cases h
  split at h
  · cases h
  rw [← ok.inj h]
  refine ⟨?_, fun k hk => ?_⟩
  · rw [recordFor_insert, if_pos rfl]
  · rw [recordFor_insert, if_neg (Ne.symm hk)]

theorem fresh_of_adopt (h : p.adopt r = .ok p') : p.recordFor r.objectId = none := by
  unfold adopt at h
  split at h
  · cases h
  · rename_i hnone
    simpa using hnone

theorem full_of_adopt {exc : PyException} (hnone : p.recordFor r.objectId = none)
    (h : p.adopt r = .error exc) : p.policy.maxObjectsPerCamera ≤ p.table.size := by
  unfold adopt at h
  rw [hnone] at h
  by_contra hroom
  rw [if_neg (by simp), dif_neg hroom] at h
  cases h

theorem size_adopt (h : p.adopt r = .ok p') :
    p'.policy = p.policy ∧ p'.table.size ≤ p.table.size + 1 := by
  unfold adopt at h
  split at h
  · cases h
  split at h
  · cases h
  rw [← ok.inj h]
  exact ⟨rfl, size_set_le ..⟩

theorem mem_shedCandidates :
    r ∈ p.shedCandidates ↔ p.recordFor r.objectId = some r ∧ r.lifecycle = .provisional := by
  unfold shedCandidates
  rw [mem_insertionSort, mem_filter, decide_eq_true_eq]
  apply and_congr_left
  intro _
  constructor
  · intro h
    obtain ⟨e, he, rfl⟩ := mem_map.mp h
    exact recordFor_objectId (get?_eq_some_iff.mpr he)
  · intro h
    exact mem_map.mpr ⟨(r.objectId, r), get?_eq_some_iff.mp h, rfl⟩

theorem project_ok_iff (p : RegistryPartition) (r : ObjectRecord) :
    (∃ o, p.project r = .ok o) ↔ r.Projectable := by
  obtain ⟨c, hc⟩ := (@Confidence.uncalibrated_eq_ok_iff _ .identity).mpr
    (clamp_inUnit r.identityConfidence)
  have hsemantics := (Confidence.uncalibrated_semantics hc).1
  unfold project
  rw [hc, ok_bind]
  constructor
  · rintro ⟨o, ho⟩
    obtain ⟨haccepted, -⟩ := constructWith_eq_ok_iff.mp ho
    obtain ⟨-, hmerged, hself, hcount, hseen, hconfirmed⟩ :=
      VisualObjectFields.postInit_eq_ok.mp haccepted
    exact ⟨hmerged, hself, hcount, hseen, hconfirmed⟩
  · intro h
    refine ⟨_, constructWith_eq_ok (VisualObjectFields.postInit_eq_ok.mpr ?_)⟩
    exact ⟨hsemantics, h.merged, h.notSelf, h.observed, h.seen_le, h.confirmed_le⟩

variable {o : VisualObject}

theorem project_objectId (h : p.project r = .ok o) :
    o.objectId = r.objectId := by
  obtain ⟨c, -, h⟩ := bind_eq_ok.mp h
  obtain ⟨_, rfl⟩ := constructWith_eq_ok_iff.mp h
  rfl

theorem project_lifecycle (h : p.project r = .ok o) :
    o.lifecycle = r.lifecycle := by
  obtain ⟨c, -, h⟩ := bind_eq_ok.mp h
  obtain ⟨_, rfl⟩ := constructWith_eq_ok_iff.mp h
  rfl

theorem objects_ok (h : ∀ k r, p.recordFor k = some r → r.Projectable) :
    ∃ objects, p.objects = .ok objects := by
  obtain ⟨objects, hobjects, -⟩ := @mapM_returns _ _ p.project p.records
    (fun r hr => (p.project_ok_iff r).mpr (h r.objectId r (mem_records.mp hr)))
  exact ⟨objects, hobjects⟩

theorem mem_objects {objects : List VisualObject} (h : p.objects = .ok objects) :
    id ∈ objects.map (·.objectId) ↔ ∃ r, p.recordFor id = some r := by
  obtain ⟨hforward, hback⟩ := mapM_ok h
  constructor
  · intro hid
    obtain ⟨o, ho, rfl⟩ := mem_map.mp hid
    obtain ⟨r, hr, hro⟩ := hback o ho
    rw [project_objectId hro]
    exact ⟨r, mem_records.mp hr⟩
  · rintro ⟨r, hr⟩
    have hmem : r ∈ p.records := by
      rw [mem_records, objectId_of_recordFor hr]
      exact hr
    obtain ⟨o, ho, hro⟩ := hforward r hmem
    refine mem_map.mpr ⟨o, ho, ?_⟩
    rw [project_objectId hro]
    exact objectId_of_recordFor hr

variable {now : Instant}

theorem closeBinding_ok_iff {b : TrackBinding} :
    (∃ b', closeBinding now b = .ok b') ↔ (b.isOpen = true → b.boundFrom.ns ≤ now.ns) := by
  unfold closeBinding
  by_cases hopen : b.isOpen = true
  · rw [if_pos hopen]
    have haccepted := postInit_eq_ok.mp b.accepted
    constructor
    · rintro ⟨b', hb'⟩ -
      obtain ⟨h, -⟩ := constructWith_eq_ok_iff.mp hb'
      exact (postInit_eq_ok.mp h).2 now rfl
    · intro h
      have hclosed : postInit
          { b.toTrackBindingFields with boundTo := some now } = .ok () := by
        refine postInit_eq_ok.mpr ⟨haccepted.1, ?_⟩
        intro t ht
        rw [← some.inj ht]
        exact h hopen
      exact ⟨_, constructWith_eq_ok hclosed⟩
  · rw [if_neg hopen]
    exact ⟨fun _ hopen' => absurd hopen' hopen, fun _ => ⟨b, rfl⟩⟩

theorem closeBinding_closed {b b' : TrackBinding}
    (h : closeBinding now b = .ok b') : b'.isOpen = false := by
  unfold closeBinding at h
  split at h
  · obtain ⟨_, rfl⟩ := constructWith_eq_ok_iff.mp h
    rfl
  · rename_i hopen
    rw [← ok.inj h]
    simpa using hopen

theorem closeBindings_ok (hr : p.recordFor id = some r) (h : p.closeBindings id now = .ok p') :
    (∃ bindings, (∀ b ∈ bindings, b.isOpen = false) ∧
      p'.recordFor id = some { r with bindings }) ∧
    ∀ k, k ≠ id → p'.recordFor k = p.recordFor k := by
  unfold closeBindings at h
  rw [hr] at h
  by_cases hany : r.bindings.any (·.isOpen) = true
  · simp only [hany, if_true] at h
    obtain ⟨bindings, hbindings, h⟩ := bind_eq_ok.mp h
    rw [← ok.inj h]
    refine ⟨⟨bindings, ?_, recordFor_update_self hr⟩, fun k hk => recordFor_update_of_ne hk⟩
    intro b' hb'
    obtain ⟨b, -, hb⟩ := (mapM_ok hbindings).2 b' hb'
    exact closeBinding_closed hb
  · simp only [hany] at h
    rw [← ok.inj h]
    refine ⟨⟨r.bindings, ?_, hr⟩, fun k _ => rfl⟩
    intro b hb
    by_contra hopen
    exact hany (any_eq_true.mpr ⟨b, hb, by simpa using hopen⟩)

theorem closeBindings_ok_iff (hr : p.recordFor id = some r) :
    (∃ p', p.closeBindings id now = .ok p') ↔
      ∀ b ∈ r.bindings, b.isOpen = true → b.boundFrom.ns ≤ now.ns := by
  unfold closeBindings
  rw [hr]
  by_cases hany : r.bindings.any (·.isOpen) = true
  · simp only [hany, if_true]
    constructor
    · rintro ⟨p', h⟩ b hb
      obtain ⟨bindings, hbindings, -⟩ := bind_eq_ok.mp h
      obtain ⟨b', -, hb'⟩ := (mapM_ok hbindings).1 b hb
      exact closeBinding_ok_iff.mp ⟨b', hb'⟩
    · intro h
      obtain ⟨bindings, hbindings, -⟩ :=
        mapM_returns (fun b hb => closeBinding_ok_iff.mpr (h b hb))
      exact ⟨_, bind_eq_ok.mpr ⟨bindings, hbindings, rfl⟩⟩
  · simp only [hany]
    refine ⟨fun _ b hb hopen => ?_, fun _ => ⟨p, rfl⟩⟩
    exact absurd (any_eq_true.mpr ⟨b, hb, hopen⟩) hany

theorem merge_ok {source target : ObjectRecord}
    (hsource : p.recordFor source.objectId = some source)
    (htarget : p.recordFor target.objectId = some target)
    (h : p.merge source target now = .ok p') :
    source.objectId ≠ target.objectId ∧ target.mergedInto = none ∧
    (∃ bindings, (∀ b ∈ bindings, isOpen b = false) ∧
      p'.recordFor source.objectId = some
        { source with
          bindings
          mergedInto := some target.objectId
          lifecycle := .mergedInto }) ∧
    (∃ classId, p'.recordFor target.objectId = some
      { target with
        lineage := target.lineage ++ [source.objectId]
        firstSeen := ⟨min target.firstSeen.ns source.firstSeen.ns⟩
        observationCount := target.observationCount + source.observationCount
        classId }) ∧
    ∀ k, k ≠ source.objectId → k ≠ target.objectId → p'.recordFor k = p.recordFor k := by
  obtain ⟨hdistinct, h⟩ := check_bind_eq_ok.mp h
  obtain ⟨-, h⟩ := check_bind_eq_ok.mp h
  obtain ⟨hfinal, h⟩ := check_bind_eq_ok.mp h
  obtain ⟨closed, hclosed, h⟩ := bind_eq_ok.mp h
  have hne : source.objectId ≠ target.objectId := require_eq_ok.mp hdistinct
  obtain ⟨⟨bindings, hbindings, hrecord⟩, hothers⟩ := closeBindings_ok hsource hclosed
  rw [← ok.inj h]
  -- The source is marked before the target takes over.
  generalize hmark : closed.update source.objectId (fun r =>
    { r with mergedInto := some target.objectId, lifecycle := .mergedInto }) = marked
  have hself : marked.recordFor source.objectId = some
      { source with
        bindings
        mergedInto := some target.objectId
        lifecycle := .mergedInto } := by
    rw [← hmark]
    exact recordFor_update_self hrecord
  have hrest : ∀ k, k ≠ source.objectId → marked.recordFor k = p.recordFor k := by
    intro k hk
    rw [← hmark, recordFor_update_of_ne hk]
    exact hothers k hk
  obtain ⟨hsurvivor, hothers'⟩ := recordFor_inherit ((hrest _ hne.symm).trans htarget) source
  exact ⟨hne, require_eq_ok.mp hfinal, ⟨bindings, hbindings, (hothers' _ hne).trans hself⟩,
    hsurvivor, fun k hk hk' => (hothers' k hk').trans (hrest k hk)⟩

end RegistryPartition

end VisionOs.Registry
