/-
  The live tracks of one camera.  The table is bounded, and only a reset sets the counter of its
  ids back, under a new epoch.  The retired ids are left out.
-/
import VisionOs.Tracking.Motion
import VisionOs.Lib.Bounded
import VisionOs.Lib.Effect
import Mathlib.Data.List.Sort

namespace VisionOs.Tracking

open Core Lib OrderedDict List Option Effect TrackIdFields

/-! ## Records -/

structure TrackRecord where
  trackId : TrackId
  classId : ClassId
  box : Box
  state : TrackState
  predictor : MotionPredictor
  tenantId : TenantId
  siteId : SiteId
  firstSeen : Instant
  /-- The last measured sighting. -/
  lastSeen : Instant
  lastUpdated : Instant
  ageFrames : Int := 0
  hitCount : Int := 0
  coastFrames : Int := 0
  /-- Time since the last measured position, over the frames that missed. -/
  sinceMeasurementNs : Int := 0
  associationConfidence : ℚ := 0
  associationMethod : AssociationMethod := .reinitialized
  associationCost : ℚ := 0
  runnerUpCost : Option ℚ := none
  gatedCandidates : Int := 0
  motionState : MotionState := .unknown
  breakReason : BreakReason := .none
  history : BoundedDeque FrameRef
  stillFrames : Int := 0
  movingFrames : Int := 0
  directionChanges : Int := 0
  lastHeading : Option ℚ := none

def trackIdLe (a b : TrackId) : Prop :=
  a.cameraId < b.cameraId ∨ (a.cameraId = b.cameraId ∧
    (a.trackerEpoch < b.trackerEpoch ∨
      (a.trackerEpoch = b.trackerEpoch ∧ a.localId ≤ b.localId)))

instance : DecidableRel trackIdLe := fun a b => by
  unfold trackIdLe
  infer_instance

namespace TrackRecord

def weaker (r s : TrackRecord) : Prop :=
  let held (r : TrackRecord) : Nat := if r.state ≠ .tentative then 1 else 0
  held r < held s ∨ (held r = held s ∧
    (-r.coastFrames < -s.coastFrames ∨ (-r.coastFrames = -s.coastFrames ∧
      (r.associationConfidence < s.associationConfidence ∨
        (r.associationConfidence = s.associationConfidence ∧
          r.trackId.localId < s.trackId.localId)))))

instance : DecidableRel weaker := fun r s => by
  unfold weaker
  infer_instance

end TrackRecord

def weakest : List TrackRecord → Option TrackRecord
  | [] => none
  | r :: rest => some (rest.foldl (fun best s => if s.weaker best then s else best) r)

theorem weakest_mem {records : List TrackRecord} {r : TrackRecord}
    (h : weakest records = some r) : r ∈ records := by
  cases records with
  | nil => cases h
  | cons first rest =>
    rw [← some.inj h]
    clear h
    induction rest generalizing first with
    | nil => exact mem_singleton_self first
    | cons s rest ih =>
      rw [foldl_cons]
      have hmem := ih (if s.weaker first then s else first)
      rcases mem_cons.mp hmem with heq | hin
      · rw [heq]
        split <;> simp
      · exact mem_cons_of_mem _ (mem_cons_of_mem _ hin)

theorem weakest_eq_none {records : List TrackRecord} : weakest records = none ↔ records = [] := by
  cases records <;> simp [weakest]

theorem weakest_tentative {records : List TrackRecord} {r : TrackRecord}
    (h : weakest records = some r) (htentative : ∃ s ∈ records, s.state = .tentative) :
    r.state = .tentative := by
  have hweaker : ∀ {s best : TrackRecord}, s.state = .tentative →
      (best.state = .tentative ∨ s.weaker best) := by
    intro s best hs
    by_cases hbest : best.state = .tentative
    · exact .inl hbest
    · refine .inr (.inl ?_)
      simp [hs, hbest]
  have hnot : ∀ {s best : TrackRecord}, best.state = .tentative → s.weaker best →
      s.state = .tentative := by
    intro s best hbest hless
    by_contra hs
    unfold TrackRecord.weaker at hless
    simp [hbest, hs] at hless
  -- the best so far is tentative as soon as a tentative record was seen
  have hscan : ∀ (rest : List TrackRecord) (best : TrackRecord),
      (best.state = .tentative ∨ ∃ s ∈ rest, s.state = .tentative) →
      (rest.foldl (fun best s => if s.weaker best then s else best) best).state = .tentative := by
    intro rest
    induction rest with
    | nil =>
      rintro best (hbest | ⟨s, hs, -⟩)
      · exact hbest
      · exact absurd hs not_mem_nil
    | cons x rest ih =>
      intro best hsome
      rw [foldl_cons]
      apply ih
      rcases hsome with hbest | ⟨s, hs, htentative⟩
      · refine .inl ?_
        split
        · rename_i hless
          exact hnot hbest hless
        · exact hbest
      rcases mem_cons.mp hs with rfl | hs
      · refine .inl ?_
        split
        · exact htentative
        · rename_i hmore
          exact (hweaker htentative).resolve_right hmore
      · exact .inr ⟨s, hs, htentative⟩
  cases records with
  | nil => cases h
  | cons first rest =>
    rw [← some.inj h]
    obtain ⟨s, hs, hstate⟩ := htentative
    refine hscan rest first ?_
    rcases mem_cons.mp hs with rfl | hs
    · exact .inl hstate
    · exact .inr ⟨s, hs, hstate⟩

/-! ## The table -/

structure TrackTable where
  cameraId : CameraId
  epoch : Int
  maxTracks : Int
  historyLength : Int
  table : OrderedDict TrackId TrackRecord := ∅
  nextLocalId : Int := 0

namespace TrackTable

/-- `TrackTable(...)`. -/
def construct (cameraId : CameraId) (epoch maxTracks historyLength : Int) :
    Raises TrackTable := do
  require (¬ maxTracks < 1) (.valueError "max_tracks must be >= 1")
  require (¬ historyLength < 1) (.valueError "history_length must be >= 1")
  .ok { cameraId, epoch, maxTracks, historyLength }

/-- `records`: in the order of the ids. -/
def records (t : TrackTable) : List TrackRecord :=
  ((t.table.keys.insertionSort trackIdLe).filterMap t.table.get?)

def nextId (t : TrackTable) : Raises TrackId :=
  constructTrackId { cameraId := t.cameraId, trackerEpoch := t.epoch, localId := t.nextLocalId }

/-- What a new track is made of: its class and box, its predictor, the time, the frame and the
    owner. -/
structure Birth where
  classId : ClassId
  box : Box
  predictor : MotionPredictor
  now : Instant
  frameRef : FrameRef
  tenantId : TenantId
  siteId : SiteId

def Birth.record (b : Birth) (trackId : TrackId) (historyLength : Int) : TrackRecord where
  trackId
  classId := b.classId
  box := b.box
  state := .tentative
  predictor := b.predictor
  tenantId := b.tenantId
  siteId := b.siteId
  firstSeen := b.now
  lastSeen := b.now
  lastUpdated := b.now
  ageFrames := 1
  hitCount := 1
  history := (BoundedDeque.empty historyLength.toNat).push b.frameRef

def create (b : Birth) : Effect PyException TrackTable TrackRecord := do
  let t ← read
  if (t.table.size : Int) ≥ t.maxTracks then
    raise (.trackerCapacityError
      s!"camera {t.cameraId} already holds {t.table.size} tracks (max {t.maxTracks}); refusing new tracks keeps memory bounded")
  else do
    let trackId ← ofExcept t.nextId
    let record := b.record trackId t.historyLength
    modify fun t =>
      { t with nextLocalId := t.nextLocalId + 1, table := t.table.set trackId record }
    pure record

def remove (trackId : TrackId) (t : TrackTable) : TrackTable :=
  { t with table := t.table.erase trackId }

def put (r : TrackRecord) (t : TrackTable) : TrackTable :=
  { t with table := t.table.set r.trackId r }

def evictWeakest : Effect PyException TrackTable (Option TrackRecord) := do
  let t ← read
  match weakest t.table.values with
  | none => pure none
  | some r => do
    modify (remove r.trackId)
    pure (some r)

def reset (t : TrackTable) (epoch : Int) : TrackTable :=
  { t with table := ∅, epoch, nextLocalId := 0 }

/-- Each record is filed under its own id, which names the table's camera and epoch and is
    below the counter; and the table is not overfull. -/
structure WellKept (t : TrackTable) : Prop where
  epoch_nonneg : 0 ≤ t.epoch
  next_nonneg : 0 ≤ t.nextLocalId
  max_pos : 1 ≤ t.maxTracks
  size_le : (t.table.size : Int) ≤ t.maxTracks
  issued : ∀ id r, t.table.get? id = some r → r.trackId = id ∧ id.cameraId = t.cameraId ∧
    id.trackerEpoch = t.epoch ∧ id.localId < t.nextLocalId

def Yields (t : TrackTable) : Prop :=
  (t.table.size : Int) < t.maxTracks ∨ ∃ id r, t.table.get? id = some r ∧ r.state = .tentative

variable {t : TrackTable} {r : TrackRecord}

theorem wellKept_of_empty (hepoch : 0 ≤ t.epoch) (hmax : 1 ≤ t.maxTracks)
    (hnext : t.nextLocalId = 0) (htable : t.table = ∅) : t.WellKept where
  epoch_nonneg := hepoch
  next_nonneg := hnext.ge
  max_pos := hmax
  size_le := by
    rw [htable]
    show ((0 : Nat) : Int) ≤ t.maxTracks
    omega
  issued id r hr := by
    rw [htable] at hr
    change empty.get? id = some r at hr
    rw [get?_empty] at hr
    cases hr

theorem mem_records : r ∈ t.records ↔ ∃ id, t.table.get? id = some r := by
  unfold records
  rw [mem_filterMap]
  constructor
  · rintro ⟨id, -, hid⟩
    exact ⟨id, hid⟩
  · rintro ⟨id, hid⟩
    exact ⟨id, (mem_insertionSort _).mpr (mem_keys_iff.mpr ⟨r, hid⟩), hid⟩

theorem WellKept.filed (h : t.WellKept) (hr : r ∈ t.records) : t.table.get? r.trackId = some r := by
  obtain ⟨id, hid⟩ := mem_records.mp hr
  rw [(h.issued id r hid).1]
  exact hid

theorem WellKept.map_trackId (h : t.WellKept) :
    t.records.map (·.trackId) = t.table.keys.insertionSort trackIdLe := by
  unfold records
  have hkeys : ∀ id ∈ t.table.keys.insertionSort trackIdLe, ∃ r, t.table.get? id = some r :=
    fun id hid => mem_keys_iff.mp ((mem_insertionSort _).mp hid)
  generalize t.table.keys.insertionSort trackIdLe = ids at hkeys
  induction ids with
  | nil => rfl
  | cons id rest ih =>
    obtain ⟨r, hr⟩ := hkeys id mem_cons_self
    rw [filterMap_cons_some hr, map_cons, (h.issued id r hr).1,
      ih fun id' hid' => hkeys id' (mem_cons_of_mem _ hid')]

theorem WellKept.nodup_records (h : t.WellKept) : (t.records.map (·.trackId)).Nodup := by
  rw [h.map_trackId]
  exact (perm_insertionSort _ _).nodup_iff.mpr t.table.nodupKeys

theorem WellKept.mem_ids (h : t.WellKept) {id : TrackId} :
    id ∈ t.records.map (·.trackId) ↔ ∃ r, t.table.get? id = some r := by
  rw [h.map_trackId, mem_insertionSort, mem_keys_iff]

/-! ### Its operations -/

theorem WellKept.put (h : t.WellKept) {r' : TrackRecord}
    (hfiled : t.table.get? r'.trackId = some r) : (t.put r').WellKept := by
  refine ⟨h.epoch_nonneg, h.next_nonneg, h.max_pos, ?_, fun id s hs => ?_⟩
  · show ((t.table.set r'.trackId r').size : Int) ≤ t.maxTracks
    rw [size_set_of_get? hfiled]
    exact h.size_le
  · change (t.table.set r'.trackId r').get? id = some s at hs
    rcases get?_of_set hs with ⟨hid, rfl⟩ | ⟨-, hs⟩
    · rw [← hid]
      exact ⟨rfl, (h.issued _ _ hfiled).2⟩
    · exact h.issued id s hs

theorem WellKept.remove (h : t.WellKept) (trackId : TrackId) : (t.remove trackId).WellKept := by
  have hsize : ((t.table.erase trackId).size : Int) ≤ t.table.size :=
    Int.ofNat_le.mpr (size_erase_le _ _)
  refine ⟨h.epoch_nonneg, h.next_nonneg, h.max_pos, hsize.trans h.size_le, fun id s hs => ?_⟩
  change (t.table.erase trackId).get? id = some s at hs
  exact h.issued id s (get?_of_erase hs).2

def freshId (t : TrackTable) (h : t.WellKept) : TrackId where
  cameraId := t.cameraId
  trackerEpoch := t.epoch
  localId := t.nextLocalId
  accepted := postInit_eq_ok.mpr ⟨h.epoch_nonneg, h.next_nonneg⟩

def add (r : TrackRecord) (t : TrackTable) : TrackTable :=
  { t with nextLocalId := t.nextLocalId + 1, table := t.table.set r.trackId r }

theorem WellKept.fresh (h : t.WellKept) : t.table.get? (t.freshId h) = none := by
  rw [eq_none_iff_forall_ne_some]
  intro r hr
  exact lt_irrefl _ (h.issued _ _ hr).2.2.2

theorem create_eq (h : t.WellKept) (hroom : (t.table.size : Int) < t.maxTracks) (b : Birth) :
    create b t = (.ok (b.record (t.freshId h) t.historyLength),
      t.add (b.record (t.freshId h) t.historyLength)) := by
  have hid : t.nextId = .ok (t.freshId h) :=
    constructWith_eq_ok (postInit_eq_ok.mpr ⟨h.epoch_nonneg, h.next_nonneg⟩)
  show (if (t.table.size : Int) ≥ t.maxTracks then _ else _ : Effect PyException TrackTable _) t = _
  rw [if_neg (not_le.mpr hroom)]
  rw [hid]
  rfl

theorem create_full (hfull : t.maxTracks ≤ t.table.size) (b : Birth) :
    ∃ message, create b t = (.error (.trackerCapacityError message), t) := by
  have hraise : create b t = (raise (.trackerCapacityError
      s!"camera {t.cameraId} already holds {t.table.size} tracks (max {t.maxTracks}); refusing new tracks keeps memory bounded") : Effect PyException TrackTable _) t := by
    show (if (t.table.size : Int) ≥ t.maxTracks then _ else _ : Effect PyException TrackTable _) t =
      _
    rw [if_pos hfull]
  exact ⟨_, hraise⟩

theorem WellKept.add (h : t.WellKept) (hroom : (t.table.size : Int) < t.maxTracks)
    (hr : r.trackId = t.freshId h) : (t.add r).WellKept := by
  refine ⟨h.epoch_nonneg, ?_, h.max_pos, ?_, fun id s hs => ?_⟩
  · show 0 ≤ t.nextLocalId + 1
    have := h.next_nonneg
    omega
  · show ((t.table.set r.trackId r).size : Int) ≤ t.maxTracks
    have := size_set_le t.table r.trackId r
    omega
  · change (t.table.set r.trackId r).get? id = some s at hs
    rcases get?_of_set hs with ⟨hid, rfl⟩ | ⟨-, hs⟩
    · rw [← hid, hr]
      exact ⟨rfl, rfl, rfl, lt_add_one t.nextLocalId⟩
    · obtain ⟨h1, h2, h3, h4⟩ := h.issued id s hs
      exact ⟨h1, h2, h3, h4.trans (lt_add_one t.nextLocalId)⟩

theorem evictWeakest_eq (h : t.WellKept) (hsome : 0 < t.table.size) :
    ∃ victim, t.table.get? victim.trackId = some victim ∧
      weakest t.table.values = some victim ∧
      evictWeakest t = (.ok (some victim), t.remove victim.trackId) := by
  cases hweakest : weakest t.table.values with
  | none =>
    have hempty := weakest_eq_none.mp hweakest
    have hlength := congrArg List.length hempty
    unfold values at hlength
    rw [length_map] at hlength
    unfold size at hsome
    rw [hlength] at hsome
    exact absurd hsome (lt_irrefl 0)
  | some victim =>
    obtain ⟨id, hid⟩ := mem_values.mp (weakest_mem hweakest)
    refine ⟨victim, ?_, rfl, ?_⟩
    · rw [(h.issued id victim hid).1]
      exact hid
    · show (match weakest t.table.values with
        | none => _
        | some r => _ : Effect PyException TrackTable _) t = _
      rw [hweakest]
      rfl

end TrackTable

end VisionOs.Tracking
