/-
  Which objects are inside which regions, and for how long: the membership a
  camera's tracker holds for each object, and the entries and exits that moving
  or forgetting an object yields.
-/
import VisionOs.Core.Space
import VisionOs.Lib.OrderedDict
import Mathlib.Data.List.Sort

namespace VisionOs.Registry

open Core Lib OrderedDict

/-- One object's standing in one region.  Only being inside is ever recorded. -/
structure RegionMembership where
  regionId : RegionId
  geometryVersion : String
  method : ContainmentMethod
  enteredAt : Instant
  lastConfirmed : Instant

/-- `dwell`: how long the object has been inside, in capture time. -/
def RegionMembership.dwell (m : RegionMembership) (now : Instant) : Duration :=
  ⟨max 0 (now.ns - m.enteredAt.ns)⟩

structure RegionTransition where
  objectId : ObjectId
  regionId : RegionId
  geometryVersion : String
  entered : Bool
  instant : Instant
  dwell : Duration := ⟨0⟩
  method : ContainmentMethod := .bboxBottomCentre

def RegionMembership.exit (m : RegionMembership) (objectId : ObjectId) (instant : Instant) :
    RegionTransition where
  objectId
  regionId := m.regionId
  geometryVersion := m.geometryVersion
  entered := false
  instant
  dwell := m.dwell instant
  method := m.method

structure IndexedRegion where
  region : Region
  bounds : Box

abbrev RegionIndex := List IndexedRegion

namespace RegionIndex

def build (regions : List Region) : Raises RegionIndex :=
  regions.mapM fun region => do
    let bounds ← region.geometry.bounds
    return { region, bounds }

/-- `containing`: the regions whose polygon contains the point. -/
def containing (index : RegionIndex) (point : Point) : List Region :=
  (index.filter fun indexed =>
    let bounds := indexed.bounds
    bounds.x1.le point.x && point.x.le bounds.x2 && bounds.y1.le point.y &&
      point.y.le bounds.y2 && indexed.region.geometry.contains point).map (·.region)

end RegionIndex

def containmentPoint (box : Box) (method : ContainmentMethod) : Point :=
  match method with
  | .bboxBottomCentre | .groundPoint => box.bottomCentre
  | .maskOverlap => box.centre

/-! ## The tracker -/

structure RegionTracker where
  index : RegionIndex := []
  memberships : OrderedDict ObjectId (OrderedDict RegionId RegionMembership) := ∅
  method : ContainmentMethod := .bboxBottomCentre

namespace RegionTracker

def closeAll (t : RegionTracker) (now : Instant) : List RegionTransition :=
  t.memberships.entries.flatMap fun entry => entry.2.values.map (·.exit entry.1 now)

/-- `set_regions`.  The memberships are gone before the new index is built. -/
def setRegions (t : RegionTracker) (regions : List Region) (now : Instant) :
    Raises (List RegionTransition) × RegionTracker :=
  match RegionIndex.build regions with
  | .ok index => (.ok (t.closeAll now), { t with index, memberships := ∅ })
  | .error exc => (.error exc, { t with memberships := ∅ })

def enter (t : RegionTracker) (objectId : ObjectId) (instant : Instant)
    (existing : Option RegionMembership) (region : Region) : List RegionTransition :=
  let entry : RegionTransition :=
    { objectId, regionId := region.regionId, geometryVersion := region.version,
      entered := true, instant, method := t.method }
  match existing with
  | none => [entry]
  | some m => if m.geometryVersion ≠ region.version then [m.exit objectId instant, entry] else []

def renew (t : RegionTracker) (instant : Instant) (existing : Option RegionMembership)
    (region : Region) : RegionMembership where
  regionId := region.regionId
  geometryVersion := region.version
  method := t.method
  enteredAt :=
    match existing with
    | none => instant
    | some m => if m.geometryVersion = region.version then m.enteredAt else instant
  lastConfirmed := instant

def inside (t : RegionTracker) (box : Box) : OrderedDict RegionId Region :=
  .ofPairs ((RegionIndex.containing t.index (containmentPoint box t.method)).map
    fun region => (region.regionId, region))

def membership (t : RegionTracker) (objectId : ObjectId) : OrderedDict RegionId RegionMembership :=
  (t.memberships.get? objectId).getD ∅

/-- `update`: one object's memberships where its box is now. -/
def update (t : RegionTracker) (objectId : ObjectId) (box : Box) (instant : Instant) :
    RegionTracker × List RegionTransition :=
  let inside := t.inside box
  let previous := t.membership objectId
  let entries := inside.entries.flatMap fun e => t.enter objectId instant (previous.get? e.1) e.2
  let exits := (previous.entries.filter fun e => (inside.get? e.1).isNone).map
    fun e => e.2.exit objectId instant
  let current := inside.entries.map fun e => (e.1, t.renew instant (previous.get? e.1) e.2)
  let memberships :=
    if current.isEmpty then t.memberships.erase objectId
    else t.memberships.set objectId (.ofPairs current)
  ({ t with memberships }, entries ++ exits)

/-- `forget`: an object leaves the population. -/
def forget (t : RegionTracker) (objectId : ObjectId) (instant : Instant) :
    RegionTracker × List RegionTransition :=
  ({ t with memberships := t.memberships.erase objectId },
    (t.membership objectId).values.map (·.exit objectId instant))

def occupants (t : RegionTracker) (regionId : RegionId) : List (ObjectId × RegionMembership) :=
  t.memberships.entries.filterMap fun e => (e.2.get? regionId).map fun m => (e.1, m)

structure RegionOccupancy where
  regionId : RegionId
  geometryVersion : String
  occupancy : OrderedDict ClassId Nat
  presentObjects : List ObjectId
  dwellCurrentMax : Duration
  dwellCurrentMean : Duration
  lastTransition : Instant

/-- `occupancy`: per-region counts and descriptive dwell statistics. -/
def occupancy (t : RegionTracker) (classes : OrderedDict ObjectId ClassId) (now : Instant) :
    List RegionOccupancy :=
  t.index.map fun indexed =>
    let present := t.occupants indexed.region.regionId
    let dwells := present.map fun e => (e.2.dwell now).ns
    { regionId := indexed.region.regionId
      geometryVersion := indexed.region.version
      occupancy := present.foldl (fun counts e =>
        let classId := (classes.get? e.1).getD "unknown"
        counts.set classId ((counts.get? classId).getD 0 + 1)) ∅
      presentObjects := (present.map (·.1)).insertionSort (· ≤ ·)
      dwellCurrentMax := ⟨dwells.max?.getD 0⟩
      dwellCurrentMean := ⟨dwells.sum / max dwells.length 1⟩
      lastTransition := now }

/-- Memberships are kept of the object. -/
def Member (t : RegionTracker) (id : ObjectId) : Prop := ∃ m, t.memberships.get? id = some m

variable {t : RegionTracker} {id k : ObjectId} {instant : Instant}

theorem Member.of_update {box : Box} (h : (t.update id box instant).1.Member k) :
    k = id ∨ t.Member k := by
  by_cases hk : k = id
  · exact .inl hk
  obtain ⟨m, hm⟩ := h
  refine .inr ⟨m, ?_⟩
  unfold update at hm
  simp only at hm
  split at hm
  · rw [get?_erase, if_neg hk] at hm
    exact hm
  · rw [get?_set, if_neg (Ne.symm hk)] at hm
    exact hm

theorem Member.of_forget (h : (t.forget id instant).1.Member k) : k ≠ id ∧ t.Member k := by
  obtain ⟨m, hm⟩ := h
  have hm' : (t.memberships.erase id).get? k = some m := hm
  obtain ⟨hk, hm'⟩ := get?_of_erase hm'
  exact ⟨hk, m, hm'⟩

theorem not_member_setRegions (regions : List Region) (now : Instant) :
    ¬ (t.setRegions regions now).2.Member k := by
  rintro ⟨m, hm⟩
  unfold setRegions at hm
  split at hm
  · cases hm
  · cases hm

theorem member_of_counted {classes : OrderedDict ObjectId ClassId} {now : Instant}
    {report : RegionOccupancy} (hreport : report ∈ t.occupancy classes now)
    (hid : id ∈ report.presentObjects) : t.Member id := by
  obtain ⟨indexed, -, rfl⟩ := List.mem_map.mp hreport
  obtain ⟨⟨id', m⟩, hpresent, rfl⟩ := List.mem_map.mp ((List.mem_insertionSort _).mp hid)
  obtain ⟨⟨id'', held⟩, hentry, hoccupant⟩ := List.mem_filterMap.mp hpresent
  obtain ⟨m', -, heq⟩ := Option.map_eq_some_iff.mp hoccupant
  have hid' : id'' = id' := congrArg Prod.fst heq
  exact ⟨held, get?_eq_some_iff.mpr (hid' ▸ hentry)⟩

end RegionTracker

end VisionOs.Registry
