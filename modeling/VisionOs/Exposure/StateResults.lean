/-
  What a state query returns against what was asked.  The limit is looked at inside the loop over
  a partition, the answer has no cursor, and neither an absence nor the staleness bound is looked
  at.  Whether a state is fresh within a bound is a parameter; `staleness` is the model's own
  reading.
-/
import VisionOs.Exposure.StateQueries
import VisionOs.State.Reachable

namespace VisionOs.Exposure

open Core Lib List Paging OrderedDict ObservationApi

structure BoundedFilter extends StateFilter where
  maxStaleness : Option Duration := none

structure Held where
  cameraId : CameraId
  objectId : ObjectId
  state : ObjectState

def Held.place (h : Held) : CameraId × ObjectId := (h.cameraId, h.objectId)

namespace StateResults

variable (py : Interpreter) (fresh : Duration → ObjectState → Bool) (filter : BoundedFilter)
  (options : QueryOptions) (permitted : List CameraId) (snapshot : State.Manager.StateSnapshot)

/-- The objects of the permitted cameras, partition by partition. -/
def held : List (List Held) :=
  (snapshot.partitions.entries.filter (·.1 ∈ permitted)).map fun e =>
    e.2.objects.entries.map fun o => ⟨e.1, o.1, o.2⟩

/-- Those of them that `_matches` accepts. -/
def accepted : List (List Held) :=
  (held permitted snapshot).map (·.filter fun h => filter.accepts py h.state)

def misses (state : ObjectState) : Bool :=
  (filter.attributes.any fun p => !p.present && (state.attributes.get? p.key).isSome) ||
    filter.maxStaleness.any fun bound => !fresh bound state

def satisfies (state : ObjectState) : Bool :=
  filter.accepts py state && !misses fresh filter state

/-- What was asked for: distinct objects, all of them within the filter, at most so many, and
    every one there is, since there never is a cursor. -/
structure Answers (views : List ObjectView) : Prop where
  distinct : (views.map fun v => (v.cameraId, v.objectId)).Nodup
  sound : ∀ v ∈ views, ∃ h ∈ (held permitted snapshot).flatten,
    v = objectViewOf h.state h.cameraId options ∧ satisfies py fresh filter h.state = true
  bounded : views.length ≤ options.limit
  complete : ∀ h ∈ (held permitted snapshot).flatten, satisfies py fresh filter h.state = true →
    ∃ v ∈ views, (v.cameraId, v.objectId) = (h.cameraId, h.objectId)

/-- Whoever gives an accepted object finds room; the first accepted objects, up to the limit,
    miss nothing, and those beyond it do. -/
structure Suits : Prop where
  room : Paging.Fits options.limit 0 (accepted py filter permitted snapshot)
  within : ∀ h ∈ (accepted py filter permitted snapshot).flatten.take options.limit,
    misses fresh filter h.state = false
  beyond : ∀ h ∈ (accepted py filter permitted snapshot).flatten.drop options.limit,
    misses fresh filter h.state = true

variable {py fresh filter options permitted snapshot}

def viewOf (options : QueryOptions) (h : Held) : ObjectView :=
  objectViewOf h.state h.cameraId options

theorem collectViews_eq :
    collectViews py filter.toStateFilter options permitted snapshot =
      (given options.limit 0 (accepted py filter permitted snapshot)).map
        (viewOf options) := by
  have hscan := foldl_scan options.limit (fun _ => filter.accepts py)
    (fun camera held => objectViewOf held camera options)
    ((snapshot.partitions.entries.filter (·.1 ∈ permitted)).map fun e =>
      (e.1, e.2.objects.values)) []
  rw [foldl_map, map_map, nil_append] at hscan
  refine hscan.trans ?_
  rw [← given_map]
  congr 1
  unfold accepted held
  rw [map_map, map_map]
  refine map_congr_left fun e _ => ?_
  unfold OrderedDict.values
  simp only [Function.comp_apply, filter_map, map_map]
  rfl

/-- Every partition files an object under its own id. -/
def Filed (snapshot : State.Manager.StateSnapshot) : Prop :=
  ∀ camera p, snapshot.partitions.get? camera = some p →
    ∀ id s, p.objects.get? id = some s → s.objectId = id

/-- A snapshot of a reached manager does. -/
theorem filed_snapshot {config : State.StateSection} {m : State.Manager}
    (h : State.Reachable config m) (scope : Option (List CameraId)) : Filed (m.snapshot scope) := by
  unfold State.Manager.snapshot
  generalize scope.getD m.cameras = cameras
  have hempty : Filed ⟨OrderedDict.empty, []⟩ := fun camera p hp => by cases hp
  generalize (⟨OrderedDict.empty, []⟩ : State.Manager.StateSnapshot) = snapshot at hempty ⊢
  induction cameras generalizing snapshot with
  | nil => exact hempty
  | cons camera rest ih =>
    refine ih _ ?_
    unfold State.Manager.snapshotCamera
    split
    · exact hempty
    · rename_i p hpartition
      split
      · exact hempty
      · intro camera' p' hp' id s hs
        rw [get?_set] at hp'
        split at hp'
        · rw [← Option.some.inj hp'] at hs
          exact ((h.inv camera).partition p hpartition).keyed id s hs
        · exact hempty camera' p' hp' id s hs

theorem nodup_places : ((held permitted snapshot).flatten.map Held.place).Nodup := by
  have hkeys : ((snapshot.partitions.entries.filter (·.1 ∈ permitted)).map Prod.fst).Nodup :=
    snapshot.partitions.nodupKeys.sublist (filter_sublist.map Prod.fst)
  unfold held
  generalize snapshot.partitions.entries.filter (·.1 ∈ permitted) = entries at hkeys
  induction entries with
  | nil => exact nodup_nil
  | cons e rest ih =>
    obtain ⟨hnew, hrest⟩ := nodup_cons.mp hkeys
    rw [map_cons, flatten_cons, map_append, nodup_append']
    refine ⟨?_, ih hrest, ?_⟩
    · rw [map_map]
      have hobjects : e.2.objects.entries.map (Held.place ∘ fun o => ⟨e.1, o.1, o.2⟩) =
          (e.2.objects.entries.map Prod.fst).map (Prod.mk e.1) := by
        rw [map_map]
        rfl
      rw [hobjects]
      exact (nodup_map_iff (Prod.mk_right_injective e.1)).mpr e.2.objects.nodupKeys
    · intro place hplace hlater
      obtain ⟨h, hh, rfl⟩ := mem_map.mp hplace
      obtain ⟨o, -, rfl⟩ := mem_map.mp hh
      obtain ⟨h', hh', hsame⟩ := mem_map.mp hlater
      obtain ⟨part, hpart, hmem⟩ := mem_flatten.mp hh'
      obtain ⟨e', he', rfl⟩ := mem_map.mp hpart
      obtain ⟨o', -, rfl⟩ := mem_map.mp hmem
      have hcamera : e'.1 = e.1 := (Prod.ext_iff.mp hsame).1
      exact hnew (mem_map.mpr ⟨e', he', hcamera⟩)

theorem flatten_accepted : (accepted py filter permitted snapshot).flatten =
    (held permitted snapshot).flatten.filter fun h => filter.accepts py h.state := by
  unfold accepted
  rw [filter_flatten]

theorem place_inj {h h' : Held} (hh : h ∈ (held permitted snapshot).flatten)
    (hh' : h' ∈ (held permitted snapshot).flatten) (hplace : h.place = h'.place) : h = h' :=
  inj_on_of_nodup_map nodup_places hh hh' hplace

theorem place_viewOf (hfiled : Filed snapshot) {h : Held}
    (hh : h ∈ (held permitted snapshot).flatten) :
    ((viewOf options h).cameraId, (viewOf options h).objectId) = h.place := by
  obtain ⟨part, hpart, hmem⟩ := mem_flatten.mp hh
  obtain ⟨e, he, rfl⟩ := mem_map.mp hpart
  obtain ⟨o, ho, rfl⟩ := mem_map.mp hmem
  have hpartition := get?_eq_some_iff.mpr (mem_filter.mp he).1
  exact congrArg (Prod.mk e.1)
    (hfiled e.1 e.2 hpartition o.1 o.2 (get?_eq_some_iff.mpr ho))

/-- A state query answers what was asked exactly when the snapshot suits it. -/
theorem collectViews_answers_iff (hfiled : Filed snapshot) :
    Answers py fresh filter options permitted snapshot
        (collectViews py filter.toStateFilter options permitted snapshot) ↔
      Suits py fresh filter options permitted snapshot := by
  rw [collectViews_eq]
  generalize haccepted : accepted py filter permitted snapshot = parts
  have hflatten : parts.flatten =
      (held permitted snapshot).flatten.filter fun h => filter.accepts py h.state := by
    rw [← haccepted, flatten_accepted]
  have hheld : ∀ h ∈ parts.flatten,
      h ∈ (held permitted snapshot).flatten ∧ filter.accepts py h.state = true := fun h hh => by
    rw [hflatten] at hh
    exact mem_filter.mp hh
  have hnodup : (parts.flatten.map Held.place).Nodup := by
    rw [hflatten]
    exact nodup_places.sublist (filter_sublist.map _)
  -- `given_eq_take`: where all parts fit, the answer is a prefix of what is accepted
  constructor
  · intro h
    have hfits : Paging.Fits options.limit 0 parts := by
      refine length_given_le_iff.mp ?_
      simpa using h.bounded
    have hgiven := given_eq_take hfits
    rw [Nat.sub_zero] at hgiven
    refine ⟨haccepted ▸ hfits, ?_, ?_⟩
    · intro x hx
      rw [haccepted, ← hgiven] at hx
      obtain ⟨y, hy, hview, hsatisfies⟩ := h.sound _ (mem_map_of_mem hx)
      have hmem := (hheld x ((given_sublist 0 parts).subset hx)).1
      have hplace := (@place_viewOf options permitted snapshot hfiled x hmem).symm.trans
        ((congrArg (fun v : ObjectView => (v.cameraId, v.objectId)) hview).trans
          (place_viewOf hfiled hy))
      rw [place_inj hmem hy hplace]
      simpa using (Bool.and_eq_true_iff.mp hsatisfies).2
    · intro x hx
      rw [haccepted] at hx
      by_contra hmisses
      obtain ⟨hmem, hx_accepts⟩ := hheld x (mem_of_mem_drop hx)
      obtain ⟨v, hv, hplace⟩ := h.complete x hmem
        (Bool.and_eq_true_iff.mpr ⟨hx_accepts, by simpa using hmisses⟩)
      obtain ⟨y, hy, rfl⟩ := mem_map.mp hv
      have hymem := (hheld y ((given_sublist 0 parts).subset hy)).1
      have hsame := place_inj hymem hmem ((place_viewOf hfiled hymem).symm.trans hplace)
      rw [hgiven, hsame] at hy
      exact disjoint_take_drop hnodup.of_map (Nat.le_refl _) hy hx
  · intro h
    have hfits : Paging.Fits options.limit 0 parts := haccepted ▸ h.room
    have hgiven := given_eq_take hfits
    rw [Nat.sub_zero] at hgiven
    have hwithin := h.within
    have hbeyond := h.beyond
    rw [haccepted, ← hgiven] at hwithin
    rw [haccepted] at hbeyond
    have hmem : ∀ x ∈ given options.limit 0 parts, x ∈ parts.flatten :=
      fun x hx => (given_sublist 0 parts).subset hx
    refine ⟨?_, ?_, ?_, ?_⟩
    · rw [map_map]
      have hplaces : (given options.limit 0 parts).map
          ((fun v : ObjectView => (v.cameraId, v.objectId)) ∘ viewOf options) =
          (given options.limit 0 parts).map Held.place :=
        map_congr_left fun x hx => place_viewOf hfiled (hheld x (hmem x hx)).1
      rw [hplaces]
      exact hnodup.sublist ((given_sublist 0 parts).map _)
    · intro v hv
      obtain ⟨x, hx, rfl⟩ := mem_map.mp hv
      obtain ⟨hx_held, hx_accepts⟩ := hheld x (hmem x hx)
      refine ⟨x, hx_held, rfl, Bool.and_eq_true_iff.mpr ⟨hx_accepts, ?_⟩⟩
      rw [hwithin x hx]
      rfl
    · rw [length_map]
      exact length_given_le_iff.mpr hfits
    · intro x hx hsatisfies
      obtain ⟨hx_accepts, hx_misses⟩ := Bool.and_eq_true_iff.mp hsatisfies
      have hx_parts : x ∈ parts.flatten := by
        rw [hflatten]
        exact mem_filter.mpr ⟨hx, hx_accepts⟩
      rw [← take_append_drop options.limit parts.flatten, mem_append] at hx_parts
      rcases hx_parts with htake | hdrop
      · rw [← hgiven] at htake
        exact ⟨_, mem_map_of_mem htake, place_viewOf hfiled hx⟩
      · rw [hbeyond x hdrop] at hx_misses
        cases hx_misses

/-! ### Two rooms -/

def python : Interpreter := ⟨fun _ => "", fun _ _ => false, 900⟩

/-- Somebody who was seen at some instant, with an attribute. -/
def person (seen : Instant) : ObjectState where
  objectId := "person"
  classId := "person"
  classConfidence := ⟨{ value := .finite 1, semantics := .classification }, by decide +kernel⟩
  lifecycle := .active
  firstSeen := seen
  lastSeen := seen
  lastConfirmed := seen
  attributes := .ofPairs [("helmet", { key := "helmet", value := .str "worn", confidence :=
    ⟨{ value := .finite 1, semantics := .attributeClaim }, by decide +kernel⟩, observedAt := seen })]
  objectId_ne_empty := by decide
  confirmed_le_seen := le_rfl
  first_le_seen := le_rfl

def rooms (cameras : List CameraId) : State.Manager.StateSnapshot where
  partitions := .ofPairs (cameras.map fun camera =>
    (camera, { cameraId := camera, objects := .ofPairs [("person", person ⟨0⟩)] }))
  incomplete := []

theorem single_pos : 1 ≤ 1 := Nat.le_refl 1

def single : QueryOptions := { limit := 1, limit_pos := single_pos }

/-- The time since the last measured sighting. -/
def staleness (state : ObjectState) (now : Instant) : Duration :=
  ⟨max 0 (now.ns - state.lastConfirmed.ns)⟩

/-- Fresh is who is no staler than the bound, five nanoseconds after the start. -/
def confirmedWithin (bound : Duration) (state : ObjectState) : Bool :=
  (staleness state ⟨5⟩).ns ≤ bound.ns

def wearers : BoundedFilter where
  attributes := [{ key := "helmet", equals := .str "worn" }, { key := "gloves", present := false }]
  maxStaleness := some ⟨10⟩

theorem collectViews_answers_room :
    Answers python confirmedWithin wearers single ["north"] (rooms ["north"])
      (collectViews python wearers.toStateFilter single ["north"]
        (rooms ["north"])) := by
  refine (collectViews_answers_iff ?_).mpr
    ⟨length_given_le_iff.mp (by decide +kernel), by decide +kernel, by decide +kernel⟩
  intro camera p hp id s hs
  have hentry := mem_singleton.mp (get?_eq_some_iff.mp hp)
  obtain ⟨-, rfl⟩ := Prod.mk.inj hentry
  have hobject := mem_singleton.mp (get?_eq_some_iff.mp hs)
  obtain ⟨rfl, rfl⟩ := Prod.mk.inj hobject
  rfl

/-- Two rooms give two objects to a page of one; a helmet that is to be absent, and a person who
    is too stale, are returned all the same. -/
theorem collectViews_does_not_answer :
    ¬ Answers python confirmedWithin {} single ["north", "south"] (rooms ["north", "south"])
        (collectViews python {} single ["north", "south"]
          (rooms ["north", "south"])) ∧
      ∀ filter ∈ ([{ attributes := [{ key := "helmet", present := false }] },
          { maxStaleness := some ⟨3⟩ }] : List BoundedFilter),
        ¬ Answers python confirmedWithin filter single ["north"] (rooms ["north"])
          (collectViews python filter.toStateFilter single ["north"]
            (rooms ["north"])) := by
  refine ⟨fun h => absurd h.bounded (by decide +kernel), fun filter hfilter h => ?_⟩
  have hfound : ∀ filter ∈ ([{ attributes := [{ key := "helmet", present := false }] },
      { maxStaleness := some ⟨3⟩ }] : List BoundedFilter),
      (collectViews python filter.toStateFilter single ["north"]
        (rooms ["north"])).length = 1 ∧
      ∀ x ∈ (held ["north"] (rooms ["north"])).flatten,
        satisfies python confirmedWithin filter x.state = false := by decide +kernel
  obtain ⟨hone, hnone⟩ := hfound filter hfilter
  obtain ⟨v, hv⟩ := length_eq_one_iff.mp hone
  obtain ⟨x, hx, -, hsatisfies⟩ := h.sound v (by rw [hv]; exact mem_singleton_self v)
  rw [hnone x hx] at hsatisfies
  cases hsatisfies

end StateResults

end VisionOs.Exposure
