/-
  Dwell is conserved: the transitions a tracker returns open and close episodes in turn, and the
  memberships are those that are open.  `set_regions` drops the memberships before it builds the
  new index, so the exits of a call that raises are lost.
-/
import VisionOs.Lib.Episodes
import VisionOs.Lib.Runs
import VisionOs.Registry.Regions

namespace VisionOs.Registry

open Core Lib OrderedDict List Episodes RegionIndex Runs RegionTransition

/-- A call of a region tracker, with its instant. -/
inductive RegionCall where
  | setRegions (regions : List Region) (now : Instant)
  | update (objectId : ObjectId) (box : Box) (instant : Instant)
  | forget (objectId : ObjectId) (instant : Instant)

def RegionCall.instant : RegionCall → Instant
  | .setRegions _ now => now
  | .update _ _ instant | .forget _ instant => instant

namespace RegionTracker

/-- `RegionTracker(regions=…, method=…)`. -/
def construct (regions : List Region) (method : ContainmentMethod) : Raises RegionTracker := do
  let index ← build regions
  return { index, method }

/-- A tracker after a call, and what the call returns: nothing when it raises. -/
def call (t : RegionTracker) : RegionCall → RegionTracker × List RegionTransition
  | .setRegions regions now =>
    ((t.setRegions regions now).2, ((t.setRegions regions now).1.toOption).getD [])
  | .update objectId box instant => t.update objectId box instant
  | .forget objectId instant => t.forget objectId instant

def pairOf (e : RegionTransition) : ObjectId × RegionId := (e.objectId, e.regionId)

/-- The transition enters, and opens this episode. -/
def Opens (e : RegionTransition) (s : String × Instant) : Prop :=
  e.entered = true ∧ s = (e.geometryVersion, e.instant)

/-- An exit names the version of its entry and carries the time since. -/
def Closes (s : String × Instant) (e : RegionTransition) : Prop :=
  e.entered = false ∧ e.geometryVersion = s.1 ∧ e.dwell.ns = e.instant.ns - s.2.ns

def standing (t : RegionTracker) (pair : ObjectId × RegionId) : Option (String × Instant) :=
  ((t.membership pair.1).get? pair.2).map fun m => (m.geometryVersion, m.enteredAt)

/-- The transitions account for what happened to the memberships. -/
abbrev Accounts (t : RegionTracker) (events : List RegionTransition) (t' : RegionTracker) : Prop :=
  Episodes.Accounts Opens Closes pairOf t.standing events t'.standing

/-- Memberships are filed under their regions and began by an instant. -/
def Filed (t : RegionTracker) (instant : Instant) : Prop :=
  ∀ id r m, (t.membership id).get? r = some m → m.regionId = r ∧ m.enteredAt.ns ≤ instant.ns

variable {t : RegionTracker} {instant : Instant}

theorem Filed.mono {later : Instant} (h : t.Filed instant) (hle : instant.ns ≤ later.ns) :
    t.Filed later := fun id r m hm => ⟨(h id r m hm).1, (h id r m hm).2.trans hle⟩

theorem closes_exit {m : RegionMembership} (id : ObjectId) (h : m.enteredAt.ns ≤ instant.ns) :
    Closes (m.geometryVersion, m.enteredAt) (m.exit id instant) :=
  ⟨rfl, rfl, max_eq_right (sub_nonneg.mpr h)⟩

theorem leads_exits (hfiled : t.Filed instant) (id : ObjectId) (r : RegionId) :
    Episodes.Leads Opens Closes (t.standing (id, r))
      (story pairOf (id, r) ((t.membership id).values.map (·.exit id instant))) none := by
  have hstory : story pairOf (id, r)
      ((t.membership id).values.map (·.exit id instant)) =
        (((t.membership id).get? r).map (·.exit id instant)).toList := by
    unfold OrderedDict.values
    rw [map_map, map_eq_flatMap, story_flatMap fun e => (id, e.1)]
    · simp only [Prod.mk.injEq, true_and]
      rw [filter_entries]
      cases (t.membership id).get? r <;> rfl
    · intro e he event hevent
      obtain rfl := mem_singleton.mp hevent
      exact congrArg (Prod.mk id) (hfiled id e.1 e.2 (get?_eq_some_iff.mpr he)).1
  rw [hstory]
  unfold standing
  cases hm : (t.membership id).get? r with
  | none => exact .nil none
  | some m => exact .closed (closes_exit id (hfiled id r m hm).2) (.nil none)

theorem membership_forget (id k : ObjectId) :
    (t.forget id instant).1.membership k = if k = id then ∅ else t.membership k := by
  unfold membership forget
  rw [get?_erase]
  split <;> rfl

theorem accounts_forget (hfiled : t.Filed instant) (id : ObjectId) :
    t.Accounts (t.forget id instant).2 (t.forget id instant).1 := by
  rintro ⟨k, r⟩
  by_cases hk : k = id
  · have hafter : (t.forget id instant).1.standing (k, r) = none := by
      unfold standing
      rw [membership_forget, if_pos hk]
      rfl
    rw [hafter, hk]
    exact leads_exits hfiled id r
  · have hnone : story pairOf (k, r) (t.forget id instant).2 = [] := by
      refine story_eq_nil fun e he hpair => hk ?_
      obtain ⟨m, -, rfl⟩ := mem_map.mp he
      exact (congrArg Prod.fst hpair).symm
    have hsame : (t.forget id instant).1.standing (k, r) = t.standing (k, r) := by
      unfold standing
      rw [membership_forget, if_neg hk]
    rw [hnone, hsame]
    exact .nil _

theorem story_closeAll (id : ObjectId) :
    story objectId id (t.closeAll instant) =
      (t.membership id).values.map (·.exit id instant) := by
  unfold closeAll
  rw [story_flatMap Prod.fst, filter_entries]
  · unfold membership
    cases t.memberships.get? id with
    | none => rfl
    | some held => exact append_nil _
  · intro entry _ e he
    obtain ⟨m, -, rfl⟩ := mem_map.mp he
    rfl

theorem accounts_closeAll (hfiled : t.Filed instant) {t' : RegionTracker}
    (hempty : t'.memberships = ∅) : t.Accounts (t.closeAll instant) t' := by
  rintro ⟨id, r⟩
  have hafter : t'.standing (id, r) = none := by
    unfold standing membership
    rw [hempty]
    rfl
  have hstory : story pairOf (id, r) (t.closeAll instant) =
      story pairOf (id, r) (story objectId id
        (t.closeAll instant)) := by
    unfold story
    rw [filter_filter]
    refine filter_congr fun e _ => ?_
    simp only [pairOf, Prod.mk.injEq, Bool.decide_and, Bool.and_comm, ← Bool.and_assoc,
      Bool.and_self]
  rw [hafter, hstory, story_closeAll]
  exact leads_exits hfiled id r

/-! ## Moving -/

theorem membership_update (id : ObjectId) (box : Box) (k : ObjectId) :
    (t.update id box instant).1.membership k = if k = id then
      .ofPairs ((t.inside box).entries.map fun e =>
        (e.1, t.renew instant ((t.membership id).get? e.1) e.2)) else t.membership k := by
  unfold update
  dsimp only
  generalize (t.inside box).entries.map (fun e =>
    (e.1, t.renew instant ((t.membership id).get? e.1) e.2)) = current
  unfold membership
  by_cases hcurrent : current.isEmpty = true
  · rw [if_pos hcurrent, get?_erase]
    split
    · rw [isEmpty_iff.mp hcurrent]
      rfl
    · rfl
  · rw [if_neg hcurrent, get?_set]
    by_cases hk : k = id
    · rw [if_pos hk, if_pos hk.symm]
      rfl
    · rw [if_neg hk, if_neg (Ne.symm hk)]

theorem get?_membership_update (id : ObjectId) (box : Box) (r : RegionId) :
    ((t.update id box instant).1.membership id).get? r = ((t.inside box).get? r).map fun region =>
      t.renew instant ((t.membership id).get? r) region := by
  rw [membership_update, if_pos rfl]
  exact get?_ofPairs_map (t.inside box)
    (fun r region => t.renew instant ((t.membership id).get? r) region) r

theorem regionId_of_inside {box : Box} {r : RegionId} {region : Region}
    (h : (t.inside box).get? r = some region) : region.regionId = r := by
  obtain ⟨region', -, heq⟩ := mem_map.mp (mem_of_get?_ofPairs h)
  obtain ⟨hid, rfl⟩ := Prod.mk.inj heq
  exact hid

theorem pairOf_enter (hfiled : t.Filed instant) {id : ObjectId} {r : RegionId} {region : Region}
    (hregion : region.regionId = r) {e : RegionTransition}
    (he : e ∈ t.enter id instant ((t.membership id).get? r) region) : pairOf e = (id, r) := by
  rw [← hregion] at he ⊢
  unfold enter at he
  cases hm : (t.membership id).get? region.regionId with
  | none =>
    rw [hm] at he
    rw [mem_singleton.mp he]
    rfl
  | some m =>
    rw [hm] at he
    dsimp only at he
    split at he
    · rcases mem_cons.mp he with rfl | he
      · exact congrArg (Prod.mk id) (hfiled id _ m hm).1
      · rw [mem_singleton.mp he]
        rfl
    · cases he

theorem story_update (hfiled : t.Filed instant) (id : ObjectId) (box : Box) (r : RegionId) :
    story pairOf (id, r) (t.update id box instant).2 =
      match (t.inside box).get? r with
      | some region => t.enter id instant ((t.membership id).get? r) region
      | none => (((t.membership id).get? r).map (·.exit id instant)).toList := by
  show story pairOf (id, r) (((t.inside box).entries.flatMap fun e =>
      t.enter id instant ((t.membership id).get? e.1) e.2) ++
    ((t.membership id).entries.filter fun e => ((t.inside box).get? e.1).isNone).map
      fun e => e.2.exit id instant) = _
  rw [story_append, story_flatMap fun e => (id, e.1), map_eq_flatMap,
    story_flatMap fun e => (id, e.1)]
  · simp only [Prod.mk.injEq, true_and]
    have hcomm : ((t.membership id).entries.filter fun e => ((t.inside box).get? e.1).isNone).filter
        (fun e => e.1 = r) = ((t.membership id).entries.filter fun e => e.1 = r).filter
          fun e => ((t.inside box).get? e.1).isNone := by
      rw [filter_filter, filter_filter]
      exact filter_congr fun e _ => Bool.and_comm _ _
    rw [hcomm, filter_entries, filter_entries]
    cases hinside : (t.inside box).get? r with
    | some region =>
      cases hm : (t.membership id).get? r <;> simp [hinside, hm]
    | none =>
      cases hm : (t.membership id).get? r <;> simp [hinside]
  · intro e he event hevent
    rw [mem_singleton.mp hevent]
    have hm := get?_eq_some_iff.mpr (mem_filter.mp he).1
    exact congrArg (Prod.mk id) (hfiled id e.1 e.2 hm).1
  · intro e he event hevent
    exact pairOf_enter hfiled (regionId_of_inside (get?_eq_some_iff.mpr he)) hevent

theorem accounts_update (hfiled : t.Filed instant) (id : ObjectId) (box : Box) :
    t.Accounts (t.update id box instant).2 (t.update id box instant).1 := by
  rintro ⟨k, r⟩
  by_cases hk : k = id
  · rw [hk, story_update hfiled]
    unfold standing
    rw [get?_membership_update]
    cases hinside : (t.inside box).get? r with
    | none =>
      cases hm : (t.membership id).get? r with
      | none => exact .nil none
      | some m => exact .closed (closes_exit id (hfiled id r m hm).2) (.nil none)
    | some region =>
      cases hm : (t.membership id).get? r with
      | none => exact .opened ⟨rfl, rfl⟩ (.nil _)
      | some m =>
        -- A new version of the geometry ends one episode and begins another.
        by_cases hversion : m.geometryVersion = region.version
        · simp only [enter, renew, hversion, ne_eq, not_true_eq_false, if_false, if_true,
            Option.map_some]
          exact .nil _
        · simp only [enter, renew, hversion, ne_eq, not_false_eq_true, if_true, if_false,
            Option.map_some]
          exact .closed (closes_exit id (hfiled id r m hm).2) (.opened ⟨rfl, rfl⟩ (.nil _))
  · have hnone : story pairOf (k, r) (t.update id box instant).2 = [] := by
      refine story_eq_nil fun e he hpair => hk ?_
      have hobject : e.objectId = k := congrArg Prod.fst hpair
      rw [← hobject]
      rcases mem_append.mp he with he | he
      · obtain ⟨e', he', hevent⟩ := mem_flatMap.mp he
        exact congrArg Prod.fst (pairOf_enter hfiled
          (regionId_of_inside (get?_eq_some_iff.mpr he')) hevent)
      · obtain ⟨m, -, rfl⟩ := mem_map.mp he
        rfl
    have hsame : (t.update id box instant).1.standing (k, r) = t.standing (k, r) := by
      unfold standing
      rw [membership_update, if_neg hk]
    rw [hnone, hsame]
    exact .nil _

/-! ## Runs -/

/-- A call that drops no membership without its exit. -/
def Keeps (t : RegionTracker) : RegionCall → Prop
  | .setRegions regions _ =>
    (build regions).isOk = true ∨ t.memberships.entries = []
  | .update .. | .forget .. => True

theorem Filed.call (hfiled : t.Filed instant) {c : RegionCall}
    (hc : c.instant.ns = instant.ns) : (t.call c).1.Filed instant := by
  intro k r m hm
  cases c with
  | setRegions regions now =>
    have hnone : ((t.call (.setRegions regions now)).1.membership k).get? r = none := by
      unfold RegionTracker.call setRegions
      dsimp only
      cases build regions <;> rfl
    rw [hnone] at hm
    cases hm
  | update id box now =>
    by_cases hk : k = id
    · have hget := hm
      rw [hk] at hget
      obtain ⟨region, hinside, rfl⟩ :=
        Option.map_eq_some_iff.mp ((get?_membership_update id box r).symm.trans hget)
      refine ⟨regionId_of_inside hinside, ?_⟩
      unfold renew
      cases hprevious : (t.membership id).get? r with
      | none => exact hc.le
      | some m' =>
        dsimp only
        split
        · exact (hfiled id r m' hprevious).2
        · exact hc.le
    · have hget : ((t.update id box now).1.membership k).get? r = some m := hm
      rw [membership_update, if_neg hk] at hget
      exact hfiled k r m hget
  | forget id now =>
    have hget : ((t.forget id now).1.membership k).get? r = some m := hm
    rw [membership_forget] at hget
    split at hget
    · cases hget
    · exact hfiled k r m hget

theorem accounts_call {c : RegionCall} (hfiled : t.Filed c.instant) (hkeeps : t.Keeps c) :
    t.Accounts (t.call c).2 (t.call c).1 := by
  cases c with
  | update id box now => exact accounts_update hfiled id box
  | forget id now => exact accounts_forget hfiled id
  | setRegions regions now =>
    unfold RegionTracker.call setRegions
    dsimp only
    cases hbuild : build regions with
    | ok index => exact accounts_closeAll hfiled rfl
    | error exc =>
      have hempty : t.memberships = ∅ := by
        rcases hkeeps with hok | hnobody
        · rw [hbuild] at hok
          cases hok
        · exact OrderedDict.ext hnobody
      have hclosed := @accounts_closeAll t _ hfiled { t with memberships := ∅ } rfl
      unfold closeAll at hclosed
      rw [hempty] at hclosed
      exact hclosed

/-- A tracker with everything it has returned. -/
structure Watched where
  tracker : RegionTracker
  returned : List RegionTransition := []

def Watched.step (s : Watched) (c : RegionCall) : Watched :=
  { tracker := (s.tracker.call c).1, returned := s.returned ++ (s.tracker.call c).2 }

/-- The transitions returned for a pair open and close its episodes in turn, from the first
    entry, and the memberships are the episodes that are open. -/
def Watched.Conserved (s : Watched) : Prop :=
  Episodes.Accounts Opens Closes pairOf (fun _ => none) s.returned s.tracker.standing

theorem conserved_run {s : Watched} (h : s.Conserved) {calls : List RegionCall}
    (hfiled : ∀ c ∈ calls, s.tracker.Filed c.instant)
    (hinstants : (calls.map (·.instant.ns)).Pairwise (· ≤ ·))
    (hkeeps : Runs.Always Watched.step (fun s c => s.tracker.Keeps c) s calls) :
    (run Watched.step s calls).Conserved := by
  induction calls generalizing s with
  | nil => exact h
  | cons c rest ih =>
    rw [map_cons, pairwise_cons] at hinstants
    have hc := hfiled c mem_cons_self
    refine ih (h.trans (accounts_call hc hkeeps.1)) (fun c' hc' => ?_) hinstants.2 hkeeps.2
    exact (hc.call rfl).mono (hinstants.1 _ (mem_map_of_mem hc'))

/-- Dwell is conserved in every state that calls reach, if those that raise find nobody inside. -/
theorem dwell_conserved {regions : List Region} {method : ContainmentMethod} {t : RegionTracker}
    (ht : construct regions method = .ok t) {calls : List RegionCall}
    (hinstants : (calls.map (·.instant.ns)).Pairwise (· ≤ ·))
    (hkeeps : Runs.Always Watched.step (fun s c => s.tracker.Keeps c) { tracker := t } calls)
    {before : List RegionCall} (hbefore : before <+: calls) :
    (run Watched.step { tracker := t } before).Conserved := by
  obtain ⟨rest, rfl⟩ := hbefore
  obtain ⟨index, -, ht⟩ := bind_eq_ok.mp ht
  obtain rfl := Except.ok.inj ht
  refine conserved_run (fun k => .nil none) (fun c _ id r m hm => by cases hm) ?_
    (always_append.mp hkeeps).1
  rw [map_append] at hinstants
  exact (pairwise_append.mp hinstants).1

def corner (x y : ℚ) : Point := ⟨.finite x, .finite y⟩

def room : Region where
  regionId := "room"
  geometry := ⟨[corner 0 0, corner (1 / 2) 0, corner (1 / 2) 1, corner 0 1], by decide +kernel⟩

def wall : Region where
  regionId := "wall"
  geometry := ⟨[corner 0 0, corner (1 / 2) 0, corner 1 0], by decide +kernel⟩

theorem standingBox_accepted : BoxFields.postInit
    ⟨.finite (1 / 8), .finite (1 / 4), .finite (1 / 4), .finite (1 / 2)⟩ = .ok () := by
  decide +kernel

def standingBox : Box := ⟨_, standingBox_accepted⟩

def roomBounds : Box := ⟨⟨.finite 0, .finite 0, .finite (1 / 2), .finite 1⟩, by decide +kernel⟩

def roomTracker : RegionTracker := { index := [⟨room, roomBounds⟩] }

theorem construct_room : construct [room] .bboxBottomCentre = .ok roomTracker := by
  have hbounds : room.geometry.bounds = .ok roomBounds := by decide +kernel
  unfold construct build
  rw [mapM_cons, hbounds]
  rfl

/-- Somebody comes in, the room is given a new version, and they leave the view. -/
theorem dwell_conserved_room :
    (run Watched.step { tracker := roomTracker }
      [.update "person" standingBox ⟨0⟩, .setRegions [{ room with version := "2" }] ⟨5⟩,
        .update "person" standingBox ⟨7⟩, .forget "person" ⟨9⟩]).Conserved :=
  dwell_conserved construct_room (by decide) (by
    exact ⟨trivial, .inl (by decide +kernel), trivial, trivial, trivial⟩) prefix_rfl

/-- An index that is not built takes the memberships with it: the exit is never returned. -/
theorem dwell_lost :
    construct [room] .bboxBottomCentre = .ok roomTracker ∧
      ¬ (run Watched.step { tracker := roomTracker }
        [.update "person" standingBox ⟨0⟩, .setRegions [wall] ⟨5⟩]).Conserved := by
  refine ⟨construct_room, fun h => ?_⟩
  have hleads := h ("person", "room")
  have hnobody : (run Watched.step { tracker := roomTracker }
      [.update "person" standingBox ⟨0⟩, .setRegions [wall] ⟨5⟩]).tracker.standing
        ("person", "room") = none := by decide +kernel
  have hstory : (story pairOf ("person", "room") (run Watched.step
      { tracker := roomTracker } [.update "person" standingBox ⟨0⟩,
        .setRegions [wall] ⟨5⟩]).returned).length = 1 := by decide +kernel
  obtain ⟨entry, hentry⟩ := length_eq_one_iff.mp hstory
  rw [hentry, hnobody] at hleads
  cases hleads with
  | opened _ hrest => cases hrest

end RegionTracker

end VisionOs.Registry
