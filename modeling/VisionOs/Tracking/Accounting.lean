/-
  Whether an update accounts for every track.  A track the full table drops for a surplus
  detection is in no list, so a frame accounts for its tracks exactly when the survivors and the
  surplus detections fit in the table.
-/
import VisionOs.Tracking.Runs

namespace VisionOs.Tracking

open Core Lib List GeometricTracker TrackState

/-- Every track is accounted for: the tracks live before the frame and the new ones are, as a
    disjoint union, the active and the terminated ones; and the new ones are active. -/
structure Accounted (before : List TrackId) (u : TrackUpdate) : Prop where
  together : ∀ id, id ∈ before ∨ id ∈ u.new ↔
    id ∈ u.active.map (·.trackId) ∨ id ∈ u.terminated.map (·.1)
  before_new : (before ++ u.new).Nodup
  apart : (u.active.map (·.trackId) ++ u.terminated.map (·.1)).Nodup
  new_active : ∀ id ∈ u.new, id ∈ u.active.map (·.trackId)

namespace GeometricWiring

variable (w : GeometricWiring)

def verdict (request : TrackingRequest) (elapsed : Duration) (p : Pairing)
    (entry : TrackRecord × Nat) : Raises Transition :=
  match p.matched.get? entry.2 with
  | some _ => w.lifecycle.onHit entry.1.state (entry.1.hitCount + 1) (entry.1.ageFrames + 1)
  | none => w.lifecycle.onMiss entry.1.state (entry.1.coastFrames + 1) (entry.1.ageFrames + 1)
    (breakReason request p.refused entry.1) (entry.1.sinceMeasurementNs + elapsed.ns)

def survives (request : TrackingRequest) (elapsed : Duration) (p : Pairing)
    (entry : TrackRecord × Nat) : Bool :=
  match w.verdict request elapsed p entry with
  | .ok transition => !transition.isTerminal
  | .error _ => false

def survivors (request : TrackingRequest) (elapsed : Duration) (p : Pairing) (t : TrackTable) :
    List (TrackRecord × Nat) :=
  t.records.zipIdx.filter (w.survives request elapsed p)

variable {w} {request : TrackingRequest} {elapsed : Duration} {p : Pairing}

theorem Moved.survives {r r' : TrackRecord} {trackIndex : Nat} {transition : Transition}
    (h : w.Moved request elapsed p r trackIndex transition r') :
    w.survives request elapsed p (r, trackIndex) = !transition.isTerminal := by
  unfold GeometricWiring.survives verdict
  cases h with
  | hit matched found boxed moved => simp only [matched, moved]
  | miss unmatched moved => simp only [unmatched, moved]

variable {t t₁ t' : TrackTable} {u : TrackUpdate} {turns : List Turn} {made : List TrackRecord}

theorem terminated_ids {entries : List (TrackRecord × Nat)}
    (h : List.Forall₂ (fun e u => ∃ transition r',
      w.Moved request elapsed p e.1 e.2 transition r' ∧ Reported p e.1 e.2 transition r' u)
      entries turns) :
    (turns.filterMap fun v => v.terminated.map (v.trackId, ·)).map (·.1) =
      (entries.filter (!w.survives request elapsed p ·)).map (·.1.trackId) := by
  induction h with
  | nil => rfl
  | @cons e v entries turns heach _ ih =>
    obtain ⟨transition, r', hmoved, hreported⟩ := heach
    have hsurvives : w.survives request elapsed p e = !transition.isTerminal := hmoved.survives
    by_cases hterminal : transition.isTerminal = true
    · have hended : v.terminated = some transition.breakReason := by
        rw [hreported.terminated, if_pos hterminal]
      rw [filterMap_cons_some (by rw [hended]; rfl), filter_cons_of_pos
        (by rw [hsurvives, hterminal]; rfl), map_cons, map_cons, ih, hreported.trackId]
    · have hstays : v.terminated = none := by rw [hreported.terminated, if_neg hterminal]
      rw [filterMap_cons_none (by rw [hstays]; rfl), filter_cons_of_neg
        (by rw [hsurvives, Bool.eq_false_iff.mpr hterminal]; decide), ih]

theorem TurnsDone.moved (h : TurnsDone w request elapsed p t turns t₁)
    {e : TrackRecord × Nat} (he : e ∈ t.records.zipIdx) :
    ∃ transition r', w.Moved request elapsed p e.1 e.2 transition r' := by
  have heach := h.each
  clear h
  generalize t.records.zipIdx = entries at heach he
  induction heach with
  | nil => cases he
  | cons hfirst _ ih =>
    rcases mem_cons.mp he with rfl | he
    · obtain ⟨transition, r', hmoved, -⟩ := hfirst
      exact ⟨transition, r', hmoved⟩
    · exact ih he

theorem TurnsDone.mem_keys (h : TurnsDone w request elapsed p t turns t₁) (id : TrackId) :
    id ∈ t₁.table.keys ↔ id ∈ (w.survivors request elapsed p t).map (·.1.trackId) := by
  rw [OrderedDict.mem_keys_iff, mem_map]
  constructor
  · rintro ⟨r', hr'⟩
    obtain ⟨e, he, hid, transition, hmoved, hlive⟩ := (h.filed id r').mp hr'
    refine ⟨e, mem_filter.mpr ⟨he, ?_⟩, hid⟩
    have hsurvives : w.survives request elapsed p e = !transition.isTerminal := hmoved.survives
    rw [hsurvives, hlive]
    rfl
  · rintro ⟨e, he, hid⟩
    obtain ⟨he, hsurvives⟩ := mem_filter.mp he
    obtain ⟨transition, r', hmoved⟩ := h.moved he
    have hlive : w.survives request elapsed p e = !transition.isTerminal := hmoved.survives
    rw [hlive, Bool.not_eq_true'] at hsurvives
    exact ⟨r', (h.filed id r').mpr ⟨e, he, hid, transition, hmoved, hsurvives⟩⟩

theorem map_zipIdx_trackId (records : List TrackRecord) :
    records.zipIdx.map (·.1.trackId) = records.map (·.trackId) := by
  show records.zipIdx.map ((·.trackId) ∘ Prod.fst) = _
  rw [← map_map, zipIdx_map_fst]

theorem nodup_ids_filter (h : t.WellKept) (keep : TrackRecord × Nat → Bool) :
    ((t.records.zipIdx.filter keep).map (·.1.trackId)).Nodup := by
  have hsub : ((t.records.zipIdx.filter keep).map (·.1.trackId)).Sublist
      (t.records.map (·.trackId)) := by
    rw [← map_zipIdx_trackId]
    exact filter_sublist.map _
  exact hsub.nodup h.nodup_records

theorem TurnsDone.size (h : TurnsDone w request elapsed p t turns t₁) (hkept : t.WellKept) :
    t₁.table.size = (w.survivors request elapsed p t).length := by
  have hperm := (perm_ext_iff_of_nodup t₁.table.nodupKeys
    (nodup_ids_filter hkept (w.survives request elapsed p))).mpr h.mem_keys
  have hlength := hperm.length_eq
  rw [length_map, length_map] at hlength
  exact hlength

theorem length_records (h : t.WellKept) : t.records.length = t.table.size := by
  have hlength := congrArg List.length h.map_trackId
  rw [length_map, (perm_insertionSort _ _).length_eq] at hlength
  rw [hlength]
  exact length_map _

theorem FrameDone.accounted_iff (hkept : t.WellKept)
    (h : FrameDone w request elapsed t u t' p turns t₁ made) :
    Accounted (t.records.map (·.trackId)) u ↔
      ((w.survivors request elapsed p t).length + (surplus p).length : Int) ≤ t.maxTracks := by
  have hended : u.terminated.map (·.1) =
      (t.records.zipIdx.filter (!w.survives request elapsed p ·)).map (·.1.trackId) := by
    rw [h.terminated]
    exact terminated_ids h.turned.each
  have hactive := h.active_ids
  have hkept₁ := h.turned.continues.kept
  have hkept' := h.continues.kept
  have hsize := h.turned.size hkept
  constructor
  · intro haccounted
    -- both unions have no duplicates and the same members, hence the same length
    have hperm : (t.records.map (·.trackId) ++ u.new).Perm
        (u.active.map (·.trackId) ++ u.terminated.map (·.1)) := by
      refine (perm_ext_iff_of_nodup haccounted.before_new haccounted.apart).mpr fun id => ?_
      rw [mem_append, mem_append]
      exact haccounted.together id
    have hlength := hperm.length_eq
    rw [length_append, length_append, hended, hactive, h.new, length_map,
      length_map, length_map, length_map, h.spawned.length] at hlength
    have hrecords : t.records.length = t.records.zipIdx.length := length_zipIdx.symm
    have hsplit : t.records.zipIdx.length = (w.survivors request elapsed p t).length +
        (t.records.zipIdx.filter (!w.survives request elapsed p ·)).length :=
      length_eq_length_filter_add _
    have hfull := hkept'.size_le
    rw [← length_records hkept', h.continues.maxTracks] at hfull
    omega
  · intro hfits
    obtain ⟨-, hfiled⟩ := h.spawned.room (by
      rw [hsize, h.turned.continues.maxTracks]
      exact hfits)
    have hmem_active : ∀ id, id ∈ u.active.map (·.trackId) ↔
        id ∈ (w.survivors request elapsed p t).map (·.1.trackId) ∨ id ∈ u.new := by
      intro id
      rw [hactive, hkept'.mem_ids, ← h.turned.mem_keys, OrderedDict.mem_keys_iff, h.new,
        mem_map]
      constructor
      · rintro ⟨r, hr⟩
        rcases (hfiled id r).mp hr with hr | ⟨hr, hid⟩
        · exact .inl ⟨r, hr⟩
        · exact .inr ⟨r, hr, hid⟩
      · rintro (⟨r, hr⟩ | ⟨r, hr, hid⟩)
        · exact ⟨r, (hfiled id r).mpr (.inl hr)⟩
        · exact ⟨r, (hfiled id r).mpr (.inr ⟨hr, hid⟩)⟩
    have hmem_before : ∀ id, id ∈ t.records.map (·.trackId) ↔
        id ∈ (w.survivors request elapsed p t).map (·.1.trackId) ∨
          id ∈ u.terminated.map (·.1) := by
      intro id
      rw [hended, ← map_zipIdx_trackId, survivors]
      simp only [mem_map, mem_filter, Bool.not_eq_true']
      constructor
      · rintro ⟨e, he, hid⟩
        cases hsurvives : w.survives request elapsed p e with
        | true => exact .inl ⟨e, ⟨he, hsurvives⟩, hid⟩
        | false => exact .inr ⟨e, ⟨he, hsurvives⟩, hid⟩
      · rintro (⟨e, ⟨he, -⟩, hid⟩ | ⟨e, ⟨he, -⟩, hid⟩) <;> exact ⟨e, he, hid⟩
    -- a new id is below no counter of before
    have hnew_fresh : ∀ id ∈ u.new, id ∉ t.records.map (·.trackId) := by
      intro id hid hbefore
      rw [h.new] at hid
      obtain ⟨r, hr, rfl⟩ := mem_map.mp hid
      obtain ⟨r₀, hr₀⟩ := hkept.mem_ids.mp hbefore
      have hbelow := (hkept.issued _ _ hr₀).2.2.2
      have habove := (h.spawned.fresh r hr).2.2.1
      have hnext := h.turned.continues.next
      omega
    refine ⟨fun id => ?_, ?_, ?_, fun id hid => (hmem_active id).mpr (.inr hid)⟩
    · rw [hmem_active, hmem_before]
      tauto
    · rw [nodup_append]
      refine ⟨hkept.nodup_records, ?_, ?_⟩
      · rw [h.new]
        exact h.spawned.nodup
      · rintro id hid id' hid' rfl
        exact hnew_fresh id hid' hid
    · rw [nodup_append]
      refine ⟨?_, ?_, ?_⟩
      · rw [hactive]
        exact hkept'.nodup_records
      · rw [hended]
        exact nodup_ids_filter hkept _
      · rintro id hid id' hid' rfl
        rcases (hmem_active id).mp hid with hsurvivor | hnew
        · rw [hended] at hid'
          obtain ⟨e, he, rfl⟩ := mem_map.mp hsurvivor
          obtain ⟨e', he', heq⟩ := mem_map.mp hid'
          obtain ⟨he, hsurvives⟩ := mem_filter.mp he
          obtain ⟨he', hends⟩ := mem_filter.mp he'
          have hinj : e' = e := by
            have hnodup : (t.records.zipIdx.map (·.1.trackId)).Nodup := by
              rw [map_zipIdx_trackId]
              exact hkept.nodup_records
            exact inj_on_of_nodup_map hnodup he' he heq
          rw [hinj, hsurvives] at hends
          cases hends
        · exact hnew_fresh id hnew ((hmem_before id).mpr (.inr hid'))

end GeometricWiring

namespace GeometricTracker

def liveIds (cameraId : CameraId) (s : GeometricTracker) : List TrackId :=
  match s.tables.get? cameraId with
  | none => []
  | some t => t.records.map (·.trackId)

theorem liveIds_eq (w : GeometricWiring) (k : CameraId) (s : GeometricTracker) :
    s.liveIds k = (s.tableAt w k).records.map (·.trackId) := by
  unfold liveIds tableAt
  cases s.tables.get? k <;> rfl

/-- The tracks that a frame does not end and the strong detections that no track is matched with
    fit in the camera's table. -/
def FitsInTable (w : GeometricWiring) (request : TrackingRequest) (s : GeometricTracker) : Prop :=
  let t := s.tableAt w request.cameraId
  let elapsed := elapsedFor request s
  ∀ p, w.pair t.records request.detections elapsed = .ok p →
    ((w.survivors request elapsed p t).length + (GeometricWiring.surplus p).length : Int) ≤
      w.lifecycle.maxTracksPerCamera

/-- From any reachable state, a frame the tracker accepts accounts for every track exactly when
    the tracks it does not end and its surplus detections fit in the camera's table. -/
theorem accounted_iff_fitsInTable {w : GeometricWiring} {s s' : GeometricTracker}
    (hreachable : Reachable w s) {request : TrackingRequest} {u : TrackUpdate}
    (haccepted : update w request s = (.ok u, s')) :
    Accounted (s.liveIds request.cameraId) u ↔ FitsInTable w request s := by
  have hsound := hreachable.sound
  obtain ⟨t', p, turns, t₁, made, -, hdone⟩ := (Effect.wp_ok haccepted (update_spec hsound request)).frame
  obtain ⟨hkept, -, hmax⟩ := hsound.tableAt (w := w) request.cameraId
  rw [liveIds_eq w, hdone.accounted_iff hkept, hmax]
  constructor
  · intro hfits p' hp'
    rw [hdone.paired] at hp'
    cases hp'
    exact hfits
  · exact fun hfits => hfits p hdone.paired

def crampedTracker : GeometricWiring :=
  buildSortTracker horizontalMath
    { lifecycle := some { maxTracksPerCamera := 1, accepted := by decide } }

/-- Two people in a first frame with room for one track: the first track is announced and then
    dropped for the second, so the update says it is new, but neither that it is active nor that
    it ended. -/
theorem evicted_unaccounted :
    ∃ u s', update crampedTracker (streetRequest 0 [leftPerson, rightPerson]) {} = (.ok u, s') ∧
      Reachable crampedTracker {} ∧
      ¬ Accounted (liveIds "street" {}) u := by
  obtain ⟨u, hresult, hnew, hactive⟩ :
      ∃ u, (update crampedTracker (streetRequest 0 [leftPerson, rightPerson]) {}).1 = .ok u ∧
        0 ∈ u.new.map (·.localId) ∧ 0 ∉ u.active.map (·.trackId.localId) :=
    returns_of_any (by decide +kernel)
  refine ⟨u, _, Prod.ext hresult rfl, ⟨[], rfl⟩, fun haccounted => ?_⟩
  obtain ⟨id, hid, hzero⟩ := mem_map.mp hnew
  obtain ⟨track, htrack, rfl⟩ := mem_map.mp (haccounted.new_active id hid)
  exact hactive (mem_map.mpr ⟨track, htrack, hzero⟩)

/-- With the standard room both are accounted for. -/
theorem accounted_two_people :
    ∃ u s', update (buildSortTracker horizontalMath {}) (streetRequest 0 [leftPerson, rightPerson]) {}
        = (.ok u, s') ∧
      (Accounted (liveIds "street" {}) u ↔
        FitsInTable (buildSortTracker horizontalMath {})
          (streetRequest 0 [leftPerson, rightPerson]) {}) := by
  obtain ⟨u, hresult⟩ : ∃ u, (update (buildSortTracker horizontalMath {})
      (streetRequest 0 [leftPerson, rightPerson]) {}).1 = .ok u :=
    returns_of_isOk (by decide +kernel)
  exact ⟨u, _, Prod.ext hresult rfl,
    accounted_iff_fitsInTable ⟨[], rfl⟩ (Prod.ext hresult rfl)⟩

end GeometricTracker

namespace GeometricWiring

variable (w : GeometricWiring)

def nextState (request : TrackingRequest) (elapsed : Duration) (p : Pairing)
    (entry : TrackRecord × Nat) : Option TrackState :=
  match w.verdict request elapsed p entry with
  | .ok transition => some transition.current
  | .error _ => none

variable {w} {request : TrackingRequest} {elapsed : Duration} {p : Pairing}

theorem Moved.nextState {r r' : TrackRecord} {trackIndex : Nat} {transition : Transition}
    (h : w.Moved request elapsed p r trackIndex transition r') :
    w.nextState request elapsed p (r, trackIndex) = some transition.current := by
  unfold GeometricWiring.nextState verdict
  cases h with
  | hit matched found boxed moved => simp only [matched, moved]
  | miss unmatched moved => simp only [unmatched, moved]

variable {t t₁ t' : TrackTable} {u : TrackUpdate} {turns : List Turn} {made : List TrackRecord}

theorem TurnsDone.filed_of_nextState (h : TurnsDone w request elapsed p t turns t₁)
    {e : TrackRecord × Nat} (he : e ∈ t.records.zipIdx) {state : TrackState}
    (hstate : w.nextState request elapsed p e = some state) (hlive : state ≠ .terminated) :
    ∃ r, t₁.table.get? e.1.trackId = some r ∧ r.state = state := by
  obtain ⟨transition, r', hmoved⟩ := h.moved he
  have hnext := hmoved.nextState
  rw [hstate] at hnext
  obtain rfl := Option.some.inj hnext
  refine ⟨r', (h.filed _ _).mpr ⟨e, he, rfl, transition, hmoved, ?_⟩, hmoved.frame.2⟩
  exact decide_eq_false hlive

/-- The frame leaves a full table without a tentative track. -/
def FullOfAsserted (w : GeometricWiring) (request : TrackingRequest) (elapsed : Duration)
    (p : Pairing) (t : TrackTable) : Prop :=
  ((w.survivors request elapsed p t).length : Int) = w.lifecycle.maxTracksPerCamera ∧
    ∀ e ∈ w.survivors request elapsed p t, w.nextState request elapsed p e ≠ some .tentative

theorem TurnsDone.yields (h : TurnsDone w request elapsed p t turns t₁) (hkept : t.WellKept)
    (hmax : t.maxTracks = w.lifecycle.maxTracksPerCamera)
    (hnot : ¬ FullOfAsserted w request elapsed p t) : t₁.Yields := by
  have hsize := h.size hkept
  have hle := h.continues.kept.size_le
  have hmax₁ := h.continues.maxTracks
  by_cases hfull : ((w.survivors request elapsed p t).length : Int) =
      w.lifecycle.maxTracksPerCamera
  · -- then some survivor is tentative
    obtain ⟨e, he, htentative⟩ : ∃ e ∈ w.survivors request elapsed p t,
        w.nextState request elapsed p e = some .tentative := by
      by_contra hnone
      push Not at hnone
      exact hnot ⟨hfull, hnone⟩
    obtain ⟨r, hr, hstate⟩ :=
      h.filed_of_nextState (mem_filter.mp he).1 htentative noConfusion
    exact .inr ⟨_, r, hr, hstate⟩
  · refine .inl ?_
    omega

end GeometricWiring

namespace GeometricTracker

open GeometricWiring

/-- What the capacity of the table may not cost: a track that is confirmed after its turn is live
    after the frame, and a table full of asserted tracks takes no new one. -/
structure Spared (w : GeometricWiring) (request : TrackingRequest) (s : GeometricTracker)
    (u : TrackUpdate) (s' : GeometricTracker) : Prop where
  confirmed : ∀ p, w.pair (s.tableAt w request.cameraId).records request.detections
      (elapsedFor request s) = .ok p →
    ∀ e ∈ (s.tableAt w request.cameraId).records.zipIdx,
      w.nextState request (elapsedFor request s) p e = some .confirmed →
      e.1.trackId ∈ s'.liveIds request.cameraId
  refused : ∀ p, w.pair (s.tableAt w request.cameraId).records request.detections
      (elapsedFor request s) = .ok p →
    FullOfAsserted w request (elapsedFor request s) p (s.tableAt w request.cameraId) → u.new = []

/-- The frame leaves a table that is full of asserted tracks, and a strong detection that no track
    is matched with. -/
def Crowded (w : GeometricWiring) (request : TrackingRequest) (s : GeometricTracker) : Prop :=
  ∃ p, w.pair (s.tableAt w request.cameraId).records request.detections (elapsedFor request s) =
      .ok p ∧ surplus p ≠ [] ∧
    FullOfAsserted w request (elapsedFor request s) p (s.tableAt w request.cameraId)

/-- From any reachable state, a frame the tracker accepts spares the asserted tracks exactly when it
    does not leave a table full of them and a surplus detection. -/
theorem spared_iff_not_crowded {w : GeometricWiring} {s s' : GeometricTracker}
    (hreachable : Reachable w s) {request : TrackingRequest} {u : TrackUpdate}
    (haccepted : update w request s = (.ok u, s')) :
    Spared w request s u s' ↔ ¬ Crowded w request s := by
  have hsound := hreachable.sound
  obtain ⟨t', p, turns, t₁, made, htable, hdone⟩ := (Effect.wp_ok haccepted (update_spec hsound request)).frame
  obtain ⟨hkept, -, hmax⟩ := hsound.tableAt (w := w) request.cameraId
  have hlength : u.new.length = (surplus p).length := by
    rw [hdone.new, length_map, hdone.spawned.length]
  constructor
  · rintro hspared ⟨p', hp', hsurplus, hfull⟩
    rw [hdone.paired] at hp'
    cases hp'
    rw [hspared.refused p hdone.paired hfull, length_nil] at hlength
    exact hsurplus (length_eq_zero_iff.mp hlength.symm)
  · intro hnot
    have hnone : ∀ {p'}, w.pair (s.tableAt w request.cameraId).records request.detections
        (elapsedFor request s) = .ok p' → p' = p := by
      intro p' hp'
      rw [hdone.paired] at hp'
      exact (Except.ok.inj hp').symm
    constructor
    · intro p' hp' e he hconfirmed
      obtain rfl := hnone hp'
      obtain ⟨r, hr, hstate⟩ :=
        hdone.turned.filed_of_nextState he hconfirmed noConfusion
      -- the loop over the surplus detections leaves it where it is
      have hstays : t'.table.get? e.1.trackId = some r := by
        by_cases hsurplus : surplus p' = []
        · have hroom := hdone.spawned.room (by
            rw [hsurplus, length_nil, Nat.cast_zero, add_zero]
            exact hdone.turned.continues.kept.size_le)
          exact (hroom.2 _ _).mpr (.inl hr)
        · have hyields := hdone.turned.yields hkept hmax
            fun hfull => hnot ⟨p', hp', hsurplus, hfull⟩
          refine (hdone.spawned.spared hyields).2 _ r hr ?_
          rw [hstate]
          exact noConfusion
      unfold liveIds
      rw [htable]
      exact hdone.continues.kept.mem_ids.mpr ⟨r, hstays⟩
    · intro p' hp' hfull
      obtain rfl := hnone hp'
      by_contra hnew
      refine hnot ⟨p', hp', fun hempty => ?_, hfull⟩
      rw [hempty, length_nil] at hlength
      exact hnew (length_eq_zero_iff.mp hlength)

/-- A tracker with room for one track a camera, which it confirms with its first hit. -/
def soloTracker : GeometricWiring :=
  buildSortTracker horizontalMath
    { lifecycle := some { minHitsToConfirm := 1, maxTracksPerCamera := 1, accepted := by decide } }

def onePersonSeen (w : GeometricWiring) : GeometricTracker :=
  let request := streetRequest 0 [leftPerson]
  (answer w {} "street"
    (.update request.frameRef request.timestamp request.elapsed request.detections)).1

theorem onePersonSeen_reachable (w : GeometricWiring) : Reachable w (onePersonSeen w) :=
  ⟨[("street", _)], rfl⟩

/-- The person is seen again, which confirms the track, and a second one comes into view: the
    confirmed track is dropped for the second person. -/
theorem confirmed_withdrawn :
    ∃ u s', update soloTracker (streetRequest 1 [leftPerson, rightPerson])
        (onePersonSeen soloTracker) = (.ok u, s') ∧
      Reachable soloTracker (onePersonSeen soloTracker) ∧
      ¬ Spared soloTracker (streetRequest 1 [leftPerson, rightPerson]) (onePersonSeen soloTracker)
        u s' := by
  generalize hrequest : streetRequest 1 [leftPerson, rightPerson] = request
  generalize hs : onePersonSeen soloTracker = s
  obtain ⟨u, hu⟩ : ∃ u, (update soloTracker request s).1 = .ok u := by
    rw [← hrequest, ← hs]
    exact returns_of_isOk (by decide +kernel)
  refine ⟨u, _, Prod.ext hu rfl, hs ▸ onePersonSeen_reachable soloTracker, fun hspared => ?_⟩
  -- the track is confirmed by its turn
  obtain ⟨p, hpair, e, he, hzero, hconfirmed⟩ :
      ∃ p, soloTracker.pair (s.tableAt soloTracker request.cameraId).records
          request.detections (elapsedFor request s) = .ok p ∧
        ∃ e ∈ (s.tableAt soloTracker request.cameraId).records.zipIdx, e.1.trackId.localId = 0 ∧
          soloTracker.nextState request (elapsedFor request s) p e = some .confirmed := by
    rw [← hrequest, ← hs]
    exact returns_of_any (by decide +kernel)
  have hlive : 0 ∉ ((update soloTracker request s).2.liveIds request.cameraId).map
      (·.localId) := by
    rw [← hrequest, ← hs]
    decide +kernel
  exact hlive (mem_map.mpr ⟨_, hspared.confirmed p hpair e he hconfirmed, hzero⟩)

/-- With the person alone there is nothing to drop the track for. -/
theorem spared_alone :
    ∃ u s', update soloTracker (streetRequest 1 [leftPerson]) (onePersonSeen soloTracker) =
        (.ok u, s') ∧
      (Spared soloTracker (streetRequest 1 [leftPerson]) (onePersonSeen soloTracker) u s' ↔
        ¬ Crowded soloTracker (streetRequest 1 [leftPerson]) (onePersonSeen soloTracker)) := by
  obtain ⟨u, hresult⟩ : ∃ u, (update soloTracker (streetRequest 1 [leftPerson])
      (onePersonSeen soloTracker)).1 = .ok u := returns_of_isOk (by decide +kernel)
  exact ⟨u, _, Prod.ext hresult rfl,
    spared_iff_not_crowded (onePersonSeen_reachable soloTracker) (Prod.ext hresult rfl)⟩

end GeometricTracker

end VisionOs.Tracking
