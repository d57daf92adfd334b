/-
  Whether the trackers that ship pass the engine's check of their updates.  A track that reaches
  its largest age while it is matched ends without a break reason, the one thing that the check
  refuses.
-/
import VisionOs.Tracking.Stages
import VisionOs.Tracking.Identity

namespace VisionOs.Tracking

open Core Lib Effect List Option TrackTable OrderedDict

theorem verifyTerminated_eq_ok {ended : List (TrackId × BreakReason)} :
    verifyTerminated ended = .ok () ↔ ∀ x ∈ ended, x.2 ≠ .none := by
  induction ended with
  | nil => exact iff_of_true rfl fun x hx => absurd hx not_mem_nil
  | cons x rest ih =>
    unfold verifyTerminated
    rw [check_bind_eq_ok, require_eq_ok, ih, forall_mem_cons]

theorem verifyActive_eq_ok {request : TrackingRequest} {seen : List TrackId} {tracks : List Track}
    (hnodup : (tracks.map (·.trackId)).Nodup) (hseen : ∀ track ∈ tracks, track.trackId ∉ seen)
    (htracks : ∀ track ∈ tracks, track.cameraId = request.cameraId ∧ track.state ≠ .terminated ∧
      (track.state.isPredicted = true → track.measurementBasis ≠ .measured)) :
    verifyActive request seen tracks = .ok () := by
  induction tracks generalizing seen with
  | nil => rfl
  | cons track rest ih =>
    rw [map_cons, nodup_cons] at hnodup
    obtain ⟨hcamera, hlive, hmarked⟩ := htracks track mem_cons_self
    unfold verifyActive
    rw [check_bind_eq_ok]
    constructor
    · unfold verifyTrack
      simp only [check_bind_eq_ok, require_eq_ok, not_and]
      exact ⟨hseen track mem_cons_self, hcamera, hlive, hmarked⟩
    · refine ih hnodup.2 (fun t ht => ?_) fun t ht => htracks t (mem_cons_of_mem _ ht)
      rw [mem_cons, not_or]
      refine ⟨fun heq => hnodup.1 ?_, hseen t (mem_cons_of_mem _ ht)⟩
      exact mem_map.mpr ⟨t, ht, heq⟩

namespace GeometricWiring

variable {w : GeometricWiring} {request : TrackingRequest} {elapsed : Duration}

/-! ## Frames that return -/

theorem spawns_returns {t : TrackTable} (h : t.WellKept) {indices : List Nat}
    (hin : ∀ i ∈ indices, i < request.detections.length) :
    Effect.Returns (Effect.collect (w.spawnAt request) indices) t := by
  let I : List Nat → List (Option TrackRecord) → TrackTable → Prop := fun rest _ t' =>
    t'.WellKept ∧ ∀ i ∈ rest, i < request.detections.length
  refine wp_mono (fun _ _ _ => trivial) (fun _ _ h => h)
    (@wp_collect _ _ _ _ _ _ I _ _ [] ?_ ⟨h, hin⟩)
  rintro i rest done t₁ ⟨hkept, hrest⟩
  unfold spawnAt
  obtain ⟨d, hi⟩ : ∃ d, request.detections[i]? = some d :=
    ⟨_, getElem?_eq_getElem (hrest i mem_cons_self)⟩
  rw [wp_bind, wp_ofExcept_ok (getItem_eq_ok.mpr hi)]
  obtain ⟨box, t₂, h₂, hbox, hroom, hspawn⟩ := @spawn_eq w request t₁ hkept d
  unfold Effect.wp
  rw [hspawn]
  obtain ⟨-, hsize⟩ := hroom.continues hkept
  exact ⟨h₂.add hsize rfl, fun j hj => hrest j (mem_cons_of_mem _ hj)⟩

theorem sound_after {p : Pairing} {t t₁ t' : TrackTable} {turns : List Turn} {count : Nat}
    {made : List TrackRecord} (hsound : ∀ r ∈ t.records, r.Sound request.timestamp)
    (helapsed : 0 ≤ elapsed.ns) (hturns : TurnsDone w request elapsed p t turns t₁)
    (hspawns : SpawnsDone w request count t₁ made t') {id : TrackId} {r : TrackRecord}
    (hr : t'.table.get? id = some r) : r.Sound request.timestamp := by
  rcases hspawns.origin id r hr with hmoved | ⟨d, -, box, hbox, rfl⟩
  · obtain ⟨e, he, -, transition, hmoved, hlive⟩ := (hturns.filed id r).mp hmoved
    have hmem : e.1 ∈ t.records :=
      mem_of_getElem? (mem_zipIdx_iff_getElem?.mp he)
    exact hmoved.sound (hsound _ hmem) helapsed hlive
  · obtain ⟨box', hbox', hunit⟩ := d.hasBox
    rw [hbox] at hbox'
    cases hbox'
    exact TrackTable.Birth.sound (b := w.birth request d box) hunit id t₁.historyLength

theorem advance_returns (hlawful : w.associator.Lawful) (hrevision : w.configRevision ≠ "")
    {t : TrackTable} (hkept : t.WellKept) (hsound : ∀ r ∈ t.records, r.Sound request.timestamp)
    (helapsed : 0 ≤ elapsed.ns) : Effect.Returns (w.advance request elapsed) t := by
  obtain ⟨p, first, second, hpair, -, hpaired⟩ :=
    pair_spec hlawful t.records request.detections elapsed
  have hturns : Effect.Returns (Effect.collect (w.turn request elapsed p) t.records.zipIdx) t := by
    refine returns_collect fun e he t' => ?_
    have hmem : e.1 ∈ t.records := mem_of_getElem? (mem_zipIdx_iff_getElem?.mp he)
    exact turn_returns (hsound _ hmem) (fun d hd => hpaired.matched_within hd) t'
  unfold advance Effect.Returns
  rw [wp_bind, wp_read, wp_bind, wp_ofExcept_ok hpair]
  unfold apply
  rw [wp_bind]
  refine wp_mono ?_ (fun _ _ h => h) (wp_of_returns hturns (turns_spec hkept))
  intro turns t₁ hdone
  have hkept₁ := hdone.continues.kept
  have hsurplus : ∀ i ∈ surplus p, i < request.detections.length := by
    intro i hi
    have hhigh := (mem_filter.mp hi).1
    rw [hpaired.high] at hhigh
    exact hpaired.within i hhigh
  rw [wp_bind]
  refine wp_mono ?_ (fun _ _ h => h)
    (wp_of_returns (spawns_returns hkept₁ hsurplus) (spawns_spec hkept₁ (surplus p)))
  rintro created t' ⟨made, -, hspawned⟩
  obtain ⟨active, hactive, -⟩ := @mapM_returns _ _ w.project t'.records fun r hr => by
    obtain ⟨id, hid⟩ := mem_records.mp hr
    exact project_returns hrevision (sound_after hsound helapsed hdone hspawned hid)
  rw [wp_bind, wp_read, wp_bind, wp_ofExcept_ok hactive]
  trivial

/-! ## What the check says of a frame -/

theorem breakReason_ne_none (refused : List RefusedAssociation) (r : TrackRecord) :
    breakReason request refused r ≠ .none := by
  unfold breakReason TrackRecord.missReason
  split
  · decide
  · simp only
    split
    · decide
    · split <;> decide

theorem hit_isTerminal {r : TrackRecord} (hlive : r.state ≠ .terminated) {transition : Transition}
    (h : w.lifecycle.onHit r.state (r.hitCount + 1) (r.ageFrames + 1) = .ok transition) :
    (transition.isTerminal = true ↔ w.lifecycle.maxAgeFrames ≤ r.ageFrames + 1) ∧
      transition.breakReason = .none := by
  obtain ⟨t, ht, hcurrent, hreason⟩ :=
    w.lifecycle.onHit_live (r.hitCount + 1) (r.ageFrames + 1) hlive
  rw [h] at ht
  cases ht
  refine ⟨?_, hreason⟩
  unfold Transition.isTerminal
  rw [decide_eq_true_eq, hcurrent]
  unfold LifecyclePolicy.hitState
  by_cases hage : r.ageFrames + 1 ≥ w.lifecycle.maxAgeFrames
  · rw [if_pos hage]
    exact iff_of_true rfl hage
  · rw [if_neg hage]
    refine iff_of_false ?_ hage
    split <;> decide

/-- A matched track reaches its largest age. -/
def MatchedAtMaxAge (w : GeometricWiring) (records : List TrackRecord) (p : Pairing) : Prop :=
  ∃ e ∈ records.zipIdx, p.matched.get? e.2 ≠ none ∧ w.lifecycle.maxAgeFrames ≤ e.1.ageFrames + 1

variable {p : Pairing} {t t' t₁ : TrackTable} {u : TrackUpdate} {turns : List Turn}
  {made : List TrackRecord}

theorem terminated_reasons {entries : List (TrackRecord × Nat)}
    (hlive : ∀ e ∈ entries, e.1.state ≠ .terminated) (h : List.Forall₂ (fun e u => ∃ transition r',
      w.Moved request elapsed p e.1 e.2 transition r' ∧ Reported p e.1 e.2 transition r' u)
      entries turns) :
    (∀ x ∈ turns.filterMap (fun v => v.terminated.map (v.trackId, ·)), x.2 ≠ .none) ↔
      ¬ ∃ e ∈ entries, p.matched.get? e.2 ≠ none ∧
        w.lifecycle.maxAgeFrames ≤ e.1.ageFrames + 1 := by
  induction h with
  | nil => simp
  | @cons e v entries turns hfirst _ ih =>
    obtain ⟨transition, r', hmoved, hreported⟩ := hfirst
    have hlive' : e.1.state ≠ .terminated := hlive e mem_cons_self
    -- the turn of this record
    have hthis : (∀ b, v.terminated = some b → b ≠ .none) ↔
        ¬ (p.matched.get? e.2 ≠ none ∧ w.lifecycle.maxAgeFrames ≤ e.1.ageFrames + 1) := by
      rw [hreported.terminated]
      cases hmoved with
      | hit matched found boxed moved =>
        obtain ⟨hterminal, hnone⟩ := hit_isTerminal hlive' moved
        rw [matched, ← hterminal, hnone]
        by_cases hends : transition.isTerminal = true
        · rw [if_pos hends]
          refine iff_of_false (fun hall => hall _ rfl rfl) ?_
          exact not_not_intro ⟨some_ne_none _, hends⟩
        · rw [if_neg hends]
          refine iff_of_true (fun b hb => by cases hb) fun h => hends h.2
      | miss unmatched moved =>
        obtain ⟨t, ht, -, hreason⟩ := w.lifecycle.onMiss_live (e.1.coastFrames + 1)
          (e.1.ageFrames + 1) (breakReason request p.refused e.1)
          (e.1.sinceMeasurementNs + elapsed.ns) hlive'
        rw [moved] at ht
        cases ht
        refine iff_of_true (fun b hb => ?_) fun h => h.1 unmatched
        split at hb
        · rw [← some.inj hb, hreason]
          exact breakReason_ne_none p.refused e.1
        · cases hb
    have hrest := ih fun e' he' => hlive e' (mem_cons_of_mem _ he')
    have hcons : (∀ x ∈ (v :: turns).filterMap (fun v => v.terminated.map (v.trackId, ·)),
        x.2 ≠ .none) ↔ (∀ b, v.terminated = some b → b ≠ .none) ∧
          ∀ x ∈ turns.filterMap (fun v => v.terminated.map (v.trackId, ·)), x.2 ≠ .none := by
      rw [filterMap_cons]
      cases v.terminated with
      | none => simp
      | some b => simp
    rw [hcons, hthis, hrest]
    simp only [mem_cons, exists_eq_or_imp, not_or]

theorem FrameDone.verify_iff (hcamera : t.cameraId = request.cameraId)
    (hsound : ∀ r ∈ t.records, r.Sound request.timestamp) (helapsed : 0 ≤ elapsed.ns)
    (h : FrameDone w request elapsed t u t' p turns t₁ made) :
    verify u request = .ok () ↔ ¬ w.MatchedAtMaxAge t.records p := by
  have hactive : verifyActive request [] u.active = .ok () := by
    refine verifyActive_eq_ok ?_ (fun _ _ => not_mem_nil) fun track htrack => ?_
    · rw [h.active_ids]
      exact h.continues.kept.nodup_records
    · obtain ⟨r, hr, hproject⟩ := (mapM_ok h.projected).2 track htrack
      obtain ⟨id, hid⟩ := mem_records.mp hr
      have hlive := (sound_after hsound helapsed h.turned h.spawned hid).live
      have hpresentable := project_presentable hlive hproject
      obtain ⟨hthis, hown, -⟩ := h.continues.kept.issued id r hid
      refine ⟨?_, hpresentable.live, hpresentable.marked⟩
      rw [hpresentable.cameraId, hthis, hown, h.continues.cameraId, hcamera]
  have hreasons := terminated_reasons (fun e he => (hsound e.1
    (mem_of_getElem? (mem_zipIdx_iff_getElem?.mp he))).live) h.turned.each
  unfold verify
  rw [check_bind_eq_ok, require_eq_ok, check_bind_eq_ok, verifyTerminated_eq_ok, h.terminated]
  constructor
  · rintro ⟨-, -, hall⟩
    exact hreasons.mp hall
  · intro hnone
    exact ⟨h.cameraId, hactive, hreasons.mpr hnone⟩

end GeometricWiring

namespace GeometricTracker

open GeometricWiring

variable {w : GeometricWiring} {s : GeometricTracker} {request : TrackingRequest}

/-! ## Updates that return -/

theorem tableFor_returns (hhistory : 1 ≤ w.historyLength) (k : CameraId) :
    Effect.Returns (tableFor w k) s := by
  unfold tableFor Effect.Returns
  rw [wp_bind, wp_read]
  cases s.tables.get? k with
  | some t => trivial
  | none =>
    rw [wp_bind, wp_modify, wp_bind, wp_read, wp_bind,
      wp_ofExcept]
    refine ⟨fun _ _ => trivial, fun e he => ?_⟩
    -- the policy's bounds are those the table asks for
    have hmax := w.lifecycle.bounds.2.2.2.2
    unfold construct at he
    rw [require_eq_ok.mpr (not_lt.mpr hmax), ok_bind, require_eq_ok.mpr (not_lt.mpr hhistory)] at he
    cases he

/-- What holds of a camera between its frames: its records are sound at the time of the last. -/
structure Settled (w : GeometricWiring) (k : CameraId) (s : GeometricTracker) : Prop where
  sound : Sound w s
  records : ∀ t, s.tables.get? k = some t → ∀ id r, t.table.get? id = some r →
    ∃ last, s.lastTime.get? k = some last ∧ r.Sound last

/-- A request of the camera that comes after its last frame, and no earlier. -/
structure InOrder (k : CameraId) (s : GeometricTracker) (request : TrackingRequest) : Prop where
  camera : request.cameraId = k
  frame : ∀ previous, s.lastFrame.get? k = some previous → ¬ frameLe request.position previous
  time : ∀ last, s.lastTime.get? k = some last → last.ns ≤ request.timestamp.ns

theorem elapsedFor_nonneg (request : TrackingRequest) (s : GeometricTracker) :
    0 ≤ (elapsedFor request s).ns := by
  unfold elapsedFor
  split
  · rename_i hpositive
    exact le_of_lt hpositive
  · split
    · exact le_refl 0
    · exact le_max_left _ _

variable {k : CameraId}

theorem Settled.at_request (h : Settled w k s) (hin : InOrder k s request) :
    ∀ r ∈ (s.tableAt w request.cameraId).records, r.Sound request.timestamp := by
  rw [hin.camera]
  intro r hr
  obtain ⟨id, hid⟩ := mem_records.mp hr
  unfold tableAt at hid
  cases ht : s.tables.get? k with
  | none =>
    rw [ht] at hid
    cases hid
  | some t =>
    rw [ht] at hid
    obtain ⟨last, hlast, hsound⟩ := h.records t ht id r hid
    exact hsound.later (hin.time last hlast)

theorem update_returns (hlawful : w.associator.Lawful) (hrevision : w.configRevision ≠ "")
    (hhistory : 1 ≤ w.historyLength) (h : Settled w k s) (hin : InOrder k s request) :
    Effect.Returns (update w request) s := by
  have horder : assertOrdering request s = .ok () := by
    unfold assertOrdering
    rw [hin.camera]
    cases hprevious : s.lastFrame.get? k with
    | none => rfl
    | some previous => exact require_eq_ok.mpr (hin.frame previous hprevious)
  unfold update Effect.Returns
  rw [wp_bind, wp_read, wp_bind, wp_ofExcept_ok horder, wp_bind]
  refine wp_mono ?_ (fun _ _ h => h)
    (wp_of_returns (tableFor_returns hhistory _) (tableFor_spec h.sound request.cameraId))
  rintro t s₁ ⟨rfl, -, -, -⟩
  rw [wp_bind, wp_zoom]
  exact wp_mono (fun _ _ _ => trivial) (fun _ _ h => h)
    (advance_returns hlawful hrevision (h.sound.tableAt request.cameraId).1 (h.at_request hin)
      (elapsedFor_nonneg request s))

theorem Tracked.settled {u : TrackUpdate} {s' : GeometricTracker} (h : Settled w k s)
    (hin : InOrder k s request) (htracked : Tracked w request s u s') : Settled w k s' := by
  refine ⟨htracked.advances.sound, fun t ht id r hr => ⟨request.timestamp, ?_, ?_⟩⟩
  · rw [htracked.lastTime, ← hin.camera]
    exact get?_set_self _ _ _
  · obtain ⟨t', p, turns, t₁, made, htable, hdone⟩ := htracked.frame
    rw [← hin.camera, htable] at ht
    cases ht
    exact sound_after (h.at_request hin) (elapsedFor_nonneg request s) hdone.turned hdone.spawned hr

/-! ## Runs -/

/-- The tracker returns an update for the request, which the engine's check accepts; and every
    track that ended has a break reason. -/
def Passes (w : GeometricWiring) (s : GeometricTracker) (request : TrackingRequest) : Prop :=
  ∃ u, (update w request s).1 = .ok u ∧ verify u request = .ok () ∧
    ∀ x ∈ u.terminated, x.2 ≠ .none

/-- The frame matches a track that reaches its largest age in it. -/
def MatchesAtMaxAge (w : GeometricWiring) (s : GeometricTracker) (request : TrackingRequest) :
    Prop :=
  let t := s.tableAt w request.cameraId
  ∃ p, w.pair t.records request.detections (elapsedFor request s) = .ok p ∧
    w.MatchedAtMaxAge t.records p

def after (w : GeometricWiring) (s : GeometricTracker) (request : TrackingRequest) :
    GeometricTracker := (update w request s).2

theorem passes_iff (hlawful : w.associator.Lawful) (hrevision : w.configRevision ≠ "")
    (hhistory : 1 ≤ w.historyLength) (h : Settled w k s) (hin : InOrder k s request) :
    ∃ u, (update w request s).1 = .ok u ∧ Tracked w request s u (after w s request) ∧
      (Passes w s request ↔ ¬ MatchesAtMaxAge w s request) := by
  have htotal := wp_of_returns (update_returns hlawful hrevision hhistory h hin)
    (update_spec h.sound request)
  rcases wp_cases (update w request) s htotal with ⟨u, s', hrun, htotal⟩ | ⟨e, s', -, hfalse⟩
  swap
  · exact hfalse.elim
  · have hafter : after w s request = s' := congrArg Prod.snd hrun
    refine ⟨u, congrArg Prod.fst hrun, hafter ▸ htotal, ?_⟩
    obtain ⟨t', p, turns, t₁, made, -, hdone⟩ := htotal.frame
    have hverify := hdone.verify_iff (h.sound.tableAt (w := w) request.cameraId).2.1
      (h.at_request hin) (elapsedFor_nonneg request s)
    have hmatches : MatchesAtMaxAge w s request ↔
        w.MatchedAtMaxAge (s.tableAt w request.cameraId).records p := by
      constructor
      · rintro ⟨p', hp', hmatched⟩
        rw [hdone.paired] at hp'
        cases hp'
        exact hmatched
      · exact fun hmatched => ⟨p, hdone.paired, hmatched⟩
    rw [hmatches, ← hverify]
    constructor
    · rintro ⟨u', hu', hverified, -⟩
      rw [hrun] at hu'
      cases hu'
      exact hverified
    · intro hverified
      refine ⟨u, by rw [hrun], hverified, ?_⟩
      obtain ⟨-, hverified⟩ := check_bind_eq_ok.mp hverified
      exact verifyTerminated_eq_ok.mp (check_bind_eq_ok.mp hverified).2

/-- The frames of one camera, each after the one before and no earlier. -/
structure Sequence (k : CameraId) (requests : List TrackingRequest) : Prop where
  camera : ∀ request ∈ requests, request.cameraId = k
  frames : requests.Pairwise fun a b => ¬ frameLe b.position a.position
  times : requests.Pairwise fun a b => a.timestamp.ns ≤ b.timestamp.ns

/-- Over a run in order, every update passes the engine's check. -/
theorem run_passes (hlawful : w.associator.Lawful) (hrevision : w.configRevision ≠ "")
    (hhistory : 1 ≤ w.historyLength) {requests : List TrackingRequest} (h : Settled w k s)
    (hsequence : Sequence k requests) (hin : ∀ request ∈ requests, InOrder k s request) :
    Runs.Always (after w) (fun s request => ∃ u, (update w request s).1 = .ok u) s requests ∧
      (Runs.Always (after w) (Passes w) s requests ↔
        Runs.Always (after w) (fun s request => ¬ MatchesAtMaxAge w s request) s requests) := by
  induction requests generalizing s with
  | nil => exact ⟨trivial, Iff.rfl⟩
  | cons request rest ih =>
    have hfirst := hin request mem_cons_self
    obtain ⟨u, hu, htracked, hpasses⟩ := passes_iff hlawful hrevision hhistory h hfirst
    obtain ⟨hframes, hframes'⟩ := pairwise_cons.mp hsequence.frames
    obtain ⟨htimes, htimes'⟩ := pairwise_cons.mp hsequence.times
    -- the rest comes after this frame
    have hrest : ∀ later ∈ rest, InOrder k (after w s request) later := by
      intro later hlater
      refine ⟨hsequence.camera later (mem_cons_of_mem _ hlater), fun previous hp => ?_,
        fun last hl => ?_⟩
      · rw [htracked.lastFrame, hfirst.camera, get?_set_self] at hp
        rw [← some.inj hp]
        exact hframes later hlater
      · rw [htracked.lastTime, hfirst.camera, get?_set_self] at hl
        rw [← some.inj hl]
        exact htimes later hlater
    obtain ⟨hreturns, hiff⟩ := ih (htracked.settled h hfirst)
      ⟨fun later hlater => hsequence.camera later (mem_cons_of_mem _ hlater), hframes',
        htimes'⟩ hrest
    exact ⟨⟨⟨u, hu⟩, hreturns⟩, and_congr hpasses hiff⟩

theorem trackerFactories_spec
    {factory : String × (PlatformMath → BuilderArguments → GeometricWiring)}
    (h : factory ∈ trackerFactories) (lib : PlatformMath) (a : BuilderArguments) :
    (factory.2 lib a).associator.Lawful ∧ (factory.2 lib a).configRevision = a.configRevision ∧
      (factory.2 lib a).historyLength = a.historyLength := by
  simp only [trackerFactories, mem_cons, not_mem_nil, or_false] at h
  rcases h with rfl | rfl | rfl
  · exact ⟨greedyAssociator_lawful, rfl, rfl⟩
  · exact ⟨optimalAssociator_lawful, rfl, rfl⟩
  · exact ⟨optimalAssociator_lawful, rfl, rfl⟩

/-- From the start, with any thresholds and weights, a tracker that ships returns an update for
    each frame of a camera that comes in order; and the engine's check accepts all of them
    exactly when no frame matches a track that reaches its largest age in it. -/
theorem shipped_passes_iff
    {factory : String × (PlatformMath → BuilderArguments → GeometricWiring)}
    (hfactory : factory ∈ trackerFactories) (lib : PlatformMath) {a : BuilderArguments}
    (hrevision : a.configRevision ≠ "") (hhistory : 1 ≤ a.historyLength) {k : CameraId}
    {requests : List TrackingRequest} (hsequence : Sequence k requests) :
    let w := factory.2 lib a
    Runs.Always (after w) (fun s request => ∃ u, (update w request s).1 = .ok u) {} requests ∧
      (Runs.Always (after w) (Passes w) {} requests ↔
        Runs.Always (after w) (fun s request => ¬ MatchesAtMaxAge w s request) {} requests) := by
  intro w
  obtain ⟨hlawful, hrevision', hhistory'⟩ := trackerFactories_spec hfactory lib a
  have hstart : Settled w k {} := by
    refine ⟨sound_empty w, fun t ht => ?_⟩
    cases ht
  refine run_passes hlawful (by rw [hrevision']; exact hrevision)
    (by rw [hhistory']; exact hhistory) hstart hsequence fun request hrequest => ?_
  refine ⟨hsequence.camera request hrequest, fun previous hp => ?_, fun last hl => ?_⟩
  · cases hp
  · cases hl

def briefPolicy : LifecyclePolicy := { maxAgeFrames := 2, accepted := rfl }

theorem street_sequence : Sequence "street"
    [streetRequest 0 [leftPerson], streetRequest 1 [leftPerson]] where
  camera := by
    intro request hrequest
    simp only [mem_cons, not_mem_nil, or_false] at hrequest
    rcases hrequest with rfl | rfl <;> rfl
  frames := pairwise_pair.mpr (by decide)
  times := pairwise_pair.mpr (by decide)

/-- One person in two frames: in the second the track reaches its largest age while it is
    matched, and it ends without a break reason. -/
theorem brief_track_refused :
    ¬ Runs.Always (after (buildSortTracker horizontalMath { lifecycle := some briefPolicy }))
      (Passes (buildSortTracker horizontalMath { lifecycle := some briefPolicy })) {}
      [streetRequest 0 [leftPerson], streetRequest 1 [leftPerson]] := by
  rintro ⟨-, ⟨u, hu, -, hreasons⟩, -⟩
  obtain ⟨u', hu', x, hx, hnone⟩ :
      ∃ u, (update (buildSortTracker horizontalMath { lifecycle := some briefPolicy })
        (streetRequest 1 [leftPerson])
        (after (buildSortTracker horizontalMath { lifecycle := some briefPolicy }) {}
          (streetRequest 0 [leftPerson]))).1 = .ok u ∧ ∃ x ∈ u.terminated, x.2 = .none :=
    returns_of_any (by decide +kernel)
  obtain rfl := Except.ok.inj (hu.symm.trans hu')
  exact hreasons x hx hnone

/-- The frames of the street camera, under that policy. -/
theorem street_passes_iff :
    let w := buildSortTracker horizontalMath { lifecycle := some briefPolicy }
    let requests := [streetRequest 0 [leftPerson], streetRequest 1 [leftPerson]]
    Runs.Always (after w) (fun s request => ∃ u, (update w request s).1 = .ok u) {} requests ∧
      (Runs.Always (after w) (Passes w) {} requests ↔
        Runs.Always (after w) (fun s request => ¬ MatchesAtMaxAge w s request) {} requests) :=
  @shipped_passes_iff ("tracker.sort", buildSortTracker)
    (mem_cons_of_mem _ mem_cons_self) horizontalMath _ (by decide) (by decide) _ _
    street_sequence

end GeometricTracker

end VisionOs.Tracking
