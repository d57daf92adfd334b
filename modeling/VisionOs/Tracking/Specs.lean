/-
  What one turn of the tracker's loops can do, said once, and what holds of a record from frame to
  frame.
-/
import VisionOs.Tracking.Geometric

namespace VisionOs.Tracking

open Core Lib Effect PyFloat ProvenanceFields SpatialFields

/-! ## Records -/

theorem TrackRecord.updateMotionState_eq (lib : PlatformMath) (r : TrackRecord) :
    ∃ motionState stillFrames movingFrames directionChanges lastHeading,
      r.updateMotionState lib = { r with
        motionState, stillFrames, movingFrames, directionChanges, lastHeading } := by
  unfold updateMotionState
  have hturn : ∀ (r : TrackRecord) heading, ∃ changes last,
      r.turnTowards heading = { r with directionChanges := changes, lastHeading := last } := by
    intro r heading
    unfold turnTowards
    split
    · exact ⟨_, _, rfl⟩
    · split <;> exact ⟨_, _, rfl⟩
  have hmove : ∀ (r : TrackRecord) speed, ∃ still moving,
      r.moveAt speed = { r with stillFrames := still, movingFrames := moving } := by
    intro r speed
    unfold moveAt
    split <;> exact ⟨_, _, rfl⟩
  have hclassify : ∀ r : TrackRecord, ∃ motion, r.classifyMotion = { r with motionState := motion } := by
    intro r
    unfold classifyMotion
    split
    · exact ⟨_, rfl⟩
    split
    · exact ⟨_, rfl⟩
    split
    · exact ⟨_, rfl⟩
    split <;> exact ⟨_, rfl⟩
  obtain ⟨changes, last, hturn⟩ := hturn r (lib.headingOf r.predictor.velocity)
  rw [hturn]
  obtain ⟨still, moving, hmove⟩ := hmove
    { r with directionChanges := changes, lastHeading := last } (lib.speedOf r.predictor.velocity)
  rw [hmove]
  obtain ⟨motion, hclassify⟩ := hclassify
    { r with
      directionChanges := changes, lastHeading := last, stillFrames := still
      movingFrames := moving }
  exact ⟨_, _, _, _, _, hclassify⟩

namespace GeometricWiring

variable (w : GeometricWiring)

def hitRecord (r : TrackRecord) (state : TrackState) (box : Box) (detection : Detection)
    (request : TrackingRequest) (elapsed : Duration) (result : Resolved)
    (trackIndex detectionIndex : Nat) : TrackRecord :=
  ((r.countHit.measure state box detection.classId request.timestamp request.frameRef
    elapsed).assess ((result.costs.get? (trackIndex, detectionIndex)).getD 0)
      (result.runnerUp.get? trackIndex) w.method).updateMotionState w.lib

def missRecord (r : TrackRecord) (transition : Transition) (now : Instant) (elapsed : Duration) :
    TrackRecord :=
  (r.countMiss elapsed).coast transition.current now transition.breakReason

def breakReason (request : TrackingRequest) (refused : List RefusedAssociation)
    (r : TrackRecord) : BreakReason :=
  if r.trackId ∈ refused.map (·.trackId) then .associationFailure
  else r.missReason request.detections

inductive Moved (request : TrackingRequest) (elapsed : Duration) (p : Pairing) (r : TrackRecord)
    (trackIndex : Nat) : Transition → TrackRecord → Prop
  | hit {detectionIndex : Nat} {detection : Detection} {box : Box} {transition : Transition}
      (matched : p.matched.get? trackIndex = some detectionIndex)
      (found : request.detections[detectionIndex]? = some detection)
      (boxed : detection.spatial.bbox = some box)
      (moved : w.lifecycle.onHit r.state (r.hitCount + 1) (r.ageFrames + 1) = .ok transition) :
      Moved request elapsed p r trackIndex transition
        (w.hitRecord r transition.current box detection request elapsed p.result trackIndex
          detectionIndex)
  | miss {transition : Transition}
      (unmatched : p.matched.get? trackIndex = none)
      (moved : w.lifecycle.onMiss r.state (r.coastFrames + 1) (r.ageFrames + 1)
        (breakReason request p.refused r) (r.sinceMeasurementNs + elapsed.ns) = .ok transition) :
      Moved request elapsed p r trackIndex transition
        (missRecord r transition request.timestamp elapsed)

theorem hitRecord_eq (r : TrackRecord) (state : TrackState) (box : Box) (detection : Detection)
    (request : TrackingRequest) (elapsed : Duration) (result : Resolved)
    (trackIndex detectionIndex : Nat) :
    ∃ motionState stillFrames movingFrames directionChanges lastHeading,
      w.hitRecord r state box detection request elapsed result trackIndex detectionIndex =
        { (r.countHit.measure state box detection.classId request.timestamp request.frameRef
            elapsed).assess ((result.costs.get? (trackIndex, detectionIndex)).getD 0)
              (result.runnerUp.get? trackIndex) w.method with
          motionState, stillFrames, movingFrames, directionChanges, lastHeading } :=
  TrackRecord.updateMotionState_eq w.lib _

variable {w} {request : TrackingRequest} {elapsed : Duration} {p : Pairing} {r : TrackRecord}
  {trackIndex : Nat}

variable {r' : TrackRecord} {transition : Transition}

theorem Moved.frame
    (h : w.Moved request elapsed p r trackIndex transition r') :
    r'.trackId = r.trackId ∧ r'.state = transition.current := by
  cases h with
  | hit matched found boxed moved =>
    obtain ⟨_, _, _, _, _, heq⟩ := w.hitRecord_eq r transition.current _ _ request elapsed
      p.result trackIndex _
    rw [heq]
    exact ⟨rfl, rfl⟩
  | miss unmatched moved => exact ⟨rfl, rfl⟩

/-! ## One turn -/

/-- What a turn reports of its record. -/
structure Reported (p : Pairing) (r : TrackRecord) (trackIndex : Nat) (transition : Transition)
    (r' : TrackRecord) (u : Turn) : Prop where
  trackId : u.trackId = r.trackId
  terminated : u.terminated =
    if transition.isTerminal then some transition.breakReason else none
  /-- A match is published with what the record says of it. -/
  association : (p.matched.get? trackIndex = none ∧ u.association = none) ∨
    ∃ detectionIndex a, p.matched.get? trackIndex = some detectionIndex ∧
      u.association = some a ∧ a.trackId = r.trackId ∧ a.detectionIndex = detectionIndex ∧
      a.cost = r'.associationCost

def leave (transition : Transition) (r' : TrackRecord) (t : TrackTable) : TrackTable :=
  if transition.isTerminal then
    ((t.put r').put { r' with breakReason := transition.breakReason }).remove r'.trackId
  else t.put r'

def Turned (w : GeometricWiring) (request : TrackingRequest) (elapsed : Duration) (p : Pairing)
    (r : TrackRecord) (trackIndex : Nat) (t : TrackTable) (u : Turn) (t' : TrackTable) : Prop :=
  ∃ transition r', w.Moved request elapsed p r trackIndex transition r' ∧
    Reported p r trackIndex transition r' u ∧ t' = leave transition r' t

/-- A turn that raises has at most written its own record back. -/
def Interrupted (r : TrackRecord) (t t' : TrackTable) : Prop :=
  t' = t ∨ ∃ r' : TrackRecord, r'.trackId = r.trackId ∧ t' = t.put r'

variable {t : TrackTable}

variable {E : PyException → TrackTable → Prop}

theorem settle_spec {turn : Turn}
    (hmoved : w.Moved request elapsed p r trackIndex transition r')
    (hturn : turn.trackId = r.trackId) (hlive : turn.terminated = none)
    (hassociation : (p.matched.get? trackIndex = none ∧ turn.association = none) ∨
      ∃ detectionIndex a, p.matched.get? trackIndex = some detectionIndex ∧
        turn.association = some a ∧ a.trackId = r.trackId ∧ a.detectionIndex = detectionIndex ∧
        a.cost = r'.associationCost) :
    wp (settle transition r' turn) (Turned w request elapsed p r trackIndex t) E
      (t.put r') := by
  unfold settle
  split
  · rename_i hterminal
    refine ⟨transition, r', hmoved, ⟨hturn, (if_pos hterminal).symm, hassociation⟩, ?_⟩
    exact (if_pos hterminal).symm
  · rename_i hstays
    refine ⟨transition, r', hmoved, ⟨hturn, ?_, hassociation⟩, (if_neg hstays).symm⟩
    rw [if_neg hstays]
    exact hlive

theorem wp_onRecord {α : Type} {x : Effect PyException TrackRecord α}
    {Q : α × TrackRecord → TrackTable → Prop} :
    wp (onRecord r x) Q E t ↔
      wp x (fun a r' => Q (a, r') (t.put r')) (fun e r' => E e (t.put r')) r := by
  unfold onRecord
  rw [wp_zoom, wp_bind]
  exact Iff.rfl

theorem hitTurn_spec {detectionIndex : Nat}
    (hmatched : p.matched.get? trackIndex = some detectionIndex) :
    wp (w.hitTurn request elapsed p.result r trackIndex detectionIndex)
      (Turned w request elapsed p r trackIndex t) (fun _ t' => Interrupted r t t') t := by
  unfold hitTurn
  rw [wp_bind, wp_ofExcept]
  refine ⟨fun detection hfound => ?_, fun _ _ => .inl rfl⟩
  rw [getItem_eq_ok] at hfound
  rw [wp_bind, wp_onRecord]
  unfold onHit
  cases hbox : detection.spatial.bbox with
  | none => exact .inr ⟨r, rfl, rfl⟩
  | some box =>
    rw [wp_bind, wp_modify, wp_bind, wp_read, wp_bind,
      wp_ofExcept]
    refine ⟨fun transition hmoved => ?_, fun _ _ => .inr ⟨r.countHit, rfl, rfl⟩⟩
    have hmove : w.Moved request elapsed p r trackIndex transition
        (w.hitRecord r transition.current box detection request elapsed p.result trackIndex
          detectionIndex) := Moved.hit hmatched hfound hbox hmoved
    obtain ⟨hid, -⟩ := hmove.frame
    have hinterrupted : Interrupted r t (t.put (w.hitRecord r transition.current box detection
      request elapsed p.result trackIndex detectionIndex)) := .inr ⟨_, hid, rfl⟩
    rw [wp_bind, wp_modify, wp_bind, wp_modify, wp_bind,
      wp_modify, wp_pure, wp_bind, wp_ofExcept]
    refine ⟨fun confidence _ => ?_, fun _ _ => hinterrupted⟩
    rw [wp_bind, wp_ofExcept]
    refine ⟨fun a ha => ?_, fun _ _ => hinterrupted⟩
    obtain ⟨_, rfl⟩ := constructWith_eq_ok_iff.mp ha
    exact settle_spec hmove hid rfl (.inr ⟨_, _, hmatched, rfl, hid, rfl, rfl⟩)

theorem missTurn_spec (hunmatched : p.matched.get? trackIndex = none) :
    wp (missTurn w request elapsed p.refused r)
      (Turned w request elapsed p r trackIndex t) (fun _ t' => Interrupted r t t') t := by
  show wp (onRecord r _ >>= _) _ _ t
  rw [wp_bind, wp_onRecord]
  unfold onMiss
  rw [wp_bind, wp_modify, wp_bind, wp_read, wp_bind,
    wp_ofExcept]
  refine ⟨fun transition hmoved => ?_, fun _ _ => .inr ⟨r.countMiss elapsed, rfl, rfl⟩⟩
  have hmove : w.Moved request elapsed p r trackIndex transition
      (missRecord r transition request.timestamp elapsed) := Moved.miss hunmatched hmoved
  exact settle_spec hmove rfl rfl (.inl ⟨hunmatched, rfl⟩)

theorem turn_spec :
    wp (w.turn request elapsed p (r, trackIndex))
      (Turned w request elapsed p r trackIndex t) (fun _ t' => Interrupted r t t') t := by
  unfold turn
  cases hmatched : p.matched.get? trackIndex with
  | none => exact missTurn_spec hmatched
  | some detectionIndex => exact hitTurn_spec hmatched

end GeometricWiring

theorem clampUnit_bounds (x : ℚ) : 0 ≤ clampUnit x ∧ clampUnit x ≤ 1 :=
  ⟨le_max_left _ _, max_le zero_le_one (min_le_left _ _)⟩

theorem confidenceFromCost_bounds (cost : ℚ) (runnerUp : Option ℚ) :
    0 ≤ confidenceFromCost cost runnerUp ∧ confidenceFromCost cost runnerUp ≤ 1 := by
  obtain ⟨hlow, hhigh⟩ := clampUnit_bounds (1 - cost)
  cases runnerUp with
  | none => exact ⟨hlow, hhigh⟩
  | some r =>
    obtain ⟨hlow', hhigh'⟩ := clampUnit_bounds (max 0 (r - cost) / (3 / 10))
    exact ⟨mul_nonneg hlow hlow', mul_le_one₀ hhigh hlow' hhigh'⟩

theorem isWithinUnit_of_clamped {box : Box} {a b c d : ℚ}
    (h : box.toBoxFields = { x1 := .finite (clampUnit a), y1 := .finite (clampUnit b)
                             x2 := .finite (clampUnit c), y2 := .finite (clampUnit d) }) :
    box.isWithinUnit = true := by
  unfold Box.isWithinUnit
  rw [h]
  simp only [le, lt, eq, Bool.and_eq_true, Bool.or_eq_true,
    decide_eq_true_eq, ← le_iff_lt_or_eq]
  exact ⟨⟨⟨(clampUnit_bounds a).1, (clampUnit_bounds b).1⟩, (clampUnit_bounds c).2⟩,
    (clampUnit_bounds d).2⟩

theorem construct_associationConfidence {x : ℚ} (h : 0 ≤ x ∧ x ≤ 1) :
    ∃ confidence, Confidence.construct
        { value := .finite x, semantics := .association, rawScore := some (.finite x) } =
          .ok confidence ∧ confidence.semantics = .association :=
  ⟨_, constructWith_eq_ok (ConfidenceFields.postInit_uncalibrated .association
    (inUnit_finite h.1 h.2)), rfl⟩

/-- What holds of a record from frame to frame. -/
structure TrackRecord.Sound (r : TrackRecord) (now : Instant) : Prop where
  live : r.state ≠ .terminated
  box : r.box.isWithinUnit = true
  counters : 0 ≤ r.hitCount ∧ r.hitCount ≤ r.ageFrames ∧ 0 ≤ r.coastFrames
  coasting : r.state = .coasting → r.coastFrames ≠ 0
  since : 0 ≤ r.sinceMeasurementNs
  seen : r.lastSeen.ns ≤ r.lastUpdated.ns
  updated : r.lastUpdated.ns ≤ now.ns

theorem TrackRecord.Sound.later {r : TrackRecord} {now now' : Instant} (h : r.Sound now)
    (hnow : now.ns ≤ now'.ns) : r.Sound now' :=
  { h with updated := h.updated.trans hnow }

theorem TrackTable.Birth.sound {b : TrackTable.Birth} (hbox : b.box.isWithinUnit = true)
    (id : TrackId) (historyLength : Int) : (b.record id historyLength).Sound b.now where
  live := by
    show TrackState.tentative ≠ .terminated
    decide
  box := hbox
  counters := ⟨zero_le_one, le_refl _, le_refl _⟩
  coasting := fun h => by cases h
  since := le_refl _
  seen := le_refl _
  updated := le_refl _

namespace GeometricWiring

variable {w : GeometricWiring}

/-! ## Projection -/

variable {r : TrackRecord}

theorem motionOf_returns (hsince : 0 ≤ r.sinceMeasurementNs) :
    ∃ motion, w.motionOf r = .ok motion := by
  refine ⟨_, constructWith_eq_ok ?_⟩
  unfold MotionEstimateFields.postInit
  rw [check_bind_eq_ok, check_bind_eq_ok, require_eq_ok, require_eq_ok]
  refine ⟨?_, ?_, ?_⟩
  · -- a speed below the noise floor is published as zero
    simp only [lt, decide_eq_true_eq, not_lt]
    split
    · rename_i hfast
      exact le_trans (by decide +kernel) hfast
    · exact le_refl 0
  · simp only [lt, decide_eq_true_eq, not_lt]
    have hseconds : 0 ≤ (Duration.mk r.sinceMeasurementNs).seconds :=
      div_nonneg (by exact_mod_cast hsince) (by norm_num)
    exact mul_nonneg hseconds (by norm_num)
  · unfold PlatformMath.headingOf
    split
    · rfl
    rename_i heading hheading
    rw [Option.map_eq_some_iff] at hheading
    obtain ⟨h, hsome, rfl⟩ := hheading
    split at hsome
    · cases hsome
    · rw [require_eq_ok, ← Option.some.inj hsome]
      obtain ⟨hlow, hhigh⟩ := modTurn_bounds
        (w.lib.degreesAtan2 r.predictor.velocity.2 r.predictor.velocity.1)
      simp only [le, lt, eq, Bool.or_eq_true, decide_eq_true_eq,
        ← le_iff_lt_or_eq]
      exact ⟨hlow, hhigh⟩

theorem publishedBox_isWithinUnit (hbox : r.box.isWithinUnit = true) :
    (publishedBox r).isWithinUnit = true := by
  unfold publishedBox
  split
  · split
    · rename_i box hpredicted
      obtain ⟨prediction, -, hconstruct⟩ := bind_eq_ok.mp hpredicted
      obtain ⟨_, rfl⟩ := constructWith_eq_ok_iff.mp hconstruct
      exact isWithinUnit_of_clamped rfl
    · exact hbox
  · exact hbox

structure Presentable (r : TrackRecord) (track : Track) : Prop where
  trackId : track.trackId = r.trackId
  cameraId : track.cameraId = r.trackId.cameraId
  live : track.state ≠ .terminated
  marked : track.state.isPredicted = true → track.measurementBasis ≠ .measured

variable {track : Track}

theorem project_fields (h : w.project r = .ok track) :
    track.trackId = r.trackId ∧ track.cameraId = r.trackId.cameraId ∧ track.state = r.state ∧
      track.measurementBasis = if r.state.isPredicted then .predicted else .measured := by
  obtain ⟨motion, -, h⟩ := bind_eq_ok.mp h
  obtain ⟨confidence, -, h⟩ := bind_eq_ok.mp h
  obtain ⟨spatial, -, h⟩ := bind_eq_ok.mp h
  obtain ⟨provenance, -, h⟩ := bind_eq_ok.mp h
  obtain ⟨core, hcore, h⟩ := bind_eq_ok.mp h
  obtain ⟨_, rfl⟩ := constructWith_eq_ok_iff.mp hcore
  rw [← Except.ok.inj h]
  exact ⟨rfl, rfl, rfl, rfl⟩

theorem project_trackId (h : w.project r = .ok track) : track.trackId = r.trackId :=
  (project_fields h).1

theorem project_presentable (hlive : r.state ≠ .terminated)
    (h : w.project r = .ok track) : Presentable r track := by
  obtain ⟨hid, hcamera, hstate, hbasis⟩ := project_fields h
  refine ⟨hid, hcamera, hstate ▸ hlive, fun hpredicted => ?_⟩
  rw [hbasis, ← hstate, if_pos hpredicted]
  decide

theorem project_returns (hrevision : w.configRevision ≠ "") {now : Instant}
    (h : r.Sound now) : ∃ track, w.project r = .ok track := by
  obtain ⟨motion, hmotion⟩ := motionOf_returns (w := w) h.since
  obtain ⟨confidence, hconfidence, hsemantics⟩ :=
    construct_associationConfidence (clampUnit_bounds r.associationConfidence)
  have hspatial : postInit
      { frameOfReference := .normalized, bbox := some (publishedBox r) } = .ok () :=
    postInit_eq_ok.mpr ⟨fun hne => absurd rfl hne, fun hne => absurd rfl hne⟩
  have hmodule : trackerModule ≠ "" := by decide
  have hprovenance : postInit
      { producerModule := trackerModule
        producerVersion := "1.0.0"
        configRevision := w.configRevision
        adapterId := some w.config.trackerId
        adapterVersion := some w.config.version
        deterministic := true } = .ok () :=
    postInit_eq_ok.mpr ⟨hmodule, hrevision, fun hne => absurd rfl hne⟩
  have hmarked : r.state.isPredicted = true →
      (if r.state.isPredicted then MeasurementBasis.predicted else .measured) ≠ .measured := by
    intro hpredicted
    rw [if_pos hpredicted]
    decide
  obtain ⟨hhits, hage, hcoast⟩ := h.counters
  have htrack : TrackFields.postInit
      { trackId := r.trackId
        cameraId := r.trackId.cameraId
        tenantId := r.tenantId
        siteId := r.siteId
        state := r.state
        classId := r.classId
        confidence
        spatial := ⟨_, hspatial⟩
        measurementBasis := if r.state.isPredicted then .predicted else .measured
        lastSeen := r.lastSeen
        lastUpdated := r.lastUpdated
        ageFrames := r.ageFrames
        hitCount := r.hitCount
        coastFrames := r.coastFrames } = .ok () :=
    TrackFields.postInit_eq_ok.mpr ⟨hsemantics, rfl,
      ⟨publishedBox r, rfl, publishedBox_isWithinUnit h.box⟩,
      ⟨hhits.trans hage, hhits, hcoast⟩, hage, hmarked, h.coasting, h.seen⟩
  unfold project
  rw [hmotion, ok_bind, hconfidence, ok_bind, SpatialInfo.construct, constructWith_eq_ok hspatial,
    ok_bind, Provenance.construct, constructWith_eq_ok hprovenance, ok_bind, Core.Track.construct,
    constructWith_eq_ok htrack, ok_bind]
  exact ⟨_, rfl⟩

/-! ## Moves -/

variable {request : TrackingRequest} {elapsed : Duration} {p : Pairing} {r r' : TrackRecord}
  {trackIndex : Nat} {transition : Transition}

theorem Moved.sound (hmoved : w.Moved request elapsed p r trackIndex transition r')
    (h : r.Sound request.timestamp) (helapsed : 0 ≤ elapsed.ns)
    (hlive : transition.isTerminal = false) : r'.Sound request.timestamp := by
  obtain ⟨hhits, hage, hcoast⟩ := h.counters
  have hstate : transition.current ≠ .terminated := of_decide_eq_false hlive
  cases hmoved with
  | hit matched found boxed moved =>
    rename_i detectionIndex detection box
    obtain ⟨_, _, _, _, _, heq⟩ := w.hitRecord_eq r transition.current box detection request
      elapsed p.result trackIndex detectionIndex
    obtain ⟨box', hbox', hunit⟩ := detection.hasBox
    rw [boxed] at hbox'
    cases hbox'
    obtain ⟨t, ht, hcurrent, -⟩ := w.lifecycle.onHit_live (r.hitCount + 1) (r.ageFrames + 1) h.live
    rw [moved] at ht
    cases ht
    rw [heq]
    refine ⟨hstate, hunit, ⟨?_, ?_, le_refl 0⟩, fun hcoasting => ?_, le_refl 0, le_refl _,
      le_refl _⟩
    · show 0 ≤ r.hitCount + 1
      omega
    · show r.hitCount + 1 ≤ r.ageFrames + 1
      omega
    · -- a hit does not lead to coasting
      rw [hcurrent] at hcoasting
      unfold LifecyclePolicy.hitState at hcoasting
      split at hcoasting
      · cases hcoasting
      · split at hcoasting <;> cases hcoasting
  | miss unmatched moved =>
    refine ⟨hstate, h.box, ⟨hhits, ?_, ?_⟩, fun _ => ?_, ?_, ?_, le_refl _⟩
    · show r.hitCount ≤ r.ageFrames + 1
      omega
    · show 0 ≤ r.coastFrames + 1
      omega
    · show r.coastFrames + 1 ≠ 0
      omega
    · show 0 ≤ r.sinceMeasurementNs + elapsed.ns
      have hsince := h.since
      omega
    · exact h.seen.trans h.updated

/-- A turn of a sound record returns, with a record that moved and what is reported of it. -/
theorem turn_returns (h : r.Sound request.timestamp)
    (hin : ∀ d, p.matched.get? trackIndex = some d → d < request.detections.length)
    (t : TrackTable) :
    Effect.Returns (w.turn request elapsed p (r, trackIndex)) t := by
  have hsettle : ∀ (transition : Transition) (r' : TrackRecord) (u : Turn) (t' : TrackTable),
      Effect.Returns (settle transition r' u) t' := by
    intro transition r' u t'
    unfold settle
    split
    · trivial
    · trivial
  unfold turn Effect.Returns
  cases hmatched : p.matched.get? trackIndex with
  | none =>
    obtain ⟨transition, hmoved, -⟩ := w.lifecycle.onMiss_live (r.coastFrames + 1) (r.ageFrames + 1)
      (breakReason request p.refused r) (r.sinceMeasurementNs + elapsed.ns) h.live
    show wp (onRecord r _ >>= _) _ _ t
    rw [wp_bind, wp_onRecord]
    unfold onMiss
    rw [wp_bind, wp_modify, wp_bind, wp_read, wp_bind,
      wp_ofExcept]
    refine ⟨fun transition _ => hsettle _ _ _ _, fun e he => ?_⟩
    cases hmoved.symm.trans he
  | some d =>
    unfold hitTurn
    obtain ⟨detection, hdetection⟩ : ∃ detection, request.detections[d]? = some detection :=
      ⟨_, List.getElem?_eq_getElem (hin d hmatched)⟩
    obtain ⟨box, hbox, -⟩ := detection.hasBox
    obtain ⟨transition, hmoved, -⟩ :=
      w.lifecycle.onHit_live (r.hitCount + 1) (r.ageFrames + 1) h.live
    rw [wp_bind, wp_ofExcept_ok (getItem_eq_ok.mpr hdetection)]
    rw [wp_bind, wp_onRecord]
    unfold onHit
    rw [hbox]
    rw [wp_bind, wp_modify, wp_bind, wp_read, wp_bind,
      wp_ofExcept]
    refine ⟨fun transition _ => ?_, fun e he => by cases hmoved.symm.trans he⟩
    rw [wp_bind, wp_modify, wp_bind, wp_modify, wp_bind,
      wp_modify, wp_pure]
    -- the confidence of the match is one that was derived from its costs
    have hconfidence := confidenceFromCost_bounds ((p.result.costs.get? (trackIndex, d)).getD 0)
      (p.result.runnerUp.get? trackIndex)
    obtain ⟨_, _, _, _, _, heq⟩ := w.hitRecord_eq r transition.current box detection
      request elapsed p.result trackIndex d
    generalize hrecord : ((r.countHit.measure transition.current box detection.classId
      request.timestamp request.frameRef elapsed).assess
        ((p.result.costs.get? (trackIndex, d)).getD 0) (p.result.runnerUp.get? trackIndex)
          w.method).updateMotionState w.lib = r'
    have hassessed : 0 ≤ r'.associationConfidence ∧ r'.associationConfidence ≤ 1 := by
      rw [← hrecord]
      unfold hitRecord at heq
      rw [heq]
      exact hconfidence
    obtain ⟨confidence, hconstruct, hsemantics⟩ := construct_associationConfidence hassessed
    have haccepted : AssociationFields.postInit
        { trackId := r'.trackId, detectionIndex := d, confidence, method := r'.associationMethod
          cost := r'.associationCost } = .ok () := require_eq_ok.mpr hsemantics
    rw [wp_bind, wp_ofExcept_ok hconstruct, wp_bind, Association.construct,
      wp_ofExcept_ok (constructWith_eq_ok haccepted)]
    exact hsettle _ _ _ _

end GeometricWiring

end VisionOs.Tracking
