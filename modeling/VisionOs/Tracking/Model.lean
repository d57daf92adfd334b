/-
  What the tracking layer publishes, and the lifecycle of a track as a closed state machine.
  Costs, weights and positions are exact rationals where the source has floats.
-/
import VisionOs.Core.Track

namespace VisionOs.Tracking

open Core

/-- How a track moves, as a fact about pixels. -/
inductive MotionState where
  | stationary | moving | erratic | unknown
  deriving DecidableEq, Repr

inductive BreakReason where
  | none | occlusion | exit | detectorMiss | associationFailure | epochReset
  deriving DecidableEq, Repr

inductive AssociationMethod where
  | iou | motionGatedIou | centroidDistance | appearance | reinitialized
  deriving DecidableEq, Repr

structure MotionEstimateFields where
  velocity : Point := ⟨.finite 0, .finite 0⟩
  acceleration : Option Point := none
  headingDegrees : Option PyFloat := none
  speed : PyFloat := .finite 0
  uncertainty : PyFloat := .finite 0

def MotionEstimateFields.postInit (m : MotionEstimateFields) : Raises Unit := do
  require (¬ m.speed.lt (.finite 0) = true)
    (.valueError [.text "speed must be non-negative, got ", .float m.speed])
  require (¬ m.uncertainty.lt (.finite 0) = true)
    (.valueError [.text "uncertainty must be non-negative, got ", .float m.uncertainty])
  match m.headingDegrees with
  | none => .ok ()
  | some heading =>
    require ((PyFloat.finite 0).le heading = true ∧ heading.lt (.finite 360) = true)
      (.valueError [.text "heading must be in [0,360), got ", .float heading])

structure MotionEstimate extends MotionEstimateFields where
  accepted : toMotionEstimateFields.postInit = .ok ()

/-- `MotionEstimate(...)`. -/
def MotionEstimate.construct : MotionEstimateFields → Raises MotionEstimate :=
  constructWith MotionEstimateFields.postInit MotionEstimate.mk

/-! ## Tracks and updates -/

structure TrackEvidence where
  associationMethod : AssociationMethod
  associationCost : ℚ := 0
  runnerUpCost : Option ℚ := none
  gatedCandidates : Int := 0

structure Track extends Core.Track where
  motion : MotionEstimate
  motionState : MotionState
  firstSeen : Instant
  detections : List FrameRef
  evidence : TrackEvidence
  provenance : Provenance
  breakReason : BreakReason := .none

structure AssociationFields where
  trackId : TrackId
  detectionIndex : Nat
  confidence : Confidence
  method : AssociationMethod
  cost : ℚ := 0

def AssociationFields.postInit (a : AssociationFields) : Raises Unit :=
  require (a.confidence.semantics = .association)
    (.valueError "an Association must carry ASSOCIATION confidence")

structure Association extends AssociationFields where
  accepted : toAssociationFields.postInit = .ok ()

/-- `Association(...)`. -/
def Association.construct : AssociationFields → Raises Association :=
  constructWith AssociationFields.postInit Association.mk

/-- A binding the tracker declined because it was too ambiguous to assert. -/
structure RefusedAssociation where
  trackId : TrackId
  bestCost : ℚ
  runnerUpCost : ℚ
  deriving DecidableEq

structure TrackUpdate where
  cameraId : CameraId
  frameRef : FrameRef
  trackerEpoch : Int
  active : List Track := []
  new : List TrackId := []
  terminated : List (TrackId × BreakReason) := []
  coasting : List TrackId := []
  recovered : List TrackId := []
  associations : List Association := []
  refused : List RefusedAssociation := []
  unmatchedDetections : List Nat := []

def constructTrackId : TrackIdFields → Raises TrackId :=
  constructWith TrackIdFields.postInit TrackId.mk

/-- One frame's worth of work for a tracker.  Embeddings, which no shipped tracker reads,
    are left out. -/
structure TrackingRequest where
  cameraId : CameraId
  frameRef : FrameRef
  timestamp : Instant
  elapsed : Duration
  detections : List Detection := []

def getItem {α : Type} (xs : List α) (i : Nat) : Raises α :=
  match xs[i]? with
  | some a => .ok a
  | none => .error (.indexError "list index out of range")

theorem getItem_eq_ok {α : Type} {xs : List α} {i : Nat} {a : α} :
    getItem xs i = .ok a ↔ xs[i]? = some a := by
  unfold getItem
  cases xs[i]? <;> simp

inductive TransitionReason where
  | created | hit | confirmed | miss | recovered | coastExceeded | lostWindowExpired
  | maxAgeExceeded | leftFrame | epochReset | capacityEvicted | ambiguousAssociation
  deriving DecidableEq, Repr

def isLegal : TrackState → TrackState → Bool
  | .tentative, .tentative | .tentative, .confirmed | .tentative, .terminated => true
  | .confirmed, .confirmed | .confirmed, .coasting | .confirmed, .terminated => true
  | .coasting, .confirmed | .coasting, .coasting | .coasting, .lost
  | .coasting, .terminated => true
  | .lost, .confirmed | .lost, .lost | .lost, .terminated => true
  | _, _ => false

structure LifecyclePolicyFields where
  minHitsToConfirm : Int := 3
  maxCoastFrames : Int := 5
  maxLostFrames : Int := 15
  maxAgeFrames : Int := 36000
  maxTracksPerCamera : Int := 256
  maxUnmeasuredNs : Int := 30000000000

def LifecyclePolicyFields.postInit (p : LifecyclePolicyFields) : Raises Unit := do
  require (¬ p.minHitsToConfirm < 1) (.valueError "min_hits_to_confirm must be >= 1")
  require (¬ p.maxCoastFrames < 0) (.valueError "max_coast_frames must be >= 0")
  require (¬ p.maxLostFrames < 0) (.valueError "max_lost_frames must be >= 0")
  require (¬ p.maxAgeFrames < 1) (.valueError "max_age_frames must be >= 1")
  require (¬ p.maxTracksPerCamera < 1) (.valueError "max_tracks_per_camera must be >= 1")

structure LifecyclePolicy extends LifecyclePolicyFields where
  accepted : toLifecyclePolicyFields.postInit = .ok ()

theorem LifecyclePolicy.bounds (p : LifecyclePolicy) :
    1 ≤ p.minHitsToConfirm ∧ 0 ≤ p.maxCoastFrames ∧ 0 ≤ p.maxLostFrames ∧ 1 ≤ p.maxAgeFrames ∧
      1 ≤ p.maxTracksPerCamera := by
  have h := p.accepted
  simpa only [LifecyclePolicyFields.postInit, check_bind_eq_ok, require_eq_ok, not_lt] using h

structure Transition where
  previous : TrackState
  current : TrackState
  reason : TransitionReason
  breakReason : BreakReason := .none
  deriving DecidableEq, Repr

namespace Transition

def isRecovery (t : Transition) : Bool := t.reason = .recovered

def isTerminal (t : Transition) : Bool := t.current = .terminated

end Transition

def checkTransition (previous current : TrackState) : Raises Unit :=
  require (isLegal previous current = true) (.illegalTransitionError
    s!"illegal track transition {previous.value} -> {current.value}; the lifecycle is a closed machine (03_MODULES M6 R2)")

namespace LifecyclePolicy

def moveTo (previous current : TrackState) (reason : TransitionReason)
    (breakReason : BreakReason := .none) : Raises Transition := do
  checkTransition previous current
  .ok { previous, current, reason
        breakReason := if current = .confirmed then .none else breakReason }

def onHit (p : LifecyclePolicy) (state : TrackState) (hitCount ageFrames : Int) :
    Raises Transition :=
  if state = .terminated then .error (.illegalTransitionError
    "a terminated track cannot be associated; ids are retired for the epoch")
  else if ageFrames ≥ p.maxAgeFrames then moveTo state .terminated .maxAgeExceeded
  -- `was_absent`
  else if state = .coasting ∨ state = .lost then moveTo state .confirmed .recovered
  else if state = .tentative then
    if hitCount ≥ p.minHitsToConfirm then moveTo state .confirmed .confirmed
    else moveTo state .tentative .hit
  else moveTo state .confirmed .hit

def hitState (p : LifecyclePolicy) (state : TrackState) (hitCount ageFrames : Int) : TrackState :=
  if ageFrames ≥ p.maxAgeFrames then .terminated
  else if state = .tentative ∧ hitCount < p.minHitsToConfirm then .tentative
  else .confirmed

def unmeasuredTooLong (p : LifecyclePolicy) (state : TrackState) (sinceMeasurementNs : Int) :
    Prop :=
  p.maxUnmeasuredNs > 0 ∧ state ≠ .tentative ∧ sinceMeasurementNs ≥ p.maxUnmeasuredNs

instance (p : LifecyclePolicy) (state : TrackState) (sinceMeasurementNs : Int) :
    Decidable (p.unmeasuredTooLong state sinceMeasurementNs) := by
  unfold unmeasuredTooLong
  infer_instance

def onMiss (p : LifecyclePolicy) (state : TrackState) (coastFrames ageFrames : Int)
    (breakReason : BreakReason) (sinceMeasurementNs : Int) : Raises Transition :=
  if state = .terminated then .error (.illegalTransitionError
    "a terminated track cannot miss; it no longer exists")
  else if p.unmeasuredTooLong state sinceMeasurementNs then
    moveTo state .terminated .lostWindowExpired breakReason
  else if ageFrames ≥ p.maxAgeFrames then
    moveTo state .terminated .maxAgeExceeded breakReason
  else
    match state with
    | .tentative => moveTo state .terminated .miss breakReason
    | .confirmed =>
      if p.maxCoastFrames = 0 then moveTo state .terminated .coastExceeded breakReason
      else moveTo state .coasting .miss breakReason
    | .coasting =>
      if coastFrames > p.maxCoastFrames then
        if p.maxLostFrames = 0 then moveTo state .terminated .coastExceeded breakReason
        else moveTo state .lost .coastExceeded breakReason
      else moveTo state .coasting .miss breakReason
    | _ =>
      if coastFrames - p.maxCoastFrames > p.maxLostFrames then
        moveTo state .terminated .lostWindowExpired breakReason
      else moveTo state .lost .miss breakReason

/-! ## What a transition can be -/

theorem moveTo_eq_ok {previous current : TrackState} {reason : TransitionReason}
    {breakReason : BreakReason} (h : isLegal previous current = true) :
    moveTo previous current reason breakReason =
      .ok ⟨previous, current, reason, if current = .confirmed then .none else breakReason⟩ := by
  unfold moveTo checkTransition
  rw [require_eq_ok.mpr h]
  rfl

variable {state : TrackState}

theorem isLegal_terminated (h : state ≠ .terminated) :
    isLegal state .terminated = true := by
  cases state <;> first | rfl | exact absurd rfl h

theorem onHit_live (p : LifecyclePolicy) (hitCount ageFrames : Int)
    (h : state ≠ .terminated) :
    ∃ t, p.onHit state hitCount ageFrames = .ok t ∧
      t.current = p.hitState state hitCount ageFrames ∧ t.breakReason = .none := by
  unfold onHit hitState
  rw [if_neg h]
  by_cases hage : ageFrames ≥ p.maxAgeFrames
  · rw [if_pos hage, if_pos hage]
    exact ⟨_, moveTo_eq_ok (isLegal_terminated h), rfl, rfl⟩
  rw [if_neg hage, if_neg hage]
  cases state with
  | terminated => exact absurd rfl h
  | tentative =>
    by_cases hhits : hitCount ≥ p.minHitsToConfirm
    · have hmany : ¬ hitCount < p.minHitsToConfirm := not_lt.mpr hhits
      simp only [reduceCtorEq, or_self, if_false, if_true, if_pos hhits, hmany, and_false]
      exact ⟨_, moveTo_eq_ok rfl, rfl, rfl⟩
    · have hfew : hitCount < p.minHitsToConfirm := not_le.mp hhits
      simp only [reduceCtorEq, or_self, if_false, if_true, if_neg hhits, hfew, and_self]
      exact ⟨_, moveTo_eq_ok rfl, rfl, rfl⟩
  | confirmed | coasting | lost => exact ⟨_, moveTo_eq_ok rfl, rfl, rfl⟩

theorem onMiss_cases (p : LifecyclePolicy)
    (coastFrames ageFrames : Int) (breakReason : BreakReason) (sinceMeasurementNs : Int)
    (hlive : state ≠ .terminated) :
    ∃ t, p.onMiss state coastFrames ageFrames breakReason sinceMeasurementNs = .ok t ∧
      t.breakReason = breakReason ∧
      (t.current = .terminated ∨
        (¬ p.unmeasuredTooLong state sinceMeasurementNs ∧ ageFrames < p.maxAgeFrames ∧
          ((t.current = .coasting ∧ ((state = .confirmed ∧ p.maxCoastFrames ≠ 0) ∨
              (state = .coasting ∧ coastFrames ≤ p.maxCoastFrames))) ∨
            (t.current = .lost ∧ ((state = .coasting ∧ p.maxCoastFrames < coastFrames ∧
                p.maxLostFrames ≠ 0) ∨
              (state = .lost ∧ coastFrames - p.maxCoastFrames ≤ p.maxLostFrames)))))) := by
  unfold onMiss
  rw [if_neg hlive]
  have hgone : ∀ reason, ∃ t, moveTo state .terminated reason breakReason = .ok t ∧
      t.breakReason = breakReason ∧ t.current = .terminated :=
    fun reason => ⟨_, moveTo_eq_ok (isLegal_terminated hlive), rfl, rfl⟩
  by_cases hlong : p.unmeasuredTooLong state sinceMeasurementNs
  · rw [if_pos hlong]
    obtain ⟨t, ht, hreason, hcurrent⟩ := hgone .lostWindowExpired
    exact ⟨t, ht, hreason, .inl hcurrent⟩
  rw [if_neg hlong]
  by_cases hold : ageFrames ≥ p.maxAgeFrames
  · rw [if_pos hold]
    obtain ⟨t, ht, hreason, hcurrent⟩ := hgone .maxAgeExceeded
    exact ⟨t, ht, hreason, .inl hcurrent⟩
  rw [if_neg hold]
  have hyoung := not_le.mp hold
  -- each state has one budget, and ends where its budget is zero or spent
  cases state with
  | terminated => exact absurd rfl hlive
  | tentative =>
    obtain ⟨t, ht, hreason, hcurrent⟩ := hgone .miss
    exact ⟨t, ht, hreason, .inl hcurrent⟩
  | confirmed =>
    by_cases hcoast : p.maxCoastFrames = 0
    · obtain ⟨t, ht, hreason, hcurrent⟩ := hgone .coastExceeded
      exact ⟨t, (if_pos hcoast).trans ht, hreason, .inl hcurrent⟩
    · exact ⟨_, (if_neg hcoast).trans (moveTo_eq_ok rfl), rfl,
        .inr ⟨hlong, hyoung, .inl ⟨rfl, .inl ⟨rfl, hcoast⟩⟩⟩⟩
  | coasting =>
    by_cases hcoast : coastFrames > p.maxCoastFrames
    · by_cases hlost : p.maxLostFrames = 0
      · obtain ⟨t, ht, hreason, hcurrent⟩ := hgone .coastExceeded
        exact ⟨t, (if_pos hcoast).trans ((if_pos hlost).trans ht), hreason, .inl hcurrent⟩
      · exact ⟨_, (if_pos hcoast).trans ((if_neg hlost).trans (moveTo_eq_ok rfl)), rfl,
          .inr ⟨hlong, hyoung, .inr ⟨rfl, .inl ⟨rfl, hcoast, hlost⟩⟩⟩⟩
    · exact ⟨_, (if_neg hcoast).trans (moveTo_eq_ok rfl), rfl,
        .inr ⟨hlong, hyoung, .inl ⟨rfl, .inr ⟨rfl, not_lt.mp hcoast⟩⟩⟩⟩
  | lost =>
    by_cases hlost : coastFrames - p.maxCoastFrames > p.maxLostFrames
    · obtain ⟨t, ht, hreason, hcurrent⟩ := hgone .lostWindowExpired
      exact ⟨t, (if_pos hlost).trans ht, hreason, .inl hcurrent⟩
    · exact ⟨_, (if_neg hlost).trans (moveTo_eq_ok rfl), rfl,
        .inr ⟨hlong, hyoung, .inr ⟨rfl, .inr ⟨rfl, not_lt.mp hlost⟩⟩⟩⟩

theorem onMiss_live (p : LifecyclePolicy) (coastFrames ageFrames : Int)
    (breakReason : BreakReason) (sinceMeasurementNs : Int) (h : state ≠ .terminated) :
    ∃ t, p.onMiss state coastFrames ageFrames breakReason sinceMeasurementNs = .ok t ∧
      (t.current = .coasting ∨ t.current = .lost ∨ t.current = .terminated) ∧
      t.breakReason = breakReason := by
  obtain ⟨t, ht, hreason, hwhere⟩ :=
    p.onMiss_cases coastFrames ageFrames breakReason sinceMeasurementNs h
  refine ⟨t, ht, ?_, hreason⟩
  rcases hwhere with hgone | ⟨-, -, ⟨hcoasting, -⟩ | ⟨hlost, -⟩⟩
  · exact .inr (.inr hgone)
  · exact .inl hcoasting
  · exact .inr (.inl hlost)

end LifecyclePolicy

end VisionOs.Tracking
