/-
  The object lifecycle: a closed machine over a table of edges.  A transition off
  the table raises, and so does anything asked of a terminal state; a departed
  object cannot be measured.
-/
import VisionOs.Core.VisualObject

namespace VisionOs.Registry

open Core

inductive LifecycleTrigger where
  | firstDetections | confirmationMet | neverConfirmed | measurementLost | reassociated
  | occlusionHorizon | leftFieldOfView | reEntryMatched | departureHorizon
  | identityResolution | retentionHorizon | populationShed
  deriving DecidableEq, Repr

def allowed : List (LifecycleState × LifecycleState) :=
  [ (.provisional, .provisional), (.provisional, .active), (.provisional, .expired),
    (.active, .active), (.active, .occluded), (.active, .dormant), (.active, .mergedInto),
    (.occluded, .occluded), (.occluded, .active), (.occluded, .dormant),
    (.dormant, .dormant), (.dormant, .active), (.dormant, .departed), (.dormant, .mergedInto),
    (.departed, .departed), (.departed, .expired) ]

structure LifecyclePolicyFields where
  minObservationsToConfirm : Int := 3
  provisionalHorizon : Duration := ⟨3000000000⟩
  occlusionHorizon : Duration := ⟨10000000000⟩
  dormantHorizon : Duration := ⟨120000000000⟩
  retentionHorizon : Duration := ⟨600000000000⟩
  maxObjectsPerCamera : Int := 512

def checkHorizon (name : String) (horizon : Duration) : Raises Unit :=
  require (¬ horizon.ns ≤ 0) (.valueError s!"{name} must be positive; every horizon is finite")

def LifecyclePolicyFields.postInit (p : LifecyclePolicyFields) : Raises Unit := do
  require (¬ p.minObservationsToConfirm < 1)
    (.valueError "min_observations_to_confirm must be >= 1")
  checkHorizon "provisional_horizon" p.provisionalHorizon
  checkHorizon "occlusion_horizon" p.occlusionHorizon
  checkHorizon "dormant_horizon" p.dormantHorizon
  checkHorizon "retention_horizon" p.retentionHorizon
  require (¬ p.maxObjectsPerCamera < 1) (.valueError "max_objects_per_camera must be >= 1")

structure LifecyclePolicy extends LifecyclePolicyFields where
  accepted : toLifecyclePolicyFields.postInit = .ok ()

theorem LifecyclePolicyFields.postInit_eq_ok {p : LifecyclePolicyFields} :
    p.postInit = .ok () ↔
      1 ≤ p.minObservationsToConfirm ∧ 0 < p.provisionalHorizon.ns ∧
      0 < p.occlusionHorizon.ns ∧ 0 < p.dormantHorizon.ns ∧ 0 < p.retentionHorizon.ns ∧
      1 ≤ p.maxObjectsPerCamera := by
  unfold postInit checkHorizon
  simp only [check_bind_eq_ok, require_eq_ok, not_lt, not_le]

/-! ## Transitions -/

structure LifecycleTransition where
  previous : LifecycleState
  current : LifecycleState
  trigger : LifecycleTrigger
  deriving DecidableEq

def LifecycleTransition.changed (t : LifecycleTransition) : Bool := t.previous ≠ t.current

def checkTransition (previous current : LifecycleState) : Raises Unit :=
  require ((previous, current) ∈ allowed) (.illegalTransitionError
    s!"illegal object lifecycle transition {previous.value} -> {current.value}; the lifecycle is a closed machine (02_VOM section 10.6)")

def transitionTo (previous current : LifecycleState) (trigger : LifecycleTrigger) :
    Raises LifecycleTransition := do
  checkTransition previous current
  return { previous, current, trigger }

def rejectTerminal (state : LifecycleState) (action : String) : Raises Unit :=
  require (state.isTerminal = false) (.illegalTransitionError
    s!"a {state.value} object cannot be {action}; terminal states are final and the record is retained only so history stays resolvable (V5)")

def onMeasured (policy : LifecyclePolicy) (state : LifecycleState) (observationCount : Int) :
    Raises LifecycleTransition := do
  rejectTerminal state "measured"
  match state with
  | .provisional =>
    if observationCount ≥ policy.minObservationsToConfirm then
      transitionTo state .active .confirmationMet
    else transitionTo state .provisional .firstDetections
  | .occluded => transitionTo state .active .reassociated
  | .dormant => transitionTo state .active .reEntryMatched
  | .departed => .error (.illegalTransitionError
      "a departed object cannot be re-measured; re-entry after departure mints a new object and emits an identity assertion linking them (02_VOM section 4.2)")
  | _ => transitionTo state .active .confirmationMet

def onUnmeasured (policy : LifecyclePolicy) (state : LifecycleState) (sinceConfirmed : Duration)
    (leftFieldOfView : Bool) : Raises LifecycleTransition := do
  rejectTerminal state "unmeasured"
  match state with
  | .provisional =>
    if sinceConfirmed.ns ≥ policy.provisionalHorizon.ns then
      transitionTo state .expired .neverConfirmed
    else transitionTo state .provisional .firstDetections
  | .active =>
    if leftFieldOfView then transitionTo state .dormant .leftFieldOfView
    else transitionTo state .occluded .measurementLost
  | .occluded =>
    if sinceConfirmed.ns ≥ policy.occlusionHorizon.ns then
      transitionTo state .dormant .occlusionHorizon
    else transitionTo state .occluded .measurementLost
  | .dormant =>
    if sinceConfirmed.ns ≥ policy.dormantHorizon.ns then
      transitionTo state .departed .departureHorizon
    else transitionTo state .dormant .occlusionHorizon
  | _ =>
    if sinceConfirmed.ns ≥ policy.retentionHorizon.ns then
      transitionTo state .expired .retentionHorizon
    else transitionTo state .departed .departureHorizon

def onMerged (state : LifecycleState) : Raises LifecycleTransition := do
  rejectTerminal state "merge"
  transitionTo state .mergedInto .identityResolution

def onShed (state : LifecycleState) : Raises LifecycleTransition := do
  require (state = .provisional) (.illegalTransitionError
    s!"only provisional objects may be shed under population pressure; {state.value} has been asserted to consumers and withdrawing it would make the platform's claims a function of its memory usage")
  transitionTo state .expired .populationShed

/-! ## What the machine answers -/

variable {state : LifecycleState}

theorem onMeasured_ok (policy : LifecyclePolicy)
    (hlive : state.isTerminal = false) (hhere : state ≠ .departed) (observationCount : Int) :
    ∃ t, onMeasured policy state observationCount = .ok t ∧ t.previous = state ∧
      (t.current = .active ∨ state = .provisional ∧ t.current = .provisional) := by
  unfold onMeasured
  cases state with
  | provisional =>
    by_cases hcount : observationCount ≥ policy.minObservationsToConfirm
    · exact ⟨⟨.provisional, .active, .confirmationMet⟩, by simp only [hcount]; rfl, rfl,
        .inl rfl⟩
    · exact ⟨⟨.provisional, .provisional, .firstDetections⟩, by simp only [hcount]; rfl, rfl,
        .inr ⟨rfl, rfl⟩⟩
  | active => exact ⟨_, rfl, rfl, .inl rfl⟩
  | occluded => exact ⟨_, rfl, rfl, .inl rfl⟩
  | dormant => exact ⟨_, rfl, rfl, .inl rfl⟩
  | departed => exact absurd rfl hhere
  | mergedInto => cases hlive
  | expired => cases hlive

theorem onMeasured_error (policy : LifecyclePolicy)
    (h : state.isTerminal = true ∨ state = .departed) (observationCount : Int) :
    ∃ message, onMeasured policy state observationCount =
      .error (.illegalTransitionError message) := by
  rcases h with hterminal | rfl
  · cases state with
    | mergedInto => exact ⟨_, rfl⟩
    | expired => exact ⟨_, rfl⟩
    | _ => cases hterminal
  · exact ⟨_, rfl⟩

variable {policy : LifecyclePolicy} {t : LifecycleTransition}

theorem onMeasured_live
    {observationCount : Int}
    (h : onMeasured policy state observationCount = .ok t) :
    state.isTerminal = false ∧ state ≠ .departed := by
  by_contra hno
  have hbad : state.isTerminal = true ∨ state = .departed := by
    cases hterminal : state.isTerminal with
    | true => exact .inl rfl
    | false => exact .inr (by_contra fun hhere => hno ⟨hterminal, hhere⟩)
  obtain ⟨message, herror⟩ := onMeasured_error policy hbad observationCount
  rw [h] at herror
  cases herror

theorem onUnmeasured_live
    {sinceConfirmed : Duration} {leftFieldOfView : Bool}
    (h : onUnmeasured policy state sinceConfirmed leftFieldOfView = .ok t) :
    state.isTerminal = false :=
  require_eq_ok.mp (check_bind_eq_ok.mp h).1

def UnmeasuredEdge (state current : LifecycleState) : Prop :=
  (state = .provisional ∧ (current = .provisional ∨ current = .expired)) ∨
  (state = .active ∧ (current = .occluded ∨ current = .dormant)) ∨
  (state = .occluded ∧ (current = .occluded ∨ current = .dormant)) ∨
  (state = .dormant ∧ (current = .dormant ∨ current = .departed)) ∨
  (state = .departed ∧ (current = .departed ∨ current = .expired))

theorem onUnmeasured_ok (policy : LifecyclePolicy)
    (hlive : state.isTerminal = false) (sinceConfirmed : Duration) (leftFieldOfView : Bool) :
    ∃ t, onUnmeasured policy state sinceConfirmed leftFieldOfView = .ok t ∧
      t.previous = state ∧ UnmeasuredEdge state t.current := by
  unfold onUnmeasured UnmeasuredEdge
  cases state with
  | provisional =>
    by_cases h : sinceConfirmed.ns ≥ policy.provisionalHorizon.ns
    · exact ⟨⟨.provisional, .expired, .neverConfirmed⟩, by simp only [h]; rfl, rfl, by simp⟩
    · exact ⟨⟨.provisional, .provisional, .firstDetections⟩, by simp only [h]; rfl, rfl, by simp⟩
  | active =>
    cases leftFieldOfView with
    | true => exact ⟨⟨.active, .dormant, .leftFieldOfView⟩, rfl, rfl, by simp⟩
    | false => exact ⟨⟨.active, .occluded, .measurementLost⟩, rfl, rfl, by simp⟩
  | occluded =>
    by_cases h : sinceConfirmed.ns ≥ policy.occlusionHorizon.ns
    · exact ⟨⟨.occluded, .dormant, .occlusionHorizon⟩, by simp only [h]; rfl, rfl, by simp⟩
    · exact ⟨⟨.occluded, .occluded, .measurementLost⟩, by simp only [h]; rfl, rfl, by simp⟩
  | dormant =>
    by_cases h : sinceConfirmed.ns ≥ policy.dormantHorizon.ns
    · exact ⟨⟨.dormant, .departed, .departureHorizon⟩, by simp only [h]; rfl, rfl, by simp⟩
    · exact ⟨⟨.dormant, .dormant, .occlusionHorizon⟩, by simp only [h]; rfl, rfl, by simp⟩
  | departed =>
    by_cases h : sinceConfirmed.ns ≥ policy.retentionHorizon.ns
    · exact ⟨⟨.departed, .expired, .retentionHorizon⟩, by simp only [h]; rfl, rfl, by simp⟩
    · exact ⟨⟨.departed, .departed, .departureHorizon⟩, by simp only [h]; rfl, rfl, by simp⟩
  | mergedInto => cases hlive
  | expired => cases hlive

end VisionOs.Registry
