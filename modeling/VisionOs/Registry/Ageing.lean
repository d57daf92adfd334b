/-
  How far a record has aged at some moment.  The lifecycle's edges for an object that is not
  measured are a chain of states; `_drive_horizons` goes as far along it as the time since the
  last measurement allows.
-/
import VisionOs.Lib.Timeline
import VisionOs.Registry.Specs

namespace VisionOs.Registry

open Core Lib Horizons LifecycleTransition

def unmeasuredEdge (policy : LifecyclePolicy) : LifecycleState → Option (Int × LifecycleState)
  | .provisional => some (policy.provisionalHorizon.ns, .expired)
  | .active => some (0, .occluded)
  | .occluded => some (policy.occlusionHorizon.ns, .dormant)
  | .dormant => some (policy.dormantHorizon.ns, .departed)
  | .departed => some (policy.retentionHorizon.ns, .expired)
  | .mergedInto => none
  | .expired => none

def edgesLeft : LifecycleState → Nat
  | .provisional => 1
  | .active => 4
  | .occluded => 3
  | .dormant => 2
  | .departed => 1
  | .mergedInto => 0
  | .expired => 0

def LifecyclePolicy.horizons (policy : LifecyclePolicy) : Horizons LifecycleState Int where
  next := unmeasuredEdge policy
  rank := edgesLeft
  descends := by
    intro a opens b h
    cases a <;> cases h <;> decide

variable {policy : LifecyclePolicy} {state : LifecycleState} {since : Duration}

theorem onUnmeasured_step (hlive : state.isTerminal = false) (hsince : 0 ≤ since.ns) :
    ∃ trigger, onUnmeasured policy state since false =
      .ok ⟨state, policy.horizons.step since.ns state, trigger⟩ := by
  unfold onUnmeasured step LifecyclePolicy.horizons unmeasuredEdge
  cases state with
  | provisional =>
    by_cases h : policy.provisionalHorizon.ns ≤ since.ns
    · exact ⟨.neverConfirmed, by simp only [h]; rfl⟩
    · exact ⟨.firstDetections, by simp only [h]; rfl⟩
  | active => exact ⟨.measurementLost, by simp only [hsince]; rfl⟩
  | occluded =>
    by_cases h : policy.occlusionHorizon.ns ≤ since.ns
    · exact ⟨.occlusionHorizon, by simp only [h]; rfl⟩
    · exact ⟨.measurementLost, by simp only [h]; rfl⟩
  | dormant =>
    by_cases h : policy.dormantHorizon.ns ≤ since.ns
    · exact ⟨.departureHorizon, by simp only [h]; rfl⟩
    · exact ⟨.occlusionHorizon, by simp only [h]; rfl⟩
  | departed =>
    by_cases h : policy.retentionHorizon.ns ≤ since.ns
    · exact ⟨.retentionHorizon, by simp only [h]; rfl⟩
    · exact ⟨.departureHorizon, by simp only [h]; rfl⟩
  | mergedInto => cases hlive
  | expired => cases hlive

theorem step_of_terminal (h : state.isTerminal = true) (since : Int) :
    policy.horizons.step since state = state := by
  cases state with
  | mergedInto => rfl
  | expired => rfl
  | _ => cases h

theorem horizonLoop_settles (hsince : 0 ≤ since.ns) {turns : Nat} (hturns : edgesLeft state ≤ turns)
    (moved : Option LifecycleTransition) :
    (policy.horizons.settle since.ns state = state ∧
      horizonLoop policy since turns state moved = .ok moved) ∨
    policy.horizons.settle since.ns state ≠ state ∧
      ∃ t, horizonLoop policy since turns state moved = .ok (some t) ∧
        t.current = policy.horizons.settle since.ns state := by
  induction turns generalizing state moved with
  | zero =>
    have hterminal : state.isTerminal = true := by
      cases state <;> first | rfl | cases hturns
    exact .inl ⟨settle_of_step_eq (step_of_terminal hterminal _), rfl⟩
  | succ turns ih =>
    unfold horizonLoop
    by_cases hterminal : state.isTerminal = true
    · rw [if_pos hterminal]
      exact .inl ⟨settle_of_step_eq (step_of_terminal hterminal _), rfl⟩
    rw [if_neg hterminal]
    obtain ⟨trigger, ht⟩ := @onUnmeasured_step policy _ _ (by simpa using hterminal) hsince
    rw [ht, ok_bind]
    by_cases hstays : policy.horizons.step since.ns state = state
    · have hsame : changed
          ⟨state, policy.horizons.step since.ns state, trigger⟩ = false := by
        simp [changed, hstays]
      rw [if_neg (by simp [hsame])]
      exact .inl ⟨settle_of_step_eq hstays, rfl⟩
    · have hchanged : changed
          ⟨state, policy.horizons.step since.ns state, trigger⟩ = true := by
        simp [changed, Ne.symm hstays]
      rw [if_pos hchanged]
      refine .inr ⟨settle_ne hstays, ?_⟩
      have hless : edgesLeft (policy.horizons.step since.ns state) < edgesLeft state :=
        (policy.horizons.step_eq_or_rank_lt since.ns state).resolve_left hstays
      rcases @ih (policy.horizons.step since.ns state) (by omega) _ with
        ⟨hend, hloop⟩ | ⟨-, t, hloop, hcurrent⟩
      · refine ⟨_, hloop, ?_⟩
        rw [← settle_step, hend]
      · refine ⟨t, hloop, ?_⟩
        rw [hcurrent, settle_step]

namespace ObjectRecord

variable {r r' : ObjectRecord} {moment earlier : Instant}

def aged (policy : LifecyclePolicy) (r : ObjectRecord) (moment : Instant) : LifecycleState :=
  policy.horizons.settle (sinceConfirmed moment r).ns r.lifecycle

theorem aged_of_terminal (h : r.lifecycle.isTerminal = true) : r.aged policy moment = r.lifecycle :=
  settle_of_step_eq (step_of_terminal h _)

theorem driveHorizons_aged (policy : LifecyclePolicy) (r : ObjectRecord) (moment : Instant) :
    (r.aged policy moment = r.lifecycle ∧ driveHorizons policy r moment = .ok none) ∨
    r.aged policy moment ≠ r.lifecycle ∧
      ∃ t, driveHorizons policy r moment = .ok (some t) ∧ t.current = r.aged policy moment := by
  have hturns : edgesLeft r.lifecycle ≤ 7 := by cases r.lifecycle <;> decide
  exact horizonLoop_settles (le_max_left _ _) hturns none

theorem sinceConfirmed_mono (h : earlier.ns ≤ moment.ns) (r : ObjectRecord) :
    (sinceConfirmed earlier r).ns ≤ (sinceConfirmed moment r).ns := by
  show max 0 (earlier.ns - r.lastConfirmed.ns) ≤ max 0 (moment.ns - r.lastConfirmed.ns)
  omega

theorem aged_aged (h : earlier.ns ≤ moment.ns) (hconfirmed : r'.lastConfirmed = r.lastConfirmed)
    (hstate : r'.lifecycle = r.aged policy earlier) :
    r'.aged policy moment = r.aged policy moment := by
  unfold aged at hstate ⊢
  have hsince : sinceConfirmed moment r' = sinceConfirmed moment r := by
    unfold sinceConfirmed
    rw [hconfirmed]
  rw [hsince, hstate]
  exact settle_settle (sinceConfirmed_mono h r) _

theorem aged_expired (h : earlier.ns ≤ moment.ns) (hexpired : r.aged policy earlier = .expired) :
    r.aged policy moment = .expired := by
  rw [← @aged_aged policy r { r with lifecycle := .expired } moment earlier h rfl hexpired.symm]
  exact aged_of_terminal rfl

theorem aged_eq_of_later (h : earlier.ns ≤ moment.ns)
    (hstays : r.aged policy moment = r.lifecycle) : r.aged policy earlier = r.lifecycle :=
  settle_eq_self_of_le (sinceConfirmed_mono h r) hstays

end ObjectRecord

end VisionOs.Registry
