/-
  A track's memory is short: over any hits and misses, a record that is still live is below every
  horizon of its policy.
-/
import VisionOs.Tracking.Specs
import VisionOs.Lib.Runs

namespace VisionOs.Tracking

open Core Lib List TrackRecord TrackState Effect

/-- What a frame means for a track: a detection it was matched with, or none. -/
inductive TrackEvent where
  | hit (detection : Detection) (elapsed : Duration) (now : Instant) (frameRef : FrameRef)
      (result : Resolved) (trackIndex detectionIndex : Nat)
  | miss (now : Instant) (breakReason : BreakReason) (elapsed : Duration)

namespace TrackEvent

def counts : TrackEvent → Bool
  | .hit detection .. => detection.spatial.bbox.isSome
  | .miss .. => true

/-- The frame a track is in after some events, its birth being frame one. -/
def frames (events : List TrackEvent) : Nat := 1 + (events.filter counts).length

/-- The misses in a row so far, each with the time it took. -/
def missed (events : List TrackEvent) : List Duration :=
  events.foldl (fun gap event =>
    match event with
    | .hit .. => if event.counts then [] else gap
    | .miss _ _ elapsed => gap ++ [elapsed]) []

def unmeasuredNs (events : List TrackEvent) : Int := ((missed events).map (·.ns)).sum

variable (events : List TrackEvent)

theorem frames_concat (event : TrackEvent) :
    frames (events ++ [event]) = frames events + if event.counts then 1 else 0 := by
  unfold frames
  rw [filter_append, length_append]
  cases hcounts : event.counts <;> simp [hcounts, Nat.add_assoc]

theorem missed_concat_miss (now : Instant) (breakReason : BreakReason) (elapsed : Duration) :
    missed (events ++ [.miss now breakReason elapsed]) = missed events ++ [elapsed] := by
  unfold missed
  rw [foldl_append]
  rfl

theorem missed_concat_hit {event : TrackEvent} (hhit : ∀ now reason elapsed,
    event ≠ .miss now reason elapsed) :
    missed (events ++ [event]) = if event.counts then [] else missed events := by
  unfold missed
  rw [foldl_append]
  cases event with
  | hit => rfl
  | miss now reason elapsed => exact absurd rfl (hhit now reason elapsed)

end TrackEvent

namespace GeometricWiring

variable (w : GeometricWiring)

/-- `_on_hit` or `_on_miss`. -/
def handle : TrackEvent → Effect PyException TrackRecord Transition
  | .hit detection elapsed now frameRef result trackIndex detectionIndex =>
    w.onHit detection elapsed now frameRef result trackIndex detectionIndex
  | .miss now breakReason elapsed => w.onMiss now breakReason elapsed

/-- A record after some events, each applied to what the one before left. -/
def recordAfter (r : TrackRecord) (events : List TrackEvent) : TrackRecord :=
  Runs.run (fun r event => (w.handle event r).2) r events

theorem recordAfter_concat (r : TrackRecord) (events : List TrackEvent) (event : TrackEvent) :
    w.recordAfter r (events ++ [event]) = (w.handle event (w.recordAfter r events)).2 :=
  Runs.run_append _ r events [event]

variable {w : GeometricWiring} {r : TrackRecord}

/-! ## One event -/

theorem handle_miss (now : Instant) (breakReason : BreakReason) (elapsed : Duration)
    {t : Transition} (ht : w.lifecycle.onMiss r.state (r.coastFrames + 1) (r.ageFrames + 1)
      breakReason (r.sinceMeasurementNs + elapsed.ns) = .ok t) :
    w.handle (.miss now breakReason elapsed) r = (.ok t, missRecord r t now elapsed) := by
  show (ofExcept (w.lifecycle.onMiss r.state (r.coastFrames + 1) (r.ageFrames + 1)
    breakReason (r.sinceMeasurementNs + elapsed.ns)) >>= _ : Effect PyException TrackRecord _)
      (r.countMiss elapsed) = _
  rw [ht]
  rfl

variable {detection : Detection}

theorem handle_hit {box : Box} (hbox : detection.spatial.bbox = some box)
    (elapsed : Duration) (now : Instant) (frameRef : FrameRef) (result : Resolved)
    (trackIndex detectionIndex : Nat) {t : Transition}
    (ht : w.lifecycle.onHit r.state (r.hitCount + 1) (r.ageFrames + 1) = .ok t) :
    ∃ r', w.handle (.hit detection elapsed now frameRef result trackIndex detectionIndex) r =
        (.ok t, r') ∧ r'.state = t.current ∧ r'.ageFrames = r.ageFrames + 1 ∧
      r'.coastFrames = 0 ∧ r'.sinceMeasurementNs = 0 := by
  obtain ⟨_, _, _, _, _, hmotion⟩ := updateMotionState_eq w.lib
    ((r.countHit.measure t.current box detection.classId now frameRef elapsed).assess
      ((result.costs.get? (trackIndex, detectionIndex)).getD 0) (result.runnerUp.get? trackIndex)
      w.method)
  refine ⟨_, ?_, congrArg state hmotion, congrArg ageFrames hmotion,
    congrArg coastFrames hmotion, congrArg sinceMeasurementNs hmotion⟩
  show w.onHit detection elapsed now frameRef result trackIndex detectionIndex r = _
  unfold onHit
  rw [hbox]
  show (ofExcept (w.lifecycle.onHit r.state (r.hitCount + 1) (r.ageFrames + 1)) >>= _ :
    Effect PyException TrackRecord _) r.countHit = _
  rw [ht]
  rfl

theorem handle_uncounted {event : TrackEvent} (hcounts : event.counts = false) :
    ∃ message, w.handle event r = (.error (.valueError message), r) := by
  cases event with
  | miss => cases hcounts
  | hit detection elapsed now frameRef result trackIndex detectionIndex =>
    have hbox : detection.spatial.bbox = none :=
      Option.isNone_iff_eq_none.mp (Option.isSome_eq_false_iff.mp hcounts)
    refine ⟨"a detection reaching the tracker must carry a box", ?_⟩
    show w.onHit detection elapsed now frameRef result trackIndex detectionIndex r = _
    unfold onHit
    rw [hbox]
    rfl

theorem handle_terminated (event : TrackEvent) (h : r.state = .terminated) :
    (w.handle event r).2.state = .terminated := by
  cases event with
  | miss now breakReason elapsed =>
    show ((ofExcept (w.lifecycle.onMiss r.state _ _ _ _) >>= _ :
      Effect PyException TrackRecord _) (r.countMiss elapsed)).2.state = _
    unfold LifecyclePolicy.onMiss
    rw [if_pos h]
    exact h
  | hit detection elapsed now frameRef result trackIndex detectionIndex =>
    show (w.onHit detection elapsed now frameRef result trackIndex detectionIndex r).2.state = _
    unfold onHit
    cases detection.spatial.bbox with
    | none => exact h
    | some box =>
      show ((ofExcept (w.lifecycle.onHit r.state _ _) >>= _ :
        Effect PyException TrackRecord _) r.countHit).2.state = _
      unfold LifecyclePolicy.onHit
      rw [if_pos h]
      exact h

/-! ## Runs -/

open TrackEvent

structure Remembers (p : LifecyclePolicy) (events : List TrackEvent) (r : TrackRecord) : Prop where
  live : r.state ≠ .terminated
  age : r.ageFrames = frames events
  coast : r.coastFrames = (missed events).length
  since : r.sinceMeasurementNs = unmeasuredNs events
  young : frames events = 1 ∨ (frames events : Int) < p.maxAgeFrames
  fresh : missed events = [] ∨ p.maxUnmeasuredNs ≤ 0 ∨ unmeasuredNs events < p.maxUnmeasuredNs
  measured : r.state = .tentative ∨ r.state = .confirmed → missed events = []
  coasting : r.state = .coasting → ((missed events).length : Int) ≤ p.maxCoastFrames
  lost : r.state = .lost → p.maxCoastFrames < (missed events).length ∧
    ((missed events).length : Int) ≤ p.maxCoastFrames + p.maxLostFrames

variable {p : LifecyclePolicy} {events : List TrackEvent}

theorem Remembers.start (b : TrackTable.Birth) (trackId : TrackId) (historyLength : Int) :
    Remembers p [] (b.record trackId historyLength) where
  live := noConfusion
  age := rfl
  coast := rfl
  since := rfl
  young := .inl rfl
  fresh := .inl rfl
  measured := fun _ => rfl
  coasting := noConfusion
  lost := noConfusion

theorem Remembers.hit (h : Remembers w.lifecycle events r) {box : Box}
    (hbox : detection.spatial.bbox = some box) (elapsed : Duration) (now : Instant)
    (frameRef : FrameRef) (result : Resolved) (trackIndex detectionIndex : Nat) :
    let event := hit detection elapsed now frameRef result trackIndex detectionIndex
    (w.handle event r).2.state = .terminated ∨
      Remembers w.lifecycle (events ++ [event]) (w.handle event r).2 := by
  intro event
  obtain ⟨t, ht, hcurrent, -⟩ :=
    w.lifecycle.onHit_live (r.hitCount + 1) (r.ageFrames + 1) h.live
  obtain ⟨r', hhandle, hstate, hage, hcoast, hsince⟩ :=
    handle_hit hbox elapsed now frameRef result trackIndex detectionIndex ht
  have hcounts : event.counts = true := by
    show detection.spatial.bbox.isSome = true
    rw [hbox]
    rfl
  have hmissed : missed (events ++ [event]) = [] := by
    rw [missed_concat_hit events fun _ _ _ => TrackEvent.noConfusion, if_pos hcounts]
  have hframes : frames (events ++ [event]) = frames events + 1 := by
    rw [frames_concat, if_pos hcounts]
  have hunmeasured : unmeasuredNs (events ++ [event]) = 0 := by
    unfold unmeasuredNs
    rw [hmissed]
    rfl
  rw [hhandle]
  unfold LifecyclePolicy.hitState at hcurrent
  by_cases hold : r.ageFrames + 1 ≥ w.lifecycle.maxAgeFrames
  · rw [if_pos hold] at hcurrent
    exact .inl (hstate.trans hcurrent)
  rw [if_neg hold] at hcurrent
  have hseen : r'.state = .tentative ∨ r'.state = .confirmed := by
    rw [hstate, hcurrent]
    split
    · exact .inl rfl
    · exact .inr rfl
  have hage' : r'.ageFrames = frames (events ++ [event]) := by
    rw [hage, h.age, hframes, Nat.cast_succ]
  refine .inr ⟨?_, hage', ?_, hsince.trans hunmeasured.symm, .inr ?_, .inl hmissed,
    fun _ => hmissed, fun hcoasting => ?_, fun hlost => ?_⟩
  · rcases hseen with hseen | hseen <;> simp [hseen]
  · rw [hcoast, hmissed]
    rfl
  · rw [← hage', hage]
    exact not_le.mp hold
  · rcases hseen with hseen | hseen <;> simp [hseen] at hcoasting
  · rcases hseen with hseen | hseen <;> simp [hseen] at hlost

/-- A miss. -/
theorem Remembers.miss (h : Remembers w.lifecycle events r) (now : Instant)
    (breakReason : BreakReason) (elapsed : Duration) :
    let event := miss now breakReason elapsed
    (w.handle event r).2.state = .terminated ∨
      Remembers w.lifecycle (events ++ [event]) (w.handle event r).2 := by
  intro event
  obtain ⟨t, ht, -, hwhere⟩ := w.lifecycle.onMiss_cases (r.coastFrames + 1) (r.ageFrames + 1)
    breakReason (r.sinceMeasurementNs + elapsed.ns) h.live
  rw [handle_miss now breakReason elapsed ht]
  rcases hwhere with hgone | ⟨hshort, hyoung, hwhere⟩
  · exact .inl hgone
  have hstate : (missRecord r t now elapsed).state = t.current := rfl
  have hmissed : missed (events ++ [event]) = missed events ++ [elapsed] :=
    missed_concat_miss events now breakReason elapsed
  have hlength : ((missed (events ++ [event])).length : Int) = r.coastFrames + 1 := by
    rw [hmissed, length_append, length_singleton, Nat.cast_succ, h.coast]
  have hframes : (frames (events ++ [event]) : Int) = r.ageFrames + 1 := by
    rw [frames_concat, if_pos (show event.counts = true from rfl), Nat.cast_succ, h.age]
  have hunmeasured : unmeasuredNs (events ++ [event]) = r.sinceMeasurementNs + elapsed.ns := by
    rw [h.since]
    unfold unmeasuredNs
    rw [hmissed, map_append, sum_append, map_singleton, sum_singleton]
  -- the ceilings are not for tentative tracks, which this one is not
  have hnot : r.state ≠ .tentative := by
    intro htentative
    rw [htentative] at hwhere
    simp at hwhere
  refine .inr ⟨?_, hframes.symm, hlength.symm, hunmeasured.symm, .inr ?_, .inr ?_, fun hseen => ?_,
    fun hcoasting => ?_, fun hlost => ?_⟩
  · rw [hstate]
    rcases hwhere with ⟨hcurrent, -⟩ | ⟨hcurrent, -⟩ <;> simp [hcurrent]
  · rw [hframes]
    exact hyoung
  · rw [hunmeasured]
    by_contra hboth
    rw [not_or, not_le, not_lt] at hboth
    exact hshort ⟨hboth.1, hnot, hboth.2⟩
  · rw [hstate] at hseen
    rcases hwhere with ⟨hcurrent, -⟩ | ⟨hcurrent, -⟩ <;> simp [hcurrent] at hseen
  · -- the first miss, or one more
    have hbounds := w.lifecycle.bounds
    rw [hstate] at hcoasting
    rw [hlength]
    rcases hwhere with ⟨-, ⟨hconfirmed, hcoast⟩ | ⟨-, hle⟩⟩ | ⟨hcurrent, -⟩
    · have hnone := h.measured (.inr hconfirmed)
      have hzero := h.coast
      rw [hnone] at hzero
      simp only [length_nil, Nat.cast_zero] at hzero
      omega
    · exact hle
    · rw [hcurrent] at hcoasting
      cases hcoasting
  · have hbounds := w.lifecycle.bounds
    rw [hstate] at hlost
    rw [hlength]
    rcases hwhere with ⟨hcurrent, -⟩ | ⟨-, ⟨hcoasting, hmore, hsome⟩ | ⟨hwas, hle⟩⟩
    · rw [hcurrent] at hlost
      cases hlost
    · have hbefore := h.coasting hcoasting
      have hcoast := h.coast
      omega
    · have hbefore := h.lost hwas
      have hcoast := h.coast
      omega

theorem Remembers.uncounted (h : Remembers p events r) {event : TrackEvent}
    (hcounts : event.counts = false) : Remembers p (events ++ [event]) r := by
  have hframes : frames (events ++ [event]) = frames events := by
    rw [frames_concat, hcounts]
    rfl
  have hmissed : missed (events ++ [event]) = missed events := by
    rw [missed_concat_hit events, hcounts]
    · rfl
    · rintro now reason elapsed rfl
      cases hcounts
  have hunmeasured : unmeasuredNs (events ++ [event]) = unmeasuredNs events := by
    unfold unmeasuredNs
    rw [hmissed]
  constructor
  · exact h.live
  · rw [hframes]
    exact h.age
  · rw [hmissed]
    exact h.coast
  · rw [hunmeasured]
    exact h.since
  · rw [hframes]
    exact h.young
  · rw [hmissed, hunmeasured]
    exact h.fresh
  · rw [hmissed]
    exact h.measured
  · rw [hmissed]
    exact h.coasting
  · rw [hmissed]
    exact h.lost

theorem recordAfter_remembers (b : TrackTable.Birth) (trackId : TrackId) (historyLength : Int)
    (events : List TrackEvent) :
    (w.recordAfter (b.record trackId historyLength) events).state = .terminated ∨
      Remembers w.lifecycle events (w.recordAfter (b.record trackId historyLength) events) := by
  induction events using List.reverseRecOn with
  | nil => exact .inr (Remembers.start b trackId historyLength)
  | append_singleton events event ih =>
    rw [recordAfter_concat]
    rcases ih with hgone | hremembers
    · exact .inl (handle_terminated event hgone)
    cases event with
    | miss now breakReason elapsed => exact hremembers.miss now breakReason elapsed
    | hit detection elapsed now frameRef result trackIndex detectionIndex =>
      cases hbox : detection.spatial.bbox with
      | some box =>
        exact hremembers.hit hbox elapsed now frameRef result trackIndex detectionIndex
      | none =>
        -- without a box the record stays as it is, and the event is not counted
        have hcounts : (hit detection elapsed now frameRef result trackIndex
            detectionIndex).counts = false := by
          show detection.spatial.bbox.isSome = false
          rw [hbox]
          rfl
        obtain ⟨_, hhandle⟩ := @handle_uncounted w
          (w.recordAfter (b.record trackId historyLength) events) _ hcounts
        rw [hhandle]
        exact .inr (hremembers.uncounted hcounts)

theorem handle_live (event : TrackEvent) (hlive : r.state ≠ .terminated) (message : Message) :
    (w.handle event r).1 ≠ .error (.illegalTransitionError message) := by
  intro hraised
  cases event with
  | miss now breakReason elapsed =>
    obtain ⟨t, ht, -⟩ := w.lifecycle.onMiss_live (r.coastFrames + 1) (r.ageFrames + 1) breakReason
      (r.sinceMeasurementNs + elapsed.ns) hlive
    rw [handle_miss now breakReason elapsed ht] at hraised
    cases hraised
  | hit detection elapsed now frameRef result trackIndex detectionIndex =>
    cases hbox : detection.spatial.bbox with
    | some box =>
      obtain ⟨t, ht, -⟩ := w.lifecycle.onHit_live (r.hitCount + 1) (r.ageFrames + 1) hlive
      obtain ⟨r', hhandle, -⟩ :=
        handle_hit hbox elapsed now frameRef result trackIndex detectionIndex ht
      rw [hhandle] at hraised
      cases hraised
    | none =>
      have hcounts : (hit detection elapsed now frameRef result trackIndex
          detectionIndex).counts = false := by
        show detection.spatial.bbox.isSome = false
        rw [hbox]
        rfl
      obtain ⟨_, hhandle⟩ := @handle_uncounted w r _ hcounts
      rw [hhandle] at hraised
      cases hraised

theorem handle_miss_tentative (h : r.state = .tentative) (now : Instant)
    (breakReason : BreakReason) (elapsed : Duration) :
    (w.handle (.miss now breakReason elapsed) r).2.state = .terminated := by
  obtain ⟨t, ht, -, hwhere⟩ := w.lifecycle.onMiss_cases (r.coastFrames + 1) (r.ageFrames + 1)
    breakReason (r.sinceMeasurementNs + elapsed.ns) (h.trans_ne noConfusion)
  rw [handle_miss now breakReason elapsed ht]
  rcases hwhere with hgone | ⟨-, -, hwhere⟩
  · exact hgone
  · rw [h] at hwhere
    simp at hwhere

/-- Nothing but a track that has ended is an illegal transition, and a track has ended by each of
    its horizons: the first miss while it is tentative, the misses in a row it may coast and be
    lost for and one more, the time it may be unmeasured for, and the age it may reach. -/
theorem recordAfter_forgotten (w : GeometricWiring) (b : TrackTable.Birth) (trackId : TrackId)
    (historyLength : Int) (events : List TrackEvent) :
    let r := w.recordAfter (b.record trackId historyLength) events
    (∀ event message, (w.handle event r).1 = .error (.illegalTransitionError message) →
      r.state = .terminated) ∧
    (∀ now breakReason elapsed, r.state = .tentative →
      (w.handle (.miss now breakReason elapsed) r).2.state = .terminated) ∧
    (w.lifecycle.maxCoastFrames + w.lifecycle.maxLostFrames + 1 ≤ (missed events).length →
      r.state = .terminated) ∧
    (0 < w.lifecycle.maxUnmeasuredNs → w.lifecycle.maxUnmeasuredNs ≤ unmeasuredNs events →
      r.state = .terminated) ∧
    (2 ≤ frames events → w.lifecycle.maxAgeFrames ≤ frames events → r.state = .terminated) := by
  intro r
  refine ⟨fun event message hraised => ?_, fun now breakReason elapsed htentative => ?_, ?_⟩
  · by_contra hlive
    exact handle_live event hlive message hraised
  · exact handle_miss_tentative htentative now breakReason elapsed
  rcases @recordAfter_remembers w b trackId historyLength events with hgone | h
  · exact ⟨fun _ => hgone, fun _ _ => hgone, fun _ _ => hgone⟩
  -- a record that is live is below the horizons
  refine ⟨fun hmany => absurd hmany ?_, fun hset hlong => absurd hlong ?_,
    fun hborn hold => absurd hold ?_⟩
  · have hbounds := w.lifecycle.bounds
    cases hstate : r.state with
    | terminated => exact absurd hstate h.live
    | tentative =>
      rw [h.measured (.inl hstate), length_nil, Nat.cast_zero]
      omega
    | confirmed =>
      rw [h.measured (.inr hstate), length_nil, Nat.cast_zero]
      omega
    | coasting =>
      have hcoast := h.coasting hstate
      omega
    | lost =>
      have hlost := h.lost hstate
      omega
  · rcases h.fresh with hnone | hunset | hshort
    · unfold unmeasuredNs
      rw [hnone]
      exact not_le.mpr hset
    · exact absurd hset (not_lt.mpr hunset)
    · exact not_le.mpr hshort
  · rcases h.young with hbirth | hyoung
    · omega
    · exact not_le.mpr hyoung

theorem quarter_lt_half : (1 / 4 : ℚ) < 1 / 2 := by decide +kernel

/-- The record of a person who has just come into view. -/
def newcomer (w : GeometricWiring) : TrackRecord :=
  (w.birth (streetRequest 0 [leftPerson]) leftPerson
    (columns (1 / 4) (1 / 2) quarter_lt_half)).record
      { cameraId := "street", trackerEpoch := 0, localId := 0, accepted := by decide } 30

def emptySecond : TrackEvent := .miss ⟨1000000000⟩ .detectorMiss ⟨1000000000⟩

def briefTracker : GeometricWiring :=
  buildSortTracker horizontalMath { lifecycle := some { maxAgeFrames := 1, accepted := by decide } }

/-- A second miss of a tentative track is an illegal transition, since the first has ended it; and
    a track may be in the frame of its ceiling, when that is the frame of its birth. -/
theorem missed_again :
    (∃ message, ((buildSortTracker horizontalMath {}).handle emptySecond
      ((buildSortTracker horizontalMath {}).recordAfter
        (newcomer (buildSortTracker horizontalMath {})) [emptySecond])).1 =
          .error (.illegalTransitionError message)) ∧
    briefTracker.lifecycle.maxAgeFrames ≤ frames [] ∧
      (briefTracker.recordAfter (newcomer briefTracker) []).state ≠ .terminated :=
  ⟨⟨_, rfl⟩, by decide, by decide⟩

end GeometricWiring

end VisionOs.Tracking
