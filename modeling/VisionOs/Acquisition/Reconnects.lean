/-
  When an actor's run loop ends.  A stream that the watchdog closed returns what one that ran out
  returns, and an exception that `_connect` does not expect ends the task.
-/
import VisionOs.Acquisition.ActorMoves

namespace VisionOs.Acquisition

open Core Lib

namespace SourceActor

/-- The actor once its loop went on and every port of `_connect` worked. -/
def reconnected (setup : SourceActorSetup) (s : SourceActor) (now opened : Instant)
    (monotonicNs : Int) : SourceActor :=
  step setup (step setup s { now, input := .wakes }) { now := opened, monotonicNs, input := .opens {} }

/-- What a moment of a run is to do: the loop ends for a cause only, it has ended in a final
    state once no `stop` is under way, and outside a session it connects again, under an epoch
    newer than every epoch before. -/
structure Accounted (setup : SourceActorSetup) (s : SourceActor) (h : Happening) : Prop where
  ends : s.phase.over = false → (step setup s h).phase.over = true → MayEnd setup s h.input
  ended : (step setup s h).phase.over = true → (step setup s h).stopCalls = 0 →
    Final setup (step setup s h)
  again : (step setup s h).phase.over = false → (step setup s h).phase.inSession = false →
    (step setup s h).stop = false → ∀ now opened monotonicNs,
      (reconnected setup (step setup s h) now opened monotonicNs).phase = .streaming ∧
      ∀ epoch ∈ (step setup s h).epochs,
        epoch < (reconnected setup (step setup s h) now opened monotonicNs).epoch

variable {setup : SourceActorSetup} {s s' : SourceActor}

/-! ## Runs -/

/-- What holds all along a run in which nothing ends the loop without a cause. -/
structure Sound (setup : SourceActorSetup) (s : SourceActor) : Prop where
  alive : ∀ exc, s.phase ≠ .raised exc
  asked : 0 < s.stopCalls → s.stop = true
  awaited : s.phase.over = false → s.stop = true → 0 < s.stopCalls
  final : s.phase = .returned → s.stopCalls = 0 → Final setup s
  issued : ∀ epoch ∈ s.epochs, epoch ≤ s.lastEpoch

theorem sound_start (setup : SourceActorSetup) (lastEpoch : Int) (health : Kernel.HealthMonitor) :
    Sound setup (start setup lastEpoch health) where
  alive _ := nofun
  asked h := absurd h (Nat.lt_irrefl 0)
  awaited _ := nofun
  final := nofun
  issued _ h := nomatch h

theorem Kept.issued (h : Kept s s') (hissued : ∀ epoch ∈ s.epochs, epoch ≤ s.lastEpoch) :
    ∀ epoch ∈ s'.epochs, epoch ≤ s'.lastEpoch := by
  intro epoch hepoch
  rw [h.epochs] at hepoch
  exact (hissued epoch hepoch).trans h.lastEpoch

theorem Sound.goesOn (hs : Sound setup s) (hkept : Kept s s') (hbefore : s.phase.over = false)
    (hafter : s'.phase.over = false) : Sound setup s' := by
  constructor
  · intro exc hphase
    rw [hphase] at hafter
    cases hafter
  · rw [hkept.stop, hkept.stopCalls]
    exact hs.asked
  · rw [hkept.stop, hkept.stopCalls]
    exact fun _ => hs.awaited hbefore
  · intro hphase
    rw [hphase] at hafter
    cases hafter
  · exact hkept.issued hs.issued

variable {h : Happening}

theorem Sound.move (hs : Sound setup s) (hmove : Moves setup s h s')
    (hcause : ¬ GivesUp s h) : Sound setup s' := by
  cases hmove with
  | stays hsame =>
    rw [hsame]
    exact hs
  | goesOn hkept hbefore hafter =>
    exact hs.goesOn hkept (over_of_inSession hbefore) (over_of_inSession hafter)
  | rests hkept hbefore hafter =>
    refine hs.goesOn hkept hbefore ?_
    rw [hafter]
    rfl
  | opens hkept hbefore hafter =>
    refine hs.goesOn hkept ?_ ?_
    · rw [hbefore]
      rfl
    · rw [hafter]
      rfl
  | connects hconnected hbefore hafter =>
    have hover : s.phase.over = false := by
      rw [hbefore]
      rfl
    constructor
    · intro exc hphase
      rw [hafter] at hphase
      cases hphase
    · rw [hconnected.stop, hconnected.stopCalls]
      exact hs.asked
    · rw [hconnected.stop, hconnected.stopCalls]
      exact fun _ => hs.awaited hover
    · intro hphase
      rw [hafter] at hphase
      cases hphase
    · intro epoch hepoch
      rw [hconnected.epochs] at hepoch
      rw [hconnected.lastEpoch]
      rcases List.mem_append.mp hepoch with hold | hnew
      · have hle := hs.issued epoch hold
        omega
      · rw [List.mem_singleton.mp hnew]
  | returns hkept hbefore hafter hends hdone =>
    constructor
    · intro exc hphase
      rw [hafter] at hphase
      cases hphase
    · rw [hkept.stop, hkept.stopCalls]
      exact hs.asked
    · intro hover
      rw [hafter] at hover
      cases hover
    · intro _ hcalls
      rcases hdone with hstop | hdone
      · -- a requested stop has not returned yet
        have hpending := hs.awaited hbefore hstop
        have hnone := hkept.stopCalls.symm.trans hcalls
        omega
      · exact hdone
    · exact hkept.issued hs.issued
  | raises hkept exc hafter hcause' => exact absurd hcause' hcause
  | stopAsked hphase hstop hcalls hlast hepochs =>
    constructor
    · intro exc
      rw [hphase]
      exact hs.alive exc
    · exact fun _ => hstop
    · intro _ _
      omega
    · intro _ hnone
      omega
    · rw [hepochs, hlast]
      exact hs.issued
  | stopReturned hpending hstop hlast hepochs hafter =>
    rcases hafter with ⟨exc, hraised⟩ | ⟨hreturned, hdone⟩
    · exact absurd hraised (hs.alive exc)
    constructor
    · intro exc hphase
      rw [hreturned] at hphase
      cases hphase
    · intro _
      rw [hstop]
      exact hs.asked hpending
    · intro hover
      rw [hreturned] at hover
      cases hover
    · exact fun _ _ => hdone
    · rw [hepochs, hlast]
      exact hs.issued

theorem opens_works (hphase : s.phase = .opening) (opened : Instant) (monotonicNs : Int) :
    (step setup s { now := opened, monotonicNs, input := .opens {} }).phase = .streaming ∧
      (step setup s { now := opened, monotonicNs, input := .opens {} }).epoch =
        s.lastEpoch + 1 := by
  unfold step opens
  dsimp only
  rw [if_pos hphase]
  rcases Effect.wp_cases (connect setup opened {}) s (connect_spec {}) with
    ⟨_, t, hcall, hconnected, -⟩ | ⟨exc, t, -, -, -, hraised⟩
  · rw [hcall]
    exact ⟨rfl, hconnected.epoch⟩
  · cases hraised

theorem reconnected_spec (hover : s.phase.over = false) (hsession : s.phase.inSession = false)
    (hstop : s.stop = false) (now opened : Instant) (monotonicNs : Int) :
    (reconnected setup s now opened monotonicNs).phase = .streaming ∧
      (reconnected setup s now opened monotonicNs).epoch = s.lastEpoch + 1 := by
  have hopening : (step setup s { now, input := .wakes }).phase = .opening ∧
      (step setup s { now, input := .wakes }).lastEpoch = s.lastEpoch := by
    unfold step wake
    cases hphase : s.phase with
    | resting =>
      rw [if_pos rfl, if_neg (by simp [hstop])]
      exact ⟨rfl, rfl⟩
    | opening =>
      rw [if_neg (by simp)]
      exact ⟨hphase, rfl⟩
    | streaming | acquiring | delivering =>
      rw [hphase] at hsession
      cases hsession
    | returned | raised =>
      rw [hphase] at hover
      cases hover
  obtain ⟨hstreaming, hepoch⟩ :=
    @opens_works setup (step setup s { now, input := .wakes }) hopening.1 opened monotonicNs
  exact ⟨hstreaming, hepoch.trans (by rw [hopening.2])⟩

theorem Sound.accounted (hs : Sound setup s) (hcause : ¬ GivesUp s h) :
    Accounted setup s h := by
  have hmove := step_moves setup s h
  have hafter : Sound setup (step setup s h) := hs.move hmove hcause
  refine ⟨fun hbefore hover => ?_, fun hover hcalls => ?_, fun hover hsession hstop => ?_⟩
  · cases hmove with
    | stays hsame =>
      rw [hsame, hbefore] at hover
      cases hover
    | goesOn _ _ hphase =>
      rw [over_of_inSession hphase] at hover
      cases hover
    | rests _ _ hphase | opens _ _ hphase | connects _ _ hphase =>
      rw [hphase] at hover
      cases hover
    | returns _ _ _ hends => exact hends.resolve_right hcause
    | raises _ _ _ hends => exact absurd hends hcause
    | stopAsked hphase =>
      rw [hphase, hbefore] at hover
      cases hover
    | stopReturned hpending => exact .inl (hs.asked hpending)
  · cases hphase : (step setup s h).phase with
    | returned => exact hafter.final hphase hcalls
    | raised exc => exact absurd hphase (hafter.alive exc)
    | resting | opening | streaming | acquiring | delivering =>
      rw [hphase] at hover
      cases hover
  · intro now opened monotonicNs
    obtain ⟨hstreaming, hepoch⟩ :=
      @reconnected_spec setup _ hover hsession hstop now opened monotonicNs
    refine ⟨hstreaming, fun epoch hannounced => ?_⟩
    have hissued := hafter.issued epoch hannounced
    omega

/-- A run whose every moment has a cause is accounted for at every moment: the loop ends for a
    cause, in a final state, and connects again under a new epoch everywhere else. -/
theorem accounted_of_causes (setup : SourceActorSetup) (lastEpoch : Int)
    (health : Kernel.HealthMonitor) {run : List Happening}
    (h : Runs.Always (step setup) (fun s h => ¬ GivesUp s h) (start setup lastEpoch health) run) :
    Runs.Always (step setup) (Accounted setup) (start setup lastEpoch health) run := by
  have hkeep : ∀ s i, Sound setup s → ¬ GivesUp s i → Sound setup (step setup s i) :=
    fun s i hs hcause => hs.move (step_moves setup s i) hcause
  have haccounted : ∀ s i, Sound setup s → ¬ GivesUp s i → Accounted setup s i :=
    fun _ _ hs hcause => hs.accounted hcause
  exact Runs.always_mono_of_kept hkeep haccounted (sound_start setup lastEpoch health) h

theorem not_accounted_of_givesUp (hstop : s.stop = false) (hcause : GivesUp s h) :
    ¬ Accounted setup s h := by
  intro haccounted
  rcases hcause with ⟨hphase, ports, exc, hinput, hraised, hexpected⟩ |
    ⟨hphase, hinput, hclosed, -⟩
  · have hover : (step setup s h).phase.over = true := by
      unfold step opens
      rw [hinput]
      dsimp only
      rw [if_pos hphase]
      rcases Effect.wp_cases (connect setup h.now ports) s (connect_spec ports) with
        ⟨_, t, -, -, hnone⟩ | ⟨exc', t, hcall, -, -, hsame⟩
      · cases hraised.symm.trans hnone
      · obtain rfl := Option.some.inj (hraised.symm.trans hsame)
        rw [hcall]
        -- neither of the two handlers takes it
        cases exc <;> first | rfl | cases hexpected
    have hbefore : s.phase.over = false := by
      rw [hphase]
      rfl
    rcases haccounted.ends hbefore hover with hasked | hmay
    · rw [hstop] at hasked
      cases hasked
    rw [hinput] at hmay
    rcases hmay with ⟨message, hcodec⟩ | ⟨⟨message, hfailed⟩, -⟩
    · rw [hraised] at hcodec
      rw [Option.some.inj hcodec] at hexpected
      cases hexpected
    · rw [hraised] at hfailed
      rw [Option.some.inj hfailed] at hexpected
      cases hexpected
  · have hover : (step setup s h).phase.over = true := by
      unfold step
      rw [hinput]
      dsimp only
      rw [if_pos ⟨hphase, fun _ => hclosed⟩]
      rfl
    have hbefore : s.phase.over = false := by
      rw [hphase]
      rfl
    rcases haccounted.ends hbefore hover with hasked | hmay
    · rw [hstop] at hasked
      cases hasked
    · rw [hinput] at hmay
      cases hmay

theorem not_givesUp_of_input
    (hports : ∀ ports, h.input = .opens ports → ports.raised = none)
    (hclosed : h.input ≠ .ends .closed) : ¬ GivesUp s h := by
  rintro (⟨-, ports, exc, hinput, hraised, -⟩ | ⟨-, hinput, -⟩)
  · rw [hports ports hinput] at hraised
    cases hraised
  · exact hclosed hinput

end SourceActor

structure InMemoryRawSource (RawFrameSpec : Type) where
  frames : List RawFrameSpec
  loop : Bool := false
  failAfter : Nat := 0

structure PacketStream where
  next : Nat := 0
  emitted : Nat := 0

inductive Resumed (RawFrameSpec : Type) where
  | yields (spec : RawFrameSpec) (stream : PacketStream)
  | ends (cause : EndCause)
  | breaks (exc : PyException)
  /-- An empty sequence played in a loop yields nothing and never ends. -/
  | spins

def Resumed.input {RawFrameSpec : Type} : Resumed RawFrameSpec → Option ActorInput
  | .yields _ _ => some .packet
  | .ends cause => some (.ends cause)
  | .breaks exc => some (.breaks exc)
  | .spins => none

namespace InMemoryRawSource

variable {RawFrameSpec : Type}

def turn (source : InMemoryRawSource RawFrameSpec) (stream : PacketStream) (spec : RawFrameSpec)
    (openBefore openAfter : Bool) : Resumed RawFrameSpec :=
  if !openBefore then .ends .closed
  else if source.failAfter ≠ 0 ∧ source.failAfter ≤ stream.emitted then
    .breaks (.streamLostError s!"synthetic mid-stream loss after {stream.emitted} packets")
  else if !openAfter then .ends .closed
  else .yields spec ⟨stream.next + 1, stream.emitted + 1⟩

/-- `packets`, from one packet to the next. -/
def packets (source : InMemoryRawSource RawFrameSpec) (stream : PacketStream)
    (openBefore openAfter : Bool) : Resumed RawFrameSpec :=
  match source.frames[stream.next]? with
  | some spec => source.turn stream spec openBefore openAfter
  | none =>
    if source.loop then
      match source.frames[0]? with
      | some spec => source.turn { stream with next := 0 } spec openBefore openAfter
      | none => .spins
    else .ends .exhausted

end InMemoryRawSource

namespace SourceActor

variable {setup : SourceActorSetup} {s : SourceActor}

def dockSetup : SourceActorSetup where
  cameraId := "dock"
  sourceSemantics := .archival
  config := { accepted := rfl }

def dockSource : InMemoryRawSource String := { frames := ["quay", "crane"] }

/-- The source opens and stays silent past the threshold of the watchdog. -/
def stalledRun : List Happening :=
  [{ input := .wakes }, { input := .opens {} },
    { monotonicNs := 10000000001, input := .watchdog true }, { input := .ends .closed }]

/-- A stall over the in-memory source ends the loop: the actor is stopped, and nobody asked. -/
theorem stalled_source_not_redialled :
    (dockSource.packets {} (Runs.run (step dockSetup) (start dockSetup (-1) {})
      (stalledRun.take 3)).handleOpen true).input = some (.ends .closed) ∧
    ¬ Runs.Always (step dockSetup) (Accounted dockSetup) (start dockSetup (-1) {}) stalledRun := by
  have hclosed : (Runs.run (step dockSetup) (start dockSetup (-1) {})
      (stalledRun.take 3)).handleOpen = false := by decide +kernel
  refine ⟨?_, fun h => ?_⟩
  · rw [hclosed]
    rfl
  · obtain ⟨-, -, -, hlast, -⟩ := h
    exact not_accounted_of_givesUp (by decide +kernel)
      (.inr ⟨by decide +kernel, rfl, hclosed, by decide +kernel⟩) hlast

/-- A stream that is lost is connected again, and one that runs out is not. -/
theorem lost_source_redialled :
    Runs.Always (step dockSetup) (Accounted dockSetup) (start dockSetup (-1) {})
      [{ input := .wakes }, { input := .opens {} }, { input := .packet },
        { input := .acquires {} }, { input := .delivers (.ok ()) },
        { input := .breaks (.streamLostError "cut") }, { input := .wakes },
        { input := .opens {} }, { input := .ends .exhausted }] := by
  have hopens : ∀ s, ¬ GivesUp s { input := .opens {} } := by
    refine fun s => not_givesUp_of_input (fun ports hports => ?_) (by simp)
    rw [← ActorInput.opens.inj hports]
    rfl
  refine accounted_of_causes dockSetup (-1) {} ?_
  refine Runs.always_of_forall fun s h hmem => ?_
  simp only [List.mem_cons, List.not_mem_nil, or_false] at hmem
  rcases hmem with rfl | rfl | rfl | rfl | rfl | rfl | rfl | rfl | rfl
  -- of the nine moments, two connect, and no port raises there
  · exact not_givesUp_of_input (by simp) (by simp)
  · exact hopens s
  · exact not_givesUp_of_input (by simp) (by simp)
  · exact not_givesUp_of_input (by simp) (by simp)
  · exact not_givesUp_of_input (by simp) (by simp)
  · exact not_givesUp_of_input (by simp) (by simp)
  · exact not_givesUp_of_input (by simp) (by simp)
  · exact hopens s
  · exact not_givesUp_of_input (by simp) (by simp)

end SourceActor

end VisionOs.Acquisition
