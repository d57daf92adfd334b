/-
  The circuit breakers of the understanding engine, with any number of calls under way.  A cap
  that is reached and a crop without pixels are recorded as failures of a model whose adapter was
  not reached.
-/
import VisionOs.Understanding.Engine
import VisionOs.Lib.Runs

namespace VisionOs.Understanding

open Lib

structure CircuitBreaker where
  consecutiveFailures : Nat := 0
  openedAt : Option Int := none
  trips : Nat := 0
  deriving DecidableEq

structure BreakerSettings where
  threshold : Nat := 3
  cooldown : Int := 30000000000
  threshold_pos : 1 ≤ threshold
  cooldown_pos : 0 < cooldown

namespace CircuitBreaker

def recordSuccess (b : CircuitBreaker) : CircuitBreaker :=
  { b with consecutiveFailures := 0, openedAt := none }

def recordFailure (settings : BreakerSettings) (now : Int) (b : CircuitBreaker) : CircuitBreaker :=
  let b := { b with consecutiveFailures := b.consecutiveFailures + 1 }
  if settings.threshold ≤ b.consecutiveFailures ∧ b.openedAt = none then
    { b with openedAt := some now, trips := b.trips + 1 }
  else b

def isOpen (settings : BreakerSettings) (now : Int) (b : CircuitBreaker) : Bool × CircuitBreaker :=
  match b.openedAt with
  | none => (false, b)
  | some opened =>
    if settings.cooldown ≤ now - opened then
      (false, { b with openedAt := none, consecutiveFailures := 0 })
    else (true, b)

end CircuitBreaker

/-- How the adapter ends an invocation. -/
inductive InvocationEnd where
  | answered | timedOut | failed
  deriving DecidableEq

/-- Where a call of `understand` is in its chain; `left` counts the attempts at this link. -/
inductive ChainCall where
  | asking (chain : List BoundUnderstander)
  | invoking (bound : BoundUnderstander) (left : Nat) (rest : List BoundUnderstander)
  | inFlight (bound : BoundUnderstander) (left : Nat) (rest : List BoundUnderstander)
  | returned
  deriving DecidableEq

structure ChainSettings extends BreakerSettings where
  maxRetries : Nat := 1
  /-- The cap of an adapter. -/
  limit : String → Nat

structure EngineState where
  breakers : String → CircuitBreaker := fun _ => {}
  calls : List ChainCall := []
  /-- For the proofs: what reached a model's adapter, the latest first, `true` where it failed. -/
  reached : String → List Bool := fun _ => []

inductive EngineTurn where
  | call (chain : List BoundUnderstander)
  /-- The next step of a call: the clock it reads, whether its crops have pixels, and how an
      invocation that is in flight ends. -/
  | step (i : Nat) (now : Int) (readable : Bool) (ends : InvocationEnd)

namespace EngineState

variable (settings : ChainSettings)

def inFlight (s : EngineState) (adapterId : String) : Nat :=
  s.calls.countP fun
    | .inFlight bound _ _ => bound.adapterId = adapterId
    | _ => false

def record (s : EngineState) (modelId : String) (b : CircuitBreaker) : EngineState :=
  { s with breakers := Function.update s.breakers modelId b }

def failure (s : EngineState) (modelId : String) (now : Int) : EngineState :=
  s.record modelId ((s.breakers modelId).recordFailure settings.toBreakerSettings now)

def reach (s : EngineState) (modelId : String) (failed : Bool) : EngineState :=
  { s with reached := Function.update s.reached modelId (failed :: s.reached modelId) }

/-- `_invoke_chain` and `_invoke`, up to the next use of a breaker. -/
def move (s : EngineState) (now : Int) (readable : Bool) (ends : InvocationEnd) :
    ChainCall → EngineState × ChainCall
  | .returned | .asking [] => (s, .returned)
  | .asking (bound :: rest) =>
    let (isOpen, b) := (s.breakers bound.modelId).isOpen settings.toBreakerSettings now
    (s.record bound.modelId b,
      if isOpen then .asking rest else .invoking bound (1 + settings.maxRetries) rest)
  | .invoking bound left rest =>
    if settings.limit bound.adapterId ≤ s.inFlight bound.adapterId ∨ readable = false then
      (s.failure settings bound.modelId now, .asking rest)
    else (s, .inFlight bound left rest)
  | .inFlight bound left rest =>
    match ends with
    | .answered =>
      (((s.reach bound.modelId false).record bound.modelId
        (s.breakers bound.modelId).recordSuccess), .returned)
    | .timedOut =>
      ((s.reach bound.modelId true).failure settings bound.modelId now,
        if left ≤ 1 then .asking rest else .invoking bound (left - 1) rest)
    | .failed => ((s.reach bound.modelId true).failure settings bound.modelId now, .asking rest)

def turn (s : EngineState) : EngineTurn → EngineState
  | .call chain => { s with calls := s.calls ++ [.asking chain] }
  | .step i now readable ends =>
    match s.calls[i]? with
    | none => s
    | some c =>
      let (s', c') := s.move settings now readable ends c
      { s' with calls := s'.calls.set i c' }

/-- An open breaker tells of the model's own failures, and not for longer than the cooldown. -/
def OwnFailures (s : EngineState) : Prop :=
  ∀ modelId now, ((s.breakers modelId).isOpen settings.toBreakerSettings now).1 = true →
    settings.threshold ≤ ((s.reached modelId).takeWhile id).length ∧
      ∃ opened, (s.breakers modelId).openedAt = some opened ∧ now - opened < settings.cooldown

/-- A call that comes to invoke an adapter finds a slot, and its crops have pixels. -/
def Unhindered (s : EngineState) : EngineTurn → Prop
  | .step i _ readable _ => ∀ bound left rest, s.calls[i]? = some (.invoking bound left rest) →
      readable = true ∧ s.inFlight bound.adapterId < settings.limit bound.adapterId
  | .call _ => True

/-- What the breaker counts, the adapter has failed. -/
structure Grounded (settings : BreakerSettings) (b : CircuitBreaker) (reached : List Bool) : Prop where
  counted : b.consecutiveFailures ≤ (reached.takeWhile id).length
  opened : b.openedAt ≠ none → settings.threshold ≤ (reached.takeWhile id).length

variable {settings : ChainSettings} {s : EngineState} {b : CircuitBreaker} {reached : List Bool}
  {now : Int} {modelId : String}

theorem Grounded.recordFailure {settings : BreakerSettings} (h : Grounded settings b reached) :
    Grounded settings (b.recordFailure settings now) (true :: reached) := by
  have hlength : ((true :: reached).takeWhile id).length = (reached.takeWhile id).length + 1 := rfl
  have hcounted := h.counted
  unfold CircuitBreaker.recordFailure
  simp only
  split
  · exact ⟨by simp only [hlength]; omega, fun _ => by rw [hlength]; omega⟩
  · refine ⟨by simp only [hlength]; omega, fun hopen => ?_⟩
    have hopened := h.opened hopen
    omega

theorem Grounded.isOpen {settings : BreakerSettings} (h : Grounded settings b reached) :
    Grounded settings (b.isOpen settings now).2 reached := by
  unfold CircuitBreaker.isOpen
  split
  · exact h
  · split
    · exact ⟨Nat.zero_le _, fun hopen => absurd rfl hopen⟩
    · exact h

def Inv (settings : ChainSettings) (s : EngineState) : Prop :=
  ∀ modelId, Grounded settings.toBreakerSettings (s.breakers modelId) (s.reached modelId)

theorem Inv.record (h : Inv settings s)
    (hb : Grounded settings.toBreakerSettings b (s.reached modelId)) :
    Inv settings (s.record modelId b) := by
  intro other
  by_cases hother : other = modelId
  · subst hother
    simpa [EngineState.record] using hb
  · simpa [EngineState.record, hother] using h other

theorem Inv.reach (h : Inv settings s) {failed : Bool}
    (hb : Grounded settings.toBreakerSettings b (failed :: s.reached modelId)) :
    Inv settings ((s.reach modelId failed).record modelId b) := by
  intro other
  by_cases hother : other = modelId
  · subst hother
    simpa [EngineState.record, EngineState.reach] using hb
  · simpa [EngineState.record, EngineState.reach, hother] using h other

theorem Inv.move (h : Inv settings s) {readable : Bool} {ends : InvocationEnd} (c : ChainCall)
    (hfree : ∀ bound left rest, c = .invoking bound left rest →
      readable = true ∧ s.inFlight bound.adapterId < settings.limit bound.adapterId) :
    Inv settings (s.move settings now readable ends c).1 := by
  cases c with
  | returned => exact h
  | asking chain =>
    cases chain with
    | nil => exact h
    | cons bound rest => exact h.record (h bound.modelId).isOpen
  | invoking bound left rest =>
    obtain ⟨hreadable, hslot⟩ := hfree bound left rest rfl
    unfold EngineState.move
    simp only
    rw [if_neg (by simp [hreadable, hslot])]
    exact h
  | inFlight bound left rest =>
    cases ends with
    | answered => exact h.reach ⟨Nat.zero_le _, fun hopen => absurd rfl hopen⟩
    | timedOut => exact h.reach (h bound.modelId).recordFailure
    | failed => exact h.reach (h bound.modelId).recordFailure

theorem Inv.turn (h : Inv settings s) (event : EngineTurn) (hclear : s.Unhindered settings event) :
    Inv settings (s.turn settings event) := by
  cases event with
  | call chain => exact h
  | step i now readable ends =>
    unfold EngineState.turn
    simp only
    cases hcall : s.calls[i]? with
    | none => exact h
    | some c =>
      exact h.move c fun bound left rest hc => hclear bound left rest (hcall.trans (hc ▸ rfl))

theorem Inv.ownFailures (h : Inv settings s) : s.OwnFailures settings := by
  intro modelId now hopen
  unfold CircuitBreaker.isOpen at hopen
  cases hopened : (s.breakers modelId).openedAt with
  | none => simp [hopened] at hopen
  | some opened =>
    refine ⟨(h modelId).opened (by simp [hopened]), opened, rfl, not_le.mp fun hlate => ?_⟩
    simp [hopened, hlate] at hopen

/-- Where no invocation is hindered, a circuit opens on the model's own failures only. -/
theorem ownFailures_of_unhindered (settings : ChainSettings) (turns : List EngineTurn)
    (h : Runs.Always (turn settings) (Unhindered settings) {} turns) :
    (Runs.run (turn settings) {} turns).OwnFailures settings := by
  have hkeep : ∀ s event, Inv settings s → Unhindered settings s event →
      Inv settings (turn settings s event) := fun _ event hinv => hinv.turn event
  have hstart : Inv settings {} := fun _ => ⟨le_rfl, fun hopen => absurd rfl hopen⟩
  exact (Runs.reached_of_always hkeep hstart h (List.prefix_refl turns)).ownFailures

def oneSlot : ChainSettings where
  threshold_pos := by decide
  cooldown_pos := by decide
  limit _ := 1

def head : BoundUnderstander := ⟨"head", "posture"⟩

/-- A request whose crops have pixels, and which the adapter fails. -/
def crashed (i : Nat) : List EngineTurn :=
  [.call [head], .step i 0 true .failed, .step i 0 true .failed, .step i 0 true .failed]

/-- Three of them open the circuit. -/
theorem ownFailures_failed :
    (Runs.run (turn oneSlot) {} (crashed 0 ++ crashed 1 ++ crashed 2)).OwnFailures oneSlot ∧
      (((Runs.run (turn oneSlot) {} (crashed 0 ++ crashed 1 ++ crashed 2)).breakers
        "posture").isOpen oneSlot.toBreakerSettings 0).1 = true := by
  refine ⟨ownFailures_of_unhindered _ _ ⟨trivial, ?_, ?_, ?_, trivial, ?_, ?_, ?_, trivial, ?_, ?_,
    ?_, trivial⟩, by decide +kernel⟩ <;>
    intro bound left rest hcall <;> cases hcall
  all_goals exact ⟨rfl, by decide +kernel⟩

/-- A request whose crops have no pixels. -/
def evicted (i : Nat) : List EngineTurn :=
  [.call [head], .step i 0 false .failed, .step i 0 false .failed]

theorem evicted_crops_open_circuit : ¬ ∀ settings turns,
    (Runs.run (turn settings) {} turns).OwnFailures settings := by
  intro h
  have hown := (h oneSlot (evicted 0 ++ evicted 1 ++ evicted 2) "posture" 0 (by decide +kernel)).1
  revert hown
  decide +kernel

end EngineState

end VisionOs.Understanding
