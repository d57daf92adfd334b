/-
  What one moment can do to an actor's run loop: the causes for which it ends, and
  the moments that end it without one.  The packet path moves it nowhere.
-/
import VisionOs.Acquisition.Actor

namespace VisionOs.Acquisition

open Core Lib Effect Kernel.HealthMonitor

def expectedOfConnect : PyException → Bool
  | .unsupportedCodecError _ | .connectFailedError _ => true
  | _ => false

def ConnectPorts.raised (ports : ConnectPorts) : Option PyException :=
  match ports.opened, ports.epochs, ports.decoderReset, ports.clockSyncReset with
  | .error exc, _, _, _ => some exc
  | .ok _, .readRaises exc, _, _ | .ok _, .recordRaises exc _, _, _ => some exc
  | .ok _, .works, .error exc, _ => some exc
  | .ok _, .works, .ok _, .error exc => some exc
  | .ok _, .works, .ok _, .ok _ => none

namespace SourceActor

def epochs (s : SourceActor) : List Int :=
  s.bus.filterMap fun
    | .epochAdvanced epoch => some epoch
    | _ => none

/-- The actor is at rest in an end state, and its camera counts as blind. -/
structure Final (setup : SourceActorSetup) (s : SourceActor) : Prop where
  state : s.state = .stopped ∨ s.state = .failed
  blind : s.health.observing setup.cameraId = false

/-- What may end the run loop: a stop that was asked for, a stream that ran out, or a camera that
    cannot be opened. -/
def MayEnd (setup : SourceActorSetup) (s : SourceActor) (input : ActorInput) : Prop :=
  s.stop = true ∨ match input with
    | .ends cause => cause = .exhausted
    | .opens ports => (∃ message, ports.raised = some (.unsupportedCodecError message)) ∨
        ((∃ message, ports.raised = some (.connectFailedError message)) ∧
          setup.config.maxConnectAttempts ≠ 0 ∧
          setup.config.maxConnectAttempts ≤ s.connectAttempts + 1)
    | _ => False

/-- The moments that end a loop without a cause: `_connect` raises what the loop does not
    expect, or the stream ends on its closed handle without a `stop`. -/
def GivesUp (s : SourceActor) (h : Happening) : Prop :=
  (s.phase = .opening ∧ ∃ ports exc, h.input = .opens ports ∧ ports.raised = some exc ∧
    expectedOfConnect exc = false) ∨
  (s.phase = .streaming ∧ h.input = .ends .closed ∧ s.handleOpen = false ∧ s.stop = false)

/-- The flags of a run that only `stop` writes, and epochs that only go up. -/
structure Kept (s s' : SourceActor) : Prop where
  stop : s'.stop = s.stop
  stopCalls : s'.stopCalls = s.stopCalls
  lastEpoch : s.lastEpoch ≤ s'.lastEpoch
  epochs : s'.epochs = s.epochs

theorem Kept.refl (s : SourceActor) : Kept s s := ⟨rfl, rfl, le_refl _, rfl⟩

theorem Kept.trans {s s' s'' : SourceActor} (h : Kept s s') (h' : Kept s' s'') : Kept s s'' :=
  ⟨h'.stop.trans h.stop, h'.stopCalls.trans h.stopCalls, h.lastEpoch.trans h'.lastEpoch,
    h'.epochs.trans h.epochs⟩

variable {setup : SourceActorSetup} {now : Instant} {s s' : SourceActor}

theorem epochs_publish {event : ActorEvent} (h : ∀ epoch, event ≠ .epochAdvanced epoch) :
    (publish event s).epochs = s.epochs := by
  unfold epochs publish
  rw [List.filterMap_append]
  cases event with
  | epochAdvanced epoch => exact absurd rfl (h epoch)
  | _ => simp

theorem epochs_publish_epochAdvanced (epoch : Int) :
    (publish (.epochAdvanced epoch) s).epochs = s.epochs ++ [epoch] := by
  unfold epochs publish
  rw [List.filterMap_append]
  rfl

theorem kept_onDecodeError (reason : Message) : Kept s (onDecodeError setup now reason s) := by
  have hpublished : Kept s (publish (.decodeFailed reason) { s with stats := { s.stats with
      decodeErrors := s.stats.decodeErrors + 1
      consecutiveDecodeErrors := s.stats.consecutiveDecodeErrors + 1 } }) :=
    ⟨rfl, rfl, le_refl _, epochs_publish (by simp)⟩
  unfold onDecodeError
  dsimp only
  split
  · exact ⟨rfl, rfl, le_refl _, hpublished.epochs⟩
  · exact hpublished

theorem phase_onDecodeError (reason : Message) :
    (onDecodeError setup now reason s).phase = s.phase := by
  unfold onDecodeError
  dsimp only
  split <;> rfl

theorem kept_onMaskFailure (reason : Message) : Kept s (onMaskFailure setup now reason s) :=
  ⟨rfl, rfl, le_refl _, epochs_publish (by simp)⟩

theorem kept_publishLost (reason : Message) : Kept s (publishLost setup now reason s) :=
  ⟨rfl, rfl, le_refl _, epochs_publish (by simp)⟩

theorem kept_failPersistent (reason : Message) : Kept s (failPersistent setup now reason s) :=
  ⟨rfl, rfl, le_refl _, epochs_publish (by simp)⟩

theorem kept_noteClockQuality (quality : ClockQuality) : Kept s (noteClockQuality quality s) := by
  unfold noteClockQuality
  split
  · exact .refl s
  · exact ⟨rfl, rfl, le_refl _, epochs_publish (by simp)⟩

/-! ## The packet path and `_connect` -/

/-- What the packet path does to a run: it moves the loop nowhere. -/
structure Inside (s s' : SourceActor) : Prop extends Kept s s' where
  phase : s'.phase = s.phase

theorem Inside.refl (s : SourceActor) : Inside s s := ⟨.refl s, rfl⟩

theorem Inside.trans {s'' : SourceActor} (h : Inside s s') (h' : Inside s' s'') : Inside s s'' :=
  ⟨h.toKept.trans h'.toKept, h'.phase.trans h.phase⟩

theorem discardSlot_spec (ports : PacketPorts) :
    (discardSlot ports).wp (fun _ s' => Inside s s') (fun _ s' => Inside s s') s := by
  unfold discardSlot
  rw [wp_bind, wp_modify, wp_ofExcept]
  have hcall : Inside s (calls .discardSlot s) := ⟨⟨rfl, rfl, le_refl _, rfl⟩, rfl⟩
  exact ⟨fun _ _ => hcall, fun _ _ => hcall⟩

theorem acquireSlot_spec (ports : PacketPorts) :
    (acquireSlot setup ports).wp (fun _ s' => Inside s s') (fun _ s' => Inside s s') s := by
  unfold acquireSlot
  rw [wp_bind, wp_read]
  split
  · exact .refl s
  split
  · exact ⟨⟨rfl, rfl, le_refl _, rfl⟩, rfl⟩
  · rw [wp_bind, wp_modify]
    have hdrop : Inside s (recordDrop "pool_pressure" s) := ⟨⟨rfl, rfl, le_refl _, rfl⟩, rfl⟩
    split
    · exact hdrop
    · rw [wp_bind, wp_ofExcept]
      exact ⟨fun _ _ => hdrop, fun _ _ => hdrop⟩
  · exact .refl s

theorem publishFrame_spec (ports : PacketPorts) (privacyState : PrivacyState) :
    (publishFrame setup now ports privacyState).wp (fun _ s' => Inside s s')
      (fun _ s' => Inside s s') s := by
  unfold publishFrame
  rw [wp_bind, wp_ofExcept]
  refine ⟨fun estimate _ => ?_, fun _ _ => .refl s⟩
  have hnoted : Inside s (noteClockQuality estimate.quality s) := by
    refine ⟨kept_noteClockQuality _, ?_⟩
    unfold noteClockQuality
    split <;> rfl
  rw [wp_bind, wp_modify, wp_bind, wp_read, wp_bind,
    wp_ofExcept]
  refine ⟨fun frameRef _ => ?_, fun _ _ => hnoted⟩
  generalize noteClockQuality estimate.quality s = t at hnoted ⊢
  have hcounted : Inside s { t with seq := t.seq + 1 } :=
    hnoted.trans ⟨⟨rfl, rfl, le_refl _, rfl⟩, rfl⟩
  rw [wp_bind, wp_modify, wp_bind, wp_ofExcept]
  refine ⟨fun _ _ => ?_, fun _ _ => hcounted⟩
  have hasked : Inside s (calls (.publish frameRef privacyState) { t with seq := t.seq + 1 }) :=
    hcounted.trans ⟨⟨rfl, rfl, le_refl _, rfl⟩, rfl⟩
  rw [wp_bind, wp_modify, wp_bind, wp_ofExcept]
  refine ⟨fun _ _ => ?_, fun _ _ => hasked⟩
  exact hasked.trans ⟨⟨rfl, rfl, le_refl _, rfl⟩, rfl⟩

theorem discard_and_report {report : SourceActor → SourceActor}
    (hreport : ∀ s, Inside s (report s)) (ports : PacketPorts) :
    (do discardSlot ports; Effect.modify report; pure false :
      Effect PyException SourceActor Bool).wp (fun _ s' => Inside s s')
        (fun _ s' => Inside s s') s := by
  rw [wp_bind]
  refine wp_mono (fun _ s' hs' => ?_) (fun _ _ hs' => hs') (discardSlot_spec ports)
  rw [wp_bind, wp_modify]
  exact hs'.trans (hreport s')

theorem decodePacket_spec (ports : PacketPorts) :
    (decodePacket setup now ports).wp (fun _ s' => Inside s s') (fun _ s' => Inside s s') s := by
  have hdecode : ∀ reason s, Inside s (onDecodeError setup now reason s) :=
    fun reason s => ⟨kept_onDecodeError reason, phase_onDecodeError reason⟩
  have hmask : ∀ reason s, Inside s (onMaskFailure setup now reason s) :=
    fun reason s => ⟨kept_onMaskFailure reason, rfl⟩
  unfold decodePacket
  split
  · exact discard_and_report (hdecode _) ports
  -- the packet decoded: masking decides
  rw [wp_bind, wp_modify]
  have hreset : Inside s
      { s with stats := { s.stats with consecutiveDecodeErrors := 0 } } :=
    ⟨⟨rfl, rfl, le_refl _, rfl⟩, rfl⟩
  refine wp_mono (fun _ s' hs' => hreset.trans hs') (fun _ _ hs' => hreset.trans hs') ?_
  split
  · exact discard_and_report (hmask _) ports
  · split
    · rw [wp_bind]
      exact publishFrame_spec ports _
    · exact discard_and_report (hmask _) ports

theorem handlePacket_spec (ports : PacketPorts) :
    (handlePacket setup now ports).wp (fun phase s' => Inside s s' ∧ phase.inSession = true)
      (fun _ s' => Inside s s') s := by
  unfold handlePacket
  rw [wp_bind]
  refine wp_mono (fun turn s' hs' => ?_) (fun _ _ hs' => hs') (acquireSlot_spec ports)
  cases turn with
  | noSlot => exact ⟨hs', rfl⟩
  | waiting => exact ⟨hs', rfl⟩
  | slot =>
    rw [wp_bind]
    refine wp_mono (fun frame s'' hs'' => ?_) (fun _ _ hs'' => hs'.trans hs'')
      (decodePacket_spec ports)
    refine ⟨hs'.trans hs'', ?_⟩
    cases frame <;> rfl

structure Connected (s s' : SourceActor) : Prop where
  stop : s'.stop = s.stop
  stopCalls : s'.stopCalls = s.stopCalls
  epoch : s'.epoch = s.lastEpoch + 1
  lastEpoch : s'.lastEpoch = s.lastEpoch + 1
  epochs : s'.epochs = s.epochs ++ [s.lastEpoch + 1]

theorem connect_spec (ports : ConnectPorts) :
    (connect setup now ports).wp (fun _ s' => Connected s s' ∧ ports.raised = none)
      (fun exc s' => Kept s s' ∧ s'.connectAttempts = s.connectAttempts ∧
        ports.raised = some exc) s := by
  obtain ⟨opened, epochs, decoderReset, clockSyncReset⟩ := ports
  unfold connect
  rw [wp_bind, wp_ofExcept]
  dsimp only
  refine ⟨fun _ hopened => ?_, fun exc hopened => ?_⟩
  swap
  · rw [hopened]
    exact ⟨.refl s, rfl, rfl⟩
  rw [hopened, wp_bind, wp_modify, wp_bind]
  unfold nextEpoch
  rw [wp_bind, wp_read]
  cases epochs with
  | readRaises exc => exact ⟨⟨rfl, rfl, le_refl _, rfl⟩, rfl, rfl⟩
  | recordRaises exc kept =>
    rw [wp_bind, wp_modify, wp_raise]
    cases kept with
    | false => exact ⟨⟨rfl, rfl, le_refl _, rfl⟩, rfl, rfl⟩
    | true =>
      have hup : s.lastEpoch ≤ s.lastEpoch + 1 := by omega
      exact ⟨⟨rfl, rfl, hup, rfl⟩, rfl, rfl⟩
  | works =>
    have hup : s.lastEpoch ≤ s.lastEpoch + 1 := by omega
    rw [wp_bind, wp_modify, wp_pure, wp_bind, wp_modify,
      wp_bind, wp_ofExcept]
    refine ⟨fun _ hdecoder => ?_, fun exc hdecoder => ?_⟩
    · rw [hdecoder, wp_bind, wp_ofExcept]
      refine ⟨fun _ hclock => ?_, fun exc hclock => ?_⟩
      · rw [hclock, wp_modify]
        refine ⟨⟨rfl, rfl, rfl, rfl, ?_⟩, rfl⟩
        -- the announcement of the epoch, and then that of the connection
        exact (epochs_publish (by simp)).trans (epochs_publish_epochAdvanced _)
      · rw [hclock]
        exact ⟨⟨rfl, rfl, hup, rfl⟩, rfl, rfl⟩
    · rw [hdecoder]
      exact ⟨⟨rfl, rfl, hup, rfl⟩, rfl, rfl⟩

/-! ## The run loop -/

theorem over_of_inSession {phase : Phase} (h : phase.inSession = true) : phase.over = false := by
  revert h
  cases phase <;> simp [Phase.inSession, Phase.over]

inductive Moves (setup : SourceActorSetup) (s : SourceActor) (h : Happening) (s' : SourceActor) :
    Prop where
  | stays (same : s' = s)
  | goesOn (kept : Kept s s') (before : s.phase.inSession = true) (after : s'.phase.inSession = true)
  | rests (kept : Kept s s') (before : s.phase.over = false) (after : s'.phase = .resting)
  | opens (kept : Kept s s') (before : s.phase = .resting) (after : s'.phase = .opening)
  | connects (connected : Connected s s') (before : s.phase = .opening)
      (after : s'.phase = .streaming)
  | returns (kept : Kept s s') (before : s.phase.over = false) (after : s'.phase = .returned)
      (cause : MayEnd setup s h.input ∨ GivesUp s h) (final : s.stop = true ∨ Final setup s')
  | raises (kept : Kept s s') (exc : PyException) (after : s'.phase = .raised exc)
      (cause : GivesUp s h)
  | stopAsked (phase : s'.phase = s.phase) (stop : s'.stop = true)
      (stopCalls : s'.stopCalls = s.stopCalls + 1) (lastEpoch : s'.lastEpoch = s.lastEpoch)
      (epochs : s'.epochs = s.epochs)
  | stopReturned (asked : 0 < s.stopCalls) (stop : s'.stop = s.stop)
      (lastEpoch : s'.lastEpoch = s.lastEpoch) (epochs : s'.epochs = s.epochs)
      (after : (∃ exc, s.phase = .raised exc) ∨ s'.phase = .returned ∧ Final setup s')

theorem afterStream_spec (setup : SourceActorSetup) (now : Instant) (result : Raises Bool)
    (s : SourceActor) :
    Kept s (afterStream setup now result s) ∧
      ((afterStream setup now result s).phase = .returned ∧
          Final setup (afterStream setup now result s) ∧ (result = .ok true ∨ s.stop = true) ∨
        (afterStream setup now result s).phase = .resting) := by
  have hkept : Kept s (reportLoss setup now result s) := by
    unfold reportLoss
    split
    · exact .refl s
    · exact kept_publishLost _
    · exact kept_publishLost _
  unfold afterStream
  dsimp only
  split
  · rename_i hends
    refine ⟨⟨hkept.stop, hkept.stopCalls, hkept.lastEpoch, hkept.epochs⟩, .inl ⟨rfl, ?_, ?_⟩⟩
    · exact ⟨.inl rfl, observing_setObservability⟩
    · rcases Bool.or_eq_true_iff.mp hends with hended | hstop
      · left
        cases result with
        | ok ended => exact congrArg _ hended
        | error exc => cases hended
      · exact .inr (hkept.stop.symm.trans hstop)
  · exact ⟨⟨hkept.stop, hkept.stopCalls, hkept.lastEpoch, hkept.epochs⟩, .inr rfl⟩

variable {h : Happening}

theorem moves_afterStream {result : Raises Bool} (hphase : s.phase.inSession = true)
    (hcause : result = .ok true → MayEnd setup s h.input ∨ GivesUp s h) :
    Moves setup s h (afterStream setup h.now result s) := by
  have hover := over_of_inSession hphase
  obtain ⟨hkept, ⟨hreturned, hfinal, hends⟩ | hresting⟩ := afterStream_spec setup h.now result s
  · refine .returns hkept hover hreturned ?_ (.inr hfinal)
    rcases hends with hended | hstop
    · exact hcause hended
    · exact .inl (.inl hstop)
  · exact .rests hkept hover hresting

variable {ports : ConnectPorts}

theorem moves_onConnectFailed {t : SourceActor}
    {message : Message} (hinput : h.input = .opens ports) (hover : s.phase.over = false)
    (hkept : Kept s t) (hattempts : t.connectAttempts = s.connectAttempts)
    (hraised : ports.raised = some (.connectFailedError message)) :
    Moves setup s h (onConnectFailed setup h.now message t) := by
  have hlost : Kept s (publishLost setup h.now
      ([MessagePart.text "connect failed: "] ++ message)
      { t with
        connectAttempts := t.connectAttempts + 1
        stats := { t.stats with connectFailures := t.stats.connectFailures + 1 } }) :=
    hkept.trans ⟨rfl, rfl, le_refl _, epochs_publish (by simp)⟩
  unfold onConnectFailed
  dsimp only
  split
  · rename_i hmax
    have hfailed := hlost.trans (@kept_failPersistent setup h.now _
      s!"giving up after {t.connectAttempts + 1} connect attempts")
    refine .returns ⟨hfailed.stop, hfailed.stopCalls, hfailed.lastEpoch, hfailed.epochs⟩ hover
      rfl (.inl (.inr ?_)) (.inr ⟨.inr rfl, observing_setObservability⟩)
    rw [hinput]
    have hcount : setup.config.maxConnectAttempts ≤ t.connectAttempts + 1 := hmax.2
    have hreached : setup.config.maxConnectAttempts ≤ s.connectAttempts + 1 := by omega
    exact .inr ⟨⟨message, hraised⟩, hmax.1, hreached⟩
  · exact .rests ⟨hlost.stop, hlost.stopCalls, hlost.lastEpoch, hlost.epochs⟩ hover rfl

theorem moves_opens (hinput : h.input = .opens ports)
    (hphase : s.phase = .opening) :
    Moves setup s h (opens setup h.now h.monotonicNs ports s) := by
  have hover : s.phase.over = false := by
    rw [hphase]
    rfl
  unfold opens
  rcases wp_cases (connect setup h.now ports) s (connect_spec ports) with
    ⟨_, t, hcall, ⟨hstop, hcalls, hepoch, hlast, hepochs⟩, -⟩ |
    ⟨exc, t, hcall, hkept, hattempts, hraised⟩
  · rw [hcall]
    exact .connects ⟨hstop, hcalls, hepoch, hlast, hepochs⟩ hphase rfl
  rw [hcall]
  -- the loop returns on one error, counts another, and expects no third
  split
  · rename_i hok
    cases (Prod.mk.inj hok).1
  · rename_i message t' heq
    obtain ⟨hexc, rfl⟩ := Prod.mk.inj heq
    rw [Except.error.inj hexc] at hraised
    have hfailed : Kept s (failPersistent setup h.now
        ([.text "unsupported codec: "] ++ message) t) :=
      hkept.trans (kept_failPersistent _)
    refine .returns ⟨hfailed.stop, hfailed.stopCalls, hfailed.lastEpoch, hfailed.epochs⟩ hover rfl
      (.inl (.inr ?_)) (.inr ⟨.inr rfl, observing_setObservability⟩)
    rw [hinput]
    exact .inl ⟨message, hraised⟩
  · rename_i message t' heq
    obtain ⟨hexc, rfl⟩ := Prod.mk.inj heq
    rw [Except.error.inj hexc] at hraised
    exact moves_onConnectFailed hinput hover hkept hattempts hraised
  · rename_i exc' t' hunsupported hfailed heq
    obtain ⟨hexc, rfl⟩ := Prod.mk.inj heq
    obtain rfl := Except.error.inj hexc
    refine .raises ⟨hkept.stop, hkept.stopCalls, hkept.lastEpoch, hkept.epochs⟩ exc rfl
      (.inl ⟨hphase, ports, exc, hinput, hraised, ?_⟩)
    unfold expectedOfConnect
    split
    · exact (hunsupported _ rfl).elim
    · exact (hfailed _ rfl).elim
    · rfl

theorem moves_acquires (ports : PacketPorts) (hphase : s.phase = .acquiring) :
    Moves setup s h (acquires setup h.now ports s) := by
  have hsession : s.phase.inSession = true := by
    rw [hphase]
    rfl
  unfold acquires
  rcases wp_cases (handlePacket setup h.now ports) s (handlePacket_spec ports) with
    ⟨phase, t, hcall, hinside, hafter⟩ | ⟨exc, t, hcall, hinside⟩
  · rw [hcall]
    exact .goesOn ⟨hinside.stop, hinside.stopCalls, hinside.lastEpoch, hinside.epochs⟩ hsession
      hafter
  rw [hcall]
  -- what the stream raises is reported after what the packet did
  have hover : s.phase.over = false := by
    rw [hphase]
    rfl
  obtain ⟨hkept, hafter⟩ := afterStream_spec setup h.now (.error exc) t
  rcases hafter with ⟨hreturned, hfinal, hends⟩ | hresting
  · refine .returns (hinside.toKept.trans hkept) hover hreturned (.inl (.inl ?_)) (.inr hfinal)
    rcases hends with hended | hstop
    · cases hended
    · exact hinside.stop.symm.trans hstop
  · exact .rests (hinside.toKept.trans hkept) hover hresting

theorem moves_stopReturns (hasked : 0 < s.stopCalls) :
    Moves setup s h (stopReturns setup h.now s) := by
  have hfinal : ∀ t : SourceActor, Final setup (drained setup h.now t) := fun t =>
    ⟨.inl rfl, observing_setObservability⟩
  unfold stopReturns
  dsimp only
  split
  · rename_i exc hphase
    exact .stopReturned hasked rfl rfl rfl (.inl ⟨exc, hphase⟩)
  · rename_i hphase
    exact .stopReturned hasked rfl rfl rfl (.inr ⟨hphase, hfinal _⟩)
  all_goals exact .stopReturned hasked rfl rfl rfl (.inr ⟨rfl, hfinal _⟩)

/-- Whatever happens to an actor is one of the moves. -/
theorem step_moves (setup : SourceActorSetup) (s : SourceActor) (h : Happening) :
    Moves setup s h (step setup s h) := by
  unfold step
  cases hinput : h.input with
  | wakes =>
    dsimp only
    split
    · rename_i hphase
      have hover : s.phase.over = false := by
        rw [hphase]
        rfl
      unfold wake
      split
      · rename_i hstop
        exact .returns ⟨rfl, rfl, le_refl _, rfl⟩ hover rfl (.inl (.inl hstop)) (.inl hstop)
      · exact .opens ⟨rfl, rfl, le_refl _, rfl⟩ hphase rfl
    · exact .stays rfl
  | opens ports =>
    dsimp only
    split
    · exact moves_opens hinput ‹_›
    · exact .stays rfl
  | packet =>
    dsimp only
    split
    · rename_i hphase
      have hsession : s.phase.inSession = true := by
        rw [hphase]
        rfl
      unfold onPacket
      split
      · exact moves_afterStream hsession fun _ => .inl (.inl ‹_›)
      · exact .goesOn ⟨rfl, rfl, le_refl _, rfl⟩ hsession rfl
    · exact .stays rfl
  | acquires ports =>
    dsimp only
    split
    · exact moves_acquires ports ‹_›
    · exact .stays rfl
  | delivers result =>
    dsimp only
    split
    · rename_i hphase
      have hsession : s.phase.inSession = true := by
        rw [hphase]
        rfl
      unfold delivers
      split
      · exact .goesOn ⟨rfl, rfl, le_refl _, rfl⟩ hsession rfl
      · exact moves_afterStream hsession nofun
    · exact .stays rfl
  | ends cause =>
    dsimp only
    split
    · rename_i hends
      have hsession : s.phase.inSession = true := by
        rw [hends.1]
        rfl
      refine moves_afterStream hsession fun _ => ?_
      -- the same return value, for a cause or without one
      cases cause with
      | exhausted =>
        refine .inl (.inr ?_)
        rw [hinput]
      | closed =>
        cases hstop : s.stop with
        | true => exact .inl (.inl hstop)
        | false => exact .inr (.inr ⟨hends.1, hinput, hends.2 rfl, hstop⟩)
    · exact .stays rfl
  | breaks exc =>
    dsimp only
    split
    · rename_i hphase
      have hsession : s.phase.inSession = true := by
        rw [hphase]
        rfl
      exact moves_afterStream hsession nofun
    · exact .stays rfl
  | watchdog closes =>
    dsimp only
    split
    · rename_i hwatching
      unfold watch
      dsimp only
      split
      · exact .goesOn ⟨rfl, rfl, le_refl _, rfl⟩ hwatching.2 hwatching.2
      · exact .goesOn ⟨rfl, rfl, le_refl _, rfl⟩ hwatching.2 hwatching.2
    · exact .stays rfl
  | stop closes => exact .stopAsked rfl rfl rfl rfl rfl
  | stopReturns =>
    dsimp only
    split
    · exact moves_stopReturns ‹_›
    · exact .stays rfl

end SourceActor

end VisionOs.Acquisition
