/-
  `SourceActor`.  A run of the actor is a sequence of the moments at which it or its watchdog goes
  on, with what the ports did then.  Jitter, metrics and a frame's dimensions and quality are left
  out.
-/
import VisionOs.Acquisition.Buffer
import VisionOs.Core.Frame
import VisionOs.Kernel.Health
import VisionOs.Lib.Effect
import VisionOs.Lib.Runs

namespace VisionOs.Acquisition

open Core Lib Effect

/-! ## The actor -/

structure SourceSectionFields where
  reconnectBackoffInitialMs : Int := 500
  reconnectBackoffMaxMs : Int := 30000
  stallWatchdogMs : Int := 10000
  maxConsecutiveDecodeErrors : Int := 30
  maxConnectAttempts : Int := 0
  deriving DecidableEq, Repr

def SourceSectionFields.postInit (c : SourceSectionFields) : Raises Unit := do
  require (¬ c.reconnectBackoffInitialMs < 1)
    (.validationError "source.reconnect_backoff_initial_ms must be >= 1")
  require (¬ c.reconnectBackoffMaxMs < c.reconnectBackoffInitialMs)
    (.validationError "source.reconnect_backoff_max_ms must be >= initial")
  require (¬ c.stallWatchdogMs < 1) (.validationError "source.stall_watchdog_ms must be >= 1")

structure SourceSection extends SourceSectionFields where
  accepted : toSourceSectionFields.postInit = .ok ()
  deriving DecidableEq

/-- What an actor is made for: the fields of its camera that it reads, and its section of the
    configuration. -/
structure SourceActorSetup where
  cameraId : CameraId
  sourceSemantics : SourceSemantics
  config : SourceSection

inductive ActorState where
  | idle | connecting | streaming | backoff | stopping | stopped | failed
  deriving DecidableEq, Repr

structure StreamStats where
  packets : Nat := 0
  framesPublished : Nat := 0
  decodeErrors : Nat := 0
  consecutiveDecodeErrors : Nat := 0
  maskFailures : Nat := 0
  reconnects : Nat := 0
  connectFailures : Nat := 0
  stalls : Nat := 0
  currentEpoch : Int := 0
  clockQuality : ClockQuality := .unknown
  lastPacketMonotonicNs : Int := 0
  dropsByReason : OrderedDict String Nat := ∅

inductive ActorEvent where
  | epochAdvanced (streamEpoch : Int)
  | streamConnected (streamEpoch : Int)
  | streamLost (streamEpoch : Int) (reason : Message)
  | decodeFailed (reason : Message)
  | maskFailure (reason : Message)
  | clockQualityChanged (quality : String)

inductive BufferRequest where
  | acquireSlot
  | discardSlot
  | publish (frameRef : FrameRef) (privacyState : PrivacyState)

inductive Phase where
  /-- Before the test of the loop: at the start, or in `_backoff`. -/
  | resting
  /-- In `_connect`, at `source.open`. -/
  | opening
  /-- In `_stream`, at the next packet. -/
  | streaming
  /-- In `_acquire_slot`. -/
  | acquiring
  /-- In `_handle_packet`, at `on_frame`. -/
  | delivering
  | returned
  | raised (exc : PyException)
  deriving DecidableEq

def Phase.over : Phase → Bool
  | returned | raised _ => true
  | resting | opening | streaming | acquiring | delivering => false

def Phase.inSession : Phase → Bool
  | streaming | acquiring | delivering => true
  | resting | opening | returned | raised _ => false

/-- `SourceActor`, with its tasks and the part of its ports that it shares. -/
structure SourceActor where
  state : ActorState := .idle
  epoch : Int := 0
  seq : Int := 0
  stats : StreamStats := {}
  /-- `_stop`. -/
  stop : Bool := false
  /-- Whether `_handle` is set. -/
  handle : Bool := false
  connectAttempts : Int := 0
  /-- `backoff_ms` of the run loop. -/
  backoffMs : Int
  phase : Phase := .resting
  /-- Whether the handle that `packets` was called with is open. -/
  handleOpen : Bool := false
  /-- Whether the watchdog of the stream still runs. -/
  watching : Bool := false
  /-- The calls of `stop` that have not returned. -/
  stopCalls : Nat := 0
  /-- What the epoch store holds for the camera. -/
  lastEpoch : Int
  health : Kernel.HealthMonitor
  bus : List ActorEvent := []
  bufferCalls : List BufferRequest := []

def SourceActor.start (setup : SourceActorSetup) (lastEpoch : Int) (health : Kernel.HealthMonitor) :
    SourceActor where
  backoffMs := setup.config.reconnectBackoffInitialMs
  lastEpoch
  health

inductive EpochStoreOutcome where
  | works
  | readRaises (exc : PyException)
  /-- Recording raised, with the epoch kept or not. -/
  | recordRaises (exc : PyException) (kept : Bool)

structure ConnectPorts where
  opened : Raises Unit := .ok ()
  epochs : EpochStoreOutcome := .works
  decoderReset : Raises Unit := .ok ()
  clockSyncReset : Raises Unit := .ok ()

/-- What the ports do with one packet, its timestamp, and when it was received. -/
structure PacketPorts where
  pts : Int := 0
  ingest : Instant := ⟨0⟩
  acquired : Raises Unit := .ok ()
  swept : Raises Unit := .ok ()
  decoded : Raises Unit := .ok ()
  masked : Raises PrivacyState := .ok .masked
  discarded : Raises Unit := .ok ()
  estimated : Raises CaptureEstimate := .ok ⟨⟨0⟩, ⟨0⟩, .estimated⟩
  published : Raises Unit := .ok ()

inductive EndCause where
  | exhausted | closed
  deriving DecidableEq, Repr

inductive ActorInput where
  /-- The task is first run, or a backoff is over. -/
  | wakes
  /-- `source.open` is over. -/
  | opens (ports : ConnectPorts)
  /-- The stream yields a packet. -/
  | packet
  /-- The loop of `_acquire_slot` takes a turn. -/
  | acquires (ports : PacketPorts)
  /-- `on_frame` is over. -/
  | delivers (result : Raises Unit)
  /-- The stream ends. -/
  | ends (cause : EndCause)
  /-- The stream raises. -/
  | breaks (exc : PyException)
  /-- A sleep of the watchdog is over; closing the handle would work or not. -/
  | watchdog (closes : Bool)
  /-- `stop` is called; closing the handle would work or not. -/
  | stop (closes : Bool)
  /-- `stop` no longer waits for the task. -/
  | stopReturns

structure Happening where
  now : Instant := ⟨0⟩
  monotonicNs : Int := 0
  input : ActorInput

namespace SourceActor

variable (setup : SourceActorSetup) (now : Instant)

/-- `set_observability` for the actor's camera. -/
def report (status : Kernel.HealthState) (reason : Kernel.ObservabilityReason) (effectiveRate : PyFloat)
    (detail : Message) (s : SourceActor) : SourceActor :=
  { s with
    health :=
      (s.health.setObservability setup.cameraId now status reason effectiveRate detail) }

def publish (event : ActorEvent)
    (s : SourceActor) : SourceActor := { s with bus := s.bus ++ [event] }

def calls (call : BufferRequest) (s : SourceActor) : SourceActor :=
  { s with bufferCalls := s.bufferCalls ++ [call] }

def onDecodeError (reason : Message) (s : SourceActor) : SourceActor :=
  let s := publish (.decodeFailed reason) { s with stats := { s.stats with
    decodeErrors := s.stats.decodeErrors + 1
    consecutiveDecodeErrors := s.stats.consecutiveDecodeErrors + 1 } }
  if setup.config.maxConsecutiveDecodeErrors ≤ s.stats.consecutiveDecodeErrors then
    report setup now .degraded .decodeFailing (.finite 0)
      (s!"{s.stats.consecutiveDecodeErrors} consecutive decode errors") s
  else s

def onMaskFailure (reason : Message) (s : SourceActor) : SourceActor :=
  report setup now .blind .privacyMaskFailed (.finite 0) reason
    (publish (.maskFailure reason)
      { s with stats := { s.stats with maskFailures := s.stats.maskFailures + 1 } })

def publishLost (reason : Message) (s : SourceActor) : SourceActor :=
  report setup now .blind .streamDisconnected (.finite 0) reason
    (publish (.streamLost s.epoch reason) { s with state := .backoff })

def failPersistent (reason : Message) (s : SourceActor) : SourceActor :=
  publish (.streamLost s.epoch reason)
    (report setup now .failed .streamDisconnected (.finite 0) reason { s with state := .failed })

def recordDrop (reason : String) (s : SourceActor) : SourceActor :=
  { s with stats := { s.stats with
    dropsByReason :=
      s.stats.dropsByReason.set reason ((s.stats.dropsByReason.get? reason).getD 0 + 1) } }

def backOff (s : SourceActor) : SourceActor :=
  { s with
    backoffMs := min (s.backoffMs * 2) setup.config.reconnectBackoffMaxMs
    phase := .resting }

/-! ## The per-packet path -/

def discardSlot (ports : PacketPorts) : Effect PyException SourceActor Unit := do
  modify (calls .discardSlot)
  ofExcept ports.discarded

inductive SlotTurn where
  | slot | noSlot | waiting

/-- One turn of `_acquire_slot`'s loop. -/
def acquireSlot (ports : PacketPorts) : Effect PyException SourceActor SlotTurn := do
  let s ← read
  if s.stop then pure .noSlot
  else match ports.acquired with
    | .ok () => do
      modify (calls .acquireSlot)
      pure .slot
    | .error (.poolExhaustedError _) => do
      modify (recordDrop "pool_pressure")
      if setup.sourceSemantics.mayDropFrames then pure .noSlot
      else do
        ofExcept ports.swept
        pure .waiting
    | .error exc => raise exc

def noteClockQuality (quality : ClockQuality) (s : SourceActor) : SourceActor :=
  if quality = s.stats.clockQuality then s
  else publish (.clockQualityChanged quality.label)
    { s with stats := { s.stats with clockQuality := quality } }

def publishFrame (ports : PacketPorts) (privacyState : PrivacyState) :
    Effect PyException SourceActor Unit := do
  let estimate ← ofExcept ports.estimated
  modify (noteClockQuality estimate.quality)
  let s ← read
  let frameRef ← ofExcept (FrameRef.construct
    { cameraId := setup.cameraId, streamEpoch := s.epoch, frameSeq := s.seq })
  modify fun s => { s with seq := s.seq + 1 }
  let _time ← ofExcept (FrameTime.construct
    { pts := ports.pts
      tCapture := estimate.tCapture
      tCaptureUncertainty := estimate.uncertainty
      tIngest := ports.ingest
      tDecoded := now
      clockQuality := estimate.quality })
  modify (calls (.publish frameRef privacyState))
  ofExcept ports.published
  modify fun s =>
    { s with stats := { s.stats with framesPublished := s.stats.framesPublished + 1 } }

def adapterRaised (adapter : String) (exc : PyException) : Message :=
  [.text s!"{adapter} adapter raised {exc.typeName}: "] ++ exc.text

def decodeReason : PyException → Message
  | .decodeError message => message
  | exc => adapterRaised "decoder" exc

def maskReason : PyException → Message
  | .privacyMaskError message => message
  | exc => adapterRaised "privacy" exc

def decodePacket (ports : PacketPorts) : Effect PyException SourceActor Bool :=
  match ports.decoded with
  | .error exc => do
    discardSlot ports
    modify (onDecodeError setup now (decodeReason exc))
    pure false
  | .ok () => do
    modify fun s => { s with stats := { s.stats with consecutiveDecodeErrors := 0 } }
    match ports.masked with
    | .error exc => do
      discardSlot ports
      modify (onMaskFailure setup now (maskReason exc))
      pure false
    | .ok privacyState =>
      -- the only path that fails closed
      if privacyState.emittable then do
        publishFrame setup now ports privacyState
        pure true
      else do
        discardSlot ports
        modify (onMaskFailure setup now "adapter reported MASK_FAILED")
        pure false

/-- `_handle_packet`, from one turn for a slot on: where the packet is then. -/
def handlePacket (ports : PacketPorts) : Effect PyException SourceActor Phase := do
  match ← acquireSlot setup ports with
  | .noSlot => pure .streaming
  | .waiting => pure .acquiring
  | .slot => do
    let frame ← decodePacket setup now ports
    pure (if frame then .delivering else .streaming)

/-! ## The main loop -/

def nextEpoch (store : EpochStoreOutcome) : Effect PyException SourceActor Int := do
  let s ← read
  let nxt := s.lastEpoch + 1
  match store with
  | .readRaises exc => raise exc
  | .recordRaises exc kept => do
    modify fun s => if kept then { s with lastEpoch := nxt } else s
    raise exc
  | .works => do
    modify fun s => { s with lastEpoch := nxt }
    pure nxt

def connect (ports : ConnectPorts) : Effect PyException SourceActor Unit := do
  ofExcept ports.opened
  modify fun s => { s with handle := true, handleOpen := true }
  let epoch ← nextEpoch ports.epochs
  modify fun s =>
    { s with epoch, seq := 0, stats := { s.stats with currentEpoch := epoch } }
  ofExcept ports.decoderReset
  ofExcept ports.clockSyncReset
  modify fun s => report setup now .healthy .normal (.finite 1) []
    (publish (.streamConnected epoch) (publish (.epochAdvanced epoch)
      { s with state := .streaming }))

def wake (s : SourceActor) : SourceActor :=
  if s.stop then { s with phase := .returned }
  else report setup now .starting .startingUp (.finite 0) []
    { s with state := .connecting, phase := .opening }

def onConnectFailed (message : Message) (s : SourceActor) : SourceActor :=
  let s := publishLost setup now ([MessagePart.text "connect failed: "] ++ message)
    { s with
      connectAttempts := s.connectAttempts + 1
      stats := { s.stats with connectFailures := s.stats.connectFailures + 1 } }
  if setup.config.maxConnectAttempts ≠ 0 ∧
      setup.config.maxConnectAttempts ≤ s.connectAttempts then
    { failPersistent setup now s!"giving up after {s.connectAttempts} connect attempts" s with
      phase := .returned }
  else backOff setup s

/-- `_run` after `_connect`. -/
def opens (monotonicNs : Int) (ports : ConnectPorts) (s : SourceActor) : SourceActor :=
  match connect setup now ports s with
  | (.ok _, s) =>
    { s with
      backoffMs := setup.config.reconnectBackoffInitialMs
      connectAttempts := 0
      stats := { s.stats with lastPacketMonotonicNs := monotonicNs }
      watching := true
      phase := .streaming }
  | (.error (.unsupportedCodecError message), s) =>
    { failPersistent setup now ([.text "unsupported codec: "] ++ message) s with
      phase := .returned }
  | (.error (.connectFailedError message), s) => onConnectFailed setup now message s
  | (.error exc, s) => { s with phase := .raised exc }

def reportLoss : Raises Bool → SourceActor → SourceActor
  | .ok _, s => s
  | .error (.streamLostError message), s => publishLost setup now message s
  | .error exc, s =>
    publishLost setup now ([MessagePart.text "unexpected source failure: "] ++ exc.text) s

def endedCleanly : Raises Bool → Bool
  | .ok ended => ended
  | .error _ => false

def afterStream (result : Raises Bool) (s : SourceActor) : SourceActor :=
  let s := reportLoss setup now result s
  let s := { s with handle := false, handleOpen := false, watching := false }
  if endedCleanly result || s.stop then
    { report setup now .draining .draining (.finite 0) "end of stream" { s with state := .stopped } with
      phase := .returned }
  else
    backOff setup { s with stats := { s.stats with reconnects := s.stats.reconnects + 1 } }

def onPacket (monotonicNs : Int) (s : SourceActor) : SourceActor :=
  if s.stop then afterStream setup now (.ok true) s
  else { s with
    stats := { s.stats with
      lastPacketMonotonicNs := monotonicNs
      packets := s.stats.packets + 1 }
    phase := .acquiring }

/-- `_stream` in `_acquire_slot` and after it. -/
def acquires (ports : PacketPorts) (s : SourceActor) : SourceActor :=
  match handlePacket setup now ports s with
  | (.ok phase, s) => { s with phase }
  | (.error exc, s) => afterStream setup now (.error exc) s

/-- `_stream` after the sink took a frame. -/
def delivers (result : Raises Unit) (s : SourceActor) : SourceActor :=
  match result with
  | .ok () => { s with phase := .streaming }
  | .error exc => afterStream setup now (.error exc) s

def watch (monotonicNs : Int) (closes : Bool) (s : SourceActor) : SourceActor :=
  let idle := monotonicNs - s.stats.lastPacketMonotonicNs
  if setup.config.stallWatchdogMs * 1000000 < idle then
    report setup now .blind .streamDisconnected (.finite 0)
      [.text "no packets for ", .float (.finite (idle / 1000000)), .text "ms"]
      { s with
        stats := { s.stats with stalls := s.stats.stalls + 1 }
        handle := false
        handleOpen := s.handleOpen && !(s.handle && closes)
        watching := false }
  else { s with watching := !s.stop }

def requestStop (closes : Bool) (s : SourceActor) : SourceActor :=
  { s with
    state := .stopping
    stop := true
    handleOpen := s.handleOpen && !(s.handle && closes)
    stopCalls := s.stopCalls + 1 }

def drained (s : SourceActor) : SourceActor :=
  report setup now .draining .draining (.finite 0) "actor stopped" { s with state := .stopped }

/-- `stop`, after its wait: it raises what ended the task, and cancels one that goes on. -/
def stopReturns (s : SourceActor) : SourceActor :=
  let s := { s with stopCalls := s.stopCalls - 1 }
  match s.phase with
  | .raised _ => s
  | .returned => drained setup now s
  | .resting | .opening | .streaming | .acquiring | .delivering =>
    drained setup now
      { s with handle := false, handleOpen := false, watching := false, phase := .returned }

/-- A moment of a run.  What does not happen where the actor is leaves it alone. -/
def step (s : SourceActor) (h : Happening) : SourceActor :=
  match h.input with
  | .wakes => if s.phase = .resting then wake setup h.now s else s
  | .opens ports => if s.phase = .opening then opens setup h.now h.monotonicNs ports s else s
  | .packet => if s.phase = .streaming then onPacket setup h.now h.monotonicNs s else s
  | .acquires ports => if s.phase = .acquiring then acquires setup h.now ports s else s
  | .delivers result => if s.phase = .delivering then delivers setup h.now result s else s
  | .ends cause =>
    if s.phase = .streaming ∧ (cause = .closed → s.handleOpen = false) then
      afterStream setup h.now (.ok true) s
    else s
  | .breaks exc => if s.phase = .streaming then afterStream setup h.now (.error exc) s else s
  | .watchdog closes =>
    if s.watching = true ∧ s.phase.inSession = true then
      watch setup h.now h.monotonicNs closes s
    else s
  | .stop closes => requestStop closes s
  | .stopReturns => if 0 < s.stopCalls then stopReturns setup h.now s else s

end SourceActor

end VisionOs.Acquisition
