/-
  What the monitor reports of a camera while its frames come.  The camera's actor and the
  scheduler write the same report, each from what it sees, and the scheduler's all-clear covers
  what the actor reported in between.
-/
import VisionOs.Acquisition.ActorMoves
import VisionOs.Acquisition.Scheduler

namespace VisionOs.Acquisition

open Core Lib Effect List Kernel.HealthMonitor Scheduling

inductive PacketFate where
  /-- There was no slot for it. -/
  | dropped
  /-- It failed to decode, and its slot was given back. -/
  | decodeFailed
  /-- It failed to decode, and giving back its slot raised. -/
  | stuck
  | maskFailed
  /-- It was decoded and masked, and its frame may be emitted. -/
  | passed
  /-- Its frame was published and the scheduler refused it. -/
  | refused
  /-- Its frame was published and admitted, and whether the monitor reported the camera blinded
      when the frame was offered. -/
  | admitted (blinded : Bool)
  deriving DecidableEq, Repr

/-- What happened to a camera's feed, as far as its observability goes. -/
inductive Milestone where
  | connected
  | lost
  | alarmEnded
  | packet (fate : PacketFate)
  deriving DecidableEq, Repr

def Milestone.fate? : Milestone → Option PacketFate
  | packet fate => some fate
  | connected | lost | alarmEnded => none

def fates (history : List Milestone) : List PacketFate := history.filterMap Milestone.fate?

def decodeRun (fates : List PacketFate) : Nat := (fates.takeWhile (· = .decodeFailed)).length

def streamLost : List Milestone → Bool
  | [] => false
  | .lost :: _ => true
  | .connected :: _ => false
  | .alarmEnded :: rest | .packet _ :: rest => streamLost rest

def sinceConnected (history : List Milestone) : List Milestone :=
  history.takeWhile (· ≠ .connected)

def sincePacket (history : List Milestone) : List Milestone :=
  history.takeWhile fun m => m.fate?.isNone

def sinceLost (history : List Milestone) : List Milestone := history.takeWhile (· ≠ .lost)

/-- What the actor reports of a camera that it cannot see through. -/
def Blinded : Kernel.HealthState × Kernel.ObservabilityReason → Prop
  | (.blind, _) | (.degraded, .decodeFailing) | (.degraded, .privacyMaskFailed) => True
  | _ => False

instance : DecidablePred Blinded := fun report => by
  unfold Blinded
  split <;> infer_instance

/-! ## A camera's feed -/

structure FeedSetup where
  actor : SourceActorSetup
  scheduler : SchedulerSection

structure CameraFeed where
  actor : SourceActor
  scheduler : FrameScheduler
  /-- What happened so far, the latest first. -/
  history : List Milestone := []

inductive FeedInput where
  /-- A moment of the actor.  A frame that it publishes then is handed to the sink, which offers it
      or, without an attached pipeline, does not. -/
  | happens (h : Happening) (sink : Option OfferPorts)
  /-- A frame of any camera is offered elsewhere. -/
  | offers (cameraId : CameraId) (ports : OfferPorts)
  | completes (cameraId : CameraId)
  | registers (cameraId : CameraId) (profile : PipelineProfile) (semantics : SourceSemantics)
  | forgets (cameraId : CameraId)
  | overrides (cameraId : CameraId) (fps : PyFloat) (expires : Instant)

/-- What becomes of a packet in a turn that does not leave it waiting. -/
def packetFate (s : SourceActor) (ports : PacketPorts) : PacketFate :=
  if s.stop = true ∨ ports.acquired ≠ .ok () then .dropped
  else match ports.decoded, ports.masked with
    | .error _, _ => match ports.discarded with
      | .ok () => .decodeFailed
      | .error _ => .stuck
    | .ok _, .error _ => .maskFailed
    | .ok _, .ok state => if state.emittable then .passed else .maskFailed

def openMilestones (ports : ConnectPorts) : List Milestone :=
  match ports.raised with
  | none => [.connected]
  | some exc => if expectedOfConnect exc then [.lost] else []

def packetMilestones (fate : PacketFate) : Phase → List Milestone
  | .acquiring => []
  | .streaming | .delivering => [.packet fate]
  | .resting | .opening | .returned | .raised _ => [.lost, .packet fate]

def milestones (setup : SourceActorSetup) (s : SourceActor) (h : Happening) : List Milestone :=
  match h.input with
  | .opens ports =>
    if s.phase = .opening then openMilestones ports else []
  | .acquires ports =>
    if s.phase = .acquiring then
      packetMilestones (packetFate s ports) (s.acquires setup h.now ports).phase
    else []
  | .delivers (.error _) => if s.phase = .delivering then [.lost] else []
  | .breaks _ => if s.phase = .streaming then [.lost] else []
  | .watchdog _ =>
    if s.watching = true ∧ s.phase.inSession = true ∧
        setup.config.stallWatchdogMs * 1000000 < h.monotonicNs - s.stats.lastPacketMonotonicNs then
      [.lost]
    else []
  | _ => []

namespace CameraFeed

variable (setup : FeedSetup)

def start (lastEpoch : Int) (health : Kernel.HealthMonitor) (scheduler : FrameScheduler) :
    CameraFeed where
  actor := .start setup.actor lastEpoch health
  scheduler

def reported (w : CameraFeed) : Kernel.HealthState × Kernel.ObservabilityReason :=
  w.actor.health.reported setup.actor.cameraId

def moves (h : Happening) (w : CameraFeed) : CameraFeed :=
  { w with
    actor := w.actor.step setup.actor h
    history := milestones setup.actor w.actor h ++ w.history }

def offered (cameraId : CameraId) (ports : OfferPorts) (w : CameraFeed) :
    Raises AdmissionVerdict × CameraFeed :=
  let called := offer setup.scheduler cameraId ports ⟨w.scheduler, w.actor.health⟩
  (called.1,
    { actor := { w.actor with health := called.2.health }
      scheduler := called.2.scheduler
      history :=
        if w.scheduler.endsAlarm setup.scheduler ports.now setup.actor.cameraId then
          .alarmEnded :: w.history
        else w.history })

def sinks (now : Instant) (ports : OfferPorts) (w : CameraFeed) : CameraFeed :=
  match offered setup setup.actor.cameraId ports w with
  | (.ok verdict, w') =>
    let fate : PacketFate :=
      if verdict.admitted then .admitted (Blinded (w.reported setup)) else .refused
    { w' with history := .packet fate :: w'.history }
  | (.error exc, w') =>
    -- what the sink raises ends the stream
    { w' with
      actor := w'.actor.delivers setup.actor now (.error exc)
      history := .lost :: w'.history }

def step (w : CameraFeed) : FeedInput → CameraFeed
  | .happens h sink =>
    let w' := w.moves setup h
    if w'.actor.phase = .delivering ∧ w.actor.phase ≠ .delivering then
      match sink with
      | some ports => w'.sinks setup h.now ports
      | none => w'
    else w'
  | .offers cameraId ports => (w.offered setup cameraId ports).2
  | .completes cameraId => { w with scheduler := w.scheduler.complete cameraId }
  | .registers cameraId profile semantics =>
    { w with scheduler := w.scheduler.registerCamera cameraId profile semantics }
  | .forgets cameraId => { w with scheduler := w.scheduler.forgetCamera cameraId }
  | .overrides cameraId fps expires =>
    match w.scheduler.overrideCadence cameraId fps expires with
    | .ok scheduler => { w with scheduler }
    | .error _ => w

end CameraFeed

/-! ## Reports and histories -/

/-- How a report follows the packets, where `limit` failed decodes in a row are too many.  What the
    end of the scheduler's alarm has overwritten since is not spoken of, nor is a report that
    stood already when a frame was offered. -/
structure Follows (limit : Int) (history : List Milestone)
    (report : Kernel.HealthState × Kernel.ObservabilityReason) : Prop where
  masked : (fates (sinceConnected history)).head? = some .maskFailed → report.1 = .healthy →
    .alarmEnded ∈ sincePacket history
  decoded : fates (sinceConnected history) ≠ [] → 0 < decodeRun (fates history) →
    limit ≤ decodeRun (fates history) → report.1 = .healthy → .alarmEnded ∈ sincePacket history
  lost : streamLost history = true → report.1 = .healthy → .alarmEnded ∈ sinceLost history
  admitted : (fates history).head? = some (.admitted false) → .lost ∉ sincePacket history →
    ¬ Blinded report

section Histories

variable {history : List Milestone} {fate : PacketFate} {limit : Int}
  {report report' : Kernel.HealthState × Kernel.ObservabilityReason}

@[simp] theorem fates_packet : fates (.packet fate :: history) = fate :: fates history := rfl

@[simp] theorem decodeRun_decodeFailed (rest : List PacketFate) :
    decodeRun (.decodeFailed :: rest) = decodeRun rest + 1 := by
  unfold decodeRun
  rw [takeWhile_cons_of_pos (by simp)]
  rfl

theorem decodeRun_of_ne (h : fate ≠ .decodeFailed) (rest : List PacketFate) :
    decodeRun (fate :: rest) = 0 := by
  unfold decodeRun
  rw [takeWhile_cons_of_neg (by simpa using h)]
  rfl

theorem follows_nil : Follows limit [] report where
  masked h := by cases h
  decoded h := absurd rfl h
  lost h := by cases h
  admitted h := by cases h

theorem follows_of_reported (hhealthy : report.1 ≠ .healthy) (hblinded : ¬ Blinded report) :
    Follows limit history report where
  masked _ h' := absurd h' hhealthy
  decoded _ _ _ h' := absurd h' hhealthy
  lost _ h' := absurd h' hhealthy
  admitted _ _ := hblinded

theorem follows_lost (hhealthy : report.1 ≠ .healthy) :
    Follows limit (.lost :: history) report where
  masked _ h' := absurd h' hhealthy
  decoded _ _ _ h' := absurd h' hhealthy
  lost _ h' := absurd h' hhealthy
  admitted _ hlost := absurd mem_cons_self hlost

theorem follows_connected : Follows limit (.connected :: history) (.healthy, .normal) where
  masked h := by cases h
  decoded h := absurd rfl h
  lost h := by cases h
  admitted _ _ := id

theorem Follows.alarmEnded (h : Follows limit history report)
    (hblinded : Blinded report' → Blinded report) :
    Follows limit (.alarmEnded :: history) report' where
  masked _ _ := mem_cons_self
  decoded _ _ _ _ := mem_cons_self
  lost _ _ := mem_cons_self
  admitted hfate hlost hreport := by
    refine h.admitted hfate (fun hmem => hlost ?_) (hblinded hreport)
    exact mem_cons_of_mem _ hmem

theorem Follows.packet (h : Follows limit history report) (hmask : fate ≠ .maskFailed)
    (hdecode : fate ≠ .decodeFailed) (hadmitted : fate = .admitted false → ¬ Blinded report) :
    Follows limit (.packet fate :: history) report where
  masked h' := absurd (Option.some.inj h') hmask
  decoded _ h' := by
    rw [fates_packet, decodeRun_of_ne hdecode] at h'
    exact absurd h' (lt_irrefl 0)
  lost hlost hhealthy := mem_cons_of_mem _ (h.lost hlost hhealthy)
  admitted h' _ := hadmitted (Option.some.inj h')

theorem follows_maskFailed (hhealthy : report.1 ≠ .healthy) :
    Follows limit (.packet .maskFailed :: history) report where
  masked _ h' := absurd h' hhealthy
  decoded _ _ _ h' := absurd h' hhealthy
  lost _ h' := absurd h' hhealthy
  admitted h' := by cases h'

theorem Follows.decodeFailed (h : Follows limit history report)
    (hmany : limit ≤ decodeRun (fates history) + 1 → report'.1 ≠ .healthy)
    (hhealthy : report'.1 = .healthy → report.1 = .healthy) :
    Follows limit (.packet .decodeFailed :: history) report' where
  masked h' := by cases h'
  decoded _ _ hrun h' := by
    rw [fates_packet, decodeRun_decodeFailed] at hrun
    exact absurd h' (hmany (by exact_mod_cast hrun))
  lost hlost h' := mem_cons_of_mem _ (h.lost hlost (hhealthy h'))
  admitted h' := by cases h'

end Histories

/-! ## What the actor reports -/

namespace SourceActor

variable {setup : SourceActorSetup} {now : Instant} {s s' s'' : SourceActor}

def reported (setup : SourceActorSetup) (s : SourceActor) :
    Kernel.HealthState × Kernel.ObservabilityReason :=
  s.health.reported setup.cameraId

/-- The move tells the monitor nothing. -/
structure Quiet (s s' : SourceActor) : Prop where
  health : s'.health = s.health
  errors : s'.stats.consecutiveDecodeErrors = s.stats.consecutiveDecodeErrors

/-- What the move tells the monitor, by the fate of its packet. -/
def Tells (setup : SourceActorSetup) (s s' : SourceActor) : PacketFate → Prop
  | .dropped => Quiet s s'
  | .passed => s'.health = s.health
  | .decodeFailed =>
    s'.stats.consecutiveDecodeErrors = s.stats.consecutiveDecodeErrors + 1 ∧
      (s'.health = s.health ∨ reported setup s' = (.degraded, .decodeFailing)) ∧
      (setup.config.maxConsecutiveDecodeErrors ≤ s.stats.consecutiveDecodeErrors + 1 →
        reported setup s' = (.degraded, .decodeFailing))
  | .maskFailed => reported setup s' = (.blind, .privacyMaskFailed)
  | .stuck | .refused | .admitted _ => False

theorem reported_report (status : Kernel.HealthState) (reason : Kernel.ObservabilityReason)
    (effectiveRate : PyFloat) (detail : Message) :
    reported setup (report setup now status reason effectiveRate detail s) = (status, reason) :=
  reported_setObservability

theorem tells_onDecodeError (reason : Message) (hquiet : Quiet s s') :
    Tells setup s (onDecodeError setup now reason s') .decodeFailed := by
  have hcounted : ∀ t : SourceActor, t.health = s'.health →
      t.stats.consecutiveDecodeErrors = s'.stats.consecutiveDecodeErrors + 1 →
      Tells setup s
        (if setup.config.maxConsecutiveDecodeErrors ≤ t.stats.consecutiveDecodeErrors then
          report setup now .degraded .decodeFailing (.finite 0)
            (s!"{t.stats.consecutiveDecodeErrors} consecutive decode errors") t
        else t) .decodeFailed := by
    intro t hhealth herrors
    rw [hquiet.errors] at herrors
    by_cases hmany : setup.config.maxConsecutiveDecodeErrors ≤ t.stats.consecutiveDecodeErrors
    · -- too many in a row
      rw [if_pos hmany]
      exact ⟨herrors, .inr (reported_report ..), fun _ => reported_report ..⟩
    · rw [if_neg hmany]
      refine ⟨herrors, .inl (hhealth.trans hquiet.health), fun hfew => ?_⟩
      rw [herrors] at hmany
      exact absurd (by exact_mod_cast hfew) hmany
  exact hcounted _ rfl rfl

theorem health_publishFrame (ports : PacketPorts) (state : PrivacyState) :
    (publishFrame setup now ports state).wp (fun _ s' => s'.health = s.health)
      (fun _ _ => True) s := by
  have hnoted : ∀ quality, (noteClockQuality quality s).health = s.health := by
    intro quality
    unfold noteClockQuality
    split <;> rfl
  unfold publishFrame
  rw [wp_bind, wp_ofExcept]
  refine ⟨fun estimate _ => ?_, fun _ _ => trivial⟩
  rw [wp_bind, wp_modify, wp_bind, wp_read, wp_bind,
    wp_ofExcept]
  refine ⟨fun _ _ => ?_, fun _ _ => trivial⟩
  rw [wp_bind, wp_modify, wp_bind, wp_ofExcept]
  refine ⟨fun _ _ => ?_, fun _ _ => trivial⟩
  rw [wp_bind, wp_modify, wp_bind, wp_ofExcept]
  refine ⟨fun _ _ => ?_, fun _ _ => trivial⟩
  exact hnoted estimate.quality

theorem decodePacket_tells (ports : PacketPorts) (hstop : s.stop = false)
    (hacquired : ports.acquired = .ok ()) (hquiet : Quiet s s') :
    (decodePacket setup now ports).wp (fun _ s'' => Tells setup s s'' (packetFate s ports))
      (fun _ _ => packetFate s ports ≠ .decodeFailed) s' := by
  have hfate : ¬ (s.stop = true ∨ ports.acquired ≠ .ok ()) := by
    rintro (h | h)
    · rw [hstop] at h
      cases h
    · exact h hacquired
  unfold packetFate decodePacket
  rw [if_neg hfate]
  cases ports.decoded with
  | error exc =>
    unfold discardSlot
    rw [wp_bind, wp_bind, wp_modify]
    cases ports.discarded with
    | error _ => exact fun h => by cases h
    | ok _ => exact tells_onDecodeError _ ⟨hquiet.health, hquiet.errors⟩
  | ok _ =>
    rw [wp_bind, wp_modify]
    -- a masking that fails is reported once the slot was discarded
    have hmask : ∀ (reason : Message) (t : SourceActor),
        (do discardSlot ports; Effect.modify (onMaskFailure setup now reason); pure false :
          Effect PyException SourceActor Bool).wp
            (fun _ s'' => Tells setup s s'' .maskFailed)
            (fun _ _ => PacketFate.maskFailed ≠ .decodeFailed) t := by
      intro reason t
      rw [wp_bind]
      refine wp_mono (fun _ u _ => ?_) (fun _ _ _ h => by cases h) (wp_true _ _)
      rw [wp_bind, wp_modify]
      exact reported_report ..
    cases ports.masked with
    | error exc => exact hmask _ _
    | ok state =>
      dsimp only
      cases hemit : state.emittable with
      | false => exact hmask _ _
      | true =>
        rw [if_pos rfl, if_pos rfl, wp_bind]
        refine wp_mono (fun _ t ht => ?_) (fun _ _ _ h => by cases h)
          (health_publishFrame ports state)
        exact ht.trans hquiet.health

theorem handlePacket_tells (ports : PacketPorts) :
    (handlePacket setup now ports).wp
      (fun phase s' => (phase = .acquiring ∧ Quiet s s') ∨
        ((phase = .streaming ∨ phase = .delivering) ∧ Tells setup s s' (packetFate s ports)))
      (fun _ _ => packetFate s ports ≠ .decodeFailed) s := by
  unfold handlePacket acquireSlot
  rw [wp_bind, wp_bind, wp_read]
  cases hstop : s.stop with
  | true =>
    rw [if_pos rfl]
    refine .inr ⟨.inl rfl, ?_⟩
    unfold packetFate
    rw [if_pos (.inl hstop)]
    exact ⟨rfl, rfl⟩
  | false =>
    rw [if_neg (by simp)]
    split
    · rename_i hacquired
      rw [wp_bind, wp_modify, wp_pure]
      rw [wp_bind]
      refine wp_mono (fun frame t ht => ?_) (fun _ _ h => h)
        (decodePacket_tells ports hstop hacquired ⟨rfl, rfl⟩)
      refine .inr ⟨?_, ht⟩
      cases frame with
      | false => exact .inl rfl
      | true => exact .inr rfl
    · rename_i message hacquired
      have hfate : packetFate s ports = .dropped := by
        unfold packetFate
        rw [if_pos (.inr (by rw [hacquired]; simp))]
      rw [wp_bind, wp_modify]
      split
      · exact .inr ⟨.inl rfl, hfate ▸ ⟨rfl, rfl⟩⟩
      · rw [wp_bind, wp_ofExcept]
        exact ⟨fun _ _ => .inl ⟨rfl, rfl, rfl⟩, fun _ _ h => by rw [hfate] at h; cases h⟩
    · rename_i exc hacquired hraised
      intro h
      unfold packetFate at h
      rw [if_pos (.inr (by rw [hraised]; simp))] at h
      cases h

theorem connect_reports (ports : ConnectPorts) :
    (connect setup now ports).wp
      (fun _ s' => reported setup s' = (.healthy, .normal) ∧
        s'.stats.consecutiveDecodeErrors = s.stats.consecutiveDecodeErrors ∧ ports.raised = none)
      (fun exc s' => Quiet s s' ∧ ports.raised = some exc) s := by
  have hhealth : (connect setup now ports).wp
      (fun _ s' => reported setup s' = (.healthy, .normal) ∧
        s'.stats.consecutiveDecodeErrors = s.stats.consecutiveDecodeErrors)
      (fun _ s' => Quiet s s') s := by
    unfold connect nextEpoch
    rw [wp_bind, wp_ofExcept]
    refine ⟨fun _ _ => ?_, fun _ _ => ⟨rfl, rfl⟩⟩
    rw [wp_bind, wp_modify, wp_bind, wp_bind, wp_read]
    cases ports.epochs with
    | readRaises exc => exact ⟨rfl, rfl⟩
    | recordRaises exc kept =>
      rw [wp_bind, wp_modify, wp_raise]
      cases kept <;> exact ⟨rfl, rfl⟩
    | works =>
      rw [wp_bind, wp_modify, wp_pure, wp_bind, wp_modify,
        wp_bind, wp_ofExcept]
      refine ⟨fun _ _ => ?_, fun _ _ => ⟨rfl, rfl⟩⟩
      rw [wp_bind, wp_ofExcept]
      refine ⟨fun _ _ => ?_, fun _ _ => ⟨rfl, rfl⟩⟩
      rw [wp_modify]
      exact ⟨reported_report .., rfl⟩
  refine wp_mono (fun _ s' h => ?_) (fun _ s' h => ?_)
    (wp_and hhealth (connect_spec ports))
  · exact ⟨h.1.1, h.1.2, h.2.2⟩
  · exact ⟨h.1, h.2.2.2⟩

theorem reported_afterStream_error (exc : PyException) :
    (reported setup (afterStream setup now (.error exc) s)).1 ≠ .healthy := by
  have hloss : ∀ t : SourceActor, reported setup (reportLoss setup now (.error exc) t) =
      (.blind, .streamDisconnected) := by
    intro t
    unfold reportLoss
    split
    · rename_i h
      cases h
    · exact reported_report ..
    · exact reported_report ..
  unfold afterStream
  dsimp only
  split
  · have hdrained := @reported_report setup now
    unfold reported at hdrained ⊢
    rw [hdrained]
    simp
  · show (reported setup (reportLoss setup now (.error exc) s)).1 ≠ .healthy
    rw [hloss]
    simp

theorem reported_afterStream_ok :
    reported setup (afterStream setup now (.ok true) s) = (.draining, .draining) := by
  unfold afterStream endedCleanly
  dsimp only
  rw [Bool.true_or, if_pos rfl]
  exact reported_report ..

/-! ## A moment of the actor -/

structure Good (setup : SourceActorSetup) (s : SourceActor) (history : List Milestone) : Prop where
  counts : decodeRun (fates history) ≤ s.stats.consecutiveDecodeErrors
  follows : Follows setup.config.maxConsecutiveDecodeErrors history (reported setup s)

variable {history history' : List Milestone}

theorem Good.quiet (h : Good setup s history) (hquiet : Quiet s s') : Good setup s' history where
  counts := by
    rw [hquiet.errors]
    exact h.counts
  follows := by
    unfold reported
    rw [hquiet.health]
    exact h.follows

theorem errors_afterStream (result : Raises Bool) (s : SourceActor) :
    (afterStream setup now result s).stats.consecutiveDecodeErrors =
      s.stats.consecutiveDecodeErrors := by
  have hloss : (reportLoss setup now result s).stats = s.stats := by
    unfold reportLoss
    split <;> rfl
  rw [← hloss]
  unfold afterStream
  dsimp only
  split <;> rfl

theorem good_afterStream_error (hcounts : decodeRun (fates history) ≤ s.stats.consecutiveDecodeErrors)
    (exc : PyException) : Good setup (afterStream setup now (.error exc) s) (.lost :: history) :=
  ⟨(errors_afterStream _ s).symm ▸ hcounts, follows_lost (reported_afterStream_error exc)⟩

theorem good_afterStream_ok (h : Good setup s history) :
    Good setup (afterStream setup now (.ok true) s) history := by
  refine ⟨(errors_afterStream _ s).symm ▸ h.counts, follows_of_reported ?_ ?_⟩
  · rw [reported_afterStream_ok]
    simp
  · rw [reported_afterStream_ok]
    exact id

theorem good_wake (h : Good setup s history) : Good setup (wake setup now s) history := by
  unfold wake
  split
  · exact h.quiet ⟨rfl, rfl⟩
  · refine ⟨h.counts, follows_of_reported ?_ ?_⟩
    · rw [reported_report]
      simp
    · rw [reported_report]
      exact id

/-- A connection that is made starts a session; one that fails loses the stream. -/
theorem good_opens (h : Good setup s history) {monotonicNs : Int} {ports : ConnectPorts} :
    Good setup (opens setup now monotonicNs ports s) (openMilestones ports ++ history) := by
  unfold opens openMilestones
  rcases wp_cases (connect setup now ports) s (connect_reports ports) with
    ⟨_, t, hcall, hreported, herrors, hraised⟩ | ⟨exc, t, hcall, ⟨hhealth, herrors⟩, hraised⟩
  · rw [hcall, hraised]
    refine ⟨herrors ▸ h.counts, ?_⟩
    show Follows _ (.connected :: history) (reported setup t)
    rw [hreported]
    exact follows_connected
  · rw [hcall, hraised]
    have hunexpected : expectedOfConnect exc = false →
        Good setup { t with phase := .raised exc }
          ((if expectedOfConnect exc then [.lost] else []) ++ history) := by
      intro hnot
      rw [hnot]
      exact h.quiet ⟨hhealth, herrors⟩
    cases exc with
    | unsupportedCodecError message =>
      refine ⟨herrors ▸ h.counts, follows_lost ?_⟩
      have hfailed : reported setup
          { failPersistent setup now ([.text "unsupported codec: "] ++ message) t with
            phase := .returned } = (.failed, .streamDisconnected) :=
        reported_setObservability
      rw [hfailed]
      simp
    | connectFailedError message =>
      unfold onConnectFailed
      dsimp only
      split
      · refine ⟨herrors ▸ h.counts, follows_lost ?_⟩
        show (Kernel.HealthMonitor.reported _ setup.cameraId).1 ≠ _
        unfold failPersistent publish report
        rw [reported_setObservability]
        simp
      · refine ⟨herrors ▸ h.counts, follows_lost ?_⟩
        show (Kernel.HealthMonitor.reported _ setup.cameraId).1 ≠ _
        unfold backOff publishLost report
        rw [Kernel.HealthMonitor.reported_setObservability]
        simp
    | _ => exact hunexpected rfl

theorem good_of_tells (h : Good setup s history) {fate : PacketFate} {phase : Phase}
    (htells : Tells setup s s' fate) : Good setup { s' with phase } (.packet fate :: history) := by
  have hsame : s'.health = s.health → reported setup { s' with phase } = reported setup s := by
    intro hhealth
    rw [hhealth]
    rfl
  have hnone : fate ≠ .decodeFailed →
      decodeRun (fates (.packet fate :: history)) ≤ s'.stats.consecutiveDecodeErrors := fun hne =>
    (decodeRun_of_ne hne _).trans_le (Nat.zero_le _)
  cases fate with
  | dropped =>
    refine ⟨hnone (by simp), ?_⟩
    rw [hsame htells.health]
    exact h.follows.packet (by simp) (by simp) (by simp)
  | passed =>
    refine ⟨hnone (by simp), ?_⟩
    rw [hsame htells]
    exact h.follows.packet (by simp) (by simp) (by simp)
  | maskFailed =>
    refine ⟨hnone (by simp), follows_maskFailed ?_⟩
    have hblind : reported setup { s' with phase } = (.blind, .privacyMaskFailed) := htells
    rw [hblind]
    simp
  | decodeFailed =>
    obtain ⟨hcounted, hreport, hmany⟩ := htells
    have hcounts := h.counts
    refine ⟨?_, h.follows.decodeFailed (fun hlimit => ?_) (fun hhealthy => ?_)⟩
    · -- one more failed to decode, and one more is counted
      show decodeRun (.decodeFailed :: fates history) ≤ _
      rw [decodeRun_decodeFailed, hcounted]
      omega
    · have hdegraded : reported setup { s' with phase } = (.degraded, .decodeFailing) :=
        hmany (by omega)
      rw [hdegraded]
      simp
    · obtain hhealth | hdegraded := hreport
      · rwa [hsame hhealth] at hhealthy
      · have hdegraded' : reported setup { s' with phase } = (.degraded, .decodeFailing) :=
          hdegraded
        rw [hdegraded'] at hhealthy
        cases hhealthy
  | stuck => exact htells.elim
  | refused => exact htells.elim
  | admitted blinded => exact htells.elim

theorem good_acquires (h : Good setup s history) {ports : PacketPorts} :
    Good setup (acquires setup now ports s)
      (packetMilestones (packetFate s ports) (acquires setup now ports s).phase ++ history) := by
  unfold acquires
  rcases wp_cases (handlePacket setup now ports) s (handlePacket_tells ports) with
    ⟨phase, t, hcall, hspec⟩ | ⟨exc, t, hcall, hfate⟩
  · rw [hcall]
    obtain ⟨rfl, hquiet⟩ | ⟨rfl | rfl, htells⟩ := hspec
    · exact h.quiet ⟨hquiet.health, hquiet.errors⟩
    · exact good_of_tells h htells
    · exact good_of_tells h htells
  · rw [hcall]
    have hlost : packetMilestones (packetFate s ports)
        (afterStream setup now (.error exc) t).phase = [.lost, .packet (packetFate s ports)] := by
      unfold afterStream
      dsimp only
      split <;> rfl
    rw [hlost]
    refine good_afterStream_error (Eq.trans_le ?_ (Nat.zero_le _)) exc
    exact decodeRun_of_ne hfate _

theorem good_watch (h : Good setup s history) {monotonicNs : Int} {closes : Bool} :
    Good setup (watch setup now monotonicNs closes s)
      ((if setup.config.stallWatchdogMs * 1000000 <
          monotonicNs - s.stats.lastPacketMonotonicNs then [.lost] else []) ++ history) := by
  unfold watch
  dsimp only
  split
  · refine ⟨h.counts, follows_lost ?_⟩
    rw [reported_report]
    simp
  · exact h.quiet ⟨rfl, rfl⟩

theorem good_stopReturns (h : Good setup s history) :
    Good setup (stopReturns setup now s) history := by
  have hdrained : ∀ t : SourceActor, t.stats = s.stats → Good setup (drained setup now t) history := by
    intro t hstats
    have hreported : reported setup (drained setup now t) = (.draining, .draining) :=
      reported_report ..
    refine ⟨?_, follows_of_reported ?_ ?_⟩
    · show _ ≤ t.stats.consecutiveDecodeErrors
      rw [hstats]
      exact h.counts
    · rw [hreported]
      simp
    · rw [hreported]
      exact id
  unfold stopReturns
  cases s.phase with
  | raised exc => exact h.quiet ⟨rfl, rfl⟩
  | returned => exact hdrained _ rfl
  | resting | opening | streaming | acquiring | delivering => exact hdrained _ rfl

/-- A moment of the actor keeps its count and its report. -/
theorem good_step (h : Good setup s history) (happening : Happening) :
    Good setup (step setup s happening) (milestones setup s happening ++ history) := by
  unfold step milestones
  -- an input that does not suit the phase leaves the actor as it was
  cases happening.input with
  | wakes =>
    dsimp only
    split
    · exact good_wake h
    · exact h
  | opens ports =>
    dsimp only
    split
    · exact good_opens h
    · exact h
  | packet =>
    dsimp only
    split
    · unfold onPacket
      split
      · exact good_afterStream_ok h
      · exact h.quiet ⟨rfl, rfl⟩
    · exact h
  | acquires ports =>
    dsimp only
    by_cases hphase : s.phase = .acquiring
    · rw [if_pos hphase, if_pos hphase]
      exact good_acquires h
    · rw [if_neg hphase, if_neg hphase]
      exact h
  | delivers result =>
    by_cases hphase : s.phase = .delivering
    · cases result with
      | ok _ =>
        dsimp only
        rw [if_pos hphase]
        exact h.quiet ⟨rfl, rfl⟩
      | error exc =>
        dsimp only
        rw [if_pos hphase, if_pos hphase]
        exact good_afterStream_error h.counts exc
    · cases result with
      | ok _ =>
        dsimp only
        rw [if_neg hphase]
        exact h
      | error exc =>
        dsimp only
        rw [if_neg hphase, if_neg hphase]
        exact h
  | ends cause =>
    dsimp only
    split
    · exact good_afterStream_ok h
    · exact h
  | breaks exc =>
    dsimp only
    by_cases hphase : s.phase = .streaming
    · rw [if_pos hphase, if_pos hphase]
      exact good_afterStream_error h.counts exc
    · rw [if_neg hphase, if_neg hphase]
      exact h
  | watchdog closes =>
    dsimp only
    by_cases hwatching : s.watching = true ∧ s.phase.inSession = true
    · rw [if_pos hwatching]
      have hgood := @good_watch setup happening.now s history h happening.monotonicNs closes
      simpa only [hwatching, true_and] using hgood
    · have hidle : ¬ (s.watching = true ∧ s.phase.inSession = true ∧
          setup.config.stallWatchdogMs * 1000000 <
            happening.monotonicNs - s.stats.lastPacketMonotonicNs) :=
        fun h => hwatching ⟨h.1, h.2.1⟩
      rw [if_neg hwatching, if_neg hidle]
      exact h
  | stop closes => exact h.quiet ⟨rfl, rfl⟩
  | stopReturns =>
    dsimp only
    split
    · exact good_stopReturns h
    · exact h

end SourceActor

/-! ## Whole runs -/

namespace CameraFeed

variable {setup : FeedSetup} {w : CameraFeed}

def Good (setup : FeedSetup) (w : CameraFeed) : Prop := w.actor.Good setup.actor w.history

theorem reported_offered (cameraId : CameraId) (ports : OfferPorts) :
    (w.offered setup cameraId ports).2.reported setup = w.reported setup ∨
      (w.offered setup cameraId ports).2.reported setup = (.degraded, .schedulerShedding) ∨
      ((w.offered setup cameraId ports).2.reported setup = (.healthy, .normal) ∧
        w.scheduler.endsAlarm setup.scheduler ports.now setup.actor.cameraId = true) := by
  have hroll : Scheduling.RollReports setup.scheduler setup.actor.cameraId ports.now
      ⟨w.scheduler, w.actor.health⟩
      (maybeRollWindow setup.scheduler ports ⟨w.scheduler, w.actor.health⟩) :=
    rollReports_maybeRollWindow ports
  have hhealth : (w.offered setup cameraId ports).2.actor.health =
      (maybeRollWindow setup.scheduler ports ⟨w.scheduler, w.actor.health⟩).health :=
    health_offer cameraId ports
  unfold reported
  rw [hhealth]
  exact hroll

theorem blinded_of_offered {cameraId : CameraId} {ports : OfferPorts}
    (h : Blinded ((w.offered setup cameraId ports).2.reported setup)) :
    Blinded (w.reported setup) := by
  obtain hsame | hshed | ⟨hhealthy, -⟩ := @reported_offered setup w cameraId ports
  · rwa [hsame] at h
  · rw [hshed] at h
    exact h.elim
  · rw [hhealthy] at h
    exact h.elim

theorem good_offered (h : w.Good setup) (cameraId : CameraId) (ports : OfferPorts) :
    (w.offered setup cameraId ports).2.Good setup := by
  obtain ⟨hcounts, hfollows⟩ := h
  cases hends : w.scheduler.endsAlarm setup.scheduler ports.now setup.actor.cameraId with
  | true =>
    have hhistory : (w.offered setup cameraId ports).2.history = .alarmEnded :: w.history := by
      unfold offered
      rw [hends, if_pos rfl]
    unfold Good
    rw [hhistory]
    exact ⟨hcounts, hfollows.alarmEnded blinded_of_offered⟩
  | false =>
    have hhistory : (w.offered setup cameraId ports).2.history = w.history := by
      unfold offered
      rw [hends]
      rfl
    unfold Good
    rw [hhistory]
    refine ⟨hcounts, ?_⟩
    show Follows _ w.history ((w.offered setup cameraId ports).2.reported setup)
    obtain hsame | hshed | ⟨-, hends'⟩ :=
      @reported_offered setup w cameraId ports
    · rw [hsame]
      exact hfollows
    · rw [hshed]
      exact follows_of_reported (by simp) id
    · rw [hends] at hends'
      cases hends'

theorem good_sinks (h : w.Good setup) (now : Instant) (ports : OfferPorts) :
    (w.sinks setup now ports).Good setup := by
  have hoffered := good_offered h setup.actor.cameraId ports
  have hblinded := @blinded_of_offered setup w setup.actor.cameraId ports
  unfold sinks
  rcases hcall : w.offered setup setup.actor.cameraId ports with ⟨result, w'⟩
  rw [hcall] at hoffered hblinded
  cases result with
  | error exc => exact SourceActor.good_afterStream_error hoffered.counts exc
  | ok verdict =>
    obtain ⟨hcounts, hfollows⟩ := hoffered
    dsimp only
    have hadmitted : ∀ fate : PacketFate,
        (fate = .refused ∨ fate = .admitted (Blinded (w.reported setup))) →
        Good setup { w' with history := .packet fate :: w'.history } := by
      intro fate hfate
      have hdecode : fate ≠ .decodeFailed := by
        obtain rfl | rfl := hfate <;> simp
      refine ⟨?_, hfollows.packet ?_ hdecode ?_⟩
      · show decodeRun (fate :: fates w'.history) ≤ _
        rw [decodeRun_of_ne hdecode]
        exact Nat.zero_le _
      · obtain rfl | rfl := hfate <;> simp
      · -- the roll of the window blinds no camera that was not blinded
        rintro rfl hreport
        obtain hrefused | hfate := hfate
        · cases hrefused
        · have hnot := of_decide_eq_false (PacketFate.admitted.inj hfate).symm
          exact hnot (hblinded hreport)
    split
    · exact hadmitted _ (.inr rfl)
    · exact hadmitted _ (.inl rfl)

theorem good_step (h : w.Good setup) (input : FeedInput) : (w.step setup input).Good setup := by
  cases input with
  | happens happening sink =>
    have hmoved : (w.moves setup happening).Good setup := SourceActor.good_step h happening
    unfold step
    dsimp only
    split
    · cases sink with
      | none => exact hmoved
      | some ports => exact good_sinks hmoved happening.now ports
    · exact hmoved
  | offers cameraId ports => exact good_offered h cameraId ports
  | completes cameraId => exact h
  | registers cameraId profile semantics => exact h
  | forgets cameraId => exact h
  | overrides cameraId fps expires =>
    unfold step
    dsimp only
    split
    · exact h
    · exact h

def run (setup : FeedSetup) (lastEpoch : Int) (health : Kernel.HealthMonitor)
    (scheduler : FrameScheduler) (inputs : List FeedInput) : CameraFeed :=
  Runs.run (step setup) (start setup lastEpoch health scheduler) inputs

/-- The report follows the packets, whoever wrote it last and whatever came in between. -/
def Truthful (setup : FeedSetup) (w : CameraFeed) : Prop :=
  ((fates w.history).head? = some .maskFailed ∨
      (0 < decodeRun (fates w.history) ∧
        setup.actor.config.maxConsecutiveDecodeErrors ≤ decodeRun (fates w.history)) ∨
      streamLost w.history = true →
    (w.reported setup).1 ≠ .healthy) ∧
  ∀ blinded, (fates w.history).head? = some (.admitted blinded) → ¬ Blinded (w.reported setup)

instance (w : CameraFeed) : Decidable (w.Truthful setup) := by
  unfold Truthful
  infer_instance

/-- After every run the report follows the packets, the latest of which came since the camera was
    connected, up to what the end of the scheduler's alarm overwrote since, and to what was
    reported already when the latest frame was offered. -/
theorem report_follows (setup : FeedSetup) (lastEpoch : Int) (health : Kernel.HealthMonitor)
    (scheduler : FrameScheduler) (inputs : List FeedInput) :
    Follows setup.actor.config.maxConsecutiveDecodeErrors
      (run setup lastEpoch health scheduler inputs).history
      ((run setup lastEpoch health scheduler inputs).reported setup) := by
  have hstart : Good setup (start setup lastEpoch health scheduler) := by
    exact ⟨le_rfl, follows_nil⟩
  have hstep : ∀ w input, Good setup w → Good setup (step setup w input) :=
    fun _ input h => good_step h input
  exact (Runs.run_invariant hstep hstart inputs).follows

section Dock

private def dockFeedSetup : FeedSetup where
  actor :=
    { cameraId := "dock"
      sourceSemantics := .realtime
      config := { maxConsecutiveDecodeErrors := 2, accepted := rfl } }
  scheduler := { accepted := by decide +kernel }

private def dockProfile : PipelineProfile where
  profileId := "dock"
  targetFps := .finite 5
  accepted := by decide +kernel

private def second (seconds : Int) : Instant := ⟨seconds * 1000000000⟩

private def moment (seconds : Int) (input : ActorInput) (sink : Option OfferPorts := none) :
    FeedInput :=
  .happens { now := second seconds, monotonicNs := seconds * 1000000000, input } sink

private def offerAt (seconds : Int) (verdict : AdmissionVerdict) : OfferPorts where
  now := second seconds
  rolled := second seconds
  pressed := second seconds
  wall := second seconds
  evaluate _ := .ok verdict

private def connected : List FeedInput :=
  [.registers "dock" dockProfile .realtime, moment 0 .wakes, moment 0 (.opens {})]

private def packetAt (seconds : Int) (ports : PacketPorts) (sink : Option OfferPorts := none) :
    List FeedInput :=
  [moment seconds .packet, moment seconds (.acquires ports) sink]

private def dock (inputs : List FeedInput) : CameraFeed :=
  run dockFeedSetup 0 {} (.start ⟨0⟩) (connected ++ inputs)

private def admitting : AdmissionVerdict := { admitted := true, accepted := rfl }

/-- A frame is admitted, and then the stream is lost. -/
private def lostLater : List FeedInput :=
  packetAt 1 {} (some (offerAt 1 admitting)) ++
    [moment 1 (.delivers (.ok ())), moment 2 (.breaks (.streamLostError "reset"))]

private def reconnected : List FeedInput :=
  packetAt 1 { masked := .ok .maskFailed } ++
    [moment 2 (.breaks (.streamLostError "reset")), moment 3 .wakes, moment 3 (.opens {})]

/-- Shed frames raise the alarm, a masking fails, and the alarm ends. -/
private def alarmOver : List FeedInput :=
  packetAt 1 {} (some (offerAt 1 (.refuse .budgetExhausted))) ++ [moment 1 (.delivers (.ok ()))] ++
    packetAt 6 {} (some (offerAt 6 admitting)) ++ [moment 6 (.delivers (.ok ()))] ++
    packetAt 7 { masked := .ok .maskFailed } ++ [.offers "gate" (offerAt 12 admitting)]

/-- Two packets fail to decode, and the next frame is admitted. -/
private def recovered : List FeedInput :=
  packetAt 1 { decoded := .error (.decodeError "bad") } ++
    packetAt 2 { decoded := .error (.decodeError "bad") } ++
    packetAt 3 {} (some (offerAt 3 admitting))

/-- What is reported at the end of each of these runs does not follow the packets. -/
theorem dock_report_does_not_follow :
    ((dock lostLater).reported dockFeedSetup = (.blind, .streamDisconnected) ∧
      ¬ (dock lostLater).Truthful dockFeedSetup) ∧
    ((dock reconnected).reported dockFeedSetup = (.healthy, .normal) ∧
      ¬ (dock reconnected).Truthful dockFeedSetup) ∧
    ((dock alarmOver).reported dockFeedSetup = (.healthy, .normal) ∧
      ¬ (dock alarmOver).Truthful dockFeedSetup) ∧
    ((dock recovered).reported dockFeedSetup = (.degraded, .decodeFailing) ∧
      ¬ (dock recovered).Truthful dockFeedSetup) := by
  decide +kernel

end Dock

end CameraFeed

end VisionOs.Acquisition
