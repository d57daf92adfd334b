/-
  What becomes of the slot that an actor takes for a packet.  Between the decoding and the
  publishing stand the estimate of the capture time and the constructors, and nothing there gives
  the slot back.
-/
import VisionOs.Acquisition.Numbering

namespace VisionOs.Acquisition

open Core Lib Effect BufferRequest FrameTimeFields FrameRefFields

def BufferRequest.takes : BufferRequest → Bool
  | acquireSlot => true
  | discardSlot | publish _ _ => false

def BufferRequest.givesBack (ports : PacketPorts) : BufferRequest → Bool
  | acquireSlot => false
  | discardSlot => ports.discarded.isOk
  | publish _ _ => ports.published.isOk

/-- The packet was decoded and masked, and its frame may be emitted. -/
def PacketPorts.Passes (ports : PacketPorts) : Prop :=
  ports.decoded = .ok () ∧ ∃ state, ports.masked = .ok state ∧ state.emittable = true

namespace SourceActor

/-- The move makes these requests of the buffer, in order. -/
def Asks (s : SourceActor) (requests : List BufferRequest) (s' : SourceActor) : Prop :=
  s'.bufferCalls = s.bufferCalls ++ requests

/-- As many slots are given back as were taken. -/
def SlotsBack (ports : PacketPorts) (s s' : SourceActor) : Prop :=
  ∃ requests, Asks s requests s' ∧
    requests.countP takes = requests.countP (givesBack ports)

/-- The capture time is estimated, and the constructors accept it and the frame's number. -/
def Nameable (ports : PacketPorts) (s : SourceActor) : Prop :=
  (∃ estimate, ports.estimated = .ok estimate ∧ 0 ≤ estimate.uncertainty.ns) ∧
    0 ≤ s.epoch ∧ 0 ≤ s.seq

/-- What brings the slot of a packet back: a frame that passes is numbered, timed and taken by
    the buffer, and any other slot can be discarded. -/
def SlotSafe (ports : PacketPorts) (s : SourceActor) : Prop :=
  s.stop = false → ports.acquired = .ok () →
    (ports.Passes → Nameable ports s ∧ ports.published = .ok ()) ∧
      (¬ ports.Passes → ports.discarded = .ok ())

variable {setup : SourceActorSetup} {now : Instant} {ports : PacketPorts}
  {s s' s'' : SourceActor} {requests requests' : List BufferRequest}

theorem Asks.trans (h : Asks s requests s') (h' : Asks s' requests' s'') :
    Asks s (requests ++ requests') s'' := by
  show s''.bufferCalls = s.bufferCalls ++ (requests ++ requests')
  rw [h', h, List.append_assoc]

theorem Asks.same (h : Asks s requests s') (h' : Asks s' [] s'') : Asks s requests s'' := by
  have := h.trans h'
  rwa [List.append_nil] at this

theorem asks_nil (h : s'.bufferCalls = s.bufferCalls) : Asks s [] s' := by
  show s'.bufferCalls = s.bufferCalls ++ []
  rw [h, List.append_nil]

theorem isOk_iff {x : Raises Unit} : x.isOk = true ↔ x = .ok () := by
  cases x <;> simp [Except.isOk, Except.toBool]

theorem slotsBack_iff_of_request {request : BufferRequest}
    (h : Asks s [.acquireSlot, request] s') (hrequest : request.takes = false) :
    SlotsBack ports s s' ↔ request.givesBack ports = true := by
  have hmade : ∀ requests, Asks s requests s' ↔ requests = [.acquireSlot, request] := by
    intro requests
    unfold Asks at h ⊢
    rw [h, List.append_cancel_left_eq]
    exact eq_comm
  unfold SlotsBack
  simp only [hmade, exists_eq_left]
  cases request with
  | acquireSlot => cases hrequest
  | discardSlot =>
    have htaken : [BufferRequest.acquireSlot, .discardSlot].countP BufferRequest.takes = 1 := rfl
    rw [htaken]
    cases hok : ports.discarded.isOk <;> simp [givesBack, hok]
  | publish ref state =>
    have htaken : [BufferRequest.acquireSlot, .publish ref state].countP BufferRequest.takes = 1 :=
      rfl
    rw [htaken]
    cases hok : ports.published.isOk <;> simp [givesBack, hok]

theorem not_slotsBack_of_none (h : Asks s [.acquireSlot] s') : ¬ SlotsBack ports s s' := by
  rintro ⟨requests, hasks, hcount⟩
  unfold Asks at h hasks
  rw [h, List.append_cancel_left_eq] at hasks
  subst hasks
  simp [takes, givesBack] at hcount

theorem slotsBack_of_nothing (h : Asks s [] s') : SlotsBack ports s s' := ⟨[], h, rfl⟩

/-! ## The way of a packet -/

theorem asks_onDecodeError (reason : Message) : Asks s [] (onDecodeError setup now reason s) := by
  refine asks_nil ?_
  unfold onDecodeError
  dsimp only
  split
  · rfl
  · rfl

theorem discard_and_report_asks {report : SourceActor → SourceActor}
    (hreport : ∀ s, Asks s [] (report s)) (ports : PacketPorts) :
    (do discardSlot ports; Effect.modify report; pure false :
      Effect PyException SourceActor Bool).wp (fun _ s' => Asks s [.discardSlot] s')
        (fun _ s' => Asks s [.discardSlot] s') s := by
  unfold discardSlot
  rw [wp_bind, wp_bind, wp_modify, wp_ofExcept]
  have hcall : Asks s [.discardSlot] (calls .discardSlot s) := rfl
  refine ⟨fun _ _ => ?_, fun _ _ => hcall⟩
  rw [wp_bind, wp_modify]
  exact hcall.same (hreport _)

theorem publishFrame_asks (ports : PacketPorts) (state : PrivacyState) :
    (publishFrame setup now ports state).wp
      (fun _ s' => Nameable ports s ∧ ∃ ref, Asks s [.publish ref state] s')
      (fun _ s' => (Nameable ports s ∧ ∃ ref, Asks s [.publish ref state] s') ∨
        (¬ Nameable ports s ∧ Asks s [] s')) s := by
  unfold publishFrame
  rw [wp_bind, wp_ofExcept]
  refine ⟨fun estimate hestimate => ?_, fun exc hestimate => .inr ⟨?_, asks_nil rfl⟩⟩
  · rw [wp_bind, wp_modify, wp_bind, wp_read, wp_bind,
      wp_ofExcept]
    have hnoted : Asks s [] (noteClockQuality estimate.quality s) ∧
        (noteClockQuality estimate.quality s).epoch = s.epoch ∧
        (noteClockQuality estimate.quality s).seq = s.seq := by
      unfold noteClockQuality
      split
      · exact ⟨asks_nil rfl, rfl, rfl⟩
      · exact ⟨asks_nil rfl, rfl, rfl⟩
    obtain ⟨hasked, hepoch, hseq⟩ := hnoted
    generalize noteClockQuality estimate.quality s = t at hasked hepoch hseq ⊢
    refine ⟨fun frameRef href => ?_, fun exc href => .inr ⟨?_, hasked⟩⟩
    · obtain ⟨haccepted, rfl⟩ := constructWith_eq_ok_iff.mp href
      have hnumber : 0 ≤ t.epoch ∧ 0 ≤ t.seq := postInit_eq_ok.mp haccepted
      rw [hepoch, hseq] at hnumber
      have hcounted : Asks s [] { t with seq := t.seq + 1 } := hasked.same (asks_nil rfl)
      rw [wp_bind, wp_modify, wp_bind, wp_ofExcept]
      refine ⟨fun _ htime => ?_, fun exc htime => .inr ⟨?_, hcounted⟩⟩
      · obtain ⟨htimed, -⟩ := constructWith_eq_ok_iff.mp htime
        have hnameable : Nameable ports s :=
          ⟨⟨estimate, hestimate, postInit_eq_ok.mp htimed⟩, hnumber⟩
        have hpublish : Asks s [.publish ⟨_, haccepted⟩ state]
            (calls (.publish ⟨_, haccepted⟩ state) { t with seq := t.seq + 1 }) :=
          hcounted.trans rfl
        rw [wp_bind, wp_modify, wp_bind, wp_ofExcept]
        refine ⟨fun _ _ => ?_, fun _ _ => .inl ⟨hnameable, _, hpublish⟩⟩
        exact ⟨hnameable, _, hpublish.same (asks_nil rfl)⟩
      · -- the estimate's uncertainty is negative
        rintro ⟨⟨estimate', hestimate', huncertainty⟩, -⟩
        obtain rfl := Except.ok.inj (hestimate.symm.trans hestimate')
        exact postInit_ne_ok htime (postInit_eq_ok.mpr huncertainty)
    · -- the frame's number is negative
      rintro ⟨-, hnumber⟩
      rw [← hepoch, ← hseq] at hnumber
      exact postInit_ne_ok href (postInit_eq_ok.mpr hnumber)
  · rintro ⟨⟨estimate, hok, -⟩, -⟩
    rw [hestimate] at hok
    cases hok

def Disposes (ports : PacketPorts) (s s' : SourceActor) : Prop :=
  (ports.Passes ∧ Nameable ports s ∧ ∃ ref state, Asks s [.publish ref state] s') ∨
    (ports.Passes ∧ ¬ Nameable ports s ∧ Asks s [] s') ∨
      (¬ ports.Passes ∧ Asks s [.discardSlot] s')

theorem decodePacket_disposes (ports : PacketPorts) :
    (decodePacket setup now ports).wp (fun _ s' => Disposes ports s s')
      (fun _ s' => Disposes ports s s') s := by
  have hdiscards : ∀ {report : SourceActor → SourceActor} {t : SourceActor},
      ¬ ports.Passes → Asks s [] t → (∀ s, Asks s [] (report s)) →
        (do discardSlot ports; Effect.modify report; pure false :
          Effect PyException SourceActor Bool).wp (fun _ s' => Disposes ports s s')
            (fun _ s' => Disposes ports s s') t := by
    intro report t hnot ht hreport
    refine wp_mono (fun _ s' hs' => ?_) (fun _ s' hs' => ?_)
      (discard_and_report_asks hreport ports)
    · exact .inr (.inr ⟨hnot, ht.trans hs'⟩)
    · exact .inr (.inr ⟨hnot, ht.trans hs'⟩)
  have hmask : ∀ reason s, Asks s [] (onMaskFailure setup now reason s) :=
    fun reason s => asks_nil rfl
  unfold decodePacket
  split
  · rename_i exc hdecoded
    have hnot : ¬ ports.Passes := by
      rintro ⟨hok, -⟩
      rw [hdecoded] at hok
      cases hok
    exact hdiscards hnot (asks_nil rfl) fun _ => asks_onDecodeError _
  · rename_i hdecoded
    rw [wp_bind, wp_modify]
    have hreset : Asks s [] { s with stats := { s.stats with consecutiveDecodeErrors := 0 } } :=
      asks_nil rfl
    split
    · rename_i exc hmasked
      have hnot : ¬ ports.Passes := by
        rintro ⟨-, state, hok, -⟩
        rw [hmasked] at hok
        cases hok
      exact hdiscards hnot hreset (hmask _)
    · rename_i state hmasked
      split
      · rename_i hemittable
        have hpasses : ports.Passes := ⟨hdecoded, state, hmasked, hemittable⟩
        rw [wp_bind]
        refine wp_mono (fun _ s' hs' => ?_) (fun _ s' hs' => ?_)
          (publishFrame_asks ports state)
        · obtain ⟨hnameable, ref, hasks⟩ := hs'
          exact .inl ⟨hpasses, hnameable, ref, state, hreset.trans hasks⟩
        · rcases hs' with ⟨hnameable, ref, hasks⟩ | ⟨hnot, hasks⟩
          · exact .inl ⟨hpasses, hnameable, ref, state, hreset.trans hasks⟩
          · exact .inr (.inl ⟨hpasses, hnot, hreset.trans hasks⟩)
      · rename_i hemittable
        have hnot : ¬ ports.Passes := by
          rintro ⟨-, state', hok, hemits⟩
          rw [hmasked] at hok
          obtain rfl := Except.ok.inj hok
          exact hemittable hemits
        exact hdiscards hnot hreset (hmask _)

theorem Disposes.slotsBack_iff {t : SourceActor} (htaken : Asks s [.acquireSlot] t)
    (hnumbers : t.epoch = s.epoch ∧ t.seq = s.seq) (h : Disposes ports t s') :
    SlotsBack ports s s' ↔ (ports.Passes → Nameable ports s ∧ ports.published = .ok ()) ∧
      (¬ ports.Passes → ports.discarded = .ok ()) := by
  have hnameable : Nameable ports t ↔ Nameable ports s := by
    unfold Nameable
    rw [hnumbers.1, hnumbers.2]
  rcases h with ⟨hpasses, hnamed, ref, state, hasks⟩ | ⟨hpasses, hnot, hasks⟩ | ⟨hnot, hasks⟩
  · rw [slotsBack_iff_of_request (htaken.trans hasks) rfl]
    show ports.published.isOk = true ↔ _
    rw [isOk_iff]
    constructor
    · exact fun hpublished => ⟨fun _ => ⟨hnameable.mp hnamed, hpublished⟩, fun h => absurd hpasses h⟩
    · exact fun h => (h.1 hpasses).2
  · constructor
    · exact fun hback => absurd hback (not_slotsBack_of_none (htaken.same hasks))
    · exact fun h => absurd (hnameable.mpr (h.1 hpasses).1) hnot
  · rw [slotsBack_iff_of_request (htaken.trans hasks) rfl]
    show ports.discarded.isOk = true ↔ _
    rw [isOk_iff]
    constructor
    · exact fun hdiscarded => ⟨fun h => absurd h hnot, fun _ => hdiscarded⟩
    · exact fun h => h.2 hnot

theorem handlePacket_slotsBack_iff (setup : SourceActorSetup) (now : Instant)
    (ports : PacketPorts) (s : SourceActor) :
    SlotsBack ports s (handlePacket setup now ports s).2 ↔ SlotSafe ports s := by
  rw [← wp_state (I := fun s' => SlotsBack ports s s' ↔ SlotSafe ports s)]
  have hnothing : ∀ {s'}, Asks s [] s' → (s.stop = false → ports.acquired ≠ .ok ()) →
      (SlotsBack ports s s' ↔ SlotSafe ports s) := by
    intro s' hasks hnone
    refine iff_of_true (slotsBack_of_nothing hasks) fun hgoes hacquired => ?_
    exact absurd hacquired (hnone hgoes)
  unfold handlePacket acquireSlot
  rw [wp_bind, wp_bind, wp_read]
  split
  · rename_i hstop
    refine hnothing (asks_nil rfl) fun hgoes => ?_
    rw [hstop] at hgoes
    cases hgoes
  · rename_i hstop
    have hgoes : s.stop = false := by simpa using hstop
    split
    · -- a slot was taken
      rename_i hacquired
      have htaken : Asks s [.acquireSlot] (calls .acquireSlot s) := rfl
      have hiff : ∀ s', Disposes ports (calls .acquireSlot s) s' →
          (SlotsBack ports s s' ↔ SlotSafe ports s) := by
        intro s' hs'
        rw [hs'.slotsBack_iff htaken ⟨rfl, rfl⟩]
        exact ⟨fun h _ _ => h, fun h => h hgoes hacquired⟩
      rw [wp_bind, wp_modify, wp_pure]
      rw [wp_bind]
      exact wp_mono (fun _ s' hs' => hiff s' hs') (fun _ s' hs' => hiff s' hs')
        (decodePacket_disposes ports)
    · rename_i message hacquired
      have hnone : s.stop = false → ports.acquired ≠ .ok () := by
        rw [hacquired]
        exact fun _ => nofun
      have hdrop : Asks s [] (recordDrop "pool_pressure" s) := asks_nil rfl
      rw [wp_bind, wp_modify]
      split
      · exact hnothing hdrop hnone
      · rw [wp_bind, wp_ofExcept]
        exact ⟨fun _ _ => hnothing hdrop hnone, fun _ _ => hnothing hdrop hnone⟩
    · rename_i exc _ hacquired
      refine hnothing (asks_nil rfl) fun _ => ?_
      rw [hacquired]
      nofun

end SourceActor

end VisionOs.Acquisition
