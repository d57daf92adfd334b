/-
  How an actor numbers its frames: the epoch is taken when it connects and the sequence starts
  again, and a packet hands the next number to the buffer.
-/
import VisionOs.Acquisition.ActorMoves

namespace VisionOs.Acquisition

open Core Lib Effect

namespace SourceActor

def handedOn (s : SourceActor) : List FrameRef :=
  s.bufferCalls.filterMap fun
    | .publish frameRef _ => some frameRef
    | .acquireSlot | .discardSlot => none

/-- The move hands on no frame and takes no epoch. -/
structure SameNumbers (s s' : SourceActor) : Prop where
  epoch : s'.epoch = s.epoch
  seq : s.seq ≤ s'.seq
  lastEpoch : s'.lastEpoch = s.lastEpoch
  handedOn : s'.handedOn = s.handedOn

theorem SameNumbers.refl (s : SourceActor) : SameNumbers s s := ⟨rfl, le_rfl, rfl, rfl⟩

variable {s'' : SourceActor}

theorem SameNumbers.trans {s s' : SourceActor} (h : SameNumbers s s')
    (h' : SameNumbers s' s'') : SameNumbers s s'' :=
  ⟨h'.epoch.trans h.epoch, h.seq.trans h'.seq, h'.lastEpoch.trans h.lastEpoch,
    h'.handedOn.trans h.handedOn⟩

/-- A number of the session was handed on, and the next comes after it. -/
structure HandsOn (setup : SourceActorSetup) (s s' : SourceActor) : Prop where
  epoch : s'.epoch = s.epoch
  lastEpoch : s'.lastEpoch = s.lastEpoch
  handedOn : ∃ ref : FrameRef, ref.cameraId = setup.cameraId ∧ ref.streamEpoch = s.epoch ∧
    s.seq ≤ ref.frameSeq ∧ ref.frameSeq < s'.seq ∧ s'.handedOn = s.handedOn ++ [ref]

/-- The move numbers nothing, or numbers one frame next. -/
def Counts (setup : SourceActorSetup) (s s' : SourceActor) : Prop :=
  SameNumbers s s' ∨ HandsOn setup s s'

variable {setup : SourceActorSetup} {now : Instant} {s s' : SourceActor}

theorem SameNumbers.counts (h : SameNumbers s s') (h' : Counts setup s' s'') :
    Counts setup s s'' := by
  rcases h' with h' | ⟨hepoch, hlast, ref, hcamera, hrefEpoch, hfrom, hbelow, hhanded⟩
  · exact .inl (h.trans h')
  · refine .inr ⟨hepoch.trans h.epoch, hlast.trans h.lastEpoch, ref, hcamera, ?_,
      h.seq.trans hfrom, hbelow, ?_⟩
    · rw [hrefEpoch, h.epoch]
    · rw [hhanded, h.handedOn]

theorem Counts.same (h : Counts setup s s') (h' : SameNumbers s' s'') : Counts setup s s'' := by
  rcases h with h | ⟨hepoch, hlast, ref, hcamera, hrefEpoch, hfrom, hbelow, hhanded⟩
  · exact .inl (h.trans h')
  · refine .inr ⟨h'.epoch.trans hepoch, h'.lastEpoch.trans hlast, ref, hcamera, hrefEpoch,
      hfrom, hbelow.trans_le h'.seq, ?_⟩
    rw [h'.handedOn, hhanded]

/-! ## The packet path -/

theorem sameNumbers_onDecodeError (reason : Message) :
    SameNumbers s (onDecodeError setup now reason s) := by
  unfold onDecodeError
  dsimp only
  split
  · exact ⟨rfl, le_rfl, rfl, rfl⟩
  · exact ⟨rfl, le_rfl, rfl, rfl⟩

theorem sameNumbers_noteClockQuality (quality : ClockQuality) :
    SameNumbers s (noteClockQuality quality s) := by
  unfold noteClockQuality
  split
  · exact .refl s
  · exact ⟨rfl, le_rfl, rfl, rfl⟩

theorem handedOn_calls_publish (frameRef : FrameRef) (privacyState : PrivacyState) :
    (calls (.publish frameRef privacyState) s).handedOn = s.handedOn ++ [frameRef] := by
  unfold calls handedOn
  rw [List.filterMap_append]
  rfl

theorem handedOn_calls_discardSlot : (calls .discardSlot s).handedOn = s.handedOn := by
  unfold calls handedOn
  rw [List.filterMap_append]
  exact List.append_nil _

theorem handedOn_calls_acquireSlot : (calls .acquireSlot s).handedOn = s.handedOn := by
  unfold calls handedOn
  rw [List.filterMap_append]
  exact List.append_nil _

theorem discardSlot_numbers (ports : PacketPorts) :
    (discardSlot ports).wp (fun _ s' => SameNumbers s s') (fun _ s' => SameNumbers s s') s := by
  unfold discardSlot
  rw [wp_bind, wp_modify, wp_ofExcept]
  have hcall : SameNumbers s (calls .discardSlot s) :=
    ⟨rfl, le_rfl, rfl, handedOn_calls_discardSlot⟩
  exact ⟨fun _ _ => hcall, fun _ _ => hcall⟩

theorem acquireSlot_numbers (ports : PacketPorts) :
    (acquireSlot setup ports).wp
      (fun turn s' => SameNumbers s s' ∧ (turn = .slot → s.stop = false))
      (fun _ s' => SameNumbers s s') s := by
  unfold acquireSlot
  rw [wp_bind, wp_read]
  split
  · exact ⟨.refl s, nofun⟩
  rename_i hstop
  have hgoes : s.stop = false := by simpa using hstop
  split
  · exact ⟨⟨rfl, le_rfl, rfl, handedOn_calls_acquireSlot⟩, fun _ => hgoes⟩
  · rw [wp_bind, wp_modify]
    have hdrop : SameNumbers s (recordDrop "pool_pressure" s) := ⟨rfl, le_rfl, rfl, rfl⟩
    split
    · exact ⟨hdrop, nofun⟩
    · rw [wp_bind, wp_ofExcept]
      exact ⟨fun _ _ => ⟨hdrop, nofun⟩, fun _ _ => hdrop⟩
  · exact .refl s

/-- Publishing a frame hands on the next number, whether the buffer takes it or raises; a frame
    whose times are refused leaves its number out. -/
theorem publishFrame_numbers (ports : PacketPorts) (privacyState : PrivacyState) :
    (publishFrame setup now ports privacyState).wp (fun _ s' => Counts setup s s')
      (fun _ s' => Counts setup s s') s := by
  unfold publishFrame
  rw [wp_bind, wp_ofExcept]
  refine ⟨fun estimate _ => ?_, fun _ _ => .inl (.refl s)⟩
  rw [wp_bind, wp_modify, wp_bind, wp_read, wp_bind,
    wp_ofExcept]
  have hnoted : SameNumbers s (noteClockQuality estimate.quality s) :=
    sameNumbers_noteClockQuality _
  generalize noteClockQuality estimate.quality s = t at hnoted ⊢
  refine ⟨fun frameRef href => ?_, fun _ _ => .inl hnoted⟩
  obtain ⟨haccepted, rfl⟩ := constructWith_eq_ok_iff.mp href
  have hnext : t.seq < t.seq + 1 := by omega
  rw [wp_bind, wp_modify, wp_bind, wp_ofExcept]
  refine ⟨fun _ _ => ?_, fun _ _ => .inl (hnoted.trans ⟨rfl, hnext.le, rfl, rfl⟩)⟩
  have hhands : HandsOn setup t (calls (.publish ⟨_, haccepted⟩ privacyState)
      { t with seq := t.seq + 1 }) :=
    ⟨rfl, rfl, _, rfl, rfl, le_rfl, hnext, handedOn_calls_publish _ _⟩
  have hcounts := hnoted.counts (.inr hhands)
  rw [wp_bind, wp_modify, wp_bind, wp_ofExcept]
  refine ⟨fun _ _ => ?_, fun _ _ => hcounts⟩
  exact hcounts.same ⟨rfl, le_rfl, rfl, rfl⟩

theorem discard_and_report_numbers {report : SourceActor → SourceActor}
    (hreport : ∀ s, SameNumbers s (report s)) (ports : PacketPorts) :
    (do discardSlot ports; Effect.modify report; pure false :
      Effect PyException SourceActor Bool).wp (fun _ s' => Counts setup s s')
        (fun _ s' => Counts setup s s') s := by
  rw [wp_bind]
  refine wp_mono (fun _ s' hs' => ?_) (fun _ _ hs' => .inl hs') (discardSlot_numbers ports)
  rw [wp_bind, wp_modify]
  exact .inl (hs'.trans (hreport s'))

theorem decodePacket_numbers (ports : PacketPorts) :
    (decodePacket setup now ports).wp (fun _ s' => Counts setup s s')
      (fun _ s' => Counts setup s s') s := by
  have hdecode : ∀ reason s, SameNumbers s (onDecodeError setup now reason s) :=
    fun reason s => sameNumbers_onDecodeError reason
  have hmask : ∀ reason s, SameNumbers s (onMaskFailure setup now reason s) :=
    fun reason s => ⟨rfl, le_rfl, rfl, rfl⟩
  unfold decodePacket
  split
  · exact discard_and_report_numbers (hdecode _) ports
  rw [wp_bind, wp_modify]
  have hreset : SameNumbers s
      { s with stats := { s.stats with consecutiveDecodeErrors := 0 } } := ⟨rfl, le_rfl, rfl, rfl⟩
  refine wp_mono (fun _ s' hs' => hreset.counts hs') (fun _ _ hs' => hreset.counts hs') ?_
  split
  · exact discard_and_report_numbers (hmask _) ports
  · split
    · rw [wp_bind]
      exact publishFrame_numbers ports _
    · exact discard_and_report_numbers (hmask _) ports

theorem handlePacket_numbers (ports : PacketPorts) :
    (handlePacket setup now ports).wp
      (fun _ s' => SameNumbers s s' ∨ (s.stop = false ∧ HandsOn setup s s'))
      (fun _ s' => SameNumbers s s' ∨ (s.stop = false ∧ HandsOn setup s s')) s := by
  have hcounts : ∀ {s'}, s.stop = false → Counts setup s s' →
      SameNumbers s s' ∨ (s.stop = false ∧ HandsOn setup s s') :=
    fun hstop h => h.imp_right fun h => ⟨hstop, h⟩
  unfold handlePacket
  rw [wp_bind]
  refine wp_mono (fun turn t ht => ?_) (fun _ _ ht => .inl ht) (acquireSlot_numbers ports)
  cases turn with
  | noSlot => exact .inl ht.1
  | waiting => exact .inl ht.1
  | slot =>
    rw [wp_bind]
    refine wp_mono (fun frame u hu => ?_) (fun _ u hu => ?_) (decodePacket_numbers ports)
    · exact hcounts (ht.2 rfl) (ht.1.counts hu)
    · exact hcounts (ht.2 rfl) (ht.1.counts hu)

/-- What the allocator issued, whether the connection went on or not. -/
structure Takes (s s' : SourceActor) : Prop where
  lastEpoch : s'.lastEpoch = s.lastEpoch ∨ s'.lastEpoch = s.lastEpoch + 1
  handedOn : s'.handedOn = s.handedOn

theorem connect_numbers (ports : ConnectPorts) :
    (connect setup now ports).wp
      (fun _ s' => Takes s s' ∧ s'.epoch = s.lastEpoch + 1 ∧ s'.lastEpoch = s.lastEpoch + 1 ∧
        s'.seq = 0 ∧ ports.opened = .ok () ∧ ports.epochs = .works)
      (fun _ s' => Takes s s') s := by
  unfold connect
  rw [wp_bind, wp_ofExcept]
  refine ⟨fun _ hopened => ?_, fun _ _ => ⟨.inl rfl, rfl⟩⟩
  rw [wp_bind, wp_modify, wp_bind]
  unfold nextEpoch
  rw [wp_bind, wp_read]
  cases hepochs : ports.epochs with
  | readRaises exc => exact ⟨.inl rfl, rfl⟩
  | recordRaises exc kept =>
    rw [wp_bind, wp_modify, wp_raise]
    cases kept with
    | false => exact ⟨.inl rfl, rfl⟩
    | true => exact ⟨.inr rfl, rfl⟩
  | works =>
    rw [wp_bind, wp_modify, wp_pure, wp_bind, wp_modify,
      wp_bind, wp_ofExcept]
    refine ⟨fun _ _ => ?_, fun _ _ => ⟨.inr rfl, rfl⟩⟩
    rw [wp_bind, wp_ofExcept]
    refine ⟨fun _ _ => ?_, fun _ _ => ⟨.inr rfl, rfl⟩⟩
    exact ⟨⟨.inr rfl, rfl⟩, rfl, rfl, rfl, hopened, rfl⟩

/-! ## A moment of a run -/

inductive Numbers (setup : SourceActorSetup) (s : SourceActor) (h : Happening)
    (s' : SourceActor) : Prop where
  | same (numbers : SameNumbers s s')
      (session : s'.phase.inSession = true → s.phase.inSession = true)
  | takes (took : Takes s s') (before : s.phase = .opening)
      (session : s'.phase.inSession = true →
        s'.epoch = s.lastEpoch + 1 ∧ s'.lastEpoch = s.lastEpoch + 1 ∧ s'.seq = 0 ∧
          ∃ ports, h.input = .opens ports ∧ ports.opened = .ok () ∧ ports.epochs = .works)
  | handsOn (hands : HandsOn setup s s') (before : s.phase.inSession = true)
      (going : s.stop = false)

theorem sameNumbers_afterStream (result : Raises Bool) :
    SameNumbers s (afterStream setup now result s) ∧
      (afterStream setup now result s).phase.inSession = false := by
  have hlost : SameNumbers s (reportLoss setup now result s) := by
    unfold reportLoss
    split
    · exact .refl s
    · exact ⟨rfl, le_rfl, rfl, rfl⟩
    · exact ⟨rfl, le_rfl, rfl, rfl⟩
  unfold afterStream
  dsimp only
  split
  · exact ⟨⟨hlost.epoch, hlost.seq, hlost.lastEpoch, hlost.handedOn⟩, rfl⟩
  · exact ⟨⟨hlost.epoch, hlost.seq, hlost.lastEpoch, hlost.handedOn⟩, rfl⟩

variable {h : Happening}

theorem numbers_afterStream (result : Raises Bool) :
    Numbers setup s h (afterStream setup now result s) := by
  obtain ⟨hsame, hphase⟩ := @sameNumbers_afterStream setup now s result
  refine .same hsame fun hsession => ?_
  rw [hphase] at hsession
  cases hsession

theorem numbers_opens {ports : ConnectPorts} (hinput : h.input = .opens ports)
    (hphase : s.phase = .opening) :
    Numbers setup s h (opens setup h.now h.monotonicNs ports s) := by
  unfold opens
  rcases wp_cases (connect setup h.now ports) s (connect_numbers ports) with
    ⟨_, t, hcall, htakes, hepoch, hlast, hseq, hworks⟩ | ⟨exc, t, hcall, htakes⟩
  · rw [hcall]
    exact .takes ⟨htakes.lastEpoch, htakes.handedOn⟩ hphase fun _ =>
      ⟨hepoch, hlast, hseq, ports, hinput, hworks⟩
  rw [hcall]
  -- none of the ways on from an error is in a session
  split
  · rename_i hok
    cases (Prod.mk.inj hok).1
  · rename_i message t' heq
    obtain ⟨-, rfl⟩ := Prod.mk.inj heq
    exact .takes ⟨htakes.lastEpoch, htakes.handedOn⟩ hphase nofun
  · rename_i message t' heq
    obtain ⟨-, rfl⟩ := Prod.mk.inj heq
    unfold onConnectFailed
    dsimp only
    split
    · exact .takes ⟨htakes.lastEpoch, htakes.handedOn⟩ hphase nofun
    · exact .takes ⟨htakes.lastEpoch, htakes.handedOn⟩ hphase nofun
  · rename_i exc' t' _ _ heq
    obtain ⟨-, rfl⟩ := Prod.mk.inj heq
    exact .takes ⟨htakes.lastEpoch, htakes.handedOn⟩ hphase nofun

theorem numbers_acquires (ports : PacketPorts) (hphase : s.phase = .acquiring) :
    Numbers setup s h (acquires setup h.now ports s) := by
  have hsession : s.phase.inSession = true := by
    rw [hphase]
    rfl
  unfold acquires
  rcases wp_cases (handlePacket setup h.now ports) s (handlePacket_numbers ports) with
    ⟨phase, t, hcall, hspec⟩ | ⟨exc, t, hcall, hspec⟩
  · rw [hcall]
    rcases hspec with hsame | ⟨hstop, hepoch, hlast, hhanded⟩
    · exact .same ⟨hsame.epoch, hsame.seq, hsame.lastEpoch, hsame.handedOn⟩ fun _ => hsession
    · exact .handsOn ⟨hepoch, hlast, hhanded⟩ hsession hstop
  · rw [hcall]
    obtain ⟨hafter, -⟩ := @sameNumbers_afterStream setup h.now t (.error exc)
    rcases hspec with hsame | ⟨hstop, hhands⟩
    · exact .same (hsame.trans hafter) fun _ => hsession
    · obtain ⟨hepoch, hlast, ref, hcamera, hrefEpoch, hfrom, hbelow, hhanded⟩ := hhands
      refine .handsOn ⟨hafter.epoch.trans hepoch, hafter.lastEpoch.trans hlast, ref, hcamera,
        hrefEpoch, hfrom, hbelow.trans_le hafter.seq, ?_⟩ hsession hstop
      rw [hafter.handedOn, hhanded]

/-- Every moment leaves the numbering, takes an epoch, or hands on the next number. -/
theorem step_numbers (setup : SourceActorSetup) (s : SourceActor) (h : Happening) :
    Numbers setup s h (step setup s h) := by
  have hstays : Numbers setup s h s := .same (.refl s) id
  unfold step
  -- only `opens` takes an epoch and only `acquires` hands on a number
  cases hinput : h.input with
  | wakes =>
    dsimp only
    split
    · unfold wake
      split
      · exact .same ⟨rfl, le_rfl, rfl, rfl⟩ nofun
      · exact .same ⟨rfl, le_rfl, rfl, rfl⟩ nofun
    · exact hstays
  | opens ports =>
    dsimp only
    split
    · exact numbers_opens hinput ‹_›
    · exact hstays
  | packet =>
    dsimp only
    split
    · rename_i hphase
      unfold onPacket
      split
      · exact numbers_afterStream _
      · refine .same ⟨rfl, le_rfl, rfl, rfl⟩ fun _ => ?_
        rw [hphase]
        rfl
    · exact hstays
  | acquires ports =>
    dsimp only
    split
    · exact numbers_acquires ports ‹_›
    · exact hstays
  | delivers result =>
    dsimp only
    split
    · rename_i hphase
      unfold delivers
      split
      · refine .same ⟨rfl, le_rfl, rfl, rfl⟩ fun _ => ?_
        rw [hphase]
        rfl
      · exact numbers_afterStream _
    · exact hstays
  | ends cause =>
    dsimp only
    split
    · exact numbers_afterStream _
    · exact hstays
  | breaks exc =>
    dsimp only
    split
    · exact numbers_afterStream _
    · exact hstays
  | watchdog closes =>
    dsimp only
    split
    · unfold watch
      dsimp only
      split
      · exact .same ⟨rfl, le_rfl, rfl, rfl⟩ id
      · exact .same ⟨rfl, le_rfl, rfl, rfl⟩ id
    · exact hstays
  | stop closes => exact .same ⟨rfl, le_rfl, rfl, rfl⟩ id
  | stopReturns =>
    dsimp only
    split
    · unfold stopReturns
      dsimp only
      split
      · exact .same ⟨rfl, le_rfl, rfl, rfl⟩ id
      · exact .same ⟨rfl, le_rfl, rfl, rfl⟩ id
      all_goals exact .same ⟨rfl, le_rfl, rfl, rfl⟩ nofun
    · exact hstays

theorem stop_step (hstop : s.stop = true) : (step setup s h).stop = true := by
  cases step_moves setup s h with
  | stays same => rw [same]; exact hstop
  | goesOn kept => rw [kept.stop]; exact hstop
  | rests kept => rw [kept.stop]; exact hstop
  | opens kept => rw [kept.stop]; exact hstop
  | connects connected => rw [connected.stop]; exact hstop
  | returns kept => rw [kept.stop]; exact hstop
  | raises kept => rw [kept.stop]; exact hstop
  | stopAsked phase stop => exact stop
  | stopReturned asked stop => rw [stop]; exact hstop

end SourceActor

end VisionOs.Acquisition
