/-
  A slot that was taken for a frame is published or discarded, once, by the actor of a camera and
  by the ingest, unless what stands between taking it and publishing it refuses the frame.
-/
import VisionOs.Acquisition.PacketSlots
import VisionOs.Acquisition.Reconnects
import VisionOs.App.FrameIngest

namespace VisionOs.App

open Core Acquisition Lib FrameBuffer List SourceActor Nat Runs

/-- What happens to the ingest of a process: a session hands a frame on, or somebody reads. -/
inductive IngestEvent where
  | ingests (ports : IngestPorts) (camera : CameraId) (frame : LiveFrame)
  | reads (call : FrameBuffer.ReaderCall)

namespace FrameIngest

def step (s : FrameIngest) : IngestEvent → FrameIngest
  | .ingests ports camera frame => (call ports camera frame s).2
  | .reads call => { s with buffer := s.buffer.serve call }

end FrameIngest

/-- Every slot that was taken from one state to the other is in one place: the entry that it was
    published as, or the call that released it. -/
def SlotsBack (s s' : FrameBuffer) : Prop :=
  ∀ a, s.allocated ≤ a → a < s'.allocated → ∃! place, FrameBuffer.At ∅ s' place a

section

variable {s s' t : FrameBuffer} {a : AllocationId}

theorem exists_at_iff : (∃ place, FrameBuffer.At ∅ s place a) ↔ a ∈ s.released ∨ s.Holds a := by
  constructor
  · rintro ⟨place, hat⟩
    cases place with
    | slot camera =>
      obtain ⟨slot, hslot, -⟩ := hat
      cases hslot
    | entry camera ref =>
      obtain ⟨entry, hentry, hallocation⟩ := hat
      exact .inr ⟨camera, ref, entry, hentry, hallocation⟩
    | released index => exact .inl (mem_of_getElem? hat)
  · rintro (hreleased | ⟨camera, ref, entry, hentry, hallocation⟩)
    · obtain ⟨index, hindex⟩ := mem_iff_getElem?.mp hreleased
      exact ⟨.released index, hindex⟩
    · exact ⟨.entry camera ref, entry, hentry, hallocation⟩

theorem not_at_of_kept (hissued : s.Issued) (hkept : FrameBuffer.Keeps s t)
    (ha : s.allocated ≤ a) : ¬ ∃ place, FrameBuffer.At ∅ t place a := by
  rw [exists_at_iff]
  have hkeeps := hissued.keeps hkept
  have hallocated := hkept.allocated
  rintro (hreleased | hheld)
  · exact not_lt.mpr ha (hallocated ▸ hkeeps.released a hreleased)
  · exact not_lt.mpr ha (hallocated ▸ hkeeps.held a hheld)

theorem slotsBack_of_kept (hkept : FrameBuffer.Keeps s s') : SlotsBack s s' := by
  intro a hfrom hbelow
  rw [hkept.allocated] at hbelow
  exact absurd hbelow (not_lt.mpr hfrom)

theorem slotsBack_of_discarded (hissued : s.Issued) (hkept : FrameBuffer.Keeps s t)
    (camera : CameraId) :
    SlotsBack s (discardSlot { t with allocated := s.allocated + 1 }
      ⟨s.allocated, camera⟩) := by
  intro a hfrom hbelow
  have ha : a = s.allocated := le_antisymm (le_of_lt_succ hbelow) hfrom
  have hnowhere := not_at_of_kept hissued hkept hfrom
  refine ⟨.released t.released.length, ?_, fun place hat => ?_⟩
  · show (t.released ++ [s.allocated])[t.released.length]? = some a
    rw [List.getElem?_concat_length, ha]
  · cases place with
    | slot camera' =>
      obtain ⟨slot, hslot, -⟩ := hat
      cases hslot
    | entry camera' ref => exact absurd ⟨.entry camera' ref, hat⟩ hnowhere
    | released index =>
      have hget : (t.released ++ [s.allocated])[index]? = some a := hat
      by_cases hindex : index < t.released.length
      · rw [List.getElem?_append_left hindex] at hget
        exact absurd ⟨.released index, hget⟩ hnowhere
      · have hlt := (List.getElem?_eq_some_iff.mp hget).1
        rw [List.length_append, List.length_singleton] at hlt
        have hlast : index = t.released.length := by omega
        rw [hlast]

theorem slotsBack_of_published (hissued : s.Issued) (hkept : FrameBuffer.Keeps s t)
    {frame : Frame} (hpixels : frame.pixels = s.allocated) :
    SlotsBack s (addEntry { t with allocated := s.allocated + 1 } frame) := by
  intro a hfrom hbelow
  obtain ⟨-, hreleased, hallocated, -⟩ := registerCamera_frame
    { t with allocated := s.allocated + 1 } frame.frameRef.cameraId
  have htaken : (addEntry { t with allocated := s.allocated + 1 } frame).allocated =
      s.allocated + 1 := hallocated
  rw [htaken] at hbelow
  have ha : a = s.allocated := le_antisymm (le_of_lt_succ hbelow) hfrom
  have hnowhere := not_at_of_kept hissued hkept hfrom
  refine ⟨.entry frame.frameRef.cameraId frame.frameRef, ?_, fun place hat => ?_⟩
  · refine ⟨{ frame, publishedAt := t.now }, ?_, ?_⟩
    · rw [entryAt_addEntry, if_pos ⟨rfl, rfl⟩]
    · exact hpixels.trans ha.symm
  · cases place with
    | slot camera =>
      obtain ⟨slot, hslot, -⟩ := hat
      cases hslot
    | entry camera ref =>
      obtain ⟨entry, hentry, hallocation⟩ := hat
      rw [entryAt_addEntry] at hentry
      split at hentry
      · rename_i hsame
        rw [← hsame.1, ← hsame.2]
      · exact absurd ⟨.entry camera ref, entry, hentry, hallocation⟩ hnowhere
    | released index =>
      have hget : t.released[index]? = some a := by
        rw [← hat]
        exact congrArg (·[index]?) hreleased.symm
      exact absurd ⟨.released index, hget⟩ hnowhere

theorem not_slotsBack_of_lost (hissued : s.Issued) (hkept : FrameBuffer.Keeps s t) :
    ¬ SlotsBack s { t with allocated := s.allocated + 1 } := by
  intro hback
  obtain ⟨place, hat, -⟩ := hback s.allocated (le_refl _) (lt_succ_self _)
  exact not_at_of_kept hissued hkept (le_refl _) ⟨place, hat⟩

end

namespace FrameIngest

variable {s : FrameIngest} {frame : LiveFrame}

theorem Publishes.issued {result : Raises Frame} {buffer : FrameBuffer}
    (h : Publishes frame s result buffer) (hissued : s.buffer.Issued) : buffer.Issued := by
  have htaken : ∀ {t}, FrameBuffer.Keeps s.buffer t →
      FrameBuffer.Issued { t with allocated := s.buffer.allocated + 1 } := by
    intro t hkept
    have htook := (hissued.keeps hkept).take
    rwa [hkept.allocated] at htook
  cases h with
  | noSlot exc raised kept => exact hissued.keeps kept
  | discarded exc raised t kept given =>
    subst given
    exact (htaken kept).discardSlot (lt_succ_self _)
  | lost exc raised unfit t kept taken =>
    subst taken
    exact htaken kept
  | published published returned fits ref pixels t kept added =>
    subst added
    refine (htaken kept).addEntry ?_
    rw [pixels]
    exact lt_succ_self _

theorem issued_publish (hissued : s.buffer.Issued) (ports : IngestPorts) (camera : CameraId)
    (frame : LiveFrame) : (publish ports camera frame s).2.buffer.Issued :=
  (publish_spec ports camera frame s).1.issued hissued

theorem issued_step (s : FrameIngest) (event : IngestEvent) (hissued : s.buffer.Issued) :
    (s.step event).buffer.Issued := by
  cases event with
  | reads call => exact hissued.keeps (keeps_serve s.buffer call)
  | ingests ports camera frame =>
    show (call ports camera frame s).2.buffer.Issued
    have hpublished := issued_publish hissued ports camera frame
    unfold call
    split
    · revert hpublished
      rcases publish ports camera frame s with ⟨_ | published, s'⟩
      · exact id
      · intro hpublished
        show (remember ports frame published.frameRef s').buffer.Issued
        unfold remember
        split
        · exact hpublished
        · exact hpublished
    · exact hissued

theorem slotsBack_of_fits (hissued : s.buffer.Issued) (hfits : frame.Fits) (ports : IngestPorts)
    (camera : CameraId) :
    SlotsBack s.buffer (publish ports camera frame s).2.buffer := by
  have hcases := (publish_spec ports camera frame s).1
  generalize (publish ports camera frame s).2.buffer = buffer at hcases ⊢
  cases hcases with
  | noSlot exc raised kept => exact slotsBack_of_kept kept
  | discarded exc raised t kept given =>
    subst given
    exact slotsBack_of_discarded hissued kept frame.cameraId
  | lost exc raised unfit => exact absurd hfits unfit
  | published published returned fits ref pixels t kept added =>
    subst added
    exact slotsBack_of_published hissued kept pixels

theorem acquireSlot_opened (config : BufferSection) (camera : CameraId) :
    ∃ t, acquireSlot camera .realtime none
        (({ config } : FrameBuffer).registerCamera camera) =
      (.ok ⟨0, camera⟩, { t with allocated := 1 }) ∧ FrameBuffer.Keeps { config } t := by
  have hslots : ¬ config.slotsPerCamera ≤ (([] : List FrameRef).length : Int) := by
    have haccepted := config.accepted
    unfold BufferSectionFields.postInit at haccepted
    rw [check_bind_eq_ok, require_eq_ok] at haccepted
    rw [length_nil]
    omega
  have hkept := keeps_registerCamera ({ config } : FrameBuffer) camera
  have hring : (({ config } : FrameBuffer).registerCamera camera).rings.get? camera =
      some { capacity := config.slotsPerCamera } := by
    rw [get?_registerCamera, if_pos ⟨rfl, rfl⟩]
  have hagain : (({ config } : FrameBuffer).registerCamera camera).registerCamera camera =
      ({ config } : FrameBuffer).registerCamera camera := by
    rw [registerCamera, hring]
  refine ⟨({ config } : FrameBuffer).registerCamera camera, ?_, hkept⟩
  unfold FrameBuffer.acquireSlot
  dsimp only
  rw [hagain, hring]
  dsimp only
  rw [if_neg hslots]
  rfl

theorem not_slotsBack_of_unfit (config : BufferSection) (hunfit : ¬ frame.Fits) :
    ¬ SlotsBack (opened config).buffer
      (publish {} frame.cameraId frame (opened config)).2.buffer := by
  obtain ⟨t, hacquired, hkept⟩ := acquireSlot_opened config frame.cameraId
  have hregistered : ensureRegistered {} frame.cameraId (opened config) =
      (.ok (), { opened config with
        known := [frame.cameraId]
        buffer := (opened config).buffer.registerCamera frame.cameraId }) := rfl
  have hslot := onBuffer_of_ok (s := { opened config with
    known := [frame.cameraId]
    buffer := (opened config).buffer.registerCamera frame.cameraId }) hacquired
  have hpublish : publish {} frame.cameraId frame (opened config) =
      publishSlot frame ⟨0, frame.cameraId⟩ (min frame.payload.length 0)
        { opened config with
          known := [frame.cameraId]
          buffer := { t with allocated := 1 } } := by
    unfold publish
    rw [Effect.bind_of_ok hregistered, Effect.bind_of_ok hslot]
    rfl
  have hspec := publishSlot_spec frame ⟨0, frame.cameraId⟩ (min frame.payload.length 0)
    { opened config with
      known := [frame.cameraId]
      buffer := { t with allocated := 1 } }
  rw [hpublish]
  unfold Effect.wp at hspec
  revert hspec
  rcases publishSlot frame ⟨0, frame.cameraId⟩ _ _ with ⟨exc | published, s'⟩
  · rintro ⟨-, rfl⟩
    exact not_slotsBack_of_lost (issued_new config) hkept
  · rintro ⟨hfits, -⟩
    exact absurd hfits hunfit

/-- Every slot comes back exactly where nothing refuses the frame on its way: for the actor, a
    packet whose frame passes is numbered, timed and taken by the buffer, and any other slot can
    be discarded; for the ingest, whatever the process did before, a frame has a number and
    dimensions that are accepted. -/
theorem slots_come_back_iff (setup : SourceActorSetup) (now : Instant) (packet : PacketPorts)
    (s : SourceActor) (config : BufferSection) (frame : LiveFrame) :
    (SourceActor.SlotsBack packet s (handlePacket setup now packet s).2 ↔
      SourceActor.SlotSafe packet s) ∧
    ((∀ (events : List IngestEvent) (ports : IngestPorts) (camera : CameraId),
      SlotsBack (run step (opened config) events).buffer
        (publish ports camera frame (run step (opened config) events)).2.buffer) ↔
      frame.Fits) := by
  refine ⟨handlePacket_slotsBack_iff setup now packet s, ?_⟩
  constructor
  · intro hback
    by_contra hunfit
    exact not_slotsBack_of_unfit config hunfit (hback [] {} frame.cameraId)
  · intro hfits events ports camera
    have hissued : (run step (opened config) events).buffer.Issued :=
      run_invariant (fun s event => issued_step s event) (issued_new config) events
    exact slotsBack_of_fits hissued hfits ports camera

def blankFrame : LiveFrame where
  cameraId := "dock"
  sequence := 0
  epoch := 0
  capturedAtNs := 0
  receivedAtNs := 0
  width := 0
  height := 2
  payload := []

/-- An estimate with a negative uncertainty, and a frame without a width, lose their slots. -/
theorem dock_loses_slots :
    (¬ ∀ (setup : SourceActorSetup) (now : Instant) (ports : PacketPorts) (s : SourceActor),
      SourceActor.SlotsBack ports s (handlePacket setup now ports s).2) ∧
    ¬ ∀ (config : BufferSection) (frame : LiveFrame) (events : List IngestEvent)
      (ports : IngestPorts) (camera : CameraId),
      SlotsBack (run step (opened config) events).buffer
        (publish ports camera frame (run step (opened config) events)).2.buffer := by
  constructor
  · intro hback
    have hsafe := (handlePacket_slotsBack_iff _ _ _ _).mp
      (hback dockSetup ⟨0⟩ { estimated := .ok ⟨⟨0⟩, ⟨-1⟩, .estimated⟩ }
        (start dockSetup (-1) {}))
    -- the packet passes, and its estimate is refused
    obtain ⟨⟨⟨estimate, hestimate, huncertainty⟩, -⟩, -⟩ :=
      (hsafe rfl rfl).1 ⟨rfl, .masked, rfl, rfl⟩
    obtain rfl := Except.ok.inj hestimate
    exact absurd huncertainty (by decide)
  · intro hback
    have hunfit : ¬ blankFrame.Fits := by decide
    exact not_slotsBack_of_unfit { accepted := rfl } hunfit
      (hback { accepted := rfl } blankFrame [] {} blankFrame.cameraId)

end FrameIngest

end VisionOs.App
