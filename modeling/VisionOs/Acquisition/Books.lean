/-
  The bounds and the books of the frame rings, with one writer a camera.
-/
import VisionOs.Acquisition.Pixels

namespace VisionOs.Acquisition

open Core Lib FrameBuffer OrderedDict Traffic List Option

namespace FrameBuffer

variable {s s' : FrameBuffer} {camera : CameraId} {ref : FrameRef}

/-- No ring grows, and rings have the capacity that the configuration gives. -/
structure Fits (s s' : FrameBuffer) : Prop where
  config : s'.config = s.config
  load : ∀ camera, s'.load camera ≤ s.load camera
  capacity : ∀ camera ring', s'.rings.get? camera = some ring' →
    ring'.capacity = s.config.slotsPerCamera ∨
      ∃ ring, s.rings.get? camera = some ring ∧ ring'.capacity = ring.capacity

theorem Fits.refl (s : FrameBuffer) : Fits s s :=
  ⟨rfl, fun _ => le_rfl, fun _ ring h => .inr ⟨ring, h, rfl⟩⟩

variable {s'' : FrameBuffer}

theorem Fits.trans (h : Fits s s') (h' : Fits s' s'') : Fits s s'' := by
  refine ⟨h'.config.trans h.config, fun camera => (h'.load camera).trans (h.load camera),
    fun camera ring'' hring'' => ?_⟩
  rcases h'.capacity camera ring'' hring'' with hnew | ⟨ring', hring', hsame⟩
  · exact .inl (by rw [hnew, h.config])
  · rcases h.capacity camera ring' hring' with hnew | ⟨ring, hring, hsame'⟩
    · exact .inl (hsame.trans hnew)
    · exact .inr ⟨ring, hring, hsame.trans hsame'⟩

theorem Maintains.fits (h : Maintains s s') : Fits s s' :=
  ⟨h.config, h.load, fun camera ring' hring' => .inr (h.capacity camera ring' hring')⟩

theorem fits_registerCamera (s : FrameBuffer) (camera : CameraId) :
    Fits s (s.registerCamera camera) := by
  refine ⟨(registerCamera_frame s camera).2.2.2.2, fun camera' => ?_, fun camera' ring' hring' => ?_⟩
  · unfold load
    rw [get?_registerCamera]
    by_cases hnew : camera = camera' ∧ s.rings.get? camera = none
    · rw [if_pos hnew]
      exact Nat.zero_le _
    · rw [if_neg hnew]
  · rw [get?_registerCamera] at hring'
    split at hring'
    · rw [← some.inj hring']
      exact .inl rfl
    · exact .inr ⟨ring', hring', rfl⟩

theorem fits_modifyEntry (s : FrameBuffer) (camera : CameraId) (ref : FrameRef)
    (f : Entry → Entry) : Fits s (s.modifyEntry camera ref f) := by
  refine ⟨rfl, fun camera' => ?_, fun camera' ring' hring' => ?_⟩
  · unfold load
    cases hring : (s.modifyEntry camera ref f).rings.get? camera' with
    | none => exact Nat.zero_le _
    | some ring =>
      obtain ⟨before, hbefore, horder, -⟩ := get?_modifyEntry hring
      rw [hbefore]
      exact le_of_eq (congrArg length horder)
  · obtain ⟨before, hbefore, -, -, hcapacity⟩ := get?_modifyEntry hring'
    exact .inr ⟨before, hbefore, hcapacity⟩

theorem fits_of_rings (h : Fits s s') (hrings : s''.rings = s'.rings)
    (hconfig : s''.config = s'.config) : Fits s s'' := by
  refine ⟨hconfig.trans h.config, fun camera => ?_, fun camera ring'' hring'' => ?_⟩
  · have hload : s''.load camera = s'.load camera := by
      unfold load
      rw [hrings]
    rw [hload]
    exact h.load camera
  · rw [hrings] at hring''
    exact h.capacity camera ring'' hring''

theorem fits_hold (kind : HoldKind) (ref : FrameRef) (purpose : String) (span : Duration)
    (s : FrameBuffer) : Fits s (hold kind ref purpose span s).2 := by
  have hregistered := fits_registerCamera s ref.cameraId
  rcases hold_eq kind ref purpose span s with heq | ⟨entry, -, heq⟩
  · rw [heq]
    exact hregistered
  · rw [heq]
    exact fits_of_rings (hregistered.trans (fits_modifyEntry _ _ _ _)) rfl rfl

theorem fits_giveBack (s : FrameBuffer) (kind : HoldKind) (id : Nat) :
    Fits s (s.giveBack kind id) := by
  unfold giveBack
  split
  · exact .refl s
  · split
    · exact fits_of_rings (fits_modifyEntry s _ _ _) rfl rfl
    · exact .refl s

theorem fits_unpin (s : FrameBuffer) (id : Nat) : Fits s (s.unpin id) := by
  unfold unpin
  split
  · exact .refl s
  · split
    · exact (fits_registerCamera s _).trans (fits_giveBack _ _ _)
    · exact .refl s

theorem fits_forgetCamera (s : FrameBuffer) (camera : CameraId) :
    Fits s (s.forgetCamera camera) := by
  have hrings : ∀ camera', (s.forgetCamera camera).rings.get? camera' =
      if camera' = camera then none else s.rings.get? camera' := by
    intro camera'
    unfold forgetCamera
    cases hring : s.rings.get? camera with
    | none =>
      by_cases hcamera : camera' = camera
      · rw [if_pos hcamera, hcamera]
        exact hring
      · rw [if_neg hcamera]
    | some ring => exact get?_erase _ _ _
  have hconfig : (s.forgetCamera camera).config = s.config := by
    unfold forgetCamera
    split <;> rfl
  refine ⟨hconfig, fun camera' => ?_, fun camera' ring' hring' => ?_⟩
  · unfold load
    rw [hrings]
    by_cases hcamera : camera' = camera
    · rw [if_pos hcamera]
      exact Nat.zero_le _
    · rw [if_neg hcamera]
  · rw [hrings] at hring'
    split at hring'
    · cases hring'
    · exact .inr ⟨ring', hring', rfl⟩

theorem load_addEntry (s : FrameBuffer) (frame : Frame) (camera : CameraId) :
    (s.addEntry frame).load camera ≤
      s.load camera + if frame.frameRef.cameraId = camera then 1 else 0 := by
  have hregistered := (fits_registerCamera s frame.frameRef.cameraId).load camera
  unfold load at hregistered ⊢
  cases hring : (s.addEntry frame).rings.get? camera with
  | none => exact Nat.zero_le _
  | some ring =>
    rcases get?_addEntry frame hring with ⟨-, hbefore⟩ | ⟨hcamera, before, hbefore, -, horder, -⟩
    · rw [hbefore]
      exact Nat.le_add_right _ _
    · rw [hbefore] at hregistered
      rw [if_pos hcamera]
      simp only [horder, length_append, length_singleton]
      exact Nat.add_le_add_right hregistered 1

end FrameBuffer

namespace Traffic

variable {t : Traffic} {call : BufferCall}

/-- A camera's writer publishes the frames of its camera. -/
def SingleWriter (t : Traffic) (call : BufferCall) : Prop :=
  t.Orderly call ∧ ∀ camera frameRef privacyState bytesWritten,
    call = .publish camera frameRef privacyState bytesWritten → frameRef.cameraId = camera

def outstanding (t : Traffic) (camera : CameraId) : Nat :=
  if (t.slots.get? camera).isSome then 1 else 0

/-- The rings are bounded and the books balance. -/
structure Balanced (t : Traffic) : Prop where
  bounded : ∀ camera ring, t.buffer.rings.get? camera = some ring →
    (ring.entries.size : Int) ≤ t.buffer.config.slotsPerCamera
  resident : ∀ camera ring, t.buffer.rings.get? camera = some ring →
    ∀ ref, ref ∈ ring.order ↔ ∃ entry, ring.entries.get? ref = some entry
  inOrder : ∀ camera ring, t.buffer.rings.get? camera = some ring →
    ring.order.Sublist t.published
  distinct : t.published.Nodup
  active : ∀ kind, (t.buffer.borrows kind).active =
    (t.buffer.borrows kind).handed.countP Borrow.isOut

/-- A request for a slot of a recorded stream leaves what the history window covers. -/
def KeepsRecorded (t : Traffic) (call : BufferCall) : Prop :=
  ∀ camera refusal, call = .acquireSlot camera .archival refusal →
    FrameBuffer.KeepsYoung t.buffer (t.serve call).buffer

structure Roomy (t : Traffic) : Prop where
  capacity : ∀ camera ring, t.buffer.rings.get? camera = some ring →
    ring.capacity = t.buffer.config.slotsPerCamera
  room : ∀ camera, (t.buffer.load camera + t.outstanding camera : Int) ≤
    t.buffer.config.slotsPerCamera
  distinct : t.published.Nodup

theorem Roomy.of_fits (h : t.Roomy) {buffer : FrameBuffer}
    (hfits : FrameBuffer.Fits t.buffer buffer) :
    Roomy { t with buffer } := by
  refine ⟨fun camera ring hring => ?_, fun camera => ?_, h.distinct⟩
  · rw [hfits.config]
    rcases hfits.capacity camera ring hring with hnew | ⟨before, hbefore, hsame⟩
    · exact hnew
    · rw [hsame]
      exact h.capacity camera before hbefore
  · show (buffer.load camera + t.outstanding camera : Int) ≤ buffer.config.slotsPerCamera
    have hload := hfits.load camera
    have hroom := h.room camera
    rw [hfits.config]
    omega

theorem Roomy.erase (h : t.Roomy) (camera : CameraId) :
    Roomy { t with slots := t.slots.erase camera } := by
  refine ⟨h.capacity, fun camera' => ?_, h.distinct⟩
  have hroom := h.room camera'
  have hless : ({ t with slots := t.slots.erase camera } : Traffic).outstanding camera' ≤
      t.outstanding camera' := by
    unfold outstanding
    simp only [get?_erase]
    by_cases hcamera : camera' = camera <;> simp [hcamera]
  show (t.buffer.load camera' + _ : Int) ≤ t.buffer.config.slotsPerCamera
  omega

theorem roomy_opened (config : BufferSection) : (opened config).Roomy := by
  refine ⟨fun camera ring hring => (by cases hring), fun camera => ?_, nodup_nil⟩
  have hslots := require_eq_ok.mp (check_bind_eq_ok.mp config.accepted).1
  show (0 : Int) ≤ config.slotsPerCamera
  omega

theorem Roomy.acquireSlot (h : t.Roomy) (hsound : t.IsSound) {camera : CameraId}
    {semantics : SourceSemantics} {refusal : Option PyException} :
    (t.serve (.acquireSlot camera semantics refusal)).Roomy := by
  have hregistered := fits_registerCamera t.buffer camera
  obtain ⟨s', -, hmaintains, -, ⟨e, hrun⟩ | ⟨hrun, hroom⟩⟩ :=
    acquireSlot_spec hsound camera semantics refusal
  · simp only [serve, hrun]
    exact h.of_fits (hregistered.trans hmaintains.fits)
  · have hbefore := h.of_fits (hregistered.trans hmaintains.fits)
    simp only [serve, hrun]
    refine ⟨hbefore.capacity, fun camera' => ?_, h.distinct⟩
    have hfits := hbefore.room camera'
    show (s'.load camera' + outstanding _ camera' : Int) ≤ s'.config.slotsPerCamera
    unfold outstanding at hfits ⊢
    simp only [get?_set] at hfits ⊢
    by_cases hcamera : camera = camera'
    · -- the camera whose slot it is
      subst hcamera
      obtain ⟨ring, hring, -⟩ := exists_ring_registerCamera t.buffer camera
      have hcapacity := (h.of_fits hregistered).capacity camera ring hring
      have hload := (h.of_fits hregistered).room camera
      change ring.capacity = (t.buffer.registerCamera camera).config.slotsPerCamera at hcapacity
      change ((t.buffer.registerCamera camera).load camera + t.outstanding camera : Int) ≤
        (t.buffer.registerCamera camera).config.slotsPerCamera at hload
      have hmade := hroom ring hring (by omega)
      rw [hmaintains.config]
      simp only [if_true, isSome_some]
      omega
    · simpa [hcamera] using hfits

theorem Roomy.addEntry (h : t.Roomy) {frame : Frame} {slot : FrameSlot}
    (hslot : t.slots.get? frame.frameRef.cameraId = some slot)
    (hnew : frame.frameRef ∉ t.published) :
    Roomy { buffer := t.buffer.addEntry frame
            slots := t.slots.erase frame.frameRef.cameraId
            published := t.published ++ [frame.frameRef] } := by
  have hregistered := fits_registerCamera t.buffer frame.frameRef.cameraId
  have hconfig : (t.buffer.addEntry frame).config = t.buffer.config := hregistered.config
  refine ⟨fun camera ring hring => ?_, fun camera => ?_, ?_⟩
  · rw [hconfig]
    rcases get?_addEntry frame hring with
      ⟨-, hbefore⟩ | ⟨-, before, hbefore, hsame, -⟩
    · exact h.capacity camera ring hbefore
    · rw [hsame, (h.of_fits hregistered).capacity camera before hbefore]
      exact congrArg (fun c : BufferSection => c.slotsPerCamera) hregistered.config
  · have hload := load_addEntry t.buffer frame camera
    have hroom := h.room camera
    rw [hconfig]
    unfold outstanding at hroom ⊢
    simp only [get?_erase]
    by_cases hcamera : frame.frameRef.cameraId = camera
    · subst hcamera
      simp only [hslot, isSome_some, if_true, isSome_none, Bool.false_eq_true,
        if_false] at hroom hload ⊢
      omega
    · simp only [if_neg hcamera, if_neg (Ne.symm hcamera)] at hload ⊢
      omega
  · rw [← concat_eq_append]
    exact h.distinct.concat hnew

theorem Roomy.serve (h : t.Roomy) (hsound : t.IsSound) (hwriter : t.SingleWriter call) :
    (t.serve call).Roomy := by
  obtain ⟨horderly, hown⟩ := hwriter
  cases call with
  | advance elapsed => exact h.of_fits (fits_of_rings (.refl t.buffer) rfl rfl)
  | registerCamera camera => exact h.of_fits (fits_registerCamera _ _)
  | forgetCamera camera => exact h.of_fits (fits_forgetCamera _ _)
  | acquireSlot camera semantics refusal => exact h.acquireSlot hsound
  | discardSlot camera =>
    cases hslot : t.slots.get? camera with
    | none =>
      simp only [serve, hslot]
      exact h
    | some slot =>
      simp only [serve, hslot]
      exact (h.erase camera).of_fits (fits_of_rings (.refl t.buffer) rfl rfl)
  | publish camera frameRef privacyState bytesWritten =>
    cases hslot : t.slots.get? camera with
    | none =>
      simp only [serve, hslot]
      exact h
    | some slot =>
      rcases publish_cases slot frameRef privacyState bytesWritten t.buffer with
        ⟨hrefused, e, hrun⟩ | ⟨frame, rfl, -, hrun⟩
      · simp only [serve, hslot, hrun, hrefused]
        exact (h.erase camera).of_fits (fits_of_rings (.refl t.buffer) rfl rfl)
      · obtain rfl := hown _ _ _ _ rfl
        simp only [serve, hslot, hrun]
        exact h.addEntry hslot horderly
  | acquire frameRef holderId deadline => exact h.of_fits (fits_hold _ _ _ _ _)
  | release lease => exact h.of_fits (fits_giveBack _ _ _)
  | pin frameRef ttl reason => exact h.of_fits (fits_hold _ _ _ _ _)
  | unpin handle => exact h.of_fits (fits_unpin _ _)
  | sweep => exact h.of_fits (sweep_spec hsound).2.fits

theorem IsSound.balanced (h : t.IsSound) (hroomy : t.Roomy) : t.Balanced := by
  refine ⟨fun camera ring hring => ?_, fun camera ring hring ref => ?_,
    fun camera ring hring => (h.order camera ring hring).2, hroomy.distinct,
    FrameBuffer.Sound.balanced h⟩
  · have hroom := hroomy.room camera
    have hsize : ring.entries.size = t.buffer.load camera := by
      unfold load
      rw [hring]
      simp only [(h.order camera ring hring).1]
      exact (length_map _).symm
    rw [hsize]
    omega
  · rw [(h.order camera ring hring).1]
    exact mem_keys_iff

theorem IsSound.keepsRecorded (h : t.IsSound) : t.KeepsRecorded call := by
  rintro camera refusal rfl
  obtain ⟨-, -, -, hnow, hconfig⟩ := registerCamera_frame t.buffer camera
  obtain ⟨s', -, -, hyoung, hrun⟩ := acquireSlot_spec h camera .archival refusal
  intro camera' ref entry hentry hage
  have hkept := hyoung rfl camera' ref entry
    (entryAt_registerCamera.trans hentry) (by
      unfold age historyNs at *
      rw [hnow, hconfig]
      exact hage)
  rcases hrun with ⟨e, hrun⟩ | ⟨hrun, -⟩
  · simp only [Traffic.serve, hrun]
    exact hkept
  · simp only [Traffic.serve, hrun]
    exact hkept

/-- The ring is bounded and its books balance: over a run of single writers every state reached
    is balanced, and a request for a slot of a recorded stream takes no frame that the history
    window still covers. -/
theorem books_balance (config : BufferSection) {calls : List BufferCall}
    (h : Runs.Always serve SingleWriter (opened config) calls) :
    (∀ before, before <+: calls → (Runs.run serve (opened config) before).Balanced) ∧
      Runs.Always serve KeepsRecorded (opened config) calls := by
  have hkeep : ∀ (t : Traffic) call, t.IsSound ∧ t.Roomy → t.SingleWriter call →
      (t.serve call).IsSound ∧ (t.serve call).Roomy :=
    fun t call hboth hwriter => ⟨hboth.1.serve hwriter.1, hboth.2.serve hboth.1 hwriter⟩
  have hopened : (opened config).IsSound ∧ (opened config).Roomy :=
    ⟨isSound_opened config, roomy_opened config⟩
  refine ⟨fun before hbefore => ?_, ?_⟩
  · obtain ⟨hsound, hroomy⟩ := Runs.reached_of_always hkeep hopened h hbefore
    exact hsound.balanced hroomy
  · exact Runs.always_mono_of_kept hkeep (fun t call hboth _ => hboth.1.keepsRecorded) hopened h

/-- A frame of the quay leased and pinned, the lease broken by the sweep, and a second frame. -/
def quayCalls : List BufferCall :=
  [.acquireSlot "quay" .realtime none, .publish "quay" (quayFrame 0) .masked 0,
    .acquire (quayFrame 0) "detector" none, .pin (quayFrame 0) ⟨9000000000⟩ "crop",
    .advance 3000000000, .sweep, .acquireSlot "quay" .archival none,
    .publish "quay" (quayFrame 1) .masked 0]

theorem quay_books_balance :
    (∀ before, before <+: quayCalls →
      (Runs.run serve (opened { accepted := rfl }) before).Balanced) ∧
      Runs.Always serve KeepsRecorded (opened { accepted := rfl }) quayCalls := by
  have hnew : quayFrame 1 ∉ [quayFrame 0] := by decide
  exact books_balance { accepted := rfl } ⟨⟨rfl, fun _ _ _ _ h => (by cases h)⟩,
    ⟨not_mem_nil, fun _ _ _ _ h => (by cases h; rfl)⟩,
    ⟨trivial, fun _ _ _ _ h => (by cases h)⟩, ⟨trivial, fun _ _ _ _ h => (by cases h)⟩,
    ⟨trivial, fun _ _ _ _ h => (by cases h)⟩, ⟨trivial, fun _ _ _ _ h => (by cases h)⟩,
    ⟨rfl, fun _ _ _ _ h => (by cases h)⟩, ⟨hnew, fun _ _ _ _ h => (by cases h; rfl)⟩, trivial⟩

end Traffic

end VisionOs.Acquisition
