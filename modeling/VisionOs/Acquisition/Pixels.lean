/-
  Whether a frame's pixels outlive its readers: exactly when no camera is forgotten while one of
  its frames is read.
-/
import VisionOs.Acquisition.Calls

namespace VisionOs.Acquisition

open Core Lib FrameBuffer List FrameBuffer.Sound Traffic Option

namespace FrameBuffer

variable {slots : OrderedDict CameraId FrameSlot} {published : List FrameRef}
  {s s' : FrameBuffer} {camera : CameraId} {ref : FrameRef} {slot : FrameSlot}

/-- A request for a slot spares what the history covers, and leaves the ring within its slots. -/
theorem acquireSlot_spec (h : Sound slots published s) (camera : CameraId)
    (semantics : SourceSemantics) (refusal : Option PyException) :
    ∃ s', Sound slots published s' ∧ Maintains (s.registerCamera camera) s' ∧
      (semantics.mayDropFrames = false → KeepsYoung (s.registerCamera camera) s') ∧
      ((∃ e, acquireSlot camera semantics refusal s = (.error e, s')) ∨
        (acquireSlot camera semantics refusal s =
            (.ok ⟨s'.allocated, camera⟩, { s' with allocated := s'.allocated + 1 }) ∧
          ∀ ring, (s.registerCamera camera).rings.get? camera = some ring →
            ((s.registerCamera camera).load camera : Int) ≤ ring.capacity →
              (s'.load camera : Int) + 1 ≤ ring.capacity)) := by
  have hregistered := h.registerCamera camera
  have htaken : ∀ s' : FrameBuffer, (∃ e, allocate camera refusal s' = (.error e, s')) ∨
      allocate camera refusal s' =
        (.ok ⟨s'.allocated, camera⟩, { s' with allocated := s'.allocated + 1 }) := by
    intro s'
    cases refusal with
    | none => exact .inr rfl
    | some exc => exact .inl ⟨exc, rfl⟩
  obtain ⟨ring, hring, -⟩ := exists_ring_registerCamera s camera
  have hload : (s.registerCamera camera).load camera = ring.order.length := by
    unfold load
    rw [hring]
  by_cases hfull : ring.capacity ≤ ring.order.length
  · -- the ring is full: what is left depends on whether the eviction makes room
    have hevicts : Sound slots published
          (evictOldest camera semantics ring.order (s.registerCamera camera)).2 ∧ _ :=
      evictOldest_spec semantics ring.order hregistered
    rcases hevict : evictOldest camera semantics ring.order (s.registerCamera camera) with
      ⟨made, s'⟩
    rw [hevict] at hevicts
    obtain ⟨hsound, hmaintains, hroom, hyoung⟩ := hevicts
    refine ⟨s', hsound, hmaintains, hyoung, ?_⟩
    unfold acquireSlot
    simp only [hring, if_pos hfull, hevict]
    cases made with
    | false => exact .inl ⟨_, rfl⟩
    | true =>
      rcases htaken s' with ⟨e, he⟩ | hok
      · exact .inl ⟨e, he⟩
      · refine .inr ⟨hok, fun ring' hring' hfits => ?_⟩
        have hmade := hroom rfl
        simp only at hmade
        omega
  · have hrun : acquireSlot camera semantics refusal s =
        allocate camera refusal (s.registerCamera camera) := by
      unfold acquireSlot
      simp only [hring, if_neg hfull]
    refine ⟨_, hregistered, .refl _, fun _ => (Thins.refl _).keepsYoung, ?_⟩
    rw [hrun]
    rcases htaken (s.registerCamera camera) with ⟨e, he⟩ | hok
    · exact .inl ⟨e, he⟩
    · refine .inr ⟨hok, fun ring' hring' _ => ?_⟩
      rw [hring] at hring'
      obtain rfl := some.inj hring'
      rw [hload]
      omega

end FrameBuffer

namespace Traffic

variable {t : Traffic} {call : BufferCall}

/-- An allocation that a writer's slot or a resident entry has. -/
def Reachable (t : Traffic) (a : AllocationId) : Prop :=
  (∃ camera slot, t.slots.get? camera = some slot ∧ slot.allocation = a) ∨
    ∃ camera ref entry, t.buffer.entryAt camera ref = some entry ∧ entry.allocation = a

/-- Every allocation taken is reachable and has not been released, or is not and has been, once. -/
def Accounted (t : Traffic) : Prop :=
  ∀ a, a < t.buffer.allocated → (t.Reachable a ∧ a ∉ t.buffer.released) ∨
    (¬ t.Reachable a ∧ ∃! i : Nat, t.buffer.released[i]? = some a)

/-- The call releases no allocation that somebody reads. -/
def SparesReaders (t : Traffic) (call : BufferCall) : Prop :=
  ∀ a ∈ (t.serve call).buffer.released, a ∉ t.buffer.released → ¬ t.buffer.ReadBy a

/-- A camera is forgotten only when every hold on its frames has expired. -/
def ForgetsUnread (t : Traffic) : BufferCall → Prop
  | .forgetCamera camera => ∀ ref entry, t.buffer.entryAt camera ref = some entry →
      ∀ (kind : HoldKind) (id : Nat) (b : Borrow Held), id ∈ entry.holds kind →
        (t.buffer.borrows kind).handed[id]? = some b → b.deadline < t.buffer.now.ns
  | _ => True

def IsSound (t : Traffic) : Prop := FrameBuffer.Sound t.slots t.published t.buffer

theorem isSound_opened (config : BufferSection) : (opened config).IsSound where
  home camera ref entry hentry := by cases hentry
  nodup camera ref entry kind hentry := by cases hentry
  out camera ref entry kind id hentry := by cases hentry
  lent kind id b hb := by cases hb
  broken kind id b hb := by cases hb
  balanced kind := Borrows.balanced_empty
  order camera ring hring := by cases hring
  custody := by
    refine ⟨fun a ha => absurd ha (Nat.not_lt_zero a), fun place a hat => ?_⟩
    cases place with
    | slot camera =>
      obtain ⟨slot, hslot, -⟩ := hat
      cases hslot
    | entry camera ref =>
      obtain ⟨entry, hentry, -⟩ := hat
      cases hentry
    | released i => cases hat

theorem publish_cases (slot : FrameSlot) (frameRef : FrameRef) (privacyState : PrivacyState)
    (bytesWritten : Int) (s : FrameBuffer) :
    (privacyState.emittable = false ∧ ∃ e, publish slot frameRef privacyState
      bytesWritten s = (.error e, s.discardSlot slot)) ∨
    ∃ frame : Frame, frame.frameRef = frameRef ∧ frame.pixels = slot.allocation ∧
      publish slot frameRef privacyState bytesWritten s =
        (.ok frame, s.addEntry frame) := by
  unfold publish
  cases hemittable : privacyState.emittable with
  | false => exact .inl ⟨rfl, _, rfl⟩
  | true =>
    -- the constructor's own check is the one just made
    have haccepted : FrameFields.postInit
        { frameRef, pixels := slot.allocation, bytesWritten, privacyState } = .ok () :=
      require_eq_ok.mpr hemittable
    refine .inr ⟨⟨_, haccepted⟩, rfl, rfl, ?_⟩
    unfold Frame.construct
    rw [constructWith_eq_ok haccepted]
    rfl

theorem IsSound.serve (h : t.IsSound) (horderly : t.Orderly call) : (t.serve call).IsSound := by
  cases call with
  | advance elapsed => exact advance h elapsed
  | registerCamera camera => exact registerCamera h camera
  | forgetCamera camera => exact forgetCamera h camera
  | acquireSlot camera semantics refusal =>
    obtain ⟨s', hsound, -, -, ⟨e, hrun⟩ | ⟨hrun, -⟩⟩ :=
      acquireSlot_spec h camera semantics refusal
    · unfold serve
      simp only [hrun]
      exact hsound
    · unfold serve
      simp only [hrun]
      exact hsound.allocated horderly
  | discardSlot camera =>
    cases hslot : t.slots.get? camera with
    | none =>
      simp only [serve, hslot]
      exact h
    | some slot =>
      simp only [serve, hslot]
      exact discardSlot h hslot
  | publish camera frameRef privacyState bytesWritten =>
    cases hslot : t.slots.get? camera with
    | none =>
      simp only [serve, hslot]
      exact h
    | some slot =>
      rcases publish_cases slot frameRef privacyState bytesWritten t.buffer with
        ⟨hrefused, e, hrun⟩ | ⟨frame, rfl, hpixels, hrun⟩
      · simp only [serve, hslot, hrun, hrefused]
        exact discardSlot h hslot
      · simp only [serve, hslot, hrun]
        exact addEntry h hslot hpixels horderly
  | acquire frameRef holderId deadline => exact hold h _ _ _ _
  | release lease => exact giveBack h _ _
  | pin frameRef ttl reason => exact hold h _ _ _ _
  | unpin handle => exact unpin h handle
  | sweep => exact (sweep_spec h).1

theorem IsSound.accounted (h : t.IsSound) : t.Accounted := by
  intro a ha
  obtain ⟨place, hat, honly⟩ := h.custody.placed a ha
  have hnot : (∀ i, place ≠ .released i) → a ∉ t.buffer.released := by
    intro hplace hreleased
    obtain ⟨i, hi⟩ := mem_iff_getElem?.mp hreleased
    exact hplace i (honly (.released i) hi).symm
  cases place with
  | slot camera =>
    obtain ⟨slot, hslot, hallocation⟩ := hat
    exact .inl ⟨.inl ⟨camera, slot, hslot, hallocation⟩, hnot fun i hi => Place.noConfusion hi⟩
  | entry camera ref =>
    obtain ⟨entry, hentry, hallocation⟩ := hat
    exact .inl ⟨.inr ⟨camera, ref, entry, hentry, hallocation⟩,
      hnot fun i hi => Place.noConfusion hi⟩
  | released i =>
    refine .inr ⟨?_, i, hat, fun j hj => Place.released.inj (honly (.released j) hj)⟩
    rintro (⟨camera, slot, hslot, hallocation⟩ | ⟨camera, ref, entry, hentry, hallocation⟩)
    · exact Place.noConfusion (honly (.slot camera) ⟨slot, hslot, hallocation⟩)
    · exact Place.noConfusion (honly (.entry camera ref) ⟨entry, hentry, hallocation⟩)

/-! ## What is released is read by nobody -/

theorem IsSound.not_readBy_slot (h : t.IsSound) {camera : CameraId} {slot : FrameSlot}
    (hslot : t.slots.get? camera = some slot) : ¬ t.buffer.ReadBy slot.allocation := by
  rintro ⟨kind, id, b, hb, ha, -⟩
  have hat : FrameBuffer.At t.slots t.buffer (.slot camera) slot.allocation := ⟨slot, hslot, rfl⟩
  obtain ⟨-, ⟨entry, hentry, hallocation⟩ | ⟨-, hreleased⟩⟩ := h.lent kind id b hb
  · have hat' : FrameBuffer.At t.slots t.buffer
        (.entry b.resource.frameRef.cameraId b.resource.frameRef) slot.allocation :=
      ⟨entry, hentry, hallocation.trans ha⟩
    exact Place.noConfusion (h.custody.unique hat hat')
  · obtain ⟨i, hi⟩ := mem_iff_getElem?.mp hreleased
    have hat' : FrameBuffer.At t.slots t.buffer (.released i) slot.allocation := by
      rw [← ha]
      exact hi
    exact Place.noConfusion (h.custody.unique hat hat')

theorem sparesReaders_of_released (h : (t.serve call).buffer.released = t.buffer.released) :
    t.SparesReaders call := by
  intro a ha hnew
  rw [h] at ha
  exact absurd ha hnew

theorem sparesReaders_of_append {a : AllocationId}
    (h : (t.serve call).buffer.released = t.buffer.released ++ [a]) (hread : ¬ t.buffer.ReadBy a) :
    t.SparesReaders call := by
  intro a' ha' hnew
  rw [h] at ha'
  rcases mem_append.mp ha' with hold | hlast
  · exact absurd hold hnew
  · rw [mem_singleton.mp hlast]
    exact hread

theorem sparesReaders_of_maintains {s : FrameBuffer} (hborrows : s.borrows = t.buffer.borrows)
    (hnow : s.now = t.buffer.now) (hreleased : s.released = t.buffer.released) {s' : FrameBuffer}
    (hmaintains : FrameBuffer.Maintains s s')
    (h : (t.serve call).buffer.released = s'.released) : t.SparesReaders call := by
  intro a ha hnew hread
  rw [h] at ha
  rcases hmaintains.released a ha with hold | hfree
  · exact hnew (hreleased ▸ hold)
  · refine hfree ?_
    unfold FrameBuffer.ReadBy
    rw [hborrows, hnow]
    exact hread

theorem sparesReaders_forgetCamera_iff (h : t.IsSound) (camera : CameraId) :
    t.SparesReaders (.forgetCamera camera) ↔ t.ForgetsUnread (.forgetCamera camera) := by
  have hsound : (t.serve (.forgetCamera camera)).IsSound :=
    forgetCamera h camera
  constructor
  · intro hspares ref entry hentry kind id b hid hb
    by_contra hlate
    obtain ⟨b', hb', href, hout⟩ := (h.out camera ref entry kind id hentry).mp hid
    rw [hb] at hb'
    obtain rfl := some.inj hb'
    have hcamera := (h.home camera ref entry hentry).1
    -- the hold is on the entry's allocation, which the call releases
    have hallocation : b.resource.allocation = entry.allocation := by
      obtain ⟨-, ⟨other, hother, ha⟩ | ⟨hnone, -⟩⟩ := h.lent kind id b hb
      · rw [href, hcamera, hentry] at hother
        rw [← ha, some.inj hother]
      · rw [href, hcamera, hentry] at hnone
        cases hnone
    have hat : FrameBuffer.At t.slots t.buffer (.entry camera ref) entry.allocation :=
      ⟨entry, hentry, rfl⟩
    have hkept : entry.allocation ∉ t.buffer.released := by
      intro hreleased
      obtain ⟨i, hi⟩ := mem_iff_getElem?.mp hreleased
      exact Place.noConfusion (h.custody.unique hat
        (show FrameBuffer.At t.slots t.buffer (.released i) entry.allocation from hi))
    have hgoes : entry.allocation ∈ (t.serve (.forgetCamera camera)).buffer.released := by
      obtain ⟨ring, hring, hfound⟩ := entryAt_eq_some.mp hentry
      show _ ∈ (t.buffer.forgetCamera camera).released
      rw [forgetCamera_eq h hring]
      refine mem_append_right _ (mem_map_of_mem ?_)
      exact OrderedDict.mem_values.mpr ⟨ref, hfound⟩
    refine hspares _ hgoes hkept ⟨kind, id, b, hb, hallocation, ?_, not_lt.mp hlate⟩
    rw [hout]
    exact Standing.noConfusion
  · intro hunread a ha hnew hread
    change a ∈ (t.buffer.forgetCamera camera).released at ha
    cases hring : t.buffer.rings.get? camera with
    | none =>
      unfold FrameBuffer.forgetCamera at ha
      rw [hring] at ha
      exact hnew ha
    | some ring =>
      rw [forgetCamera_eq h hring] at ha
      rcases mem_append.mp ha with hold | hgone
      · exact hnew hold
      · obtain ⟨entry, hvalue, rfl⟩ := mem_map.mp hgone
        obtain ⟨ref, hfound⟩ := OrderedDict.mem_values.mp hvalue
        have hentry := entryAt_eq_some.mpr ⟨ring, hring, hfound⟩
        exact not_readBy h hentry (hunread ref entry hentry) hread

theorem released_giveBack (s : FrameBuffer) (kind : HoldKind) (id : Nat) :
    (s.giveBack kind id).released = s.released := by
  unfold FrameBuffer.giveBack
  split
  · rfl
  · split <;> rfl

theorem released_hold (kind : HoldKind) (ref : FrameRef) (purpose : String) (span : Duration)
    (s : FrameBuffer) : (hold kind ref purpose span s).2.released = s.released := by
  have hregistered := (registerCamera_frame s ref.cameraId).2.1
  rcases hold_eq kind ref purpose span s with heq | ⟨entry, -, heq⟩
  · rw [heq, hregistered]
  · rw [heq]
    exact hregistered

theorem sparesReaders_iff (h : t.IsSound) : t.SparesReaders call ↔ t.ForgetsUnread call := by
  -- only `forgetCamera` can free what a reader holds; a slot has no readers
  cases call with
  | forgetCamera camera => exact sparesReaders_forgetCamera_iff h camera
  | advance elapsed => exact iff_of_true (sparesReaders_of_released rfl) trivial
  | registerCamera camera =>
    exact iff_of_true (sparesReaders_of_released
      (registerCamera_frame t.buffer camera).2.1) trivial
  | acquireSlot camera semantics refusal =>
    obtain ⟨hborrows, hreleased, -, hnow, -⟩ := registerCamera_frame t.buffer camera
    obtain ⟨s', -, hmaintains, -, ⟨e, hrun⟩ | ⟨hrun, -⟩⟩ :=
      acquireSlot_spec h camera semantics refusal
    · refine iff_of_true (sparesReaders_of_maintains hborrows hnow hreleased hmaintains ?_) trivial
      simp only [serve, hrun]
    · refine iff_of_true (sparesReaders_of_maintains hborrows hnow hreleased hmaintains ?_) trivial
      simp only [serve, hrun]
  | discardSlot camera =>
    cases hslot : t.slots.get? camera with
    | none =>
      refine iff_of_true (sparesReaders_of_released ?_) trivial
      simp only [serve, hslot]
    | some slot =>
      refine iff_of_true (sparesReaders_of_append ?_ (h.not_readBy_slot hslot)) trivial
      simp only [serve, hslot]
      rfl
  | publish camera frameRef privacyState bytesWritten =>
    cases hslot : t.slots.get? camera with
    | none =>
      refine iff_of_true (sparesReaders_of_released ?_) trivial
      simp only [serve, hslot]
    | some slot =>
      rcases publish_cases slot frameRef privacyState bytesWritten t.buffer with
        ⟨hrefused, e, hrun⟩ | ⟨frame, -, -, hrun⟩
      · refine iff_of_true (sparesReaders_of_append ?_ (h.not_readBy_slot hslot)) trivial
        simp only [serve, hslot, hrun, hrefused]
        rfl
      · refine iff_of_true (sparesReaders_of_released ?_) trivial
        simp only [serve, hslot, hrun]
        exact (registerCamera_frame t.buffer frame.frameRef.cameraId).2.1
  | acquire frameRef holderId deadline =>
    exact iff_of_true (sparesReaders_of_released (released_hold _ _ _ _ _)) trivial
  | release lease => exact iff_of_true (sparesReaders_of_released (released_giveBack _ _ _)) trivial
  | pin frameRef ttl reason =>
    exact iff_of_true (sparesReaders_of_released (released_hold _ _ _ _ _)) trivial
  | unpin handle =>
    refine iff_of_true (sparesReaders_of_released ?_) trivial
    show (t.buffer.unpin handle).released = _
    unfold FrameBuffer.unpin
    split
    · rfl
    · split
      · rw [released_giveBack]
        exact (registerCamera_frame t.buffer _).2.1
      · rfl
  | sweep =>
    exact iff_of_true (sparesReaders_of_maintains rfl rfl rfl (sweep_spec h).2 rfl)
      trivial

/-- A call accounts for every allocation, and releases none under a reader. -/
def OutlivesReaders (t : Traffic) (call : BufferCall) : Prop :=
  (t.serve call).Accounted ∧ t.SparesReaders call

/-- A frame's pixels outlive its readers: over a run of orderly writers, every call accounts for
    every allocation and releases none under a reader exactly when no call forgets a camera that
    is read. -/
theorem pixels_outlive_readers_iff (config : BufferSection) {calls : List BufferCall}
    (h : Runs.Always serve Orderly (opened config) calls) :
    Runs.Always serve OutlivesReaders (opened config) calls ↔
      Runs.Always serve ForgetsUnread (opened config) calls := by
  refine Runs.always_iff_of_always (fun t call hsound horderly => hsound.serve horderly)
    (fun t call hsound horderly => ?_) (isSound_opened config) h
  have haccounted := (hsound.serve horderly).accounted
  exact ⟨fun houtlives => (sparesReaders_iff hsound).mp houtlives.2,
    fun hunread => ⟨haccounted, (sparesReaders_iff hsound).mpr hunread⟩⟩

def quayFrame (frameSeq : Nat) : FrameRef where
  cameraId := "quay"
  streamEpoch := 0
  frameSeq := frameSeq
  accepted := FrameRefFields.postInit_eq_ok.mpr ⟨le_rfl, Int.natCast_nonneg frameSeq⟩

/-- One frame published, leased and given back before its camera is forgotten. -/
theorem quay_outlives_its_reader :
    Runs.Always serve OutlivesReaders (opened { accepted := rfl })
      [.acquireSlot "quay" .realtime none, .publish "quay" (quayFrame 0) .masked 0,
        .acquire (quayFrame 0) "detector" none, .release 0, .forgetCamera "quay"] := by
  have horderly : Runs.Always serve Orderly (opened { accepted := rfl })
      [.acquireSlot "quay" .realtime none, .publish "quay" (quayFrame 0) .masked 0,
        .acquire (quayFrame 0) "detector" none, .release 0, .forgetCamera "quay"] :=
    ⟨rfl, not_mem_nil, trivial, trivial, trivial, trivial⟩
  refine (pixels_outlive_readers_iff { accepted := rfl } horderly).mpr
    ⟨trivial, trivial, trivial, trivial, fun ref entry hentry kind id b hid hb => ?_, trivial⟩
  -- the lease has been given back, so the one frame lists no hold
  by_cases href : ref = quayFrame 0
  · subst href
    obtain rfl := some.inj hentry
    cases kind <;> cases hid
  · have hnone : (entryAt (Runs.run serve (opened { accepted := rfl })
        [.acquireSlot "quay" .realtime none, .publish "quay" (quayFrame 0) .masked 0,
          .acquire (quayFrame 0) "detector" none, .release 0]).buffer "quay" ref) = none := by
      exact if_neg (Ne.symm href)
    exact absurd (hnone.symm.trans hentry) (by simp)

/-- A camera forgotten while the detector leases its frame: the pixels go under the reader. -/
theorem quay_forgotten_under_its_reader :
    ¬ ∀ (config : BufferSection) (calls : List BufferCall),
      Runs.Always serve Orderly (opened config) calls →
        Runs.Always serve OutlivesReaders (opened config) calls := by
  intro hclaim
  have houtlives := hclaim { accepted := rfl }
    [.acquireSlot "quay" .realtime none, .publish "quay" (quayFrame 0) .masked 0,
      .acquire (quayFrame 0) "detector" none, .forgetCamera "quay"]
    ⟨rfl, not_mem_nil, trivial, trivial, trivial⟩
  refine houtlives.2.2.2.1.2 0 (by decide +kernel) (by decide +kernel)
    ⟨.lease, 0, _, rfl, rfl, ?_, ?_⟩
  · decide
  · decide +kernel

end Traffic

end VisionOs.Acquisition
