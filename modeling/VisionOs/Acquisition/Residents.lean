/-
  The frames that a buffer holds and the allocations it knows: only publishing brings a frame in,
  and only an entry's or a discarded slot's allocation is released.
-/
import VisionOs.Acquisition.Calls

namespace VisionOs.Acquisition.FrameBuffer

open Core Lib List

variable {s s' s'' : FrameBuffer} {camera camera' : CameraId} {ref ref' : FrameRef}
  {entry : Entry} {kind : HoldKind} {a : AllocationId}

/-- A resident entry has the allocation. -/
def Holds (s : FrameBuffer) (a : AllocationId) : Prop :=
  ∃ camera ref entry, s.entryAt camera ref = some entry ∧ entry.allocation = a

/-- No frame came in: every entry that is left has its frame, and nothing was released but the
    allocations of entries. -/
structure Keeps (s s' : FrameBuffer) : Prop where
  allocated : s'.allocated = s.allocated
  entries : ∀ camera ref entry', s'.entryAt camera ref = some entry' →
    ∃ entry, s.entryAt camera ref = some entry ∧ entry'.frame = entry.frame
  released : ∀ a ∈ s'.released, a ∈ s.released ∨ s.Holds a

theorem Keeps.refl (s : FrameBuffer) : Keeps s s :=
  ⟨rfl, fun _ _ entry h => ⟨entry, h, rfl⟩, fun _ h => .inl h⟩

theorem Keeps.holds (h : Keeps s s') (ha : s'.Holds a) : s.Holds a := by
  obtain ⟨camera, ref, entry', hentry', rfl⟩ := ha
  obtain ⟨entry, hentry, hframe⟩ := h.entries camera ref entry' hentry'
  refine ⟨camera, ref, entry, hentry, ?_⟩
  unfold Entry.allocation
  rw [hframe]

theorem Keeps.trans (h : Keeps s s') (h' : Keeps s' s'') : Keeps s s'' where
  allocated := h'.allocated.trans h.allocated
  entries camera ref entry'' hentry'' := by
    obtain ⟨entry', hentry', hframe'⟩ := h'.entries camera ref entry'' hentry''
    obtain ⟨entry, hentry, hframe⟩ := h.entries camera ref entry' hentry'
    exact ⟨entry, hentry, hframe'.trans hframe⟩
  released a ha := by
    rcases h'.released a ha with hbefore | hheld
    · exact h.released a hbefore
    · exact .inr (h.holds hheld)

theorem keeps_of_same (hallocated : s'.allocated = s.allocated)
    (hreleased : s'.released = s.released)
    (hentries : ∀ camera ref, s'.entryAt camera ref = s.entryAt camera ref) : Keeps s s' where
  allocated := hallocated
  entries camera ref entry' h := ⟨entry', by rw [← hentries]; exact h, rfl⟩
  released a ha := .inl (hreleased ▸ ha)

theorem keeps_of_modify (f : Entry → Entry) (hf : ∀ entry, (f entry).frame = entry.frame)
    (hallocated : s'.allocated = s.allocated) (hreleased : s'.released = s.released)
    (hrings : s'.rings = (s.modifyEntry camera ref f).rings) : Keeps s s' where
  allocated := hallocated
  entries camera' ref' entry' h := by
    have hentry : (s.modifyEntry camera ref f).entryAt camera' ref' = some entry' := by
      unfold entryAt at h ⊢
      rw [← hrings]
      exact h
    rw [entryAt_modifyEntry] at hentry
    split at hentry
    · rename_i hsame
      obtain ⟨rfl, rfl⟩ := hsame
      obtain ⟨entry, hbefore, rfl⟩ := Option.map_eq_some_iff.mp hentry
      exact ⟨entry, hbefore, hf entry⟩
    · exact ⟨entry', hentry, rfl⟩
  released a ha := .inl (hreleased ▸ ha)

/-! ## What readers and maintenance do -/

theorem keeps_registerCamera (s : FrameBuffer) (camera : CameraId) :
    Keeps s (s.registerCamera camera) := by
  obtain ⟨-, hreleased, hallocated, -⟩ := registerCamera_frame s camera
  exact keeps_of_same hallocated hreleased fun _ _ => entryAt_registerCamera

theorem keeps_endHold (kind : HoldKind) (camera : CameraId) (ref : FrameRef)
    (standing : Standing) (s : FrameBuffer) (id : Nat) :
    Keeps s (endHold kind camera ref standing s id) :=
  keeps_of_modify (·.removeHold kind id) (fun _ => rfl) rfl rfl rfl

theorem keeps_breakExpired (kind : HoldKind) (s : FrameBuffer) (camera : CameraId)
    (ref : FrameRef) : Keeps s (breakExpired kind s camera ref) := by
  have hall : ∀ (ids : List Nat) (s : FrameBuffer),
      Keeps s (ids.foldl (endHold kind camera ref .broken) s) := by
    intro ids
    induction ids with
    | nil => exact fun s => .refl s
    | cons id rest ih => exact fun s => (keeps_endHold kind camera ref .broken s id).trans (ih _)
  unfold breakExpired
  split
  · exact .refl s
  · exact hall _ s

theorem keeps_endExpired (s : FrameBuffer) (camera : CameraId) (ref : FrameRef) :
    Keeps s (s.endExpired camera ref) :=
  (keeps_breakExpired .lease s camera ref).trans (keeps_breakExpired .pin _ camera ref)

theorem keeps_removeEntry (s : FrameBuffer) (camera : CameraId) (ref : FrameRef) :
    Keeps s (s.removeEntry camera ref) where
  allocated := rfl
  entries camera' ref' entry' h := by
    rw [entryAt_removeEntry] at h
    split at h
    · cases h
    · exact ⟨entry', h, rfl⟩
  released _ ha := .inl ha

theorem keeps_reclaim (hentry : s.entryAt camera ref = some entry) :
    Keeps s (s.reclaim camera ref entry) where
  allocated := rfl
  entries := (keeps_removeEntry s camera ref).entries
  released a ha := by
    rcases mem_append.mp ha with hbefore | hnew
    · exact .inl hbefore
    · exact .inr ⟨camera, ref, entry, hentry, (mem_singleton.mp hnew).symm⟩

theorem keeps_evictOldest (camera : CameraId) (semantics : SourceSemantics)
    (refs : List FrameRef) (s : FrameBuffer) :
    Keeps s (evictOldest camera semantics refs s).2 := by
  induction refs generalizing s with
  | nil => exact .refl s
  | cons ref rest ih =>
    unfold evictOldest
    split
    · exact (keeps_removeEntry s camera ref).trans (ih _)
    have hended := keeps_endExpired s camera ref
    dsimp only
    split
    · exact hended.trans (ih _)
    · rename_i entry hentry
      split
      · exact hended.trans (ih _)
      · exact hended.trans (keeps_reclaim hentry)

theorem mem_forgotten {refs : List FrameRef} {entries : OrderedDict FrameRef Entry}
    (h : a ∈ forgotten refs entries) :
    ∃ ref entry, entries.get? ref = some entry ∧ entry.allocation = a := by
  induction refs generalizing entries with
  | nil => cases h
  | cons ref rest ih =>
    unfold forgotten at h
    split at h
    · exact ih h
    · rename_i entry hentry
      rcases mem_cons.mp h with rfl | hrest
      · exact ⟨ref, entry, hentry, rfl⟩
      · obtain ⟨ref', entry', hentry', ha⟩ := ih hrest
        obtain ⟨-, hentry'⟩ := OrderedDict.get?_of_erase hentry'
        exact ⟨ref', entry', hentry', ha⟩

theorem keeps_forgetCamera (s : FrameBuffer) (camera : CameraId) :
    Keeps s (s.forgetCamera camera) := by
  have hentries : ∀ camera' ref entry',
      (s.forgetCamera camera).entryAt camera' ref = some entry' →
        ∃ entry, s.entryAt camera' ref = some entry ∧ entry'.frame = entry.frame := by
    intro camera' ref entry' h
    rw [entryAt_forgetCamera] at h
    split at h
    · cases h
    · exact ⟨entry', h, rfl⟩
  unfold forgetCamera at hentries ⊢
  cases hring : s.rings.get? camera with
  | none => exact .refl s
  | some ring =>
    rw [hring] at hentries
    refine ⟨rfl, hentries, fun a ha => ?_⟩
    rcases mem_append.mp ha with hbefore | hnew
    · exact .inl hbefore
    · obtain ⟨ref, entry, hentry, hallocation⟩ := mem_forgotten hnew
      exact .inr ⟨camera, ref, entry, entryAt_eq_some.mpr ⟨ring, hring, hentry⟩, hallocation⟩

theorem keeps_hold (kind : HoldKind) (ref : FrameRef) (purpose : String) (span : Duration)
    (s : FrameBuffer) : Keeps s (hold kind ref purpose span s).2 := by
  have hregistered := keeps_registerCamera s ref.cameraId
  rcases hold_eq kind ref purpose span s with heq | ⟨entry, -, heq⟩
  · rw [heq]
    exact hregistered
  · rw [heq]
    exact hregistered.trans (keeps_of_modify (·.addHold kind _) (fun _ => rfl) rfl rfl rfl)

theorem keeps_giveBack (kind : HoldKind) (s : FrameBuffer) (id : Nat) :
    Keeps s (giveBack kind s id) := by
  unfold giveBack
  split
  · exact .refl s
  · split
    · exact keeps_endHold kind _ _ .returned s id
    · exact .refl s

theorem keeps_unpin (s : FrameBuffer) (id : Nat) : Keeps s (s.unpin id) := by
  unfold unpin
  split
  · exact .refl s
  · split
    · exact (keeps_registerCamera s _).trans (keeps_giveBack .pin _ id)
    · exact .refl s

theorem keeps_sweepEntry (camera : CameraId) (acc : Nat × FrameBuffer) (ref : FrameRef) :
    Keeps acc.2 (sweepEntry camera acc ref).2 := by
  unfold sweepEntry
  split
  · exact .refl _
  have hended := keeps_endExpired acc.2 camera ref
  dsimp only
  split
  · exact hended
  · rename_i entry hentry
    split
    · exact hended.trans (keeps_reclaim hentry)
    · exact hended

theorem keeps_sweep (s : FrameBuffer) : Keeps s s.sweep.2 := by
  have hring : ∀ (refs : List FrameRef) (camera : CameraId) (acc : Nat × FrameBuffer),
      Keeps acc.2 (refs.foldl (sweepEntry camera) acc).2 := by
    intro refs camera
    induction refs with
    | nil => exact fun acc => .refl acc.2
    | cons ref rest ih => exact fun acc => (keeps_sweepEntry camera acc ref).trans (ih _)
  have hrings : ∀ (cameras : List CameraId) (acc : Nat × FrameBuffer),
      Keeps acc.2 (cameras.foldl sweepRing acc).2 := by
    intro cameras
    induction cameras with
    | nil => exact fun acc => .refl acc.2
    | cons camera rest ih =>
      intro acc
      have hone : Keeps acc.2 (sweepRing acc camera).2 := by
        unfold sweepRing
        split
        · exact .refl acc.2
        · exact hring _ camera acc
      exact hone.trans (ih _)
  exact hrings s.rings.keys (0, s)

/-- A call that neither takes a slot nor gives one back. -/
inductive ReaderCall where
  | advance (elapsed : Nat)
  | registerCamera (camera : CameraId)
  | forgetCamera (camera : CameraId)
  | acquire (frameRef : FrameRef) (holderId : String) (deadline : Option Duration)
  | release (lease : Nat)
  | pin (frameRef : FrameRef) (ttl : Duration) (reason : String)
  | unpin (handle : Nat)
  | sweep

def serve (s : FrameBuffer) : ReaderCall → FrameBuffer
  | .advance elapsed => s.advance elapsed
  | .registerCamera camera => s.registerCamera camera
  | .forgetCamera camera => s.forgetCamera camera
  | .acquire frameRef holderId deadline => (acquire frameRef holderId deadline s).2
  | .release lease => s.release lease
  | .pin frameRef ttl reason => (pin frameRef ttl reason s).2
  | .unpin handle => s.unpin handle
  | .sweep => s.sweep.2

theorem keeps_serve (s : FrameBuffer) (call : ReaderCall) : Keeps s (s.serve call) := by
  cases call with
  | advance elapsed => exact keeps_of_same rfl rfl fun _ _ => rfl
  | registerCamera camera => exact keeps_registerCamera s camera
  | forgetCamera camera => exact keeps_forgetCamera s camera
  | acquire frameRef holderId deadline => exact keeps_hold .lease frameRef holderId _ s
  | release lease => exact keeps_giveBack .lease s lease
  | pin frameRef ttl reason => exact keeps_hold .pin frameRef reason ttl s
  | unpin handle => exact keeps_unpin s handle
  | sweep => exact keeps_sweep s

theorem acquireSlot_cases (camera : CameraId) (semantics : SourceSemantics)
    (refusal : Option PyException) (s : FrameBuffer) :
    (∃ exc s', acquireSlot camera semantics refusal s = (.error exc, s') ∧ Keeps s s') ∨
      ∃ s', acquireSlot camera semantics refusal s =
        (.ok ⟨s.allocated, camera⟩, { s' with allocated := s.allocated + 1 }) ∧ Keeps s s' := by
  have hallocate : ∀ t, Keeps s t →
      (∃ exc s', allocate camera refusal t = (.error exc, s') ∧ Keeps s s') ∨
        ∃ s', allocate camera refusal t =
          (.ok ⟨s.allocated, camera⟩, { s' with allocated := s.allocated + 1 }) ∧ Keeps s s' := by
    intro t ht
    unfold allocate
    cases refusal with
    | some exc => exact .inl ⟨exc, t, rfl, ht⟩
    | none => exact .inr ⟨t, by rw [ht.allocated], ht⟩
  have hregistered := keeps_registerCamera s camera
  unfold acquireSlot
  dsimp only
  split
  · exact hallocate _ hregistered
  rename_i ring hring
  split
  · have hevicted := keeps_evictOldest camera semantics ring.order (s.registerCamera camera)
    split
    · rename_i t heq
      rw [heq] at hevicted
      exact hallocate t (hregistered.trans hevicted)
    · rename_i t heq
      rw [heq] at hevicted
      exact .inl ⟨_, t, rfl, hregistered.trans hevicted⟩
  · exact hallocate _ hregistered

structure Issued (s : FrameBuffer) : Prop where
  held : ∀ a, s.Holds a → a < s.allocated
  released : ∀ a ∈ s.released, a < s.allocated

theorem Issued.keeps (h : s.Issued) (hkeeps : Keeps s s') : s'.Issued where
  held a ha := hkeeps.allocated ▸ h.held a (hkeeps.holds ha)
  released a ha := by
    rw [hkeeps.allocated]
    rcases hkeeps.released a ha with hbefore | hheld
    · exact h.released a hbefore
    · exact h.held a hheld

theorem Issued.take (h : s.Issued) : Issued { s with allocated := s.allocated + 1 } where
  held a ha := Nat.lt_succ_of_lt (h.held a ha)
  released a ha := Nat.lt_succ_of_lt (h.released a ha)

theorem Issued.discardSlot (h : s.Issued) {slot : FrameSlot}
    (hslot : slot.allocation < s.allocated) :
    (s.discardSlot slot).Issued where
  held := h.held
  released a ha := by
    rcases mem_append.mp ha with hbefore | hnew
    · exact h.released a hbefore
    · rw [mem_singleton.mp hnew]
      exact hslot

theorem Issued.addEntry (h : s.Issued) {frame : Frame} (hpixels : frame.pixels < s.allocated) :
    (s.addEntry frame).Issued := by
  obtain ⟨-, hreleased, hallocated, -⟩ := registerCamera_frame s frame.frameRef.cameraId
  have hsame : (s.addEntry frame).allocated = s.allocated := hallocated
  refine ⟨fun a ha => ?_, fun a ha => ?_⟩
  · obtain ⟨camera, ref, entry, hentry, rfl⟩ := ha
    rw [hsame]
    rw [entryAt_addEntry] at hentry
    split at hentry
    · obtain rfl := Option.some.inj hentry
      exact hpixels
    · exact h.held _ ⟨camera, ref, entry, hentry, rfl⟩
  · rw [hsame]
    have hbefore : a ∈ s.released := hreleased ▸ ha
    exact h.released a hbefore

theorem issued_new (config : BufferSection) : ({ config } : FrameBuffer).Issued where
  held a ha := by
    obtain ⟨camera, ref, entry, hentry, -⟩ := ha
    cases hentry
  released a ha := by cases ha

end VisionOs.Acquisition.FrameBuffer
