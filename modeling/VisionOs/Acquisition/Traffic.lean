/-
  A frame buffer with the writers around it, each with at most one slot.  Every allocation taken
  is in one place, and the holds an entry lists are those that are out on it.
-/
import VisionOs.Acquisition.Buffer
import VisionOs.Lib.Runs

namespace VisionOs.Acquisition

open Core Lib OrderedDict Option FrameBuffer Function

/-- A call of the buffer, or the passing of time. -/
inductive BufferCall where
  | advance (elapsed : Nat)
  | registerCamera (camera : CameraId)
  | forgetCamera (camera : CameraId)
  | acquireSlot (camera : CameraId) (semantics : SourceSemantics) (refusal : Option PyException)
  | discardSlot (camera : CameraId)
  | publish (camera : CameraId) (frameRef : FrameRef) (privacyState : PrivacyState)
      (bytesWritten : Int)
  | acquire (frameRef : FrameRef) (holderId : String) (deadline : Option Duration)
  | release (lease : Nat)
  | pin (frameRef : FrameRef) (ttl : Duration) (reason : String)
  | unpin (handle : Nat)
  | sweep

structure Traffic where
  buffer : FrameBuffer
  slots : OrderedDict CameraId FrameSlot := ∅
  published : List FrameRef := []

namespace Traffic

/-- What a call leaves.  A writer without a slot has nothing to discard or to publish; one whose
    frame is refused has its slot discarded. -/
def serve (t : Traffic) : BufferCall → Traffic
  | .advance elapsed => { t with buffer := t.buffer.advance elapsed }
  | .registerCamera camera => { t with buffer := t.buffer.registerCamera camera }
  | .forgetCamera camera => { t with buffer := t.buffer.forgetCamera camera }
  | .acquireSlot camera semantics refusal =>
    match acquireSlot camera semantics refusal t.buffer with
    | (.ok slot, buffer) => { t with buffer, slots := t.slots.set camera slot }
    | (.error _, buffer) => { t with buffer }
  | .discardSlot camera =>
    match t.slots.get? camera with
    | none => t
    | some slot =>
      { t with buffer := t.buffer.discardSlot slot, slots := t.slots.erase camera }
  | .publish camera frameRef privacyState bytesWritten =>
    match t.slots.get? camera with
    | none => t
    | some slot =>
      match publish slot frameRef privacyState bytesWritten t.buffer with
      | (.ok _, buffer) =>
        { buffer, slots := t.slots.erase camera, published := t.published ++ [frameRef] }
      | (.error _, buffer) =>
        if privacyState.emittable then { t with buffer }
        else { t with buffer, slots := t.slots.erase camera }
  | .acquire frameRef holderId deadline =>
    { t with buffer := (acquire frameRef holderId deadline t.buffer).2 }
  | .release lease => { t with buffer := t.buffer.release lease }
  | .pin frameRef ttl reason => { t with buffer := (pin frameRef ttl reason t.buffer).2 }
  | .unpin handle => { t with buffer := t.buffer.unpin handle }
  | .sweep => { t with buffer := t.buffer.sweep.2 }

/-- A writer that has a slot asks for no other, and no ref is published twice. -/
def Orderly (t : Traffic) : BufferCall → Prop
  | .acquireSlot camera _ _ => t.slots.get? camera = none
  | .publish _ frameRef _ _ => frameRef ∉ t.published
  | _ => True

def opened (config : BufferSection) : Traffic where
  buffer := { config }

end Traffic

inductive Place where
  | slot (camera : CameraId)
  | entry (camera : CameraId) (ref : FrameRef)
  | released (index : Nat)

namespace FrameBuffer

variable {slots : OrderedDict CameraId FrameSlot} {published : List FrameRef}
  {s s' : FrameBuffer} {camera camera' : CameraId} {ref ref' : FrameRef} {entry : Entry}
  {kind : HoldKind} {id : Nat}

/-- Where an allocation is. -/
def At (slots : OrderedDict CameraId FrameSlot) (s : FrameBuffer) : Place → AllocationId → Prop
  | .slot camera, a => ∃ slot, slots.get? camera = some slot ∧ slot.allocation = a
  | .entry camera ref, a => ∃ entry, s.entryAt camera ref = some entry ∧ entry.allocation = a
  | .released i, a => s.released[i]? = some a

/-- Entries are filed under their camera, and list exactly the borrows that are out on them. -/
structure Sound (slots : OrderedDict CameraId FrameSlot) (published : List FrameRef)
    (s : FrameBuffer) : Prop where
  home : ∀ camera ref entry, s.entryAt camera ref = some entry →
    ref.cameraId = camera ∧ ref ∈ published
  nodup : ∀ camera ref entry kind, s.entryAt camera ref = some entry → (entry.holds kind).Nodup
  out : ∀ camera ref entry kind id, s.entryAt camera ref = some entry →
    (id ∈ entry.holds kind ↔ ∃ b, (s.borrows kind).handed[id]? = some b ∧
      b.resource.frameRef = ref ∧ b.standing = .out)
  lent : ∀ (kind : HoldKind) (id : Nat) (b : Borrow Held),
    (s.borrows kind).handed[id]? = some b → b.resource.frameRef ∈ published ∧
    ((∃ entry, s.entryAt b.resource.frameRef.cameraId b.resource.frameRef = some entry ∧
      entry.allocation = b.resource.allocation) ∨
      (s.entryAt b.resource.frameRef.cameraId b.resource.frameRef = none ∧
        b.resource.allocation ∈ s.released))
  broken : ∀ (kind : HoldKind) (id : Nat) (b : Borrow Held),
    (s.borrows kind).handed[id]? = some b → b.standing = .broken → b.deadline < s.now.ns
  balanced : ∀ kind, (s.borrows kind).Balanced
  order : ∀ camera ring, s.rings.get? camera = some ring →
    ring.order = ring.entries.keys ∧ ring.order.Sublist published
  custody : Custody (At slots s) (· < s.allocated)

theorem entryAt_eq_some : s.entryAt camera ref = some entry ↔
    ∃ ring, s.rings.get? camera = some ring ∧ ring.entries.get? ref = some entry :=
  bind_eq_some_iff

theorem entryAt_modifyEntry (f : Entry → Entry) :
    (s.modifyEntry camera ref f).entryAt camera' ref' =
      if camera = camera' ∧ ref = ref' then (s.entryAt camera ref).map f
      else s.entryAt camera' ref' := by
  unfold entryAt modifyEntry
  simp only [get?_modify]
  by_cases hcamera : camera = camera'
  · subst hcamera
    cases hring : s.rings.get? camera with
    | none => simp
    | some ring =>
      by_cases href : ref = ref' <;> simp [get?_modify, href]
  · simp [hcamera]

theorem entryAt_removeEntry : (s.removeEntry camera ref).entryAt camera' ref' =
    if camera = camera' ∧ ref = ref' then none else s.entryAt camera' ref' := by
  unfold entryAt removeEntry
  simp only [get?_modify]
  by_cases hcamera : camera = camera'
  · subst hcamera
    cases hring : s.rings.get? camera with
    | none => simp
    | some ring =>
      by_cases href : ref = ref'
      · simp [get?_erase, href]
      · simp [get?_erase, href, Ne.symm href]
  · simp [hcamera]

theorem get?_registerCamera : (s.registerCamera camera).rings.get? camera' =
    if camera = camera' ∧ s.rings.get? camera = none then
      some { capacity := s.config.slotsPerCamera }
    else s.rings.get? camera' := by
  unfold registerCamera
  cases hring : s.rings.get? camera with
  | some ring => simp
  | none =>
    rw [get?_set]
    by_cases hcamera : camera = camera' <;> simp [hcamera]

@[simp] theorem entryAt_registerCamera : (s.registerCamera camera).entryAt camera' ref' =
    s.entryAt camera' ref' := by
  unfold entryAt
  rw [get?_registerCamera]
  split
  · rename_i hnew
    rw [← hnew.1, hnew.2]
    rfl
  · rfl

theorem registerCamera_frame (s : FrameBuffer) (camera : CameraId) :
    (s.registerCamera camera).borrows = s.borrows ∧
      (s.registerCamera camera).released = s.released ∧
      (s.registerCamera camera).allocated = s.allocated ∧
      (s.registerCamera camera).now = s.now ∧ (s.registerCamera camera).config = s.config := by
  unfold registerCamera
  split <;> exact ⟨rfl, rfl, rfl, rfl, rfl⟩

theorem entryAt_forgetCamera : (s.forgetCamera camera).entryAt camera' ref' =
    if camera = camera' then none else s.entryAt camera' ref' := by
  unfold forgetCamera
  cases hring : s.rings.get? camera with
  | none =>
    by_cases hcamera : camera = camera'
    · subst hcamera
      simp [entryAt, hring]
    · simp [hcamera]
  | some ring =>
    show ((s.rings.erase camera).get? camera').bind _ = _
    rw [get?_erase]
    by_cases hcamera : camera = camera'
    · simp [hcamera]
    · rw [if_neg (Ne.symm hcamera), if_neg hcamera]
      rfl

structure SameHolds (s s' : FrameBuffer) : Prop where
  entries : ∀ camera ref, s'.entryAt camera ref = s.entryAt camera ref
  borrows : s'.borrows = s.borrows
  released : s'.released = s.released
  now : s.now.ns ≤ s'.now.ns

theorem Sound.congr (h : Sound slots published s) (hsame : SameHolds s s')
    (horder : ∀ camera ring, s'.rings.get? camera = some ring →
      ring.order = ring.entries.keys ∧ ring.order.Sublist published)
    (hcustody : Custody (At slots s') (· < s'.allocated)) : Sound slots published s' := by
  obtain ⟨hentries, hborrows, hreleased, hnow⟩ := hsame
  refine ⟨fun camera ref entry hentry => ?_, fun camera ref entry kind hentry => ?_,
    fun camera ref entry kind id hentry => ?_, fun kind id b hb => ?_, fun kind id b hb hbroken => ?_,
    fun kind => ?_, horder, hcustody⟩
  · rw [hentries] at hentry
    exact h.home camera ref entry hentry
  · rw [hentries] at hentry
    exact h.nodup camera ref entry kind hentry
  · rw [hentries] at hentry
    rw [hborrows]
    exact h.out camera ref entry kind id hentry
  · rw [hborrows] at hb
    rw [hentries, hreleased]
    exact h.lent kind id b hb
  · rw [hborrows] at hb
    exact lt_of_lt_of_le (h.broken kind id b hb hbroken) hnow
  · rw [hborrows]
    exact h.balanced kind

theorem at_congr (hentries : ∀ camera ref, s'.entryAt camera ref = s.entryAt camera ref)
    (hreleased : s'.released = s.released) (place : Place) (a : AllocationId) :
    At slots s' place a ↔ At slots s place a := by
  cases place with
  | slot camera => exact Iff.rfl
  | entry camera ref =>
    show (∃ entry, s'.entryAt camera ref = some entry ∧ _) ↔ _
    rw [hentries]
    exact Iff.rfl
  | released i =>
    show s'.released[i]? = some a ↔ _
    rw [hreleased]
    exact Iff.rfl

theorem Sound.registerCamera (h : Sound slots published s) (camera : CameraId) :
    Sound slots published (s.registerCamera camera) := by
  obtain ⟨hborrows, hreleased, hallocated, hnow, -⟩ := registerCamera_frame s camera
  refine h.congr ⟨fun _ _ => entryAt_registerCamera, hborrows, hreleased, hnow ▸ le_rfl⟩
    (fun camera' ring hring => ?_) ?_
  · rw [get?_registerCamera] at hring
    split at hring
    · rw [← some.inj hring]
      exact ⟨rfl, List.nil_sublist _⟩
    · exact h.order camera' ring hring
  · rw [hallocated]
    exact h.custody.congr (at_congr (fun _ _ => entryAt_registerCamera) hreleased)

theorem Sound.advance (h : Sound slots published s) (elapsed : Nat) :
    Sound slots published (s.advance elapsed) := by
  refine h.congr ⟨fun _ _ => rfl, rfl, rfl, ?_⟩ h.order
    (h.custody.congr (at_congr (fun _ _ => rfl) rfl))
  show s.now.ns ≤ s.now.ns + elapsed
  omega

/-! ## Ending a hold -/

theorem get?_modifyEntry {f : Entry → Entry} {ring : CameraRing}
    (h : (s.modifyEntry camera ref f).rings.get? camera' = some ring) :
    ∃ before, s.rings.get? camera' = some before ∧ ring.order = before.order ∧
      ring.entries.keys = before.entries.keys ∧ ring.capacity = before.capacity := by
  unfold modifyEntry at h
  rw [get?_modify] at h
  split at h
  · obtain ⟨before, hbefore, rfl⟩ := map_eq_some_iff.mp h
    exact ⟨before, hbefore, rfl, keys_modify _ _ _, rfl⟩
  · exact ⟨ring, h, rfl, rfl, rfl⟩

theorem holds_removeHold (entry : Entry) (kind kind' : HoldKind) (id : Nat) :
    (entry.removeHold kind id).holds kind' =
      if kind' = kind then (entry.holds kind').erase id else entry.holds kind' := by
  unfold Entry.removeHold
  by_cases hkind : kind' = kind
  · subst hkind
    simp
  · simp [hkind]

theorem holds_addHold (entry : Entry) (kind kind' : HoldKind) (id : Nat) :
    (entry.addHold kind id).holds kind' =
      if kind' = kind then entry.holds kind' ++ [id] else entry.holds kind' := by
  unfold Entry.addHold
  by_cases hkind : kind' = kind
  · subst hkind
    simp
  · simp [hkind]

variable {standing : Standing}

theorem entryAt_endHold (camera' : CameraId) (ref' : FrameRef) :
    (endHold kind camera ref standing s id).entryAt camera' ref' =
      if camera = camera' ∧ ref = ref' then (s.entryAt camera ref).map (·.removeHold kind id)
      else s.entryAt camera' ref' :=
  entryAt_modifyEntry _

variable {ended : Borrow Held}

theorem handed_endHold
    (hended : (s.borrows kind).handed[id]? = some ended) {kind' : HoldKind} {id' : Nat}
    {b : Borrow Held} :
    ((endHold kind camera ref standing s id).borrows kind').handed[id']? = some b ↔
      (¬ (kind' = kind ∧ id' = id) ∧ (s.borrows kind').handed[id']? = some b) ∨
        (kind' = kind ∧ id' = id ∧ b = { ended with standing }) := by
  show ((update s.borrows kind ((s.borrows kind).finish id standing)) kind').handed[id']? =
    some b ↔ _
  by_cases hkind : kind' = kind
  · subst hkind
    rw [update_self, Borrows.handed_finish hended]
    simp
  · rw [update_of_ne hkind]
    simp [hkind]

theorem entryAt_endHold_eq_some
    (h : (endHold kind camera ref standing s id).entryAt camera' ref' = some entry) :
    ∃ before, s.entryAt camera' ref' = some before ∧ entry.allocation = before.allocation ∧
      entry.publishedAt = before.publishedAt ∧
      ∀ kind', entry.holds kind' =
        if camera = camera' ∧ ref = ref' ∧ kind' = kind then (before.holds kind').erase id
        else before.holds kind' := by
  rw [entryAt_endHold] at h
  split at h
  · rename_i hsame
    obtain ⟨rfl, rfl⟩ := hsame
    obtain ⟨before, hbefore, rfl⟩ := map_eq_some_iff.mp h
    refine ⟨before, hbefore, rfl, rfl, fun kind' => ?_⟩
    rw [holds_removeHold]
    simp
  · rename_i hother
    refine ⟨entry, h, rfl, rfl, fun kind' => ?_⟩
    rw [if_neg fun hsame => hother ⟨hsame.1, hsame.2.1⟩]

theorem entryAt_endHold_of_some (h : s.entryAt camera' ref' = some entry) :
    ∃ after, (endHold kind camera ref standing s id).entryAt camera' ref' = some after ∧
      after.allocation = entry.allocation ∧ after.publishedAt = entry.publishedAt := by
  rw [entryAt_endHold]
  split
  · rename_i hsame
    obtain ⟨rfl, rfl⟩ := hsame
    rw [h]
    exact ⟨_, rfl, rfl, rfl⟩
  · exact ⟨entry, h, rfl, rfl⟩

theorem entryAt_endHold_of_none (h : s.entryAt camera' ref' = none) :
    (endHold kind camera ref standing s id).entryAt camera' ref' = none := by
  refine eq_none_iff_forall_ne_some.mpr fun entry hentry => ?_
  obtain ⟨before, hbefore, -⟩ := entryAt_endHold_eq_some hentry
  rw [h] at hbefore
  cases hbefore

theorem Sound.endHold (h : Sound slots published s)
    (hended : (s.borrows kind).handed[id]? = some ended) (hout : ended.standing = .out)
    (href : ended.resource.frameRef = ref) (hstanding : standing ≠ .out)
    (hbroken : standing = .broken → ended.deadline < s.now.ns) :
    Sound slots published (endHold kind ref.cameraId ref standing s id) := by
  refine ⟨fun camera' ref' entry hentry => ?_, fun camera' ref' entry kind' hentry => ?_,
    fun camera' ref' entry kind' id' hentry => ?_, fun kind' id' b hb => ?_,
    fun kind' id' b hb hb' => ?_, fun kind' => ?_, fun camera' ring hring => ?_, ?_⟩
  · obtain ⟨before, hbefore, -⟩ := entryAt_endHold_eq_some hentry
    exact h.home camera' ref' before hbefore
  · obtain ⟨before, hbefore, -, -, hholds⟩ := entryAt_endHold_eq_some hentry
    have hnodup := h.nodup camera' ref' before kind' hbefore
    rw [hholds]
    split
    · exact hnodup.erase id
    · exact hnodup
  · -- an entry lists what is out on it, one less where the hold has ended
    obtain ⟨before, hbefore, -, -, hholds⟩ := entryAt_endHold_eq_some hentry
    have hlisted := h.out camera' ref' before kind' id' hbefore
    have hnodup := h.nodup camera' ref' before kind' hbefore
    rw [hholds]
    simp only [handed_endHold hended]
    by_cases hsame : kind' = kind ∧ id' = id
    · obtain ⟨rfl, rfl⟩ := hsame
      constructor
      · intro hmem
        split at hmem
        · exact absurd hmem (hnodup.not_mem_erase)
        rename_i hother
        obtain ⟨b, hb, hbref, -⟩ := hlisted.mp hmem
        rw [hended] at hb
        obtain rfl := some.inj hb
        refine absurd ⟨?_, href.symm.trans hbref, rfl⟩ hother
        rw [← href, hbref]
        exact (h.home camera' ref' before hbefore).1
      · rintro ⟨b, ⟨hne, -⟩ | ⟨-, -, rfl⟩, -, hb⟩
        · exact absurd ⟨rfl, rfl⟩ hne
        · exact absurd hb hstanding
    · have hmem : id' ∈ (if ref.cameraId = camera' ∧ ref = ref' ∧ kind' = kind then
          (before.holds kind').erase id else before.holds kind') ↔ id' ∈ before.holds kind' := by
        split
        · rename_i hhere
          have hne : id' ≠ id := fun hid => hsame ⟨hhere.2.2, hid⟩
          exact List.mem_erase_of_ne hne
        · exact Iff.rfl
      rw [hmem, hlisted]
      constructor
      · rintro ⟨b, hb, hrest⟩
        exact ⟨b, .inl ⟨hsame, hb⟩, hrest⟩
      · rintro ⟨b, ⟨-, hb⟩ | ⟨hkind, hid, -⟩, hrest⟩
        · exact ⟨b, hb, hrest⟩
        · exact absurd ⟨hkind, hid⟩ hsame
  · have hresource : ∃ (id₀ : Nat) (b₀ : Borrow Held), (s.borrows kind').handed[id₀]? = some b₀ ∧
        b.resource = b₀.resource := by
      rcases (handed_endHold hended).mp hb with ⟨-, hb⟩ | ⟨rfl, -, rfl⟩
      · exact ⟨id', b, hb, rfl⟩
      · exact ⟨id, ended, hended, rfl⟩
    obtain ⟨id₀, b₀, hb₀, hresource⟩ := hresource
    rw [hresource]
    obtain ⟨hpublished, ⟨entry, hentry, halloc⟩ | ⟨hnone, hreleased⟩⟩ := h.lent kind' id₀ b₀ hb₀
    · obtain ⟨after, hafter, hsame, -⟩ := entryAt_endHold_of_some hentry
      exact ⟨hpublished, .inl ⟨after, hafter, hsame.trans halloc⟩⟩
    · exact ⟨hpublished, .inr ⟨entryAt_endHold_of_none hnone, hreleased⟩⟩
  · rcases (handed_endHold hended).mp hb with ⟨-, hb⟩ | ⟨-, -, rfl⟩
    · exact h.broken kind' id' b hb hb'
    · exact hbroken hb'
  · exact (forall_update_iff s.borrows fun _ b => b.Balanced).mpr
      ⟨(h.balanced kind).finish hended hout hstanding, fun kind' _ => h.balanced kind'⟩ kind'
  · obtain ⟨before, hbefore, horder, hkeys, -⟩ := get?_modifyEntry hring
    rw [horder, hkeys]
    exact h.order camera' before hbefore
  · refine h.custody.congr fun place a => ?_
    cases place with
    | slot camera => exact Iff.rfl
    | entry camera' ref' =>
      constructor
      · rintro ⟨entry, hentry, ha⟩
        obtain ⟨before, hbefore, hsame, -⟩ := entryAt_endHold_eq_some hentry
        exact ⟨before, hbefore, hsame.symm.trans ha⟩
      · rintro ⟨entry, hentry, ha⟩
        obtain ⟨after, hafter, hsame, -⟩ := entryAt_endHold_of_some hentry
        exact ⟨after, hafter, hsame.trans ha⟩
    | released i => exact Iff.rfl

end FrameBuffer

end VisionOs.Acquisition
