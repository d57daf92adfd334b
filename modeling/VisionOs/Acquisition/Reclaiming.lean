/-
  What the buffer ends and takes back by itself: holds whose deadline has passed,
  and entries that nobody holds.  Neither eviction nor the sweep touches a frame
  that somebody may still read.
-/
import VisionOs.Acquisition.Traffic

namespace VisionOs.Acquisition.FrameBuffer

open Core Lib List OrderedDict Option

variable {slots : OrderedDict CameraId FrameSlot} {published : List FrameRef}
  {s s' s'' : FrameBuffer} {camera camera' : CameraId} {ref ref' : FrameRef} {entry : Entry}
  {kind : HoldKind} {id : Nat} {a : AllocationId}

/-- A lease or pin on the allocation is out and has not lapsed. -/
def ReadBy (s : FrameBuffer) (a : AllocationId) : Prop :=
  ∃ (kind : HoldKind) (id : Nat) (b : Borrow Held), (s.borrows kind).handed[id]? = some b ∧
    b.resource.allocation = a ∧ b.Live s.now.ns

structure Maintains (s s' : FrameBuffer) : Prop where
  config : s'.config = s.config
  now : s'.now = s.now
  allocated : s'.allocated = s.allocated
  readBy : ∀ a, s'.ReadBy a ↔ s.ReadBy a
  released : ∀ a ∈ s'.released, a ∈ s.released ∨ ¬ s.ReadBy a
  load : ∀ camera, s'.load camera ≤ s.load camera
  capacity : ∀ camera ring', s'.rings.get? camera = some ring' →
    ∃ ring, s.rings.get? camera = some ring ∧ ring'.capacity = ring.capacity

theorem Maintains.refl (s : FrameBuffer) : Maintains s s :=
  ⟨rfl, rfl, rfl, fun _ => Iff.rfl, fun _ ha => .inl ha, fun _ => le_rfl,
    fun _ ring h => ⟨ring, h, rfl⟩⟩

theorem Maintains.trans (h : Maintains s s') (h' : Maintains s' s'') : Maintains s s'' where
  config := h'.config.trans h.config
  now := h'.now.trans h.now
  allocated := h'.allocated.trans h.allocated
  readBy a := (h'.readBy a).trans (h.readBy a)
  released a ha := by
    rcases h'.released a ha with hold | hfree
    · exact h.released a hold
    · exact .inr fun hread => hfree ((h.readBy a).mpr hread)
  load camera := (h'.load camera).trans (h.load camera)
  capacity camera ring'' hring'' := by
    obtain ⟨ring', hring', hcapacity'⟩ := h'.capacity camera ring'' hring''
    obtain ⟨ring, hring, hcapacity⟩ := h.capacity camera ring' hring'
    exact ⟨ring, hring, hcapacity'.trans hcapacity⟩

/-! ## Breaking what has expired -/

theorem Sound.listed (h : Sound slots published s) (hentry : s.entryAt camera ref = some entry)
    (hid : id ∈ entry.holds kind) :
    ∃ b, (s.borrows kind).handed[id]? = some b ∧ b.resource.frameRef = ref ∧ b.standing = .out ∧
      camera = ref.cameraId := by
  obtain ⟨b, hb, href, hout⟩ := (h.out camera ref entry kind id hentry).mp hid
  exact ⟨b, hb, href, hout, (h.home camera ref entry hentry).1.symm⟩

theorem maintains_endHold {b : Borrow Held} (hb : (s.borrows kind).handed[id]? = some b)
    (hexpired : b.deadline < s.now.ns) :
    Maintains s (endHold kind camera ref .broken s id) := by
  refine ⟨rfl, rfl, rfl, fun a => ?_, fun a ha => .inl ha, fun camera' => ?_,
    fun camera' ring' hring' => ?_⟩
  · constructor
    · rintro ⟨kind', id', b', hb', ha, hlive⟩
      rcases (handed_endHold hb).mp hb' with ⟨-, hb'⟩ | ⟨-, -, rfl⟩
      · exact ⟨kind', id', b', hb', ha, hlive⟩
      · exact absurd hlive.2 (not_le.mpr hexpired)
    · rintro ⟨kind', id', b', hb', ha, hlive⟩
      refine ⟨kind', id', b', (handed_endHold hb).mpr (.inl ⟨?_, hb'⟩), ha, hlive⟩
      rintro ⟨rfl, rfl⟩
      rw [hb] at hb'
      obtain rfl := some.inj hb'
      exact absurd hlive.2 (not_le.mpr hexpired)
  · show (s.modifyEntry camera ref (·.removeHold kind id)).load camera' ≤ s.load camera'
    unfold load
    cases hring : (s.modifyEntry camera ref (·.removeHold kind id)).rings.get? camera' with
    | none => exact Nat.zero_le _
    | some ring =>
      obtain ⟨before, hbefore, horder, -⟩ := get?_modifyEntry hring
      rw [hbefore]
      exact le_of_eq (congrArg length horder)
  · obtain ⟨before, hbefore, -, -, hcapacity⟩ := get?_modifyEntry hring'
    exact ⟨before, hbefore, hcapacity⟩

def Thins (s s' : FrameBuffer) : Prop :=
  (∀ camera ref entry, s'.entryAt camera ref = some entry → ∃ before,
    s.entryAt camera ref = some before ∧ entry.allocation = before.allocation ∧
      entry.publishedAt = before.publishedAt) ∧
  ∀ camera ref entry, s.entryAt camera ref = some entry → ∃ after,
    s'.entryAt camera ref = some after ∧ after.allocation = entry.allocation ∧
      after.publishedAt = entry.publishedAt

theorem Thins.refl (s : FrameBuffer) : Thins s s :=
  ⟨fun _ _ entry h => ⟨entry, h, rfl, rfl⟩, fun _ _ entry h => ⟨entry, h, rfl, rfl⟩⟩

theorem Thins.trans (h : Thins s s') (h' : Thins s' s'') : Thins s s'' := by
  refine ⟨fun camera ref entry hentry => ?_, fun camera ref entry hentry => ?_⟩
  · obtain ⟨middle, hmiddle, ha', hp'⟩ := h'.1 camera ref entry hentry
    obtain ⟨before, hbefore, ha, hp⟩ := h.1 camera ref middle hmiddle
    exact ⟨before, hbefore, ha'.trans ha, hp'.trans hp⟩
  · obtain ⟨middle, hmiddle, ha, hp⟩ := h.2 camera ref entry hentry
    obtain ⟨after, hafter, ha', hp'⟩ := h'.2 camera ref middle hmiddle
    exact ⟨after, hafter, ha'.trans ha, hp'.trans hp⟩

theorem thins_endHold {standing : Standing} : Thins s (endHold kind camera ref standing s id) := by
  refine ⟨fun camera' ref' entry hentry => ?_, fun camera' ref' entry hentry => ?_⟩
  · obtain ⟨before, hbefore, ha, hp, -⟩ := entryAt_endHold_eq_some hentry
    exact ⟨before, hbefore, ha, hp⟩
  · exact entryAt_endHold_of_some hentry

theorem break_all {ids : List Nat} (hnodup : ids.Nodup)
    (hids : ∀ id ∈ ids, ∃ b : Borrow Held, (s.borrows kind).handed[id]? = some b ∧
      b.resource.frameRef = ref ∧ b.standing = .out ∧ b.deadline < s.now.ns)
    (h : Sound slots published s) :
    Sound slots published (ids.foldl (endHold kind ref.cameraId ref .broken) s) ∧
      Maintains s (ids.foldl (endHold kind ref.cameraId ref .broken) s) ∧
      Thins s (ids.foldl (endHold kind ref.cameraId ref .broken) s) := by
  induction ids generalizing s with
  | nil => exact ⟨h, .refl s, .refl s⟩
  | cons id rest ih =>
    obtain ⟨hnew, hnodup⟩ := nodup_cons.mp hnodup
    obtain ⟨⟨b, hb, href, hout, hexpired⟩, hrest⟩ := forall_mem_cons.mp hids
    have hended : Standing.broken ≠ .out := by decide
    have hsound := h.endHold hb hout href hended fun _ => hexpired
    have hlater : ∀ id' ∈ rest, ∃ b : Borrow Held,
        ((endHold kind ref.cameraId ref .broken s id).borrows kind).handed[id']? = some b ∧
          b.resource.frameRef = ref ∧ b.standing = .out ∧ b.deadline < s.now.ns := by
      intro id' hid'
      obtain ⟨b', hb', hrest'⟩ := hrest id' hid'
      refine ⟨b', (handed_endHold hb).mpr (.inl ⟨?_, hb'⟩), hrest'⟩
      rintro ⟨-, rfl⟩
      exact hnew hid'
    obtain ⟨hsound', hmaintains, hthins⟩ := ih hnodup hlater hsound
    exact ⟨hsound', (maintains_endHold hb hexpired).trans hmaintains, thins_endHold.trans hthins⟩

theorem breakExpired_spec (h : Sound slots published s) (kind : HoldKind) (camera : CameraId)
    (ref : FrameRef) :
    Sound slots published (s.breakExpired kind camera ref) ∧
      Maintains s (s.breakExpired kind camera ref) ∧ Thins s (s.breakExpired kind camera ref) := by
  unfold breakExpired
  cases hentry : s.entryAt camera ref with
  | none => exact ⟨h, .refl s, .refl s⟩
  | some entry =>
    have hcamera := (h.home camera ref entry hentry).1
    subst hcamera
    refine break_all ((h.nodup _ ref entry kind hentry).filter _) (fun id hid => ?_) h
    obtain ⟨hlisted, hexpired⟩ := mem_filter.mp hid
    obtain ⟨b, hb, href, hout, -⟩ := h.listed hentry hlisted
    refine ⟨b, hb, href, hout, ?_⟩
    rw [hb] at hexpired
    exact of_decide_eq_true hexpired

theorem endExpired_spec (h : Sound slots published s) (camera : CameraId) (ref : FrameRef) :
    Sound slots published (s.endExpired camera ref) ∧ Maintains s (s.endExpired camera ref) ∧
      Thins s (s.endExpired camera ref) := by
  obtain ⟨hsound, hmaintains, hthins⟩ := breakExpired_spec h .lease camera ref
  obtain ⟨hsound', hmaintains', hthins'⟩ := breakExpired_spec hsound .pin camera ref
  exact ⟨hsound', hmaintains.trans hmaintains', hthins.trans hthins'⟩

/-! ## Taking an entry back -/

theorem entryAt_reclaim : (s.reclaim camera ref entry).entryAt camera' ref' =
    if camera = camera' ∧ ref = ref' then none else s.entryAt camera' ref' :=
  entryAt_removeEntry

def afterReclaim (camera : CameraId) (ref : FrameRef) (index : Nat) : Place → Place
  | .entry camera' ref' =>
    if camera = camera' ∧ ref = ref' then .released index else .entry camera' ref'
  | place => place

theorem released_concat {released : List AllocationId} {i : Nat} {a b : AllocationId}
    (hat : (released ++ [b])[i]? = some a) :
    released[i]? = some a ∨ i = released.length ∧ b = a := by
  rcases Nat.lt_or_ge i released.length with hlt | hge
  · rw [getElem?_append_left hlt] at hat
    exact .inl hat
  · obtain ⟨hbound, -⟩ := List.getElem?_eq_some_iff.mp hat
    rw [length_append, length_singleton] at hbound
    obtain rfl : i = released.length := by omega
    rw [getElem?_concat_length] at hat
    exact .inr ⟨rfl, Option.some.inj hat⟩

theorem custody_reclaim (h : Custody (At slots s) (· < s.allocated))
    (hentry : s.entryAt camera ref = some entry) :
    Custody (At slots (s.reclaim camera ref entry)) (· < s.allocated) := by
  refine h.move (afterReclaim camera ref s.released.length) (fun place a hat => ?_)
    fun place a hat => ?_
  · cases place with
    | slot camera' => exact hat
    | released i =>
      show (s.released ++ [entry.allocation])[i]? = some a
      have hlt : i < s.released.length := (List.getElem?_eq_some_iff.mp hat).1
      rw [getElem?_append_left hlt]
      exact hat
    | entry camera' ref' =>
      obtain ⟨other, hother, ha⟩ := hat
      unfold afterReclaim
      by_cases hsame : camera = camera' ∧ ref = ref'
      · -- the entry that goes: its allocation is the last one released
        simp only [if_pos hsame]
        obtain ⟨rfl, rfl⟩ := hsame
        rw [hentry] at hother
        obtain rfl := Option.some.inj hother
        show (s.released ++ [entry.allocation])[s.released.length]? = some a
        rw [getElem?_concat_length, ha]
      · simp only [if_neg hsame]
        exact ⟨other, by rw [entryAt_reclaim, if_neg hsame, hother], ha⟩
  · cases place with
    | slot camera' => exact ⟨.slot camera', hat, rfl⟩
    | entry camera' ref' =>
      obtain ⟨other, hother, ha⟩ := hat
      rw [entryAt_reclaim] at hother
      split at hother
      · cases hother
      · rename_i hdiffer
        exact ⟨.entry camera' ref', ⟨other, hother, ha⟩, if_neg hdiffer⟩
    | released i =>
      rcases released_concat hat with hat | ⟨rfl, ha⟩
      · exact ⟨.released i, hat, rfl⟩
      · exact ⟨.entry camera ref, ⟨entry, hentry, ha⟩, if_pos ⟨rfl, rfl⟩⟩

theorem get?_removeEntry {ring : CameraRing}
    (h : (s.removeEntry camera ref).rings.get? camera' = some ring) :
    ∃ before, s.rings.get? camera' = some before ∧ ring.capacity = before.capacity ∧
      ((camera ≠ camera' ∧ ring = before) ∨ (camera = camera' ∧
        ring.order = before.order.erase ref ∧
          ring.entries.keys = before.entries.keys.erase ref)) := by
  unfold removeEntry at h
  rw [get?_modify] at h
  split at h
  · rename_i hcamera
    obtain ⟨before, hbefore, rfl⟩ := map_eq_some_iff.mp h
    exact ⟨before, hbefore, rfl, .inr ⟨hcamera, rfl, keys_erase _ _⟩⟩
  · rename_i hcamera
    exact ⟨ring, h, rfl, .inl ⟨hcamera, rfl⟩⟩

theorem Sound.reclaim (h : Sound slots published s) (hentry : s.entryAt camera ref = some entry) :
    Sound slots published (s.reclaim camera ref entry) := by
  have hbefore : ∀ camera' ref' other,
      (s.reclaim camera ref entry).entryAt camera' ref' = some other →
        s.entryAt camera' ref' = some other := by
    intro camera' ref' other hother
    rw [entryAt_reclaim] at hother
    split at hother
    · cases hother
    · exact hother
  refine ⟨fun camera' ref' other hother => h.home camera' ref' other (hbefore _ _ _ hother),
    fun camera' ref' other kind hother => h.nodup camera' ref' other kind (hbefore _ _ _ hother),
    fun camera' ref' other kind id hother => h.out camera' ref' other kind id (hbefore _ _ _ hother),
    fun kind id b hb => ?_, h.broken, h.balanced, fun camera' ring hring => ?_,
    custody_reclaim h.custody hentry⟩
  · -- what was lent on the entry that goes is on a released allocation now
    obtain ⟨hpublished, hplace⟩ := h.lent kind id b hb
    refine ⟨hpublished, ?_⟩
    rcases hplace with ⟨other, hother, ha⟩ | ⟨hnone, hreleased⟩
    · by_cases hsame : camera = b.resource.frameRef.cameraId ∧ ref = b.resource.frameRef
      · rw [← hsame.1, ← hsame.2, hentry] at hother
        refine .inr ⟨by rw [entryAt_reclaim, if_pos hsame], ?_⟩
        rw [← ha, some.inj hother]
        exact mem_append_right _ (mem_singleton.mpr rfl)
      · exact .inl ⟨other, by rw [entryAt_reclaim, if_neg hsame, hother], ha⟩
    · refine .inr ⟨?_, mem_append_left _ hreleased⟩
      rw [entryAt_reclaim, hnone, ite_self]
  · obtain ⟨before, hbefore, -, ⟨-, rfl⟩ | ⟨-, horder, hkeys⟩⟩ := get?_removeEntry hring
    · exact h.order camera' ring hbefore
    · obtain ⟨hsame, hsublist⟩ := h.order camera' before hbefore
      exact ⟨by rw [horder, hkeys, hsame], horder ▸ (erase_sublist.trans hsublist)⟩

theorem Sound.not_readBy (h : Sound slots published s) (hentry : s.entryAt camera ref = some entry)
    (hidle : ∀ kind id b, id ∈ entry.holds kind → (s.borrows kind).handed[id]? = some b →
      b.deadline < s.now.ns) : ¬ s.ReadBy entry.allocation := by
  rintro ⟨kind, id, b, hb, ha, hunreturned, hdeadline⟩
  have hat : At slots s (.entry camera ref) entry.allocation := ⟨entry, hentry, rfl⟩
  obtain ⟨-, ⟨other, hother, halloc⟩ | ⟨-, hreleased⟩⟩ := h.lent kind id b hb
  · -- the entry lent is this one, and what is out on it is listed
    have hat' : At slots s (.entry b.resource.frameRef.cameraId b.resource.frameRef)
        entry.allocation := ⟨other, hother, halloc.trans ha⟩
    obtain ⟨hcamera, href⟩ := Place.entry.inj (h.custody.unique hat hat')
    cases hstanding : b.standing with
    | out =>
      have hlisted : id ∈ entry.holds kind :=
        (h.out camera ref entry kind id hentry).mpr ⟨b, hb, href.symm, hstanding⟩
      exact absurd hdeadline (not_le.mpr (hidle kind id b hlisted hb))
    | returned => exact hunreturned hstanding
    | broken => exact absurd hdeadline (not_le.mpr (h.broken kind id b hb hstanding))
  · obtain ⟨i, hi⟩ := mem_iff_getElem?.mp hreleased
    have hat' : At slots s (.released i) entry.allocation := by
      rw [← ha]
      exact hi
    cases h.custody.unique hat hat'

theorem load_removeEntry (camera' : CameraId) :
    (s.removeEntry camera ref).load camera' ≤ s.load camera' := by
  unfold load
  cases hring : (s.removeEntry camera ref).rings.get? camera' with
  | none => exact Nat.zero_le _
  | some ring =>
    obtain ⟨before, hbefore, -, ⟨-, rfl⟩ | ⟨-, horder, -⟩⟩ := get?_removeEntry hring
    · rw [hbefore]
    · rw [hbefore]
      show ring.order.length ≤ before.order.length
      rw [horder]
      exact length_erase_le

theorem Sound.load_reclaim (h : Sound slots published s)
    (hentry : s.entryAt camera ref = some entry) :
    (s.reclaim camera ref entry).load camera + 1 = s.load camera := by
  obtain ⟨ring, hring, hfound⟩ := entryAt_eq_some.mp hentry
  have hafter : (s.reclaim camera ref entry).rings.get? camera = some
      { ring with entries := ring.entries.erase ref, order := ring.order.erase ref } := by
    show (s.rings.modify camera _).get? camera = _
    rw [get?_modify, if_pos rfl, hring]
    rfl
  have hmem : ref ∈ ring.order := by
    rw [(h.order camera ring hring).1]
    exact mem_keys_iff.mpr ⟨entry, hfound⟩
  unfold load
  rw [hafter, hring]
  show (ring.order.erase ref).length + 1 = ring.order.length
  rw [length_erase_of_mem hmem]
  have hpos := length_pos_of_mem hmem
  omega

theorem Sound.maintains_reclaim (h : Sound slots published s)
    (hentry : s.entryAt camera ref = some entry) (hreclaimable : entry.reclaimable = true) :
    Maintains s (s.reclaim camera ref entry) := by
  refine ⟨rfl, rfl, rfl, fun _ => Iff.rfl, fun a ha => ?_, load_removeEntry,
    fun camera' ring' hring' => ?_⟩
  · rcases mem_append.mp ha with hold | hnew
    · exact .inl hold
    rw [mem_singleton.mp hnew]
    refine .inr (h.not_readBy hentry fun kind id b hid _ => ?_)
    unfold Entry.reclaimable at hreclaimable
    rw [Bool.and_eq_true, List.isEmpty_iff, List.isEmpty_iff] at hreclaimable
    cases kind with
    | lease => rw [hreclaimable.1] at hid; cases hid
    | pin => rw [hreclaimable.2] at hid; cases hid
  · obtain ⟨before, hbefore, hcapacity, -⟩ := get?_removeEntry hring'
    exact ⟨before, hbefore, hcapacity⟩

theorem Sound.removeEntry_of_none (h : Sound slots published s)
    (hnone : s.entryAt camera ref = none) : s.removeEntry camera ref = s := by
  have hrings : s.rings.modify camera (fun ring =>
      { ring with entries := ring.entries.erase ref, order := ring.order.erase ref }) =
        s.rings := by
    refine modify_eq_self fun ring hring => ?_
    have hget : ring.entries.get? ref = none := by
      unfold entryAt at hnone
      rw [hring] at hnone
      exact hnone
    have hkeys : ref ∉ ring.order := by
      rw [(h.order camera ring hring).1]
      exact get?_eq_none_iff.mp hget
    rw [erase_of_get?_none hget, erase_of_not_mem hkeys]
  unfold removeEntry
  rw [hrings]

/-! ## Eviction -/

/-- No entry that the history window covers is lost. -/
def KeepsYoung (s s' : FrameBuffer) : Prop :=
  ∀ camera ref entry, s.entryAt camera ref = some entry → s.age entry ≤ s.historyNs →
    ∃ after, s'.entryAt camera ref = some after ∧ after.allocation = entry.allocation ∧
      after.publishedAt = entry.publishedAt

theorem Thins.keepsYoung (h : Thins s s') : KeepsYoung s s' :=
  fun camera ref entry hentry _ => h.2 camera ref entry hentry

theorem KeepsYoung.trans (h : KeepsYoung s s') (hmaintains : Maintains s s')
    (h' : KeepsYoung s' s'') : KeepsYoung s s'' := by
  intro camera ref entry hentry hyoung
  obtain ⟨middle, hmiddle, ha, hp⟩ := h camera ref entry hentry hyoung
  have hyoung' : s'.age middle ≤ s'.historyNs := by
    unfold age historyNs at *
    rw [hmaintains.now, hmaintains.config, hp]
    exact hyoung
  obtain ⟨after, hafter, ha', hp'⟩ := h' camera ref middle hmiddle hyoung'
  exact ⟨after, hafter, ha'.trans ha, hp'.trans hp⟩

theorem keepsYoung_reclaim (hentry : s.entryAt camera ref = some entry)
    (hold : s.historyNs < s.age entry) : KeepsYoung s (s.reclaim camera ref entry) := by
  intro camera' ref' other hother hyoung
  refine ⟨other, ?_, rfl, rfl⟩
  rw [entryAt_reclaim, if_neg, hother]
  rintro ⟨rfl, rfl⟩
  rw [hentry] at hother
  obtain rfl := some.inj hother
  omega

/-- An eviction frees a place, and spares what the history covers. -/
theorem evictOldest_spec (semantics : SourceSemantics) (refs : List FrameRef)
    (h : Sound slots published s) :
    Sound slots published (evictOldest camera semantics refs s).2 ∧
      Maintains s (evictOldest camera semantics refs s).2 ∧
      ((evictOldest camera semantics refs s).1 = true →
        (evictOldest camera semantics refs s).2.load camera + 1 ≤ s.load camera) ∧
      (semantics.mayDropFrames = false →
        KeepsYoung s (evictOldest camera semantics refs s).2) := by
  induction refs generalizing s with
  | nil =>
    exact ⟨h, .refl s, fun htrue => (by cases htrue), fun _ => (Thins.refl s).keepsYoung⟩
  | cons ref rest ih =>
    unfold evictOldest
    cases hentry : s.entryAt camera ref with
    | none =>
      rw [h.removeEntry_of_none hentry]
      exact ih h
    | some before =>
      obtain ⟨hsound, hmaintains, hthins⟩ := endExpired_spec h camera ref
      have hload := hmaintains.load camera
      -- what the rest of the loop does to a buffer in which holds have been broken
      have hrest : Sound slots published
            (evictOldest camera semantics rest (s.endExpired camera ref)).2 ∧
          Maintains s (evictOldest camera semantics rest (s.endExpired camera ref)).2 ∧
          ((evictOldest camera semantics rest (s.endExpired camera ref)).1 = true →
            (evictOldest camera semantics rest (s.endExpired camera ref)).2.load camera + 1 ≤
              s.load camera) ∧
          (semantics.mayDropFrames = false →
            KeepsYoung s (evictOldest camera semantics rest (s.endExpired camera ref)).2) := by
        obtain ⟨hsound', hmaintains', hroom, hyoung⟩ := ih hsound
        exact ⟨hsound', hmaintains.trans hmaintains', fun htrue => (hroom htrue).trans hload,
          fun hkeep => hthins.keepsYoung.trans hmaintains (hyoung hkeep)⟩
      cases hafter : (s.endExpired camera ref).entryAt camera ref with
      | none =>
        simp only [hafter]
        exact hrest
      | some entry =>
        simp only [hafter]
        split
        · exact hrest
        rename_i hgoes
        simp only [Bool.or_eq_true, Bool.not_eq_true', Bool.and_eq_true, decide_eq_true_eq,
          not_or, not_and, Bool.not_eq_false, not_le] at hgoes
        obtain ⟨hreclaimable, hold⟩ := hgoes
        refine ⟨hsound.reclaim hafter,
          hmaintains.trans (hsound.maintains_reclaim hafter hreclaimable), fun _ => ?_,
          fun hkeep => hthins.keepsYoung.trans hmaintains
            (keepsYoung_reclaim hafter (hold hkeep))⟩
        rw [hsound.load_reclaim hafter]
        exact hload

variable {acc : Nat × FrameBuffer}

theorem sweepEntry_spec (h : Sound slots published acc.2) :
    Sound slots published (sweepEntry camera acc ref).2 ∧
      Maintains acc.2 (sweepEntry camera acc ref).2 := by
  unfold sweepEntry
  cases hentry : acc.2.entryAt camera ref with
  | none => exact ⟨h, .refl _⟩
  | some before =>
    obtain ⟨hsound, hmaintains, -⟩ := endExpired_spec h camera ref
    cases hafter : (acc.2.endExpired camera ref).entryAt camera ref with
    | none =>
      simp only [hafter]
      exact ⟨hsound, hmaintains⟩
    | some entry =>
      simp only [hafter]
      split
      · rename_i hgoes
        exact ⟨hsound.reclaim hafter,
          hmaintains.trans (hsound.maintains_reclaim hafter hgoes.2)⟩
      · exact ⟨hsound, hmaintains⟩

theorem foldl_spec {β : Type} {turn : Nat × FrameBuffer → β → Nat × FrameBuffer}
    (hturn : ∀ acc b, Sound slots published acc.2 → Sound slots published (turn acc b).2 ∧
      Maintains acc.2 (turn acc b).2) (items : List β)
    (h : Sound slots published acc.2) :
    Sound slots published (items.foldl turn acc).2 ∧ Maintains acc.2 (items.foldl turn acc).2 := by
  induction items generalizing acc with
  | nil => exact ⟨h, .refl _⟩
  | cons b rest ih =>
    obtain ⟨hsound, hmaintains⟩ := hturn acc b h
    obtain ⟨hsound', hmaintains'⟩ := ih hsound
    exact ⟨hsound', hmaintains.trans hmaintains'⟩

theorem sweep_spec (h : Sound slots published s) :
    Sound slots published s.sweep.2 ∧ Maintains s s.sweep.2 := by
  have hstart : Sound slots published ((0, s) : Nat × FrameBuffer).2 := h
  refine foldl_spec (fun acc camera hacc => ?_) s.rings.keys hstart
  unfold sweepRing
  split
  · exact ⟨hacc, .refl _⟩
  · rename_i ring _
    exact foldl_spec (fun acc ref hacc => sweepEntry_spec hacc) ring.order hacc

end VisionOs.Acquisition.FrameBuffer
