/-
  Every call of orderly writers keeps the buffer sound.
-/
import VisionOs.Acquisition.Reclaiming

namespace VisionOs.Acquisition

open Core Lib OrderedDict List Option Function

namespace FrameBuffer

variable {slots : OrderedDict CameraId FrameSlot} {published : List FrameRef}
  {s s' : FrameBuffer} {camera camera' : CameraId} {ref ref' : FrameRef} {entry : Entry}
  {kind : HoldKind} {id : Nat} {slot : FrameSlot}

/-! ## Holds -/

theorem handed_hold {resource : Held} {deadline : Int} {kind' : HoldKind} {id' : Nat}
    {b : Borrow Held} :
    ((update s.borrows kind ((s.borrows kind).lend resource deadline)) kind').handed[id']? =
        some b ↔
      (s.borrows kind').handed[id']? = some b ∨
        (kind' = kind ∧ id' = (s.borrows kind).handed.length ∧ b = { resource, deadline }) := by
  by_cases hkind : kind' = kind
  · subst hkind
    rw [update_self, Borrows.handed_lend]
    simp
  · rw [update_of_ne hkind]
    simp [hkind]

def lendEntry (s : FrameBuffer) (kind : HoldKind) (ref : FrameRef) (entry : Entry)
    (purpose : String) (span : Duration) : FrameBuffer :=
  { s.modifyEntry ref.cameraId ref (·.addHold kind (s.borrows kind).handed.length) with
    borrows := update s.borrows kind
      ((s.borrows kind).lend ⟨ref, entry.allocation, purpose⟩ (s.now.ns + span.ns)) }

theorem hold_eq (kind : HoldKind) (ref : FrameRef) (purpose : String) (span : Duration)
    (s : FrameBuffer) :
    (hold kind ref purpose span s).2 = s.registerCamera ref.cameraId ∨
      ∃ entry, s.entryAt ref.cameraId ref = some entry ∧
        (hold kind ref purpose span s).2 =
          (s.registerCamera ref.cameraId).lendEntry kind ref entry purpose span := by
  unfold hold
  simp only [entryAt_registerCamera]
  cases hentry : s.entryAt ref.cameraId ref with
  | none => exact .inl rfl
  | some entry => exact .inr ⟨entry, rfl, rfl⟩

theorem Sound.lendEntry (h : Sound slots published s)
    (hentry : s.entryAt ref.cameraId ref = some entry) (kind : HoldKind) (purpose : String)
    (span : Duration) : Sound slots published (s.lendEntry kind ref entry purpose span) := by
  have hafter : ∀ camera' ref' other,
      (s.lendEntry kind ref entry purpose span).entryAt camera' ref' = some other →
        ∃ before, s.entryAt camera' ref' = some before ∧ other.allocation = before.allocation ∧
          ∀ kind', other.holds kind' = if ref.cameraId = camera' ∧ ref = ref' ∧ kind' = kind then
            before.holds kind' ++ [(s.borrows kind).handed.length] else before.holds kind' := by
    intro camera' ref' other hother
    have hread := (entryAt_modifyEntry _).symm.trans hother
    split at hread
    · rename_i hsame
      obtain ⟨rfl, rfl⟩ := hsame
      obtain ⟨before, hbefore, rfl⟩ := map_eq_some_iff.mp hread
      refine ⟨before, hbefore, rfl, fun kind' => ?_⟩
      rw [holds_addHold]
      simp
    · rename_i hdiffer
      refine ⟨other, hread, rfl, fun kind' => ?_⟩
      rw [if_neg fun hsame => hdiffer ⟨hsame.1, hsame.2.1⟩]
  have hforth : ∀ camera' ref' before, s.entryAt camera' ref' = some before →
      ∃ other, (s.lendEntry kind ref entry purpose span).entryAt camera' ref' = some other ∧
        other.allocation = before.allocation := by
    intro camera' ref' before hbefore
    have heq : (s.lendEntry kind ref entry purpose span).entryAt camera' ref' = _ :=
      entryAt_modifyEntry _
    rw [heq]
    split
    · rename_i hsame
      rw [hsame.1, hsame.2, hbefore]
      exact ⟨_, rfl, rfl⟩
    · exact ⟨before, hbefore, rfl⟩
  -- the new id is not listed anywhere yet
  have hfresh : ∀ camera' ref' before kind', s.entryAt camera' ref' = some before →
      kind' = kind → (s.borrows kind).handed.length ∉ before.holds kind' := by
    rintro camera' ref' before kind' hbefore rfl hid
    obtain ⟨b, hb, -⟩ := (h.out camera' ref' before kind' _ hbefore).mp hid
    rw [getElem?_eq_none le_rfl] at hb
    cases hb
  refine ⟨fun camera' ref' other hother => ?_, fun camera' ref' other kind' hother => ?_,
    fun camera' ref' other kind' id' hother => ?_, fun kind' id' b hb => ?_,
    fun kind' id' b hb hbroken => ?_, fun kind' => ?_, fun camera' ring hring => ?_, ?_⟩
  · obtain ⟨before, hbefore, -⟩ := hafter camera' ref' other hother
    exact h.home camera' ref' before hbefore
  · obtain ⟨before, hbefore, -, hholds⟩ := hafter camera' ref' other hother
    have hnodup := h.nodup camera' ref' before kind' hbefore
    rw [hholds]
    split
    · rename_i hsame
      rw [← concat_eq_append]
      exact hnodup.concat (hfresh camera' ref' before kind' hbefore hsame.2.2)
    · exact hnodup
  · obtain ⟨before, hbefore, -, hholds⟩ := hafter camera' ref' other hother
    have hlisted := h.out camera' ref' before kind' id' hbefore
    have hcamera := (h.home camera' ref' before hbefore).1
    rw [hholds]
    have hmem : id' ∈ (if ref.cameraId = camera' ∧ ref = ref' ∧ kind' = kind then
        before.holds kind' ++ [(s.borrows kind).handed.length] else before.holds kind') ↔
        id' ∈ before.holds kind' ∨
          (ref = ref' ∧ kind' = kind ∧ id' = (s.borrows kind).handed.length) := by
      split
      · rename_i hsame
        simp [hsame.2.1, hsame.2.2]
      · rename_i hdiffer
        refine ⟨.inl, fun hor => hor.resolve_right fun hsame => hdiffer ⟨?_, hsame.1, hsame.2.1⟩⟩
        rw [hsame.1]
        exact hcamera
    rw [hmem, hlisted]
    constructor
    · rintro (⟨b, hb, hrest⟩ | ⟨rfl, rfl, rfl⟩)
      · exact ⟨b, handed_hold.mpr (.inl hb), hrest⟩
      · exact ⟨_, handed_hold.mpr (.inr ⟨rfl, rfl, rfl⟩), rfl, rfl⟩
    · rintro ⟨b, hb, hbref, hout⟩
      rcases handed_hold.mp hb with hb | ⟨hkind, hid, rfl⟩
      · exact .inl ⟨b, hb, hbref, hout⟩
      · exact .inr ⟨hbref, hkind, hid⟩
  · rcases handed_hold.mp hb with hb | ⟨-, -, rfl⟩
    · obtain ⟨hpublished, ⟨before, hbefore, ha⟩ | ⟨hnone, hreleased⟩⟩ := h.lent kind' id' b hb
      · obtain ⟨other, hother, hsame⟩ := hforth _ _ before hbefore
        exact ⟨hpublished, .inl ⟨other, hother, hsame.trans ha⟩⟩
      · refine ⟨hpublished, .inr ⟨?_, hreleased⟩⟩
        refine eq_none_iff_forall_ne_some.mpr fun other hother => ?_
        obtain ⟨before, hbefore, -⟩ := hafter _ _ other hother
        rw [hnone] at hbefore
        cases hbefore
    · obtain ⟨other, hother, hsame⟩ := hforth _ _ entry hentry
      exact ⟨(h.home _ ref entry hentry).2, .inl ⟨other, hother, hsame⟩⟩
  · rcases handed_hold.mp hb with hb | ⟨-, -, rfl⟩
    · exact h.broken kind' id' b hb hbroken
    · cases hbroken
  · exact (forall_update_iff s.borrows fun _ b => b.Balanced).mpr
      ⟨(h.balanced kind).lend _ _, fun kind' _ => h.balanced kind'⟩ kind'
  · obtain ⟨before, hbefore, horder, hkeys, -⟩ := get?_modifyEntry hring
    rw [horder, hkeys]
    exact h.order camera' before hbefore
  · refine h.custody.congr fun place a => ?_
    cases place with
    | slot camera => exact Iff.rfl
    | entry camera' ref' =>
      constructor
      · rintro ⟨other, hother, ha⟩
        obtain ⟨before, hbefore, hsame, -⟩ := hafter camera' ref' other hother
        exact ⟨before, hbefore, hsame.symm.trans ha⟩
      · rintro ⟨before, hbefore, ha⟩
        obtain ⟨other, hother, hsame⟩ := hforth camera' ref' before hbefore
        exact ⟨other, hother, hsame.trans ha⟩
    | released i => exact Iff.rfl

theorem Sound.hold (h : Sound slots published s) (kind : HoldKind) (ref : FrameRef)
    (purpose : String) (span : Duration) :
    Sound slots published (hold kind ref purpose span s).2 := by
  rcases hold_eq kind ref purpose span s with heq | ⟨entry, hentry, heq⟩
  · rw [heq]
    exact h.registerCamera _
  · rw [heq]
    exact (h.registerCamera _).lendEntry (by rw [entryAt_registerCamera, hentry]) _ _ _

theorem Sound.giveBack (h : Sound slots published s) (kind : HoldKind) (id : Nat) :
    Sound slots published (s.giveBack kind id) := by
  unfold FrameBuffer.giveBack
  split
  · exact h
  · rename_i b hb
    split
    · rename_i hout
      have hreturned : Standing.returned ≠ .out := by decide
      exact h.endHold hb (of_decide_eq_true hout) rfl hreturned fun hbroken => (by cases hbroken)
    · exact h

theorem Sound.unpin (h : Sound slots published s) (id : Nat) :
    Sound slots published (s.unpin id) := by
  unfold FrameBuffer.unpin
  split
  · exact h
  · split
    · exact (h.registerCamera _).giveBack _ _
    · exact h

theorem Sound.allocated (h : Sound slots published s) (hslot : slots.get? camera = none) :
    Sound (slots.set camera ⟨s.allocated, camera⟩) published
      { s with allocated := s.allocated + 1 } := by
  have htaken : ∀ a, a < s.allocated + 1 ↔ a < s.allocated ∨ a = s.allocated := by
    intro a
    omega
  have hput : ∀ place a,
      At (slots.set camera ⟨s.allocated, camera⟩) { s with allocated := s.allocated + 1 } place a ↔
        At slots s place a ∨ (place = .slot camera ∧ a = s.allocated) := by
    intro place a
    cases place with
    | slot camera' =>
      show (∃ slot, (slots.set camera ⟨s.allocated, camera⟩).get? camera' = some slot ∧
        slot.allocation = a) ↔ _
      rw [get?_set]
      by_cases hcamera : camera = camera'
      · subst hcamera
        simp [At, hslot, eq_comm]
      · simp [At, hcamera, Ne.symm hcamera]
    | entry camera' ref' =>
      exact ⟨.inl, fun hor => hor.resolve_right fun hsame => Place.noConfusion hsame.1⟩
    | released i =>
      exact ⟨.inl, fun hor => hor.resolve_right fun hsame => Place.noConfusion hsame.1⟩
  exact ⟨h.home, h.nodup, h.out, h.lent, h.broken, h.balanced, h.order,
    h.custody.take (lt_irrefl s.allocated) htaken hput⟩

def afterSlot (camera : CameraId) (dest : Place) : Place → Place
  | .slot camera' => if camera = camera' then dest else .slot camera'
  | place => place

theorem Sound.discardSlot (h : Sound slots published s) (hslot : slots.get? camera = some slot) :
    Sound (slots.erase camera) published (s.discardSlot slot) := by
  refine ⟨h.home, h.nodup, h.out, fun kind id b hb => ?_, h.broken, h.balanced, h.order, ?_⟩
  · obtain ⟨hpublished, hplace | ⟨hnone, hreleased⟩⟩ := h.lent kind id b hb
    · exact ⟨hpublished, .inl hplace⟩
    · exact ⟨hpublished, .inr ⟨hnone, mem_append_left _ hreleased⟩⟩
  refine h.custody.move (afterSlot camera (.released s.released.length)) (fun place a hat => ?_)
    fun place a hat => ?_
  · cases place with
    | slot camera' =>
      obtain ⟨held, hheld, ha⟩ := hat
      unfold afterSlot
      by_cases hcamera : camera = camera'
      · subst hcamera
        rw [hslot] at hheld
        obtain rfl := some.inj hheld
        simp only [if_true]
        show (s.released ++ [slot.allocation])[s.released.length]? = some a
        rw [getElem?_concat_length, ha]
      · simp only [if_neg hcamera]
        exact ⟨held, by rw [get?_erase, if_neg (Ne.symm hcamera), hheld], ha⟩
    | entry camera' ref' => exact hat
    | released i =>
      show (s.released ++ [slot.allocation])[i]? = some a
      rw [List.getElem?_append_left (List.getElem?_eq_some_iff.mp hat).1]
      exact hat
  · cases place with
    | slot camera' =>
      obtain ⟨held, hheld, ha⟩ := hat
      obtain ⟨hcamera, hheld⟩ := get?_of_erase hheld
      exact ⟨.slot camera', ⟨held, hheld, ha⟩, if_neg (Ne.symm hcamera)⟩
    | entry camera' ref' => exact ⟨.entry camera' ref', hat, rfl⟩
    | released i =>
      rcases released_concat hat with hat | ⟨rfl, ha⟩
      · exact ⟨.released i, hat, rfl⟩
      · exact ⟨.slot camera, ⟨slot, hslot, ha⟩, if_pos rfl⟩

/-! ## Publishing -/

theorem exists_ring_registerCamera (s : FrameBuffer) (camera : CameraId) :
    ∃ ring, (s.registerCamera camera).rings.get? camera = some ring ∧
      ((s.rings.get? camera = some ring) ∨
        (s.rings.get? camera = none ∧ ring = { capacity := s.config.slotsPerCamera })) := by
  rw [get?_registerCamera]
  cases hring : s.rings.get? camera with
  | none => exact ⟨_, if_pos ⟨rfl, rfl⟩, .inr ⟨rfl, rfl⟩⟩
  | some ring => exact ⟨ring, by simp, .inl rfl⟩

theorem entryAt_addEntry (frame : Frame) : (s.addEntry frame).entryAt camera' ref' =
    if frame.frameRef.cameraId = camera' ∧ frame.frameRef = ref' then
      some { frame, publishedAt := s.now }
    else s.entryAt camera' ref' := by
  obtain ⟨ring, hring, -⟩ := exists_ring_registerCamera s frame.frameRef.cameraId
  have hnow := (registerCamera_frame s frame.frameRef.cameraId).2.2.2.1
  have hbefore : s.entryAt camera' ref' =
      (s.registerCamera frame.frameRef.cameraId).entryAt camera' ref' :=
    entryAt_registerCamera.symm
  rw [hbefore]
  unfold addEntry entryAt
  simp only [get?_modify]
  by_cases hcamera : frame.frameRef.cameraId = camera'
  · subst hcamera
    rw [hring]
    by_cases href : frame.frameRef = ref'
    · subst href
      simp [hnow]
    · simp [get?_set, href]
  · simp [hcamera]

variable {ring : CameraRing}

theorem get?_addEntry (frame : Frame)
    (h : (s.addEntry frame).rings.get? camera' = some ring) :
    (frame.frameRef.cameraId ≠ camera' ∧ s.rings.get? camera' = some ring) ∨
      (frame.frameRef.cameraId = camera' ∧ ∃ before,
        (s.registerCamera frame.frameRef.cameraId).rings.get? camera' = some before ∧
          ring.capacity = before.capacity ∧ ring.order = before.order ++ [frame.frameRef] ∧
          ring.entries = before.entries.set frame.frameRef
            { frame, publishedAt := (s.registerCamera frame.frameRef.cameraId).now }) := by
  unfold addEntry at h
  rw [get?_modify] at h
  split at h
  · rename_i hcamera
    obtain ⟨before, hbefore, rfl⟩ := map_eq_some_iff.mp h
    exact .inr ⟨hcamera, before, hbefore, rfl, rfl, rfl⟩
  · rename_i hcamera
    refine .inl ⟨hcamera, ?_⟩
    rw [get?_registerCamera, if_neg fun hsame => hcamera hsame.1] at h
    exact h

theorem Sound.addEntry (h : Sound slots published s) (hslot : slots.get? camera = some slot)
    {frame : Frame} (hpixels : frame.pixels = slot.allocation) (hnew : frame.frameRef ∉ published) :
    Sound (slots.erase camera) (published ++ [frame.frameRef]) (s.addEntry frame) := by
  obtain ⟨hborrows, hreleased, hallocated, hnow, -⟩ :=
    registerCamera_frame s frame.frameRef.cameraId
  -- an entry is the new one or one from before, whose ref is another
  have hcases : ∀ camera' ref' entry, (s.addEntry frame).entryAt camera' ref' = some entry →
      (ref' = frame.frameRef ∧ camera' = frame.frameRef.cameraId ∧
        entry = { frame, publishedAt := s.now }) ∨
      (ref' ≠ frame.frameRef ∧ s.entryAt camera' ref' = some entry) := by
    intro camera' ref' entry hentry
    rw [entryAt_addEntry] at hentry
    split at hentry
    · rename_i hsame
      exact .inl ⟨hsame.2.symm, hsame.1.symm, (some.inj hentry).symm⟩
    · refine .inr ⟨?_, hentry⟩
      rintro rfl
      exact hnew (h.home camera' _ entry hentry).2
  have hkept : ∀ camera' ref' entry, s.entryAt camera' ref' = some entry →
      (s.addEntry frame).entryAt camera' ref' = some entry := by
    intro camera' ref' entry hentry
    rw [entryAt_addEntry, if_neg, hentry]
    rintro ⟨-, rfl⟩
    exact hnew (h.home camera' _ entry hentry).2
  have hborrows' : (s.addEntry frame).borrows = s.borrows := hborrows
  have hnow' : (s.addEntry frame).now = s.now := hnow
  have hreleased' : (s.addEntry frame).released = s.released := hreleased
  refine ⟨fun camera' ref' entry hentry => ?_, fun camera' ref' entry kind hentry => ?_,
    fun camera' ref' entry kind id hentry => ?_, fun kind id b hb => ?_, ?_, ?_,
    fun camera' ring hring => ?_, ?_⟩
  · rcases hcases camera' ref' entry hentry with ⟨rfl, rfl, -⟩ | ⟨-, hentry⟩
    · exact ⟨rfl, mem_append_right _ (mem_singleton.mpr rfl)⟩
    · obtain ⟨hcamera, hmem⟩ := h.home camera' ref' entry hentry
      exact ⟨hcamera, mem_append_left _ hmem⟩
  · rcases hcases camera' ref' entry hentry with ⟨rfl, rfl, rfl⟩ | ⟨-, hentry⟩
    · exact nodup_nil
    · exact h.nodup camera' ref' entry kind hentry
  · rw [hborrows']
    rcases hcases camera' ref' entry hentry with ⟨rfl, rfl, rfl⟩ | ⟨-, hentry⟩
    · -- nothing has been lent under a ref that is new
      refine ⟨fun hid => (by cases hid), ?_⟩
      rintro ⟨b, hb, href, -⟩
      exact absurd (href ▸ (h.lent kind id b hb).1) hnew
    · exact h.out camera' ref' entry kind id hentry
  · rw [hborrows'] at hb
    rw [hreleased']
    obtain ⟨hmem, ⟨entry, hentry, ha⟩ | ⟨hnone, hgone⟩⟩ := h.lent kind id b hb
    · exact ⟨mem_append_left _ hmem, .inl ⟨entry, hkept _ _ _ hentry, ha⟩⟩
    · refine ⟨mem_append_left _ hmem, .inr ⟨?_, hgone⟩⟩
      rw [entryAt_addEntry, if_neg, hnone]
      exact fun hsame => hnew (hsame.2 ▸ hmem)
  · rw [hborrows', hnow']
    exact h.broken
  · rw [hborrows']
    exact h.balanced
  · rcases get?_addEntry frame hring with ⟨-, hring⟩ | ⟨-, before, hbefore, -, horder, hentries⟩
    · obtain ⟨hkeys, hsublist⟩ := h.order camera' ring hring
      exact ⟨hkeys, hsublist.trans (sublist_append_left _ _)⟩
    obtain ⟨hkeys, hsublist⟩ := (h.registerCamera frame.frameRef.cameraId).order camera' before
      hbefore
    have hnone : before.entries.get? frame.frameRef = none := by
      rw [get?_eq_none_iff, ← hkeys]
      exact fun hmem => hnew (hsublist.subset hmem)
    rw [horder, hentries, keys_set_of_get?_none hnone, hkeys]
    exact ⟨rfl, hkeys ▸ hsublist.append_right _⟩
  · show Custody _ (· < (s.registerCamera frame.frameRef.cameraId).allocated)
    rw [hallocated]
    refine h.custody.move
      (afterSlot camera (.entry frame.frameRef.cameraId frame.frameRef)) (fun place a hat => ?_)
      fun place a hat => ?_
    · cases place with
      | slot camera' =>
        obtain ⟨held, hheld, ha⟩ := hat
        unfold afterSlot
        by_cases hcamera : camera = camera'
        · subst hcamera
          rw [hslot] at hheld
          obtain rfl := some.inj hheld
          simp only [if_true]
          exact ⟨{ frame, publishedAt := s.now },
            by rw [entryAt_addEntry, if_pos ⟨rfl, rfl⟩], hpixels.trans ha⟩
        · simp only [if_neg hcamera]
          exact ⟨held, by rw [get?_erase, if_neg (Ne.symm hcamera), hheld], ha⟩
      | entry camera' ref' =>
        obtain ⟨entry, hentry, ha⟩ := hat
        exact ⟨entry, hkept _ _ _ hentry, ha⟩
      | released i =>
        show (s.addEntry frame).released[i]? = some a
        rw [hreleased']
        exact hat
    · cases place with
      | slot camera' =>
        obtain ⟨held, hheld, ha⟩ := hat
        obtain ⟨hcamera, hheld⟩ := get?_of_erase hheld
        exact ⟨.slot camera', ⟨held, hheld, ha⟩, if_neg (Ne.symm hcamera)⟩
      | entry camera' ref' =>
        obtain ⟨entry, hentry, ha⟩ := hat
        rcases hcases camera' ref' entry hentry with ⟨rfl, rfl, rfl⟩ | ⟨-, hentry⟩
        · exact ⟨.slot camera, ⟨slot, hslot, hpixels.symm.trans ha⟩, if_pos rfl⟩
        · exact ⟨.entry camera' ref', ⟨entry, hentry, ha⟩, rfl⟩
      | released i =>
        change (s.addEntry frame).released[i]? = some a at hat
        rw [hreleased'] at hat
        exact ⟨.released i, hat, rfl⟩

/-! ## Forgetting a camera -/

theorem forgotten_keys (entries : OrderedDict FrameRef Entry) :
    forgotten entries.keys entries = entries.values.map Entry.allocation := by
  obtain ⟨es, hnodup⟩ := entries
  induction es with
  | nil => rfl
  | cons e rest ih =>
    obtain ⟨ref, entry⟩ := e
    obtain ⟨hnew, hrest⟩ := nodup_cons.mp hnodup
    have hget : (⟨(ref, entry) :: rest, hnodup⟩ : OrderedDict FrameRef Entry).get? ref =
        some entry := by
      simp [get?, lookupIn]
    have herase : (⟨(ref, entry) :: rest, hnodup⟩ : OrderedDict FrameRef Entry).erase ref =
        ⟨rest, hrest⟩ := by
      apply OrderedDict.ext
      show ((ref, entry) :: rest).filter (fun e => decide (e.1 ≠ ref)) = rest
      rw [filter_cons_of_neg (by simp)]
      refine filter_eq_self.mpr fun e he => decide_eq_true fun href => hnew ?_
      exact mem_map.mpr ⟨e, he, href⟩
    show forgotten (ref :: rest.map Prod.fst) _ = entry.allocation :: _
    unfold forgotten
    rw [hget]
    simp only [herase]
    exact congrArg _ (ih hrest)

theorem Sound.forgetCamera_eq (h : Sound slots published s)
    (hring : s.rings.get? camera = some ring) :
    s.forgetCamera camera = { s with
      rings := s.rings.erase camera
      released := s.released ++ ring.entries.values.map Entry.allocation } := by
  unfold FrameBuffer.forgetCamera
  rw [hring, ← forgotten_keys, ← (h.order camera ring hring).1]

def afterForget (camera : CameraId) (keys : List FrameRef) (index : Nat) : Place → Place
  | .entry camera' ref =>
    if camera = camera' then .released (index + keys.idxOf ref) else .entry camera' ref
  | place => place

/-- Forgetting a camera keeps what is sound. -/
theorem Sound.forgetCamera (h : Sound slots published s) (camera : CameraId) :
    Sound slots published (s.forgetCamera camera) := by
  have hcases : s.rings.get? camera = none ∨ ∃ ring, s.rings.get? camera = some ring := by
    cases s.rings.get? camera <;> simp
  rcases hcases with hnone | ⟨ring, hring⟩
  · have hsame : s.forgetCamera camera = s := by
      unfold FrameBuffer.forgetCamera
      rw [hnone]
    rw [hsame]
    exact h
  have hforget := h.forgetCamera_eq hring
  have hentries : ∀ camera' ref' entry,
      (s.forgetCamera camera).entryAt camera' ref' = some entry ↔
        camera ≠ camera' ∧ s.entryAt camera' ref' = some entry := by
    intro camera' ref' entry
    rw [entryAt_forgetCamera]
    by_cases hcamera : camera = camera' <;> simp [hcamera]
  have hborrows : (s.forgetCamera camera).borrows = s.borrows := by rw [hforget]
  have hreleased : (s.forgetCamera camera).released =
      s.released ++ ring.entries.values.map Entry.allocation := by rw [hforget]
  refine ⟨fun camera' ref' entry hentry => ?_, fun camera' ref' entry kind hentry => ?_,
    fun camera' ref' entry kind id hentry => ?_, fun kind id b hb => ?_, ?_, ?_,
    fun camera' other hother => ?_, ?_⟩
  · exact h.home camera' ref' entry ((hentries _ _ _).mp hentry).2
  · exact h.nodup camera' ref' entry kind ((hentries _ _ _).mp hentry).2
  · rw [hborrows]
    exact h.out camera' ref' entry kind id ((hentries _ _ _).mp hentry).2
  · -- what was lent on an entry of the camera is on a released allocation now
    rw [hborrows] at hb
    rw [hreleased]
    obtain ⟨hpublished, ⟨entry, hentry, ha⟩ | ⟨hnone, hgone⟩⟩ := h.lent kind id b hb
    · refine ⟨hpublished, ?_⟩
      by_cases hcamera : camera = b.resource.frameRef.cameraId
      · refine .inr ⟨by rw [entryAt_forgetCamera, if_pos hcamera], mem_append_right _ ?_⟩
        obtain ⟨ring', hring', hfound⟩ := entryAt_eq_some.mp hentry
        rw [← hcamera, hring] at hring'
        obtain rfl := some.inj hring'
        rw [← ha]
        exact mem_map_of_mem (mem_values.mpr ⟨_, hfound⟩)
      · exact .inl ⟨entry, (hentries _ _ _).mpr ⟨hcamera, hentry⟩, ha⟩
    · refine ⟨hpublished, .inr ⟨?_, mem_append_left _ hgone⟩⟩
      rw [entryAt_forgetCamera, hnone, ite_self]
  · rw [hforget]
    exact h.broken
  · rw [hforget]
    exact h.balanced
  · rw [hforget] at hother
    exact h.order camera' other (get?_of_erase hother).2
  · have hallocated : (s.forgetCamera camera).allocated = s.allocated := by rw [hforget]
    rw [hallocated]
    -- what an entry holds moves to its place at the end of the released ones
    refine h.custody.move (afterForget camera ring.entries.keys s.released.length)
      (fun place a hat => ?_) fun place a hat => ?_
    · cases place with
      | slot camera' => exact hat
      | released i =>
        show (s.forgetCamera camera).released[i]? = some a
        rw [hreleased, List.getElem?_append_left (List.getElem?_eq_some_iff.mp hat).1]
        exact hat
      | entry camera' ref' =>
        obtain ⟨entry, hentry, ha⟩ := hat
        unfold afterForget
        by_cases hcamera : camera = camera'
        · subst hcamera
          simp only [if_true]
          obtain ⟨ring', hring', hfound⟩ := entryAt_eq_some.mp hentry
          rw [hring] at hring'
          obtain rfl := some.inj hring'
          show (s.forgetCamera camera).released[_]? = some a
          rw [hreleased, getElem?_append_right (by omega), Nat.add_sub_cancel_left,
            getElem?_map, getElem?_values_idxOf hfound]
          exact congrArg some ha
        · simp only [if_neg hcamera]
          exact ⟨entry, (hentries _ _ _).mpr ⟨hcamera, hentry⟩, ha⟩
    · cases place with
      | slot camera' => exact ⟨.slot camera', hat, rfl⟩
      | entry camera' ref' =>
        obtain ⟨entry, hentry, ha⟩ := hat
        obtain ⟨hcamera, hentry⟩ := (hentries _ _ _).mp hentry
        exact ⟨.entry camera' ref', ⟨entry, hentry, ha⟩, if_neg hcamera⟩
      | released i =>
        change (s.forgetCamera camera).released[i]? = some a at hat
        rw [hreleased] at hat
        rcases Nat.lt_or_ge i s.released.length with hlt | hge
        · rw [getElem?_append_left hlt] at hat
          exact ⟨.released i, hat, rfl⟩
        · rw [getElem?_append_right hge, getElem?_map] at hat
          obtain ⟨entry, hvalue, ha⟩ := map_eq_some_iff.mp hat
          obtain ⟨ref, hfound, hindex⟩ := exists_get?_of_getElem?_values hvalue
          refine ⟨.entry camera ref, ⟨entry, entryAt_eq_some.mpr ⟨ring, hring, hfound⟩, ha⟩, ?_⟩
          show (if camera = camera then _ else _ : Place) = _
          rw [if_pos rfl, hindex, Nat.add_sub_cancel' hge]

end FrameBuffer

end VisionOs.Acquisition
