/-
  The analysed frames, kept until an incident may be opened: one bounded ring for each camera,
  with the objects that were cut from each.  The counters are left out.
-/
import VisionOs.App.EvidenceStore
import VisionOs.Lib.Bounded
import VisionOs.Lib.Runs
import Mathlib.Algebra.GroupWithZero.Nat

namespace VisionOs.App

open Core Lib OrderedDict List Nat Runs

def maxFramesPerCamera : Nat := 64

def maxBytesPerCamera : Nat := 32 * 1024 * 1024

def maxCropsPerFrame : Nat := 12

structure Box where
  x1 : PyFloat
  y1 : PyFloat
  x2 : PyFloat
  y2 : PyFloat
  deriving DecidableEq

structure DecisionSubject where
  objectId : ObjectId
  box : Box
  cropJpeg : Option Bytes
  objectClass : ClassId
  deriving DecidableEq

/-- Whether the subject kept its pixels: `None` and `b""` are false alike. -/
def DecisionSubject.hasCrop (s : DecisionSubject) : Bool := s.cropJpeg.any (¬ ·.isEmpty)

structure DecisionFrame where
  cameraId : CameraId
  frameRef : String
  capturedAtNs : Int
  width : Int
  height : Int
  jpeg : Bytes
  subjects : OrderedDict ObjectId DecisionSubject

def DecisionFrame.sizeBytes (f : DecisionFrame) : Nat :=
  f.jpeg.length + (f.subjects.values.map fun s => (s.cropJpeg.getD []).length).sum

abbrev FrameRing := OrderedDict String DecisionFrame

namespace FrameRing

/-- How many of the oldest frames the byte ceiling takes, the last frame never. -/
def surplus (total : Nat) : List DecisionFrame → Nat
  | frame :: next :: rest =>
    if maxBytesPerCamera < total then surplus (total - frame.sizeBytes) (next :: rest) + 1 else 0
  | _ => 0

def evict (frames : FrameRing) : FrameRing :=
  let counted := frames.dropFirst (frames.size - maxFramesPerCamera)
  counted.dropFirst (surplus (counted.values.map (·.sizeBytes)).sum counted.values)

end FrameRing

structure DecisionFrameStore where
  cameras : OrderedDict CameraId FrameRing

namespace DecisionFrameStore

def initial : DecisionFrameStore := ⟨∅⟩

def ring (s : DecisionFrameStore) (cameraId : CameraId) : FrameRing :=
  (s.cameras.get? cameraId).getD ∅

def remember (s : DecisionFrameStore) (cameraId : CameraId) (frameRef : String)
    (capturedAtNs width height : Int) (jpeg : Bytes) : DecisionFrameStore :=
  if jpeg.isEmpty then s
  else
    let frame : DecisionFrame :=
      { cameraId, frameRef, capturedAtNs, width, height, jpeg, subjects := ∅ }
    let frames := ((s.ring cameraId).set frameRef frame).moveToEnd frameRef
    ⟨s.cameras.set cameraId (FrameRing.evict frames)⟩

def keptCrop (frame : DecisionFrame) (subject : DecisionSubject) : Option Bytes :=
  if subject.hasCrop ∧ subject.objectId ∉ frame.subjects.keys ∧
      maxCropsPerFrame ≤ (frame.subjects.values.filter (·.hasCrop)).length then none
  else subject.cropJpeg

/-- `attach_subject`: record that an object was cut from a frame that is still retained.  The
    box is kept in any case, the pixels up to the ceiling. -/
def attachSubject (s : DecisionFrameStore) (cameraId : CameraId) (frameRef : String)
    (subject : DecisionSubject) : DecisionFrameStore × Bool :=
  match (s.ring cameraId).get? frameRef with
  | none => (s, false)
  | some frame =>
    let kept := { subject with cropJpeg := keptCrop frame subject }
    let attached := { frame with subjects := frame.subjects.set subject.objectId kept }
    (⟨s.cameras.set cameraId (FrameRing.evict ((s.ring cameraId).set frameRef attached))⟩, true)

def get (s : DecisionFrameStore) (cameraId : CameraId) (frameRef : String) : Option DecisionFrame :=
  (s.ring cameraId).get? frameRef

def latestForObject (s : DecisionFrameStore) (cameraId : CameraId) (objectId : ObjectId) :
    Option DecisionFrame :=
  (s.ring cameraId).values.reverse.find? fun frame => objectId ∈ frame.subjects.keys

def nearestIn (objectId : ObjectId) (atNs toleranceNs : Int) :
    List DecisionFrame → Option DecisionFrame
  | [] => none
  | frame :: older =>
    if objectId ∉ frame.subjects.keys then nearestIn objectId atNs toleranceNs older
    else if frame.capturedAtNs > atNs then nearestIn objectId atNs toleranceNs older
    else if atNs - frame.capturedAtNs > toleranceNs then none
    else some frame

def nearestBefore (s : DecisionFrameStore) (cameraId : CameraId) (objectId : ObjectId)
    (atNs toleranceNs : Int) : Option DecisionFrame :=
  nearestIn objectId atNs toleranceNs (s.ring cameraId).values.reverse

inductive FrameCall where
  | remember (cameraId : CameraId) (frameRef : String) (capturedAtNs width height : Int)
      (jpeg : Bytes)
  | attachSubject (cameraId : CameraId) (frameRef : String) (subject : DecisionSubject)
  | clear

def call (s : DecisionFrameStore) : FrameCall → DecisionFrameStore
  | .remember cameraId frameRef capturedAtNs width height jpeg =>
    s.remember cameraId frameRef capturedAtNs width height jpeg
  | .attachSubject cameraId frameRef subject => (s.attachSubject cameraId frameRef subject).1
  | .clear => initial

def Named (s : DecisionFrameStore) : Prop :=
  ∀ cameraId frameRef frame, s.get cameraId frameRef = some frame → frame.frameRef = frameRef

variable {frames : FrameRing} {frameRef : String} {frame : DecisionFrame}

theorem FrameRing.get?_of_evict
    (h : (FrameRing.evict frames).get? frameRef = some frame) : frames.get? frameRef = some frame :=
  get?_of_dropFirst (get?_of_dropFirst h)

variable {s : DecisionFrameStore} {cameraId : CameraId}

/-! ## What is retained -/

/-- Every retained frame, whoever was cut from it, is of the property. -/
def Retains (P : CameraId → String → DecisionFrame → Prop) (s : DecisionFrameStore) : Prop :=
  ∀ cameraId frameRef frame, s.get cameraId frameRef = some frame →
    P cameraId frameRef { frame with subjects := ∅ }

variable {P Q : CameraId → String → DecisionFrame → Prop}

theorem retains_initial : initial.Retains P := by
  intro cameraId frameRef frame hget
  have hnone : initial.get cameraId frameRef = none := rfl
  rw [hnone] at hget
  cases hget

theorem Retains.mono {s : DecisionFrameStore} (h : s.Retains P)
    (hmono : ∀ cameraId frameRef frame, P cameraId frameRef frame → Q cameraId frameRef frame) :
    s.Retains Q :=
  fun cameraId frameRef frame hget => hmono _ _ _ (h cameraId frameRef frame hget)

theorem Retains.set (h : s.Retains P)
    (hframes : ∀ frameRef frame, frames.get? frameRef = some frame →
      P cameraId frameRef { frame with subjects := ∅ }) :
    Retains P ⟨s.cameras.set cameraId frames⟩ := by
  intro cameraId' frameRef frame hget
  unfold get ring at hget
  rw [get?_set] at hget
  split at hget
  · rename_i hsame
    exact hsame ▸ hframes frameRef frame hget
  · exact h cameraId' frameRef frame hget

theorem Retains.remember (h : s.Retains P)
    {capturedAtNs width height : Int} {jpeg : Bytes}
    (hP : P cameraId frameRef
      { cameraId, frameRef, capturedAtNs, width, height, jpeg, subjects := ∅ }) :
    (s.remember cameraId frameRef capturedAtNs width height jpeg).Retains P := by
  unfold DecisionFrameStore.remember
  dsimp only
  split
  · exact h
  · refine h.set fun frameRef' frame hget => ?_
    have hset := FrameRing.get?_of_evict hget
    rw [get?_moveToEnd] at hset
    rcases get?_of_set hset with ⟨hsame, rfl⟩ | ⟨-, hset⟩
    · exact hsame ▸ hP
    · exact h cameraId frameRef' frame hset

theorem Retains.attachSubject (h : s.Retains P) (cameraId : CameraId)
    (frameRef : String) (subject : DecisionSubject) :
    (s.attachSubject cameraId frameRef subject).1.Retains P := by
  unfold DecisionFrameStore.attachSubject
  dsimp only
  cases hframe : (s.ring cameraId).get? frameRef with
  | none => exact h
  | some old =>
    refine h.set fun frameRef' frame hget => ?_
    have hset := FrameRing.get?_of_evict hget
    rcases get?_of_set hset with ⟨hsame, rfl⟩ | ⟨-, hset⟩
    · exact hsame ▸ h cameraId frameRef old hframe
    · exact h cameraId frameRef' frame hset

/-- The name of a frame has nothing to do with its subjects. -/
theorem named_iff_retains :
    s.Named ↔ s.Retains fun _ frameRef frame => frame.frameRef = frameRef := Iff.rfl

theorem named_initial : initial.Named := named_iff_retains.mpr retains_initial

theorem Named.call (h : s.Named) (c : FrameCall) : (s.call c).Named := by
  have hretains := named_iff_retains.mp h
  cases c with
  | remember cameraId frameRef capturedAtNs width height jpeg => exact hretains.remember rfl
  | attachSubject cameraId frameRef subject => exact hretains.attachSubject _ _ subject
  | clear => exact named_initial

theorem named_run (calls : List FrameCall) : (run call initial calls).Named := by
  have hstep : ∀ (s : DecisionFrameStore) (c : FrameCall), s.Named → (s.call c).Named :=
    fun _ c h => h.call c
  exact run_invariant hstep named_initial calls

/-- The frame remembered last among those that show the object. -/
def LastSighting (frames : FrameRing) (objectId : ObjectId) (frame : DecisionFrame) : Prop :=
  ∃ older newer, frames.values = older ++ frame :: newer ∧ objectId ∈ frame.subjects.keys ∧
    ∀ later ∈ newer, objectId ∉ later.subjects.keys

variable {objectId : ObjectId}

theorem latestForObject_eq_some :
    s.latestForObject cameraId objectId = some frame ↔
      LastSighting (s.ring cameraId) objectId frame := by
  unfold latestForObject LastSighting
  rw [find?_eq_some_iff_append]
  constructor
  · rintro ⟨hcut, newer, older, hsplit, hnewer⟩
    refine ⟨older.reverse, newer.reverse, ?_, of_decide_eq_true hcut, fun later hlater => ?_⟩
    · rw [← reverse_reverse (s.ring cameraId).values, hsplit]
      simp
    · have hno := hnewer later (mem_reverse.mp hlater)
      simpa using hno
  · rintro ⟨older, newer, hsplit, hcut, hnewer⟩
    refine ⟨decide_eq_true hcut, newer.reverse, older.reverse, ?_, fun later hlater => ?_⟩
    · rw [hsplit]
      simp
    · have hno := hnewer later (mem_reverse.mp hlater)
      simpa using hno

theorem LastSighting.get (hnamed : s.Named)
    (h : LastSighting (s.ring cameraId) objectId frame) :
    s.get cameraId frame.frameRef = some frame := by
  obtain ⟨older, newer, hsplit, -, -⟩ := h
  have hmem : frame ∈ (s.ring cameraId).values := by
    rw [hsplit]
    exact mem_append_right older mem_cons_self
  obtain ⟨frameRef, hget⟩ := mem_values.mp hmem
  rw [hnamed cameraId frameRef frame hget]
  exact hget

/-! ## The bounds, and the frame nearest to an instant -/

/-- The frame shows the object and lies in the window. -/
def Within (objectId : ObjectId) (atNs toleranceNs : Int) (frame : DecisionFrame) : Prop :=
  objectId ∈ frame.subjects.keys ∧ atNs - toleranceNs ≤ frame.capturedAtNs ∧
    frame.capturedAtNs ≤ atNs

/-- What `nearest_before` is to answer from the retained frames, in any order. -/
def IsNearest (frames : List DecisionFrame) (objectId : ObjectId) (atNs toleranceNs : Int) :
    Option DecisionFrame → Prop
  | some frame => frame ∈ frames ∧ Within objectId atNs toleranceNs frame ∧
      ∀ other ∈ frames, Within objectId atNs toleranceNs other →
        other.capturedAtNs ≤ frame.capturedAtNs
  | none => ∀ frame ∈ frames, ¬ Within objectId atNs toleranceNs frame

/-- A search that may stop at the first frame that is too old is right on frames that only
    get older. -/
theorem nearestIn_isNearest {frames : List DecisionFrame}
    (h : (frames.map (·.capturedAtNs)).Pairwise (· ≥ ·)) (objectId : ObjectId)
    (atNs toleranceNs : Int) :
    IsNearest frames objectId atNs toleranceNs (nearestIn objectId atNs toleranceNs frames) := by
  induction frames with
  | nil =>
    intro frame hframe
    cases hframe
  | cons frame older ih =>
    rw [map_cons, pairwise_cons] at h
    have hold : ∀ other ∈ older, other.capturedAtNs ≤ frame.capturedAtNs :=
      fun other hother => h.1 _ (mem_map_of_mem hother)
    -- a frame outside the window changes nothing
    have hskip : ¬ Within objectId atNs toleranceNs frame →
        IsNearest (frame :: older) objectId atNs toleranceNs
          (nearestIn objectId atNs toleranceNs older) := by
      intro hout
      have hrest := ih h.2
      cases hfound : nearestIn objectId atNs toleranceNs older with
      | none =>
        rw [hfound] at hrest
        exact forall_mem_cons.mpr ⟨hout, hrest⟩
      | some found =>
        rw [hfound] at hrest
        exact ⟨mem_cons_of_mem _ hrest.1, hrest.2.1,
          forall_mem_cons.mpr ⟨fun hin => absurd hin hout, hrest.2.2⟩⟩
    unfold nearestIn
    split
    · rename_i hcut
      exact hskip fun hin => hcut hin.1
    split
    · rename_i hlate
      exact hskip fun hin => absurd hin.2.2 (not_le.mpr hlate)
    rename_i hcut hlate
    split
    · rename_i hfar
      intro other hother hin
      have hinstant : other.capturedAtNs ≤ frame.capturedAtNs := by
        cases mem_cons.mp hother with
        | inl hsame => rw [hsame]
        | inr hrest => exact hold other hrest
      have hsince := hin.2.1
      omega
    · rename_i hfar
      refine ⟨mem_cons_self, ⟨not_not.mp hcut, by omega, by omega⟩, ?_⟩
      intro other hother _
      cases mem_cons.mp hother with
      | inl hsame => rw [hsame]
      | inr hrest => exact hold other hrest

def cropsKept (frame : DecisionFrame) : Nat :=
  (frame.subjects.values.filter (·.hasCrop)).length

/-- What `evict` sees to. -/
structure Ceilings (frames : FrameRing) : Prop where
  size_le : frames.size ≤ maxFramesPerCamera
  bytes_le : (frames.values.map (·.sizeBytes)).sum ≤ maxBytesPerCamera ∨ frames.size = 1

/-- The three bounds of a camera's ring. -/
structure Bounded (frames : FrameRing) : Prop extends Ceilings frames where
  crops_le : ∀ frame ∈ frames.values, cropsKept frame ≤ maxCropsPerFrame

/-- The order of insertion is that of the capture. -/
def Chronological (frames : FrameRing) : Prop :=
  (frames.values.map (·.capturedAtNs)).Pairwise (· ≤ ·)

theorem surplus_spec (frames : List DecisionFrame) :
    let kept := frames.drop (FrameRing.surplus (frames.map (·.sizeBytes)).sum frames)
    (kept.map (·.sizeBytes)).sum ≤ maxBytesPerCamera ∨ kept.length = 1 := by
  induction frames with
  | nil => exact .inl (zero_le _)
  | cons frame rest ih =>
    cases rest with
    | nil => exact .inr rfl
    | cons next rest =>
      unfold FrameRing.surplus
      split
      · rw [map_cons, sum_cons, Nat.add_sub_cancel_left, drop_succ_cons]
        exact ih
      · rename_i hfits
        exact .inl (not_lt.mp hfits)

theorem evict_sublist (frames : FrameRing) :
    (FrameRing.evict frames).values.Sublist frames.values := by
  unfold FrameRing.evict
  rw [values_dropFirst, values_dropFirst]
  exact (drop_sublist _ _).trans (drop_sublist _ _)

/-- Both ceilings hold after an eviction, whatever the ring was. -/
theorem ceilings_evict (frames : FrameRing) : Ceilings (FrameRing.evict frames) := by
  constructor
  · unfold FrameRing.evict
    rw [size_dropFirst, size_dropFirst]
    omega
  · have hspec := surplus_spec (frames.dropFirst (frames.size - maxFramesPerCamera)).values
    unfold FrameRing.evict
    rw [values_dropFirst _ (FrameRing.surplus _ _)]
    refine hspec.imp_right fun hone => ?_
    rw [← values_dropFirst] at hone
    exact (length_map _).symm.trans hone

theorem Chronological.evict (h : Chronological frames) :
    Chronological (FrameRing.evict frames) :=
  h.sublist ((evict_sublist frames).map _)

/-- A re-attached object adds to the kept crops only where it had none. -/
theorem cropsKept_attach {subject kept : DecisionSubject}
    (hkept : kept = { subject with cropJpeg := keptCrop frame subject })
    (h : cropsKept frame ≤ maxCropsPerFrame)
    (hroom : ∀ old ∈ frame.subjects.get? subject.objectId, subject.hasCrop → ¬ old.hasCrop →
      cropsKept frame < maxCropsPerFrame) :
    cropsKept { frame with subjects := frame.subjects.set subject.objectId kept } ≤
      maxCropsPerFrame := by
  subst hkept
  unfold cropsKept at h hroom ⊢
  unfold values at h hroom ⊢
  dsimp only
  cases hget : frame.subjects.get? subject.objectId with
  | none =>
    have hnew := get?_eq_none_iff.mp hget
    rw [entries_set_of_get?_none hget, map_append, filter_append, length_append]
    unfold keptCrop
    split
    · exact h
    · rename_i hkept
      by_cases hcrop : subject.hasCrop
      · have hfew := not_le.mp fun hfull => hkept ⟨hcrop, hnew, hfull⟩
        have hone := length_filter_le (·.hasCrop) [subject]
        exact Nat.le_trans (Nat.add_le_add_left hone _) hfew
      · simpa [hcrop] using h
  | some old =>
    have hpresent : subject.objectId ∈ frame.subjects.keys := mem_keys_iff.mpr ⟨old, hget⟩
    have hcrop : keptCrop frame subject = subject.cropJpeg :=
      if_neg fun hdrop => hdrop.2.1 hpresent
    obtain ⟨before, after, hold, hset⟩ := entries_set_of_get?_some hget
      { subject with cropJpeg := keptCrop frame subject }
    rw [hset, hcrop]
    rw [hold] at h hroom
    have hmore := hroom old hget
    simp only [map_append, map_cons, filter_append, length_append,
      filter_cons] at h hmore ⊢
    by_cases hnow : subject.hasCrop
    · by_cases hbefore : old.hasCrop
      · simpa [hnow, hbefore] using h
      · have hfew := hmore hnow hbefore
        simp only [hbefore, hnow, if_true, length_cons] at hfew ⊢
        exact hfew
    · rw [if_neg hnow]
      refine Nat.le_trans (Nat.add_le_add_left ?_ _) h
      split
      · exact le_succ _
      · exact le_refl _

theorem ring_set (frames : FrameRing) (cameraId' : CameraId) :
    ring ⟨s.cameras.set cameraId frames⟩ cameraId' =
      if cameraId = cameraId' then frames else s.ring cameraId' := by
  unfold ring
  rw [get?_set]
  split <;> rfl

theorem ceilings_set (h : ∀ cameraId, Ceilings (s.ring cameraId)) (frames : FrameRing) :
    ∀ cameraId', Ceilings (ring ⟨s.cameras.set cameraId (FrameRing.evict frames)⟩ cameraId') := by
  intro cameraId'
  rw [ring_set]
  split
  · exact ceilings_evict frames
  · exact h cameraId'

theorem ceilings_call (s : DecisionFrameStore) (c : FrameCall)
    (h : ∀ cameraId, Ceilings (s.ring cameraId)) : ∀ cameraId, Ceilings ((s.call c).ring cameraId) := by
  cases c with
  | remember cameraId frameRef capturedAtNs width height jpeg =>
    change ∀ cameraId', Ceilings
      ((s.remember cameraId frameRef capturedAtNs width height jpeg).ring cameraId')
    unfold DecisionFrameStore.remember
    split
    · exact h
    · exact ceilings_set h _
  | attachSubject cameraId frameRef subject =>
    change ∀ cameraId', Ceilings ((s.attachSubject cameraId frameRef subject).1.ring cameraId')
    unfold DecisionFrameStore.attachSubject
    split
    · exact h
    · exact ceilings_set h _
  | clear => exact fun _ => ⟨zero_le _, .inl (zero_le _)⟩

/-- The two ceilings of a ring hold after any calls, timely or not. -/
theorem ceilings_run (calls : List FrameCall) (cameraId : CameraId) :
    Ceilings ((run call initial calls).ring cameraId) :=
  run_invariant ceilings_call (fun _ => ⟨zero_le _, .inl (zero_le _)⟩) calls cameraId

/-- What a ring keeps while its calls are timely. -/
structure Sound (frames : FrameRing) : Prop where
  bounded : Bounded frames
  chronological : Chronological frames

theorem sound_set (h : ∀ cameraId, Sound (s.ring cameraId))
    (hchronological : Chronological frames)
    (hcrops : ∀ frame ∈ frames.values, cropsKept frame ≤ maxCropsPerFrame) :
    ∀ cameraId', Sound (ring ⟨s.cameras.set cameraId (FrameRing.evict frames)⟩ cameraId') := by
  intro cameraId'
  rw [ring_set]
  split
  · exact ⟨⟨ceilings_evict frames, fun frame hframe =>
      hcrops frame ((evict_sublist frames).mem hframe)⟩, hchronological.evict⟩
  · exact h cameraId'

/-- A frame no earlier than the others of its camera, and no pixels for an object that was
    attached without any to a frame that keeps all the crops it may. -/
def Timely (s : DecisionFrameStore) : FrameCall → Prop
  | .remember cameraId frameRef capturedAtNs _ _ jpeg => jpeg.isEmpty = false →
      ∀ other ∈ (s.ring cameraId).entries, other.1 ≠ frameRef →
        other.2.capturedAtNs ≤ capturedAtNs
  | .attachSubject cameraId frameRef subject => ∀ frame ∈ s.get cameraId frameRef,
      ∀ old ∈ frame.subjects.get? subject.objectId, subject.hasCrop → ¬ old.hasCrop →
        cropsKept frame < maxCropsPerFrame
  | .clear => True

instance (s : DecisionFrameStore) : ∀ c, Decidable (s.Timely c)
  | .remember cameraId frameRef capturedAtNs _ _ jpeg =>
    inferInstanceAs (Decidable (jpeg.isEmpty = false → ∀ other ∈ (s.ring cameraId).entries,
      other.1 ≠ frameRef → other.2.capturedAtNs ≤ capturedAtNs))
  | .attachSubject cameraId frameRef subject =>
    inferInstanceAs (Decidable (∀ frame ∈ s.get cameraId frameRef,
      ∀ old ∈ frame.subjects.get? subject.objectId, subject.hasCrop → ¬ old.hasCrop →
        cropsKept frame < maxCropsPerFrame))
  | .clear => .isTrue trivial

/-- A timely frame keeps every ring sound. -/
theorem sound_remember (h : ∀ cameraId, Sound (s.ring cameraId))
    {capturedAtNs : Int} (width height : Int) {jpeg : Bytes}
    (htimely : s.Timely (.remember cameraId frameRef capturedAtNs width height jpeg)) :
    ∀ cameraId',
      Sound ((s.remember cameraId frameRef capturedAtNs width height jpeg).ring cameraId') := by
  unfold DecisionFrameStore.remember
  split
  · exact h
  rename_i hjpeg
  have hsub : ((s.ring cameraId).erase frameRef).values.Sublist (s.ring cameraId).values :=
    filter_sublist.map _
  refine sound_set h ?_ ?_
  · unfold Chronological
    rw [values_moveToEnd_set, map_append, pairwise_append]
    refine ⟨(h cameraId).chronological.sublist (hsub.map _), pairwise_singleton _ _, ?_⟩
    intro instant hinstant last hlast
    obtain ⟨frame, hframe, rfl⟩ := mem_map.mp hinstant
    obtain ⟨entry, hentry, rfl⟩ := mem_map.mp hframe
    obtain ⟨hmem, hother⟩ := mem_entries_filterKeys.mp hentry
    rw [mem_singleton.mp hlast]
    exact htimely (Bool.eq_false_iff.mpr hjpeg) entry hmem (of_decide_eq_true hother)
  · intro frame hframe
    rw [values_moveToEnd_set] at hframe
    cases mem_append.mp hframe with
    | inl hbefore => exact (h cameraId).bounded.crops_le frame (hsub.mem hbefore)
    | inr hnew =>
      rw [mem_singleton.mp hnew]
      exact zero_le _

theorem sound_attachSubject (h : ∀ cameraId, Sound (s.ring cameraId))
    {subject : DecisionSubject} (htimely : s.Timely (.attachSubject cameraId frameRef subject)) :
    ∀ cameraId', Sound ((s.attachSubject cameraId frameRef subject).1.ring cameraId') := by
  unfold DecisionFrameStore.attachSubject
  cases hframe : (s.ring cameraId).get? frameRef with
  | none => exact h
  | some frame =>
    have hring := h cameraId
    have hfew := hring.bounded.crops_le frame (mem_values.mpr ⟨frameRef, hframe⟩)
    have hcrops := cropsKept_attach rfl hfew (htimely frame hframe)
    obtain ⟨before, after, hold, hset⟩ := entries_set_of_get?_some hframe _
    refine sound_set h ?_ ?_
    · have hinstants := hring.chronological
      unfold Chronological values at hinstants ⊢
      rw [hset]
      rw [hold] at hinstants
      simpa using hinstants
    · have hall := hring.bounded.crops_le
      unfold values at hall ⊢
      rw [hset]
      rw [hold] at hall
      simp only [map_append, map_cons, forall_mem_append,
        forall_mem_cons] at hall ⊢
      exact ⟨hall.1, hcrops, hall.2.2⟩

theorem sound_initial : ∀ cameraId, Sound (initial.ring cameraId) := fun _ =>
  ⟨⟨⟨zero_le _, .inl (zero_le _)⟩, fun _ hframe => absurd hframe not_mem_nil⟩, .nil⟩

theorem sound_call (s : DecisionFrameStore) (c : FrameCall)
    (h : ∀ cameraId, Sound (s.ring cameraId)) (htimely : s.Timely c) :
    ∀ cameraId, Sound ((s.call c).ring cameraId) := by
  cases c with
  | remember cameraId frameRef capturedAtNs width height jpeg =>
    exact sound_remember h width height htimely
  | attachSubject cameraId frameRef subject => exact sound_attachSubject h htimely
  | clear => exact sound_initial

/-- Every ring is bounded, and the search finds the nearest frame or rightly none. -/
def Serves (s : DecisionFrameStore) : Prop :=
  ∀ cameraId, Bounded (s.ring cameraId) ∧ ∀ objectId atNs toleranceNs,
    IsNearest (s.ring cameraId).values objectId atNs toleranceNs
      (s.nearestBefore cameraId objectId atNs toleranceNs)

theorem serves_of_sound (h : ∀ cameraId, Sound (s.ring cameraId)) : s.Serves := by
  intro cameraId
  refine ⟨(h cameraId).bounded, fun objectId atNs toleranceNs => ?_⟩
  have hsorted : ((s.ring cameraId).values.reverse.map (·.capturedAtNs)).Pairwise (· ≥ ·) := by
    rw [map_reverse, pairwise_reverse]
    exact (h cameraId).chronological
  have hnearest := nearestIn_isNearest hsorted objectId atNs toleranceNs
  unfold nearestBefore
  cases hfound : nearestIn objectId atNs toleranceNs (s.ring cameraId).values.reverse with
  | none =>
    rw [hfound] at hnearest
    exact fun frame hframe => hnearest frame (mem_reverse.mpr hframe)
  | some found =>
    rw [hfound] at hnearest
    exact ⟨mem_reverse.mp hnearest.1, hnearest.2.1,
      fun other hother => hnearest.2.2 other (mem_reverse.mpr hother)⟩

/-- While the calls are timely, every ring serves, in every state reached. -/
theorem serves_of_timely {calls : List FrameCall} (h : Runs.Always call Timely initial calls)
    {before : List FrameCall} (hbefore : before <+: calls) :
    (run call initial before).Serves :=
  serves_of_sound (reached_of_always sound_call sound_initial h hbefore)

section Late

def cutOut : DecisionSubject :=
  ⟨"obj_1", ⟨.finite 0, .finite 0, .finite 1, .finite 1⟩, none, "person"⟩

/-- The frame captured at 5 is remembered after the frame captured at 10. -/
def lateCalls : List FrameCall :=
  [.remember "cam_1" "frame_b" 10 1 1 [0], .attachSubject "cam_1" "frame_b" cutOut,
    .remember "cam_1" "frame_a" 5 1 1 [0], .attachSubject "cam_1" "frame_a" cutOut]

theorem late_frame_hides : ¬ ∀ calls : List FrameCall, (run call initial calls).Serves := by
  intro hall
  have hnearest := (hall lateCalls "cam_1").2 "obj_1" 10 2
  have hnone : (run call initial lateCalls).nearestBefore "cam_1" "obj_1" 10 2 = none := rfl
  rw [hnone] at hnearest
  refine hnearest _ mem_cons_self ⟨?_, ?_, ?_⟩ <;> decide

theorem serves_in_order :
    (run call initial (lateCalls.drop 2 ++ lateCalls.take 2)).Serves :=
  serves_of_timely (by decide) (prefix_refl _)

end Late

end DecisionFrameStore

end VisionOs.App
