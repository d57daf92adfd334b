/-
  What an observation older than the object's last sighting does: `last_seen` and the attribute
  values are guarded against it, and nothing else is.
-/
import VisionOs.Lib.LastWriter
import VisionOs.State.Outcomes
import VisionOs.Synthesis.RoundTrip

namespace VisionOs.State

open Core Synthesis Lib OrderedDict Option List StateSection LastWriter

/-- The partition after an observation: as it was where the projection raises. -/
def afterProjecting (bounds : ProjectionBounds) (p : CameraPartition) (o : Observation)
    (position : Int) : CameraPartition :=
  match project bounds p o position with
  | .ok outcome => outcome.partition
  | .error _ => p

def attributeValue (s : ObjectState) (key : AttributeKey) : Option PyValue :=
  (s.attributes.get? key).map (·.value)

/-- What is shown of the object is as it was. -/
structure ShownAlike (s s' : ObjectState) : Prop where
  spatial : s'.spatial = s.spatial
  measurementBasis : s'.measurementBasis = s.measurementBasis
  lifecycle : s'.lifecycle = s.lifecycle
  classId : s'.classId = s.classId
  classConfidence : s'.classConfidence = s.classConfidence
  attributes : ∀ key, attributeValue s' key = attributeValue s key

/-- The status does not move back. -/
def StatusNoEarlier (p p' : CameraPartition) : Prop :=
  ∀ status, p.status = some status → ∃ status', p'.status = some status' ∧
    status.streamEpoch ≤ status'.streamEpoch ∧
    ∀ t, status.lastObservationAt = some t →
      ∃ t', status'.lastObservationAt = some t' ∧ t.ns ≤ t'.ns

/-- An observation older than the last sighting of the object it names leaves the object as
    it is shown and the status no earlier. -/
def MovesNothingBack (bounds : ProjectionBounds) (p : CameraPartition) (o : Observation)
    (position : Int) : Prop :=
  ∀ objectId s, o.objectId = some objectId → p.objects.get? objectId = some s →
    o.tCapture.ns < s.lastSeen.ns →
    (∃ s', (afterProjecting bounds p o position).objects.get? objectId = some s' ∧ ShownAlike s s') ∧
      StatusNoEarlier p (afterProjecting bounds p o position)

/-- What the observation says that would replace a held value says the same. -/
def AttributesHeld (s : ObjectState) (o : Observation) : Prop :=
  ∀ before a after, o.attributes = before ++ a :: after →
    ∃ held, s.attributes.get? a.key = some held ∧
      ((∀ b ∈ before, b.key = a.key → b.observedAt.ns ≤ a.observedAt.ns) →
        (∀ b ∈ after, b.key = a.key → b.observedAt.ns < a.observedAt.ns) →
        held.observedAt.ns ≤ a.observedAt.ns → a.value = held.value)

/-- What an observation says of an object is what is held already, in every field that the
    projection takes from it. -/
structure SaysWhatIsHeld (s : ObjectState) (o : Observation) : Prop where
  position : o.observationType = .presence ∨ o.observationType = .spatial →
    o.spatial = s.spatial ∧ o.measurementBasis = s.measurementBasis
  transition : ∀ t, o.observationType = .lifecycle → o.lifecycleTransition = some t →
    t.current = s.lifecycle
  lifecycle : ∀ state, o.observationType ≠ .lifecycle → o.lifecycleState = some state →
    state = s.lifecycle
  classId : ∀ c, o.classId = some c → c = s.classId
  confidence : ∀ c confidence, o.observationType = .presence → o.classId = some c →
    o.confidence = some confidence → confidence = s.classConfidence
  attributes : o.observationType = .attributes → AttributesHeld s o

/-- The partition's status is not ahead of an observation. -/
def StatusNotAhead (p : CameraPartition) (o : Observation) : Prop :=
  ∀ status, p.status = some status → status.streamEpoch ≤ o.frameRef.streamEpoch ∧
    ∀ t, status.lastObservationAt = some t → t.ns ≤ o.tCapture.ns

/-! ## Attributes -/

def writeAttribute (key : AttributeKey) : Int × PyValue → Attribute → Int × PyValue :=
  write (fun a => a.key = key) (fun a => a.observedAt.ns) (fun a => a.value)

theorem foldl_foldAttribute_held (o : Observation) (bounds : ProjectionBounds)
    (key : AttributeKey) {attributes : List Attribute}
    {state : OrderedDict AttributeKey AttributeState} {held : AttributeState}
    (h : state.get? key = some held) :
    ∃ held', (attributes.foldl (foldAttribute o bounds) state).get? key = some held' ∧
      (held'.observedAt.ns, held'.value) =
        attributes.foldl (writeAttribute key) (held.observedAt.ns, held.value) := by
  induction attributes generalizing state held with
  | nil => exact ⟨held, h, rfl⟩
  | cons a rest ih =>
    rw [foldl_cons, foldl_cons]
    by_cases hkey : a.key = key
    · subst hkey
      by_cases holder : a.observedAt.ns < held.observedAt.ns
      · have hstep : foldAttribute o bounds state a = state := by
          unfold foldAttribute
          rw [h]
          exact if_pos holder
        have hwrite : writeAttribute a.key (held.observedAt.ns, held.value) a =
            (held.observedAt.ns, held.value) := if_neg (fun hw => hw.2 holder)
        rw [hstep, hwrite]
        exact ih h
      · have hwrite : writeAttribute a.key (held.observedAt.ns, held.value) a =
            (a.observedAt.ns, a.value) := if_pos ⟨rfl, holder⟩
        rw [hwrite]
        unfold foldAttribute
        rw [h]
        dsimp only
        rw [if_neg holder]
        exact ih (get?_set_self _ _ _)
    · -- An attribute of another key leaves this one.
      have hwrite : writeAttribute key (held.observedAt.ns, held.value) a =
          (held.observedAt.ns, held.value) := if_neg (fun hw => hkey hw.1)
      have hstep : (foldAttribute o bounds state a).get? key = some held := by
        unfold foldAttribute
        split
        · rw [get?_set, if_neg hkey]
          exact h
        · split
          · exact h
          · rw [get?_set, if_neg hkey]
            exact h
      rw [hwrite]
      exact ih hstep

theorem foldl_foldAttribute_absent (o : Observation) (bounds : ProjectionBounds)
    (key : AttributeKey) {attributes : List Attribute}
    {state : OrderedDict AttributeKey AttributeState} (h : state.get? key = none) :
    (attributes.foldl (foldAttribute o bounds) state).get? key = none ↔
      ∀ a ∈ attributes, a.key ≠ key := by
  induction attributes generalizing state with
  | nil => simp [h]
  | cons a rest ih =>
    rw [foldl_cons, forall_mem_cons]
    by_cases hkey : a.key = key
    · subst hkey
      have hset : ∃ held, (foldAttribute o bounds state a).get? a.key = some held := by
        unfold foldAttribute
        rw [h]
        exact ⟨_, get?_set_self _ _ _⟩
      obtain ⟨held, hheld⟩ := hset
      obtain ⟨held', hheld', -⟩ :=
        @foldl_foldAttribute_held o bounds a.key rest _ _ hheld
      simp [hheld']
    · have hstep : (foldAttribute o bounds state a).get? key = none := by
        unfold foldAttribute
        split
        · rw [get?_set, if_neg hkey]
          exact h
        · split
          · exact h
          · rw [get?_set, if_neg hkey]
            exact h
      rw [ih hstep]
      simp [hkey]

theorem attributeValue_applyAttributes_iff (s : ObjectState) (o : Observation)
    (bounds : ProjectionBounds) :
    (∀ key, attributeValue (applyAttributes s o bounds) key = attributeValue s key) ↔
      AttributesHeld s o := by
  unfold attributeValue AttributesHeld
  constructor
  · intro h before a after hsplit
    have hmem : a ∈ o.attributes := hsplit ▸ mem_append_right _ mem_cons_self
    have hkey := h a.key
    cases hheld : s.attributes.get? a.key with
    | none =>
      rw [hheld, map_none, map_eq_none_iff] at hkey
      exact absurd rfl ((foldl_foldAttribute_absent o bounds a.key hheld).mp hkey a hmem)
    | some held =>
      refine ⟨held, rfl, fun hbefore hafter hle => ?_⟩
      obtain ⟨held', hheld', hfold⟩ :=
        @foldl_foldAttribute_held o bounds a.key o.attributes _ _ hheld
      have hvalue : held'.value = held.value := by
        rw [hheld] at hkey
        unfold applyAttributes at hkey
        rw [hheld'] at hkey
        exact some.inj hkey
      have hkept : (o.attributes.foldl (writeAttribute a.key)
          (held.observedAt.ns, held.value)).2 = held.value := by
        rw [← hfold]
        exact hvalue
      exact foldl_write_value_eq_iff.mp hkept before a after hsplit
        ⟨rfl, hbefore, hafter⟩ hle
  · intro h key
    cases hheld : s.attributes.get? key with
    | none =>
      have hno : ∀ a ∈ o.attributes, a.key ≠ key := by
        intro a ha hkey
        obtain ⟨before, after, hsplit⟩ := append_of_mem ha
        obtain ⟨held, hheld', -⟩ := h before a after hsplit
        rw [hkey, hheld] at hheld'
        cases hheld'
      unfold applyAttributes
      rw [(foldl_foldAttribute_absent o bounds key hheld).mpr hno]
    | some held =>
      obtain ⟨held', hheld', hfold⟩ :=
        @foldl_foldAttribute_held o bounds key o.attributes _ _ hheld
      have hkept : (o.attributes.foldl (writeAttribute key)
          (held.observedAt.ns, held.value)).2 = held.value := by
        refine foldl_write_value_eq_iff.mpr ?_
        intro before a after hsplit hnewest hle
        have hkey : a.key = key := hnewest.own
        obtain ⟨held'', hheld'', hvalue⟩ := h before a after hsplit
        rw [hkey, hheld] at hheld''
        cases hheld''
        exact hvalue (fun b hb hbk => hnewest.le b hb (hbk.trans hkey))
          (fun b hb hbk => hnewest.lt b hb (hbk.trans hkey)) hle
      unfold applyAttributes
      rw [hheld', map_some, map_some]
      rw [← hfold] at hkept
      exact congrArg some hkept

/-! ## Everything else -/

theorem applyClass_frame (base previous : ObjectState) (o : Observation)
    (bounds : ProjectionBounds) :
    (applyClass base previous o bounds).spatial = base.spatial ∧
      (applyClass base previous o bounds).measurementBasis = base.measurementBasis ∧
      (applyClass base previous o bounds).lifecycle = base.lifecycle ∧
      (applyClass base previous o bounds).attributes = base.attributes := by
  unfold applyClass
  split
  · exact ⟨rfl, rfl, rfl, rfl⟩
  · split
    · exact ⟨rfl, rfl, rfl, rfl⟩
    · split
      · split <;> exact ⟨rfl, rfl, rfl, rfl⟩
      · exact ⟨rfl, rfl, rfl, rfl⟩

theorem applyClass_class (base previous : ObjectState) (o : Observation)
    (bounds : ProjectionBounds) (hclass : base.classId = previous.classId)
    (hconfidence : base.classConfidence = previous.classConfidence) :
    (applyClass base previous o bounds).classId = o.classId.getD previous.classId ∧
      (o.classId.getD previous.classId = previous.classId →
        (applyClass base previous o bounds).classConfidence =
          if o.observationType = .presence ∧ o.classId ≠ none then
            o.confidence.getD previous.classConfidence
          else previous.classConfidence) := by
  unfold applyClass
  cases hnamed : o.classId with
  | none => simp [hclass, hconfidence]
  | some c =>
    by_cases hsame : c = previous.classId
    · subst hsame
      cases o.confidence with
      | none => simp [hclass, hconfidence]
      | some confidence => by_cases hkind : o.observationType = .presence <;> simp [hkind, hclass, hconfidence]
    · simp [hsame, applyClassChange]

theorem applyPayload_shown (s : ObjectState) (o : Observation) (bounds : ProjectionBounds) :
    (applyPayload s o bounds).spatial =
        (if o.observationType = .presence ∨ o.observationType = .spatial then o.spatial
          else s.spatial) ∧
      (applyPayload s o bounds).measurementBasis =
        (if o.observationType = .presence ∨ o.observationType = .spatial then o.measurementBasis
          else s.measurementBasis) ∧
      (applyPayload s o bounds).lifecycle =
        (if o.observationType = .lifecycle then
          (o.lifecycleTransition.map (·.current)).getD s.lifecycle else s.lifecycle) ∧
      (applyPayload s o bounds).attributes =
        (if o.observationType = .attributes then (applyAttributes s o bounds).attributes
          else s.attributes) ∧
      (applyPayload s o bounds).classId = s.classId ∧
      (applyPayload s o bounds).classConfidence = s.classConfidence := by
  have hposition := o.payload.spatial
  unfold applyPayload
  cases hkind : o.observationType
  case presence | spatial =>
    cases hspatial : o.spatial with
    | none => simp [hkind, hspatial] at hposition
    | some spatial => simp [applySpatial, hspatial]
  case lifecycle => cases o.lifecycleTransition <;> simp
  case identity => cases o.identity <;> simp
  all_goals simp [applyAttributes]

theorem applyKnown_shown (s : ObjectState) (o : Observation) (bounds : ProjectionBounds) :
    (applyKnown s o bounds).spatial =
        (if o.observationType = .presence ∨ o.observationType = .spatial then o.spatial
          else s.spatial) ∧
      (applyKnown s o bounds).measurementBasis =
        (if o.observationType = .presence ∨ o.observationType = .spatial then o.measurementBasis
          else s.measurementBasis) ∧
      (applyKnown s o bounds).lifecycle =
        (if o.observationType = .lifecycle then
          (o.lifecycleTransition.map (·.current)).getD s.lifecycle
          else o.lifecycleState.getD s.lifecycle) ∧
      (applyKnown s o bounds).attributes =
        (if o.observationType = .attributes then (applyAttributes s o bounds).attributes
          else s.attributes) ∧
      (applyKnown s o bounds).classId = o.classId.getD s.classId ∧
      (o.classId.getD s.classId = s.classId →
        (applyKnown s o bounds).classConfidence =
          if o.observationType = .presence ∧ o.classId ≠ none then
            o.confidence.getD s.classConfidence
          else s.classConfidence) := by
  obtain ⟨hspatial, hbasis, hlifecycle, hattributes⟩ :=
    applyClass_frame (applyPayload (sighted s o) o bounds) s o bounds
  obtain ⟨pspatial, pbasis, plifecycle, pattributes, pclass, pconfidence⟩ :=
    applyPayload_shown (sighted s o) o bounds
  obtain ⟨hclass, hconfidence⟩ :=
    applyClass_class (applyPayload (sighted s o) o bounds) s o bounds pclass pconfidence
  rw [pspatial] at hspatial
  rw [pbasis] at hbasis
  rw [plifecycle] at hlifecycle
  rw [pattributes] at hattributes
  unfold applyKnown
  cases o.lifecycleState with
  | none =>
    refine ⟨hspatial, hbasis, ?_, hattributes, hclass, hconfidence⟩
    rw [getD_none]
    exact hlifecycle
  | some state =>
    by_cases hkind : o.observationType = .lifecycle
    · dsimp only
      rw [if_pos hkind]
      refine ⟨hspatial, hbasis, ?_, hattributes, hclass, hconfidence⟩
      rw [hlifecycle, if_pos hkind, if_pos hkind]
      rfl
    · dsimp only
      rw [if_neg hkind]
      refine ⟨hspatial, hbasis, ?_, hattributes, hclass, hconfidence⟩
      rw [if_neg hkind, getD_some]

theorem shownAlike_applyKnown_iff (s : ObjectState) (o : Observation) (bounds : ProjectionBounds) :
    ShownAlike s (applyKnown s o bounds) ↔ SaysWhatIsHeld s o := by
  obtain ⟨hspatial, hbasis, hlifecycle, hattributes, hclass, hconfidence⟩ :=
    applyKnown_shown s o bounds
  have hvalues : (∀ key, attributeValue (applyKnown s o bounds) key = attributeValue s key) ↔
      (o.observationType = .attributes → AttributesHeld s o) := by
    rw [← attributeValue_applyAttributes_iff s o bounds]
    unfold attributeValue
    rw [hattributes]
    by_cases hkind : o.observationType = .attributes
    · simp [hkind]
    · simp [hkind]
  constructor
  · -- field by field: what the state shows is what the observation would write
    intro h
    have hsameClass : o.classId.getD s.classId = s.classId := hclass ▸ h.classId
    constructor
    · intro hkind
      have hs := h.spatial
      have hb := h.measurementBasis
      rw [hspatial, if_pos hkind] at hs
      rw [hbasis, if_pos hkind] at hb
      exact ⟨hs, hb⟩
    · intro t hkind htransition
      have hl := h.lifecycle
      rw [hlifecycle, if_pos hkind, htransition] at hl
      exact hl
    · intro state hkind hstate
      have hl := h.lifecycle
      rw [hlifecycle, if_neg hkind, hstate] at hl
      exact hl
    · intro c hc
      rw [hc] at hsameClass
      exact hsameClass
    · intro c confidence hkind hc hsome
      have hconf := h.classConfidence
      rw [hconfidence hsameClass, if_pos ⟨hkind, by rw [hc]; simp⟩, hsome] at hconf
      exact hconf
    · exact hvalues.mp h.attributes
  · intro h
    have hsameClass : o.classId.getD s.classId = s.classId := by
      cases hc : o.classId with
      | none => rfl
      | some c => exact h.classId c hc
    constructor
    · rw [hspatial]
      split
      · rename_i hkind
        exact (h.position hkind).1
      · rfl
    · rw [hbasis]
      split
      · rename_i hkind
        exact (h.position hkind).2
      · rfl
    · rw [hlifecycle]
      split
      · rename_i hkind
        cases ht : o.lifecycleTransition with
        | none => rfl
        | some t => exact h.transition t hkind ht
      · rename_i hkind
        cases hstate : o.lifecycleState with
        | none => rfl
        | some state => exact h.lifecycle state hkind hstate
    · rw [hclass]
      exact hsameClass
    · rw [hconfidence hsameClass]
      split
      · rename_i hpresence
        obtain ⟨c, hc⟩ := ne_none_iff_exists'.mp hpresence.2
        cases hsome : o.confidence with
        | none => rfl
        | some confidence => exact h.confidence c confidence hpresence.1 hc hsome
      · rfl
    · exact hvalues.mpr h.attributes

/-! ## The projection -/

theorem mem_of_doomed {candidates : List (ObjectId × ObjectState)}
    {e : ObjectId × ObjectState} (h : doomed candidates = some e) : e ∈ candidates := by
  induction candidates generalizing e with
  | nil => cases h
  | cons x rest ih =>
    unfold doomed at h
    split at h
    · rename_i y hy
      split at h
      · cases h
        exact mem_cons_of_mem _ (ih hy)
      · cases h
        exact mem_cons_self
    · cases h
      exact mem_cons_self

theorem get?_shedLoop_keep {capacity : Nat} {keep : ObjectId} {passes : Nat}
    {objects : OrderedDict ObjectId ObjectState} :
    (shedLoop capacity keep passes objects).1.get? keep = objects.get? keep := by
  induction passes generalizing objects with
  | zero => rfl
  | succ passes ih =>
    unfold shedLoop
    split
    · rfl
    split
    · rfl
    · rename_i objectId _ hdoomed
      have hne : objectId ≠ keep := by
        have := (mem_filter.mp (mem_of_doomed hdoomed)).2
        simpa using this
      rw [ih, get?_erase, if_neg (Ne.symm hne)]

theorem afterProjecting_known {bounds : ProjectionBounds} {p : CameraPartition} {o : Observation}
    {position : Int} {objectId : ObjectId} {s : ObjectState} (hcamera : o.cameraId = p.cameraId)
    (hobject : o.objectId = some objectId) (hheld : p.objects.get? objectId = some s) :
    (afterProjecting bounds p o position).objects.get? objectId = some (applyKnown s o bounds) ∧
      (afterProjecting bounds p o position).status = some (advanceStatus p o) := by
  have hkind : o.observationType ≠ .coverage := by
    intro hcoverage
    have := (o.payload.coverage hcoverage).2
    rw [hobject] at this
    cases this
  unfold afterProjecting project
  rw [if_neg (not_not.mpr hcamera), if_neg hkind, hobject]
  dsimp only
  unfold projectObject
  rw [hheld]
  refine ⟨?_, rfl⟩
  show (shed (p.objects.set objectId (applyKnown s o bounds)) bounds.maxObjects
    objectId).1.get? objectId = _
  unfold shed
  rw [get?_shedLoop_keep, get?_set_self]

theorem statusNoEarlier_iff {p p' : CameraPartition} {o : Observation}
    (h : p'.status = some (advanceStatus p o)) :
    StatusNoEarlier p p' ↔ StatusNotAhead p o := by
  unfold StatusNoEarlier StatusNotAhead
  rw [h]
  refine forall_congr' fun status => forall_congr' fun hstatus => ?_
  simp [advanceStatus]

/-- An observation older than the last sighting of a held object moves nothing back exactly
    when the partition is of another camera, or the observation says of the object what is
    held and the status is not ahead of it. -/
theorem older_moves_nothing_back_iff (bounds : ProjectionBounds) (p : CameraPartition)
    (o : Observation) (position : Int) :
    MovesNothingBack bounds p o position ↔
      ∀ objectId s, o.objectId = some objectId → p.objects.get? objectId = some s →
        o.tCapture.ns < s.lastSeen.ns → o.cameraId = p.cameraId →
        SaysWhatIsHeld s o ∧ StatusNotAhead p o := by
  refine forall_congr' fun objectId => forall_congr' fun s => forall_congr' fun hobject =>
    forall_congr' fun hheld => forall_congr' fun _ => ?_
  by_cases hcamera : o.cameraId = p.cameraId
  · obtain ⟨hafter, hstatus⟩ := @afterProjecting_known bounds p o position _ _ hcamera hobject hheld
    rw [statusNoEarlier_iff hstatus, ← shownAlike_applyKnown_iff s o bounds, hafter]
    simp [hcamera]
  -- The projection raises: the partition stays.
  have hsame : afterProjecting bounds p o position = p := by
    unfold afterProjecting project
    rw [if_pos hcamera]
  rw [hsame]
  refine ⟨fun _ h => absurd h hcamera, fun _ => ⟨⟨s, hheld, ?_⟩, fun status hstatus => ?_⟩⟩
  · exact ⟨rfl, rfl, rfl, rfl, rfl, fun _ => rfl⟩
  · exact ⟨status, hstatus, le_refl _, fun t ht => ⟨t, ht, le_refl _⟩⟩

def activePosture : Observation where
  toObservationFields :=
    { personFields .attributes [postureAttribute] none with lifecycleState := some .active }
  accepted := rfl

def departure : Observation where
  toObservationFields :=
    { personFields .lifecycle [] none with
      observationId := "departure"
      tCapture := ⟨9⟩
      lifecycleTransition :=
        some { previous := .active, current := .departed, trigger := "left", accepted := rfl } }
  accepted := rfl

/-- Delivered again after the departure, the posture makes the departed person active. -/
theorem redelivered_moves_back :
    ¬ MovesNothingBack defaults.bounds
      (afterProjecting defaults.bounds
        (afterProjecting defaults.bounds { cameraId := "north" } activePosture 1)
        departure 2)
      activePosture 3 := by
  intro h
  obtain ⟨⟨s', hs', hshown⟩, -⟩ := h "person" _ rfl rfl (by decide)
  cases hs'
  exact absurd hshown.lifecycle (by decide)

end VisionOs.State
