/-
  What `last_confirmed` says.  A known object is confirmed at its latest measured
  observation; `_create` confirms a new one at the observation that creates it, whatever its
  basis, so that a predicted one confirms too.
-/
import VisionOs.State.WellFormed

namespace VisionOs.State

open Core Lib Synthesis List StateSection

/-! ## What an object's observations say -/

def measuredAt (id : ObjectId) (history : List Observation) : Set Int :=
  {t | ∃ o ∈ history, o.objectId = some id ∧ o.isMeasured = true ∧ o.tCapture.ns = t}

def predictedAt (id : ObjectId) (history : List Observation) : Set Int :=
  {t | ∃ o ∈ history, o.objectId = some id ∧ o.measurementBasis = .predicted ∧
    o.tCapture.ns = t}

/-- The last confirmation is the latest measured sighting, and never a predicted one. -/
structure ConfirmedMeasured (id : ObjectId) (history : List Observation) (s : ObjectState) :
    Prop where
  latest : (measuredAt id history).Nonempty →
    IsGreatest (measuredAt id history) s.lastConfirmed.ns
  unpredicted : ¬ (measuredAt id history).Nonempty →
    s.lastConfirmed.ns ∉ predictedAt id history

/-- `last_confirmed` means measured for every object. -/
def AllConfirmedMeasured (objects : OrderedDict ObjectId ObjectState)
    (history : List Observation) : Prop :=
  ∀ id s, objects.get? id = some s → ConfirmedMeasured id history s

section Concat

variable {id : ObjectId} {history : List Observation} {o : Observation}

theorem measuredAt_concat_of_measured (hid : o.objectId = some id) (ho : o.isMeasured = true) :
    measuredAt id (history ++ [o]) = insert o.tCapture.ns (measuredAt id history) := by
  ext t
  simp only [measuredAt, mem_append, mem_singleton, Set.mem_ofPred_eq, Set.mem_insert_iff]
  constructor
  · rintro ⟨o', ho' | rfl, hrest, hmeasured, ht⟩
    · exact .inr ⟨o', ho', hrest, hmeasured, ht⟩
    · exact .inl ht.symm
  · rintro (rfl | ⟨o', ho', hrest⟩)
    · exact ⟨o, .inr rfl, hid, ho, rfl⟩
    · exact ⟨o', .inl ho', hrest⟩

theorem measuredAt_concat_of_not (h : ¬ (o.objectId = some id ∧ o.isMeasured = true)) :
    measuredAt id (history ++ [o]) = measuredAt id history := by
  ext t
  simp only [measuredAt, mem_append, mem_singleton, Set.mem_ofPred_eq]
  constructor
  · rintro ⟨o', ho' | rfl, hrest, hmeasured, ht⟩
    · exact ⟨o', ho', hrest, hmeasured, ht⟩
    · exact absurd ⟨hrest, hmeasured⟩ h
  · rintro ⟨o', ho', hrest⟩
    exact ⟨o', .inl ho', hrest⟩

theorem mem_predictedAt_concat {t : Int} :
    t ∈ predictedAt id (history ++ [o]) ↔ t ∈ predictedAt id history ∨
      (o.objectId = some id ∧ o.measurementBasis = .predicted ∧ o.tCapture.ns = t) := by
  simp only [predictedAt, mem_append, mem_singleton, Set.mem_ofPred_eq]
  constructor
  · rintro ⟨o', ho' | rfl, hrest⟩
    · exact .inl ⟨o', ho', hrest⟩
    · exact .inr hrest
  · rintro (⟨o', ho', hrest⟩ | hrest)
    · exact ⟨o', .inl ho', hrest⟩
    · exact ⟨o, .inr rfl, hrest⟩

theorem confirmedMeasured_concat_of_ne (hne : o.objectId ≠ some id) {s : ObjectState} :
    ConfirmedMeasured id (history ++ [o]) s ↔ ConfirmedMeasured id history s := by
  have hmeasured : measuredAt id (history ++ [o]) = measuredAt id history :=
    measuredAt_concat_of_not fun h => hne h.1
  have hpredicted : ∀ t, t ∈ predictedAt id (history ++ [o]) ↔ t ∈ predictedAt id history := by
    intro t
    rw [mem_predictedAt_concat]
    exact or_iff_left fun h => hne h.1
  constructor
  · rintro ⟨hlatest, hunpredicted⟩
    rw [hmeasured] at hlatest hunpredicted
    exact ⟨hlatest, fun h hmem => hunpredicted h ((hpredicted _).mpr hmem)⟩
  · rintro ⟨hlatest, hunpredicted⟩
    refine ⟨?_, ?_⟩
    · rw [hmeasured]
      exact hlatest
    · rw [hmeasured]
      exact fun h hmem => hunpredicted h ((hpredicted _).mp hmem)

end Concat

/-! ## One sighting -/

/-- The observation may create the object. -/
def CreatesSafely (id : ObjectId) (history : List Observation) (o : Observation) : Prop :=
  if o.isMeasured then ∀ t ∈ measuredAt id history, t ≤ o.tCapture.ns
  else
    IsGreatest (measuredAt id history) o.tCapture.ns ∨
      (¬ (measuredAt id history).Nonempty ∧ o.measurementBasis ≠ .predicted ∧
        o.tCapture.ns ∉ predictedAt id history)

/-- The observation may be folded into the object. -/
def SightsSafely (id : ObjectId) (s : ObjectState) (history : List Observation)
    (o : Observation) : Prop :=
  (measuredAt id history).Nonempty ∨
    if o.isMeasured then s.lastConfirmed.ns ≤ o.tCapture.ns
    else o.measurementBasis = .predicted → o.tCapture.ns ≠ s.lastConfirmed.ns

/-- The observation may be applied to what is held. -/
def AppliesSafely (id : ObjectId) (previous : Option ObjectState) (history : List Observation)
    (o : Observation) : Prop :=
  match previous with
  | none => CreatesSafely id history o
  | some s => SightsSafely id s history o

/-- An observation is safe for what `last_confirmed` says of the objects. -/
def ConfirmsSafely (objects : OrderedDict ObjectId ObjectState) (history : List Observation)
    (o : Observation) : Prop :=
  ∀ id, o.objectId = some id → AppliesSafely id (objects.get? id) history o

theorem later_ns (a b : Instant) : (later a b).ns = max a.ns b.ns := by
  unfold later
  split <;> omega

section Sighting

variable {id : ObjectId} {history : List Observation} {o : Observation} {s : ObjectState}

theorem created_iff (hid : o.objectId = some id) (hs : s.lastConfirmed = o.tCapture) :
    ConfirmedMeasured id (history ++ [o]) s ↔ CreatesSafely id history o := by
  unfold CreatesSafely
  by_cases ho : o.isMeasured = true
  · have hmeasured := @measuredAt_concat_of_measured id history o hid ho
    rw [if_pos ho]
    constructor
    · intro h t ht
      have hgreatest := h.latest (hmeasured ▸ Set.insert_nonempty _ _)
      rw [hmeasured, hs] at hgreatest
      exact hgreatest.2 (Set.mem_insert_of_mem _ ht)
    · intro h
      refine ⟨fun _ => ?_, fun hnone => absurd (hmeasured ▸ Set.insert_nonempty _ _) hnone⟩
      rw [hmeasured, hs]
      refine ⟨Set.mem_insert _ _, ?_⟩
      rintro t (rfl | ht)
      · exact le_refl _
      · exact h t ht
  · have hmeasured := @measuredAt_concat_of_not id history o fun h => ho h.2
    rw [if_neg ho]
    constructor
    · rintro ⟨hlatest, hunpredicted⟩
      rw [hmeasured, hs] at hlatest hunpredicted
      by_cases hsome : (measuredAt id history).Nonempty
      · exact .inl (hlatest hsome)
      · have hnot := hunpredicted hsome
        rw [mem_predictedAt_concat, not_or] at hnot
        exact .inr ⟨hsome, fun hkind => hnot.2 ⟨hid, hkind, rfl⟩, hnot.1⟩
    · rintro (hgreatest | ⟨hnone, hkind, hnot⟩)
      · refine ⟨fun _ => ?_, fun h => absurd ⟨_, hgreatest.1⟩ (hmeasured ▸ h)⟩
        rw [hmeasured, hs]
        exact hgreatest
      · refine ⟨fun h => absurd (hmeasured ▸ h) hnone, fun _ => ?_⟩
        rw [hs, mem_predictedAt_concat]
        rintro (hmem | ⟨-, hpredicted, -⟩)
        · exact hnot hmem
        · exact hkind hpredicted

theorem sighted_iff {s' : ObjectState} (hid : o.objectId = some id)
    (h : ConfirmedMeasured id history s)
    (hs' : s'.lastConfirmed =
      if o.isMeasured then later s.lastConfirmed o.tCapture else s.lastConfirmed) :
    ConfirmedMeasured id (history ++ [o]) s' ↔ SightsSafely id s history o := by
  unfold SightsSafely
  by_cases ho : o.isMeasured = true
  · have hmeasured := @measuredAt_concat_of_measured id history o hid ho
    have hns : s'.lastConfirmed.ns = max s.lastConfirmed.ns o.tCapture.ns := by
      rw [hs', if_pos ho, later_ns]
    have hlatest : ConfirmedMeasured id (history ++ [o]) s' ↔
        IsGreatest (insert o.tCapture.ns (measuredAt id history))
          (max s.lastConfirmed.ns o.tCapture.ns) := by
      rw [← hns, ← hmeasured]
      have hsome : (measuredAt id (history ++ [o])).Nonempty :=
        hmeasured ▸ Set.insert_nonempty _ _
      exact ⟨fun h => h.latest hsome, fun h => ⟨fun _ => h, fun hnone => absurd hsome hnone⟩⟩
    rw [hlatest, if_pos ho]
    by_cases hsome : (measuredAt id history).Nonempty
    · -- the latest of the measured ones so far, and this one
      refine iff_of_true ?_ (.inl hsome)
      rw [max_comm]
      exact (h.latest hsome).insert o.tCapture.ns
    · rw [Set.not_nonempty_iff_eq_empty.mp hsome, or_iff_right Set.not_nonempty_empty]
      constructor
      · intro hgreatest
        exact max_eq_right_iff.mp (Set.mem_singleton_iff.mp (by simpa using hgreatest.1))
      · intro hle
        rw [max_eq_right hle]
        simp
  · have hmeasured := @measuredAt_concat_of_not id history o fun h => ho h.2
    rw [if_neg ho] at hs' ⊢
    constructor
    · rintro ⟨-, hunpredicted⟩
      rw [hmeasured, hs'] at hunpredicted
      by_cases hsome : (measuredAt id history).Nonempty
      · exact .inl hsome
      · refine .inr fun hkind hat => hunpredicted hsome ?_
        exact mem_predictedAt_concat.mpr (.inr ⟨hid, hkind, hat⟩)
    · intro hsafe
      refine ⟨fun hsome => ?_, fun hnone => ?_⟩
      · rw [hmeasured] at hsome ⊢
        rw [hs']
        exact h.latest hsome
      · rw [hmeasured] at hnone
        rw [hs', mem_predictedAt_concat]
        rintro (hmem | ⟨-, hkind, hat⟩)
        · exact h.unpredicted hnone hmem
        · exact (hsafe.resolve_left hnone) hkind hat

end Sighting

theorem applyPayload_lastConfirmed (s : ObjectState) (o : Observation) (bounds : ProjectionBounds) :
    (applyPayload s o bounds).lastConfirmed = s.lastConfirmed := by
  have hspatial : (applySpatial s o bounds).lastConfirmed = s.lastConfirmed := by
    unfold applySpatial
    split <;> rfl
  unfold applyPayload
  split
  · exact hspatial
  · exact hspatial
  · rfl
  · split <;> rfl
  · split <;> rfl
  · rfl

theorem applyClass_lastConfirmed (s previous : ObjectState) (o : Observation)
    (bounds : ProjectionBounds) :
    (applyClass s previous o bounds).lastConfirmed = s.lastConfirmed := by
  unfold applyClass
  split
  · rfl
  · split
    · rfl
    · split
      · split <;> rfl
      · rfl

theorem applyKnown_lastConfirmed (s : ObjectState) (o : Observation)
    (bounds : ProjectionBounds) :
    (applyKnown s o bounds).lastConfirmed =
      if o.isMeasured then later s.lastConfirmed o.tCapture else s.lastConfirmed := by
  have hbase : (applyClass (applyPayload (sighted s o) o bounds) s o bounds).lastConfirmed =
      (sighted s o).lastConfirmed := by
    rw [applyClass_lastConfirmed, applyPayload_lastConfirmed]
  unfold applyKnown
  split
  · split
    · exact hbase
    · exact hbase
  · exact hbase

variable {o : Observation} {bounds : ProjectionBounds}

theorem create_lastConfirmed {objectId : ObjectId}
    {s : ObjectState} (h : create objectId o bounds = .ok s) : s.lastConfirmed = o.tCapture := by
  unfold create at h
  split at h
  · cases h
  · cases h
    split <;> rfl

variable {history : List Observation}

theorem apply_confirmed_iff {id : ObjectId}
    {previous : Option ObjectState} {updated : ObjectState}
    (hid : o.objectId = some id) (hprevious : ∀ s, previous = some s → ConfirmedMeasured id history s)
    (happly : apply previous id o bounds = .ok updated) :
    ConfirmedMeasured id (history ++ [o]) updated ↔ AppliesSafely id previous history o := by
  cases previous with
  | none => exact created_iff hid (create_lastConfirmed happly)
  | some s =>
    cases happly
    exact sighted_iff hid (hprevious s rfl) (applyKnown_lastConfirmed s o bounds)

/-! ## The projection -/

theorem project_confirmed_iff {p : CameraPartition}
    (h : AllConfirmedMeasured p.objects history)
    {position : Int} {outcome : ProjectionOutcome}
    (hproject : project bounds p o position = .ok outcome) :
    AllConfirmedMeasured outcome.partition.objects (history ++ [o]) ↔
      ConfirmsSafely p.objects history o := by
  rcases project_objects hproject with ⟨hkind, hsame⟩ | ⟨id, updated, hid, happly, hobjects⟩
  · -- an observation of the camera is of no object
    have hnone := (o.payload.coverage hkind).2
    rw [hsame]
    refine iff_of_true (fun k s hs => ?_) fun id hid => ?_
    · refine (confirmedMeasured_concat_of_ne ?_).mpr (h k s hs)
      rw [hnone]
      nofun
    · rw [hnone] at hid
      cases hid
  · have hupdated := apply_confirmed_iff hid (fun s => h id s) happly
    have hkeep : outcome.partition.objects.get? id = some updated := by
      rw [hobjects]
      unfold shed
      rw [get?_shedLoop_keep, OrderedDict.get?_set_self]
    constructor
    · intro hall id' hid'
      rw [hid] at hid'
      cases hid'
      exact hupdated.mp (hall id updated hkeep)
    · intro hsafe k s hs
      by_cases hk : k = id
      · subst hk
        rw [hkeep] at hs
        cases hs
        exact hupdated.mpr (hsafe k hid)
      · have hset : (p.objects.set id updated).get? k = some s := by
          rw [hobjects] at hs
          exact get?_of_shed hs
        rw [OrderedDict.get?_set, if_neg (Ne.symm hk)] at hset
        refine (confirmedMeasured_concat_of_ne fun hsome => ?_).mpr (h k s hset)
        rw [hid] at hsome
        exact hk (Option.some.inj hsome).symm

theorem foldProject_beginning {start last : CameraPartition}
    {before todo : List (Int × Observation)} (hfold : foldProject bounds start todo = .ok last)
    (hbegins : before <+: todo) : ∃ p, foldProject bounds start before = .ok p := by
  obtain ⟨after, rfl⟩ := hbegins
  unfold foldProject at hfold
  rw [foldlM_append] at hfold
  obtain ⟨p, hp, -⟩ := bind_eq_ok.mp hfold
  exact ⟨p, hp⟩

theorem foldProject_concat_eq_ok {start p' : CameraPartition}
    {todo : List (Int × Observation)} {e : Int × Observation} :
    foldProject bounds start (todo ++ [e]) = .ok p' ↔
      ∃ p outcome, foldProject bounds start todo = .ok p ∧
        project bounds p e.2 e.1 = .ok outcome ∧ outcome.partition = p' := by
  rw [foldProject_concat, bind_eq_ok]
  constructor
  · rintro ⟨p, hp, hnext⟩
    obtain ⟨outcome, houtcome, hlast⟩ := bind_eq_ok.mp hnext
    exact ⟨p, outcome, hp, houtcome, Except.ok.inj hlast⟩
  · rintro ⟨p, outcome, hp, houtcome, rfl⟩
    exact ⟨p, hp, bind_eq_ok.mpr ⟨outcome, houtcome, rfl⟩⟩

/-- All along a fold from an empty partition `last_confirmed` means measured exactly when every
    observation was safe in the partition it met. -/
theorem last_confirmed_measured_iff (bounds : ProjectionBounds) {cameraId : CameraId}
    {todo : List (Int × Observation)} {last : CameraPartition}
    (hfold : foldProject bounds { cameraId } todo = .ok last) :
    (∀ before p, before <+: todo → foldProject bounds { cameraId } before = .ok p →
      AllConfirmedMeasured p.objects (before.map Prod.snd)) ↔
    ∀ before e p, before ++ [e] <+: todo → foldProject bounds { cameraId } before = .ok p →
      ConfirmsSafely p.objects (before.map Prod.snd) e.2 := by
  have hhistory : ∀ (before : List (Int × Observation)) e,
      (before ++ [e]).map Prod.snd = before.map Prod.snd ++ [e.2] :=
    fun before e => map_append
  constructor
  · intro hall before e p hbegins hp
    obtain ⟨p', hp'⟩ := foldProject_beginning hfold hbegins
    obtain ⟨q, outcome, hq, hproject, rfl⟩ := foldProject_concat_eq_ok.mp hp'
    rw [hp] at hq
    cases hq
    refine (project_confirmed_iff ?_ hproject).mp ?_
    · exact hall before p ((prefix_append before [e]).trans hbegins) hp
    · rw [← hhistory]
      exact hall (before ++ [e]) outcome.partition hbegins hp'
  · intro hsafe before
    induction before using List.reverseRecOn with
    | nil =>
      rintro p - ⟨⟩ id s ⟨⟩
    | append_singleton before e ih =>
      intro p' hbegins hp'
      obtain ⟨p, outcome, hp, hproject, rfl⟩ := foldProject_concat_eq_ok.mp hp'
      rw [hhistory]
      refine (project_confirmed_iff ?_ hproject).mpr (hsafe before e p hbegins hp)
      exact ih p ((prefix_append before [e]).trans hbegins) hp

/-- A person who is measured once is confirmed then. -/
theorem last_confirmed_measured_person :
    ∃ p, foldProject defaults.bounds { cameraId := "north" } [(1, activePosture)] =
        .ok p ∧
      AllConfirmedMeasured p.objects [activePosture] := by
  have hfold : ∃ p, foldProject defaults.bounds { cameraId := "north" }
      [(1, activePosture)] = .ok p := ⟨_, rfl⟩
  obtain ⟨last, hlast⟩ := hfold
  refine ⟨last, hlast, (last_confirmed_measured_iff defaults.bounds hlast).mpr ?_
    [(1, activePosture)] last (prefix_refl _) hlast⟩
  intro before e p hbegins hp
  have hlength := hbegins.length_le
  rw [length_append] at hlength
  obtain rfl : before = [] := length_eq_zero_iff.mp (by simpa using hlength)
  obtain rfl : e = (1, activePosture) := (cons_prefix_cons.mp hbegins).1
  cases hp
  rintro id - t ⟨o, ⟨⟩, -⟩

/-- Where a person is expected whom the camera does not see. -/
def expectedPerson : Observation where
  toObservationFields :=
    { personFields .presence [] none with
      measurementBasis := .predicted
      spatial := some { frameOfReference := .normalized, accepted := rfl } }
  accepted := rfl

/-- A person who was predicted and never measured is reported as confirmed at the prediction. -/
theorem predicted_person_is_confirmed :
    ∃ p, foldProject defaults.bounds { cameraId := "north" } [(1, expectedPerson)] =
        .ok p ∧ ¬ AllConfirmedMeasured p.objects [expectedPerson] := by
  refine ⟨_, rfl, fun h => ?_⟩
  have hperson := h "person" _ rfl
  refine hperson.unpredicted ?_ ⟨expectedPerson, mem_singleton_self _, rfl, rfl, rfl⟩
  rintro ⟨t, o, ho, -, hmeasured, -⟩
  rw [mem_singleton.mp ho] at hmeasured
  exact absurd hmeasured (by decide)

end VisionOs.State
