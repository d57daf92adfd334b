/-
  What a partition looks like after any fold of projections: its rings are within their
  bounds, its population under the cap, and what was shed on the way was shed in order.
-/
import VisionOs.State.Staleness

namespace VisionOs.State

open Core Lib Synthesis List OrderedDict State Nat

/-! ## One object -/

/-- The rings are bounded, and the fields agree. -/
structure ObjectWellFormed (bounds : ProjectionBounds) (s : ObjectState) : Prop where
  trajectory : s.trajectory.length ≤ bounds.trajectoryPoints
  classHistory : s.classHistory.length ≤ bounds.classHistory
  previous : ∀ key a, s.attributes.get? key = some a → a.previous.length ≤ bounds.attributeHistory
  newestClass : s.classHistory.head?.map (·.1) = some s.classId
  first_le_seen : s.firstSeen.ns ≤ s.lastSeen.ns
  confirmed_le_seen : s.lastConfirmed.ns ≤ s.lastSeen.ns

theorem length_boundedRing_le {α : Type} (existing : List α) (item : α) (limit : Nat) :
    (boundedRing existing item limit).length ≤ limit :=
  length_take_le _ _

theorem head?_boundedRing {α : Type} (existing : List α) (item : α) {limit : Nat}
    (h : 1 ≤ limit) : (boundedRing existing item limit).head? = some item := by
  unfold boundedRing
  rw [head?_take, if_neg (by omega), head?_cons]

theorem previous_foldl_le (o : Observation) (bounds : ProjectionBounds)
    (attributes : List Core.Attribute) {held : OrderedDict AttributeKey AttributeState}
    (h : ∀ key a, held.get? key = some a → a.previous.length ≤ bounds.attributeHistory) :
    ∀ key a, (attributes.foldl (foldAttribute o bounds) held).get? key = some a →
      a.previous.length ≤ bounds.attributeHistory := by
  induction attributes generalizing held with
  | nil => exact h
  | cons first rest ih =>
    apply ih
    intro key a ha
    unfold foldAttribute at ha
    split at ha
    · -- a value of a new key has no history
      rcases get?_of_set ha with ⟨-, rfl⟩ | ⟨-, ha⟩
      · exact zero_le _
      · exact h key a ha
    · split at ha
      · exact h key a ha
      · rcases get?_of_set ha with ⟨-, rfl⟩ | ⟨-, ha⟩
        · exact length_boundedRing_le _ _ _
        · exact h key a ha

section Apply

variable {bounds : ProjectionBounds} {s : ObjectState}

theorem ObjectWellFormed.sighted (h : ObjectWellFormed bounds s) (o : Observation) :
    ObjectWellFormed bounds (State.sighted s o) where
  trajectory := h.trajectory
  classHistory := h.classHistory
  previous := h.previous
  newestClass := h.newestClass
  first_le_seen := (State.sighted s o).first_le_seen
  confirmed_le_seen := (State.sighted s o).confirmed_le_seen

theorem ObjectWellFormed.applySpatial (h : ObjectWellFormed bounds s) (o : Observation) :
    ObjectWellFormed bounds (applySpatial s o bounds) := by
  unfold State.applySpatial
  split
  · exact h
  · refine ⟨?_, h.classHistory, h.previous, h.newestClass, h.first_le_seen, h.confirmed_le_seen⟩
    dsimp only
    split
    · exact length_boundedRing_le _ _ _
    · exact h.trajectory

theorem ObjectWellFormed.applyAttributes (h : ObjectWellFormed bounds s) (o : Observation) :
    ObjectWellFormed bounds (applyAttributes s o bounds) where
  trajectory := h.trajectory
  classHistory := h.classHistory
  previous := previous_foldl_le o bounds o.attributes h.previous
  newestClass := h.newestClass
  first_le_seen := h.first_le_seen
  confirmed_le_seen := h.confirmed_le_seen

theorem ObjectWellFormed.applyPayload (h : ObjectWellFormed bounds s) (o : Observation) :
    ObjectWellFormed bounds (applyPayload s o bounds) := by
  obtain ⟨htrajectory, hclasses, hprevious, hnewest, hfirst, hconfirmed⟩ := h
  have h : ObjectWellFormed bounds s :=
    ⟨htrajectory, hclasses, hprevious, hnewest, hfirst, hconfirmed⟩
  unfold State.applyPayload
  cases o.observationType
  case presence | spatial => exact h.applySpatial o
  case attributes => exact h.applyAttributes o
  case lifecycle =>
    cases o.lifecycleTransition with
    | none => exact h
    | some transition => exact ⟨htrajectory, hclasses, hprevious, hnewest, hfirst, hconfirmed⟩
  case identity =>
    cases o.identity with
    | none => exact h
    | some assertion => exact ⟨htrajectory, hclasses, hprevious, hnewest, hfirst, hconfirmed⟩
  all_goals exact h

theorem ObjectWellFormed.applyClass (h : ObjectWellFormed bounds s) (previous : ObjectState)
    (o : Observation) : ObjectWellFormed bounds (applyClass s previous o bounds) := by
  unfold State.applyClass
  split
  · exact h
  split
  · unfold applyClassChange
    refine ⟨h.trajectory, ?_, h.previous, ?_, h.first_le_seen, h.confirmed_le_seen⟩
    · exact length_boundedRing_le _ _ _
    · rw [head?_boundedRing _ _ bounds.classHistory_pos]
      rfl
  · split
    · split
      · exact ⟨h.trajectory, h.classHistory, h.previous, h.newestClass, h.first_le_seen,
          h.confirmed_le_seen⟩
      · exact h
    · exact h

theorem ObjectWellFormed.applyKnown (h : ObjectWellFormed bounds s) (o : Observation) :
    ObjectWellFormed bounds (applyKnown s o bounds) := by
  have hbase := ((h.sighted o).applyPayload o).applyClass s o
  unfold State.applyKnown
  split
  · split
    · exact hbase
    · exact ⟨hbase.trajectory, hbase.classHistory, hbase.previous, hbase.newestClass,
        hbase.first_le_seen, hbase.confirmed_le_seen⟩
  · exact hbase

variable {objectId : ObjectId} {o : Observation}

theorem ObjectWellFormed.create
    (h : create objectId o bounds = .ok s) : ObjectWellFormed bounds s := by
  unfold State.create at h
  split at h
  · cases h
  have hnew : ∀ s : ObjectState, s.trajectory = [] → s.attributes = ∅ →
      (∃ t c, s.classHistory = [(s.classId, t, c)]) → ObjectWellFormed bounds s := by
    rintro s htrajectory hattributes ⟨t, c, hclasses⟩
    refine ⟨?_, ?_, ?_, ?_, s.first_le_seen, s.confirmed_le_seen⟩
    · rw [htrajectory]
      exact zero_le _
    · rw [hclasses]
      exact bounds.classHistory_pos
    · rw [hattributes]
      rintro key a ⟨⟩
    · rw [hclasses]
      rfl
  cases h
  split
  · exact (hnew _ rfl rfl ⟨_, _, rfl⟩).applyAttributes o
  · exact hnew _ rfl rfl ⟨_, _, rfl⟩

theorem ObjectWellFormed.apply {previous : Option ObjectState}
    (h : ∀ s, previous = some s → ObjectWellFormed bounds s)
    {updated : ObjectState} (happly : apply previous objectId o bounds = .ok updated) :
    ObjectWellFormed bounds updated := by
  cases previous with
  | none => exact ObjectWellFormed.create happly
  | some s =>
    cases happly
    exact (h s rfl).applyKnown o

end Apply

/-! ## Shedding -/

/-- The object may be shed: provisional ones first, then the least recent. -/
structure MayShed (keep : ObjectId) (objects : OrderedDict ObjectId ObjectState) (id : ObjectId)
    (s : ObjectState) : Prop where
  held : objects.get? id = some s
  other : id ≠ keep
  provisional : ∀ id' s', id' ≠ keep → objects.get? id' = some s' →
    s'.lifecycle = .provisional → s.lifecycle = .provisional
  leastRecent : ∀ id' s', id' ≠ keep → objects.get? id' = some s' →
    (s'.lifecycle = .provisional ↔ s.lifecycle = .provisional) → s.lastSeen.ns ≤ s'.lastSeen.ns

/-- One deletion from a partition that is too full. -/
inductive ShedStep (capacity : Nat) (keep : ObjectId) :
    OrderedDict ObjectId ObjectState → OrderedDict ObjectId ObjectState → Prop where
  | delete {objects : OrderedDict ObjectId ObjectState} {id : ObjectId} {s : ObjectState}
      (full : capacity < objects.size) (may : MayShed keep objects id s) :
      ShedStep capacity keep objects (objects.erase id)

variable {a b : ObjectState}

theorem shedBefore_eq_false_iff : shedBefore a b = false ↔
      (a.lifecycle = .provisional → b.lifecycle = .provisional) ∧
      ((a.lifecycle = .provisional ↔ b.lifecycle = .provisional) →
        b.lastSeen.ns ≤ a.lastSeen.ns) := by
  unfold shedBefore
  by_cases ha : a.lifecycle = .provisional <;> by_cases hb : b.lifecycle = .provisional <;>
    simp [ha, hb]

theorem shedBefore_asymm (h : shedBefore a b = true) : shedBefore b a = false := by
  simp only [shedBefore] at h ⊢
  grind

/-- The order is one of ranks: what is not before a second, that is not before a third, is not
    before the third. -/
theorem shedBefore_trans {c : ObjectState} (hab : shedBefore a b = false)
    (hbc : shedBefore b c = false) : shedBefore a c = false := by
  rw [shedBefore_eq_false_iff] at hab hbc ⊢
  obtain ⟨hkind, htime⟩ := hab
  obtain ⟨hkind', htime'⟩ := hbc
  refine ⟨fun ha => hkind' (hkind ha), fun hac => ?_⟩
  -- `b` is between two of one kind, so it is of that kind
  have hba : a.lifecycle = .provisional ↔ b.lifecycle = .provisional :=
    ⟨hkind, fun hb => hac.mpr (hkind' hb)⟩
  have hbc : b.lifecycle = .provisional ↔ c.lifecycle = .provisional := hba.symm.trans hac
  exact (htime' hbc).trans (htime hba)

variable {candidates : List (ObjectId × ObjectState)}

theorem doomed_eq_none
    (h : doomed candidates = none) : candidates = [] := by
  cases candidates with
  | nil => rfl
  | cons x rest =>
    unfold doomed at h
    split at h
    · split at h <;> cases h
    · cases h

variable {e : ObjectId × ObjectState}

theorem shedBefore_of_doomed
    (h : doomed candidates = some e) :
    ∀ x ∈ candidates, shedBefore x.2 e.2 = false := by
  have hself : ∀ s : ObjectState, shedBefore s s = false :=
    fun s => shedBefore_eq_false_iff.mpr ⟨id, fun _ => le_refl _⟩
  induction candidates generalizing e with
  | nil => cases h
  | cons first rest ih =>
    unfold doomed at h
    split at h
    · rename_i y hy
      split at h
      · -- the least of the rest comes before the first
        rename_i hbefore
        cases h
        rintro x (_ | ⟨_, hx⟩)
        · exact shedBefore_asymm hbefore
        · exact ih hy x hx
      · rename_i hnot
        cases h
        rintro x (_ | ⟨_, hx⟩)
        · exact hself _
        · exact shedBefore_trans (ih hy x hx) (by simpa using hnot)
    · rename_i hnone
      cases h
      rw [doomed_eq_none hnone]
      rintro x (_ | ⟨_, ⟨⟩⟩)
      exact hself _

variable {keep : ObjectId} {objects : OrderedDict ObjectId ObjectState}

theorem mayShed_of_doomed
    (h : doomed (objects.entries.filter (fun e => e.1 ≠ keep)) = some e) :
    MayShed keep objects e.1 e.2 := by
  have hmem := mem_filter.mp (mem_of_doomed h)
  have hleast : ∀ id' s', id' ≠ keep → objects.get? id' = some s' →
      shedBefore s' e.2 = false := by
    intro id' s' hne hget
    refine shedBefore_of_doomed h (id', s') (mem_filter.mpr ⟨?_, by simpa using hne⟩)
    exact get?_eq_some_iff.mp hget
  exact {
    held := get?_eq_some_iff.mpr hmem.1
    other := by simpa using hmem.2
    provisional := fun id' s' hne hget =>
      (shedBefore_eq_false_iff.mp (hleast id' s' hne hget)).1
    leastRecent := fun id' s' hne hget =>
      (shedBefore_eq_false_iff.mp (hleast id' s' hne hget)).2 }

theorem size_le_one_of_doomed
    (h : doomed (objects.entries.filter (fun e => e.1 ≠ keep)) = none) : objects.size ≤ 1 := by
  have hall : ∀ k ∈ objects.keys, k = keep := by
    intro k hk
    obtain ⟨e, he, rfl⟩ := mem_map.mp hk
    by_contra hne
    have hmem : e ∈ objects.entries.filter (fun e => e.1 ≠ keep) :=
      mem_filter.mpr ⟨he, decide_eq_true hne⟩
    rw [doomed_eq_none h] at hmem
    cases hmem
  have hsub : objects.keys ⊆ [keep] := fun k hk => mem_singleton.mpr (hall k hk)
  have hlength := (subperm_of_subset objects.nodupKeys hsub).length_le
  rwa [length_map] at hlength

theorem shedLoop_steps {capacity : Nat} (hcapacity : 1 ≤ capacity) (keep : ObjectId)
    {passes : Nat} (hpasses : objects.size ≤ passes) :
    Relation.ReflTransGen (ShedStep capacity keep) objects
        (shedLoop capacity keep passes objects).1 ∧
      (shedLoop capacity keep passes objects).1.size ≤ capacity := by
  induction passes generalizing objects with
  | zero => exact ⟨.refl, hpasses.trans (zero_le _)⟩
  | succ passes ih =>
    unfold shedLoop
    split
    · rename_i hfits
      exact ⟨.refl, hfits⟩
    rename_i hfull
    split
    · rename_i hnone
      exact ⟨.refl, (size_le_one_of_doomed hnone).trans hcapacity⟩
    rename_i id s hdoomed
    have hmay := mayShed_of_doomed hdoomed
    have hsmaller : (objects.erase id).size ≤ passes := by
      have hone : (objects.erase id).size + 1 = objects.size :=
        size_erase_of_get? hmay.held
      omega
    obtain ⟨hsteps, hsize⟩ := ih hsmaller
    exact ⟨hsteps.head (.delete (Nat.lt_of_not_le hfull) hmay), hsize⟩

/-! ## The projection -/

/-- A partition under its cap, of well-formed objects. -/
structure PartitionWellFormed (bounds : ProjectionBounds) (p : CameraPartition) : Prop where
  capped : p.objects.size ≤ bounds.maxObjects
  objects : ∀ id s, p.objects.get? id = some s → ObjectWellFormed bounds s

/-- What one projection does to the objects of a partition: nothing, where it is about the
    camera; else the object just observed is there as the observation leaves it, and the
    others go one after another, while there are too many. -/
def ProjectedObjects (bounds : ProjectionBounds) (o : Observation)
    (objects objects' : OrderedDict ObjectId ObjectState) : Prop :=
  (o.objectId = none ∧ objects' = objects) ∨
    ∃ id updated, o.objectId = some id ∧ apply (objects.get? id) id o bounds = .ok updated ∧
      objects'.get? id = some updated ∧
      Relation.ReflTransGen (ShedStep bounds.maxObjects id) (objects.set id updated) objects'

theorem PartitionWellFormed.project {bounds : ProjectionBounds} {p : CameraPartition}
    (h : PartitionWellFormed bounds p) {o : Observation} {position : Int}
    {outcome : ProjectionOutcome} (hproject : project bounds p o position = .ok outcome) :
    PartitionWellFormed bounds outcome.partition ∧
      ProjectedObjects bounds o p.objects outcome.partition.objects := by
  rcases project_objects hproject with ⟨hkind, hsame⟩ | ⟨id, updated, hid, hupdated, hobjects⟩
  · refine ⟨⟨?_, ?_⟩, .inl ⟨(o.payload.coverage hkind).2, hsame⟩⟩
    · rw [hsame]
      exact h.capped
    · rw [hsame]
      exact h.objects
  · obtain ⟨hsteps, hsize⟩ := shedLoop_steps bounds.maxObjects_pos id
      (le_refl (p.objects.set id updated).size)
    refine ⟨⟨?_, fun k s hget => ?_⟩, .inr ⟨id, updated, hid, hupdated, ?_, ?_⟩⟩
    · rw [hobjects]
      exact hsize
    · rw [hobjects] at hget
      have hset := get?_of_shed hget
      rcases get?_of_set hset with ⟨-, rfl⟩ | ⟨-, hset⟩
      · exact ObjectWellFormed.apply (fun s => h.objects id s) hupdated
      · exact h.objects k s hset
    · rw [hobjects]
      unfold shed
      rw [get?_shedLoop_keep, get?_set_self]
    · rw [hobjects]
      exact hsteps

/-- Folding `project` over observations at their positions. -/
def foldProject (bounds : ProjectionBounds) (p : CameraPartition)
    (todo : List (Int × Observation)) : Raises CameraPartition :=
  todo.foldlM (fun p e => do return (← project bounds p e.2 e.1).partition) p

theorem foldProject_concat (bounds : ProjectionBounds) (p : CameraPartition)
    (todo : List (Int × Observation)) (e : Int × Observation) :
    foldProject bounds p (todo ++ [e]) =
      (foldProject bounds p todo >>= fun q => do return (← project bounds q e.2 e.1).partition) := by
  unfold foldProject
  simp only [foldlM_append, foldlM_cons, foldlM_nil, bind_pure]

/-- The fold returns a well-formed partition. -/
theorem foldProject_spec (bounds : ProjectionBounds) {start : CameraPartition}
    (hstart : start.objects = ∅) {todo : List (Int × Observation)}
    (hcamera : ∀ e ∈ todo, e.2.cameraId = start.cameraId) (hids : ∀ e ∈ todo, Absorbable e.2) :
    ∃ p, foldProject bounds start todo = .ok p ∧ PartitionInv start.cameraId p ∧
      PartitionWellFormed bounds p := by
  induction todo using List.reverseRecOn with
  | nil =>
    refine ⟨start, rfl, ⟨rfl, ?_⟩, ⟨?_, ?_⟩⟩
    · rw [hstart]
      rintro k s ⟨⟩
    · rw [hstart]
      exact zero_le _
    · rw [hstart]
      rintro k s ⟨⟩
  | append_singleton todo e ih =>
    obtain ⟨p, hp, hinv, hwell⟩ := ih
      (fun e' he' => hcamera e' (mem_append_left _ he'))
      (fun e' he' => hids e' (mem_append_left _ he'))
    have he : e ∈ todo ++ [e] := mem_append_right _ (mem_singleton_self e)
    obtain ⟨outcome, hproject, habsorbed⟩ :=
      project_absorbs bounds e.1 hinv (hcamera e he) (hids e he)
    refine ⟨outcome.partition, ?_, habsorbed.inv, (hwell.project hproject).1⟩
    rw [foldProject_concat, hp]
    show (project bounds p e.2 e.1 >>= fun outcome => .ok outcome.partition) = _
    rw [hproject]
    rfl

/-- Every fold of `project` from an empty partition over observations of its camera that name
    no empty object leaves a well-formed partition, and each of its steps keeps the object just
    observed and sheds others in order. -/
theorem foldProject_wellFormed (bounds : ProjectionBounds) (start : CameraPartition)
    (hstart : start.objects = ∅) (todo : List (Int × Observation))
    (hcamera : ∀ e ∈ todo, e.2.cameraId = start.cameraId)
    (hids : ∀ e ∈ todo, e.2.objectId ≠ some "") :
    (∃ p, foldProject bounds start todo = .ok p ∧ PartitionWellFormed bounds p) ∧
      ∀ before e after, todo = before ++ e :: after →
        ∃ p outcome, foldProject bounds start before = .ok p ∧
          project bounds p e.2 e.1 = .ok outcome ∧
          ProjectedObjects bounds e.2 p.objects outcome.partition.objects := by
  constructor
  · obtain ⟨p, hp, -, hwell⟩ := foldProject_spec bounds hstart hcamera hids
    exact ⟨p, hp, hwell⟩
  · rintro before e after rfl
    obtain ⟨p, hp, hinv, hwell⟩ := foldProject_spec bounds hstart
      (fun e' he' => hcamera e' (mem_append_left _ he'))
      (fun e' he' => hids e' (mem_append_left _ he'))
    have he : e ∈ before ++ e :: after := mem_append_right _ mem_cons_self
    obtain ⟨outcome, hproject, -⟩ := project_absorbs bounds e.1 hinv (hcamera e he) (hids e he)
    exact ⟨p, outcome, hp, hproject, (hwell.project hproject).2⟩

def oneObject : ProjectionBounds where
  trajectoryPoints := 1
  attributeHistory := 1
  classHistory := 1
  maxObjects := 1
  trajectoryPoints_pos := Nat.le_refl 1
  attributeHistory_pos := Nat.le_refl 1
  classHistory_pos := Nat.le_refl 1
  maxObjects_pos := Nat.le_refl 1

def visitorPosture : Observation where
  toObservationFields :=
    { personFields .attributes [postureAttribute] none with
      observationId := "visitor posture"
      objectId := some "visitor" }
  accepted := rfl

/-- The second person takes the place of the first. -/
theorem foldProject_wellFormed_visitor :
    ∃ p, foldProject oneObject { cameraId := "north" } [(1, activePosture), (2, visitorPosture)] =
      .ok p ∧ PartitionWellFormed oneObject p :=
  (foldProject_wellFormed oneObject { cameraId := "north" } rfl
    [(1, activePosture), (2, visitorPosture)] (by decide) (by decide)).1

end VisionOs.State
