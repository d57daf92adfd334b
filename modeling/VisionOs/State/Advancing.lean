/-
  What appends do to the attribute values that are held: a value gives way only to one observed no
  earlier.  It needs the objects of a camera to fit its partition, since a full one sheds an
  object with what it held.
-/
import VisionOs.State.Batching
import VisionOs.State.Staleness

namespace VisionOs.State

open Core Lib Synthesis OrderedDict List

/-! ## One object -/

abbrev AttributeStates := OrderedDict AttributeKey AttributeState

def NoOlder (held held' : AttributeStates) : Prop :=
  ∀ key a, held.get? key = some a → ∃ a', held'.get? key = some a' ∧
    a.observedAt.ns ≤ a'.observedAt.ns

theorem NoOlder.refl (held : AttributeStates) : NoOlder held held :=
  fun _ a h => ⟨a, h, le_refl _⟩

theorem NoOlder.trans {a b c : AttributeStates} (h : NoOlder a b) (h' : NoOlder b c) :
    NoOlder a c := by
  intro key held hheld
  obtain ⟨held', hheld', hle⟩ := h key held hheld
  obtain ⟨held'', hheld'', hle'⟩ := h' key held' hheld'
  exact ⟨held'', hheld'', hle.trans hle'⟩

abbrev Values := AttributeKey → Instant → PyValue

def Observed (values : Values) (held : AttributeStates) : Prop :=
  ∀ key a, held.get? key = some a → a.value = values key a.observedAt

theorem get?_foldAttribute (o : Observation) (bounds : ProjectionBounds) (held : AttributeStates)
    (a : Attribute) (key : AttributeKey) :
    (foldAttribute o bounds held a).get? key = held.get? key ∨
      (key = a.key ∧
        (∀ old, held.get? key = some old → old.observedAt.ns ≤ a.observedAt.ns) ∧
        ∃ new, (foldAttribute o bounds held a).get? key = some new ∧
          new.value = a.value ∧ new.observedAt = a.observedAt) := by
  by_cases hkey : key = a.key
  · subst hkey
    unfold foldAttribute
    cases hheld : held.get? a.key with
    | none =>
      right
      refine ⟨rfl, fun old hold => (by cases hold), ?_⟩
      exact ⟨_, get?_set_self _ _ _, rfl, rfl⟩
    | some old =>
      dsimp only
      by_cases holder : a.observedAt.ns < old.observedAt.ns
      · left
        rw [if_pos holder, hheld]
      · right
        rw [if_neg holder]
        refine ⟨rfl, fun old' hold' => ?_, ?_⟩
        · rw [← Option.some.inj hold']
          omega
        · exact ⟨_, get?_set_self _ _ _, rfl, rfl⟩
  · left
    have hne : a.key ≠ key := fun h => hkey h.symm
    unfold foldAttribute
    split
    · rw [get?_set, if_neg hne]
    · split
      · rfl
      · rw [get?_set, if_neg hne]

theorem noOlder_foldAttribute (o : Observation) (bounds : ProjectionBounds)
    (held : AttributeStates) (a : Attribute) : NoOlder held (foldAttribute o bounds held a) := by
  intro key old hold
  rcases get?_foldAttribute o bounds held a key with hsame | ⟨-, hle, new, hnew, -, hat⟩
  · rw [hsame]
    exact ⟨old, hold, le_refl _⟩
  · exact ⟨new, hnew, hat ▸ hle old hold⟩

variable {values : Values} {held : AttributeStates}

theorem Observed.foldAttribute
    (h : Observed values held) (o : Observation) (bounds : ProjectionBounds) {a : Attribute}
    (ha : a.value = values a.key a.observedAt) :
    Observed values (State.foldAttribute o bounds held a) := by
  intro key new hnew
  rcases get?_foldAttribute o bounds held a key with hsame | ⟨rfl, -, new', hnew', hvalue, hat⟩
  · rw [hsame] at hnew
    exact h key new hnew
  · rw [hnew'] at hnew
    cases hnew
    rw [hvalue, hat]
    exact ha

theorem noOlder_foldl (o : Observation) (bounds : ProjectionBounds) (attributes : List Attribute)
    (held : AttributeStates) :
    NoOlder held (attributes.foldl (foldAttribute o bounds) held) := by
  induction attributes generalizing held with
  | nil => exact NoOlder.refl held
  | cons a rest ih => exact (noOlder_foldAttribute o bounds held a).trans (ih _)

theorem Observed.foldl (o : Observation) (bounds : ProjectionBounds)
    {attributes : List Attribute} (h : Observed values held)
    (hall : ∀ a ∈ attributes, a.value = values a.key a.observedAt) :
    Observed values (attributes.foldl (State.foldAttribute o bounds) held) := by
  induction attributes generalizing held with
  | nil => exact h
  | cons a rest ih =>
    refine ih (h.foldAttribute o bounds (hall a mem_cons_self)) fun b hb => ?_
    exact hall b (mem_cons_of_mem _ hb)

theorem attributes_apply {previous : Option ObjectState} {objectId : ObjectId} {o : Observation}
    {bounds : ProjectionBounds} {updated : ObjectState}
    (h : apply previous objectId o bounds = .ok updated) :
    updated.attributes =
      if o.observationType = .attributes then
        o.attributes.foldl (foldAttribute o bounds) ((previous.map (·.attributes)).getD ∅)
      else (previous.map (·.attributes)).getD ∅ := by
  cases previous with
  | none =>
    change create objectId o bounds = .ok updated at h
    unfold create at h
    split at h
    · cases h
    · cases h
      split
      · rfl
      · rfl
  | some s =>
    cases h
    exact (applyKnown_shown s o bounds).2.2.2.1

/-! ## The objects of a camera -/

abbrev ObjectStates := OrderedDict ObjectId ObjectState

/-- Every object is held still, and nothing it had was taken back. -/
def Advances (objects objects' : ObjectStates) : Prop :=
  ∀ id s, objects.get? id = some s → ∃ s', objects'.get? id = some s' ∧
    NoOlder s.attributes s'.attributes

theorem Advances.refl (objects : ObjectStates) : Advances objects objects :=
  fun _ s h => ⟨s, h, NoOlder.refl _⟩

theorem Advances.trans {a b c : ObjectStates} (h : Advances a b) (h' : Advances b c) :
    Advances a c := by
  intro id s hs
  obtain ⟨s', hs', hle⟩ := h id s hs
  obtain ⟨s'', hs'', hle'⟩ := h' id s' hs'
  exact ⟨s'', hs'', hle.trans hle'⟩

abbrev ObjectValues := ObjectId → Values

def AllObserved (values : ObjectValues) (objects : ObjectStates) : Prop :=
  ∀ id s, objects.get? id = some s → Observed (values id) s.attributes

/-- The observation says what is said of each attribute at its instant. -/
def Agrees (values : ObjectValues) (o : Observation) : Prop :=
  ∀ id, o.objectId = some id → o.observationType = .attributes →
    ∀ a ∈ o.attributes, a.value = values id a.key a.observedAt

theorem shed_of_size_le {objects : ObjectStates} {capacity : Nat} {keep : ObjectId}
    (h : objects.size ≤ capacity) : (shed objects capacity keep).1 = objects := by
  unfold shed
  cases objects.size with
  | zero => rfl
  | succ passes =>
    unfold shedLoop
    rw [if_pos h]

theorem objects_absorb (bounds : ProjectionBounds) (p : CameraPartition) (e : Int × Observation)
    (hfits : ∀ id s, e.2.objectId = some id → (p.objects.set id s).size ≤ bounds.maxObjects) :
    (absorb bounds p e).objects = p.objects ∨
      ∃ id updated, e.2.objectId = some id ∧
        apply (p.objects.get? id) id e.2 bounds = .ok updated ∧
        (absorb bounds p e).objects = p.objects.set id updated := by
  unfold absorb
  cases hproject : project bounds p e.2 e.1 with
  | error exc => exact .inl rfl
  | ok outcome =>
    rcases project_objects hproject with ⟨-, hsame⟩ | ⟨id, updated, hid, hupdated, hobjects⟩
    · exact .inl hsame
    · refine .inr ⟨id, updated, hid, hupdated, ?_⟩
      rw [hobjects]
      exact shed_of_size_le (hfits id updated hid)

section Population

variable {bounds : ProjectionBounds} {population : List ObjectId} {p : CameraPartition}

theorem size_set_le_population (hfits : population.length ≤ bounds.maxObjects)
    {objects : ObjectStates} (hkeys : objects.keys ⊆ population) {id : ObjectId}
    (hid : id ∈ population) (s : ObjectState) : (objects.set id s).size ≤ bounds.maxObjects := by
  have hsub : (objects.set id s).keys ⊆ population := by
    intro key hkey
    obtain ⟨s', hs'⟩ := mem_keys_iff.mp hkey
    rcases get?_of_set hs' with ⟨heq, -⟩ | ⟨-, hs'⟩
    · exact heq ▸ hid
    · exact hkeys (mem_keys_iff.mpr ⟨s', hs'⟩)
  have hlength := (subperm_of_subset (objects.set id s).nodupKeys hsub).length_le
  rw [length_map] at hlength
  exact hlength.trans hfits

theorem absorb_advances (hfits : population.length ≤ bounds.maxObjects)
    (hkeys : p.objects.keys ⊆ population) {e : Int × Observation}
    (hid : ∀ id, e.2.objectId = some id → id ∈ population) :
    Advances p.objects (absorb bounds p e).objects ∧
      (absorb bounds p e).objects.keys ⊆ population ∧
      ∀ values, AllObserved values p.objects → Agrees values e.2 →
        AllObserved values (absorb bounds p e).objects := by
  have hroom : ∀ id s, e.2.objectId = some id → (p.objects.set id s).size ≤ bounds.maxObjects :=
    fun id s h => size_set_le_population hfits hkeys (hid id h) s
  rcases objects_absorb bounds p e hroom with hsame | ⟨id, updated, hobject, happly, hset⟩
  · rw [hsame]
    exact ⟨Advances.refl _, hkeys, fun _ h _ => h⟩
  have hattributes := attributes_apply happly
  rw [hset]
  refine ⟨fun id' s hs => ?_, fun key hkey => ?_, fun values hobserved hagrees id' s hs => ?_⟩
  · rw [get?_set]
    by_cases heq : id = id'
    · subst heq
      rw [if_pos rfl]
      refine ⟨updated, rfl, ?_⟩
      rw [hs, Option.map_some, Option.getD_some] at hattributes
      rw [hattributes]
      split
      · exact noOlder_foldl e.2 bounds e.2.attributes s.attributes
      · exact NoOlder.refl s.attributes
    · rw [if_neg heq]
      exact ⟨s, hs, NoOlder.refl _⟩
  · obtain ⟨s, hs⟩ := mem_keys_iff.mp hkey
    rcases get?_of_set hs with ⟨heq, rfl⟩ | ⟨-, hs⟩
    · exact heq ▸ hid id hobject
    · exact hkeys (mem_keys_iff.mpr ⟨s, hs⟩)
  · rw [get?_set] at hs
    split at hs
    · rename_i heq
      subst heq
      cases hs
      have hbefore : Observed (values id)
          (((p.objects.get? id).map (·.attributes)).getD ∅) := by
        cases hget : p.objects.get? id with
        | none =>
          rintro key a ⟨⟩
        | some previous => exact hobserved id previous hget
      rw [hattributes]
      split
      · rename_i hkind
        exact hbefore.foldl e.2 bounds (hagrees id hobject hkind)
      · exact hbefore
    · exact hobserved id' s hs

theorem foldl_absorb_advances (hfits : population.length ≤ bounds.maxObjects)
    (hkeys : p.objects.keys ⊆ population) {todo : List (Int × Observation)}
    (hids : ∀ e ∈ todo, ∀ id, e.2.objectId = some id → id ∈ population) :
    Advances p.objects (todo.foldl (absorb bounds) p).objects ∧
      ∀ values, AllObserved values p.objects → (∀ e ∈ todo, Agrees values e.2) →
        AllObserved values (todo.foldl (absorb bounds) p).objects := by
  induction todo generalizing p with
  | nil => exact ⟨Advances.refl _, fun _ h _ => h⟩
  | cons e rest ih =>
    obtain ⟨hadvances, hkeys', hobserved⟩ :=
      absorb_advances hfits hkeys (hids e mem_cons_self)
    obtain ⟨hrest, hrestObserved⟩ := ih hkeys' fun e' he' => hids e' (mem_cons_of_mem _ he')
    refine ⟨hadvances.trans hrest, fun values h hagrees => hrestObserved values ?_ ?_⟩
    · exact hobserved values h (hagrees e mem_cons_self)
    · exact fun e' he' => hagrees e' (mem_cons_of_mem _ he')

end Population

/-! ## One append to a camera -/

/-- The objects of a camera; none, where it has no partition. -/
def Cell.objects (cell : Cell) : ObjectStates :=
  match cell.partition with
  | none => ∅
  | some p => p.objects

theorem Cell.objects_partitionOf (cell : Cell) (cameraId : CameraId) :
    (cell.partitionOf cameraId).objects = cell.objects := by
  unfold Cell.partitionOf Cell.objects
  cases cell.partition with
  | none => rfl
  | some p => rfl

def Cell.population (cell : Cell) (batch : List Observation) : List ObjectId :=
  (cell.objects.keys ++ (cell.buffer.pending ++ batch).filterMap (·.objectId)).dedup

structure Cell.Observed (values : ObjectValues) (cell : Cell) : Prop where
  objects : AllObserved values cell.objects
  pending : ∀ o ∈ cell.buffer.pending, Agrees values o

theorem Cell.Observed.empty (values : ObjectValues) : Cell.Observed values {} where
  objects := fun _ _ h => by cases h
  pending := fun _ h => by cases h

theorem appendPartition_advances (config : StateSection) (at_ : Circumstance)
    {cameraId : CameraId} {batch : List Observation} {cell : Cell} (hinv : CellInv cameraId cell)
    (hcamera : ∀ o ∈ batch, o.cameraId = cameraId)
    (hfits : (cell.population batch).length ≤ config.bounds.maxObjects) :
    Advances cell.objects (cell.appendPartition config at_ cameraId batch).2.objects ∧
      ∀ values, cell.Observed values → (∀ o ∈ batch, Agrees values o) →
        (cell.appendPartition config at_ cameraId batch).2.Observed values := by
  have hpending : ∀ values, cell.Observed values → (∀ o ∈ batch, Agrees values o) →
      ∀ o ∈ cell.buffer.pending ++ batch, Agrees values o := by
    intro values h hagrees o ho
    rcases mem_append.mp ho with ho | ho
    · exact h.pending o ho
    · exact hagrees o ho
  have hobjects := cell.objects_partitionOf cameraId
  -- an append that projects nothing
  have hkept : ∀ after : Cell, after.objects = cell.objects →
      (∀ o ∈ after.buffer.pending, o ∈ cell.buffer.pending ++ batch) →
      Advances cell.objects after.objects ∧
        ∀ values, cell.Observed values → (∀ o ∈ batch, Agrees values o) →
          after.Observed values := by
    intro after hsame hbuffer
    rw [hsame]
    refine ⟨Advances.refl _, fun values h hagrees => ⟨?_, fun o ho => ?_⟩⟩
    · rw [hsame]
      exact h.objects
    · exact hpending values h hagrees o (hbuffer o ho)
  have hout := appendPartition_outcome config at_ hinv hcamera
  generalize cell.appendPartition config at_ cameraId batch = out at hout
  cases hout with
  | refused message hdegraded =>
    exact hkept _ hobjects fun o ho => mem_append_left _ ho
  | buffered message since hopen hfault hroom =>
    exact hkept _ hobjects fun o ho => ho
  | halted hopen hfault hfull =>
    exact hkept _ hobjects fun o ho => mem_append_left _ ho
  | raised message seen hopen hfault hno hseen =>
    exact hkept _ hobjects fun o ho => by cases ho
  | committed hopen hfault hok =>
    have hkeys : (cell.partitionOf cameraId).objects.keys ⊆ cell.population batch := by
      rw [hobjects]
      exact fun key hkey => mem_dedup.mpr (mem_append_left _ hkey)
    have hids : ∀ e ∈ cell.todo (cell.buffer.pending ++ batch), ∀ id, e.2.objectId = some id →
        id ∈ cell.population batch := by
      intro e he id hid
      refine mem_dedup.mpr (mem_append_right _ ?_)
      exact mem_filterMap.mpr ⟨e.2, (mem_of_mem_picks he).1, hid⟩
    obtain ⟨hadvances, hobserved⟩ := foldl_absorb_advances hfits hkeys hids
    rw [hobjects] at hadvances hobserved
    refine ⟨hadvances, fun values h hagrees => ⟨?_, fun o ho => (by cases ho)⟩⟩
    refine hobserved values h.objects fun e he => ?_
    exact hpending values h hagrees e.2 (mem_of_mem_picks he).1

/-! ## One append to the manager -/

abbrev CameraValues := CameraId → ObjectValues

def Manager.Observed (values : CameraValues) (m : Manager) : Prop :=
  ∀ camera, (m.cells camera).Observed (values camera)

def Manager.Advances (m m' : Manager) : Prop :=
  ∀ camera, State.Advances (m.cells camera).objects (m'.cells camera).objects

theorem Manager.Advances.refl (m : Manager) : m.Advances m := fun _ => State.Advances.refl _

theorem Manager.Advances.trans {a b c : Manager} (h : a.Advances b) (h' : b.Advances c) :
    a.Advances c := fun camera => (h camera).trans (h' camera)

/-- The objects of every camera of a batch, with those the camera holds, fit its partition. -/
def Manager.Fits (config : StateSection) (m : Manager) (observations : List Observation) : Prop :=
  ∀ camera ∈ observations.map (·.cameraId),
    ((m.cells camera).population (ofCamera camera observations)).length ≤ config.bounds.maxObjects

instance (config : StateSection) (m : Manager) (observations : List Observation) :
    Decidable (m.Fits config observations) :=
  inferInstanceAs (Decidable (∀ camera ∈ observations.map (·.cameraId),
    ((m.cells camera).population (ofCamera camera observations)).length ≤
      config.bounds.maxObjects))

theorem append_cells (config : StateSection) (at_ : Manager.Circumstances) (m : Manager)
    (observations : List Observation) (camera : CameraId) :
    (m.append config at_ observations).2.cells camera = m.cells camera ∨
      (camera ∈ observations.map (·.cameraId) ∧
        (m.append config at_ observations).2.cells camera =
          ((m.cells camera).appendPartition config (at_ camera) camera
            (ofCamera camera observations)).2) := by
  rw [append_eq_loop]
  by_cases hmem : camera ∈ observations.map (·.cameraId)
  · have hgroup : (camera, ofCamera camera observations) ∈
        (Manager.byCamera observations).entries := mem_entries_byCamera.mpr ⟨hmem, rfl⟩
    rcases appendManyLoop_reaches config at_ (Manager.byCamera observations).nodupKeys {} m
      hgroup with hsame | hreached
    · exact .inl hsame
    · exact .inr ⟨hmem, hreached⟩
  · left
    refine appendManyLoop_frame config at_ (fun hkey => hmem ?_) {} m
    obtain ⟨e, he, rfl⟩ := mem_map.mp hkey
    exact (mem_entries_byCamera.mp he).1

theorem append_advances (config : StateSection) (at_ : Manager.Circumstances) {m : Manager}
    (hinv : ManagerInv m) {observations : List Observation} (hfits : m.Fits config observations) :
    m.Advances (m.append config at_ observations).2 ∧
      ∀ values, m.Observed values → (∀ o ∈ observations, Agrees (values o.cameraId) o) →
        (m.append config at_ observations).2.Observed values := by
  have hcell : ∀ camera, camera ∈ observations.map (·.cameraId) → _ := fun camera hmem =>
    appendPartition_advances config (at_ camera) (hinv camera)
      (fun o ho => (mem_ofCamera.mp ho).2) (hfits camera hmem)
  constructor
  · intro camera
    rcases append_cells config at_ m observations camera with hsame | ⟨hmem, hreached⟩
    · rw [hsame]
      exact Advances.refl _
    · rw [hreached]
      exact (hcell camera hmem).1
  · intro values hobserved hagrees camera
    rcases append_cells config at_ m observations camera with hsame | ⟨hmem, hreached⟩
    · rw [hsame]
      exact hobserved camera
    · rw [hreached]
      refine (hcell camera hmem).2 _ (hobserved camera) fun o ho => ?_
      obtain ⟨hin, hcamera⟩ := mem_ofCamera.mp ho
      rw [← hcamera]
      exact hagrees o hin

end VisionOs.State
