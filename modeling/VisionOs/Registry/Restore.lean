/-
  The parts of the registry that work between frames: following merges, reloading a camera's
  objects after a restart, and adopting new region geometry.  For each action a rule says what has
  to be kept of one camera.
-/
import VisionOs.Lib.Forwarding
import VisionOs.Registry.Specs

namespace VisionOs.Registry

open Core Lib RegistryPartition OrderedDict List TrackBinding

def RegistryPartition.forward (p : RegistryPartition) (id : ObjectId) : Option (Option ObjectId) :=
  (p.recordFor id).map (·.mergedInto)

/-- `resolve`: follow `merged_into` to the surviving object. -/
def RegistryPartition.resolve (p : RegistryPartition) (id : ObjectId) :
    Raises (Option VisualObject) :=
  match (follow p.forward p.table.size [] id).bind p.recordFor with
  | none => .ok none
  | some survivor => do
    let o ← p.project survivor
    return some o

/-- `resolve`: in the first camera that has the object. -/
def ObjectRegistry.resolve (s : ObjectRegistry) (id : ObjectId) : Raises (Option VisualObject) :=
  match s.partitions.values.find? (fun p => (p.recordFor id).isSome) with
  | none => .ok none
  | some p => p.resolve id

/-! ## Reloading -/

/-- One camera's durable objects.  The site, the version and the sequence, which a reload
    does not look at, are left out. -/
structure PartitionSnapshot where
  cameraId : CameraId
  takenAt : Instant
  objects : List VisualObject := []

def ClassDistribution.ofHistory (history : List ClassObservation) : ClassDistribution :=
  history.foldl (fun d c => d.observe c.classId c.confidence.value) {}

def recordFrom (o : VisualObject) (distribution : Nat) (bindings : List TrackBinding) :
    ObjectRecord where
  objectId := o.objectId
  cameraId := o.cameraId
  tenantId := o.tenantId
  siteId := o.siteId
  lifecycle := o.lifecycle
  classId := o.classId
  distribution
  spatial := o.currentSpatial
  firstSeen := o.firstSeen
  lastSeen := o.lastSeen
  lastConfirmed := o.lastConfirmed
  identityConfidence := o.confidence.value
  observationCount := o.observationCount
  bindings
  classHistory := .ofList (max o.classHistory.length 1) o.classHistory
  spatialHistory := .ofList (max o.spatialHistory.length 1) o.spatialHistory
  attributes := o.attributes
  mergedInto := o.mergedInto
  lineage := o.lineage

def RegistryPartition.adoptSaved (p : RegistryPartition) (o : VisualObject)
    (bindings : List TrackBinding) : Raises RegistryPartition :=
  { p with distributions := p.distributions ++ [ClassDistribution.ofHistory o.classHistory] }.adopt
    (recordFrom o p.distributions.length bindings)

/-- The loop of `restore`: an object that is there already is passed over, and the first one
    that does not fit ends it. -/
def restoreObjects (takenAt : Instant) : List VisualObject → Doing Nat
  | [] => pure 0
  | o :: rest => do
    let w ← Effect.read
    if (w.partition.recordFor o.objectId).isSome then restoreObjects takenAt rest
    else do
      let bindings ← Effect.ofExcept (o.trackBindings.mapM
        (closeBinding takenAt))
      match w.partition.adoptSaved o bindings with
      | .error _ => return 0
      | .ok p => do
        edit fun _ => p
        let restored ← restoreObjects takenAt rest
        return restored + 1

section Actions

variable (wiring : RegistryWiring)

def restore (snapshot : PartitionSnapshot) : Calling Nat := do
  let s ← Effect.read
  let p := (s.partitions.get? snapshot.cameraId).getD (wiring.newPartition snapshot.cameraId)
  let (restored, _) ← within snapshot.cameraId p (restoreObjects snapshot.takenAt snapshot.objects)
  return restored

/-- `set_regions`: adopt region geometry for a camera. -/
def setRegions (cameraId : CameraId) (regions : List Region) (now : Instant) :
    Calling (List RegionTransition) := fun s =>
  let (closed, tracker) := ((s.regions.get? cameraId).getD {}).setRegions regions now
  (closed, { s with regions := s.regions.set cameraId tracker })

inductive RegistryAction where
  | call (c : RegistryCall)
  | restore (snapshot : PartitionSnapshot)
  | setRegions (cameraId : CameraId) (regions : List Region) (now : Instant)

/-- What an action leaves of the registry, whether or not it raises. -/
def RegistryAction.after (s : ObjectRegistry) : RegistryAction → ObjectRegistry
  | .call c => c.after wiring s
  | .restore snapshot => (VisionOs.Registry.restore wiring snapshot s).2
  | .setRegions cameraId regions now => (VisionOs.Registry.setRegions cameraId regions now s).2

end Actions

/-! ## What restoring leaves -/

variable {p p' : RegistryPartition} {id : ObjectId}

theorem RegistryPartition.forward_eq_some {target : Option ObjectId} :
    p.forward id = some target ↔ ∃ r, p.recordFor id = some r ∧ r.mergedInto = target :=
  Option.map_eq_some_iff

variable {o : VisualObject} {bindings : List TrackBinding}

theorem RegistryPartition.recordFor_adoptSaved (h : p.adoptSaved o bindings = .ok p') :
    p'.recordFor o.objectId = some (recordFrom o p.distributions.length bindings) ∧
    ∀ k, k ≠ o.objectId → p'.recordFor k = p.recordFor k :=
  recordFor_adopt h

theorem RegistryPartition.size_adoptSaved (h : p.adoptSaved o bindings = .ok p') :
    p'.policy = p.policy ∧ p'.table.size ≤ p.table.size + 1 := by
  have hsize := size_adopt h
  exact hsize

theorem RegistryPartition.full_of_adoptSaved
    {exc : PyException} (hnone : p.recordFor o.objectId = none)
    (h : p.adoptSaved o bindings = .error exc) : p.policy.maxObjectsPerCamera ≤ p.table.size := by
  have hfull := full_of_adopt (by exact hnone) h
  exact hfull

theorem projectable_recordFrom (o : VisualObject) (distribution : Nat)
    (bindings : List TrackBinding) : (recordFrom o distribution bindings).Projectable := by
  obtain ⟨-, hmerged, hself, hcount, hseen, hconfirmed⟩ :=
    VisualObjectFields.postInit_eq_ok.mp o.accepted
  exact ⟨hmerged, hself, hcount, hseen, hconfirmed⟩

theorem wp_restoreObjects {takenAt : Instant} {I : List VisualObject → Work → Prop}
    {E : PyException → Work → Prop} {objects : List VisualObject} {w : Work}
    (hpresent : ∀ o rest w, I (o :: rest) w → (∃ r, w.partition.recordFor o.objectId = some r) →
      I rest w)
    (hadopted : ∀ o rest w p bindings, I (o :: rest) w →
      w.partition.recordFor o.objectId = none → (∀ b ∈ bindings, isOpen b = false) →
      w.partition.adoptSaved o bindings = .ok p → I rest { w with partition := p })
    (hfull : ∀ o rest w bindings exc, I (o :: rest) w →
      w.partition.recordFor o.objectId = none →
      w.partition.adoptSaved o bindings = .error exc → I [] w)
    (hlate : ∀ o rest w exc, I (o :: rest) w → w.partition.recordFor o.objectId = none →
      o.trackBindings.mapM (closeBinding takenAt) = .error exc → E exc w)
    (h : I objects w) :
    Effect.wp (restoreObjects takenAt objects) (fun _ w' => I [] w') E w := by
  induction objects generalizing w with
  | nil => exact h
  | cons o rest ih =>
    unfold restoreObjects
    rw [Effect.wp_bind, Effect.wp_read]
    by_cases hhas : (w.partition.recordFor o.objectId).isSome = true
    · rw [if_pos hhas]
      exact ih (hpresent o rest w h (Option.isSome_iff_exists.mp hhas))
    rw [if_neg hhas]
    have hnone : w.partition.recordFor o.objectId = none := by simpa using hhas
    rw [Effect.wp_bind, Effect.wp_ofExcept]
    refine ⟨fun bindings hbindings => ?_, fun exc hexc => hlate o rest w exc h hnone hexc⟩
    have hclosed : ∀ b ∈ bindings, isOpen b = false := by
      intro b hb
      obtain ⟨b₀, -, hb₀⟩ := (mapM_ok hbindings).2 b hb
      exact closeBinding_closed hb₀
    cases hadopt : w.partition.adoptSaved o bindings with
    | error exc => exact hfull o rest w bindings exc h hnone hadopt
    | ok p =>
      rw [Effect.wp_bind, wp_edit, Effect.wp_bind]
      exact Effect.wp_mono (fun _ _ h' => h') (fun _ _ h' => h')
        (ih (hadopted o rest w p bindings h hnone hclosed hadopt))

open Core Lib Effect

variable {wiring : RegistryWiring} {s : ObjectRegistry} {k : CameraId} {w : Work}
  {P : CameraId → RegistryPartition → RegionTracker → Prop}

theorem after_of_wp {α : Type} {x : Calling α} {I : ObjectRegistry → Prop}
    (h : wp x (fun _ => I) (fun _ => I) s) :
    I ((x >>= fun _ => pure ([] : List RegistryUpdate)) s).2 := by
  refine (@wp_state _ _ _ s I (x >>= fun _ => pure ([] : List RegistryUpdate))).mp ?_
  rw [wp_bind]
  exact h

namespace ObjectRegistry

/-- `_partition`. -/
def partitionOf (s : ObjectRegistry) (wiring : RegistryWiring) (k : CameraId) : RegistryPartition :=
  (s.partitions.get? k).getD (wiring.newPartition k)

def trackerOf (s : ObjectRegistry) (k : CameraId) : RegionTracker := (s.regions.get? k).getD {}

/-- The property holds of every camera. -/
def Each (wiring : RegistryWiring) (P : CameraId → RegistryPartition → RegionTracker → Prop)
    (s : ObjectRegistry) : Prop :=
  ∀ k, P k (s.partitionOf wiring k) (s.trackerOf k)

theorem partitionOf_eq {p : RegistryPartition} (hp : s.partitions.get? k = some p) :
    s.partitionOf wiring k = p := by
  unfold partitionOf
  rw [hp]
  rfl

theorem partition_of_recordFor {r : ObjectRecord}
    (hr : (s.partitionOf wiring k).recordFor id = some r) :
    s.partitions.get? k = some (s.partitionOf wiring k) := by
  unfold partitionOf at hr ⊢
  cases hget : s.partitions.get? k with
  | none =>
    rw [hget] at hr
    cases hr
  | some p => rfl

theorem partitionOf_keep (k' : CameraId) :
    (s.keep k w).partitionOf wiring k' =
      if k = k' then w.partition else s.partitionOf wiring k' := by
  unfold partitionOf
  rw [partitions_keep]
  split <;> rfl

theorem trackerOf_keep (k' : CameraId) :
    (s.keep k w).trackerOf k' =
      if k = k' then if (s.regions.get? k).isSome then w.regions else {}
      else s.trackerOf k' := by
  show ((if (s.regions.get? k).isSome then s.regions.set k w.regions
    else s.regions).get? k').getD {} = _
  by_cases hk : k = k'
  · subst hk
    rw [if_pos rfl]
    by_cases hsome : (s.regions.get? k).isSome = true
    · rw [if_pos hsome, if_pos hsome, get?_set_self]
      rfl
    · have hnone : s.regions.get? k = none := by simpa using hsome
      rw [if_neg hsome, if_neg hsome, hnone]
      rfl
  · rw [if_neg hk]
    split
    · rw [get?_set, if_neg hk]
      rfl
    · rfl

variable {update : TrackUpdate}

theorem partitionOf_prepare {now : Instant} (k' : CameraId) :
    (prepare wiring k update now s).partitionOf wiring k' = s.partitionOf wiring k' := by
  show ((s.partitions.set k (s.partitionOf wiring k)).get? k').getD _ = _
  rw [get?_set]
  by_cases hk : k = k'
  · subst hk
    rw [if_pos rfl]
    rfl
  · rw [if_neg hk]
    rfl

theorem trackerOf_prepare {update : TrackUpdate} {now : Instant} (k' : CameraId) :
    (prepare wiring k update now s).trackerOf k' = s.trackerOf k' := by
  show ((s.regions.set k (s.trackerOf k)).get? k').getD {} = _
  rw [get?_set]
  by_cases hk : k = k'
  · subst hk
    rw [if_pos rfl]
    rfl
  · rw [if_neg hk]
    rfl

theorem frameWork_regions {clock : Instant} :
    (frameWork wiring k update clock s).regions = s.trackerOf k :=
  @trackerOf_prepare wiring s k update (s.advanceTime k update clock) k

namespace Each

theorem keep (hempty : ∀ k p t, P k p t → P k p {}) (h : s.Each wiring P)
    (hk : P k w.partition w.regions) : (s.keep k w).Each wiring P := by
  intro k'
  rw [partitionOf_keep, trackerOf_keep]
  by_cases hsame : k = k'
  · subst hsame
    rw [if_pos rfl, if_pos rfl]
    split
    · exact hk
    · exact hempty _ _ _ hk
  · rw [if_neg hsame, if_neg hsame]
    exact h k'

theorem ingest {clock : Instant} (hempty : ∀ k p t, P k p t → P k p {})
    (h : s.Each wiring P)
    (hfolded : wp (foldFrame wiring update.active (s.advanceTime k update clock)
        (crossesEpoch s k update)) (fun _ w' => P k w'.partition w'.regions)
      (fun _ w' => P k w'.partition w'.regions) (frameWork wiring k update clock s)) :
    (ingest wiring k update clock s).2.Each wiring P := by
  have hready : (prepare wiring k update (s.advanceTime k update clock) s).Each wiring P := by
    intro k'
    rw [partitionOf_prepare, trackerOf_prepare]
    exact h k'
  exact ingest_rule (P := fun result => result.2.Each wiring P)
    (wp_mono (fun _ _ hw' => hready.keep hempty hw') (fun _ _ hw' => hready.keep hempty hw')
      hfolded)

theorem sweep {moment : Instant} (hempty : ∀ k p t, P k p t → P k p {}) (h : s.Each wiring P)
    (hpass : ∀ k p w, s.partitions.get? k = some p → w.partition = p →
      w.regions = s.trackerOf k → P k w.partition w.regions →
      wp (forEach (sweepRecord wiring moment) p.ids) (fun _ w' => P k w'.partition w'.regions)
        (fun _ w' => P k w'.partition w'.regions) w) :
    (sweep wiring moment s).2.Each wiring P := by
  -- The cameras to come are as they were before the sweep.
  refine @sweep_rule wiring s moment
    (fun rest s' => s'.Each wiring P ∧ rest.Nodup ∧
      ∀ k ∈ rest, s'.partitions.get? k = s.partitions.get? k ∧ s'.trackerOf k = s.trackerOf k)
    (·.Each wiring P) ?_ ?_ (fun _ _ hI => hI.1) ⟨h, ?_, fun _ _ => ⟨rfl, rfl⟩⟩
  · rintro k rest s' ⟨heach, hnodup, hcoming⟩ -
    exact ⟨heach, (nodup_cons.mp hnodup).2,
      fun k' hk' => hcoming k' (mem_cons_of_mem _ hk')⟩
  · rintro k rest p s' ⟨heach, hnodup, hcoming⟩ hp
    obtain ⟨hpartition, htracker⟩ := hcoming k (mem_cons_self ..)
    have hbefore : s.partitions.get? k = some p := by
      rw [← hpartition]
      exact hp
    have hone : P k p (s'.trackerOf k) := by
      rw [← @partitionOf_eq wiring s' k p hp]
      exact heach k
    refine wp_mono (fun _ w' hw' => ⟨heach.keep hempty hw', (nodup_cons.mp hnodup).2, ?_⟩)
      (fun _ _ hw' => heach.keep hempty hw') (hpass k p (s'.work k p) hbefore rfl htracker hone)
    intro k' hk'
    have hne : k ≠ k' := by
      rintro rfl
      exact (nodup_cons.mp hnodup).1 hk'
    rw [partitions_keep, if_neg hne, trackerOf_keep, if_neg hne]
    exact hcoming k' (mem_cons_of_mem _ hk')
  · exact (perm_insertionSort _ _).nodup_iff.mpr s.partitions.nodupKeys

theorem work (h : s.Each wiring P) (hp : s.partitions.get? k = some p) :
    P k (s.work k p).partition (s.work k p).regions := by
  have hk := h k
  rw [partitionOf_eq hp] at hk
  exact hk

theorem restore {snapshot : PartitionSnapshot} (hempty : ∀ k p t, P k p t → P k p {})
    (h : s.Each wiring P) (hloop : ∀ w, w.partition = s.partitionOf wiring snapshot.cameraId →
      P snapshot.cameraId w.partition w.regions →
      wp (restoreObjects snapshot.takenAt snapshot.objects)
        (fun _ w' => P snapshot.cameraId w'.partition w'.regions)
        (fun _ w' => P snapshot.cameraId w'.partition w'.regions) w) :
    (restore wiring snapshot s).2.Each wiring P := by
  refine (@wp_state _ _ _ s (·.Each wiring P) (VisionOs.Registry.restore wiring snapshot)).mp ?_
  unfold VisionOs.Registry.restore
  rw [wp_bind, wp_read]
  rw [wp_bind, wp_within]
  exact wp_mono (fun _ _ hw' => h.keep hempty hw') (fun _ _ hw' => h.keep hempty hw')
    (hloop _ rfl (h snapshot.cameraId))

variable {now : Instant}

theorem setRegions {regions : List Region} (h : s.Each wiring P)
    (hk : P k (s.partitionOf wiring k) ((s.trackerOf k).setRegions regions now).2) :
    (setRegions k regions now s).2.Each wiring P := by
  intro k'
  have hpartition : (VisionOs.Registry.setRegions k regions now s).2.partitionOf wiring k' =
      s.partitionOf wiring k' := rfl
  have htracker : (VisionOs.Registry.setRegions k regions now s).2.trackerOf k' =
      if k = k' then ((s.trackerOf k).setRegions regions now).2 else s.trackerOf k' := by
    show ((s.regions.set k _).get? k').getD {} = _
    rw [get?_set]
    split <;> rfl
  rw [hpartition, htracker]
  split
  · rename_i hsame
    rw [← hsame]
    exact hk
  · exact h k'

variable {objectId : ObjectId}

theorem bind {trackId : TrackId} {method : BindingMethod}
    {confidence : PyFloat} (hempty : ∀ k p t, P k p t → P k p {}) (h : s.Each wiring P)
    (hopened : ∀ k p r w, s.locate objectId = .ok (k, p, r) → r.lifecycle.isTerminal = false →
      w.partition = p → P k w.partition w.regions →
      wp (openBinding wiring objectId trackId method confidence now)
        (fun _ w' => P k w'.partition w'.regions) (fun _ w' => P k w'.partition w'.regions) w) :
    ((RegistryCall.bind trackId objectId method confidence now).after wiring s).Each wiring P := by
  refine @after_of_wp s _ _ (·.Each wiring P) (bind_rule h fun k p r hplace hlive => ?_)
  exact wp_mono (fun _ _ hw' => h.keep hempty hw') (fun _ _ hw' => h.keep hempty hw')
    (hopened k p r (s.work k p) hplace hlive rfl (h.work (locate_ok hplace).1))

theorem merge {sourceObject targetObject : ObjectId}
    (hempty : ∀ k p t, P k p t → P k p {}) (h : s.Each wiring P)
    (hmerged : ∀ k p source target t, s.partitions.get? k = some p →
      p.recordFor sourceObject = some source → p.recordFor targetObject = some target →
      source.lifecycle.isTerminal = false → (∃ moved, onMerged source.lifecycle = .ok moved) →
      t = s.trackerOf k → P k p t → ∀ p', p.merge source target now = .ok p' → P k p' t) :
    ((RegistryCall.merge sourceObject targetObject now).after wiring s).Each wiring P := by
  refine @after_of_wp s _ _ (·.Each wiring P)
    (merge_rule h fun k p source target hp hsource htarget hlive hmergeable => ?_)
  have hwork := h.work hp
  refine ⟨fun p' hp' => h.keep hempty ?_, h.keep hempty hwork⟩
  exact hmerged k p source target _ hp hsource htarget hlive hmergeable rfl hwork p' hp'

theorem split {objectId : ObjectId} {point now : Instant}
    (hempty : ∀ k p t, P k p t → P k p {}) (h : s.Each wiring P)
    (hsplit : ∀ k p r w, s.locate objectId = .ok (k, p, r) →
      r.firstSeen.ns < point.ns ∧ point.ns < r.lastSeen.ns → p.recordFor r.objectId = some r →
      w.partition = p → P k w.partition w.regions → ∀ cut, Cut r point w cut →
      P k cut.partition cut.regions ∧ ∀ successorId w', Divided r point successorId cut w' →
        P k w'.partition w'.regions) :
    ((RegistryCall.split objectId point now).after wiring s).Each wiring P := by
  refine @after_of_wp s _ _ (·.Each wiring P)
    (split_rule h fun k p r hplace hpoint cut hcut => ?_)
  obtain ⟨hp, hr⟩ := locate_ok hplace
  have hself : p.recordFor r.objectId = some r := recordFor_objectId hr
  obtain ⟨hkeepsCut, hdivided⟩ :=
    hsplit k p r (s.work k p) hplace hpoint hself rfl (h.work hp) cut hcut
  exact ⟨h.keep hempty hkeepsCut, fun successorId w' hw' =>
    h.keep hempty (hdivided successorId w' hw')⟩

theorem applyAttribute {held : Attribute}
    (hempty : ∀ k p t, P k p t → P k p {}) (h : s.Each wiring P)
    (hheld : ∀ k p r t, p.recordFor objectId = some r → P k p t →
      P k (p.applyAttribute objectId held) t) :
    ((RegistryCall.applyAttribute objectId held).after wiring s).Each wiring P :=
  @after_of_wp s _ _ (·.Each wiring P) (applyAttribute_rule h fun k p r hp hr =>
    h.keep hempty (hheld k p r _ hr (h.work hp)))

end Each

end ObjectRegistry

end VisionOs.Registry
