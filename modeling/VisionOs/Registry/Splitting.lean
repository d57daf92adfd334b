/-
  The class evidence that a record refers to is there.  Splitting an object in two: the original
  is cut before its successor is adopted, and both refer to the same class evidence.
-/
import VisionOs.Registry.Merges

namespace VisionOs.Registry

open Core Lib Effect RegistryPartition Option RegistryAction Except List Runs BoundedDeque

variable {wiring : RegistryWiring} {s : ObjectRegistry} {w : Work} {id : ObjectId} {now : Instant}
  {track : Track} {crossingEpoch : Bool}

/-! ## Writes -/

namespace RegistryPartition

variable {p p' : RegistryPartition}

/-- The class evidence of every record is there. -/
def Referenced (p : RegistryPartition) : Prop :=
  ∀ id r, p.recordFor id = some r → r.distribution < p.distributions.length

namespace Referenced

theorem change (h : p.Referenced) (hle : p.distributions.length ≤ p'.distributions.length)
    (hrecords : ∀ k r', p'.recordFor k = some r' → r'.distribution < p'.distributions.length ∨
      ∃ k r, p.recordFor k = some r ∧ r'.distribution = r.distribution) : p'.Referenced := by
  intro k r' hr'
  rcases hrecords k r' hr' with hthere | ⟨k₀, r, hr, hsame⟩
  · exact hthere
  · rw [hsame]
    exact (h k₀ r hr).trans_le hle

theorem update (h : p.Referenced) {f : ObjectRecord → ObjectRecord}
    {hf : ∀ r, (f r).objectId = r.objectId} (hsame : ∀ r, (f r).distribution = r.distribution) :
    (p.update id f hf).Referenced := by
  refine h.change le_rfl fun k r' hr' => .inr ?_
  rw [recordFor_update] at hr'
  split at hr'
  · obtain ⟨r, hr, rfl⟩ := map_eq_some_iff.mp hr'
    exact ⟨k, r, hr, hsame r⟩
  · exact ⟨k, r', hr', rfl⟩

theorem setLifecycle (h : p.Referenced) (id : ObjectId) (state : LifecycleState) :
    (p.setLifecycle id state).Referenced := by
  exact h.update fun _ => rfl

theorem addBinding (h : p.Referenced) (id : ObjectId) (binding : TrackBinding)
    (confidence : PyFloat) : (p.addBinding id binding confidence).Referenced := by
  exact h.update fun _ => rfl

theorem applyAttribute (h : p.Referenced) (id : ObjectId) (held : Attribute) :
    (p.applyAttribute id held).Referenced := by
  exact h.update fun _ => rfl

variable {r : ObjectRecord}

theorem insert (h : p.Referenced) (hr : r.distribution < p.distributions.length)
    (hroom : (p.table.size : Int) < p.policy.maxObjectsPerCamera) :
    (p.insert r hroom).Referenced := by
  refine h.change le_rfl fun k r' hr' => ?_
  rw [recordFor_insert] at hr'
  split at hr'
  · rw [← some.inj hr']
    exact .inl hr
  · exact .inr ⟨k, r', hr', rfl⟩

theorem evict (h : p.Referenced) (id : ObjectId) : (p.evict id).Referenced := by
  refine h.change le_rfl fun k r' hr' => ?_
  rw [recordFor_evict] at hr'
  split at hr'
  · cases hr'
  · exact .inr ⟨k, r', hr', rfl⟩

theorem distributions (h : p.Referenced) {distributions : List ClassDistribution}
    (hle : p.distributions.length ≤ distributions.length) :
    RegistryPartition.Referenced { p with distributions } :=
  h.change hle fun k r' hr' => .inr ⟨k, r', hr', rfl⟩

theorem observe (h : p.Referenced) (id : ObjectId) (sighting : Option Sighting) (now : Instant) :
    (p.observe id sighting now).Referenced := by
  unfold RegistryPartition.observe
  split
  · refine (h.distributions ?_).update fun _ => rfl
    rw [length_set]
  · exact h.update fun _ => rfl

variable {now : Instant}

theorem mint (h : p.Referenced) {sighting : Sighting}
    (hp' : p.mint id sighting now = .ok p') : p'.Referenced := by
  unfold RegistryPartition.mint at hp'
  split at hp'
  · cases hp'
  · rw [← ok.inj hp']
    refine (h.distributions (by simp)).insert ?_ _
    show p.distributions.length < (p.distributions ++ [_]).length
    simp

theorem closeBindings (h : p.Referenced)
    (hp' : p.closeBindings id now = .ok p') : p'.Referenced := by
  unfold RegistryPartition.closeBindings at hp'
  split at hp'
  · rw [← ok.inj hp']
    exact h
  split at hp'
  · obtain ⟨bindings, -, hp'⟩ := bind_eq_ok.mp hp'
    rw [← ok.inj hp']
    exact h.update fun _ => rfl
  · rw [← ok.inj hp']
    exact h

theorem inherit (h : p.Referenced) (id : ObjectId) (source : ObjectRecord) :
    (p.inherit id source).Referenced := by
  unfold RegistryPartition.inherit
  split
  · exact h
  · refine (h.distributions ?_).update fun _ => rfl
    rw [length_set]

theorem merge (h : p.Referenced) {source target : ObjectRecord}
    (hp' : p.merge source target now = .ok p') : p'.Referenced := by
  obtain ⟨-, hp'⟩ := check_bind_eq_ok.mp hp'
  obtain ⟨-, hp'⟩ := check_bind_eq_ok.mp hp'
  obtain ⟨-, hp'⟩ := check_bind_eq_ok.mp hp'
  obtain ⟨closed, hclosed, hp'⟩ := bind_eq_ok.mp hp'
  rw [← ok.inj hp']
  refine Referenced.inherit (Referenced.update (h.closeBindings hclosed) ?_) _ _
  exact fun _ => rfl

theorem adopt (h : p.Referenced)
    (hr : r.distribution < p.distributions.length) (hp' : p.adopt r = .ok p') :
    p'.Referenced := by
  unfold RegistryPartition.adopt at hp'
  split at hp'
  · cases hp'
  split at hp'
  · cases hp'
  · rw [← ok.inj hp']
    exact h.insert hr _

theorem adoptSaved (h : p.Referenced) {o : VisualObject} {bindings : List TrackBinding}
    (hp' : p.adoptSaved o bindings = .ok p') : p'.Referenced := by
  refine (h.distributions ?_).adopt ?_ hp'
  · simp
  · show p.distributions.length < (p.distributions ++ [_]).length
    simp

end Referenced

end RegistryPartition

/-! ## Frames and sweeps -/

/-- What a call works on refers to evidence that is there. -/
def Work.Referenced (w : Work) : Prop := w.partition.Referenced

namespace Work.Referenced

/-- What a call of the engine keeps, whether or not it raises. -/
abbrev Kept {α : Type} (x : Doing α) (w : Work) : Prop :=
  wp x (fun _ => Work.Referenced) (fun _ => Work.Referenced) w

theorem openBinding (h : w.Referenced) {trackId : TrackId} {method : BindingMethod}
    {confidence : PyFloat} :
    Kept (openBinding wiring id trackId method confidence now) w := by
  unfold VisionOs.Registry.openBinding
  rw [Kept, wp_bind, wp_attempt]
  refine ⟨fun p hp => ?_, fun _ _ => h⟩
  have hclosed := h.closeBindings hp
  rw [wp_bind, wp_drawId, wp_bind, wp_ofExcept]
  refine ⟨fun stated _ => ?_, fun _ _ => hclosed⟩
  rw [wp_bind, wp_ofExcept]
  refine ⟨fun binding _ => ?_, fun _ _ => hclosed⟩
  rw [wp_bind, wp_edit, wp_pure]
  exact hclosed.addBinding _ _ _

theorem tryMint (h : w.Referenced) : Kept (tryMint wiring track now) w := by
  unfold VisionOs.Registry.tryMint
  rw [Kept, wp_bind, wp_read]
  cases hp : w.partition.mint (wiring.idAt w.draws now) (sightingOf track) now with
  | ok p =>
    simp only [hp]
    exact RegistryPartition.Referenced.mint h hp
  | error exc =>
    simp only [hp]
    exact h

theorem mint (h : w.Referenced) : Kept (mint wiring track now) w := by
  unfold VisionOs.Registry.mint
  rw [Kept, wp_bind]
  refine wp_mono (fun minted w' hw' => ?_) (fun _ _ hw' => hw') (tryMint h)
  split
  · exact hw'
  rw [wp_bind, wp_read]
  split
  · exact hw'
  · rw [wp_bind, wp_ofExcept]
    refine ⟨fun _ _ => ?_, fun _ _ => hw'⟩
    rw [wp_bind, wp_modify]
    exact tryMint (hw'.evict _)

theorem absorbNew (h : w.Referenced) {decision : BindingDecision} :
    Kept (absorbNew wiring track now decision) w := by
  unfold VisionOs.Registry.absorbNew
  rw [Kept, wp_bind]
  refine wp_mono (fun minted w' hw' => ?_) (fun _ _ hw' => hw') (mint h)
  split
  · exact hw'
  · rw [wp_bind]
    exact wp_mono (fun _ _ hw'' => hw'') (fun _ _ hw'' => hw'') (openBinding hw')

theorem absorb (h : w.Referenced) : Kept (absorb wiring track now crossingEpoch) w := by
  have hobserved : ∀ id, Work.Referenced
      { w with partition := w.partition.observe id (measuredOf track) now } :=
    fun id => RegistryPartition.Referenced.observe h id _ now
  exact wp_absorb (fun r _ => hobserved r.objectId) (fun _ _ _ => h)
    (fun _ c _ _ _ => openBinding (hobserved c.objectId)) (fun _ _ _ _ => absorbNew h)

variable {t : LifecycleTransition}

theorem move (h : w.Referenced) : Kept (move id t) w :=
  wp_move (fun _ => RegistryPartition.Referenced.setLifecycle h _ _) (fun _ => h)

theorem foldTrack (h : w.Referenced) : Kept (foldTrack wiring now crossingEpoch track) w := by
  unfold VisionOs.Registry.foldTrack
  rw [Kept, wp_bind]
  refine wp_mono (fun found w' hw' => ?_) (fun _ _ hw' => hw') (absorb h)
  split
  · exact hw'
  rename_i id wasCreated
  unfold drive
  rw [wp_bind, wp_modify, wp_bind, wp_read]
  split
  · exact hw'
  rw [wp_bind, wp_ofExcept]
  refine ⟨fun t _ => ?_, fun _ _ => hw'⟩
  rw [wp_bind]
  have htouched : (w'.touch id wasCreated).Referenced := hw'
  refine wp_mono (fun _ w'' hw'' => ?_) (fun _ _ hw'' => hw'') (move htouched)
  rw [wp_modify, Work.Referenced, place_eq]
  exact hw''

theorem ageRecord (h : w.Referenced) : Kept (ageRecord wiring now id) w := by
  unfold VisionOs.Registry.ageRecord
  rw [Kept, wp_bind, wp_read]
  split
  · exact h
  split
  · exact h
  rw [wp_bind, wp_attempt]
  refine ⟨fun p hp => ?_, fun _ _ => h⟩
  have hclosed := h.closeBindings hp
  unfold ageUnbound
  rw [wp_bind, wp_ofExcept]
  refine ⟨fun t _ => ?_, fun _ _ => hclosed⟩
  have hobserved : Work.Referenced { w with partition := p.observe id none now } :=
    hclosed.observe id none now
  rw [wp_bind, wp_edit, wp_bind]
  refine wp_mono (fun _ w' hw' => ?_) (fun _ _ hw' => hw') (move hobserved)
  split
  · exact hw'
  · exact hw'

theorem depart (h : w.Referenced) : Kept (depart id) w := by
  unfold VisionOs.Registry.depart
  rw [Kept, wp_bind, wp_read]
  split
  · exact h
  · rw [wp_bind, wp_ofExcept]
    exact ⟨fun _ _ => RegistryPartition.Referenced.evict h _, fun _ _ => h⟩

variable {moment : Instant}

theorem sweepMoved (h : w.Referenced)
    (haway : Away t.current) : Kept (sweepMoved moment id t) w := by
  have hmeasurable : t.current.isMeasurable = false := by
    rcases haway with h | h | h | h <;> rw [h] <;> rfl
  unfold VisionOs.Registry.sweepMoved
  simp only [hmeasurable, Bool.false_eq_true, if_false]
  rw [Kept, wp_bind, wp_attempt]
  refine ⟨fun p hp => ?_, fun _ _ => h⟩
  have hclosed := h.closeBindings hp
  have hmoved : Work.Referenced
      { w with
        partition := p.setLifecycle id t.current
        changes := w.changes ++ [(id, t.previous, t.current)] } := hclosed.setLifecycle id t.current
  rw [wp_bind, wp_modify]
  split
  · rw [wp_bind]
    exact wp_mono (fun _ _ hw' => hw') (fun _ _ hw' => hw') (depart hmoved)
  · exact hmoved

theorem sweepRecord (h : w.Referenced) :
    Kept (sweepRecord wiring moment id) w := by
  unfold VisionOs.Registry.sweepRecord
  rw [Kept, wp_bind, wp_read]
  split
  · exact h
  split
  · split
    · exact depart h
    · exact h
  rw [wp_bind, wp_ofExcept]
  refine ⟨fun moved hmoved => ?_, fun _ _ => h⟩
  cases moved with
  | none => exact h
  | some t => exact sweepMoved h (away_of_driveHorizons hmoved)

end Work.Referenced

/-! ## Runs -/

variable {r : ObjectRecord}

theorem splitAt_referenced {point : Instant} (h : w.Referenced)
    (hr : w.partition.recordFor id = some r) :
    Work.Referenced.Kept (splitAt wiring r point now) w := by
  have hcut : (w.partition.cutAt r point).Referenced := by
    exact h.update fun _ => rfl
  refine wp_splitAt.mpr ⟨fun p hp => ?_, fun _ _ => hcut⟩
  have hthere : (r.successor point (wiring.idAt w.draws now)).distribution <
      (w.partition.cutAt r point).distributions.length := h id r hr
  exact RegistryPartition.Referenced.adopt hcut hthere hp

theorem restoreObjects_referenced {takenAt : Instant} {objects : List VisualObject}
    (h : w.Referenced) : Work.Referenced.Kept (restoreObjects takenAt objects) w :=
  @wp_restoreObjects takenAt (fun _ => Work.Referenced) (fun _ => Work.Referenced) objects w
    (fun _ _ _ hw _ => hw)
    (fun _ _ _ _ _ hw _ _ hp => RegistryPartition.Referenced.adoptSaved hw hp)
    (fun _ _ _ _ _ hw _ _ => hw) (fun _ _ _ _ hw _ _ => hw) h

/-- Every record of every camera refers to evidence that is there. -/
def ObjectRegistry.Referenced (wiring : RegistryWiring) (s : ObjectRegistry) : Prop :=
  s.Each wiring fun _ p _ => p.Referenced

theorem referenced_after {action : RegistryAction} (h : s.Referenced wiring) :
    (action.after wiring s).Referenced wiring := by
  have hempty : ∀ (k : CameraId) (p : RegistryPartition) (t : RegionTracker), p.Referenced →
      p.Referenced := fun _ _ _ hP => hP
  cases action with
  | call c =>
    cases c with
    | ingest k update clock =>
      exact h.ingest hempty (@foldFrame_rule wiring _ _ _ _ Work.Referenced
        (fun _ _ => True) (fun _ _ hw _ => hw.foldTrack) (fun _ _ hw => hw.ageRecord)
        (along_of_forall (fun _ _ => trivial) _ _) (h k))
    | sweep moment =>
      refine h.sweep hempty fun k p w _ _ _ hw => ?_
      exact @wp_forEach _ Work _ _ w (fun _ => Work.Referenced) _ _
        (fun _ _ _ _ hw => hw.sweepRecord) hw
    | bind trackId objectId method confidence now =>
      exact h.bind hempty fun k p r w _ _ _ hw => Work.Referenced.openBinding hw
    | merge sourceObject targetObject now =>
      exact h.merge hempty fun _ _ _ _ _ _ _ _ _ _ _ hP _ hmerge => hP.merge hmerge
    | split objectId point now =>
      refine @after_of_wp s _ _ (·.Referenced wiring) ?_
      by_cases hfound : ∃ place, s.locate objectId = .ok place ∧
          place.2.2.firstSeen.ns < point.ns ∧ point.ns < place.2.2.lastSeen.ns
      · obtain ⟨⟨k, p, r⟩, hplace, hpoint⟩ := hfound
        obtain ⟨hp, hr⟩ := locate_ok hplace
        refine (wp_split_located hplace hpoint).mpr ?_
        exact wp_mono (fun _ _ hw' => h.keep hempty hw') (fun _ _ hw' => h.keep hempty hw')
          (splitAt_referenced (h.work hp) hr)
      · exact split_refused
          (fun k p r hplace hpoint => hfound ⟨(k, p, r), hplace, hpoint⟩) fun _ => h
    | applyAttribute objectId held =>
      exact h.applyAttribute hempty fun _ _ _ _ _ hP => hP.applyAttribute objectId held
  | restore snapshot => exact h.restore hempty fun w _ hw => restoreObjects_referenced hw
  | setRegions k regions now => exact h.setRegions (h k)

theorem referenced_run (wiring : RegistryWiring) (actions : List RegistryAction) :
    (run (after wiring) {} actions).Referenced wiring := by
  refine run_invariant (fun s action h => referenced_after h) ?_ actions
  rintro k id r ⟨⟩

variable {wiring : RegistryWiring} {s : ObjectRegistry} {p p' : RegistryPartition}
  {r : ObjectRecord} {point now later : Instant} {sighting : Option Sighting}

/-- A list is dealt out in two, by a property and in order. -/
def Dealt {α : Type} (before : α → Bool) (all first second : List α) : Prop :=
  first = all.filter before ∧ second = all.filter (fun a => !before a)

/-- Histories and bindings are dealt out at the split point. -/
structure DealtOut (point : Instant) (r original successor : ObjectRecord) : Prop where
  spatial : Dealt (·.1.ns < point.ns) r.spatialHistory.items original.spatialHistory.items
    successor.spatialHistory.items
  classes : Dealt (·.observedAt.ns < point.ns) r.classHistory.items original.classHistory.items
    successor.classHistory.items
  bindings : Dealt (·.boundFrom.ns < point.ns) r.bindings original.bindings successor.bindings

def RegistryPartition.evidenceOf (p : RegistryPartition) (id : ObjectId) :
    Option ClassDistribution :=
  (p.recordFor id).map p.evidence

/-- What is measured of one counts for that one only. -/
def EvidenceApart (p : RegistryPartition) (sighting : Option Sighting) (later : Instant)
    (a b : ObjectId) : Prop :=
  (p.observe a sighting later).evidenceOf b = p.evidenceOf b ∧
    (p.observe b sighting later).evidenceOf a = p.evidenceOf a

/-- A split, and a frame folded into one of its objects later: the split raises and leaves
    the partitions as they were, or it deals the object out to two that stand apart. -/
def SplitsCleanly (wiring : RegistryWiring) (s : ObjectRegistry) (objectId : ObjectId)
    (point now : Instant) (sighting : Option Sighting) (later : Instant) : Prop :=
  wp (split wiring objectId point now)
    (fun (originalId, successorId) s' => ∃ k p r p' original successor,
      s.locate objectId = .ok (k, p, r) ∧ s'.partitions.get? k = some p' ∧
      p'.recordFor originalId = some original ∧ p'.recordFor successorId = some successor ∧
      originalId ≠ successorId ∧ DealtOut point r original successor ∧
      EvidenceApart p' sighting later originalId successorId)
    (fun _ s' => s'.partitions = s.partitions) s

/-- The partition has room for the successor, and the successor for what it gets. -/
structure Fits (wiring : RegistryWiring) (draws : Nat) (p : RegistryPartition) (r : ObjectRecord)
    (point now : Instant) : Prop where
  fresh : p.recordFor (wiring.idAt draws now) = none
  room : (p.table.size : Int) < p.policy.maxObjectsPerCamera
  spatial : (r.spatialHistory.items.filter (point.ns ≤ ·.1.ns)).length ≤ 64
  classes : (r.classHistory.items.filter (point.ns ≤ ·.observedAt.ns)).length ≤ 32

theorem not_before (a b : Int) : (!decide (a < b)) = decide (b ≤ a) := by
  rw [← decide_not]
  exact decide_eq_decide.mpr not_lt

variable {bound : Nat}

theorem extend_empty_eq_iff {α : Type} {added : List α} :
    ((empty bound).extend added).items = added ↔ added.length ≤ bound := by
  show added.drop (added.length - bound) = added ↔ _
  constructor
  · intro h
    have hlength := congrArg length h
    rw [length_drop] at hlength
    omega
  · intro h
    rw [Nat.sub_eq_zero_of_le h, drop_zero]

theorem dealt_extend_iff {α : Type} {t : α → Int} {point : Int} {all : List α} :
    Dealt (t · < point) all (all.filter (t · < point))
        ((empty bound).extend (all.filter (t · ≥ point))).items ↔
      (all.filter (point ≤ t ·)).length ≤ bound := by
  unfold Dealt
  simp only [not_before, true_and]
  exact extend_empty_eq_iff

variable {successorId : ObjectId}

theorem dealtOut_iff : DealtOut point r (r.original point) (r.successor point successorId) ↔
      (r.spatialHistory.items.filter (point.ns ≤ ·.1.ns)).length ≤ 64 ∧
      (r.classHistory.items.filter (point.ns ≤ ·.observedAt.ns)).length ≤ 32 := by
  constructor
  · intro h
    exact ⟨dealt_extend_iff.mp h.spatial, dealt_extend_iff.mp h.classes⟩
  · intro h
    refine ⟨dealt_extend_iff.mpr h.1, dealt_extend_iff.mpr h.2, rfl, ?_⟩
    simp only [not_before]
    rfl

theorem evidenceOf_unseen (p : RegistryPartition) (a b : ObjectId) (later : Instant) :
    (p.observe a none later).evidenceOf b = p.evidenceOf b := by
  have hrecord : (p.observe a none later).recordFor b =
      if a = b then (p.recordFor b).map (·.unseen later) else p.recordFor b :=
    recordFor_update p a b (·.unseen later) (fun _ => rfl)
  unfold evidenceOf
  rw [hrecord]
  split
  · cases p.recordFor b <;> rfl
  · rfl

variable {a b : ObjectId} {successor : ObjectRecord} {original : ObjectRecord}

theorem evidenceOf_seen {seen : Sighting}
    (ha : p.recordFor a = some original) (hb : p.recordFor b = some successor) (hne : a ≠ b)
    (hshared : successor.distribution = original.distribution)
    (hthere : original.distribution < p.distributions.length) :
    (p.observe a (some seen) later).evidenceOf b ≠ p.evidenceOf b := by
  have hother : (p.observe a (some seen) later).recordFor b = some successor := by
    rw [(recordFor_observe ha (some seen) later).2 b hne.symm, hb]
  have hcounted : (p.observe a (some seen) later).evidence successor =
      (p.evidence successor).observe seen.classId seen.confidence.value := by
    unfold observe evidence
    rw [ha, hshared]
    show (p.distributions.set original.distribution _).getD original.distribution {} = _
    rw [getD_eq_getElem?_getD, getElem?_set_self hthere]
    rfl
  unfold evidenceOf
  rw [hother, hb, map_some, map_some, hcounted]
  intro hsame
  have hmore := congrArg ClassDistribution.observations (some.inj hsame)
  have hone : ((p.evidence successor).observe seen.classId seen.confidence.value).observations =
      (p.evidence successor).observations + 1 := rfl
  omega

/-! ## The split -/

theorem adopt_ok_iff : (∃ p', p.adopt r = .ok p') ↔ p.recordFor r.objectId = none ∧
      (p.table.size : Int) < p.policy.maxObjectsPerCamera := by
  constructor
  · rintro ⟨p', h⟩
    refine ⟨fresh_of_adopt h, ?_⟩
    unfold adopt at h
    split at h
    · cases h
    split at h
    · cases h
    · omega
  · rintro ⟨hfresh, hroom⟩
    unfold adopt
    rw [hfresh, if_neg (by simp), dif_neg (by omega)]
    exact ⟨_, rfl⟩

theorem cut_adopts_iff :
    (∃ p', (p.cutAt r point).adopt successor = .ok p') ↔
      p.recordFor successor.objectId = none ∧
        (p.table.size : Int) < p.policy.maxObjectsPerCamera := by
  have hsize : (p.cutAt r point).table.size = p.table.size := OrderedDict.size_modify ..
  have hpolicy : (p.cutAt r point).policy = p.policy := rfl
  have hrecord : (p.cutAt r point).recordFor successor.objectId = none ↔
      p.recordFor successor.objectId = none := by
    have hcut : (p.cutAt r point).recordFor successor.objectId =
        if r.objectId = successor.objectId then
          (p.recordFor successor.objectId).map (·.original point)
        else p.recordFor successor.objectId :=
      recordFor_update p r.objectId _ (·.original point) (fun _ => rfl)
    rw [hcut]
    split
    · exact map_eq_none_iff
    · rfl
  rw [adopt_ok_iff, hsize, hpolicy, hrecord]

theorem cutAt_ne (hr : p.recordFor r.objectId = some r) (hpoint : point.ns < r.lastSeen.ns) :
    p.cutAt r point ≠ p := by
  intro hsame
  have hself : (p.cutAt r point).recordFor r.objectId = some (r.original point) :=
    recordFor_update_self hr
  rw [hsame, hr] at hself
  have hlast := congrArg ObjectRecord.lastSeen (some.inj hself)
  have hcut : (r.original point).lastSeen = point := rfl
  rw [hlast, hcut] at hpoint
  omega

theorem adopted_spec (hr : p.recordFor r.objectId = some r)
    (h : (p.cutAt r point).adopt (r.successor point successorId) = .ok p') :
    p'.recordFor r.objectId = some (r.original point) ∧
      p'.recordFor successorId = some (r.successor point successorId) ∧
      r.objectId ≠ successorId ∧ p'.distributions = p.distributions := by
  obtain ⟨hadopted, hothers⟩ := recordFor_adopt h
  have hself : (p.cutAt r point).recordFor r.objectId = some (r.original point) :=
    recordFor_update_self hr
  have hne : r.objectId ≠ successorId := by
    intro hsame
    have hfresh : (p.cutAt r point).recordFor successorId = none :=
      fresh_of_adopt h
    rw [← hsame, hself] at hfresh
    cases hfresh
  refine ⟨(hothers _ hne).trans hself, hadopted, hne, ?_⟩
  unfold adopt at h
  split at h
  · cases h
  split at h
  · cases h
  · rw [← ok.inj h]
    rfl

theorem evidenceApart_iff
    (ha : p.recordFor a = some original) (hb : p.recordFor b = some successor) (hne : a ≠ b)
    (hshared : successor.distribution = original.distribution)
    (hthere : original.distribution < p.distributions.length) :
    EvidenceApart p sighting later a b ↔ sighting = none := by
  constructor
  · intro h
    by_contra hseen
    obtain ⟨seen, rfl⟩ := ne_none_iff_exists'.mp hseen
    exact evidenceOf_seen ha hb hne hshared hthere h.1
  · rintro rfl
    exact ⟨evidenceOf_unseen p a b later, evidenceOf_unseen p b a later⟩

theorem splitsCleanly_located_iff {k : CameraId} (hplace : s.locate r.objectId = .ok (k, p, r))
    (hpoint : r.firstSeen.ns < point.ns ∧ point.ns < r.lastSeen.ns)
    (hthere : r.distribution < p.distributions.length) :
    SplitsCleanly wiring s r.objectId point now sighting later ↔
      Fits wiring s.draws p r point now ∧ sighting = none := by
  obtain ⟨hp, hr⟩ := locate_ok hplace
  have hwork : (s.work k p).draws = s.draws := rfl
  have hkept : ∀ w : Work, (s.keep k w).partitions.get? k = some w.partition :=
    fun w => (partitions_keep s k k w).trans (if_pos rfl)
  unfold SplitsCleanly
  rw [wp_split_located hplace hpoint, wp_splitAt, hwork]
  constructor
  · rintro ⟨hreturns, hraises⟩
    cases hadopt : (p.cutAt r point).adopt (r.successor point (wiring.idAt s.draws now)) with
    | error exc =>
      -- the cut stands
      have hbefore := congrArg (·.get? k) (hraises exc hadopt)
      rw [hkept, hp] at hbefore
      exact absurd (some.inj hbefore) (cutAt_ne hr hpoint.2)
    | ok p' =>
      obtain ⟨hfresh, hroom⟩ := cut_adopts_iff.mp ⟨p', hadopt⟩
      obtain ⟨horiginal, hsuccessor, hne, hevidence⟩ := adopted_spec hr hadopt
      obtain ⟨k', p₀, r', p'', original, successor, hplace', hp'', ho, hs, -, hdealt, hapart⟩ :=
        hreturns p' hadopt
      obtain ⟨rfl, rfl, rfl⟩ : k = k' ∧ p = p₀ ∧ r = r' := by
        simpa using ok.inj (hplace.symm.trans hplace')
      rw [hkept] at hp''
      obtain rfl : p' = p'' := some.inj hp''
      obtain rfl : r.original point = original := some.inj (horiginal.symm.trans ho)
      obtain rfl : r.successor point (wiring.idAt s.draws now) = successor :=
        some.inj (hsuccessor.symm.trans hs)
      obtain ⟨hspatial, hclasses⟩ := dealtOut_iff.mp hdealt
      refine ⟨⟨hfresh, hroom, hspatial, hclasses⟩, (evidenceApart_iff ho hs hne rfl ?_).mp hapart⟩
      rw [hevidence]
      exact hthere
  · rintro ⟨hfits, rfl⟩
    have hadopts : ∃ p', (p.cutAt r point).adopt
        (r.successor point (wiring.idAt s.draws now)) = .ok p' :=
      cut_adopts_iff.mpr ⟨hfits.fresh, hfits.room⟩
    refine ⟨fun p' hadopt => ?_, fun exc hexc => ?_⟩
    · obtain ⟨horiginal, hsuccessor, hne, hevidence⟩ := adopted_spec hr hadopt
      refine ⟨k, p, r, p', _, _, hplace, hkept _, horiginal, hsuccessor, hne,
        dealtOut_iff.mpr ⟨hfits.spatial, hfits.classes⟩, ?_⟩
      refine (evidenceApart_iff horiginal hsuccessor hne rfl ?_).mpr rfl
      rw [hevidence]
      exact hthere
    · obtain ⟨p', hadopt⟩ := hadopts
      cases hexc.symm.trans hadopt

variable {objectId : ObjectId}

theorem splitsCleanly_iff (h : s.Referenced wiring) :
    SplitsCleanly wiring s objectId point now sighting later ↔
      ∀ k p r, s.locate objectId = .ok (k, p, r) →
        r.firstSeen.ns < point.ns ∧ point.ns < r.lastSeen.ns →
        Fits wiring s.draws p r point now ∧ sighting = none := by
  by_cases hfound : ∃ place, s.locate objectId = .ok place ∧
      place.2.2.firstSeen.ns < point.ns ∧ point.ns < place.2.2.lastSeen.ns
  · obtain ⟨⟨k, p, r⟩, hplace, hpoint⟩ := hfound
    obtain ⟨hp, hr⟩ := locate_ok hplace
    have hid := objectId_of_recordFor hr
    subst hid
    have hcamera := h k
    rw [ObjectRegistry.partitionOf_eq hp] at hcamera
    rw [splitsCleanly_located_iff hplace hpoint (hcamera _ _ hr)]
    constructor
    · intro hclean k' p' r' hplace' _
      obtain ⟨rfl, rfl, rfl⟩ : k = k' ∧ p = p' ∧ r = r' := by
        simpa using ok.inj (hplace.symm.trans hplace')
      exact hclean
    · exact fun hclean => hclean k p r hplace hpoint
  · have hnone : ∀ k p r, s.locate objectId = .ok (k, p, r) →
        ¬ (r.firstSeen.ns < point.ns ∧ point.ns < r.lastSeen.ns) :=
      fun k p r hplace hpoint => hfound ⟨(k, p, r), hplace, hpoint⟩
    exact iff_of_true (split_refused hnone fun _ => rfl)
      (fun k p r hplace hpoint => absurd hpoint (hnone k p r hplace))

/-- In every state that a registry reaches, a split with a frame after it is clean if and only
    if the point is outside the object's lifetime, or the partition has room for the successor
    and the successor for its histories, and the frame measured nothing. -/
theorem split_clean_iff (wiring : RegistryWiring) (actions : List RegistryAction)
    (objectId : ObjectId) (point now : Instant) (sighting : Option Sighting) (later : Instant) :
    SplitsCleanly wiring (run (after wiring) {} actions) objectId point now
        sighting later ↔
      ∀ k p r, (run (after wiring) {} actions).locate objectId =
          .ok (k, p, r) →
        r.firstSeen.ns < point.ns ∧ point.ns < r.lastSeen.ns →
        Fits wiring (run (after wiring) {} actions).draws p r point now ∧
          sighting = none :=
  splitsCleanly_iff (referenced_run wiring actions)

/-- The same track seen on the left, and two seconds later on the right. -/
def seenTwice : List RegistryAction :=
  [.call (.ingest "north" leftFrame ⟨0⟩), .call (.ingest "north" rightFrame ⟨0⟩)]

theorem not_splitsCleanly (h : s.Referenced wiring)
    (hplace : (s.locate objectId).toOption.any (fun place =>
      place.2.2.firstSeen.ns < point.ns ∧ point.ns < place.2.2.lastSeen.ns ∧
        (place.2.1.atCapacity = true ∨ sighting.isSome = true)) = true) :
    ¬ SplitsCleanly wiring s objectId point now sighting later := by
  intro hclean
  cases hfound : s.locate objectId with
  | error exc =>
    rw [hfound] at hplace
    cases hplace
  | ok place =>
    obtain ⟨k, p, r⟩ := place
    rw [hfound] at hplace
    obtain ⟨hfirst, hlast, hbad⟩ := of_decide_eq_true hplace
    obtain ⟨hfits, hnone⟩ := (splitsCleanly_iff h).mp hclean k p r hfound ⟨hfirst, hlast⟩
    rcases hbad with hfull | hseen
    · have hcapacity : p.policy.maxObjectsPerCamera ≤ (p.table.size : Int) :=
        of_decide_eq_true hfull
      exact absurd hfits.room (not_lt.mpr hcapacity)
    · rw [hnone] at hseen
      cases hseen

/-- In a full partition the split raises and leaves the original cut; in one with room, what
    is measured of the original counts for its successor. -/
theorem split_leaves_traces :
    ¬ SplitsCleanly (streetWiring crampedPolicy)
        (run (after (streetWiring crampedPolicy)) {} seenTwice)
        ((streetWiring crampedPolicy).idAt 0 ⟨1000⟩) ⟨1000000⟩ ⟨2000000000⟩ none ⟨3000000000⟩ ∧
      ¬ SplitsCleanly (streetWiring patientPolicy)
        (run (after (streetWiring patientPolicy)) {} seenTwice)
        ((streetWiring patientPolicy).idAt 0 ⟨1000⟩) ⟨1000000⟩ ⟨2000000000⟩
        (some (sightingOf otherTrack)) ⟨3000000000⟩ := by
  constructor
  · exact not_splitsCleanly (referenced_run _ seenTwice) (by decide +kernel)
  · exact not_splitsCleanly (referenced_run _ seenTwice) (by decide +kernel)

end VisionOs.Registry
