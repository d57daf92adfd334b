/-
  Can a call leave a camera's objects so that a later frame fails?  In three ways: a track keeps
  its object while that departs, and then measures it; a binding made by hand begins after the
  frames; a merged object is split into one that claims a merge and has no target.
-/
import VisionOs.Registry.Continuity
import VisionOs.Registry.Soundness

namespace VisionOs.Registry

open Core Lib Effect RegistryPartition Option RegistryCall OrderedDict

variable {wiring : RegistryWiring} {s : ObjectRegistry} {now : Instant} {id : ObjectId}
  {p p' : RegistryPartition} {r : ObjectRecord}

/-- Every camera's records are sound at its last frame. -/
def ObjectRegistry.Sound (s : ObjectRegistry) : Prop :=
  ∀ k p, s.partitions.get? k = some p →
    ∃ now, s.cameraTime.get? k = some now ∧ p.Sound now

theorem RegistryPartition.Sound.change (h : p.Sound now)
    (hothers : ∀ k, k ≠ id → p'.recordFor k = p.recordFor k)
    (hnew : ∀ r', p'.recordFor id = some r' → r'.Sound now) : p'.Sound now := by
  intro k r hr
  by_cases hk : k = id
  · subst hk
    exact hnew r hr
  · rw [hothers k hk] at hr
    exact h k r hr

theorem RegistryPartition.Sound.update {f : ObjectRecord → ObjectRecord}
    {hf : ∀ r, (f r).objectId = r.objectId} (h : p.Sound now) (hr : p.recordFor id = some r)
    (hnew : (f r).Sound now) : (p.update id f hf).Sound now := by
  refine h.change (fun k hk => recordFor_update_of_ne hk) (fun r' hr' => ?_)
  rw [recordFor_update_self hr] at hr'
  rw [← some.inj hr']
  exact hnew

variable {k : CameraId} {w : Work}

theorem ObjectRegistry.Sound.keep (h : s.Sound) (hp : s.partitions.get? k = some p)
    (hkeeps : ∀ now, p.Sound now → w.partition.Sound now) : (s.keep k w).Sound := by
  intro k' q hq
  rw [partitions_keep] at hq
  split at hq
  · rename_i hk
    subst hk
    obtain ⟨now, htime, hsound⟩ := h _ p hp
    rw [← some.inj hq]
    exact ⟨now, htime, hkeeps now hsound⟩
  · exact h k' q hq

theorem within_sound {α : Type} {x : Doing α} (h : s.Sound) (hp : s.partitions.get? k = some p)
    (hkeeps : ∀ now, p.Sound now → wp x (fun _ w' => w'.partition.Sound now)
      (fun _ w' => w'.partition.Sound now) (s.work k p)) :
    wp (within k p x) (fun _ => ObjectRegistry.Sound) (fun _ => ObjectRegistry.Sound) s := by
  rw [wp_within]
  have hall : wp x (fun _ w' => ∀ now, p.Sound now → w'.partition.Sound now)
      (fun _ w' => ∀ now, p.Sound now → w'.partition.Sound now) (s.work k p) :=
    wp_iff.mpr ⟨fun a ha now hnow => (wp_iff.mp (hkeeps now hnow)).1 a ha,
      fun e he now hnow => (wp_iff.mp (hkeeps now hnow)).2 e he⟩
  exact wp_mono (fun _ w' hw' => h.keep hp hw') (fun _ w' hw' => h.keep hp hw') hall

/-! ## The calls that fold no frame -/

variable {trackId : TrackId} {method : BindingMethod} {confidence : PyFloat} {moment : Instant}

theorem openBinding_sound
    (hr : w.partition.recordFor id = some r)
    (h : w.partition.Sound now) :
    wp (openBinding wiring id trackId method confidence moment)
      (fun _ w' => w'.partition.Sound now) (fun _ w' => w'.partition.Sound now) w := by
  refine wp_mono (fun _ w' hbound => ?_) (fun _ w' hfailed => ?_) (openBinding_spec hr)
  · obtain ⟨closed, binding, confidence', -, -, -, -, -, hrecord⟩ := hbound.record
    refine h.change hbound.others (fun r' hr' => ?_)
    rw [hrecord] at hr'
    rw [← some.inj hr']
    exact (h id r hr).rebound _ _
  · obtain ⟨bindings, -, hrecord⟩ := hfailed.1.record
    refine h.change hfailed.1.others (fun r' hr' => ?_)
    rw [hrecord] at hr'
    rw [← some.inj hr']
    exact (h id r hr).rebound _ _

theorem bind_sound
    (h : s.Sound) :
    wp (bind wiring trackId id method confidence moment) (fun _ => ObjectRegistry.Sound)
      (fun _ => ObjectRegistry.Sound) s := by
  refine bind_rule h fun k p r hplace _ => ?_
  obtain ⟨hp, hr⟩ := locate_ok hplace
  exact wp_within.mp (within_sound h hp fun now hnow => openBinding_sound hr hnow)

theorem merge_sound {source target : ObjectRecord} (h : p.Sound now)
    (hsource : p.recordFor source.objectId = some source)
    (htarget : p.recordFor target.objectId = some target)
    (hmerge : p.merge source target moment = .ok p') : p'.Sound now := by
  obtain ⟨hne, -, ⟨bindings, -, hmarked⟩, ⟨classId, hsurvivor⟩, hothers⟩ :=
    merge_ok hsource htarget hmerge
  have hsound := h _ source hsource
  have hsound' := h _ target htarget
  intro k r hr
  by_cases hk : k = source.objectId
  · rw [hk, hmarked] at hr
    rw [← some.inj hr]
    exact ⟨⟨⟨fun _ => nofun, fun _ => rfl⟩, fun heq => hne (some.inj heq).symm,
      hsound.observed, hsound.seen_le, hsound.confirmed_le⟩, hsound.recent⟩
  by_cases hk' : k = target.objectId
  · -- The survivor may have been seen first when the other was.
    rw [hk', hsurvivor] at hr
    rw [← some.inj hr]
    exact ⟨⟨hsound'.merged, hsound'.notSelf, add_nonneg hsound'.observed hsound.observed,
      (min_le_left _ _).trans hsound'.seen_le, hsound'.confirmed_le⟩, hsound'.recent⟩
  · rw [hothers k hk hk'] at hr
    exact h k r hr

theorem merge_call_sound {sourceObject targetObject : ObjectId} (h : s.Sound) :
    wp (merge sourceObject targetObject moment) (fun _ => ObjectRegistry.Sound)
      (fun _ => ObjectRegistry.Sound) s := by
  refine merge_rule h fun k p source target hp hsource htarget _ _ =>
    ⟨fun p' hmerge => h.keep hp fun now hnow => ?_, h.keep hp fun _ hnow => hnow⟩
  exact merge_sound hnow (recordFor_objectId hsource)
    (recordFor_objectId htarget) hmerge

theorem split_sound {point : Instant} (h : r.Sound now) (hpoint : r.firstSeen.ns < point.ns ∧
    point.ns < r.lastSeen.ns) :
    (r.original point).Sound now ∧
    (r.lifecycle ≠ .mergedInto → ∀ successorId, (r.successor point successorId).Sound now) := by
  have hrecent := h.recent
  constructor
  · refine ⟨⟨h.merged, h.notSelf, ?_, hpoint.1.le, min_le_right _ _⟩, ?_⟩
    · show (0 : Int) ≤ max 1 (r.observationCount / 2)
      omega
    · show point.ns ≤ now.ns
      omega
  · intro hlive successorId
    refine ⟨⟨⟨fun heq => absurd heq hlive, fun hsome => absurd rfl hsome⟩, nofun, ?_, hpoint.2.le,
      h.confirmed_le⟩, hrecent⟩
    show (0 : Int) ≤ max 1 (r.observationCount / 2)
    omega

theorem split_call_sound {point : Instant} (h : s.Sound)
    (hlive : ∀ k p r, s.locate id = .ok (k, p, r) → r.lifecycle ≠ .mergedInto) :
    wp (split wiring id point moment) (fun _ => ObjectRegistry.Sound)
      (fun _ => ObjectRegistry.Sound) s := by
  refine split_rule h fun k p r hplace hpoint cut hcut => ?_
  obtain ⟨hp, hr⟩ := locate_ok hplace
  have hkept : ∀ now, p.Sound now → cut.partition.Sound now := by
    intro now hnow
    refine hnow.change hcut.others fun r' hr' => ?_
    rw [hcut.original] at hr'
    rw [← some.inj hr']
    exact (split_sound (hnow id r hr) hpoint).1
  refine ⟨h.keep hp hkept, fun successorId w' hdivided => h.keep hp fun now hnow => ?_⟩
  refine (hkept now hnow).change hdivided.others fun r' hr' => ?_
  rw [hdivided.successor] at hr'
  rw [← some.inj hr']
  exact (split_sound (hnow id r hr) hpoint).2 (hlive k p r hplace) successorId

theorem applyAttribute_sound {held : Attribute} (h : s.Sound) :
    wp (applyAttribute wiring id held) (fun _ => ObjectRegistry.Sound)
      (fun _ => ObjectRegistry.Sound) s := by
  refine applyAttribute_rule h fun k p r hp hr => h.keep hp fun now hnow => ?_
  have hsound := hnow id r hr
  exact @RegistryPartition.Sound.update now id p r
    (fun r => { r with attributes := r.attributes.set held.key held }) (fun _ => rfl) hnow hr
    ⟨⟨hsound.merged, hsound.notSelf, hsound.observed, hsound.seen_le, hsound.confirmed_le⟩,
      hsound.recent⟩

/-- Sweeping a record keeps the records sound, whether it returns or raises. -/
theorem sweepRecord_sound (h : w.partition.Sound now) :
    wp (sweepRecord wiring moment id) (fun _ w' => w'.partition.Sound now)
      (fun _ w' => w'.partition.Sound now) w := by
  have hdeparted : ∀ {w w' : Work}, w.partition.Sound now → Departed id w w' →
      w'.partition.Sound now := by
    intro w w' h hdeparted
    refine h.change hdeparted.others (fun r' hr' => ?_)
    rw [hdeparted.gone] at hr'
    cases hr'
  have hswept : ∀ {r : ObjectRecord} {t : LifecycleTransition} {w' : Work},
      w.partition.recordFor id = some r → r.lifecycle.isTerminal = false →
      driveHorizons wiring.lifecycle r moment = .ok (some t) → SweptOver id r t w w' →
      w'.partition.Sound now := by
    intro r t w' hr hlive hmoves hover
    obtain ⟨closed, -, hrecord⟩ := hover.record
    have haway : Away t.current := by
      rcases driveHorizons_ok wiring.lifecycle r moment with hnone | ⟨t', ht', -, haway⟩
      · rw [hmoves] at hnone
        cases hnone
      · rw [hmoves] at ht'
        rw [some.inj (Except.ok.inj ht')]
        exact haway
    have hstate : t.current ≠ .mergedInto := by
      rcases haway with heq | heq | heq | heq <;> rw [heq] <;> exact nofun
    refine h.change hover.others (fun r' hr' => ?_)
    rw [hrecord] at hr'
    rw [← some.inj hr']
    exact ((h id r hr).rebound closed r.identityConfidence).moved (ne_merged_of_live hlive) hstate
  refine wp_mono ?_ ?_ sweepRecord_spec
  · rintro - w' (⟨rfl, -⟩ | ⟨hgone, -⟩ | ⟨r, t, swept, hr, hlive, hmoves, hover, hend⟩)
    · exact h
    · exact hdeparted h hgone
    · have hsound := hswept hr hlive hmoves hover
      rcases hend with ⟨-, rfl⟩ | ⟨-, hgone⟩
      · exact hsound
      · exact hdeparted hsound hgone
  · rintro - w' ⟨r, hr, ⟨-, rfl, -⟩ | ⟨t, hlive, hmoves, ⟨rfl, -⟩ | ⟨-, hover, -⟩⟩⟩
    · exact h
    · exact h
    · exact hswept hr hlive hmoves hover

theorem sweep_sound (h : s.Sound) : (sweep wiring moment s).2.Sound := by
  refine sweep_keeps (fun k p s hs hp => ?_) h
  have hloop : ∀ now, p.Sound now → wp (forEach (sweepRecord wiring moment) p.ids)
      (fun _ w' => w'.partition.Sound now) (fun _ w' => w'.partition.Sound now) (s.work k p) :=
    fun now hnow => @wp_forEach PyException Work ObjectId
      (fun _ w' => w'.partition.Sound now) (s.work k p) (fun _ w' => w'.partition.Sound now)
      (sweepRecord wiring moment) p.ids (fun _ _ _ _ hw' => sweepRecord_sound hw') hnow
  have hall := wp_within.mp (within_sound hs hp hloop)
  exact wp_mono (fun _ _ hkept => hkept) (fun _ _ hkept => hkept) hall

/-! ## A frame -/

/-- The frame measures no departed object, and whoever was bound later has a track in it. -/
structure Digestible (update : TrackUpdate) (now : Instant) (p : RegistryPartition) : Prop where
  here : ∀ t ∈ update.active, t.isPredicted = false → ∀ id r, p.recordFor id = some r →
    r.owns t.trackId = true → r.lifecycle ≠ .departed
  late : ∀ id r, p.recordFor id = some r → r.lifecycle.isTerminal = false → r.LateFor now →
    ∃ t ∈ update.active, ∃ r', p.byTrack t.trackId = some r' ∧ r'.objectId = id

variable {update : TrackUpdate}

theorem Digestible.folding
    (h : Digestible update now w.partition) (hsound : w.partition.Sound now) :
    Folding now update.active w where
  sound := hsound
  here := h.here
  late id r hr hlive hlate := by
    obtain ⟨t, ht, r', hby, hid⟩ := h.late id r hr hlive hlate
    refine ⟨fun hnone => ?_, .inr ⟨t, ht, r', hby, hid⟩⟩
    obtain ⟨hr', howns, -⟩ := byTrack_eq_some_iff.mp hby
    rw [hid, hr] at hr'
    have hbound := (ObjectRecord.owns_iff.mp howns).1
    rw [← some.inj hr', hnone] at hbound
    cases hbound

theorem RegistryWiring.newPartition_sound (wiring : RegistryWiring) (k : CameraId) :
    (wiring.newPartition k).Sound now := by
  intro id r hr
  cases hr

/-- A digestible frame is folded, and leaves the records sound. -/
theorem ingest_sound {clock : Instant}
    (husable : wiring.binding.Usable)
    (hnodup : (update.active.map (·.trackId)).Nodup) (h : s.Sound)
    (hdigestible : ∀ p, s.partitions.get? k = some p →
      Digestible update (s.advanceTime k update clock) p) :
    (ingest wiring k update clock s).1.failed = false ∧
    (ingest wiring k update clock s).2.Sound := by
  have hfolding : Folding (s.advanceTime k update clock) update.active
      (frameWork wiring k update clock s) := by
    cases hp : s.partitions.get? k with
    | some p =>
      have hwork : (frameWork wiring k update clock s).partition = p := frameWork_partition hp
      obtain ⟨now, htime, hsound⟩ := h k p hp
      refine Digestible.folding ?_ ?_
      · rw [hwork]
        exact hdigestible p hp
      · rw [hwork]
        exact hsound.mono (advanceTime_le htime)
    | none =>
      have hwork : (frameWork wiring k update clock s).partition = wiring.newPartition k := by
        unfold frameWork ObjectRegistry.work
        simp only [hp, getD_none]
      refine Digestible.folding ?_ ?_
      · rw [hwork]
        exact ⟨fun _ _ _ id r hr => (by cases hr), fun id r hr => (by cases hr)⟩
      · rw [hwork]
        exact wiring.newPartition_sound k
  refine @ingest_rule wiring s k update clock
    (fun result => result.1.failed = false ∧ result.2.Sound)
    (wp_mono (fun _ w' hsound => ?_) (fun _ _ h => h.elim)
      (foldFrame_returns husable hnodup hfolding))
  refine ⟨rfl, fun k' q hq => ?_⟩
  rw [partitions_keep] at hq
  by_cases hk : k = k'
  · subst hk
    rw [if_pos rfl] at hq
    refine ⟨s.advanceTime k update clock, ?_, ?_⟩
    · show (s.cameraTime.set k _).get? k = _
      rw [get?_set, if_pos rfl]
    · rw [← some.inj hq]
      exact hsound
  · -- The other cameras are as before.
    rw [if_neg hk] at hq
    have hq' : s.partitions.get? k' = some q := by
      have hset : (s.partitions.set k ((s.partitions.get? k).getD (wiring.newPartition k))).get?
          k' = some q := hq
      rw [get?_set, if_neg hk] at hset
      exact hset
    obtain ⟨now, htime, hsound'⟩ := h k' q hq'
    refine ⟨now, ?_, hsound'⟩
    show (s.cameraTime.set k _).get? k' = _
    rw [get?_set, if_neg hk]
    exact htime

/-! ## Runs -/

/-- What is asked of the calls of a run: each returns, and the tracks of a frame are told
    apart. -/
def RegistryCall.Regular (wiring : RegistryWiring) (s : ObjectRegistry) (call : RegistryCall) :
    Prop :=
  (∃ updates, (call.perform wiring s).1 = .ok updates) ∧
  match call with
  | .ingest _ update _ => (update.active.map (·.trackId)).Nodup
  | _ => True

/-- A call that leaves nothing for a later frame to fail on, or does not meet it: a frame is
    digestible, and an object that is split was not merged. -/
def RegistryCall.Wholesome (s : ObjectRegistry) : RegistryCall → Prop
  | .ingest k update clock => ∀ p, s.partitions.get? k = some p →
      Digestible update (s.advanceTime k update clock) p
  | .split id _ _ => ∀ k p r, s.locate id = .ok (k, p, r) → r.lifecycle ≠ .mergedInto
  | _ => True

/-- What a call should leave: an ingest has not failed, and every record can be published. -/
structure Healthy (wiring : RegistryWiring) (s : ObjectRegistry) (call : RegistryCall) :
    Prop where
  ingested : ∀ k update clock, call = .ingest k update clock →
    (ingest wiring k update clock s).1.failed = false
  projects : ∀ k p, (call.after wiring s).partitions.get? k = some p →
    ∀ id r, p.recordFor id = some r → ∃ o, p.project r = .ok o

theorem ObjectRegistry.Sound.after {call : RegistryCall}
    (husable : wiring.binding.Usable) (h : s.Sound)
    (hregular : call.Regular wiring s) (hwholesome : call.Wholesome s) :
    (call.after wiring s).Sound := by
  -- A call that returns no update is done when its writes are.
  have hquiet : ∀ {α : Type} {x : Calling α}, wp x (fun _ => ObjectRegistry.Sound)
      (fun _ => ObjectRegistry.Sound) s →
      ((x >>= fun _ => pure ([] : List RegistryUpdate)) s).2.Sound := by
    intro α x hx
    refine (@wp_state PyException ObjectRegistry (List RegistryUpdate) s ObjectRegistry.Sound
      _).mp ?_
    rw [wp_bind]
    exact hx
  cases call with
  | ingest k update clock => exact (ingest_sound husable hregular.2 h hwholesome).2
  | sweep moment => exact sweep_sound h
  | bind trackId objectId method confidence now => exact hquiet (bind_sound h)
  | merge source target now => exact hquiet (merge_call_sound h)
  | split objectId point now => exact hquiet (split_call_sound h hwholesome)
  | applyAttribute objectId held => exact hquiet (applyAttribute_sound h)

/-- In a run whose calls return, whose frames are digestible and which splits no merged
    object, no ingest fails and every record can be published. -/
theorem ingest_never_poisoned (wiring : RegistryWiring)
    (husable : wiring.binding.Usable)
    (calls : List RegistryCall) (hcalls : Runs.Always (after wiring)
      (fun s call => call.Regular wiring s ∧ call.Wholesome s) {} calls) :
    Runs.Always (after wiring) (Healthy wiring) {} calls := by
  have hempty : ObjectRegistry.Sound {} := fun k p hp => by cases hp
  refine Runs.always_mono_of_kept
    (fun s call hsound hcall => ObjectRegistry.Sound.after husable hsound hcall.1 hcall.2)
    (fun s call hsound hcall => ?_) hempty hcalls
  obtain ⟨hregular, hwholesome⟩ := hcall
  refine ⟨?_, fun k p hp id r hr => ?_⟩
  · rintro k update clock rfl
    exact (ingest_sound husable hregular.2 hsound hwholesome).1
  · obtain ⟨now, -, hafter⟩ := hsound.after husable hregular hwholesome k p hp
    exact (p.project_ok_iff r).mpr (hafter id r hr).toProjectable

theorem digestible_of_records
    (h : p.records.all (fun r => r.lifecycle ≠ .departed ∧
      ∀ b ∈ r.bindings, b.boundFrom.ns ≤ now.ns) = true) : Digestible update now p := by
  have hall : ∀ id r, p.recordFor id = some r → r.lifecycle ≠ .departed ∧
      ∀ b ∈ r.bindings, b.boundFrom.ns ≤ now.ns := by
    intro id r hr
    have hmem : r ∈ p.records := by
      rw [mem_records, objectId_of_recordFor hr]
      exact hr
    simpa using List.all_eq_true.mp h r hmem
  refine ⟨fun _ _ _ id r hr _ => (hall id r hr).1, fun id r hr _ hlate => ?_⟩
  obtain ⟨b, hb, -, hafter⟩ := hlate
  exact absurd ((hall id r hr).2 b hb) (not_le.mpr hafter)

/-- The person measured on the left, and then on the right. -/
def crossing : List RegistryCall :=
  [.ingest "north" leftFrame ⟨0⟩, .ingest "north" rightFrame ⟨0⟩]

/-- The person who crosses is ingested without failing. -/
theorem ingest_never_poisoned_crossing :
    Runs.Always (after (streetWiring patientPolicy))
      (Healthy (streetWiring patientPolicy)) {} crossing := by
  refine ingest_never_poisoned (streetWiring patientPolicy) (streetWiring_usable _) crossing ?_
  have hdigests : ((afterLeft patientPolicy).partitions.get? "north").all (fun p =>
      p.records.all (fun r => r.lifecycle ≠ .departed ∧
        ∀ b ∈ r.bindings, b.boundFrom.ns ≤ 2000000000)) = true := by decide +kernel
  refine ⟨⟨⟨⟨_, rfl⟩, by decide +kernel⟩, fun p hp => by cases hp⟩,
    ⟨⟨⟨_, rfl⟩, by decide +kernel⟩, fun p hp => ?_⟩, trivial⟩
  have hp' : (afterLeft patientPolicy).partitions.get? "north" = some p := hp
  rw [hp'] at hdigests
  exact digestible_of_records hdigests

/-- The person's track, predicted behind something since the first microsecond. -/
def coastingFrame (frameSeq : Nat) (now : Instant) (h : 1000 ≤ now.ns) : TrackUpdate :=
  streetFrame frameSeq (streetTrack leftBox true ⟨1000⟩ now leftBox_isWithinUnit h)

/-- A person measured once, predicted until the object has departed, and measured again. -/
def hidden : List RegistryCall :=
  [.ingest "north" leftFrame ⟨0⟩,
   .ingest "north" (coastingFrame 1 ⟨1000000000⟩ (by decide)) ⟨0⟩,
   .ingest "north" (coastingFrame 2 ⟨11000000000⟩ (by decide)) ⟨0⟩,
   .ingest "north" (coastingFrame 3 ⟨121000000000⟩ (by decide)) ⟨0⟩,
   .ingest "north" (streetFrame 4 (streetTrack leftBox false ⟨122000000000⟩ ⟨122000000000⟩
     leftBox_isWithinUnit le_rfl)) ⟨0⟩]

/-- The frame that measures the person again fails. -/
theorem hidden_person_poisons :
    Runs.Always (after (streetWiring promptPolicy))
      (RegistryCall.Regular (streetWiring promptPolicy)) {} hidden ∧
    ¬ Runs.Always (after (streetWiring promptPolicy))
      (Healthy (streetWiring promptPolicy)) {} hidden := by
  constructor
  · have hone : ∀ (update : TrackUpdate) (s : ObjectRegistry),
        (update.active.map (·.trackId)).Nodup →
        RegistryCall.Regular (streetWiring promptPolicy) s (.ingest "north" update ⟨0⟩) :=
      fun _ _ hnodup => ⟨⟨_, rfl⟩, hnodup⟩
    refine ⟨hone _ _ ?_, hone _ _ ?_, hone _ _ ?_, hone _ _ ?_, hone _ _ ?_, trivial⟩
    all_goals exact List.nodup_singleton _
  · rintro ⟨-, -, -, -, hlast, -⟩
    have hok := hlast.ingested _ _ _ rfl
    revert hok
    decide +kernel

end VisionOs.Registry
