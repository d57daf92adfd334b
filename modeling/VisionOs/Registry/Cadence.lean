/-
  How often a registry is swept.  One sweep does what an earlier one and then it do, unless a
  record's turn raises: that ends the sweep for all that come after it.
-/
import VisionOs.Registry.Ageing
import VisionOs.Registry.Departures

namespace VisionOs.Registry

open Core Lib Effect List RegistryPartition Option ObjectRecord ObjectRegistry RegistryCall

variable {wiring : RegistryWiring} {policy : LifecyclePolicy} {moment earlier : Instant}
  {r : ObjectRecord} {id : ObjectId} {w w' : Work} {p p' : RegistryPartition}
  {s s' : ObjectRegistry}

/-! ## A record's turn -/

inductive Turned (policy : LifecyclePolicy) (moment : Instant) :
    Option ObjectRecord → Option ObjectRecord → Prop
  | absent : Turned policy moment none none
  | removed {r : ObjectRecord} (hexpired : r.aged policy moment = .expired) :
      Turned policy moment (some r) none
  | stays {r : ObjectRecord} (hkept : r.aged policy moment ≠ .expired)
      (hsame : r.aged policy moment = r.lifecycle) : Turned policy moment (some r) (some r)
  | moved {r : ObjectRecord} {closed : List TrackBinding} (hlive : r.lifecycle.isTerminal = false)
      (hkept : r.aged policy moment ≠ .expired)
      (hclosed : ∀ b ∈ closed, TrackBinding.isOpen b = false) :
      Turned policy moment (some r)
        (some { r with bindings := closed, lifecycle := r.aged policy moment })

/-- A record's turn can be carried out: what moves it can close its bindings, and it can be
    published if it has expired. -/
structure ObjectRecord.Clear (policy : LifecyclePolicy) (moment : Instant) (r : ObjectRecord) :
    Prop where
  timely : r.aged policy moment ≠ r.lifecycle → ¬ r.LateFor moment
  departs : r.aged policy moment = .expired → r.Projectable

/-- Its horizons do not move the record, and it has not expired. -/
def ObjectRecord.Quiet (policy : LifecyclePolicy) (moment : Instant) (r : ObjectRecord) : Prop :=
  r.aged policy moment = r.lifecycle ∧ r.lifecycle ≠ .expired

structure TurnedAt (policy : LifecyclePolicy) (moment : Instant) (id : ObjectId) (w w' : Work) :
    Prop where
  others : ∀ k, k ≠ id → w'.partition.recordFor k = w.partition.recordFor k
  record : Turned policy moment (w.partition.recordFor id) (w'.partition.recordFor id)
  clear : ∀ r, w.partition.recordFor id = some r → r.Clear policy moment
  removed : ∀ k, k ∈ w'.removed ↔ k ∈ w.removed ∨
    k = id ∧ ∃ r, w.partition.recordFor id = some r ∧ r.aged policy moment = .expired
  silent : w'.changes = [] ∧ w'.removed = [] ↔ (w.changes = [] ∧ w.removed = []) ∧
    ∀ r, w.partition.recordFor id = some r → r.Quiet policy moment

theorem projectable_moved_iff {bindings : List TrackBinding} {state : LifecycleState}
    (hlive : r.lifecycle.isTerminal = false) (hstate : state ≠ .mergedInto) :
    ({ r with bindings, lifecycle := state } : ObjectRecord).Projectable ↔ r.Projectable := by
  have hown : r.lifecycle ≠ .mergedInto := ne_merged_of_live hlive
  constructor
  · intro h
    exact ⟨(iff_false_left hown).mpr ((iff_false_left hstate).mp h.merged), h.notSelf, h.observed,
      h.seen_le, h.confirmed_le⟩
  · intro h
    exact ⟨(iff_false_left hstate).mpr ((iff_false_left hown).mp h.merged), h.notSelf, h.observed,
      h.seen_le, h.confirmed_le⟩

theorem depart_possible (hr : w.partition.recordFor id = some r) :
    wp (depart id) (fun _ w' => Departed id w w' ∧ r.Projectable)
      (fun _ _ => ¬ r.Projectable) w := by
  have hpossible : wp (depart id) (fun _ _ => r.Projectable) (fun _ _ => True) w := by
    unfold depart
    rw [wp_bind, wp_read]
    simp only [hr]
    rw [wp_bind, wp_ofExcept]
    exact ⟨fun o ho => (w.partition.project_ok_iff r).mp ⟨o, ho⟩, fun _ _ => trivial⟩
  exact wp_mono (fun _ _ h => h) (fun _ _ h => h.1.2) (wp_and (depart_spec hr) hpossible)

theorem sweepMoved_possible {t : LifecycleTransition} (hr : w.partition.recordFor id = some r)
    (hlive : r.lifecycle.isTerminal = false) (haway : Away t.current) :
    wp (sweepMoved moment id t)
      (fun _ _ => ¬ r.LateFor moment ∧ (t.current = .expired → r.Projectable))
      (fun _ _ => True) w := by
  unfold sweepMoved
  simp only [haway.not_measurable, Bool.false_eq_true, if_false]
  rw [wp_bind, wp_attempt]
  refine ⟨fun p hp => ?_, fun _ _ => trivial⟩
  have htimely := not_lateFor_iff.mpr ((closeBindings_ok_iff hr).mp ⟨p, hp⟩)
  obtain ⟨⟨closed, -, hrecord⟩, -⟩ := closeBindings_ok hr hp
  obtain ⟨hset, -⟩ := recordFor_setLifecycle hrecord t.current
  rw [wp_bind, wp_modify]
  by_cases hexpired : t.current = .expired
  · rw [if_pos hexpired, wp_bind]
    refine wp_mono (fun _ w' h => ⟨htimely, fun _ => ?_⟩) (fun _ _ _ => trivial)
      (depart_possible hset)
    exact (projectable_moved_iff hlive haway.ne_merged).mp h.2
  · rw [if_neg hexpired]
    exact ⟨htimely, fun h => absurd h hexpired⟩

theorem TurnedAt.idle (h : ∀ r, w.partition.recordFor id = some r →
    r.Clear policy moment ∧ r.Quiet policy moment) : TurnedAt policy moment id w w where
  others := fun _ _ => rfl
  record := by
    cases hr : w.partition.recordFor id with
    | none => exact .absent
    | some r =>
      obtain ⟨-, hsame, hlive⟩ := h r hr
      exact .stays (hsame ▸ hlive) hsame
  clear := fun r hr => (h r hr).1
  removed := by
    intro k
    refine ⟨.inl, ?_⟩
    rintro (hin | ⟨-, r, hr, hexpired⟩)
    · exact hin
    · obtain ⟨-, hsame, hlive⟩ := h r hr
      exact absurd (hsame.symm.trans hexpired) hlive
  silent := ⟨fun hnone => ⟨hnone, fun r hr => (h r hr).2⟩, fun h => h.1⟩

theorem TurnedAt.departed {swept : Work} (hr : w.partition.recordFor id = some r)
    (hclear : r.Clear policy moment) (hexpired : r.aged policy moment = .expired)
    (hothers : ∀ k, k ≠ id → swept.partition.recordFor k = w.partition.recordFor k)
    (hremoved : swept.removed = w.removed) (h : Departed id swept w') :
    TurnedAt policy moment id w w' where
  others := fun k hk => (h.others k hk).trans (hothers k hk)
  record := by
    rw [hr, h.gone]
    exact .removed hexpired
  clear := by
    intro r' hr'
    rw [← some.inj (hr.symm.trans hr')]
    exact hclear
  removed := by
    intro k
    rw [h.removed, hremoved, mem_append, mem_singleton]
    refine or_congr_right ⟨fun hk => ⟨hk, r, hr, hexpired⟩, fun hk => hk.1⟩
  silent := by
    rw [h.removed]
    refine iff_of_false (fun hnone => ?_) (fun hnone => ?_)
    · exact append_ne_nil_of_right_ne_nil _ (cons_ne_nil _ _) hnone.2
    · obtain ⟨hsame, hlive⟩ := hnone.2 r hr
      exact hlive (hsame.symm.trans hexpired)

theorem TurnedAt.moved {t : LifecycleTransition} (hr : w.partition.recordFor id = some r)
    (hlive : r.lifecycle.isTerminal = false) (hclear : r.Clear policy moment)
    (hcurrent : t.current = r.aged policy moment) (hmoves : r.aged policy moment ≠ r.lifecycle) (hkept : r.aged policy moment ≠ .expired)
    (h : SweptOver id r t w w') : TurnedAt policy moment id w w' where
  others := h.others
  record := by
    obtain ⟨closed, hclosed, hrecord⟩ := h.record
    rw [hr, hrecord, hcurrent]
    exact .moved hlive hkept hclosed
  clear := by
    intro r' hr'
    rw [← some.inj (hr.symm.trans hr')]
    exact hclear
  removed := by
    intro k
    rw [h.removed]
    refine ⟨.inl, ?_⟩
    rintro (hin | ⟨-, r', hr', hexpired⟩)
    · exact hin
    · rw [← some.inj (hr.symm.trans hr')] at hexpired
      exact absurd hexpired hkept
  silent := by
    rw [h.changes]
    refine iff_of_false (fun hnone => ?_) (fun hnone => hmoves (hnone.2 r hr).1)
    exact append_ne_nil_of_right_ne_nil _ (cons_ne_nil _ _) hnone.1

theorem sweepRecord_turned :
    wp (sweepRecord wiring moment id) (fun _ w' => TurnedAt wiring.lifecycle moment id w w')
      (fun _ _ => ∃ r, w.partition.recordFor id = some r ∧ ¬ r.Clear wiring.lifecycle moment) w := by
  unfold sweepRecord
  rw [wp_bind, wp_read]
  cases hr : w.partition.recordFor id with
  | none => exact .idle fun r hr' => by cases hr.symm.trans hr'
  | some r =>
    by_cases hterminal : r.lifecycle.isTerminal = true
    · have haged := @aged_of_terminal wiring.lifecycle r moment hterminal
      simp only [hterminal, if_true]
      by_cases hexpired : r.lifecycle = .expired
      · simp only [hexpired, if_true]
        refine wp_mono (fun _ w' h => ?_) (fun _ w' h => ?_) (depart_possible hr)
        · exact .departed hr ⟨fun hmoves => absurd haged hmoves, fun _ => h.2⟩
            (haged.trans hexpired) (fun _ _ => rfl) rfl h.1
        · exact ⟨r, rfl, fun hclear => h (hclear.departs (haged.trans hexpired))⟩
      · simp only [hexpired, if_false]
        refine .idle fun r' hr' => ?_
        rw [← some.inj (hr.symm.trans hr')]
        refine ⟨⟨fun hmoves => absurd haged hmoves, fun h => ?_⟩, haged, hexpired⟩
        exact absurd (haged.symm.trans h) hexpired
    · have hlive : r.lifecycle.isTerminal = false := by simpa using hterminal
      simp only [hlive, Bool.false_eq_true, if_false]
      rw [wp_bind]
      rcases driveHorizons_aged wiring.lifecycle r moment with
        ⟨hsame, hnone⟩ | ⟨hmoves, t, ht, hcurrent⟩
      · rw [wp_ofExcept_ok hnone]
        have hkept : r.lifecycle ≠ .expired := by
          intro hexpired
          rw [hexpired] at hlive
          cases hlive
        refine .idle fun r' hr' => ?_
        rw [← some.inj (hr.symm.trans hr')]
        exact ⟨⟨fun hmoves => absurd hsame hmoves,
          fun h => absurd (hsame.symm.trans h) hkept⟩, hsame, hkept⟩
      · rw [wp_ofExcept_ok ht]
        have haway := away_of_driveHorizons ht
        refine wp_mono (fun _ w' h => ?_) (fun _ w' h => ?_)
          (wp_and (sweepMoved_spec hr haway) (sweepMoved_possible hr hlive haway))
        · obtain ⟨⟨swept, hswept, hend⟩, htimely, hdeparts⟩ := h
          have hclear : r.Clear wiring.lifecycle moment :=
            ⟨fun _ => htimely, fun h => hdeparts (hcurrent.trans h)⟩
          rcases hend with ⟨hkept, rfl⟩ | ⟨hexpired, hgone⟩
          · exact .moved hr hlive hclear hcurrent hmoves (hcurrent ▸ hkept) hswept
          · exact .departed hr hclear (hcurrent ▸ hexpired) hswept.others hswept.removed hgone
        · refine ⟨r, rfl, fun hclear => ?_⟩
          rcases h.1 with ⟨-, hlate⟩ | ⟨hexpired, -, hno⟩
          · exact hclear.timely hmoves hlate
          · refine hno ((@projectable_moved_iff r r.bindings _ hlive haway.ne_merged).mpr ?_)
            exact hclear.departs (hcurrent ▸ hexpired)

/-! ## A pass over a camera -/

structure Passing (policy : LifecyclePolicy) (moment : Instant) (p : RegistryPartition)
    (rest : List ObjectId) (w : Work) : Prop where
  coming : ∀ id ∈ rest, w.partition.recordFor id = p.recordFor id
  passed : ∀ id, id ∉ rest → Turned policy moment (p.recordFor id) (w.partition.recordFor id)
  clear : ∀ id, id ∉ rest → ∀ r, p.recordFor id = some r → r.Clear policy moment
  removed : ∀ id, id ∈ w.removed ↔ id ∉ rest ∧
    ∃ r, p.recordFor id = some r ∧ r.aged policy moment = .expired
  silent : w.changes = [] ∧ w.removed = [] ↔
    ∀ id, id ∉ rest → ∀ r, p.recordFor id = some r → r.Quiet policy moment

theorem Passing.start (policy : LifecyclePolicy) (moment : Instant) (s : ObjectRegistry)
    (k : CameraId) (p : RegistryPartition) : Passing policy moment p p.ids (s.work k p) := by
  have hnone : ∀ id, id ∉ p.ids → p.recordFor id = none := by
    intro id hid
    by_contra hsome
    exact hid (mem_ids.mpr (ne_none_iff_exists'.mp hsome))
  have hnobody : ∀ id, id ∉ p.ids → ∀ r, p.recordFor id ≠ some r := by
    intro id hid r hr
    cases (hnone id hid).symm.trans hr
  refine ⟨fun _ _ => rfl, fun id hid => ?_, fun id hid r hr => absurd hr (hnobody id hid r),
    fun id => ?_, fun _ id hid r hr => absurd hr (hnobody id hid r), fun _ => ⟨rfl, rfl⟩⟩
  · show Turned policy moment (p.recordFor id) (p.recordFor id)
    rw [hnone id hid]
    exact .absent
  · refine iff_of_false not_mem_nil ?_
    rintro ⟨hid, r, hr, -⟩
    exact hnobody id hid r hr

theorem Passing.turn {rest : List ObjectId} (h : Passing policy moment p (id :: rest) w)
    (hid : id ∉ rest) (hturn : TurnedAt policy moment id w w') :
    Passing policy moment p rest w' := by
  have hbefore : w.partition.recordFor id = p.recordFor id := h.coming id mem_cons_self
  have hmem : ∀ k, k ∉ rest ↔ k ∉ id :: rest ∨ k = id := by
    intro k
    rw [mem_cons]
    by_cases hk : k = id
    · exact iff_of_true (hk ▸ hid) (.inr hk)
    · simp [hk]
  constructor
  · intro k hk
    rw [hturn.others k fun hsame => hid (hsame ▸ hk)]
    exact h.coming k (mem_cons_of_mem _ hk)
  · intro k hk
    by_cases hsame : k = id
    · subst hsame
      rw [← hbefore]
      exact hturn.record
    · rw [hturn.others k hsame]
      exact h.passed k (by simpa [hsame] using hk)
  · intro k hk r hr
    rcases (hmem k).mp hk with hpast | rfl
    · exact h.clear k hpast r hr
    · exact hturn.clear r (hbefore.trans hr)
  · intro k
    rw [hturn.removed, h.removed, hmem, or_and_right, hbefore]
    refine or_congr_right (and_congr_right ?_)
    rintro rfl
    rfl
  · rw [hturn.silent, h.silent, hbefore]
    constructor
    · rintro ⟨hpast, hnow⟩ k hk r hr
      rcases (hmem k).mp hk with hk | rfl
      · exact hpast k hk r hr
      · exact hnow r hr
    · intro hall
      exact ⟨fun k hk => hall k ((hmem k).mpr (.inl hk)),
        hall id ((hmem id).mpr (.inr rfl))⟩

theorem pass_spec (s : ObjectRegistry) (k : CameraId) (p : RegistryPartition) :
    wp (forEach (sweepRecord wiring moment) p.ids)
      (fun _ w' => Passing wiring.lifecycle moment p [] w')
      (fun _ _ => ∃ id r, p.recordFor id = some r ∧ ¬ r.Clear wiring.lifecycle moment)
      (s.work k p) := by
  refine wp_mono (fun _ _ h => h.2) (fun _ _ h => h)
    (@wp_forEach _ Work _ _ (s.work k p)
      (fun rest w => rest.Nodup ∧ Passing wiring.lifecycle moment p rest w) _ _ ?_
      ⟨p.nodup_ids, Passing.start _ _ _ _ _⟩)
  rintro id rest - w ⟨hnodup, hpassing⟩
  obtain ⟨hid, hrest⟩ := nodup_cons.mp hnodup
  refine wp_mono (fun _ w' hturn => ⟨hrest, hpassing.turn hid hturn⟩) (fun _ _ hraised => ?_)
    sweepRecord_turned
  obtain ⟨r, hr, hno⟩ := hraised
  exact ⟨id, r, (hpassing.coming id mem_cons_self).symm.trans hr, hno⟩

/-! ## A camera -/

/-- A camera can be swept: every record's turn can be carried out, and if the sweep has
    something to say of a camera that delivered a frame, all its records can be published. -/
structure Unhindered (policy : LifecyclePolicy) (moment : Instant) (s : ObjectRegistry)
    (k : CameraId) (p : RegistryPartition) : Prop where
  clear : ∀ id r, p.recordFor id = some r → r.Clear policy moment
  publishes : (s.lastFrame.get? k).isSome →
    (∃ id r, p.recordFor id = some r ∧ ¬ r.Quiet policy moment) →
      ∀ id r, p.recordFor id = some r → r.Projectable

theorem ObjectRecord.aged_ne_merged (hlive : r.lifecycle.isTerminal = false) :
    r.aged policy moment ≠ .mergedInto := by
  rcases driveHorizons_aged policy r moment with ⟨hsame, -⟩ | ⟨-, t, ht, hcurrent⟩
  · rw [hsame]
    exact ne_merged_of_live hlive
  · rw [← hcurrent]
    exact (away_of_driveHorizons ht).ne_merged

variable {r' : ObjectRecord}

theorem Turned.projectable {before after : Option ObjectRecord}
    (h : Turned policy moment before after) (hafter : after = some r') :
    ∃ r, before = some r ∧ (r'.Projectable ↔ r.Projectable) := by
  cases h with
  | absent => cases hafter
  | removed => cases hafter
  | stays hkept hsame => exact ⟨_, rfl, by rw [← some.inj hafter]⟩
  | @moved r closed hlive hkept hclosed =>
    refine ⟨r, rfl, ?_⟩
    rw [← some.inj hafter]
    exact projectable_moved_iff hlive (aged_ne_merged hlive)

theorem Passing.objects_ok_iff (h : Passing policy moment p [] w) :
    (∃ objects, w.partition.objects = .ok objects) ↔
      ∀ id r, p.recordFor id = some r → r.Projectable := by
  have hturned : ∀ id, Turned policy moment (p.recordFor id) (w.partition.recordFor id) :=
    fun id => h.passed id not_mem_nil
  constructor
  · rintro ⟨objects, hobjects⟩ id r hr
    have hlisted : ∀ r', w.partition.recordFor id = some r' → r'.Projectable := by
      intro r' hr'
      have hmem : r' ∈ w.partition.records := by
        rw [mem_records, objectId_of_recordFor hr']
        exact hr'
      obtain ⟨o, -, ho⟩ := (mapM_ok hobjects).1 r' hmem
      exact (w.partition.project_ok_iff r').mp ⟨o, ho⟩
    cases hafter : w.partition.recordFor id with
    | none =>
      have hgone := hturned id
      rw [hr, hafter] at hgone
      cases hgone with
      | removed hexpired => exact (h.clear id not_mem_nil r hr).departs hexpired
    | some r' =>
      obtain ⟨r₀, hr₀, hsame⟩ := (hturned id).projectable hafter
      rw [hr] at hr₀
      rw [some.inj hr₀]
      exact hsame.mp (hlisted r' hafter)
  · intro hall
    refine objects_ok fun id r' hr' => ?_
    obtain ⟨r, hr, hsame⟩ := (hturned id).projectable hr'
    exact hsame.mpr (hall id r hr)

def expiredIds (updates : List RegistryUpdate) : List ObjectId := updates.flatMap (·.expired)

structure CameraAged (policy : LifecyclePolicy) (moment : Instant) (s : ObjectRegistry)
    (k : CameraId) (p : RegistryPartition) (updates : List RegistryUpdate) (s' : ObjectRegistry) :
    Prop where
  unhindered : Unhindered policy moment s k p
  turned : ∃ p', s'.partitions.get? k = some p' ∧
    ∀ id, Turned policy moment (p.recordFor id) (p'.recordFor id)
  others : ∀ k', k ≠ k' → s'.partitions.get? k' = s.partitions.get? k'
  frames : s'.lastFrame = s.lastFrame
  reported : ∀ id, id ∈ expiredIds updates ↔ (s.lastFrame.get? k).isSome ∧
    ∃ r, p.recordFor id = some r ∧ r.aged policy moment = .expired

variable {k : CameraId} {updates : List RegistryUpdate}

theorem CameraAged.of_passing
    (h : Passing policy moment p [] w) (hunhindered : Unhindered policy moment s k p)
    (hreported : ∀ id, id ∈ expiredIds updates ↔ (s.lastFrame.get? k).isSome ∧ id ∈ w.removed) :
    CameraAged policy moment s k p updates (s.keep k w) where
  unhindered := hunhindered
  turned := ⟨w.partition, (partitions_keep ..).trans (if_pos rfl),
    fun id => h.passed id not_mem_nil⟩
  others := fun k' hk => (partitions_keep ..).trans (if_neg hk)
  frames := rfl
  reported := by
    intro id
    rw [hreported, h.removed]
    simp

theorem sweepCamera_aged (hp : s.partitions.get? k = some p) : wp (sweepCamera wiring moment k)
      (fun updates s' => CameraAged wiring.lifecycle moment s k p updates s')
      (fun _ _ => ¬ Unhindered wiring.lifecycle moment s k p) s := by
  unfold sweepCamera
  rw [wp_bind, wp_read]
  simp only [hp]
  rw [wp_bind, wp_within]
  refine wp_mono (fun _ w hpass => ?_) (fun _ _ hraised hunhindered => ?_) (pass_spec s k p)
  · have hclear : ∀ id r, p.recordFor id = some r → r.Clear wiring.lifecycle moment :=
      fun id r hr => hpass.clear id not_mem_nil r hr
    split
    · rename_i hquiet
      rw [List.isEmpty_iff, List.isEmpty_iff, hpass.silent] at hquiet
      have hnone : w.removed = [] := (hpass.silent.mpr hquiet).2
      refine .of_passing hpass ⟨hclear, fun _ hsays => ?_⟩ fun id => ?_
      · obtain ⟨id, r, hr, hno⟩ := hsays
        exact absurd (hquiet id not_mem_nil r hr) hno
      · rw [hnone]
        simp [expiredIds]
    · rename_i hsays
      cases hframe : s.lastFrame.get? k with
      | none =>
        refine .of_passing hpass ⟨hclear, fun hsome => ?_⟩ fun id => ?_
        · rw [hframe] at hsome
          cases hsome
        · rw [hframe]
          simp [expiredIds]
      | some frameRef =>
        rw [wp_bind, wp_ofExcept]
        refine ⟨fun objects hobjects => ?_, fun exc hexc hunhindered => ?_⟩
        · refine .of_passing hpass
            ⟨hclear, fun _ _ => hpass.objects_ok_iff.mp ⟨objects, hobjects⟩⟩ fun id => ?_
          rw [hframe]
          simp [expiredIds]
        · have hsomething : ∃ id r, p.recordFor id = some r ∧
              ¬ r.Quiet wiring.lifecycle moment := by
            rw [List.isEmpty_iff, List.isEmpty_iff, hpass.silent] at hsays
            by_contra hno
            refine hsays fun id _ r hr => ?_
            by_contra hloud
            exact hno ⟨id, r, hr, hloud⟩
          obtain ⟨objects, hobjects⟩ := hpass.objects_ok_iff.mpr
            (hunhindered.publishes (by rw [hframe]; rfl) hsomething)
          cases hexc.symm.trans hobjects
  · obtain ⟨id, r, hr, hno⟩ := hraised
    exact hno (hunhindered.clear id r hr)

/-! ## A sweep -/

namespace ObjectRegistry

def recordOf (s : ObjectRegistry) (k : CameraId) (id : ObjectId) : Option ObjectRecord :=
  (s.partitions.get? k).bind (·.recordFor id)

/-- The lifecycle state of an object that a camera holds. -/
def stateOf (s : ObjectRegistry) (k : CameraId) (id : ObjectId) : Option LifecycleState :=
  (s.recordOf k id).map (·.lifecycle)

end ObjectRegistry

def AllUnhindered (policy : LifecyclePolicy) (moment : Instant) (s : ObjectRegistry)
    (cameras : List CameraId) : Prop :=
  ∀ k ∈ cameras, ∀ p, s.partitions.get? k = some p → Unhindered policy moment s k p

structure CamerasAged (policy : LifecyclePolicy) (moment : Instant) (s : ObjectRegistry)
    (cameras : List CameraId) (updates : List RegistryUpdate) (s' : ObjectRegistry) : Prop where
  unhindered : AllUnhindered policy moment s cameras
  turned : ∀ k ∈ cameras, ∀ id, Turned policy moment (s.recordOf k id) (s'.recordOf k id)
  known : ∀ k ∈ cameras, s.partitions.get? k = none → s'.partitions.get? k = none
  others : ∀ k, k ∉ cameras → s'.partitions.get? k = s.partitions.get? k
  frames : s'.lastFrame = s.lastFrame
  reported : ∀ id, id ∈ expiredIds updates ↔ ∃ k ∈ cameras, (s.lastFrame.get? k).isSome ∧
    ∃ r, s.recordOf k id = some r ∧ r.aged policy moment = .expired

section Cameras

variable {k : CameraId} {cameras : List CameraId} {updates later : List RegistryUpdate}
  {s'' : ObjectRegistry}

theorem Unhindered.congr (hframes : s'.lastFrame = s.lastFrame)
    (h : Unhindered policy moment s k p) : Unhindered policy moment s' k p := by
  refine ⟨h.clear, fun hframe => h.publishes ?_⟩
  rw [← hframes]
  exact hframe

theorem AllUnhindered.congr (hframes : s'.lastFrame = s.lastFrame)
    (hsame : ∀ k ∈ cameras, s'.partitions.get? k = s.partitions.get? k)
    (h : AllUnhindered policy moment s cameras) : AllUnhindered policy moment s' cameras := by
  intro k hk p hp
  rw [hsame k hk] at hp
  exact (h k hk p hp).congr hframes

theorem recordOf_congr (h : s'.partitions.get? k = s.partitions.get? k) (id : ObjectId) :
    s'.recordOf k id = s.recordOf k id := by
  unfold recordOf
  rw [h]

theorem recordOf_eq (hp : s.partitions.get? k = some p) (id : ObjectId) :
    s.recordOf k id = p.recordFor id := by
  unfold recordOf
  rw [hp]
  rfl

theorem expiredIds_append :
    expiredIds (updates ++ later) = expiredIds updates ++ expiredIds later :=
  flatMap_append

theorem CamerasAged.nil (policy : LifecyclePolicy) (moment : Instant) (s : ObjectRegistry) :
    CamerasAged policy moment s [] [] s :=
  ⟨fun _ hk => absurd hk not_mem_nil, fun _ hk => absurd hk not_mem_nil,
    fun _ hk => absurd hk not_mem_nil, fun _ _ => rfl, rfl, fun id => by simp [expiredIds]⟩

theorem CamerasAged.skip (hp : s.partitions.get? k = none) :
    CamerasAged policy moment s [k] [] s := by
  have hnone : ∀ id, s.recordOf k id = none := by
    intro id
    unfold recordOf
    rw [hp]
    rfl
  refine ⟨fun k' hk' p hp' => ?_, fun k' hk' id => ?_, fun _ _ h => h, fun _ _ => rfl, rfl,
    fun id => ?_⟩
  · rw [mem_singleton.mp hk', hp] at hp'
    cases hp'
  · rw [mem_singleton.mp hk', hnone id]
    exact .absent
  · simp [expiredIds, hnone]

theorem CamerasAged.one (hp : s.partitions.get? k = some p)
    (h : CameraAged policy moment s k p updates s') :
    CamerasAged policy moment s [k] updates s' := by
  obtain ⟨p', hp', hturned⟩ := h.turned
  refine ⟨fun k' hk' q hq => ?_, fun k' hk' id => ?_, fun k' hk' hnone => ?_, fun k' hk' => ?_,
    h.frames, fun id => ?_⟩
  · obtain rfl := mem_singleton.mp hk'
    obtain rfl : p = q := some.inj (hp.symm.trans hq)
    exact h.unhindered
  · obtain rfl := mem_singleton.mp hk'
    rw [recordOf_eq hp, recordOf_eq hp']
    exact hturned id
  · obtain rfl := mem_singleton.mp hk'
    cases hp.symm.trans hnone
  · exact h.others k' fun hsame => hk' (mem_singleton.mpr hsame.symm)
  · rw [h.reported, ← recordOf_eq hp]
    simp

theorem CamerasAged.cons (hk : k ∉ cameras) (h : CamerasAged policy moment s [k] updates s')
    (hrest : CamerasAged policy moment s' cameras later s'') :
    CamerasAged policy moment s (k :: cameras) (updates ++ later) s'' := by
  have hbefore : ∀ k' ∈ cameras, s'.partitions.get? k' = s.partitions.get? k' := by
    intro k' hk'
    refine h.others k' fun hsame => hk ?_
    rw [← mem_singleton.mp hsame]
    exact hk'
  have hafter : s''.partitions.get? k = s'.partitions.get? k := hrest.others k hk
  refine ⟨fun k' hk' => ?_, fun k' hk' id => ?_, fun k' hk' hnone => ?_, fun k' hk' => ?_,
    hrest.frames.trans h.frames, fun id => ?_⟩
  · rcases mem_cons.mp hk' with rfl | hk'
    · exact h.unhindered k' (mem_singleton_self _)
    · exact hrest.unhindered.congr h.frames.symm (fun k hk => (hbefore k hk).symm) k' hk'
  · rcases mem_cons.mp hk' with rfl | hk'
    · rw [recordOf_congr hafter]
      exact h.turned k' (mem_singleton_self _) id
    · rw [← recordOf_congr (hbefore k' hk')]
      exact hrest.turned k' hk' id
  · rcases mem_cons.mp hk' with rfl | hk'
    · rw [hafter]
      exact h.known k' (mem_singleton_self _) hnone
    · exact hrest.known k' hk' ((hbefore k' hk').trans hnone)
  · rw [mem_cons, not_or] at hk'
    obtain ⟨hne, hk'⟩ := hk'
    exact (hrest.others k' hk').trans (h.others k' fun hsame => hne (mem_singleton.mp hsame))
  · rw [expiredIds_append, mem_append, h.reported, hrest.reported, h.frames]
    constructor
    · rintro (⟨k', hk', hsays⟩ | ⟨k', hk', hframe, r, hr, hexpired⟩)
      · exact ⟨k', mem_cons.mpr (.inl (mem_singleton.mp hk')), hsays⟩
      · refine ⟨k', mem_cons_of_mem _ hk', hframe, r, ?_, hexpired⟩
        exact (recordOf_congr (hbefore k' hk') id).symm.trans hr
    · rintro ⟨k', hk', hframe, r, hr, hexpired⟩
      rcases mem_cons.mp hk' with rfl | hk'
      · exact .inl ⟨k', mem_singleton_self _, hframe, r, hr, hexpired⟩
      · refine .inr ⟨k', hk', hframe, r, ?_, hexpired⟩
        exact (recordOf_congr (hbefore k' hk') id).trans hr

theorem sweepCameras_aged (hnodup : cameras.Nodup) :
    wp (sweepCameras wiring moment cameras)
      (fun updates s' => CamerasAged wiring.lifecycle moment s cameras updates s')
      (fun _ _ => ¬ AllUnhindered wiring.lifecycle moment s cameras) s := by
  induction cameras generalizing s with
  | nil => exact .nil _ _ _
  | cons k rest ih =>
    obtain ⟨hk, hrest⟩ := nodup_cons.mp hnodup
    have hone : wp (sweepCamera wiring moment k)
        (fun updates s' => CamerasAged wiring.lifecycle moment s [k] updates s')
        (fun _ _ => ¬ AllUnhindered wiring.lifecycle moment s (k :: rest)) s := by
      cases hp : s.partitions.get? k with
      | none =>
        unfold sweepCamera
        rw [wp_bind, wp_read]
        simp only [hp]
        exact .skip hp
      | some p =>
        refine wp_mono (fun _ _ h => .one hp h) (fun _ _ hno hall => ?_) (sweepCamera_aged hp)
        exact hno (hall k mem_cons_self p hp)
    unfold sweepCameras
    rw [wp_bind]
    refine wp_mono (fun updates s' h => ?_) (fun _ _ hno => hno) hone
    rw [wp_bind]
    refine wp_mono (fun later s'' h' => .cons hk h h') (fun _ _ hno hall => ?_) (ih hrest)
    refine hno (AllUnhindered.congr h.frames (fun k' hk' => ?_)
      fun k' hk' => hall k' (mem_cons_of_mem _ hk'))
    refine h.others k' fun hsame => hk ?_
    rw [← mem_singleton.mp hsame]
    exact hk'

theorem sweep_aged (s : ObjectRegistry) :
    wp (sweep wiring moment)
      (fun updates s' => CamerasAged wiring.lifecycle moment s s.cameras updates s')
      (fun _ _ => ¬ AllUnhindered wiring.lifecycle moment s s.cameras) s := by
  unfold sweep
  rw [wp_bind, wp_read]
  exact sweepCameras_aged s.nodup_cameras

end Cameras

/-! ## Two sweeps -/

theorem Turned.aged {before after : Option ObjectRecord} (h : Turned policy earlier before after)
    (hle : earlier.ns ≤ moment.ns) (hafter : after = some r') :
    ∃ r, before = some r ∧ r.aged policy earlier ≠ .expired ∧
      r'.lifecycle = r.aged policy earlier ∧ r'.aged policy moment = r.aged policy moment := by
  cases h with
  | absent => cases hafter
  | removed => cases hafter
  | @stays r hkept hsame =>
    obtain rfl := some.inj hafter
    exact ⟨r, rfl, hkept, hsame.symm, rfl⟩
  | @moved r closed hlive hkept hclosed =>
    obtain rfl := some.inj hafter
    exact ⟨r, rfl, hkept, rfl, aged_aged hle rfl rfl⟩

def ObjectRecord.fate (policy : LifecyclePolicy) (moment : Instant) (r : ObjectRecord) :
    Option LifecycleState :=
  if r.aged policy moment = .expired then none else some (r.aged policy moment)

theorem Turned.state {before after : Option ObjectRecord} (h : Turned policy moment before after) :
    after.map (·.lifecycle) = before.bind (fate policy moment) := by
  unfold fate
  cases h with
  | absent => rfl
  | removed hexpired => simp [hexpired]
  | stays hkept hsame =>
    rw [bind_some, if_neg hkept, hsame]
    rfl
  | moved hlive hkept hclosed =>
    rw [bind_some, if_neg hkept]
    rfl

theorem Turned.fate {before after : Option ObjectRecord} (h : Turned policy earlier before after)
    (hle : earlier.ns ≤ moment.ns) :
    after.bind (fate policy moment) = before.bind (fate policy moment) := by
  cases hafter : after with
  | none =>
    rw [hafter] at h
    cases h with
    | absent => rfl
    | removed hexpired =>
      rw [bind_none, bind_some, ObjectRecord.fate,
        if_pos (aged_expired hle hexpired)]
  | some r' =>
    obtain ⟨r, rfl, -, -, hsame⟩ := h.aged hle hafter
    rw [bind_some, bind_some, ObjectRecord.fate, ObjectRecord.fate, hsame]

theorem mem_cameras : k ∈ s.cameras ↔ ∃ p, s.partitions.get? k = some p := by
  unfold cameras
  rw [mem_insertionSort, ← not_iff_not, ← OrderedDict.get?_eq_none_iff]
  simp [eq_none_iff_forall_ne_some]

theorem mem_cameras_of_recordOf (h : s.recordOf k id = some r) : k ∈ s.cameras := by
  obtain ⟨p, hp, -⟩ := bind_eq_some_iff.mp h
  exact mem_cameras.mpr ⟨p, hp⟩

section Sweeps

variable {k : CameraId} {updates : List RegistryUpdate}

theorem CamerasAged.turned_all (h : CamerasAged policy moment s s.cameras updates s')
    (k : CameraId) (id : ObjectId) :
    Turned policy moment (s.recordOf k id) (s'.recordOf k id) := by
  by_cases hk : k ∈ s.cameras
  · exact h.turned k hk id
  · rw [recordOf_congr (h.others k hk)]
    cases hr : s.recordOf k id with
    | none => exact .absent
    | some r => exact absurd (mem_cameras_of_recordOf hr) hk

theorem CamerasAged.camera_before (h : CamerasAged policy moment s s.cameras updates s')
    (hp' : s'.partitions.get? k = some p') :
    ∃ p, s.partitions.get? k = some p ∧
      ∀ id, Turned policy moment (p.recordFor id) (p'.recordFor id) := by
  cases hp : s.partitions.get? k with
  | none =>
    have hk : k ∉ s.cameras := by
      rw [mem_cameras]
      simp [hp]
    cases (hp.symm.trans (h.others k hk).symm).trans hp'
  | some p =>
    refine ⟨p, rfl, fun id => ?_⟩
    rw [← recordOf_eq hp, ← recordOf_eq hp']
    exact h.turned_all k id

theorem CamerasAged.unhindered_later (h : CamerasAged policy earlier s s.cameras updates s')
    (hle : earlier.ns ≤ moment.ns) (hlater : AllUnhindered policy moment s s.cameras) :
    AllUnhindered policy moment s' s'.cameras := by
  intro k _ p' hp'
  obtain ⟨p, hp, hturned⟩ := h.camera_before hp'
  have hcamera := hlater k (mem_cameras.mpr ⟨p, hp⟩) p hp
  constructor
  · intro id r' hr'
    have hturn := hturned id
    obtain ⟨r₀, hr₀, hsame⟩ := hturn.projectable hr'
    have hdeparts : r'.aged policy moment = .expired → r'.Projectable := by
      intro hexpired
      obtain ⟨r, hr, -, -, haged⟩ := hturn.aged hle hr'
      obtain rfl := some.inj (hr.symm.trans hr₀)
      exact hsame.mpr ((hcamera.clear id r hr).departs (haged ▸ hexpired))
    refine ⟨fun hmoves => ?_, hdeparts⟩
    rw [hr₀, hr'] at hturn
    cases hturn with
    | stays => exact (hcamera.clear id r' hr₀).timely hmoves
    | moved hlive hkept hclosed =>
      rintro ⟨b, hb, hopen, -⟩
      cases (hclosed b hb).symm.trans hopen
  · rintro hframe ⟨id, r', hr', hloud⟩ id₁ r₁' hr₁'
    obtain ⟨r, hr, hkept, hstate, haged⟩ := (hturned id).aged hle hr'
    have hsays : ¬ r.Quiet policy moment := by
      rintro ⟨hstays, hlive⟩
      have hbefore := aged_eq_of_later hle hstays
      refine hloud ⟨?_, hstate ▸ hkept⟩
      rw [haged, hstays, hstate, hbefore]
    rw [h.frames] at hframe
    have hall := hcamera.publishes hframe ⟨id, r, hr, hsays⟩
    obtain ⟨r₁, hr₁, hsame⟩ := (hturned id₁).projectable hr₁'
    exact hsame.mpr (hall id₁ r₁ hr₁)

variable {s₁ s₂ : ObjectRegistry} {only : List RegistryUpdate}

theorem CamerasAged.stateOf_eq {first second : List RegistryUpdate}
    (hle : earlier.ns ≤ moment.ns) (hfirst : CamerasAged policy earlier s s.cameras first s₁)
    (hsecond : CamerasAged policy moment s₁ s₁.cameras second s₂)
    (honly : CamerasAged policy moment s s.cameras only s') (k : CameraId) (id : ObjectId) :
    s₂.stateOf k id = s'.stateOf k id :=
  calc s₂.stateOf k id
      = (s₁.recordOf k id).bind (fate policy moment) :=
        (hsecond.turned_all k id).state
    _ = (s.recordOf k id).bind (fate policy moment) :=
        (hfirst.turned_all k id).fate hle
    _ = s'.stateOf k id := (honly.turned_all k id).state.symm

theorem CamerasAged.expired_iff {first second : List RegistryUpdate}
    (hle : earlier.ns ≤ moment.ns) (hfirst : CamerasAged policy earlier s s.cameras first s₁)
    (hsecond : CamerasAged policy moment s₁ s₁.cameras second s₂)
    (honly : CamerasAged policy moment s s.cameras only s') (id : ObjectId) :
    id ∈ expiredIds first ∨ id ∈ expiredIds second ↔ id ∈ expiredIds only := by
  rw [hfirst.reported, hsecond.reported, honly.reported, hfirst.frames]
  constructor
  · rintro (⟨k, hk, hframe, r, hr, hexpired⟩ | ⟨k, -, hframe, r', hr', hexpired⟩)
    · exact ⟨k, hk, hframe, r, hr, aged_expired hle hexpired⟩
    · obtain ⟨r, hr, -, -, haged⟩ := (hfirst.turned_all k id).aged hle hr'
      exact ⟨k, mem_cameras_of_recordOf hr, hframe, r, hr, haged.symm.trans hexpired⟩
  · rintro ⟨k, hk, hframe, r, hr, hexpired⟩
    cases hr' : s₁.recordOf k id with
    | none =>
      have hturned := hfirst.turned_all k id
      rw [hr, hr'] at hturned
      cases hturned with
      | removed hbefore => exact .inl ⟨k, hk, hframe, r, hr, hbefore⟩
    | some r' =>
      obtain ⟨r₀, hr₀, -, -, haged⟩ := (hfirst.turned_all k id).aged hle hr'
      obtain rfl := some.inj (hr.symm.trans hr₀)
      exact .inr ⟨k, mem_cameras_of_recordOf hr', hframe, r', hr', haged.trans hexpired⟩

end Sweeps

/-- Two sweeps return, and leave the objects and remove the ids that the second one alone
    does. -/
def SweepsAgree (wiring : RegistryWiring) (s : ObjectRegistry) (earlier moment : Instant) : Prop :=
  ∃ first s₁ second s₂ only s', sweep wiring earlier s = (.ok first, s₁) ∧
    sweep wiring moment s₁ = (.ok second, s₂) ∧ sweep wiring moment s = (.ok only, s') ∧
    (∀ k id, s₂.stateOf k id = s'.stateOf k id) ∧
    ∀ id, id ∈ expiredIds first ∨ id ∈ expiredIds second ↔ id ∈ expiredIds only

theorem CamerasAged.of_returned (h : sweep wiring moment s = (.ok updates, s')) :
    CamerasAged wiring.lifecycle moment s s.cameras updates s' := by
  have hspec := (wp_iff.mp (@sweep_aged wiring moment s)).1 updates (by rw [h])
  rw [h] at hspec
  exact hspec

theorem sweep_returns (h : AllUnhindered wiring.lifecycle moment s s.cameras) :
    ∃ updates s', sweep wiring moment s = (.ok updates, s') := by
  rcases hsweep : sweep wiring moment s with ⟨result, s'⟩
  cases result with
  | ok updates => exact ⟨updates, s', rfl⟩
  | error exc =>
    have hspec := (wp_iff.mp (@sweep_aged wiring moment s)).2 exc (by rw [hsweep])
    exact absurd h hspec

/-- From every state of a registry, two sweeps do what the second one alone does if and only
    if nothing hinders a sweep of it at either moment: what a sweep moves is bound to nothing
    from later on, and what it has to publish can be published. -/
theorem sweeps_agree_iff (wiring : RegistryWiring) (s : ObjectRegistry) (earlier moment : Instant)
    (hle : earlier.ns ≤ moment.ns) :
    SweepsAgree wiring s earlier moment ↔
      ∀ k p, s.partitions.get? k = some p →
        Unhindered wiring.lifecycle earlier s k p ∧ Unhindered wiring.lifecycle moment s k p := by
  constructor
  · rintro ⟨first, s₁, second, s₂, only, s', hfirst, -, honly, -, -⟩ k p hp
    have hk : k ∈ s.cameras := mem_cameras.mpr ⟨p, hp⟩
    exact ⟨(CamerasAged.of_returned hfirst).unhindered k hk p hp,
      (CamerasAged.of_returned honly).unhindered k hk p hp⟩
  · intro h
    obtain ⟨first, s₁, hfirst⟩ := sweep_returns fun k _ p hp => (h k p hp).1
    obtain ⟨only, s', honly⟩ := sweep_returns fun k _ p hp => (h k p hp).2
    have hfirst' := CamerasAged.of_returned hfirst
    have honly' := CamerasAged.of_returned honly
    obtain ⟨second, s₂, hsecond⟩ :=
      sweep_returns (hfirst'.unhindered_later hle honly'.unhindered)
    have hsecond' := CamerasAged.of_returned hsecond
    exact ⟨first, s₁, second, s₂, only, s', hfirst, hsecond, honly,
      hfirst'.stateOf_eq hle hsecond' honly', hfirst'.expired_iff hle hsecond' honly'⟩

theorem unhindered_of_records {k : CameraId} (hle : earlier.ns ≤ moment.ns)
    (h : p.records.all (fun r =>
      r.bindings.all (fun b => b.boundFrom.ns ≤ earlier.ns) && r.lifecycle != .mergedInto &&
        r.mergedInto.isNone && decide (0 ≤ r.observationCount ∧ r.firstSeen.ns ≤ r.lastSeen.ns ∧
          r.lastConfirmed.ns ≤ r.lastSeen.ns)) = true) :
    Unhindered policy moment s k p := by
  have hall : ∀ id r, p.recordFor id = some r → ¬ r.LateFor moment ∧ r.Projectable := by
    intro id r hr
    have hmem : r ∈ p.records := by
      rw [mem_records, objectId_of_recordFor hr]
      exact hr
    have hrecord := all_eq_true.mp h r hmem
    simp only [Bool.and_eq_true, List.all_eq_true, decide_eq_true_eq, bne_iff_ne,
      Option.isNone_iff_eq_none] at hrecord
    obtain ⟨⟨⟨hbindings, hstate⟩, hmerged⟩, hcount, hseen, hconfirmed⟩ := hrecord
    refine ⟨not_lateFor_iff.mpr fun b hb _ => (hbindings b hb).trans hle, ?_, ?_, hcount, hseen, hconfirmed⟩
    · simp [hstate, hmerged]
    · simp [hmerged]
  exact ⟨fun id r hr => ⟨fun _ => (hall id r hr).1, fun _ => (hall id r hr).2⟩,
    fun _ _ id r hr => (hall id r hr).2⟩

/-- A person seen once may be swept after a second and after four, or after four only. -/
theorem sweeps_agree_seen_once :
    SweepsAgree (streetWiring patientPolicy) (afterLeft patientPolicy) ⟨1000000000⟩ ⟨4000000000⟩ := by
  refine (sweeps_agree_iff (streetWiring patientPolicy) (afterLeft patientPolicy) ⟨1000000000⟩
    ⟨4000000000⟩ (by decide)).mpr fun k p hp => ?_
  have hall : (afterLeft patientPolicy).partitions.entries.all (fun e => e.2.records.all (fun r =>
      r.bindings.all (fun b => b.boundFrom.ns ≤ 1000) && r.lifecycle != .mergedInto &&
        r.mergedInto.isNone && decide (0 ≤ r.observationCount ∧ r.firstSeen.ns ≤ r.lastSeen.ns ∧
          r.lastConfirmed.ns ≤ r.lastSeen.ns))) = true := by decide +kernel
  have hrecords := all_eq_true.mp hall _ (OrderedDict.get?_eq_some_iff.mp hp)
  exact ⟨@unhindered_of_records _ _ ⟨1000⟩ _ _ _ (by decide) hrecords,
    @unhindered_of_records _ _ ⟨1000⟩ _ _ _ (by decide) hrecords⟩

/-- Two people seen one after the other.  The first one is out of sight when the track is bound
    to them by hand, at the time of a clock that is ahead. -/
def boundAhead : List RegistryCall :=
  crowded ++ [.bind streetTrackId ((streetWiring promptPolicy).idAt 0 ⟨1000⟩) .manual (.finite 1)
    ⟨100000000000⟩]

/-- Swept after five seconds and after twenty, the second person is occluded; swept after
    twenty seconds only, the person is active, since the sweep ends at the first one. -/
theorem sweeping_often_matters :
    let s := Runs.run (after (streetWiring promptPolicy)) {} boundAhead
    let other := (streetWiring promptPolicy).idAt 2 ⟨2000000000⟩
    (sweep (streetWiring promptPolicy) ⟨20000000000⟩
      (sweep (streetWiring promptPolicy) ⟨5000000000⟩ s).2).2.stateOf "north" other =
        some .occluded ∧
    (sweep (streetWiring promptPolicy) ⟨20000000000⟩ s).2.stateOf "north" other = some .active ∧
    ¬ SweepsAgree (streetWiring promptPolicy) s ⟨5000000000⟩ ⟨20000000000⟩ := by
  have htwice : (sweep (streetWiring promptPolicy) ⟨20000000000⟩
      (sweep (streetWiring promptPolicy) ⟨5000000000⟩ (Runs.run
        (after (streetWiring promptPolicy)) {} boundAhead)).2).2.stateOf "north"
        ((streetWiring promptPolicy).idAt 2 ⟨2000000000⟩) = some .occluded := by decide +kernel
  have honce : (sweep (streetWiring promptPolicy) ⟨20000000000⟩ (Runs.run
      (after (streetWiring promptPolicy)) {} boundAhead)).2.stateOf "north"
      ((streetWiring promptPolicy).idAt 2 ⟨2000000000⟩) = some .active := by decide +kernel
  refine ⟨htwice, honce, ?_⟩
  rintro ⟨first, s₁, second, s₂, only, s', hfirst, hsecond, honly, hstates, -⟩
  have hsame := hstates "north" ((streetWiring promptPolicy).idAt 2 ⟨2000000000⟩)
  rw [hfirst, hsecond] at htwice
  rw [honly] at honce
  cases (htwice.symm.trans hsame).trans honce

end VisionOs.Registry
