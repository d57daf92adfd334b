/-
  Whose is a track?  Continuity takes the first live object with an open binding to it, the right
  one if there is no other.  Only binding by hand makes another: it closes the bindings of the
  object, but not those of the track.
-/
import VisionOs.Registry.Restore
import VisionOs.Registry.Departures

namespace VisionOs.Registry

open Core Lib Effect List Option RegistryPartition RegistryAction ObjectRecord TrackBinding
open ObjectRegistry

variable {wiring : RegistryWiring} {w w' : Work} {id : ObjectId} {track : Track} {now : Instant}
  {crossingEpoch : Bool} {p p' : RegistryPartition} {r r' : ObjectRecord} {trackId : TrackId}

/-! ## Holding a track -/

/-- The record is live and has an open binding to the track. -/
def ObjectRecord.Holds (r : ObjectRecord) (trackId : TrackId) : Prop :=
  r.lifecycle.isTerminal = false ∧
    ∃ b ∈ r.bindings, b.isOpen = true ∧ b.isSuperseded = false ∧ b.trackId = trackId

def openCount (bindings : List TrackBinding) : Nat := bindings.countP (·.isOpen)

variable {bindings : List TrackBinding}

theorem openCount_of_closed
    (h : ∀ b ∈ bindings, isOpen b = false) : openCount bindings = 0 := by
  refine countP_eq_zero.mpr fun b hb => ?_
  rw [h b hb]
  exact Bool.false_ne_true

theorem openCount_of_sole (h : SoleBinding trackId now bindings) :
    openCount bindings = 1 := by
  obtain ⟨closed, binding, rfl, hclosed, -, -, hopen, -⟩ := h
  have hnone := openCount_of_closed hclosed
  unfold openCount at hnone ⊢
  rw [countP_append, hnone, countP_singleton, if_pos hopen]

theorem eq_of_openCount (h : openCount bindings ≤ 1)
    {b b' : TrackBinding} (hb : b ∈ bindings) (hopen : b.isOpen = true) (hb' : b' ∈ bindings)
    (hopen' : b'.isOpen = true) : b = b' := by
  have hmem : b ∈ bindings.filter (·.isOpen) := mem_filter.mpr ⟨hb, hopen⟩
  have hmem' : b' ∈ bindings.filter (·.isOpen) := mem_filter.mpr ⟨hb', hopen'⟩
  have hlength : (bindings.filter (·.isOpen)).length ≤ 1 := by
    rw [← countP_eq_length_filter]
    exact h
  rcases hfilter : bindings.filter (·.isOpen) with _ | ⟨x, _ | ⟨y, rest⟩⟩
  · rw [hfilter] at hmem
    cases hmem
  · rw [hfilter] at hmem hmem'
    rw [mem_singleton.mp hmem, mem_singleton.mp hmem']
  · rw [hfilter] at hlength
    simp at hlength

namespace ObjectRecord.Holds

theorem not_of_closed (h : ∀ b ∈ r.bindings, isOpen b = false) :
    ¬ r.Holds trackId := by
  rintro ⟨-, b, hb, hopen, -⟩
  rw [h b hb] at hopen
  cases hopen

theorem of_bindings (h : r'.Holds trackId) (hlive : r.lifecycle.isTerminal = false)
    (hbindings : r'.bindings ⊆ r.bindings) : r.Holds trackId := by
  obtain ⟨-, b, hb, hopen, hcurrent, htrack⟩ := h
  exact ⟨hlive, b, hbindings hb, hopen, hcurrent, htrack⟩

theorem of_sole (h : r.Holds trackId) {bound : TrackId}
    (hsole : SoleBinding bound now r.bindings) : trackId = bound := by
  obtain ⟨-, b, hb, hopen, -, htrack⟩ := h
  obtain ⟨closed, binding, hbindings, hclosed, hbound, -⟩ := hsole
  rw [hbindings] at hb
  rcases mem_append.mp hb with hb | hb
  · rw [hclosed b hb] at hopen
    cases hopen
  · rw [← htrack, mem_singleton.mp hb, hbound]

theorem owns (h : r.Holds trackId) (hcount : openCount r.bindings ≤ 1) : r.owns trackId = true := by
  obtain ⟨hlive, b, hb, hopen, hcurrent, htrack⟩ := h
  refine owns_iff.mpr ⟨?_, hlive⟩
  unfold boundTrack openBinding
  cases hfind : r.bindings.reverse.find? (fun b => b.isOpen && !b.isSuperseded) with
  | none =>
    have hno := find?_eq_none.mp hfind b (mem_reverse.mpr hb)
    simp [hopen, hcurrent] at hno
  | some b' =>
    have hb' := mem_reverse.mp (mem_of_find?_eq_some hfind)
    have hfound := find?_some hfind
    simp only [Bool.and_eq_true] at hfound
    rw [eq_of_openCount hcount hb' hfound.1 hb hopen, ← htrack]
    rfl

theorem of_owns (h : r.owns trackId = true) : r.Holds trackId := by
  obtain ⟨hbound, hlive⟩ := owns_iff.mp h
  obtain ⟨b, hfind, htrack⟩ := map_eq_some_iff.mp hbound
  have hb := mem_reverse.mp (mem_of_find?_eq_some hfind)
  have hfound := find?_some hfind
  simp only [Bool.and_eq_true, Bool.not_eq_true'] at hfound
  exact ⟨hlive, b, hb, hfound.1, hfound.2, htrack⟩

end ObjectRecord.Holds

/-! ## Sole owners -/

namespace RegistryPartition

/-- No two live objects hold one track, and no object has two open bindings. -/
structure SoleOwners (p : RegistryPartition) : Prop where
  owner : ∀ trackId id id' r r', p.recordFor id = some r → p.recordFor id' = some r' →
    r.Holds trackId → r'.Holds trackId → id = id'
  binding : ∀ id r, p.recordFor id = some r → openCount r.bindings ≤ 1

theorem SoleOwners.not_holds (h : p.SoleOwners) (hnone : p.byTrack trackId = none)
    (hr : p.recordFor id = some r) : ¬ r.Holds trackId := by
  intro hholds
  have hmem : r ∈ p.records := by
    rw [mem_records, objectId_of_recordFor hr]
    exact hr
  exact find?_eq_none.mp hnone r hmem (hholds.owns (h.binding id r hr))

namespace SoleOwners

theorem shrink (h : p.SoleOwners)
    (hrecords : ∀ k r, p'.recordFor k = some r → p.recordFor k = some r) : p'.SoleOwners :=
  ⟨fun trackId id id' r r' hr hr' => h.owner trackId id id' r r' (hrecords id r hr)
    (hrecords id' r' hr'), fun id r hr => h.binding id r (hrecords id r hr)⟩

theorem change (h : p.SoleOwners) (hothers : ∀ k, k ≠ id → p'.recordFor k = p.recordFor k)
    (hnew : ∀ r', p'.recordFor id = some r' → openCount r'.bindings ≤ 1 ∧
      ∀ trackId, r'.Holds trackId → ∀ k r, k ≠ id → p.recordFor k = some r →
        ¬ r.Holds trackId) : p'.SoleOwners := by
  refine ⟨fun trackId k k' r r' hr hr' hholds hholds' => ?_, fun k r hr => ?_⟩
  · by_cases hk : k = id
    · by_cases hk' : k' = id
      · rw [hk, hk']
      · rw [hk] at hr
        rw [hothers k' hk'] at hr'
        exact absurd hholds' ((hnew r hr).2 trackId hholds k' r' hk' hr')
    · by_cases hk' : k' = id
      · rw [hk'] at hr'
        rw [hothers k hk] at hr
        exact absurd hholds ((hnew r' hr').2 trackId hholds' k r hk hr)
      · rw [hothers k hk] at hr
        rw [hothers k' hk'] at hr'
        exact h.owner trackId k k' r r' hr hr' hholds hholds'
  · by_cases hk : k = id
    · subst hk
      exact (hnew r hr).1
    · rw [hothers k hk] at hr
      exact h.binding k r hr

theorem lose (h : p.SoleOwners) (hr : p.recordFor id = some r)
    (hlive : r'.lifecycle.isTerminal = false → r.lifecycle.isTerminal = false)
    (hothers : ∀ k, k ≠ id → p'.recordFor k = p.recordFor k)
    (hr' : p'.recordFor id = some r') (hbindings : List.Sublist r'.bindings r.bindings) :
    p'.SoleOwners := by
  refine h.change hothers fun r'' hr'' => ?_
  rw [hr'] at hr''
  rw [← some.inj hr'']
  refine ⟨hbindings.countP_le.trans (h.binding id r hr), ?_⟩
  intro trackId hholds k q hk hq hother
  exact hk (h.owner trackId k id q r hq hr hother 
    (hholds.of_bindings (hlive hholds.1) hbindings.subset))

theorem close (h : p.SoleOwners) (hothers : ∀ k, k ≠ id → p'.recordFor k = p.recordFor k)
    (hr' : p'.recordFor id = some r') (hclosed : ∀ b ∈ r'.bindings, isOpen b = false) :
    p'.SoleOwners := by
  refine h.change hothers fun r'' hr'' => ?_
  rw [hr'] at hr''
  rw [← some.inj hr'']
  refine ⟨?_, fun trackId hholds => absurd hholds (ObjectRecord.Holds.not_of_closed hclosed)⟩
  rw [openCount_of_closed hclosed]
  exact Nat.zero_le 1

theorem take (h : p.SoleOwners) (hothers : ∀ k, k ≠ id → p'.recordFor k = p.recordFor k)
    (hr' : p'.recordFor id = some r') (hsole : SoleBinding trackId now r'.bindings)
    (hfree : ∀ k r, k ≠ id → p.recordFor k = some r → ¬ r.Holds trackId) : p'.SoleOwners := by
  refine h.change hothers fun r'' hr'' => ?_
  rw [hr'] at hr''
  rw [← some.inj hr'']
  refine ⟨(openCount_of_sole hsole).le, fun track hholds => ?_⟩
  rw [hholds.of_sole hsole]
  exact hfree

/-! ## Frames and sweeps -/

theorem shedOldest (h : w.partition.SoleOwners) :
    w.shedOldest.partition.SoleOwners ∧
    ∀ k r, w.shedOldest.partition.recordFor k = some r → w.partition.recordFor k = some r := by
  have hrecords : ∀ k r, w.shedOldest.partition.recordFor k = some r →
      w.partition.recordFor k = some r := fun _ _ => recordFor_shedOldest
  exact ⟨h.shrink hrecords, hrecords⟩

/-- A turn gives no track a second owner. -/
theorem turn (h : w.partition.SoleOwners) (hturn : TrackTurn wiring track now crossingEpoch w w') :
    w'.partition.SoleOwners := by
  cases hturn with
  | continued r r' hby hobserved hworked =>
    obtain ⟨hr, howns, -⟩ := byTrack_eq_some_iff.mp hby
    obtain ⟨bindings, confidence, state, hrecord, rfl, -⟩ := hworked.record
    refine h.lose hr (fun _ => (owns_iff.mp howns).2) hworked.others hrecord ?_
    rw [hobserved.bindings]
  | reentered r r' hnone hmatched hr hreenterable hobserved hworked =>
    obtain ⟨bindings, confidence, state, hrecord, hrebound, -⟩ := hworked.record
    rcases hrebound with rfl | hclosed | hsole
    · refine h.lose hr (fun _ => live_of_reenterable hreenterable) hworked.others hrecord ?_
      rw [hobserved.bindings]
    · exact h.close hworked.others hrecord hclosed
    · exact h.take hworked.others hrecord hsole fun k q _ hq => h.not_holds hnone hq
  | minted hunmatched hworked =>
    obtain ⟨hbase, hrecords⟩ := h.shedOldest
    obtain ⟨bindings, confidence, state, hrecord, hrebound, -⟩ := hworked.record
    rcases hrebound with rfl | hclosed | hsole
    · exact hbase.close hworked.others hrecord (fun b hb => absurd hb not_mem_nil)
    · exact hbase.close hworked.others hrecord hclosed
    · -- Nobody held the track before the turn.
      exact hbase.take hworked.others hrecord hsole fun k q _ hq =>
        h.not_holds hunmatched.1 (hrecords k q hq)
  | refused hunmatched hsame =>
    rw [hsame]
    exact h.shedOldest.1
  | raised hnone hraised hsame =>
    rw [hsame]
    exact h

theorem age (h : w.partition.SoleOwners) :
    wp (ageRecord wiring now id) (fun _ w' => w'.partition.SoleOwners)
      (fun _ w' => w'.partition.SoleOwners) w := by
  refine wp_mono (fun _ w' haged => ?_) (fun _ w' hfailed => ?_) ageRecord_spec
  · rcases haged with ⟨rfl, -⟩ | ⟨r, t, haged⟩
    · exact h
    obtain ⟨closed, r', hclosed, hobserved, hrecord⟩ := haged.record
    refine h.close haged.others hrecord ?_
    rw [hobserved.bindings]
    exact hclosed
  · rw [hfailed.1]
    exact h

theorem swept {moment : Instant} (h : w.partition.SoleOwners) :
    wp (sweepRecord wiring moment id) (fun _ w' => w'.partition.SoleOwners)
      (fun _ w' => w'.partition.SoleOwners) w := by
  have hgone : ∀ {w₁ w₂ : Work}, w₁.partition.SoleOwners → Departed id w₁ w₂ →
      w₂.partition.SoleOwners := by
    intro w₁ w₂ h₁ hdeparted
    refine h₁.shrink fun k r hr => ?_
    by_cases hk : k = id
    · rw [hk, hdeparted.gone] at hr
      cases hr
    · rw [← hdeparted.others k hk]
      exact hr
  have hmoved : ∀ {r : ObjectRecord} {t : LifecycleTransition} {w₁ : Work},
      SweptOver id r t w w₁ → w₁.partition.SoleOwners := by
    intro r t w₁ hover
    obtain ⟨closed, hclosed, hrecord⟩ := hover.record
    exact h.close hover.others hrecord hclosed
  refine wp_mono ?_ ?_ sweepRecord_spec
  · rintro - w' (⟨rfl, -⟩ | ⟨hdeparted, -⟩ | ⟨r, t, swept, hr, -, -, hover, hend⟩)
    · exact h
    · exact hgone h hdeparted
    · rcases hend with ⟨-, rfl⟩ | ⟨-, hdeparted⟩
      · exact hmoved hover
      · exact hgone (hmoved hover) hdeparted
  · rintro - w' ⟨r, hr, ⟨-, rfl, -⟩ | ⟨t, -, -, ⟨rfl, -⟩ | ⟨-, hover, -⟩⟩⟩
    · exact h
    · exact h
    · exact hmoved hover

/-! ## Revising identities -/

theorem merge {source target : ObjectRecord} (h : p.SoleOwners)
    (hsource : p.recordFor source.objectId = some source)
    (htarget : p.recordFor target.objectId = some target)
    (hmerge : p.merge source target now = .ok p') : p'.SoleOwners := by
  obtain ⟨hne, -, ⟨bindings, hclosed, hsource'⟩, ⟨classId, htarget'⟩, hothers⟩ :=
    merge_ok hsource htarget hmerge
  refine ⟨fun trackId k k' r r' hr hr' hholds hholds' => ?_, fun k r hr => ?_⟩
  · -- Who holds a track now held it before, for the source holds none.
    have hbefore : ∀ k r, p'.recordFor k = some r → r.Holds trackId →
        ∃ q, p.recordFor k = some q ∧ q.Holds trackId := by
      intro k r hr hholds
      by_cases hks : k = source.objectId
      · rw [hks, hsource'] at hr
        rw [← some.inj hr] at hholds
        exact absurd hholds (ObjectRecord.Holds.not_of_closed hclosed)
      by_cases hkt : k = target.objectId
      · rw [hkt, htarget'] at hr
        rw [← some.inj hr] at hholds
        exact ⟨target, hkt ▸ htarget, hholds⟩
      · exact ⟨r, (hothers k hks hkt).symm.trans hr, hholds⟩
    obtain ⟨q, hq, hheld⟩ := hbefore k r hr hholds
    obtain ⟨q', hq', hheld'⟩ := hbefore k' r' hr' hholds'
    exact h.owner trackId k k' q q' hq hq' hheld hheld'
  · by_cases hks : k = source.objectId
    · rw [hks, hsource'] at hr
      rw [← some.inj hr]
      rw [openCount_of_closed hclosed]
      exact Nat.zero_le 1
    by_cases hkt : k = target.objectId
    · rw [hkt, htarget'] at hr
      rw [← some.inj hr]
      exact h.binding target.objectId target htarget
    · rw [hothers k hks hkt] at hr
      exact h.binding k r hr

variable {point : Instant} {successorId : ObjectId} {mid : Work}

theorem cut (h : w.partition.SoleOwners) (hr : w.partition.recordFor r.objectId = some r)
    (hcut : Cut r point w w') : w'.partition.SoleOwners := by
  have hlive : (r.original point).lifecycle.isTerminal = false →
      r.lifecycle.isTerminal = false := fun hlive => hlive
  exact h.lose hr hlive hcut.others hcut.original filter_sublist

theorem divided (h : w.partition.SoleOwners) (hr : w.partition.recordFor r.objectId = some r)
    (hcut : Cut r point w mid) (hdivided : Divided r point successorId mid w') :
    w'.partition.SoleOwners := by
  have hcount := h.binding _ r hr
  refine (h.cut hr hcut).change hdivided.others fun r'' hr'' => ?_
  rw [hdivided.successor] at hr''
  rw [← some.inj hr'']
  refine ⟨(filter_sublist.countP_le).trans hcount, fun trackId hholds k q hk hq hother => ?_⟩
  have hbefore : r.Holds trackId :=
    hholds.of_bindings hholds.1 filter_sublist.subset
  by_cases hkr : k = r.objectId
  · rw [hkr, hcut.original] at hq
    rw [← some.inj hq] at hother
    obtain ⟨-, b, hb, hopen, -⟩ := hholds
    obtain ⟨-, b', hb', hopen', -⟩ := hother
    obtain ⟨hb, hafter⟩ := mem_filter.mp hb
    obtain ⟨hb', hearlier⟩ := mem_filter.mp hb'
    -- One binding cannot be open on both sides of the point.
    rw [eq_of_openCount hcount hb hopen hb' hopen'] at hafter
    have hle : point.ns ≤ b'.boundFrom.ns := by simpa using hafter
    have hlt : b'.boundFrom.ns < point.ns := by simpa using hearlier
    omega
  · rw [hcut.others k hkr] at hq
    exact hkr (h.owner trackId k r.objectId q r hq hr hother hbefore)

end SoleOwners

end RegistryPartition

theorem restoreObjects_owners {takenAt : Instant} {objects : List VisualObject}
    (h : w.partition.SoleOwners) :
    wp (restoreObjects takenAt objects) (fun _ w' => w'.partition.SoleOwners)
      (fun _ w' => w'.partition.SoleOwners) w := by
  refine wp_restoreObjects (I := fun _ w' => w'.partition.SoleOwners)
    (fun _ _ _ h₁ _ => h₁) (fun o _ w₁ p bindings h₁ _ hclosed hadopt => ?_)
    (fun _ _ _ _ _ h₁ _ _ => h₁) (fun _ _ _ _ h₁ _ _ => h₁) h
  obtain ⟨hself, hothers⟩ := recordFor_adoptSaved hadopt
  exact h₁.close hothers hself hclosed

/-! ## Actions -/

/-- No two live objects of a camera hold one track, and no object has two open bindings. -/
def ObjectRegistry.SoleOwners (s : ObjectRegistry) : Prop :=
  ∀ k p, s.partitions.get? k = some p → p.SoleOwners

/-- A binding made by hand that succeeds is of a track that nobody else of the camera holds. -/
def RegistryAction.RespectsOwners (s : ObjectRegistry) : RegistryAction → Prop
  | .call (.bind trackId objectId _ confidence now) => ∀ k p r,
      s.locate objectId = .ok (k, p, r) → r.lifecycle.isTerminal = false →
      ¬ r.LateFor now → confidence.inUnit = true →
      ∀ id holder, p.recordFor id = some holder → holder.Holds trackId → id = objectId
  | _ => True

variable {s : ObjectRegistry} {action : RegistryAction}

theorem soleOwners_iff_each : s.SoleOwners ↔ s.Each wiring (fun _ p _ => p.SoleOwners) := by
  refine ⟨fun h k => ?_, fun h k p hp => ?_⟩
  · unfold partitionOf
    cases hp : s.partitions.get? k with
    | some p => exact h k p hp
    | none => exact ⟨fun _ _ _ _ _ hr => (by cases hr), fun _ _ hr => (by cases hr)⟩
  · have hk := h k
    rw [partitionOf_eq hp] at hk
    exact hk

theorem Bound.sole (h : Bound id r trackId now w w') :
    ∃ r', w'.partition.recordFor id = some r' ∧ r'.lifecycle = r.lifecycle ∧
      SoleBinding trackId now r'.bindings := by
  obtain ⟨closed, binding, confidence, hclosed, htrack, hfrom, hopen, hcurrent, hrecord⟩ :=
    h.record
  exact ⟨_, hrecord, rfl, closed, binding, rfl, hclosed, htrack, hfrom, hopen, hcurrent⟩

theorem ObjectRecord.Holds.of_soleBinding (h : SoleBinding trackId now r.bindings)
    (hlive : r.lifecycle.isTerminal = false) : r.Holds trackId := by
  obtain ⟨closed, binding, hbindings, -, htrack, -, hopen, hcurrent⟩ := h
  exact ⟨hlive, binding, by rw [hbindings]; simp, hopen, hcurrent, htrack⟩

theorem soleOwners_after (h : s.SoleOwners) (hrespects : action.RespectsOwners s) :
    (action.after wiring s).SoleOwners := by
  have hempty : ∀ (k : CameraId) (p : RegistryPartition) (t : RegionTracker), p.SoleOwners →
      p.SoleOwners := fun _ _ _ hP => hP
  rw [@soleOwners_iff_each wiring] at h ⊢
  cases action with
  | call c =>
    cases c with
    | ingest k update clock =>
      refine h.ingest hempty (@foldFrame_rule wiring _ _ _ _ (fun w' => w'.partition.SoleOwners)
        (fun _ _ => True) (fun track w hw _ => ?_) (fun id w hw => hw.age)
        (along_of_forall (fun _ _ => trivial) _ _) (h k))
      exact wp_mono (fun _ _ h' => hw.turn h') (fun _ _ h' => hw.turn h') foldTrack_turn
    | sweep moment =>
      refine h.sweep hempty fun k p w hp hpartition _ hw => ?_
      exact @wp_forEach _ Work _ _ w (fun _ w' => w'.partition.SoleOwners) _ _
        (fun _ _ _ _ hw => RegistryPartition.SoleOwners.swept hw) hw
    | bind trackId objectId method confidence now =>
      refine h.bind hempty fun k p r w hplace hlive hpartition hw => ?_
      obtain ⟨-, hr⟩ := locate_ok hplace
      subst hpartition
      refine wp_mono (fun _ w' hopened => ?_) (fun _ w' hfailed => ?_)
        (wp_and (openBinding_spec hr) (openBinding_possible hr))
      · obtain ⟨hbound, htimely, hunit⟩ := hopened
        obtain ⟨r', hrecord, -, hsole⟩ := hbound.sole
        exact hw.take hbound.others hrecord hsole fun id holder hid hholder hholds =>
          hid (hrespects k w.partition r hplace hlive htimely hunit id holder hholder hholds)
      · obtain ⟨⟨hreleased, -⟩, -⟩ := hfailed
        obtain ⟨bindings, hbindings, hrecord⟩ := hreleased.record
        rcases hbindings with rfl | hclosed
        · exact hw.lose hr (fun hlive => hlive) hreleased.others hrecord (List.Sublist.refl _)
        · exact hw.close hreleased.others hrecord hclosed
    | merge sourceObject targetObject now =>
      refine h.merge hempty fun k p source target t hp hsource htarget hlive _ _ hP p' hmerge => ?_
      exact hP.merge (recordFor_objectId hsource)
        (recordFor_objectId htarget) hmerge
    | split objectId point now =>
      refine h.split hempty fun k p r w hplace hpoint hr hpartition hw cut hcut => ?_
      subst hpartition
      exact ⟨hw.cut hr hcut, fun successorId w' hdivided => hw.divided hr hcut hdivided⟩
    | applyAttribute objectId value =>
      refine h.applyAttribute hempty fun k p r t hr hP => ?_
      refine hP.lose hr ?_ (fun k hk => recordFor_update_of_ne hk)
        (recordFor_applyAttribute value hr) (List.Sublist.refl _)
      exact fun hlive => hlive
  | restore snapshot => exact h.restore hempty fun w _ hw => restoreObjects_owners hw
  | setRegions k regions now => exact h.setRegions (h k)

theorem not_soleOwners_after (hno : ¬ action.RespectsOwners s) :
    ¬ (action.after wiring s).SoleOwners := by
  cases action with
  | call c =>
    cases c with
    | bind trackId objectId method confidence now =>
      -- Somebody else holds the track, and the binding succeeds.
      have hothers : ∃ k p r, s.locate objectId = .ok (k, p, r) ∧ r.lifecycle.isTerminal = false ∧
          ¬ r.LateFor now ∧ confidence.inUnit = true ∧
          ∃ id holder, p.recordFor id = some holder ∧ holder.Holds trackId ∧ id ≠ objectId := by
        by_contra hnone
        refine hno fun k p r hplace hlive htimely hunit id holder hholder hholds => ?_
        by_contra hne
        exact hnone ⟨k, p, r, hplace, hlive, htimely, hunit, id, holder, hholder, hholds, hne⟩
      obtain ⟨k, p, r, hplace, hlive, htimely, hunit, id, holder, hholder, hholds, hne⟩ := hothers
      obtain ⟨-, hr⟩ := locate_ok hplace
      refine @after_of_wp s _ _ (fun s' => ¬ s'.SoleOwners) ((wp_bind_live hplace hlive).mpr ?_)
      refine wp_mono (fun _ w' hbound hsole => ?_) (fun _ w' hfailed => ?_)
        (openBinding_spec (w := s.work k p) hr)
      · obtain ⟨r', hrecord, hstate, hbinding⟩ := hbound.sole
        have hbound' : r'.Holds trackId := .of_soleBinding hbinding (hstate ▸ hlive)
        have hother : w'.partition.recordFor id = some holder := (hbound.others id hne).trans hholder
        have hcamera := hsole k w'.partition ((partitions_keep ..).trans (if_pos rfl))
        exact hne (hcamera.owner trackId id objectId holder r' hother hrecord hholds hbound')
      · rcases hfailed.2 with hlate | hoff
        · exact absurd hlate htimely
        · rw [hunit] at hoff
          cases hoff
    | ingest _ _ _ => exact absurd trivial hno
    | sweep _ => exact absurd trivial hno
    | merge _ _ _ => exact absurd trivial hno
    | split _ _ _ => exact absurd trivial hno
    | applyAttribute _ _ => exact absurd trivial hno
  | restore _ => exact absurd trivial hno
  | setRegions _ _ _ => exact absurd trivial hno

/-- Every track has one owner at most in every state of a run exactly when every binding made
    by hand in it respects owners. -/
theorem sole_owners_iff (wiring : RegistryWiring) (actions : List RegistryAction) :
    (∀ before, before <+: actions →
      (Runs.run (after wiring) {} before).SoleOwners) ↔
    Runs.Always (after wiring) (fun s action => action.RespectsOwners s) {}
      actions := by
  have hempty : ObjectRegistry.SoleOwners {} := fun k p hp => by cases hp
  exact Runs.reached_iff_always (fun _ h => h) (fun _ _ h hrespects => soleOwners_after h hrespects)
    (fun _ _ _ hno => not_soleOwners_after hno) hempty actions

/-- Somebody on the left, then somebody else on the right, whose track is given by hand to
    the first. -/
def handing : List RegistryAction :=
  [.call (.ingest "north" leftFrame ⟨0⟩), .call (.ingest "north" (streetFrame 1 otherTrack) ⟨0⟩),
    .call (.bind otherTrack.trackId ((streetWiring promptPolicy).idAt 0 ⟨1000⟩) .manual (.finite 1)
      ⟨3000000000⟩)]

/-- Then both hold it. -/
theorem handed_track_shared :
    ¬ ∀ before, before <+: handing →
      (Runs.run (after (streetWiring promptPolicy)) {} before).SoleOwners := by
  intro hall
  have hsole := hall handing (prefix_refl _)
  have hfirst : ((Runs.run (after (streetWiring promptPolicy)) {}
      handing).partitions.get? "north").any (fun p =>
        (p.recordFor ((streetWiring promptPolicy).idAt 0 ⟨1000⟩)).any
          (·.owns otherTrack.trackId)) = true := by decide +kernel
  have hsecond : ((Runs.run (after (streetWiring promptPolicy)) {}
      handing).partitions.get? "north").any (fun p =>
        (p.recordFor ((streetWiring promptPolicy).idAt 2 ⟨2000000000⟩)).any
          (·.owns otherTrack.trackId)) = true := by decide +kernel
  obtain ⟨p, hp, hr⟩ := (any_eq_true _ _).mp hfirst
  obtain ⟨p', hp', hr'⟩ := (any_eq_true _ _).mp hsecond
  rw [hp] at hp'
  rw [← some.inj hp'] at hr'
  obtain ⟨r, hr, howns⟩ := (any_eq_true _ _).mp hr
  obtain ⟨r', hr', howns'⟩ := (any_eq_true _ _).mp hr'
  have hsame := (hsole "north" p hp).owner _ _ _ r r' hr hr' (.of_owns howns) (.of_owns howns')
  exact absurd hsame (by decide +kernel)

end VisionOs.Registry
