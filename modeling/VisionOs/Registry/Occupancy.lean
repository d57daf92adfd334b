/-
  Who is counted in a region?  Memberships are kept beside the objects; some of the ways in which
  an object stops being present, is merged or is shed do not end them.
-/
import VisionOs.Registry.Merges
import VisionOs.Registry.Ownership

namespace VisionOs.Registry

open Core Lib Effect RegistryPartition Option RegistryAction Runs ObjectRegistry

variable {wiring : RegistryWiring} {w w' : Work} {id : ObjectId} {track : Track} {now : Instant}
  {crossingEpoch : Bool} {p p' : RegistryPartition} {r r' : ObjectRecord} {t t' : RegionTracker}

def NoGhosts (p : RegistryPartition) (t : RegionTracker) : Prop :=
  ∀ id, t.Member id → ∃ r, p.recordFor id = some r ∧ r.lifecycle.isPresent = true

def Work.Peopled (w : Work) : Prop := NoGhosts w.partition w.regions

namespace NoGhosts

theorem change (h : NoGhosts p t) (hothers : ∀ k, k ≠ id → p'.recordFor k = p.recordFor k)
    (hmembers : ∀ k, t'.Member k → k = id ∨ t.Member k)
    (hself : t'.Member id → ∃ r', p'.recordFor id = some r' ∧ r'.lifecycle.isPresent = true) :
    NoGhosts p' t' := by
  intro k hk
  by_cases hid : k = id
  · subst hid
    exact hself hk
  · rcases hmembers k hk with heq | hbefore
    · exact absurd heq hid
    · obtain ⟨r, hr, hpresent⟩ := h k hbefore
      exact ⟨r, (hothers k hid).trans hr, hpresent⟩

theorem drop (h : NoGhosts p t) (hmember : ¬ t.Member id)
    (hothers : ∀ k, k ≠ id → p'.recordFor k = p.recordFor k) : NoGhosts p' t :=
  h.change hothers (fun _ hk => .inr hk) (fun hk => absurd hk hmember)

theorem keepState (h : NoGhosts p t) (hr : p.recordFor id = some r)
    (hothers : ∀ k, k ≠ id → p'.recordFor k = p.recordFor k)
    (hr' : p'.recordFor id = some r') (hstate : r'.lifecycle = r.lifecycle) : NoGhosts p' t := by
  refine h.change hothers (fun _ hk => .inr hk) (fun hk => ⟨r', hr', ?_⟩)
  obtain ⟨r₀, hr₀, hpresent⟩ := h id hk
  rw [hr] at hr₀
  rw [hstate, some.inj hr₀]
  exact hpresent

theorem extend (h : NoGhosts p t) (hnone : p.recordFor id = none)
    (hothers : ∀ k, k ≠ id → p'.recordFor k = p.recordFor k) : NoGhosts p' t := by
  refine h.drop (fun hk => ?_) hothers
  obtain ⟨r, hr, -⟩ := h id hk
  rw [hnone] at hr
  cases hr

end NoGhosts

/-! ## Frames -/

/-- The record that the track continues or re-enters. -/
def TakenUp (wiring : RegistryWiring) (now : Instant) (crossingEpoch : Bool) (track : Track)
    (p : RegistryPartition) (r : ObjectRecord) : Prop :=
  p.byTrack track.trackId = some r ∨
    p.byTrack track.trackId = none ∧ p.recordFor r.objectId = some r ∧
      ∃ d c, reentryOf wiring track now crossingEpoch p = .ok d ∧ d.matched = some c ∧
        c.objectId = r.objectId

/-- The turn takes no member out of presence, and sheds none. -/
structure KeepsMembers (wiring : RegistryWiring) (now : Instant) (crossingEpoch : Bool)
    (track : Track) (w : Work) : Prop where
  predicted : track.isPredicted = true → ∀ r, TakenUp wiring now crossingEpoch track w.partition r →
    w.regions.Member r.objectId → ∀ t,
      onUnmeasured wiring.lifecycle r.lifecycle (sinceConfirmed now r) false = .ok t →
      t.current.isPresent = true
  shed : Unmatched wiring track now crossingEpoch w.partition →
    ∀ r, w.partition.shedNext = some r → ¬ w.regions.Member r.objectId

theorem shedOldest_peopled (h : w.Peopled)
    (hshed : ∀ r, w.partition.shedNext = some r → ¬ w.regions.Member r.objectId) :
    w.shedOldest.Peopled := by
  unfold Work.shedOldest
  cases hnext : w.partition.shedNext with
  | none => exact h
  | some r =>
    have hothers : ∀ k, k ≠ r.objectId →
        (w.partition.evict r.objectId).recordFor k = w.partition.recordFor k :=
      fun k hk => (recordFor_evict ..).trans (if_neg hk)
    exact NoGhosts.drop h (hshed r hnext) hothers

theorem worked_peopled {B : List TrackBinding → Prop} {base : Work} (h : base.Peopled)
    (hworked : WorkedOn wiring track now B id r base w')
    (hstays : base.regions.Member id → r.lifecycle.isPresent = true ∧
      ∀ t, trackTransition wiring track now r = .ok t → t.current.isPresent = true) :
    w'.Peopled := by
  obtain ⟨bindings, confidence, state, hrecord, -, hmoved, hplaced⟩ := hworked.record
  rcases hplaced with hsame | ⟨hpresent, box, instant, hupdated⟩
  · unfold Work.Peopled
    rw [hsame]
    refine NoGhosts.change h hworked.others (fun _ hk => .inr hk) (fun hmember => ?_)
    obtain ⟨hbefore, hafter⟩ := hstays hmember
    refine ⟨_, hrecord, ?_⟩
    rcases hmoved with ⟨rfl, -⟩ | ⟨t, ht, rfl, -⟩
    · exact hbefore
    · exact hafter t ht
  · unfold Work.Peopled
    rw [hupdated]
    exact NoGhosts.change h hworked.others (fun _ hk => hk.of_update)
      (fun _ => ⟨_, hrecord, hpresent⟩)

theorem present_of_measured (hmeasured : track.isPredicted = false) {t : LifecycleTransition}
    (ht : trackTransition wiring track now r = .ok t) : t.current.isPresent = true := by
  obtain ⟨-, -, hactive | ⟨-, hstill⟩ | ⟨hpredicted, -⟩⟩ := trackTransition_ok ht
  · rw [hactive]
    rfl
  · rw [hstill]
    rfl
  · rw [hmeasured] at hpredicted
    cases hpredicted

theorem takenUp_stays (h : w.Peopled) (hkeeps : KeepsMembers wiring now crossingEpoch track w)
    (hr : w.partition.recordFor r.objectId = some r)
    (htaken : TakenUp wiring now crossingEpoch track w.partition r)
    (hobserved : ObjectRecord.Observed (measuredOf track) now r r')
    (hmember : w.regions.Member r.objectId) :
    r'.lifecycle.isPresent = true ∧
      ∀ t, trackTransition wiring track now r' = .ok t → t.current.isPresent = true := by
  obtain ⟨r₀, hr₀, hpresent⟩ := h r.objectId hmember
  rw [hr] at hr₀
  rw [← some.inj hr₀] at hpresent
  refine ⟨by rw [hobserved.lifecycle]; exact hpresent, fun t ht => ?_⟩
  cases hpredicted : track.isPredicted with
  | false => exact present_of_measured hpredicted ht
  | true =>
    -- The prediction drives the record as it was before the frame.
    have hunseen : measuredOf track = none := by
      unfold measuredOf
      rw [if_pos hpredicted]
    have hdriven : trackTransition wiring track now r' =
        onUnmeasured wiring.lifecycle r.lifecycle (sinceConfirmed now r) false := by
      unfold trackTransition sinceConfirmed
      rw [if_pos hpredicted, hobserved.lifecycle, hobserved.unconfirmed hunseen]
    rw [hdriven] at ht
    exact hkeeps.predicted hpredicted r htaken hmember t ht

theorem newRecord_stays (s : Sighting) {t : LifecycleTransition}
    (ht : trackTransition wiring track now (p.newRecord id s now) = .ok t) :
    t.current.isPresent = true := by
  cases hpredicted : track.isPredicted with
  | false => exact present_of_measured hpredicted ht
  | true =>
    have hpositive := (LifecyclePolicyFields.postInit_eq_ok.mp wiring.lifecycle.accepted).2.1
    -- No time has passed since it was confirmed.
    have hsince : (sinceConfirmed now (p.newRecord id s now)).ns = 0 := by
      show max 0 (now.ns - now.ns) = 0
      omega
    have hstill : ¬ (sinceConfirmed now (p.newRecord id s now)).ns ≥
        wiring.lifecycle.provisionalHorizon.ns := by
      rw [hsince]
      omega
    unfold trackTransition at ht
    rw [if_pos hpredicted] at ht
    have hprovisional : onUnmeasured wiring.lifecycle .provisional
        (sinceConfirmed now (p.newRecord id s now)) false =
          .ok ⟨.provisional, .provisional, .firstDetections⟩ := by
      unfold onUnmeasured
      simp only [hstill]
      rfl
    have ht' := hprovisional.symm.trans ht
    rw [← Except.ok.inj ht']
    rfl

theorem turn_peopled (h : w.Peopled) (hkeeps : KeepsMembers wiring now crossingEpoch track w)
    (hturn : TrackTurn wiring track now crossingEpoch w w') : w'.Peopled := by
  cases hturn with
  | continued r r' hby hobserved hworked =>
    obtain ⟨hr, -, -⟩ := byTrack_eq_some_iff.mp hby
    exact worked_peopled h hworked fun hmember =>
      takenUp_stays h hkeeps hr (.inl hby) hobserved hmember
  | reentered r r' hnone hmatched hr hreenterable hobserved hworked =>
    exact worked_peopled h hworked fun hmember =>
      takenUp_stays h hkeeps hr (.inr ⟨hnone, hr, hmatched⟩) hobserved hmember
  | minted hunmatched hworked =>
    exact worked_peopled (shedOldest_peopled h (hkeeps.shed hunmatched)) hworked fun _ =>
      ⟨rfl, fun t ht => newRecord_stays _ ht⟩
  | refused hunmatched hsame =>
    rw [hsame]
    exact shedOldest_peopled h (hkeeps.shed hunmatched)
  | raised hnone hraised hsame =>
    rw [hsame]
    exact h

theorem age_peopled (h : w.Peopled) :
    wp (ageRecord wiring now id) (fun _ w' => w'.Peopled) (fun _ w' => w'.Peopled) w := by
  refine wp_mono (fun _ w' haged => ?_) (fun _ w' hfailed => ?_) ageRecord_spec
  · rcases haged with ⟨rfl, -⟩ | ⟨r, t, haged⟩
    · exact h
    obtain ⟨closed, r', -, -, hrecord⟩ := haged.record
    unfold Work.Peopled
    rw [haged.regions]
    by_cases hleft : t.changed = true ∧ t.current.isPresent = false
    · rw [if_pos hleft]
      refine NoGhosts.change h haged.others (fun _ hk => .inr hk.of_forget.2) (fun hk => ?_)
      exact absurd rfl hk.of_forget.1
    rw [if_neg hleft]
    refine NoGhosts.change h haged.others (fun _ hk => .inr hk) (fun hmember => ?_)
    refine ⟨_, hrecord, ?_⟩
    -- What did not change is as present as it was.
    by_cases hchanged : t.changed = true
    · have hpresent : ¬ t.current.isPresent = false := fun hno => hleft ⟨hchanged, hno⟩
      simpa using hpresent
    obtain ⟨r₀, hr₀, hpresent⟩ := h id hmember
    rw [haged.found] at hr₀
    have hsame : t.current = r.lifecycle := by
      rw [← haged.previous]
      unfold LifecycleTransition.changed at hchanged
      have heq : t.previous = t.current := by simpa using hchanged
      exact heq.symm
    rw [hsame, some.inj hr₀]
    exact hpresent
  · rw [hfailed.1]
    exact h

/-! ## Sweeps -/

/-- A member that the sweep moves stays present or expires. -/
def SweepKeepsMember (wiring : RegistryWiring) (moment : Instant) (id : ObjectId) (w : Work) :
    Prop :=
  w.regions.Member id → ∀ r t, w.partition.recordFor id = some r →
    driveHorizons wiring.lifecycle r moment = .ok (some t) → ¬ r.LateFor moment →
    t.current = .occluded ∨
      t.current = .expired ∧ ({ r with lifecycle := t.current } : ObjectRecord).Projectable

theorem depart_regions :
    wp (depart id) (fun _ w' => w'.regions = w.regions) (fun _ w' => w'.regions = w.regions) w := by
  unfold depart
  rw [wp_bind, wp_read]
  split
  · exact rfl
  · rw [wp_bind, wp_ofExcept]
    exact ⟨fun _ _ => rfl, fun _ _ => rfl⟩

variable {moment : Instant}

theorem sweepMoved_regions {t : LifecycleTransition}
    (hr : w.partition.recordFor id = some r) (haway : Away t.current) :
    wp (sweepMoved moment id t)
      (fun _ w' => t.current = .expired ∧ w'.regions = (w.regions.forget id moment).1 ∨
        t.current ≠ .expired ∧ ¬ r.LateFor moment ∧ w'.regions = w.regions)
      (fun _ w' => w' = w ∨ ¬ r.LateFor moment ∧ w'.regions = w.regions) w := by
  unfold sweepMoved
  simp only [haway.not_measurable, Bool.false_eq_true, if_false]
  rw [wp_bind, wp_attempt]
  refine ⟨fun p hp => ?_, fun _ _ => .inl rfl⟩
  have htimely := not_lateFor_iff.mpr ((closeBindings_ok_iff hr).mp ⟨p, hp⟩)
  rw [wp_bind, wp_modify]
  by_cases hexpired : t.current = .expired
  · rw [if_pos hexpired, wp_bind]
    refine wp_mono (fun _ w' hsame => ?_) (fun _ _ hsame => .inr ⟨htimely, hsame⟩)
      depart_regions
    rw [wp_modify]
    refine .inl ⟨hexpired, ?_⟩
    rw [hsame]
  · rw [if_neg hexpired]
    exact .inr ⟨hexpired, htimely, rfl⟩

theorem sweepRecord_regions :
    wp (sweepRecord wiring moment id)
      (fun _ w' => w'.regions = (w.regions.forget id moment).1 ∨
        w'.regions = w.regions ∧ ∀ r t, w.partition.recordFor id = some r →
          r.lifecycle.isTerminal = false →
          driveHorizons wiring.lifecycle r moment = .ok (some t) →
          t.current ≠ .expired ∧ ¬ r.LateFor moment)
      (fun _ w' => w' = w ∨ w'.regions = w.regions ∧
        ∀ r, w.partition.recordFor id = some r → r.lifecycle.isTerminal = false →
          ¬ r.LateFor moment) w := by
  unfold sweepRecord
  rw [wp_bind, wp_read]
  cases hr : w.partition.recordFor id with
  | none => exact .inr ⟨rfl, fun r t heq => by cases heq⟩
  | some r =>
    by_cases hterminal : r.lifecycle.isTerminal = true
    · have hno : ∀ r', some r = some r' → r'.lifecycle.isTerminal ≠ false := by
        intro r' heq hlive
        rw [← some.inj heq, hterminal] at hlive
        cases hlive
      simp only [hterminal, if_true]
      split
      · exact wp_mono
          (fun _ _ hsame => .inr ⟨hsame, fun r' _ heq hlive _ => absurd hlive (hno r' heq)⟩)
          (fun _ _ hsame => .inr ⟨hsame, fun r' heq hlive => absurd hlive (hno r' heq)⟩)
          depart_regions
      · exact .inr ⟨rfl, fun r' _ heq hlive _ => absurd hlive (hno r' heq)⟩
    · have hlive : r.lifecycle.isTerminal = false := by simpa using hterminal
      simp only [hlive, Bool.false_eq_true, if_false]
      rw [wp_bind, wp_ofExcept]
      refine ⟨fun moved hmoved => ?_, fun _ _ => .inl rfl⟩
      have honly : ∀ r' t, some r = some r' →
          driveHorizons wiring.lifecycle r' moment = .ok (some t) → moved = some t := by
        intro r' t heq hmoves
        rw [← some.inj heq, hmoved] at hmoves
        exact Except.ok.inj hmoves
      cases moved with
      | none =>
        exact .inr ⟨rfl, fun r' t heq _ hmoves => absurd (honly r' t heq hmoves)
          (some_ne_none t).symm⟩
      | some t =>
        refine wp_mono (fun _ w' hw' => ?_) (fun _ w' hw' => ?_)
          (sweepMoved_regions hr (away_of_driveHorizons hmoved))
        · rcases hw' with ⟨-, hforgot⟩ | ⟨hstays, htimely, hsame⟩
          · exact .inl hforgot
          · refine .inr ⟨hsame, fun r' t' heq _ hmoves => ?_⟩
            rw [← some.inj (honly r' t' heq hmoves), ← some.inj heq]
            exact ⟨hstays, htimely⟩
        · rcases hw' with hsame | ⟨htimely, hsame⟩
          · exact .inl hsame
          · refine .inr ⟨hsame, fun r' heq _ => ?_⟩
            rw [← some.inj heq]
            exact htimely

theorem swept_peopled (h : w.Peopled)
    (hkeeps : SweepKeepsMember wiring moment id w) :
    wp (sweepRecord wiring moment id) (fun _ w' => w'.Peopled) (fun _ w' => w'.Peopled) w := by
  -- A member is present, so it is not one that had expired before.
  have hmember : ∀ r, w.partition.recordFor id = some r → w.regions.Member id →
      r.lifecycle.isPresent = true := by
    intro r hr hk
    obtain ⟨r₀, hr₀, hpresent⟩ := h id hk
    rw [hr] at hr₀
    rw [some.inj hr₀]
    exact hpresent
  have hforgotten : ∀ w' : Work, (∀ k, k ≠ id → w'.partition.recordFor k = w.partition.recordFor k) →
      w'.regions = (w.regions.forget id moment).1 → w'.Peopled := by
    intro w' hothers hforgot
    unfold Work.Peopled
    rw [hforgot]
    exact NoGhosts.change h hothers (fun _ hk => .inr hk.of_forget.2)
      (fun hk => absurd rfl hk.of_forget.1)
  have hsame : ∀ w' : Work, (∀ k, k ≠ id → w'.partition.recordFor k = w.partition.recordFor k) →
      w'.regions = w.regions →
      (w.regions.Member id → ∃ r', w'.partition.recordFor id = some r' ∧
        r'.lifecycle.isPresent = true) → w'.Peopled := by
    intro w' hothers hsame hself
    unfold Work.Peopled
    rw [hsame]
    exact NoGhosts.change h hothers (fun _ hk => .inr hk) hself
  -- What moved a member and neither forgot it nor raised has hidden it.
  have hmoved : ∀ (w' : Work) (r : ObjectRecord) (t : LifecycleTransition),
      w.partition.recordFor id = some r →
      driveHorizons wiring.lifecycle r moment = .ok (some t) → SweptOver id r t w w' →
      w'.regions = w.regions → ¬ r.LateFor moment → t.current ≠ .expired ∨
        ¬ ({ r with lifecycle := t.current } : ObjectRecord).Projectable → w'.Peopled := by
    intro w' r t hr hmoves hover hunchanged htimely hend
    refine hsame w' hover.others hunchanged fun hk => ?_
    obtain ⟨closed, -, hrecord⟩ := hover.record
    refine ⟨_, hrecord, ?_⟩
    rcases hkeeps hk r t hr hmoves htimely with hoccluded | ⟨hexpired, hprojectable⟩
    · rw [hoccluded]
      rfl
    · rcases hend with hstays | hraises
      · exact absurd hexpired hstays
      · exact absurd hprojectable hraises
  refine wp_mono ?_ ?_ (wp_and sweepRecord_spec sweepRecord_regions)
  · rintro - w' ⟨⟨rfl, -⟩ | ⟨hdeparted, r, hr, hexpired⟩ |
      ⟨r, t, swept, hr, hlive, hmoves, hover, hend⟩, hregions⟩
    · exact h
    · rcases hregions with hforgot | ⟨hunchanged, -⟩
      · exact hforgotten w' hdeparted.others hforgot
      · refine hsame w' hdeparted.others hunchanged fun hk => ?_
        have hpresent := hmember r hr hk
        rw [hexpired] at hpresent
        cases hpresent
    · have hothers : ∀ k, k ≠ id → w'.partition.recordFor k = w.partition.recordFor k := by
        intro k hk
        rcases hend with ⟨-, rfl⟩ | ⟨-, hdeparted⟩
        · exact hover.others k hk
        · exact (hdeparted.others k hk).trans (hover.others k hk)
      rcases hregions with hforgot | ⟨hunchanged, hstays⟩
      · exact hforgotten w' hothers hforgot
      · obtain ⟨hstayed, htimely⟩ := hstays r t hr hlive hmoves
        rcases hend with ⟨-, rfl⟩ | ⟨hexpired, -⟩
        · exact hmoved w' r t hr hmoves hover hunchanged htimely (.inl hstayed)
        · exact absurd hexpired hstayed
  · rintro - w' ⟨⟨r, hr, ⟨-, rfl, -⟩ | ⟨t, hlive, hmoves, ⟨rfl, -⟩ | ⟨-, hover, hraises⟩⟩⟩,
      hregions⟩
    · exact h
    · exact h
    · rcases hregions with rfl | ⟨hunchanged, htimely⟩
      · exact h
      · exact hmoved w' r t hr hmoves hover hunchanged (htimely r hr hlive) (.inr hraises)

/-! ## Actions -/

/-- An action that takes no member out of presence without ending its memberships. -/
def RegistryAction.ClosesMemberships (wiring : RegistryWiring) (s : ObjectRegistry) :
    RegistryAction → Prop
  | .call (.ingest k update clock) =>
    Along (foldTrack wiring (s.advanceTime k update clock) (crossesEpoch s k update))
      (KeepsMembers wiring (s.advanceTime k update clock) (crossesEpoch s k update))
      update.active (frameWork wiring k update clock s)
  | .call (.sweep moment) => ∀ k p w, s.partitions.get? k = some p → w.partition = p →
      w.regions = s.trackerOf k →
      Along (sweepRecord wiring moment) (SweepKeepsMember wiring moment) p.ids w
  | .call (.merge sourceObject targetObject now) => ∀ k p source target,
      s.partitions.get? k = some p → p.recordFor sourceObject = some source →
      p.recordFor targetObject = some target → (∃ moved, onMerged source.lifecycle = .ok moved) →
      (∃ p', p.merge source target now = .ok p') → ¬ (s.trackerOf k).Member sourceObject
  | _ => True

variable {s : ObjectRegistry} {action : RegistryAction}

theorem noGhosts_after (h : s.Each wiring (fun _ => NoGhosts))
    (hcloses : action.ClosesMemberships wiring s) :
    (action.after wiring s).Each wiring (fun _ => NoGhosts) := by
  have hempty : ∀ (k : CameraId) (p : RegistryPartition) (t : RegionTracker), NoGhosts p t →
      NoGhosts p {} := fun _ _ _ _ _ hmember => by
    obtain ⟨m, hm⟩ := hmember
    cases hm
  cases action with
  | call c =>
    cases c with
    | ingest k update clock =>
      have hstart : (frameWork wiring k update clock s).Peopled := by
        unfold Work.Peopled
        rw [frameWork_regions]
        exact h k
      refine h.ingest hempty (@foldFrame_rule wiring _ _ _ _ Work.Peopled _
        (fun track w hw hturn => ?_) (fun id w hw => age_peopled hw) hcloses hstart)
      exact wp_mono (fun _ _ h' => turn_peopled hw hturn h')
        (fun _ _ h' => turn_peopled hw hturn h') foldTrack_turn
    | sweep moment =>
      refine h.sweep hempty fun k p w hp hpartition hregions hw => ?_
      exact @wp_forEach_along _ Work _ _ w (fun _ w' => w'.Peopled) _ _ _
        (fun _ _ _ _ hw' hkeeps => swept_peopled hw' hkeeps)
        (hcloses k p w hp hpartition hregions) hw
    | bind trackId objectId method confidence now =>
      refine h.bind hempty fun k p r w hplace hlive hpartition hw => ?_
      obtain ⟨-, hr⟩ := locate_ok hplace
      subst hpartition
      refine wp_mono (fun _ w' hbound => ?_) (fun _ w' hfailed => ?_) (openBinding_spec hr)
      · obtain ⟨r', hrecord, hstate, -⟩ := hbound.sole
        rw [hbound.rest]
        exact NoGhosts.keepState hw hr hbound.others hrecord hstate
      · obtain ⟨hreleased, -⟩ := hfailed
        obtain ⟨bindings, -, hrecord⟩ := hreleased.record
        rw [hreleased.rest]
        exact NoGhosts.keepState hw hr hreleased.others hrecord rfl
    | merge sourceObject targetObject now =>
      refine h.merge hempty
        fun k p source target t hp hsource htarget hlive hmergeable ht hP p' hmerge => ?_
      have hmember := hcloses k p source target hp hsource htarget hmergeable ⟨p', hmerge⟩
      rw [← ht, ← objectId_of_recordFor hsource] at hmember
      rw [← objectId_of_recordFor hsource] at hsource
      rw [← objectId_of_recordFor htarget] at htarget
      obtain ⟨-, -, -, ⟨classId, htarget'⟩, hothers⟩ :=
        merge_ok hsource htarget hmerge
      -- The source is no member, and the target stays in its state.
      intro id hid
      have hsourceNot : id ≠ source.objectId := by
        rintro rfl
        exact hmember hid
      obtain ⟨r, hr, hpresent⟩ := hP id hid
      by_cases hkt : id = target.objectId
      · subst hkt
        rw [htarget] at hr
        rw [← some.inj hr] at hpresent
        exact ⟨_, htarget', hpresent⟩
      · exact ⟨r, (hothers id hsourceNot hkt).trans hr, hpresent⟩
    | split objectId point now =>
      refine h.split hempty fun k p r w hplace hpoint hr hpartition hw cut hcut => ?_
      subst hpartition
      have hcutPeopled : NoGhosts cut.partition cut.regions := by
        rw [hcut.regions]
        exact NoGhosts.keepState hw hr hcut.others hcut.original rfl
      refine ⟨hcutPeopled, fun successorId w' hdivided => ?_⟩
      rw [hdivided.regions]
      exact NoGhosts.extend hcutPeopled hdivided.fresh hdivided.others
    | applyAttribute objectId value =>
      refine h.applyAttribute hempty fun k p r t hr hP => ?_
      exact NoGhosts.keepState hP hr (fun k hk => recordFor_update_of_ne hk)
        (recordFor_applyAttribute value hr) rfl
  | restore snapshot =>
    refine h.restore hempty fun w _ hw => ?_
    refine wp_restoreObjects (I := fun _ w' => w'.Peopled) (fun _ _ _ h₁ _ => h₁)
      (fun o _ w₁ p bindings h₁ hnone _ hadopt => ?_) (fun _ _ _ _ _ h₁ _ _ => h₁)
      (fun _ _ _ _ h₁ _ _ => h₁) hw
    exact NoGhosts.extend h₁ hnone (recordFor_adoptSaved hadopt).2
  | setRegions k regions now =>
    exact h.setRegions fun id hmember =>
      absurd hmember (RegionTracker.not_member_setRegions regions now)

/-- The object is in the camera's partition, and believed to be in view. -/
def ObjectRegistry.Present (s : ObjectRegistry) (k : CameraId) (id : ObjectId) : Prop :=
  ∃ p r, s.partitions.get? k = some p ∧ p.recordFor id = some r ∧ r.lifecycle.isPresent = true

/-- In a run that closes memberships, every member is present in every state reached, and so
    only present objects are counted. -/
theorem no_ghosts_counted (wiring : RegistryWiring) (actions : List RegistryAction)
    (hactions : Runs.Always (after wiring)
      (fun s action => action.ClosesMemberships wiring s) {} actions) :
    ∀ before, before <+: actions → ∀ k t,
      (run (after wiring) {} before).regions.get? k = some t →
      (∀ id, t.Member id → (run (after wiring) {} before).Present k id) ∧
      ∀ classes now, ∀ report ∈ t.occupancy classes now, ∀ id ∈ report.presentObjects,
        (run (after wiring) {} before).Present k id := by
  intro before hbefore k t ht
  have hempty : ObjectRegistry.Each wiring (fun _ => NoGhosts) {} := by
    rintro k id ⟨m, hm⟩
    cases hm
  have hreached := @Runs.reached_of_always _ _ _ (ObjectRegistry.Each wiring (fun _ => NoGhosts)) _
    (fun s action h hcloses => noGhosts_after h hcloses) {} hempty _ hactions _ hbefore
  have hmembers : ∀ id, t.Member id →
      (run (after wiring) {} before).Present k id := by
    intro id hmember
    have htracker : (run (after wiring) {} before).trackerOf k = t := by
      unfold trackerOf
      rw [ht]
      rfl
    obtain ⟨r, hr, hpresent⟩ := hreached k id (htracker.symm ▸ hmember)
    exact ⟨_, r, partition_of_recordFor hr, hr, hpresent⟩
  exact ⟨hmembers, fun classes now report hreport id hid =>
    hmembers id (RegionTracker.member_of_counted hreport hid)⟩

/-! ### A yard -/

def yard : Region where
  regionId := "yard"
  geometry := ⟨[⟨.finite 0, .finite 0⟩, ⟨.finite 1, .finite 0⟩, ⟨.finite 1, .finite 1⟩,
    ⟨.finite 0, .finite 1⟩], by decide +kernel⟩

def entering : List RegistryAction :=
  [.setRegions "north" [yard] ⟨0⟩, .call (.ingest "north" leftFrame ⟨0⟩)]

theorem entering_closes : Runs.Always (after (streetWiring promptPolicy))
    (fun s action => action.ClosesMemberships (streetWiring promptPolicy) s) {} entering := by
  refine ⟨trivial, ⟨⟨fun hpredicted => ?_, fun _ r hr => ?_⟩, wp_true _ _⟩, trivial⟩
  · exact absurd hpredicted (by decide +kernel)
  · -- Nobody is there to be shed.
    have hnobody : (frameWork (streetWiring promptPolicy) "north" leftFrame ⟨0⟩
        (after (streetWiring promptPolicy) {}
          (.setRegions "north" [yard] ⟨0⟩))).partition.shedNext.isNone = true := by
      decide +kernel
    rw [hr] at hnobody
    cases hnobody

/-- They are counted, and present. -/
theorem no_ghosts_counted_entering :
    ∃ t, (run (after (streetWiring promptPolicy)) {} entering).regions.get?
        "north" = some t ∧
      (∀ id, t.Member id →
        (run (after (streetWiring promptPolicy)) {} entering).Present
          "north" id) ∧
      ∀ classes now, ∀ report ∈ t.occupancy classes now, ∀ id ∈ report.presentObjects,
        (run (after (streetWiring promptPolicy)) {} entering).Present
          "north" id := by
  have htracked : ((run (after (streetWiring promptPolicy)) {}
      entering).regions.get? "north").isSome = true := by
    decide +kernel
  obtain ⟨t, ht⟩ := isSome_iff_exists.mp htracked
  exact ⟨t, ht, no_ghosts_counted (streetWiring promptPolicy) entering entering_closes entering
    (List.prefix_refl _) "north" t ht⟩

/-- Swept after twenty seconds they are dormant, and still counted. -/
theorem dormant_person_counted :
    ¬ ∀ before, before <+: entering ++ [.call (.sweep ⟨20000000000⟩)] → ∀ k t,
      (run (after (streetWiring promptPolicy)) {} before).regions.get? k =
        some t →
      (∀ id, t.Member id →
        (run (after (streetWiring promptPolicy)) {} before).Present k id) ∧
      ∀ classes now, ∀ report ∈ t.occupancy classes now, ∀ id ∈ report.presentObjects,
        (run (after (streetWiring promptPolicy)) {} before).Present k id := by
  intro hall
  have hcounted : ((run (after (streetWiring promptPolicy)) {}
      (entering ++ [.call (.sweep ⟨20000000000⟩)])).regions.get? "north").any (fun t =>
        (t.occupancy ∅ ⟨20000000000⟩).any (fun report =>
          (streetWiring promptPolicy).idAt 0 ⟨1000⟩ ∈ report.presentObjects)) = true := by
    decide +kernel
  have hdormant : ((run (after (streetWiring promptPolicy)) {}
      (entering ++ [.call (.sweep ⟨20000000000⟩)])).partitions.get? "north").all (fun p =>
        (p.recordFor ((streetWiring promptPolicy).idAt 0 ⟨1000⟩)).all (fun r =>
          r.lifecycle.isPresent = false)) = true := by decide +kernel
  obtain ⟨t, ht, hreports⟩ := (any_eq_true _ _).mp hcounted
  obtain ⟨report, hreport, hid⟩ := List.any_eq_true.mp hreports
  obtain ⟨p, r, hp, hr, hpresent⟩ := (hall _ (List.prefix_refl _) "north" t ht).2 ∅
    ⟨20000000000⟩ report hreport _ (by simpa using hid)
  have habsent := (Option.all_eq_true _ _).mp ((Option.all_eq_true _ _).mp hdormant p hp) r hr
  simp [hpresent] at habsent

end VisionOs.Registry
