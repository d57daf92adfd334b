/-
  Does a track that is measured in the next frame keep its object when the timer sweeps the camera
  in between?  A sweep closes the binding of every record that it moves; one that moves no record
  bound to a measured track leaves their owners alone, and so does the frame.
-/
import VisionOs.Lib.Runs
import VisionOs.Registry.Specs

namespace VisionOs.Registry

open Core Lib Effect RegistryPartition ObjectRecord Option List Work

variable {wiring : RegistryWiring} {w : Work} {id : ObjectId} {track : Track} {now : Instant}
  {crossingEpoch : Bool} {trackId : TrackId} {p p' p'' : RegistryPartition}

/-- Nobody new owns the track, and a kept owner stays one. -/
structure Holds (kept : ObjectId → Prop) (trackId : TrackId) (p p' : RegistryPartition) :
    Prop where
  fewer : ∀ id, p'.Owner trackId id → p.Owner trackId id
  stay : ∀ id, kept id → p.Owner trackId id → p'.Owner trackId id

variable {kept : ObjectId → Prop}

theorem Holds.refl (kept : ObjectId → Prop) (trackId : TrackId) (p : RegistryPartition) :
    Holds kept trackId p p :=
  ⟨fun _ h => h, fun _ _ h => h⟩

theorem Holds.trans (h : Holds kept trackId p p') (h' : Holds kept trackId p' p'') :
    Holds kept trackId p p'' where
  fewer id howner := h.fewer id (h'.fewer id howner)
  stay id hkept howner := h'.stay id hkept (h.stay id hkept howner)

theorem owner_congr (h : p'.recordFor id = p.recordFor id) :
    p'.Owner trackId id ↔ p.Owner trackId id := by
  unfold RegistryPartition.Owner
  rw [h]

variable {r : ObjectRecord}

theorem owner_iff (hr : p.recordFor id = some r) : p.Owner trackId id ↔ r.owns trackId = true := by
  unfold RegistryPartition.Owner
  rw [hr]
  simp

theorem not_owner_of_none (h : p.recordFor id = none) : ¬ p.Owner trackId id := by
  rintro ⟨r, hr, -⟩
  rw [h] at hr
  cases hr

theorem Holds.of_change (hothers : ∀ k, k ≠ id → p'.recordFor k = p.recordFor k)
    (hfewer : p'.Owner trackId id → p.Owner trackId id)
    (hstay : kept id → p.Owner trackId id → p'.Owner trackId id) : Holds kept trackId p p' where
  fewer k howner := by
    by_cases hk : k = id
    · subst hk
      exact hfewer howner
    · exact (owner_congr (hothers k hk)).mp howner
  stay k hkept howner := by
    by_cases hk : k = id
    · subst hk
      exact hstay hkept howner
    · exact (owner_congr (hothers k hk)).mpr howner

variable {r' : ObjectRecord}

theorem Holds.of_unbound
    (hothers : ∀ k, k ≠ id → p'.recordFor k = p.recordFor k) (hr : p.recordFor id = some r)
    (hr' : p'.recordFor id = some r') (hbefore : r.boundTrack ≠ some trackId)
    (hafter : r'.boundTrack ≠ some trackId) : Holds kept trackId p p' := by
  refine .of_change hothers (fun howner => ?_) (fun _ howner => ?_)
  · exact absurd (owns_iff.mp ((owner_iff hr').mp howner)).1 hafter
  · exact absurd (owns_iff.mp ((owner_iff hr).mp howner)).1 hbefore

theorem Holds.of_bound {bound : TrackId}
    (hothers : ∀ k, k ≠ id → p'.recordFor k = p.recordFor k) (hr : p.recordFor id = some r)
    (hr' : p'.recordFor id = some r') (howns : r.owns bound = true)
    (hbound' : r'.boundTrack = some bound)
    (hlive' : bound = trackId → r'.lifecycle.isTerminal = false) :
    Holds kept trackId p p' := by
  have hbound := (owns_iff.mp howns).1
  refine .of_change hothers (fun howner => ?_) (fun _ howner => ?_)
  · have hthis := (owns_iff.mp ((owner_iff hr').mp howner)).1
    have heq : bound = trackId := some.inj (hbound'.symm.trans hthis)
    rw [← heq]
    exact (owner_iff hr).mpr howns
  · have hthis := (owns_iff.mp ((owner_iff hr).mp howner)).1
    have heq : bound = trackId := some.inj (hbound.symm.trans hthis)
    rw [← heq]
    exact (owner_iff hr').mpr (owns_iff.mpr ⟨hbound', hlive' heq⟩)

/-! ## Folding a track -/

/-- Nobody is bound to the track, and nobody re-enters by it. -/
def Unmatched (wiring : RegistryWiring) (track : Track) (now : Instant) (crossingEpoch : Bool)
    (p : RegistryPartition) : Prop :=
  p.byTrack track.trackId = none ∧
    ∃ d, reentryOf wiring track now crossingEpoch p = .ok d ∧ d.matched = none

/-- A new object takes neither the place nor the id of a kept one. -/
def Spares (wiring : RegistryWiring) (now : Instant) (crossingEpoch : Bool)
    (kept : ObjectId → Prop) (track : Track) (w : Work) : Prop :=
  Unmatched wiring track now crossingEpoch w.partition →
    (∀ r, w.partition.shedNext = some r → ¬ kept r.objectId) ∧
    ¬ kept (wiring.idAt w.draws now)

theorem shedOldest_draws (w : Work) : w.shedOldest.draws = w.draws := by
  unfold shedOldest
  split <;> rfl

theorem recordFor_shedOldest {k : ObjectId}
    (h : w.shedOldest.partition.recordFor k = some r) : w.partition.recordFor k = some r := by
  unfold shedOldest at h
  cases hnext : w.partition.shedNext with
  | none =>
    rw [hnext] at h
    exact h
  | some shed =>
    rw [hnext] at h
    have hkept : (w.partition.evict shed.objectId).recordFor k = some r := h
    rw [recordFor_evict] at hkept
    split at hkept
    · cases hkept
    · exact hkept

theorem Holds.shedOldest
    (hspares : ∀ r, w.partition.shedNext = some r → ¬ kept r.objectId) :
    Holds kept trackId w.partition w.shedOldest.partition := by
  unfold Work.shedOldest
  cases hnext : w.partition.shedNext with
  | none => exact .refl ..
  | some r =>
    have hgone : (w.partition.evict r.objectId).recordFor r.objectId = none :=
      (recordFor_evict ..).trans (if_pos rfl)
    refine .of_change (fun k hk => (recordFor_evict ..).trans (if_neg hk))
      (fun howner => absurd howner (not_owner_of_none hgone)) (fun hkept => ?_)
    exact absurd hkept (hspares r hnext)

variable {wasCreated : Bool}

theorem drive_holds
    (hr : w.partition.recordFor id = some r) (hbound : r.boundTrack ≠ some trackId) :
    wp (drive wiring track now id wasCreated)
      (fun _ w' => Holds kept trackId w.partition w'.partition)
      (fun _ w' => Holds kept trackId w.partition w'.partition) w := by
  refine wp_mono ?_ ?_ (drive_spec hr)
  · rintro - w' ⟨t, -, hmoved, hrecord⟩
    exact .of_unbound hmoved.others hr hrecord hbound hbound
  · rintro exc w' ⟨-, rfl⟩
    exact .refl ..

theorem continued_holds (hby : w.partition.byTrack track.trackId = some r)
    (hmeasured : track.trackId = trackId → track.isPredicted = false) :
    wp (drive wiring track now r.objectId false)
      (fun _ w' => Holds kept trackId w.partition w'.partition)
      (fun _ w' => Holds kept trackId w.partition w'.partition)
      { w with partition := w.partition.observe r.objectId (measuredOf track) now } := by
  obtain ⟨hr, howns, -⟩ := byTrack_eq_some_iff.mp hby
  obtain ⟨hbound, hlive⟩ := owns_iff.mp howns
  obtain ⟨⟨r', hr', hobserved⟩, hsame⟩ :=
    recordFor_observe hr (measuredOf track) now
  have hbound' : r'.boundTrack = some track.trackId :=
    (boundTrack_congr hobserved.bindings).trans hbound
  refine wp_mono ?_ ?_ (drive_spec hr')
  · rintro - w' ⟨t, ht, hmoved, hrecord⟩
    refine .of_bound (fun k hk => (hmoved.others k hk).trans (hsame k hk)) hr hrecord howns
      hbound' (fun heq => ?_)
    -- A measured object ends active or provisional.
    obtain ⟨-, -, hedge⟩ := trackTransition_ok ht
    rcases hedge with h | ⟨-, h⟩ | ⟨h, -⟩
    · rw [h]
      rfl
    · rw [h]
      rfl
    · rw [hmeasured heq] at h
      cases h
  · rintro exc w' ⟨-, rfl⟩
    refine .of_bound hsame hr hr' howns hbound' (fun _ => ?_)
    rw [hobserved.lifecycle]
    exact hlive

theorem opened_holds {method : BindingMethod} {confidence : PyFloat}
    (wasCreated : Bool) (hother : track.trackId ≠ trackId)
    (hr : w.partition.recordFor id = some r) (hfree : r.boundTrack ≠ some trackId) :
    wp (openBinding wiring id track.trackId method confidence now)
      (fun _ => wp (drive wiring track now id wasCreated)
        (fun _ w' => Holds kept trackId w.partition w'.partition)
        (fun _ w' => Holds kept trackId w.partition w'.partition))
      (fun _ w' => Holds kept trackId w.partition w'.partition) w := by
  refine wp_mono ?_ ?_ (openBinding_spec hr)
  · intro bindingId w₁ hbound
    obtain ⟨closed, binding, _, -, htrack, -, hopen, hcurrent, hrecord⟩ := hbound.record
    have hafter : ∀ r' : ObjectRecord, r'.bindings = closed ++ [binding] →
        r'.boundTrack ≠ some trackId := by
      intro r' hr' hthis
      rw [boundTrack_append hr' hopen hcurrent, htrack] at hthis
      exact hother (some.inj hthis)
    have hfirst : Holds kept trackId w.partition w₁.partition :=
      .of_unbound hbound.others hr hrecord hfree (hafter _ rfl)
    exact wp_mono (fun _ _ h => hfirst.trans h) (fun _ _ h => hfirst.trans h)
      (drive_holds hrecord (hafter _ rfl))
  · rintro exc w' ⟨hreleased, -⟩
    obtain ⟨bindings, hbindings, hrecord⟩ := hreleased.record
    refine .of_unbound hreleased.others hr hrecord hfree ?_
    rcases hbindings with rfl | hclosed
    · exact hfree
    · rw [boundTrack_of_closed hclosed]
      exact nofun

theorem reentry_unbound {d : BindingDecision} {c : Candidate}
    (hd : reentryOf wiring track now crossingEpoch p = .ok d) (hc : d.matched = some c) :
    ∃ r, p.recordFor c.objectId = some r ∧ r.boundTrack = none := by
  obtain ⟨r, hr, hconsidered⟩ := bindReentry_considered hd (.inl hc)
  refine ⟨r, ?_, ?_⟩
  · rw [hconsidered.objectId]
    exact mem_records.mp hr
  · have hreenterable := hconsidered.reenterable
    simpa using (Bool.and_eq_true_iff.mp hreenterable).2

theorem foldTrack_holds
    (hown : track.trackId = trackId → track.isPredicted = false ∧
      ∃ r, w.partition.byTrack trackId = some r)
    (hspares : Spares wiring now crossingEpoch kept track w) :
    wp (foldTrack wiring now crossingEpoch track)
      (fun _ w' => Holds kept trackId w.partition w'.partition)
      (fun _ w' => Holds kept trackId w.partition w'.partition) w := by
  -- A track without an object is another one.
  have hother : w.partition.byTrack track.trackId = none → track.trackId ≠ trackId := by
    intro hnone heq
    obtain ⟨-, r, hr⟩ := hown heq
    rw [heq, hr] at hnone
    cases hnone
  unfold foldTrack
  rw [wp_bind]
  refine wp_absorb (fun r hby => ?_) (fun exc _ _ => .refl ..) (fun d c hnone hd hc => ?_)
    (fun d hnone hd hunmatched => ?_)
  · exact continued_holds hby (fun heq => (hown heq).1)
  · obtain ⟨r, hr, hfree⟩ := reentry_unbound hd hc
    obtain ⟨⟨r', hr', hobserved⟩, hsame⟩ :=
      recordFor_observe hr (measuredOf track) now
    have hfree' : r'.boundTrack = none :=
      (boundTrack_congr hobserved.bindings).trans hfree
    have hfirst : Holds kept trackId w.partition
        (w.partition.observe c.objectId (measuredOf track) now) :=
      .of_unbound hsame hr hr' (by rw [hfree]; exact nofun) (by rw [hfree']; exact nofun)
    refine wp_mono (fun _ w₁ h => ?_) (fun _ _ h => hfirst.trans h)
      (opened_holds false (hother hnone) hr' (by rw [hfree']; exact nofun))
    exact wp_mono (fun _ _ h => hfirst.trans h) (fun _ _ h => hfirst.trans h) h
  · obtain ⟨hshed, hdrawn⟩ := hspares ⟨hnone, d, hd, hunmatched⟩
    have hfirst : Holds kept trackId w.partition w.shedOldest.partition := .shedOldest hshed
    refine wp_absorbNew hfirst (fun id w₁ hminted => ?_)
    -- The new record is bound to nothing yet.
    have hfree : (w.shedOldest.partition.newRecord id (sightingOf track) now).boundTrack
        ≠ some trackId := nofun
    have hid : ¬ kept id := by
      rw [hminted.drawn, shedOldest_draws]
      exact hdrawn
    have hsecond : Holds kept trackId w.shedOldest.partition w₁.partition := by
      refine .of_change hminted.others (fun howner => ?_) (fun hkept => absurd hkept hid)
      exact absurd (owns_iff.mp ((owner_iff hminted.record).mp howner)).1 hfree
    have hboth := hfirst.trans hsecond
    refine wp_mono (fun _ w₂ h => ?_) (fun _ _ h => hboth.trans h)
      (opened_holds true (hother hnone) hminted.record hfree)
    exact wp_mono (fun _ _ h => hboth.trans h) (fun _ _ h => hboth.trans h) h

theorem Holds.byTrack (h : Holds kept trackId p p')
    (hby : p.byTrack trackId = some r) (hkept : kept r.objectId) :
    ∃ r', p'.byTrack trackId = some r' ∧ r'.objectId = r.objectId := by
  obtain ⟨hr, howns, hleast⟩ := byTrack_eq_some_iff.mp hby
  obtain ⟨r', hr', howns'⟩ := h.stay r.objectId hkept ⟨r, hr, howns⟩
  have hid := objectId_of_recordFor hr'
  refine ⟨r', byTrack_eq_some_iff.mpr ⟨?_, howns', fun k hk => ?_⟩, hid⟩
  · rw [hid]
    exact hr'
  · rw [hid]
    exact hleast k (h.fewer k hk)

/-! ## Which objects have been dealt with -/

theorem drive_marks : wp (drive wiring track now id wasCreated)
      (fun _ w' => w'.touched = w.touched ++ [id] ∧
        w'.created = (w.touch id wasCreated).created)
      (fun _ _ => True) w := by
  cases hr : w.partition.recordFor id with
  | some r =>
    refine wp_mono ?_ (fun _ _ _ => trivial) (drive_spec hr)
    rintro - w' ⟨t, -, hmoved, -⟩
    exact ⟨hmoved.touched, hmoved.created⟩
  | none =>
    unfold drive
    rw [wp_bind, wp_modify, wp_bind, wp_read]
    have hnone : (w.touch id wasCreated).partition.recordFor id = none := hr
    simp only [hnone]
    exact ⟨rfl, rfl⟩

theorem foldTrack_touched :
    wp (foldTrack wiring now crossingEpoch track)
      (fun _ w' => (∀ k ∈ w.touched, k ∈ w'.touched) ∧
        ∀ r, w.partition.byTrack track.trackId = some r → r.objectId ∈ w'.touched)
      (fun _ _ => True) w := by
  -- Whatever came before, driving an object adds it to those dealt with.
  have hdriven : ∀ (w₁ : Work) (k : ObjectId) (wasCreated : Bool), w₁.touched = w.touched →
      wp (drive wiring track now k wasCreated)
        (fun _ w' => (∀ k ∈ w.touched, k ∈ w'.touched) ∧ k ∈ w'.touched) (fun _ _ => True) w₁ := by
    intro w₁ k wasCreated hsame
    refine wp_mono (fun _ w' h => ?_) (fun _ _ _ => trivial) drive_marks
    rw [h.1, hsame]
    exact ⟨fun k hk => mem_append_left _ hk, by simp⟩
  unfold foldTrack
  rw [wp_bind]
  refine wp_absorb (fun r hby => ?_) (fun _ _ _ => trivial) (fun d c hnone hd hc => ?_)
    (fun d hnone hd hunmatched => ?_)
  · refine wp_mono (fun _ w' h => ⟨h.1, fun r' hr' => ?_⟩) (fun _ _ _ => trivial)
      (hdriven _ r.objectId false rfl)
    rw [hby] at hr'
    rw [← some.inj hr']
    exact h.2
  · obtain ⟨r, hr, -⟩ := reentry_unbound hd hc
    obtain ⟨⟨r', hr', -⟩, -⟩ := recordFor_observe hr (measuredOf track) now
    refine wp_mono (fun _ w₁ h => ?_) (fun _ _ _ => trivial) (openBinding_spec hr')
    have hsame : w₁.touched = w.touched := by rw [h.rest]
    refine wp_mono (fun _ w' h => ⟨h.1, fun r' hr' => ?_⟩) (fun _ _ _ => trivial)
      (hdriven w₁ c.objectId false hsame)
    rw [hnone] at hr'
    cases hr'
  · have hshed : w.shedOldest.touched = w.touched := by
      unfold shedOldest
      split <;> rfl
    refine wp_absorbNew ⟨fun k hk => ?_, fun r hr => ?_⟩ (fun k w₁ hminted => ?_)
    · rw [hshed]
      exact hk
    · rw [hnone] at hr
      cases hr
    · refine wp_mono (fun _ w₂ h => ?_) (fun _ _ _ => trivial)
        (openBinding_spec hminted.record)
      have hsame : w₂.touched = w.touched := by
        rw [h.rest]
        rw [hminted.rest]
        exact hshed
      refine wp_mono (fun _ w' h => ⟨h.1, fun r' hr' => ?_⟩) (fun _ _ _ => trivial)
        (hdriven w₂ k true hsame)
      rw [hnone] at hr'
      cases hr'

theorem foldTrack_created (hspares : Spares wiring now crossingEpoch kept track w) :
    wp (foldTrack wiring now crossingEpoch track)
      (fun _ w' => ∀ k ∈ w'.created, k ∈ w.created ∨ ¬ kept k) (fun _ _ => True) w := by
  -- An object that was there before is not reported as new.
  have holder : ∀ (w₁ : Work) (k : ObjectId), w₁.created = w.created →
      wp (drive wiring track now k false) (fun _ w' => ∀ k ∈ w'.created, k ∈ w.created ∨ ¬ kept k)
        (fun _ _ => True) w₁ := by
    intro w₁ k hsame
    refine wp_mono (fun _ w' h k hk => .inl ?_) (fun _ _ _ => trivial) drive_marks
    rw [h.2] at hk
    rw [← hsame]
    exact hk
  unfold foldTrack
  rw [wp_bind]
  refine wp_absorb (fun r hby => holder _ _ rfl) (fun _ _ _ => trivial)
    (fun d c hnone hd hc => ?_) (fun d hnone hd hunmatched => ?_)
  · obtain ⟨r, hr, -⟩ := reentry_unbound hd hc
    obtain ⟨⟨r', hr', -⟩, -⟩ := recordFor_observe hr (measuredOf track) now
    refine wp_mono (fun _ w₁ h => holder w₁ c.objectId ?_) (fun _ _ _ => trivial)
      (openBinding_spec hr')
    rw [h.rest]
  · obtain ⟨-, hdrawn⟩ := hspares ⟨hnone, d, hd, hunmatched⟩
    have hshed : w.shedOldest.created = w.created := by
      unfold shedOldest
      split <;> rfl
    refine wp_absorbNew (fun k hk => .inl (by rw [← hshed]; exact hk)) (fun id w₁ hminted => ?_)
    refine wp_mono (fun _ w₂ h => ?_) (fun _ _ _ => trivial) (openBinding_spec hminted.record)
    refine wp_mono (fun _ w' h' k hk => ?_) (fun _ _ _ => trivial) drive_marks
    have hsame : w₂.created = w.created := by
      rw [h.rest]
      rw [hminted.rest]
      exact hshed
    rw [h'.2] at hk
    have hcases : k ∈ w.created ∨ k = id := by
      rw [← hsame]
      simpa [touch] using hk
    rcases hcases with hbefore | rfl
    · exact .inl hbefore
    · refine .inr ?_
      rw [hminted.drawn, shedOldest_draws]
      exact hdrawn

/-! ## A whole frame -/

theorem foldTracks_holds {tracks : List Track}
    (hmeasured : ∀ t ∈ tracks, t.trackId = trackId → t.isPredicted = false)
    (hby : w.partition.byTrack trackId = some r) (hkept : kept r.objectId)
    (halong : Along (foldTrack wiring now crossingEpoch) (Spares wiring now crossingEpoch kept)
      tracks w) :
    wp (forEach (foldTrack wiring now crossingEpoch) tracks)
      (fun _ w' => Holds kept trackId w.partition w'.partition ∧
        ((∃ t ∈ tracks, t.trackId = trackId) → r.objectId ∈ w'.touched))
      (fun _ w' => Holds kept trackId w.partition w'.partition) w := by
  -- The object is dealt with, or its track is still to come.
  have hloop := @wp_forEach_along PyException Work Track
    (fun _ w' => Holds kept trackId w.partition w'.partition) w
    (fun rest w' => Holds kept trackId w.partition w'.partition ∧
      ((∃ t ∈ tracks, t.trackId = trackId) →
        (∃ t ∈ rest, t.trackId = trackId) ∨ r.objectId ∈ w'.touched))
    (Spares wiring now crossingEpoch kept) (foldTrack wiring now crossingEpoch) tracks
    (by
      rintro t rest ⟨before, hsplit⟩ w' ⟨hholds, htouched⟩ hspares
      obtain ⟨r', hby', hid⟩ := hholds.byTrack hby hkept
      have hmem : t ∈ tracks := by
        rw [hsplit]
        simp
      refine wp_mono (fun _ w'' h => ⟨hholds.trans h.1, fun hsome => ?_⟩)
        (fun _ w'' h => hholds.trans h.1)
        (wp_and (foldTrack_holds (fun heq => ⟨hmeasured t hmem heq, r', hby'⟩) hspares)
          foldTrack_touched)
      rcases htouched hsome with ⟨t', ht', heq⟩ | hdone
      · rcases mem_cons.mp ht' with rfl | ht'
        · refine .inr ?_
          rw [← hid]
          exact h.2.2 r' (by rw [heq]; exact hby')
        · exact .inl ⟨t', ht', heq⟩
      · exact .inr (h.2.1 _ hdone))
    halong ⟨.refl .., fun hsome => .inl hsome⟩
  refine wp_mono (fun _ w' h => ⟨h.1, fun hsome => ?_⟩) (fun _ _ h => h) hloop
  rcases h.2 hsome with ⟨t, ht, -⟩ | hdone
  · cases ht
  · exact hdone

theorem ageRecord_holds :
    wp (ageRecord wiring now id)
      (fun _ w' => Holds (· ∈ w.touched) trackId w.partition w'.partition ∧
        w'.touched = w.touched)
      (fun _ w' => Holds (· ∈ w.touched) trackId w.partition w'.partition ∧
        w'.touched = w.touched) w := by
  refine wp_mono ?_ ?_ ageRecord_spec
  · rintro - w' (⟨rfl, -⟩ | ⟨r, t, haged⟩)
    · exact ⟨.refl .., rfl⟩
    · obtain ⟨closed, r', hclosed, hobserved, hrecord⟩ := haged.record
      have hfree : r'.boundTrack = none := by
        apply boundTrack_of_closed
        rw [hobserved.bindings]
        exact hclosed
      refine ⟨.of_change haged.others (fun howner => ?_) (fun hdone => ?_), haged.touched⟩
      · have hthis := (owns_iff.mp ((owner_iff hrecord).mp howner)).1
        have hno : r'.boundTrack = some trackId := hthis
        rw [hfree] at hno
        cases hno
      · exact absurd hdone haged.untouched
  · rintro - w' ⟨rfl, -⟩
    exact ⟨.refl .., rfl⟩

theorem foldFrame_keeps {tracks : List Track} {r : ObjectRecord}
    (hsome : ∃ t ∈ tracks, t.trackId = trackId)
    (hmeasured : ∀ t ∈ tracks, t.trackId = trackId → t.isPredicted = false)
    (hby : w.partition.byTrack trackId = some r) (hkept : kept r.objectId)
    (halong : Along (foldTrack wiring now crossingEpoch) (Spares wiring now crossingEpoch kept)
      tracks w) :
    let keeps := fun w' : Work =>
      (∃ r', w'.partition.byTrack trackId = some r' ∧ r'.objectId = r.objectId) ∧
      ∀ id, w'.partition.Owner trackId id → w.partition.Owner trackId id
    wp (foldFrame wiring tracks now crossingEpoch) (fun _ => keeps) (fun _ => keeps) w := by
  intro keeps
  unfold foldFrame
  rw [wp_bind]
  refine wp_mono (fun _ w₁ h => ?_) (fun _ w₁ h => ⟨h.byTrack hby hkept, h.fewer⟩)
    (foldTracks_holds hmeasured hby hkept halong)
  obtain ⟨hfirst, htouched⟩ := h
  obtain ⟨r₁, hby₁, hid₁⟩ := hfirst.byTrack hby hkept
  -- The object has been dealt with, so ageing leaves it.
  have hdone : r₁.objectId ∈ w₁.touched := by
    rw [hid₁]
    exact htouched hsome
  have hkeeps : ∀ w₂ : Work, Holds (· ∈ w₁.touched) trackId w₁.partition w₂.partition →
      keeps w₂ := by
    intro w₂ hsecond
    obtain ⟨r₂, hby₂, hid₂⟩ := hsecond.byTrack hby₁ hdone
    exact ⟨⟨r₂, hby₂, hid₂.trans hid₁⟩, fun id hid => hfirst.fewer id (hsecond.fewer id hid)⟩
  rw [wp_bind, wp_read, wp_bind]
  have haged := @wp_forEach PyException Work ObjectId
    (fun _ w₂ => Holds (· ∈ w₁.touched) trackId w₁.partition w₂.partition ∧
      w₂.touched = w₁.touched) w₁
    (fun _ w₂ => Holds (· ∈ w₁.touched) trackId w₁.partition w₂.partition ∧
      w₂.touched = w₁.touched)
    (ageRecord wiring now) w₁.partition.ids
    (by
      rintro id rest - w₂ ⟨hholds, hsame⟩
      have hturn := @ageRecord_holds wiring w₂ id now trackId
      rw [hsame] at hturn
      exact wp_mono (fun _ _ h => ⟨hholds.trans h.1, h.2⟩) (fun _ _ h => ⟨hholds.trans h.1, h.2⟩)
        hturn)
    ⟨.refl .., rfl⟩
  refine wp_mono (fun _ w₂ h => ?_) (fun _ w₂ h => hkeeps w₂ h.1) haged
  rw [wp_bind, wp_read, wp_ofExcept]
  exact ⟨fun _ _ => hkeeps w₂ h.1, fun _ _ => hkeeps w₂ h.1⟩

theorem foldFrame_created {tracks : List Track}
    (halong : Along (foldTrack wiring now crossingEpoch) (Spares wiring now crossingEpoch kept)
      tracks w) :
    wp (foldFrame wiring tracks now crossingEpoch)
      (fun _ w' => ∀ k ∈ w'.created, k ∈ w.created ∨ ¬ kept k) (fun _ _ => True) w := by
  unfold foldFrame
  rw [wp_bind]
  have hfolded := @wp_forEach_along PyException Work Track (fun _ _ => True) w
    (fun _ w' => ∀ k ∈ w'.created, k ∈ w.created ∨ ¬ kept k)
    (Spares wiring now crossingEpoch kept) (foldTrack wiring now crossingEpoch) tracks
    (by
      rintro t rest - w' hcreated hspares
      refine wp_mono (fun _ w'' h k hk => ?_) (fun _ _ _ => trivial) (foldTrack_created hspares)
      exact (h k hk).elim (hcreated k) .inr)
    halong (fun _ hk => .inl hk)
  refine wp_mono (fun _ w₁ hcreated => ?_) (fun _ _ _ => trivial) hfolded
  rw [wp_bind, wp_read, wp_bind]
  -- Ageing creates nothing.
  have haged := @wp_forEach PyException Work ObjectId (fun _ _ => True) w₁
    (fun _ w₂ => w₂.created = w₁.created) (ageRecord wiring now) w₁.partition.ids
    (by
      rintro id rest - w₂ hsame
      refine wp_mono ?_ (fun _ _ _ => trivial) ageRecord_spec
      rintro - w₃ (⟨rfl, -⟩ | ⟨r, t, haged⟩)
      · exact hsame
      · exact haged.created.trans hsame)
    rfl
  refine wp_mono (fun _ w₂ hsame => ?_) (fun _ _ _ => trivial) haged
  rw [wp_bind, wp_read, wp_ofExcept]
  refine ⟨fun _ _ k hk => hcreated k ?_, fun _ _ => trivial⟩
  rw [← hsame]
  exact hk

/-! ## Sweeps in between -/

/-- At a moment, the horizons move no record that owns the track. -/
def Idle (wiring : RegistryWiring) (moment : Instant) (trackId : TrackId)
    (p : RegistryPartition) : Prop :=
  ∀ id r, p.recordFor id = some r → r.owns trackId = true →
    driveHorizons wiring.lifecycle r moment = .ok none

def SameOwners (trackId : TrackId) (p p' : RegistryPartition) : Prop :=
  ∀ id r, r.owns trackId = true → (p'.recordFor id = some r ↔ p.recordFor id = some r)

theorem SameOwners.trans (h : SameOwners trackId p p') (h' : SameOwners trackId p' p'') :
    SameOwners trackId p p'' :=
  fun id r howns => (h' id r howns).trans (h id r howns)

variable {moment : Instant}

theorem SameOwners.idle (h : SameOwners trackId p p')
    (hidle : Idle wiring moment trackId p) : Idle wiring moment trackId p' :=
  fun id r hr howns => hidle id r ((h id r howns).mp hr) howns

theorem SameOwners.owner (h : SameOwners trackId p p') :
    p'.Owner trackId id ↔ p.Owner trackId id := by
  constructor
  · rintro ⟨r, hr, howns⟩
    exact ⟨r, (h id r howns).mp hr, howns⟩
  · rintro ⟨r, hr, howns⟩
    exact ⟨r, (h id r howns).mpr hr, howns⟩

theorem SameOwners.byTrack (h : SameOwners trackId p p')
    (hby : p.byTrack trackId = some r) : p'.byTrack trackId = some r := by
  obtain ⟨hr, howns, hleast⟩ := byTrack_eq_some_iff.mp hby
  exact byTrack_eq_some_iff.mpr
    ⟨(h _ r howns).mpr hr, howns, fun k hk => hleast k (h.owner.mp hk)⟩

theorem SameOwners.of_change (hothers : ∀ k, k ≠ id → p'.recordFor k = p.recordFor k)
    (hbefore : ¬ p.Owner trackId id) (hafter : ¬ p'.Owner trackId id) :
    SameOwners trackId p p' := by
  intro k r howns
  by_cases hk : k = id
  · subst hk
    exact ⟨fun hr => absurd ⟨r, hr, howns⟩ hafter, fun hr => absurd ⟨r, hr, howns⟩ hbefore⟩
  · rw [hothers k hk]

theorem sweepRecord_owners (hidle : Idle wiring moment trackId w.partition) :
    wp (sweepRecord wiring moment id)
      (fun _ w' => SameOwners trackId w.partition w'.partition)
      (fun _ w' => SameOwners trackId w.partition w'.partition) w := by
  have hsame : SameOwners trackId w.partition w.partition := fun _ _ _ => Iff.rfl
  -- A record that moved was no owner, and is none without its bindings.
  have hswept : ∀ {r : ObjectRecord} {t : LifecycleTransition} {w' : Work},
      w.partition.recordFor id = some r →
      driveHorizons wiring.lifecycle r moment = .ok (some t) → SweptOver id r t w w' →
      ¬ w.partition.Owner trackId id ∧ ¬ w'.partition.Owner trackId id := by
    intro r t w' hr hmoves hover
    obtain ⟨closed, hclosed, hrecord⟩ := hover.record
    constructor
    · intro howner
      have hstays := hidle id r hr ((owner_iff hr).mp howner)
      rw [hmoves] at hstays
      cases hstays
    · intro howner
      have hthis := (owns_iff.mp ((owner_iff hrecord).mp howner)).1
      rw [boundTrack_of_closed hclosed] at hthis
      cases hthis
  refine wp_mono ?_ ?_ sweepRecord_spec
  · rintro - w' (⟨rfl, -⟩ | ⟨hdeparted, r, hr, hexpired⟩ |
      ⟨r, t, swept, hr, -, hmoves, hover, hend⟩)
    · exact hsame
    · -- An expired record owns nothing.
      refine .of_change hdeparted.others (fun howner => ?_) (not_owner_of_none hdeparted.gone)
      have hlive := (owns_iff.mp ((owner_iff hr).mp howner)).2
      rw [hexpired] at hlive
      cases hlive
    · obtain ⟨hbefore, hafter⟩ := hswept hr hmoves hover
      rcases hend with ⟨-, rfl⟩ | ⟨-, hdeparted⟩
      · exact .of_change hover.others hbefore hafter
      · exact .of_change (fun k hk => (hdeparted.others k hk).trans (hover.others k hk)) hbefore
          (not_owner_of_none hdeparted.gone)
  · rintro - w' ⟨r, hr, ⟨-, rfl, -⟩ | ⟨t, -, hmoves, ⟨rfl, -⟩ | ⟨-, hover, -⟩⟩⟩
    · exact hsame
    · exact hsame
    · obtain ⟨hbefore, hafter⟩ := hswept hr hmoves hover
      exact .of_change hover.others hbefore hafter

def StillOwned (trackId : TrackId) (cameraId : CameraId) (p : RegistryPartition)
    (s : ObjectRegistry) : Prop :=
  ∃ p', s.partitions.get? cameraId = some p' ∧ SameOwners trackId p p'

variable {cameraId : CameraId} {s : ObjectRegistry}

theorem sweep_owners
    (hidle : Idle wiring moment trackId p) (h : StillOwned trackId cameraId p s) :
    StillOwned trackId cameraId p (sweep wiring moment s).2 := by
  refine sweep_keeps (fun k q s hs hq => ?_) h
  obtain ⟨p', hp', hsame⟩ := hs
  by_cases hk : k = cameraId
  · subst hk
    rw [hq] at hp'
    obtain rfl := some.inj hp'
    have hloop := @wp_forEach PyException Work ObjectId
      (fun _ w' => SameOwners trackId p w'.partition) (s.work k q)
      (fun _ w' => SameOwners trackId p w'.partition) (sweepRecord wiring moment) q.ids
      (fun id rest _ w' hw' => wp_mono (fun _ _ h => hw'.trans h) (fun _ _ h => hw'.trans h)
        (sweepRecord_owners (hw'.idle hidle)))
      hsame
    have hkeep : ∀ w' : Work, SameOwners trackId p w'.partition →
        StillOwned trackId k p (s.keep k w') := by
      intro w' hw'
      exact ⟨w'.partition, by rw [partitions_keep, if_pos rfl], hw'⟩
    exact wp_mono (fun _ w' h => hkeep w' h) (fun _ w' h => hkeep w' h) hloop
  · -- The pass over another camera leaves this one.
    have hkeep : ∀ w' : Work, StillOwned trackId cameraId p (s.keep k w') := by
      intro w'
      exact ⟨p', by rw [partitions_keep, if_neg hk]; exact hp', hsame⟩
    exact wp_mono (fun _ w' _ => hkeep w') (fun _ w' _ => hkeep w') (wp_true _ _)

def sweeps (wiring : RegistryWiring) (s : ObjectRegistry) (moments : List Instant) :
    ObjectRegistry :=
  Runs.run (fun s moment => (sweep wiring moment s).2) s moments

theorem sweeps_owners {moments : List Instant}
    (hidle : ∀ moment ∈ moments, Idle wiring moment trackId p)
    (h : StillOwned trackId cameraId p s) :
    StillOwned trackId cameraId p (sweeps wiring s moments) := by
  unfold sweeps
  induction moments generalizing s with
  | nil => exact h
  | cons moment rest ih =>
    rw [Runs.run_cons]
    exact ih (fun m hm => hidle m (mem_cons_of_mem _ hm))
      (sweep_owners (hidle moment (by simp)) h)

/-! ## The next frame -/

/-- The frame measures a track: it has it, and does not predict it. -/
def Measures (update : TrackUpdate) (trackId : TrackId) : Prop :=
  (∃ t ∈ update.active, t.trackId = trackId) ∧
    ∀ t ∈ update.active, t.trackId = trackId → t.isPredicted = false

/-- The objects that are bound to some track the frame measures. -/
def MeasuredOwner (p : RegistryPartition) (update : TrackUpdate) (id : ObjectId) : Prop :=
  ∃ trackId, Measures update trackId ∧ p.Owner trackId id

/-- None of some objects loses its place to a track of the frame. -/
def FrameSpares (wiring : RegistryWiring) (cameraId : CameraId) (update : TrackUpdate)
    (clock : Instant) (kept : ObjectId → Prop) (s : ObjectRegistry) : Prop :=
  let now := s.advanceTime cameraId update clock
  let crossingEpoch := crossesEpoch s cameraId update
  Along (foldTrack wiring now crossingEpoch) (Spares wiring now crossingEpoch kept)
    update.active (frameWork wiring cameraId update clock s)

def ObjectRegistry.boundObject (s : ObjectRegistry) (cameraId : CameraId) (trackId : TrackId) :
    Option ObjectId := do
  let p ← s.partitions.get? cameraId
  let r ← p.byTrack trackId
  return r.objectId

/-- The track is the object's, at its camera. -/
def ObjectRegistry.Binds (s : ObjectRegistry) (cameraId : CameraId) (trackId : TrackId)
    (id : ObjectId) : Prop :=
  ∃ p, s.partitions.get? cameraId = some p ∧ p.Owner trackId id

section NextFrame

variable {s : ObjectRegistry} {cameraId : CameraId} {update : TrackUpdate} {clock : Instant}

variable {r : ObjectRecord}

theorem boundObject_eq (hp : s.partitions.get? cameraId = some p)
    (hby : p.byTrack trackId = some r) :
    s.boundObject cameraId trackId = some r.objectId := by
  show ((s.partitions.get? cameraId).bind fun p =>
    (p.byTrack trackId).bind fun r => some r.objectId) = _
  rw [hp, bind_some, hby, bind_some]

theorem frameWork_partition (hp : s.partitions.get? cameraId = some p) :
    (frameWork wiring cameraId update clock s).partition = p := by
  unfold frameWork ObjectRegistry.work
  simp only [hp, getD_some]

theorem ingest_keeps (hp : s.partitions.get? cameraId = some p)
    (hmeasures : Measures update trackId) (hby : p.byTrack trackId = some r)
    (howners : ∀ id, p.Owner trackId id → kept id)
    (hspares : FrameSpares wiring cameraId update clock kept s) :
    let result := ingest wiring cameraId update clock s
    result.2.boundObject cameraId trackId = some r.objectId ∧
    (∀ id, result.2.Binds cameraId trackId id → p.Owner trackId id) ∧
    ∀ id ∈ result.1.created, ¬ result.2.Binds cameraId trackId id := by
  intro result
  have hwork : (frameWork wiring cameraId update clock s).partition = p := frameWork_partition hp
  obtain ⟨hr, howns, -⟩ := byTrack_eq_some_iff.mp hby
  have hkept : kept r.objectId := howners r.objectId ⟨r, hr, howns⟩
  have hkeeps := @foldFrame_keeps wiring _ (s.advanceTime cameraId update clock)
    (crossesEpoch s cameraId update) trackId kept update.active r hmeasures.1 hmeasures.2
    (by rw [hwork]; exact hby) hkept hspares
  have hcreated := @foldFrame_created wiring _ (s.advanceTime cameraId update clock)
    (crossesEpoch s cameraId update) kept update.active hspares
  rw [hwork] at hkeeps
  obtain ⟨p', hp', ⟨⟨r', hby', hid⟩, hfewer⟩, hnew⟩ := @ingest_rule wiring s cameraId update clock
    (fun result => ∃ p', result.2.partitions.get? cameraId = some p' ∧
      ((∃ r', p'.byTrack trackId = some r' ∧ r'.objectId = r.objectId) ∧
        ∀ id, p'.Owner trackId id → p.Owner trackId id) ∧
      ∀ id ∈ result.1.created, ¬ kept id)
    (by
      refine wp_mono (fun objects w' h => ?_) (fun exc w' h => ?_) (wp_and hkeeps hcreated)
      · refine ⟨w'.partition, (partitions_keep ..).trans (if_pos rfl), h.1, fun id hid => ?_⟩
        -- Nothing had been created when the frame began.
        exact (h.2 id hid).resolve_left (by exact not_mem_nil)
      · exact ⟨w'.partition, (partitions_keep ..).trans (if_pos rfl), h.1, nofun⟩)
  have hbinds : ∀ id, result.2.Binds cameraId trackId id → p.Owner trackId id := by
    rintro id ⟨q, hq, howner⟩
    obtain rfl := some.inj (hq.symm.trans hp')
    exact hfewer id howner
  refine ⟨?_, hbinds, fun id hid hbound => hnew id hid (howners id (hbinds id hbound))⟩
  rw [boundObject_eq hp' hby', hid]

/-- Sweeps between two frames leave every track that the next frame measures with its object
    and create none for it, as without the sweeps, when they move no record that is bound to
    such a track and the frame, after the sweeps or without, takes no such record's place. -/
theorem sweeps_keep_bindings (wiring : RegistryWiring) (s : ObjectRegistry)
    (cameraId : CameraId) (update : TrackUpdate) (clock : Instant) (moments : List Instant)
    (p : RegistryPartition) (hp : s.partitions.get? cameraId = some p)
    (hidle : ∀ trackId, Measures update trackId →
      ∀ moment ∈ moments, Idle wiring moment trackId p)
    (hbare : FrameSpares wiring cameraId update clock (MeasuredOwner p update) s)
    (hswept : FrameSpares wiring cameraId update clock (MeasuredOwner p update)
      (sweeps wiring s moments)) :
    ∀ trackId r, Measures update trackId → p.byTrack trackId = some r →
      let bare := ingest wiring cameraId update clock s
      let after := ingest wiring cameraId update clock (sweeps wiring s moments)
      after.2.boundObject cameraId trackId = bare.2.boundObject cameraId trackId ∧
      after.2.boundObject cameraId trackId = some r.objectId ∧
      (∀ id, after.2.Binds cameraId trackId id → p.Owner trackId id) ∧
      ∀ id ∈ after.1.created, ¬ after.2.Binds cameraId trackId id := by
  intro trackId r hmeasures hby bare after
  have howners : ∀ id, p.Owner trackId id → MeasuredOwner p update id :=
    fun id howner => ⟨trackId, hmeasures, howner⟩
  obtain ⟨p', hp', hsame⟩ : StillOwned trackId cameraId p (sweeps wiring s moments) :=
    sweeps_owners (hidle trackId hmeasures) ⟨p, hp, fun _ _ _ => Iff.rfl⟩
  obtain ⟨hobject, hbinds, hcreated⟩ := ingest_keeps hp' hmeasures (hsame.byTrack hby)
    (fun id howner => howners id (hsame.owner.mp howner)) hswept
  have hbareObject := (ingest_keeps hp hmeasures hby howners hbare).1
  refine ⟨hobject.trans hbareObject.symm, hobject, fun id hid => ?_, hcreated⟩
  exact hsame.owner.mp (hbinds id hid)

end NextFrame

/-! ### Somebody in a street -/

def axisHypot : PyFloat → PyFloat → PyFloat
  | .finite p, .finite q => .finite (max |p| |q|)
  | _, _ => .posInf

def streetProvenance : Provenance where
  producerModule := "object_registry"
  producerVersion := "1.0.0"
  configRevision := "revision"
  accepted := rfl

/-- A registry with the defaults of everything but the lifecycle. -/
def streetWiring (lifecycle : LifecyclePolicy) : RegistryWiring where
  config := { history_pos := by decide, margin_inUnit := by decide +kernel }
  tenantId := "tenant"
  siteId := "site"
  provenance := streetProvenance
  lifecycle
  binding := ⟨{}, by decide +kernel⟩
  hypot := axisHypot
  urandom := Fin.ofNat (2 ^ 80)
  hypot_nonneg x y := by
    unfold axisHypot
    split
    · rename_i p q
      have h : (0 : ℚ) ≤ max |p| |q| := le_max_of_le_left (abs_nonneg p)
      exact decide_eq_false (not_lt.mpr h)
    · rfl

theorem streetWiring_usable (lifecycle : LifecyclePolicy) :
    (streetWiring lifecycle).binding.Usable where
  distance := show (PyFloat.finite 0).lt (.finite (1 / 4)) = true by decide +kernel
  gap := ⟨.finite 30000,
    show Duration.millis ⟨30000000000⟩ = .ok (.finite 30000) by decide +kernel⟩

/-- The default policy, which confirms an object at its third observation. -/
def patientPolicy : LifecyclePolicy := ⟨{}, by decide +kernel⟩

/-- The default policy, but for confirming an object at its first observation. -/
def promptPolicy : LifecyclePolicy := ⟨{ minObservationsToConfirm := 1 }, by decide +kernel⟩

def streetTrackId : TrackId := ⟨⟨"north", 0, 7⟩, by decide +kernel⟩

def leftBox : Box :=
  ⟨⟨.finite (1 / 8), .finite (1 / 4), .finite (1 / 4), .finite (1 / 2)⟩, by decide +kernel⟩

def rightBox : Box :=
  ⟨⟨.finite (5 / 8), .finite (1 / 4), .finite (3 / 4), .finite (1 / 2)⟩, by decide +kernel⟩

theorem leftBox_isWithinUnit : leftBox.isWithinUnit = true := by decide +kernel

theorem rightBox_isWithinUnit : rightBox.isWithinUnit = true := by decide +kernel

def streetTrack (box : Box) (predicted : Bool) (seen now : Instant)
    (hbox : box.isWithinUnit = true) (hseen : seen.ns ≤ now.ns) : Track where
  trackId := streetTrackId
  cameraId := "north"
  tenantId := "tenant"
  siteId := "site"
  state := if predicted then .coasting else .confirmed
  classId := "person"
  confidence := ⟨{ value := .finite 1, semantics := .association }, by decide +kernel⟩
  spatial := { frameOfReference := .normalized, bbox := some box, accepted := rfl }
  measurementBasis := if predicted then .predicted else .measured
  lastSeen := seen
  lastUpdated := now
  ageFrames := 1
  hitCount := 1
  coastFrames := if predicted then 1 else 0
  accepted := by
    refine TrackFields.postInit_eq_ok.mpr ⟨rfl, rfl, ⟨box, rfl, hbox⟩, ?_⟩
    cases predicted <;> simp [TrackState.isPredicted, hseen]

def streetFrame (frameSeq : Nat) (track : Track) : TrackUpdate where
  cameraId := "north"
  frameRef := ⟨⟨"north", 0, frameSeq⟩, by simp [FrameRefFields.postInit_eq_ok]⟩
  trackerEpoch := 0
  active := [track]

def leftFrame : TrackUpdate :=
  streetFrame 0 (streetTrack leftBox false ⟨1000⟩ ⟨1000⟩ leftBox_isWithinUnit le_rfl)

def rightFrame : TrackUpdate :=
  streetFrame 1
    (streetTrack rightBox false ⟨2000000000⟩ ⟨2000000000⟩ rightBox_isWithinUnit le_rfl)

def afterLeft (lifecycle : LifecyclePolicy) : ObjectRegistry :=
  (ingest (streetWiring lifecycle) "north" leftFrame ⟨0⟩ {}).2

theorem rightFrame_measures : Measures rightFrame streetTrackId :=
  ⟨⟨_, mem_singleton_self _, rfl⟩, fun t ht _ => by rw [mem_singleton.mp ht]; rfl⟩

theorem streetFrame_spares {frameSeq : Nat}
    (hby : ((frameWork wiring "north" (streetFrame frameSeq track) ⟨0⟩ s).partition.byTrack
      track.trackId).isSome = true) :
    FrameSpares wiring "north" (streetFrame frameSeq track) ⟨0⟩ kept s := by
  refine ⟨fun hunmatched => ?_, wp_mono (fun _ _ _ => trivial) (fun _ _ _ => trivial)
    (wp_true _ _)⟩
  rw [hunmatched.1] at hby
  cases hby

/-- A provisional person swept after a second stays who they are. -/
theorem sweeps_keep_provisional :
    ∃ id, (ingest (streetWiring patientPolicy) "north" rightFrame ⟨0⟩
        (sweeps (streetWiring patientPolicy) (afterLeft patientPolicy) [⟨1000000000⟩])).2.boundObject
        "north" streetTrackId = some id ∧
      (ingest (streetWiring patientPolicy) "north" rightFrame ⟨0⟩
        (afterLeft patientPolicy)).2.boundObject "north" streetTrackId = some id := by
  have hsome : ((afterLeft patientPolicy).partitions.get? "north").isSome = true := by
    decide +kernel
  obtain ⟨p, hp⟩ := isSome_iff_exists.mp hsome
  have hsomebody : (((afterLeft patientPolicy).partitions.get? "north").bind
      (·.byTrack streetTrackId)).isSome = true := by decide +kernel
  rw [hp] at hsomebody
  obtain ⟨r, hr⟩ := isSome_iff_exists.mp hsomebody
  have hstay : ((afterLeft patientPolicy).partitions.get? "north").all (fun p =>
      p.records.all fun r => (driveHorizons patientPolicy r ⟨1000000000⟩).toOption = some none)
      = true := by decide +kernel
  rw [hp] at hstay
  obtain ⟨hsame, hid, -⟩ := sweeps_keep_bindings (streetWiring patientPolicy)
    (afterLeft patientPolicy) "north" rightFrame ⟨0⟩ [⟨1000000000⟩] p hp
    (fun trackId _ moment hmoment id r hr _ => by
      rw [mem_singleton.mp hmoment]
      have hturn := all_eq_true.mp hstay r (mem_records.mpr
        (by rw [objectId_of_recordFor hr]; exact hr))
      exact ok_of_toOption (of_decide_eq_true hturn))
    (streetFrame_spares (by decide +kernel)) (streetFrame_spares (by decide +kernel))
    streetTrackId r rightFrame_measures hr
  exact ⟨r.objectId, hid, hsame.symm.trans hid⟩

/-- An active person swept after a second becomes somebody else, who without the sweep would
    have stayed the same. -/
theorem sweep_breaks_identity :
    Measures rightFrame streetTrackId ∧
    ∃ id, (afterLeft promptPolicy).boundObject "north" streetTrackId = some id ∧
      (ingest (streetWiring promptPolicy) "north" rightFrame ⟨0⟩
        (afterLeft promptPolicy)).2.boundObject "north" streetTrackId = some id ∧
      (ingest (streetWiring promptPolicy) "north" rightFrame ⟨0⟩
        (afterLeft promptPolicy)).1.created = [] ∧
      (ingest (streetWiring promptPolicy) "north" rightFrame ⟨0⟩
        (sweeps (streetWiring promptPolicy) (afterLeft promptPolicy)
          [⟨1000000000⟩])).2.boundObject "north" streetTrackId ≠ some id ∧
      (ingest (streetWiring promptPolicy) "north" rightFrame ⟨0⟩
        (sweeps (streetWiring promptPolicy) (afterLeft promptPolicy)
          [⟨1000000000⟩])).1.created ≠ [] := by
  refine ⟨rightFrame_measures, (streetWiring promptPolicy).idAt 0 ⟨1000⟩, ?_, ?_, ?_, ?_, ?_⟩
  all_goals decide +kernel

end VisionOs.Registry
