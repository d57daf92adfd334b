/-
  What each step of a call does to a camera's records, as weakest preconditions: one
  rule or one spec for each function of the engine, which the results about whole
  frames and sweeps then cite.
-/
import VisionOs.Registry.Calls

namespace VisionOs.Registry

open Core Lib Effect RegistryPartition Option TrackBinding LifecycleTransition TrackBindingFields
open Except
open ObjectRegistry

variable {wiring : RegistryWiring} {w : Work} {id : ObjectId} {track : Track} {now : Instant}
  {crossingEpoch : Bool}

variable {Q : Unit → Work → Prop} {E : PyException → Work → Prop}

@[simp] theorem wp_edit {f : RegistryPartition → RegistryPartition} :
    wp (edit f) Q E w ↔ Q () { w with partition := f w.partition } := Iff.rfl

theorem wp_attempt {f : RegistryPartition → Raises RegistryPartition} : wp (attempt f) Q E w ↔
      (∀ p, f w.partition = .ok p → Q () { w with partition := p }) ∧
      (∀ e, f w.partition = .error e → E e w) := by
  unfold attempt
  rw [wp_bind, wp_read, wp_bind, wp_ofExcept]
  exact Iff.rfl

@[simp] theorem wp_drawId {Q : String → Work → Prop} : wp (drawId wiring now) Q E w ↔
      Q (wiring.idAt w.draws now) { w with draws := w.draws + 1 } := Iff.rfl

variable {t : LifecycleTransition}

theorem wp_move (hmoved : t.changed = true → Q () { w with
      partition := w.partition.setLifecycle id t.current
      changes := w.changes ++ [(id, t.previous, t.current)] })
    (hstayed : t.changed = false → Q () w) : wp (move id t) Q E w := by
  unfold move
  split
  · rename_i h
    exact hmoved h
  · rename_i h
    exact hstayed (by simpa using h)

/-! ## Opening a binding -/

structure OnlyAt (id : ObjectId) (w w' : Work) : Prop where
  others : ∀ k, k ≠ id → w'.partition.recordFor k = w.partition.recordFor k
  rest : w' = { w with partition := w'.partition, draws := w'.draws }

structure Bound (id : ObjectId) (r : ObjectRecord) (trackId : TrackId) (now : Instant)
    (w w' : Work) : Prop extends OnlyAt id w w' where
  record : ∃ closed binding confidence, (∀ b ∈ closed, isOpen b = false) ∧
    binding.trackId = trackId ∧ binding.boundFrom = now ∧ binding.isOpen = true ∧
    binding.isSuperseded = false ∧ w'.partition.recordFor id = some
      { r with bindings := closed ++ [binding], identityConfidence := confidence }

structure Released (id : ObjectId) (r : ObjectRecord) (w w' : Work) : Prop
    extends OnlyAt id w w' where
  record : ∃ bindings, (bindings = r.bindings ∨ ∀ b ∈ bindings, isOpen b = false) ∧
    w'.partition.recordFor id = some { r with bindings }

/-- An open binding begins after the moment. -/
def ObjectRecord.LateFor (r : ObjectRecord) (now : Instant) : Prop :=
  ∃ b ∈ r.bindings, b.isOpen = true ∧ now.ns < b.boundFrom.ns

variable {r : ObjectRecord}

theorem not_lateFor_iff :
    ¬ r.LateFor now ↔ ∀ b ∈ r.bindings, b.isOpen = true → b.boundFrom.ns ≤ now.ns := by
  unfold ObjectRecord.LateFor
  simp only [not_exists, not_and, not_lt]

variable {p : RegistryPartition}

theorem lateFor_of_error {exc : PyException}
    (hr : p.recordFor id = some r) (h : p.closeBindings id now = .error exc) :
    r.LateFor now := by
  by_contra hno
  obtain ⟨p', hp'⟩ := (closeBindings_ok_iff hr).mpr (not_lateFor_iff.mp hno)
  rw [hp'] at h
  cases h

variable {trackId : TrackId} {confidence : PyFloat} {method : BindingMethod}

theorem openBinding_spec (hr : w.partition.recordFor id = some r) :
    wp (openBinding wiring id trackId method confidence now)
      (fun _ w' => Bound id r trackId now w w')
      (fun _ w' => Released id r w w' ∧ (r.LateFor now ∨ confidence.inUnit = false)) w := by
  unfold openBinding
  rw [wp_bind, wp_attempt]
  refine ⟨fun p hp => ?_, fun exc hexc => ?_⟩
  · obtain ⟨⟨closed, hclosed, hrecord⟩, hothers⟩ := closeBindings_ok hr hp
    rw [wp_bind, wp_drawId, wp_bind, wp_ofExcept]
    refine ⟨fun stated hstated => ?_, fun exc hexc => ?_⟩
    · have hidentity := (Confidence.uncalibrated_semantics hstated).1
      have haccepted : postInit
          { bindingId := wiring.idAt w.draws now, trackId, boundFrom := now,
            confidence := some stated, method } = .ok () := by
        refine postInit_eq_ok.mpr ⟨?_, fun t ht => by cases ht⟩
        intro c hc
        rw [← some.inj hc]
        exact hidentity
      have hbinding : construct
          { bindingId := wiring.idAt w.draws now, trackId, boundFrom := now,
            confidence := some stated, method } = .ok ⟨_, haccepted⟩ :=
        constructWith_eq_ok haccepted
      rw [wp_bind, wp_ofExcept_ok hbinding, wp_bind, wp_edit, wp_pure]
      obtain ⟨hadded, hsame⟩ :=
        recordFor_addBinding hrecord ⟨_, haccepted⟩ confidence
      exact ⟨⟨fun k hk => (hsame k hk).trans (hothers k hk), rfl⟩, closed, ⟨_, haccepted⟩,
        confidence, hclosed, rfl, rfl, rfl, rfl, hadded⟩
    · refine ⟨⟨⟨hothers, rfl⟩, closed, .inr hclosed, hrecord⟩, .inr ?_⟩
      -- A number in [0,1] would have made a confidence.
      by_contra hunit
      rw [Bool.not_eq_false] at hunit
      obtain ⟨c, hc⟩ := (@Confidence.uncalibrated_eq_ok_iff confidence .identity).mpr hunit
      rw [hc] at hexc
      cases hexc
  · exact ⟨⟨⟨fun _ _ => rfl, rfl⟩, r.bindings, .inl rfl, hr⟩, .inl (lateFor_of_error hr hexc)⟩

theorem openBinding_possible (hr : w.partition.recordFor id = some r) :
    wp (openBinding wiring id trackId method confidence now)
      (fun _ _ => ¬ r.LateFor now ∧ confidence.inUnit = true) (fun _ _ => True) w := by
  unfold openBinding
  rw [wp_bind, wp_attempt]
  refine ⟨fun p hp => ?_, fun _ _ => trivial⟩
  have htimely := not_lateFor_iff.mpr ((closeBindings_ok_iff hr).mp ⟨p, hp⟩)
  rw [wp_bind, wp_drawId, wp_bind, wp_ofExcept]
  refine ⟨fun stated hstated => ?_, fun _ _ => trivial⟩
  have hunit := Confidence.uncalibrated_eq_ok_iff.mp ⟨stated, hstated⟩
  rw [wp_bind, wp_ofExcept]
  exact ⟨fun _ _ => ⟨htimely, hunit⟩, fun _ _ => trivial⟩

def Work.shedOldest (w : Work) : Work :=
  match w.partition.shedNext with
  | none => w
  | some r =>
    { w with
      partition := w.partition.evict r.objectId
      shed := w.shed ++ [r.objectId] }

structure Minted (wiring : RegistryWiring) (track : Track) (now : Instant) (id : ObjectId)
    (w w' : Work) : Prop extends OnlyAt id w w' where
  drawn : id = wiring.idAt w.draws now
  room : w.partition.atCapacity = false
  record : w'.partition.recordFor id =
    some (w.partition.newRecord id (sightingOf track) now)

theorem tryMint_spec :
    wp (tryMint wiring track now)
      (fun minted w' => (minted = none ∧ w' = w ∧ w.partition.atCapacity = true) ∨
        (∃ id, minted = some id ∧ Minted wiring track now id w w') ∧
          w.partition.atCapacity = false)
      (fun _ _ => False) w := by
  unfold tryMint
  rw [wp_bind, wp_read]
  unfold RegistryPartition.mint RegistryPartition.atCapacity
  by_cases hfull : (w.partition.table.size : Int) ≥ w.partition.policy.maxObjectsPerCamera
  · simp only [dif_pos hfull]
    rw [wp_pure]
    exact .inl ⟨rfl, rfl, decide_eq_true hfull⟩
  simp only [dif_neg hfull]
  rw [wp_bind, wp_modify, wp_pure]
  refine .inr ⟨⟨_, rfl, ⟨fun k hk => ?_, rfl⟩, rfl, decide_eq_false hfull, ?_⟩,
    decide_eq_false hfull⟩
  · rw [recordFor_insert]
    exact if_neg (Ne.symm hk)
  · rw [recordFor_insert]
    exact if_pos rfl

theorem mint_spec :
    wp (mint wiring track now)
      (fun minted w' => (minted = none ∧ w' = w.shedOldest) ∨
        ∃ id, minted = some id ∧ Minted wiring track now id w.shedOldest w')
      (fun _ _ => False) w := by
  unfold mint
  rw [wp_bind]
  refine wp_mono ?_ (fun _ _ h => h) tryMint_spec
  rintro minted w' (⟨rfl, rfl, hfull⟩ | ⟨⟨id, rfl, hminted⟩, hroom⟩)
  · have hnext : w'.partition.shedNext = w'.partition.shedCandidates.head? := if_pos hfull
    simp only [wp_bind, wp_read]
    unfold Work.shedOldest
    rw [hnext]
    cases hcandidates : w'.partition.shedCandidates with
    | nil => exact .inl ⟨rfl, rfl⟩
    | cons candidate rest =>
      have hprovisional : candidate.lifecycle = .provisional := by
        have hmem : candidate ∈ w'.partition.shedCandidates := by simp [hcandidates]
        exact (mem_shedCandidates.mp hmem).2
      have hshed : onShed candidate.lifecycle =
          .ok ⟨.provisional, .expired, .populationShed⟩ := by
        rw [hprovisional]
        rfl
      simp only [List.head?_cons]
      rw [wp_bind, wp_ofExcept_ok hshed, wp_bind, wp_modify]
      refine wp_mono ?_ (fun _ _ h => h) tryMint_spec
      rintro minted w'' (⟨rfl, rfl, -⟩ | ⟨hsome, -⟩)
      · exact .inl ⟨rfl, rfl⟩
      · exact .inr hsome
  · have hnext : w.partition.shedNext = none := by
      unfold shedNext
      rw [hroom]
      rfl
    simp only [wp_pure]
    unfold Work.shedOldest
    rw [hnext]
    exact .inr ⟨id, rfl, hminted⟩

def reentryOf (wiring : RegistryWiring) (track : Track) (now : Instant) (crossingEpoch : Bool)
    (p : RegistryPartition) : Raises BindingDecision :=
  bindReentry wiring.hypot wiring.binding track.spatial track.classId now crossingEpoch p.records

variable {Q : Option (ObjectId × Bool) → Work → Prop}

theorem wp_absorbNew {d : BindingDecision} (hrefused : Q none w.shedOldest)
    (hminted : ∀ id w', Minted wiring track now id w.shedOldest w' →
      wp (openBinding wiring id track.trackId .firstSight d.firstSightConfidence now)
        (fun _ => Q (some (id, true))) E w') :
    wp (absorbNew wiring track now d) Q E w := by
  unfold absorbNew
  rw [wp_bind]
  refine wp_mono ?_ (fun _ _ h => h.elim) mint_spec
  rintro minted w' (⟨rfl, rfl⟩ | ⟨id, rfl, hid⟩)
  · exact hrefused
  · rw [wp_bind]
    exact hminted id w' hid

theorem wp_absorb (hcontinued : ∀ r, w.partition.byTrack track.trackId = some r →
      Q (some (r.objectId, false))
        { w with partition := w.partition.observe r.objectId (measuredOf track) now })
    (hraised : ∀ exc, w.partition.byTrack track.trackId = none →
      reentryOf wiring track now crossingEpoch w.partition = .error exc → E exc w)
    (hreentered : ∀ d c, w.partition.byTrack track.trackId = none →
      reentryOf wiring track now crossingEpoch w.partition = .ok d → d.matched = some c →
      wp (openBinding wiring c.objectId track.trackId c.method c.score now)
        (fun _ => Q (some (c.objectId, false))) E
        { w with partition := w.partition.observe c.objectId (measuredOf track) now })
    (hnew : ∀ d, w.partition.byTrack track.trackId = none →
      reentryOf wiring track now crossingEpoch w.partition = .ok d → d.matched = none →
      wp (absorbNew wiring track now d) Q E w) :
    wp (absorb wiring track now crossingEpoch) Q E w := by
  unfold absorb
  rw [wp_bind, wp_read]
  unfold bindContinuing
  cases hby : w.partition.byTrack track.trackId with
  | some r =>
    have hfound : w.partition.records.find? (·.owns track.trackId) = some r := hby
    simp only [hfound, map_some]
    rw [wp_bind, wp_edit, wp_pure]
    exact hcontinued r hby
  | none =>
    have hfound : w.partition.records.find? (·.owns track.trackId) = none := hby
    simp only [hfound, map_none]
    rw [wp_bind, wp_ofExcept]
    refine ⟨fun d hd => ?_, fun exc hexc => hraised exc hby hexc⟩
    cases hmatched : d.matched with
    | some c =>
      rw [wp_bind, wp_edit, wp_bind]
      exact hreentered d c hby hd hmatched
    | none => exact hnew d hby hd hmatched

/-! ## Driving and ageing -/

structure Moved (id : ObjectId) (t : LifecycleTransition) (w w' : Work) : Prop where
  others : ∀ k, k ≠ id → w'.partition.recordFor k = w.partition.recordFor k
  changes : w'.changes =
    if t.changed then w.changes ++ [(id, t.previous, t.current)] else w.changes
  shed : w'.shed = w.shed
  draws : w'.draws = w.draws
  created : w'.created = w.created
  touched : w'.touched = w.touched

theorem move_regions : wp (move id t) (fun _ w' => w'.regions = w.regions) (fun _ _ => False) w :=
  wp_move (fun _ => rfl) (fun _ => rfl)

theorem move_spec {t : LifecycleTransition} {r : ObjectRecord}
    (hr : w.partition.recordFor id = some r) (hprevious : t.previous = r.lifecycle) :
    wp (move id t)
      (fun _ w' => Moved id t w w' ∧
        w'.partition.recordFor id = some { r with lifecycle := t.current })
      (fun _ _ => False) w := by
  refine wp_move (fun hchanged => ?_) (fun hstayed => ?_)
  · obtain ⟨hrecord, hothers⟩ := recordFor_setLifecycle hr t.current
    exact ⟨⟨hothers, (if_pos hchanged).symm, rfl, rfl, rfl, rfl⟩, hrecord⟩
  · have hsame : t.current = r.lifecycle := by
      rw [← hprevious]
      unfold changed at hstayed
      simpa using Eq.symm (by simpa using hstayed)
    refine ⟨⟨fun _ _ => rfl, by rw [hstayed]; rfl, rfl, rfl, rfl, rfl⟩, ?_⟩
    rw [hr, hsame]

theorem place_eq (w : Work) (id : ObjectId) (instant : Instant) :
    w.place id instant = { w with regions := (w.place id instant).regions } := by
  unfold Work.place
  split
  · rfl
  · split
    · rfl
    · split <;> rfl

theorem trackTransition_ok (h : trackTransition wiring track now r = .ok t) :
    t.previous = r.lifecycle ∧ r.lifecycle.isTerminal = false ∧
      (t.current = .active ∨ r.lifecycle = .provisional ∧ t.current = .provisional ∨
        track.isPredicted = true ∧ UnmeasuredEdge r.lifecycle t.current) := by
  unfold trackTransition at h
  split at h
  · rename_i hpredicted
    have hlive := onUnmeasured_live h
    obtain ⟨t', ht', hprevious, hedge⟩ :=
      onUnmeasured_ok wiring.lifecycle hlive (sinceConfirmed now r) false
    rw [h] at ht'
    rw [ok.inj ht']
    exact ⟨hprevious, hlive, .inr (.inr ⟨hpredicted, hedge⟩)⟩
  · obtain ⟨hlive, hhere⟩ := onMeasured_live h
    obtain ⟨t', ht', hprevious, hedge⟩ :=
      onMeasured_ok wiring.lifecycle hlive hhere r.observationCount
    rw [h] at ht'
    rw [ok.inj ht']
    refine ⟨hprevious, hlive, ?_⟩
    rcases hedge with hactive | hstill
    · exact .inl hactive
    · exact .inr (.inl hstill)

theorem drive_spec {wasCreated : Bool} (hr : w.partition.recordFor id = some r) :
    wp (drive wiring track now id wasCreated)
      (fun _ w' => ∃ t, trackTransition wiring track now r = .ok t ∧
        Moved id t (w.touch id wasCreated) w' ∧
        w'.partition.recordFor id = some { r with lifecycle := t.current })
      (fun exc w' => trackTransition wiring track now r = .error exc ∧
        w' = w.touch id wasCreated) w := by
  unfold drive
  rw [wp_bind, wp_modify, wp_bind, wp_read]
  have htouched : (w.touch id wasCreated).partition.recordFor id = some r := hr
  simp only [htouched]
  rw [wp_bind, wp_ofExcept]
  refine ⟨fun t ht => ?_, fun exc hexc => ⟨hexc, rfl⟩⟩
  rw [wp_bind]
  refine wp_mono (fun _ w' h => ?_) (fun _ _ h => h.elim)
    (move_spec htouched (trackTransition_ok ht).1)
  rw [wp_modify, place_eq]
  exact ⟨t, ht, ⟨h.1.others, h.1.changes, h.1.shed, h.1.draws, h.1.created, h.1.touched⟩, h.2⟩

structure Aged (now : Instant) (id : ObjectId) (r : ObjectRecord) (t : LifecycleTransition)
    (w w' : Work) : Prop extends Moved id t w w' where
  found : w.partition.recordFor id = some r
  untouched : id ∉ w.touched
  live : r.lifecycle.isTerminal = false
  previous : t.previous = r.lifecycle
  edge : UnmeasuredEdge r.lifecycle t.current
  record : ∃ closed r', (∀ b ∈ closed, isOpen b = false) ∧
    ObjectRecord.Observed none now { r with bindings := closed } r' ∧
    w'.partition.recordFor id = some { r' with lifecycle := t.current }
  regions : w'.regions = if t.changed ∧ t.current.isPresent = false
    then (w.regions.forget id now).1 else w.regions

/-- Ageing one record: it moves, stays, or raises with the partition as it was. -/
theorem ageRecord_spec :
    wp (ageRecord wiring now id)
      (fun _ w' => (w' = w ∧ ∀ r, w.partition.recordFor id = some r →
          id ∈ w.touched ∨ r.lifecycle.isTerminal = true) ∨ ∃ r t, Aged now id r t w w')
      (fun _ w' => w' = w ∧ ∃ r, w.partition.recordFor id = some r ∧ id ∉ w.touched ∧
        r.lifecycle.isTerminal = false ∧ r.LateFor now) w := by
  unfold ageRecord
  rw [wp_bind, wp_read]
  cases hr : w.partition.recordFor id with
  | none => exact .inl ⟨rfl, by simp⟩
  | some r =>
    by_cases hskip : id ∈ w.touched ∨ r.lifecycle.isTerminal = true
    · simp only [hskip, if_true]
      refine .inl ⟨rfl, fun r' hr' => ?_⟩
      rw [← some.inj hr']
      exact hskip
    · simp only [hskip, if_false]
      rw [not_or] at hskip
      have hlive : r.lifecycle.isTerminal = false := by simpa using hskip.2
      rw [wp_bind, wp_attempt]
      refine ⟨fun p hp => ?_, fun exc hexc => ?_⟩
      · obtain ⟨⟨closed, hclosed, hrecord⟩, hothers⟩ :=
          closeBindings_ok hr hp
        obtain ⟨t, ht, hprevious, hedge⟩ := onUnmeasured_ok wiring.lifecycle hlive
          (sinceConfirmed now r) (leftFieldOfView wiring r)
        obtain ⟨⟨r', hr', hobserved⟩, hsame⟩ :=
          recordFor_observe hrecord none now
        unfold ageUnbound
        rw [wp_bind, wp_ofExcept_ok ht, wp_bind, wp_edit, wp_bind]
        have hmoved := @move_spec { w with partition := p.observe id none now } id t r' hr'
          (hprevious.trans hobserved.lifecycle.symm)
        refine wp_mono (fun _ w' hboth => ?_) (fun _ _ h => h.1.elim) (wp_and hmoved move_regions)
        obtain ⟨h, hregions⟩ := hboth
        have hothers' : ∀ k, k ≠ id → w'.partition.recordFor k = w.partition.recordFor k :=
          fun k hk => (h.1.others k hk).trans ((hsame k hk).trans (hothers k hk))
        have haged : ∀ regions, (regions = if t.changed ∧ t.current.isPresent = false
            then (w.regions.forget id now).1 else w.regions) →
            Aged now id r t w { w' with regions } := fun regions hforgot =>
          { others := hothers', changes := h.1.changes, shed := h.1.shed, draws := h.1.draws,
            created := h.1.created, touched := h.1.touched, found := hr, untouched := hskip.1,
            live := hlive, previous := hprevious, edge := hedge,
            record := ⟨closed, r', hclosed, hobserved, h.2⟩, regions := hforgot }
        split
        · rename_i hleft
          refine .inr ⟨r, t, haged _ ?_⟩
          rw [if_pos hleft, hregions]
        · rename_i hstayed
          refine .inr ⟨r, t, haged w'.regions ?_⟩
          rw [if_neg hstayed, hregions]
      · exact ⟨rfl, r, rfl, hskip.1, hlive, lateFor_of_error hr hexc⟩

/-- Folding a frame whose turns all meet a condition keeps what such a turn keeps and ageing
    keeps, whether or not it raises. -/
theorem foldFrame_rule {tracks : List Track} {I : Work → Prop} {P : Track → Work → Prop}
    (hturn : ∀ t w, I w → P t w →
      wp (foldTrack wiring now crossingEpoch t) (fun _ => I) (fun _ => I) w)
    (hage : ∀ id w, I w → wp (ageRecord wiring now id) (fun _ => I) (fun _ => I) w)
    (halong : Along (foldTrack wiring now crossingEpoch) P tracks w) (h : I w) :
    wp (foldFrame wiring tracks now crossingEpoch) (fun _ => I) (fun _ => I) w := by
  unfold foldFrame
  rw [wp_bind]
  refine wp_mono (fun _ w₁ h₁ => ?_) (fun _ _ h => h)
    (wp_forEach_along (fun t _ _ w hw hP => hturn t w hw hP) halong h)
  rw [wp_bind, wp_read, wp_bind]
  refine wp_mono (fun _ w₂ h₂ => ?_) (fun _ _ h => h)
    (wp_forEach (fun id _ _ w hw => hage id w hw) h₁)
  rw [wp_bind, wp_read, wp_ofExcept]
  exact ⟨fun _ _ => h₂, fun _ _ => h₂⟩

/-! ## Sweeping -/

/-- Whether a state is one that an object reaches by not being measured. -/
def Away (state : LifecycleState) : Prop :=
  state = .occluded ∨ state = .dormant ∨ state = .departed ∨ state = .expired

variable {state : LifecycleState}

theorem Away.not_measurable (h : Away state) :
    state.isMeasurable = false := by
  rcases h with h | h | h | h <;> rw [h] <;> rfl

theorem away_of_edge {current : LifecycleState} (h : UnmeasuredEdge state current)
    (hchanged : state ≠ current) : Away current := by
  unfold Away
  rcases h with ⟨rfl, rfl | rfl⟩ | ⟨rfl, rfl | rfl⟩ | ⟨rfl, rfl | rfl⟩ | ⟨rfl, rfl | rfl⟩ |
    ⟨rfl, rfl | rfl⟩ <;> simp at hchanged ⊢

theorem horizonLoop_ok (policy : LifecyclePolicy) (since : Duration) (turns : Nat)
    (state : LifecycleState) (moved : Option LifecycleTransition) :
    ∃ result, horizonLoop policy since turns state moved = .ok result ∧
      (result = moved ∨ ∃ t, result = some t ∧
        t.previous = (moved.map (·.previous)).getD state ∧ state.isTerminal = false ∧
        Away t.current) := by
  induction turns generalizing state moved with
  | zero => exact ⟨moved, rfl, .inl rfl⟩
  | succ turns ih =>
    unfold horizonLoop
    by_cases hterminal : state.isTerminal = true
    · exact ⟨moved, by rw [if_pos hterminal], .inl rfl⟩
    rw [if_neg hterminal]
    have hlive : state.isTerminal = false := by simpa using hterminal
    obtain ⟨t, ht, hprevious, hedge⟩ := onUnmeasured_ok policy hlive since false
    rw [ht, ok_bind]
    by_cases hchanged : t.changed = true
    · rw [if_pos hchanged]
      have hne : state ≠ t.current := by
        unfold changed at hchanged
        rw [hprevious] at hchanged
        simpa using hchanged
      obtain ⟨result, hresult, hcases⟩ :=
        ih t.current (some { t with previous := (moved.map (·.previous)).getD t.previous })
      refine ⟨result, hresult, .inr ?_⟩
      rcases hcases with rfl | ⟨t', rfl, hprevious', -, haway⟩
      · exact ⟨_, rfl, by rw [hprevious], hlive, away_of_edge hedge hne⟩
      · refine ⟨t', rfl, ?_, hlive, haway⟩
        rw [hprevious', hprevious]
        rfl
    · rw [if_neg hchanged]
      exact ⟨moved, rfl, .inl rfl⟩

theorem driveHorizons_ok (policy : LifecyclePolicy) (r : ObjectRecord) (moment : Instant) :
    driveHorizons policy r moment = .ok none ∨
      ∃ t, driveHorizons policy r moment = .ok (some t) ∧ t.previous = r.lifecycle ∧
        Away t.current := by
  obtain ⟨result, hresult, hcases⟩ :=
    horizonLoop_ok policy (sinceConfirmed moment r) 7 r.lifecycle none
  rcases hcases with rfl | ⟨t, rfl, hprevious, -, haway⟩
  · exact .inl hresult
  · exact .inr ⟨t, hresult, hprevious, haway⟩

variable {moment : Instant}

theorem away_of_driveHorizons {policy : LifecyclePolicy}
    (h : driveHorizons policy r moment = .ok (some t)) :
    Away t.current := by
  rcases driveHorizons_ok policy r moment with hnone | ⟨t', ht', -, haway⟩
  · rw [h] at hnone
    cases hnone
  · rw [h] at ht'
    rw [some.inj (ok.inj ht')]
    exact haway

theorem Away.ne_merged (h : Away state) : state ≠ .mergedInto := by
  rcases h with h | h | h | h <;> rw [h] <;> exact nofun

structure Departed (id : ObjectId) (w w' : Work) : Prop where
  others : ∀ k, k ≠ id → w'.partition.recordFor k = w.partition.recordFor k
  gone : w'.partition.recordFor id = none
  frozen : ∃ o, o.objectId = id ∧ w'.departed = w.departed ++ [o]
  removed : w'.removed = w.removed ++ [id]
  changes : w'.changes = w.changes

theorem depart_spec (hr : w.partition.recordFor id = some r) :
    wp (depart id) (fun _ w' => Departed id w w')
      (fun _ w' => w' = w ∧ ¬ r.Projectable) w := by
  unfold depart
  rw [wp_bind, wp_read]
  simp only [hr]
  rw [wp_bind, wp_ofExcept]
  refine ⟨fun o ho => ?_, fun exc hexc => ⟨rfl, fun hprojectable => ?_⟩⟩
  · rw [wp_modify]
    refine ⟨fun k hk => ?_, ?_, ⟨o, ?_, rfl⟩, rfl, rfl⟩
    · exact (recordFor_evict _ _ _).trans (if_neg hk)
    · exact (recordFor_evict _ _ _).trans (if_pos rfl)
    · rw [project_objectId ho]
      exact objectId_of_recordFor hr
  · obtain ⟨o, ho⟩ := (project_ok_iff w.partition r).mpr hprojectable
    rw [ho] at hexc
    cases hexc

structure SweptOver (id : ObjectId) (r : ObjectRecord) (t : LifecycleTransition)
    (w w' : Work) : Prop where
  others : ∀ k, k ≠ id → w'.partition.recordFor k = w.partition.recordFor k
  record : ∃ closed, (∀ b ∈ closed, isOpen b = false) ∧
    w'.partition.recordFor id = some { r with bindings := closed, lifecycle := t.current }
  changes : w'.changes = w.changes ++ [(id, t.previous, t.current)]
  departed : w'.departed = w.departed
  removed : w'.removed = w.removed

theorem sweepMoved_spec
    (hr : w.partition.recordFor id = some r) (haway : Away t.current) :
    wp (sweepMoved moment id t)
      (fun _ w' => ∃ swept, SweptOver id r t w swept ∧
        (t.current ≠ .expired ∧ w' = swept ∨ t.current = .expired ∧ Departed id swept w'))
      (fun _ w' => w' = w ∧ r.LateFor moment ∨
        t.current = .expired ∧ SweptOver id r t w w' ∧
          ¬ ({ r with lifecycle := t.current } : ObjectRecord).Projectable) w := by
  unfold sweepMoved
  simp only [haway.not_measurable, Bool.false_eq_true, if_false]
  rw [wp_bind, wp_attempt]
  refine ⟨fun p hp => ?_, fun exc hexc => .inl ⟨rfl, lateFor_of_error hr hexc⟩⟩
  obtain ⟨⟨closed, hclosed, hrecord⟩, hothers⟩ := closeBindings_ok hr hp
  obtain ⟨hset, hsame⟩ := recordFor_setLifecycle hrecord t.current
  rw [wp_bind, wp_modify]
  have hswept : SweptOver id r t w { w with
      partition := p.setLifecycle id t.current
      changes := w.changes ++ [(id, t.previous, t.current)] } :=
    { others := fun k hk => (hsame k hk).trans (hothers k hk)
      record := ⟨closed, hclosed, hset⟩
      changes := rfl
      departed := rfl
      removed := rfl }
  by_cases hexpired : t.current = .expired
  · rw [if_pos hexpired, wp_bind]
    refine wp_mono (fun _ w' h => ?_) (fun _ w' h => ?_) (depart_spec hset)
    · rw [wp_modify]
      refine ⟨_, hswept, .inr ⟨hexpired, ⟨h.others, h.gone, h.frozen, h.removed, h.changes⟩⟩⟩
    · obtain ⟨rfl, hno⟩ := h
      refine .inr ⟨hexpired, hswept, fun hprojectable => hno ?_⟩
      exact ⟨hprojectable.merged, hprojectable.notSelf, hprojectable.observed,
        hprojectable.seen_le, hprojectable.confirmed_le⟩
  · rw [if_neg hexpired]
    exact ⟨_, hswept, .inl ⟨hexpired, rfl⟩⟩

theorem sweepRecord_spec :
    wp (sweepRecord wiring moment id)
      (fun _ w' =>
        (w' = w ∧ ∀ r, w.partition.recordFor id = some r → r.lifecycle ≠ .expired) ∨
        (Departed id w w' ∧ ∃ r, w.partition.recordFor id = some r ∧ r.lifecycle = .expired) ∨
        ∃ r t swept, w.partition.recordFor id = some r ∧ r.lifecycle.isTerminal = false ∧
          driveHorizons wiring.lifecycle r moment = .ok (some t) ∧ SweptOver id r t w swept ∧
          (t.current ≠ .expired ∧ w' = swept ∨ t.current = .expired ∧ Departed id swept w'))
      (fun _ w' => ∃ r, w.partition.recordFor id = some r ∧
        ((r.lifecycle = .expired ∧ w' = w ∧ ¬ r.Projectable) ∨
          ∃ t, r.lifecycle.isTerminal = false ∧
            driveHorizons wiring.lifecycle r moment = .ok (some t) ∧
            (w' = w ∧ r.LateFor moment ∨ t.current = .expired ∧ SweptOver id r t w w' ∧
              ¬ ({ r with lifecycle := t.current } : ObjectRecord).Projectable))) w := by
  unfold sweepRecord
  rw [wp_bind, wp_read]
  cases hr : w.partition.recordFor id with
  | none => exact .inl ⟨rfl, by simp⟩
  | some r =>
    by_cases hterminal : r.lifecycle.isTerminal = true
    · simp only [hterminal, if_true]
      by_cases hexpired : r.lifecycle = .expired
      · simp only [hexpired, if_true]
        refine wp_mono (fun _ w' h => .inr (.inl ⟨h, r, rfl, hexpired⟩)) ?_ (depart_spec hr)
        rintro _ w' ⟨rfl, hno⟩
        exact ⟨r, rfl, .inl ⟨hexpired, rfl, hno⟩⟩
      · simp only [hexpired, if_false]
        refine .inl ⟨rfl, fun r' hr' => ?_⟩
        rw [← some.inj hr']
        exact hexpired
    · have hlive : r.lifecycle.isTerminal = false := by simpa using hterminal
      simp only [hlive, Bool.false_eq_true, if_false]
      rw [wp_bind]
      rcases driveHorizons_ok wiring.lifecycle r moment with hnone | ⟨t, ht, -, haway⟩
      · rw [wp_ofExcept_ok hnone]
        refine .inl ⟨rfl, fun r' hr' => ?_⟩
        rw [← some.inj hr']
        rintro hexpired
        rw [hexpired] at hlive
        cases hlive
      · rw [wp_ofExcept_ok ht]
        refine wp_mono (fun _ w' h => ?_) (fun _ w' h => ?_) (sweepMoved_spec hr haway)
        · obtain ⟨swept, hswept, hend⟩ := h
          exact .inr (.inr ⟨r, t, swept, rfl, hlive, ht, hswept, hend⟩)
        · exact ⟨r, rfl, .inr ⟨t, hlive, ht, h⟩⟩

/-! ## Calls -/

variable {s : ObjectRegistry} {cameraId : CameraId}

theorem wp_within {α : Type} {x : Doing α}
    {Q : α × Work → ObjectRegistry → Prop} {E : PyException → ObjectRegistry → Prop} :
    wp (within cameraId p x) Q E s ↔
      wp x (fun a w' => Q (a, w') (s.keep cameraId w')) (fun exc w' => E exc (s.keep cameraId w'))
        (s.work cameraId p) := by
  unfold wp within
  rcases x (s.work cameraId p) with ⟨result, w'⟩
  cases result <;> rfl

theorem partitions_keep (s : ObjectRegistry) (cameraId k : CameraId) (w : Work) :
    (s.keep cameraId w).partitions.get? k =
      if cameraId = k then some w.partition else s.partitions.get? k :=
  OrderedDict.get?_set ..

variable {objectId : ObjectId} {k : CameraId}

theorem locate_ok (h : s.locate objectId = .ok (k, p, r)) :
    s.partitions.get? k = some p ∧ p.recordFor objectId = some r := by
  unfold locate at h
  cases hfound : s.cameras.findSome? (fun cameraId => do
      let p ← s.partitions.get? cameraId
      let r ← p.recordFor objectId
      return (cameraId, p, r)) with
  | none =>
    simp only [hfound] at h
    cases h
  | some place =>
    simp only [hfound] at h
    obtain ⟨k', -, hk'⟩ := List.exists_of_findSome?_eq_some hfound
    obtain ⟨p', hp', hk'⟩ := bind_eq_some_iff.mp hk'
    obtain ⟨r', hr', hk'⟩ := bind_eq_some_iff.mp hk'
    obtain ⟨rfl, rfl, rfl⟩ : k' = k ∧ p' = p ∧ r' = r := by
      have heq := (some.inj hk').trans (ok.inj h)
      simpa using heq
    exact ⟨hp', hr'⟩

theorem advanceTime_le {update : TrackUpdate} {clock previous : Instant}
    (h : s.cameraTime.get? cameraId = some previous) :
    previous.ns ≤ (s.advanceTime cameraId update clock).ns := by
  unfold advanceTime
  rw [h]
  cases (update.active.map (·.lastUpdated.ns)).max? with
  | none => exact le_rfl
  | some candidate => exact le_max_left previous.ns candidate

theorem ingest_rule {update : TrackUpdate} {clock : Instant}
    {P : RegistryUpdate × ObjectRegistry → Prop}
    (h : let ready := prepare wiring cameraId update (s.advanceTime cameraId update clock) s
      wp (foldFrame wiring update.active (s.advanceTime cameraId update clock)
          (crossesEpoch s cameraId update))
        (fun objects w' => P (reported cameraId update objects w', ready.keep cameraId w'))
        (fun exc w' => P (failure cameraId update exc, ready.keep cameraId w'))
        (frameWork wiring cameraId update clock s)) :
    P (ingest wiring cameraId update clock s) := by
  unfold ingest
  unfold wp at h
  rcases hfold : foldFrame wiring update.active (s.advanceTime cameraId update clock)
    (crossesEpoch s cameraId update) (frameWork wiring cameraId update clock s) with ⟨result, w'⟩
  simp only [hfold] at h ⊢
  cases result with
  | ok objects => exact h
  | error exc => exact h

/-- `sweep`: the rule, with an invariant about the cameras to come.  Whatever the sweep
    raises, it leaves what each pass leaves. -/
theorem sweep_rule {moment : Instant} {I : List CameraId → ObjectRegistry → Prop}
    {J : ObjectRegistry → Prop}
    (habsent : ∀ k rest s, I (k :: rest) s → s.partitions.get? k = none → I rest s)
    (hcamera : ∀ k rest p s, I (k :: rest) s → s.partitions.get? k = some p →
      wp (forEach (sweepRecord wiring moment) p.ids) (fun _ w' => I rest (s.keep k w'))
        (fun _ w' => J (s.keep k w')) (s.work k p))
    (hdone : ∀ rest s, I rest s → J s) (h : I s.cameras s) : J (sweep wiring moment s).2 := by
  have hone : ∀ k rest s, I (k :: rest) s →
      wp (sweepCamera wiring moment k) (fun _ => I rest) (fun _ => J) s := by
    intro k rest s hI
    unfold sweepCamera
    rw [wp_bind, wp_read]
    cases hp : s.partitions.get? k with
    | none => exact habsent k rest s hI hp
    | some p =>
      rw [wp_bind, wp_within]
      refine wp_mono (fun _ w' hkept => ?_) (fun _ _ hkept => hkept) (hcamera k rest p s hI hp)
      -- What is left of the pass only reads.
      show wp (if w'.changes.isEmpty ∧ w'.removed.isEmpty then _ else _) _ _ _
      split
      · exact hkept
      · split
        · exact hkept
        · rw [wp_bind, wp_ofExcept]
          exact ⟨fun _ _ => hkept, fun _ _ => hdone _ _ hkept⟩
  have hall : ∀ cameras s, I cameras s →
      wp (sweepCameras wiring moment cameras) (fun _ => I []) (fun _ => J) s := by
    intro cameras
    induction cameras with
    | nil => exact fun s hI => hI
    | cons k rest ih =>
      intro s hI
      unfold sweepCameras
      rw [wp_bind]
      refine wp_mono (fun _ s' hI' => ?_) (fun _ _ hJ => hJ) (hone k rest s hI)
      rw [wp_bind]
      exact wp_mono (fun _ _ hI'' => hI'') (fun _ _ hJ => hJ) (ih s' hI')
  have hsweep : wp (sweep wiring moment) (fun _ => J) (fun _ => J) s := by
    unfold sweep
    rw [wp_bind, wp_read]
    exact wp_mono (fun _ s' hI => hdone [] s' hI) (fun _ _ hJ => hJ) (hall s.cameras s h)
  exact wp_state.mp hsweep

theorem sweep_keeps {I : ObjectRegistry → Prop}
    (hcamera : ∀ k p s, I s → s.partitions.get? k = some p →
      wp (forEach (sweepRecord wiring moment) p.ids) (fun _ w' => I (s.keep k w'))
        (fun _ w' => I (s.keep k w')) (s.work k p))
    (h : I s) : I (sweep wiring moment s).2 :=
  @sweep_rule wiring s moment (fun _ => I) I (fun _ _ _ hI _ => hI)
    (fun k _ p s hI hp => hcamera k p s hI hp) (fun _ _ hI => hI) h

/-! ## Revising identities -/

variable {I : ObjectRegistry → Prop}

theorem wp_bind_live
    {Q : BindingId → ObjectRegistry → Prop} {E : PyException → ObjectRegistry → Prop}
    (hplace : s.locate objectId = .ok (k, p, r)) (hlive : r.lifecycle.isTerminal = false) :
    wp (bind wiring trackId objectId method confidence now) Q E s ↔
      wp (openBinding wiring objectId trackId method confidence now)
        (fun b w' => Q b (s.keep k w')) (fun exc w' => E exc (s.keep k w')) (s.work k p) := by
  unfold bind
  rw [wp_bind, wp_read, wp_bind, wp_ofExcept_ok hplace]
  rw [wp_bind, wp_ofExcept_ok (require_eq_ok.mpr hlive), wp_bind, wp_within]
  exact Iff.rfl

theorem bind_rule (h : I s)
    (hopened : ∀ k p r, s.locate objectId = .ok (k, p, r) → r.lifecycle.isTerminal = false →
      wp (openBinding wiring objectId trackId method confidence now)
        (fun _ w' => I (s.keep k w')) (fun _ w' => I (s.keep k w')) (s.work k p)) :
    wp (bind wiring trackId objectId method confidence now) (fun _ => I) (fun _ => I) s := by
  by_cases hfound : ∃ place, s.locate objectId = .ok place ∧
      place.2.2.lifecycle.isTerminal = false
  · obtain ⟨⟨k, p, r⟩, hplace, hlive⟩ := hfound
    exact (wp_bind_live hplace hlive).mpr (hopened k p r hplace hlive)
  · -- Nothing is written before the object is found to be live.
    unfold bind
    rw [wp_bind, wp_read, wp_bind, wp_ofExcept]
    refine ⟨fun place hplace => ?_, fun _ _ => h⟩
    rw [wp_bind, wp_ofExcept]
    exact ⟨fun _ hlive => absurd ⟨place, hplace, require_eq_ok.mp hlive⟩ hfound, fun _ _ => h⟩

theorem merge_rule {sourceObject targetObject : ObjectId} (h : I s)
    (hmerged : ∀ k p source target, s.partitions.get? k = some p →
      p.recordFor sourceObject = some source → p.recordFor targetObject = some target →
      source.lifecycle.isTerminal = false → (∃ moved, onMerged source.lifecycle = .ok moved) →
      (∀ p', p.merge source target now = .ok p' →
        I (s.keep k { s.work k p with partition := p' })) ∧ I (s.keep k (s.work k p))) :
    wp (merge sourceObject targetObject now) (fun _ => I) (fun _ => I) s := by
  unfold merge
  rw [wp_bind, wp_read, wp_bind, wp_ofExcept]
  refine ⟨fun first hfirst => ?_, fun _ _ => h⟩
  obtain ⟨k, p, source⟩ := first
  obtain ⟨hp, hsource⟩ := locate_ok hfirst
  rw [wp_bind, wp_ofExcept]
  refine ⟨fun second hsecond => ?_, fun _ _ => h⟩
  obtain ⟨k', p', target⟩ := second
  obtain ⟨hp', htarget⟩ := locate_ok hsecond
  rw [wp_bind, wp_ofExcept]
  refine ⟨fun _ hsame => ?_, fun _ _ => h⟩
  have hk : k = k' := require_eq_ok.mp hsame
  rw [← hk, hp] at hp'
  rw [← some.inj hp'] at htarget
  rw [wp_bind, wp_ofExcept]
  refine ⟨fun moved hlive => ?_, fun _ _ => h⟩
  rw [wp_bind, wp_within, wp_attempt]
  obtain ⟨hok, hidle⟩ := hmerged k p source target hp hsource htarget
    (require_eq_ok.mp (check_bind_eq_ok.mp hlive).1) ⟨moved, hlive⟩
  exact ⟨hok, fun _ _ => hidle⟩

structure Cut (r : ObjectRecord) (point : Instant) (w w' : Work) : Prop where
  original : w'.partition.recordFor r.objectId = some (r.original point)
  others : ∀ k, k ≠ r.objectId → w'.partition.recordFor k = w.partition.recordFor k
  regions : w'.regions = w.regions

/-- After the cut, the successor stands under a new id, and nothing else was written. -/
structure Divided (r : ObjectRecord) (point : Instant) (successorId : ObjectId) (cut w' : Work) :
    Prop where
  fresh : cut.partition.recordFor successorId = none
  successor : w'.partition.recordFor successorId = some (r.successor point successorId)
  others : ∀ k, k ≠ successorId → w'.partition.recordFor k = cut.partition.recordFor k
  regions : w'.regions = cut.regions

def RegistryPartition.cutAt (p : RegistryPartition) (r : ObjectRecord) (point : Instant) :
    RegistryPartition :=
  p.update r.objectId (fun r => r.original point) (ObjectRecord.original_objectId point)

variable {point : Instant}

theorem wp_splitAt {Q : ObjectId → Work → Prop} : wp (splitAt wiring r point now) Q E w ↔
      (∀ p, (w.partition.cutAt r point).adopt (r.successor point (wiring.idAt w.draws now)) = .ok p →
        Q (wiring.idAt w.draws now) { w with partition := p, draws := w.draws + 1 }) ∧
      (∀ exc, (w.partition.cutAt r point).adopt (r.successor point (wiring.idAt w.draws now)) =
          .error exc →
        E exc { w with partition := w.partition.cutAt r point, draws := w.draws + 1 }) := by
  unfold splitAt
  rw [wp_bind, wp_drawId, wp_bind, wp_edit, wp_bind, wp_attempt]
  exact Iff.rfl

theorem splitAt_spec (hr : w.partition.recordFor r.objectId = some r) :
    wp (splitAt wiring r point now)
      (fun successorId w' => ∃ cut, Cut r point w cut ∧ Divided r point successorId cut w')
      (fun _ w' => Cut r point w w') w := by
  have hself : (w.partition.cutAt r point).recordFor r.objectId = some (r.original point) :=
    recordFor_update_self hr
  have hothers : ∀ k, k ≠ r.objectId →
      (w.partition.cutAt r point).recordFor k = w.partition.recordFor k :=
    fun k hk => recordFor_update_of_ne hk
  have hcut : Cut r point w { w with
      partition := w.partition.cutAt r point
      draws := w.draws + 1 } := ⟨hself, hothers, rfl⟩
  refine wp_splitAt.mpr ⟨fun p hp => ?_, fun _ _ => hcut⟩
  obtain ⟨hadopted, hbeside⟩ := recordFor_adopt hp
  exact ⟨_, hcut, fresh_of_adopt hp, hadopted, hbeside, rfl⟩

theorem wp_split_located {Q : ObjectId × ObjectId → ObjectRegistry → Prop}
    {E : PyException → ObjectRegistry → Prop} (hplace : s.locate objectId = .ok (k, p, r))
    (hpoint : r.firstSeen.ns < point.ns ∧ point.ns < r.lastSeen.ns) :
    wp (split wiring objectId point now) Q E s ↔
      wp (splitAt wiring r point now)
        (fun successorId w' => Q (objectId, successorId) (s.keep k w'))
        (fun exc w' => E exc (s.keep k w')) (s.work k p) := by
  unfold split
  rw [wp_bind, wp_read, wp_bind, wp_ofExcept_ok hplace]
  rw [wp_bind, wp_ofExcept_ok (require_eq_ok.mpr hpoint), wp_bind, wp_within]
  exact Iff.rfl

theorem split_refused
    {Q : ObjectId × ObjectId → ObjectRegistry → Prop} {E : PyException → ObjectRegistry → Prop}
    (hnone : ∀ k p r, s.locate objectId = .ok (k, p, r) →
      ¬ (r.firstSeen.ns < point.ns ∧ point.ns < r.lastSeen.ns)) (h : ∀ exc, E exc s) :
    wp (split wiring objectId point now) Q E s := by
  unfold split
  rw [wp_bind, wp_read, wp_bind, wp_ofExcept]
  refine ⟨fun place hplace => ?_, fun exc _ => h exc⟩
  obtain ⟨k, p, r⟩ := place
  rw [wp_bind, wp_ofExcept]
  exact ⟨fun _ hpoint => absurd (require_eq_ok.mp hpoint) (hnone k p r hplace), fun exc _ => h exc⟩

theorem split_rule (h : I s) (hsplit : ∀ k p r, s.locate objectId = .ok (k, p, r) →
      r.firstSeen.ns < point.ns ∧ point.ns < r.lastSeen.ns →
      ∀ cut, Cut r point (s.work k p) cut → I (s.keep k cut) ∧
        ∀ successorId w', Divided r point successorId cut w' → I (s.keep k w')) :
    wp (split wiring objectId point now) (fun _ => I) (fun _ => I) s := by
  by_cases hfound : ∃ place, s.locate objectId = .ok place ∧
      place.2.2.firstSeen.ns < point.ns ∧ point.ns < place.2.2.lastSeen.ns
  · obtain ⟨⟨k, p, r⟩, hplace, hpoint⟩ := hfound
    obtain ⟨-, hr⟩ := locate_ok hplace
    have hkeeps := hsplit k p r hplace hpoint
    have hself : (s.work k p).partition.recordFor r.objectId = some r :=
      recordFor_objectId hr
    refine (wp_split_located hplace hpoint).mpr ?_
    refine wp_mono (fun successorId w' hw' => ?_) (fun _ w' hcut => (hkeeps w' hcut).1)
      (splitAt_spec hself)
    obtain ⟨cut, hcut, hdivided⟩ := hw'
    exact (hkeeps cut hcut).2 successorId w' hdivided
  · exact split_refused (fun k p r hplace hpoint => hfound ⟨(k, p, r), hplace, hpoint⟩) fun _ => h

variable {held : Attribute}

theorem applyAttribute_spec : wp (applyAttribute wiring objectId held)
      (fun _ s' => ∃ k p r, s.locate objectId = .ok (k, p, r) ∧
        s' = s.keep k { s.work k p with partition := p.applyAttribute objectId held })
      (fun _ s' => s' = s) s := by
  unfold applyAttribute
  rw [wp_bind, wp_read, wp_bind, wp_ofExcept]
  refine ⟨fun place hplace => ?_, fun _ _ => rfl⟩
  obtain ⟨k, p, r⟩ := place
  rw [wp_bind, wp_ofExcept]
  refine ⟨fun _ _ => ?_, fun _ _ => rfl⟩
  rw [wp_bind, wp_ofExcept]
  refine ⟨fun _ _ => ?_, fun _ _ => rfl⟩
  rw [wp_bind, wp_within, wp_edit]
  exact ⟨k, p, r, hplace, rfl⟩

theorem applyAttribute_rule (h : I s)
    (hheld : ∀ k p r, s.partitions.get? k = some p → p.recordFor objectId = some r →
      I (s.keep k { s.work k p with partition := p.applyAttribute objectId held })) :
    wp (applyAttribute wiring objectId held) (fun _ => I) (fun _ => I) s := by
  refine wp_mono (fun _ s' hs' => ?_) (fun _ s' hs' => ?_)
    applyAttribute_spec
  · obtain ⟨k, p, r, hplace, rfl⟩ := hs'
    obtain ⟨hp, hr⟩ := locate_ok hplace
    exact hheld k p r hp hr
  · rw [hs']
    exact h

end VisionOs.Registry
