/-
  Everything a track's turn can leave of a camera's state, whether it returns or raises
  midway: one statement that each invariant of the records is then read off from.
-/
import VisionOs.Registry.Continuity

namespace VisionOs.Registry

open Core Lib Effect RegistryPartition TrackBinding

variable {wiring : RegistryWiring} {w w' : Work} {id : ObjectId} {track : Track} {now : Instant}
  {crossingEpoch : Bool} {r : ObjectRecord}

def SoleBinding (trackId : TrackId) (now : Instant) (bindings : List TrackBinding) : Prop :=
  ∃ closed binding, bindings = closed ++ [binding] ∧
    (∀ b ∈ closed, isOpen b = false) ∧ binding.trackId = trackId ∧
    binding.boundFrom = now ∧ binding.isOpen = true ∧ binding.isSuperseded = false

/-- What is written of a record in a track's turn: its bindings meet a condition, it may
    have moved along the edge of the track and been placed, and the move is reported. -/
structure WorkedOn (wiring : RegistryWiring) (track : Track) (now : Instant)
    (B : List TrackBinding → Prop) (id : ObjectId) (r : ObjectRecord) (w w' : Work) : Prop where
  others : ∀ k, k ≠ id → w'.partition.recordFor k = w.partition.recordFor k
  record : ∃ bindings confidence state,
    w'.partition.recordFor id = some
      { r with bindings, identityConfidence := confidence, lifecycle := state } ∧
    B bindings ∧
    (state = r.lifecycle ∧ w'.changes = w.changes ∨
      ∃ t, trackTransition wiring track now r = .ok t ∧ state = t.current ∧
        w'.changes =
          if t.changed then w.changes ++ [(id, t.previous, t.current)] else w.changes) ∧
    (w'.regions = w.regions ∨ state.isPresent = true ∧ ∃ box instant,
      w'.regions = (w.regions.update id box instant).1)
  shed : w'.shed = w.shed

variable {B : List TrackBinding → Prop} {bindings : List TrackBinding} {confidence : PyFloat}

theorem WorkedOn.idle (hothers : ∀ k, k ≠ id → w'.partition.recordFor k = w.partition.recordFor k)
    (hrecord : w'.partition.recordFor id = some
      { r with bindings, identityConfidence := confidence })
    (hB : B bindings) (hchanges : w'.changes = w.changes) (hregions : w'.regions = w.regions)
    (hshed : w'.shed = w.shed) : WorkedOn wiring track now B id r w w' :=
  ⟨hothers, ⟨bindings, confidence, r.lifecycle, hrecord, hB, .inl ⟨rfl, hchanges⟩,
    .inl hregions⟩, hshed⟩

variable {wasCreated : Bool}

theorem drive_regions (hr : w.partition.recordFor id = some r) :
    wp (drive wiring track now id wasCreated)
      (fun _ w' => w'.regions = w.regions ∨ ∃ r' box instant,
        w'.partition.recordFor id = some r' ∧ r'.lifecycle.isPresent = true ∧
        w'.regions = (w.regions.update id box instant).1)
      (fun _ w' => w'.regions = w.regions) w := by
  unfold drive
  rw [wp_bind, wp_modify, wp_bind, wp_read]
  have htouched : (w.touch id wasCreated).partition.recordFor id = some r := hr
  simp only [htouched]
  rw [wp_bind, wp_ofExcept]
  refine ⟨fun t _ => ?_, fun _ _ => rfl⟩
  rw [wp_bind]
  -- Moving writes no memberships.
  have hplaced : ∀ w₁ : Work, w₁.regions = w.regions →
      (w₁.place id track.lastSeen).regions = w.regions ∨ ∃ r' box instant,
        (w₁.place id track.lastSeen).partition.recordFor id = some r' ∧
        r'.lifecycle.isPresent = true ∧
        (w₁.place id track.lastSeen).regions = (w.regions.update id box instant).1 := by
    intro w₁ hsame
    rw [← hsame]
    unfold Work.place
    split
    · exact .inl rfl
    rename_i r' hr'
    split
    · exact .inl rfl
    rename_i box hbox
    by_cases hpresent : r'.lifecycle.isPresent = true
    · rw [if_pos hpresent]
      exact .inr ⟨r', box, track.lastSeen, hr', hpresent, rfl⟩
    · rw [if_neg hpresent]
      exact .inl rfl
  exact wp_move (fun _ => hplaced _ rfl) (fun _ => hplaced _ rfl)

variable {base : Work}

theorem drive_worked {r₁ : ObjectRecord}
    (hr : w.partition.recordFor id = some r)
    (hrecord : r = { r₁ with bindings, identityConfidence := confidence }) (hB : B bindings)
    (hothers : ∀ k, k ≠ id → w.partition.recordFor k = base.partition.recordFor k)
    (hchanges : w.changes = base.changes) (hregions : w.regions = base.regions)
    (hshed : w.shed = base.shed) :
    wp (drive wiring track now id wasCreated)
      (fun _ w' => WorkedOn wiring track now B id r₁ base w')
      (fun _ w' => WorkedOn wiring track now B id r₁ base w') w := by
  refine wp_mono (fun _ w' h => ?_) (fun _ w' h => ?_)
    (wp_and (drive_spec hr) (drive_regions hr))
  · obtain ⟨⟨t, ht, hmoved, hself⟩, hplaced⟩ := h
    have hchanges' : w'.changes = if t.changed then base.changes ++ [(id, t.previous, t.current)]
        else base.changes := by
      rw [hmoved.changes]
      show (if t.changed then w.changes ++ _ else w.changes) = _
      rw [hchanges]
    refine ⟨fun k hk => (hmoved.others k hk).trans (hothers k hk),
      ⟨bindings, confidence, t.current, ?_, hB, .inr ⟨t, ?_, rfl, hchanges'⟩, ?_⟩, ?_⟩
    · rw [hself, hrecord]
    · -- The edge does not look at the bindings.
      rw [hrecord] at ht
      exact ht
    · rw [← hregions]
      rcases hplaced with hsame | ⟨r', box, instant, hr', hpresent, hupdated⟩
      · exact .inl hsame
      · rw [hself] at hr'
        rw [← Option.some.inj hr'] at hpresent
        exact .inr ⟨hpresent, box, instant, hupdated⟩
    · rw [hmoved.shed]
      exact hshed
  · obtain ⟨⟨-, htouch⟩, hsame⟩ := h
    have hself : w'.partition.recordFor id = some
        { r₁ with bindings, identityConfidence := confidence } := by
      rw [htouch, ← hrecord]
      exact hr
    refine .idle (fun k hk => ?_) hself hB ?_ (hsame.trans hregions) ?_
    · rw [htouch]
      exact hothers k hk
    · rw [htouch]
      exact hchanges
    · rw [htouch]
      exact hshed

def Rebound (trackId : TrackId) (now : Instant) (before bindings : List TrackBinding) : Prop :=
  bindings = before ∨ (∀ b ∈ bindings, isOpen b = false) ∨
    SoleBinding trackId now bindings

theorem opened_worked (wasCreated : Bool) {method : BindingMethod}
    (hr : w.partition.recordFor id = some r)
    (hothers : ∀ k, k ≠ id → w.partition.recordFor k = base.partition.recordFor k)
    (hchanges : w.changes = base.changes) (hregions : w.regions = base.regions)
    (hshed : w.shed = base.shed) :
    wp (openBinding wiring id track.trackId method confidence now)
      (fun _ => wp (drive wiring track now id wasCreated)
        (fun _ w' => WorkedOn wiring track now (Rebound track.trackId now r.bindings) id r base w')
        (fun _ w' => WorkedOn wiring track now (Rebound track.trackId now r.bindings) id r base w'))
      (fun _ w' => WorkedOn wiring track now (Rebound track.trackId now r.bindings) id r base w')
      w := by
  refine wp_mono (fun _ w₁ hbound => ?_) (fun _ w₁ hfailed => ?_) (openBinding_spec hr)
  · obtain ⟨closed, binding, confidence', hclosed, htrack, hfrom, hopen, hcurrent, hrecord⟩ :=
      hbound.record
    refine drive_worked hrecord rfl
      (.inr (.inr ⟨closed, binding, rfl, hclosed, htrack, hfrom, hopen, hcurrent⟩))
      (fun k hk => (hbound.others k hk).trans (hothers k hk)) ?_ ?_ ?_
    · rw [hbound.rest]
      exact hchanges
    · rw [hbound.rest]
      exact hregions
    · rw [hbound.rest]
      exact hshed
  · obtain ⟨hreleased, -⟩ := hfailed
    obtain ⟨bindings, hbindings, hrecord⟩ := hreleased.record
    have hB : Rebound track.trackId now r.bindings bindings := by
      rcases hbindings with h | h
      · exact .inl h
      · exact .inr (.inl h)
    refine .idle (fun k hk => (hreleased.others k hk).trans (hothers k hk)) hrecord hB ?_ ?_ ?_
    · rw [hreleased.rest]
      exact hchanges
    · rw [hreleased.rest]
      exact hregions
    · rw [hreleased.rest]
      exact hshed

inductive TrackTurn (wiring : RegistryWiring) (track : Track) (now : Instant)
    (crossingEpoch : Bool) (w w' : Work) : Prop where
  | continued (r r' : ObjectRecord) (hby : w.partition.byTrack track.trackId = some r)
      (hobserved : ObjectRecord.Observed (measuredOf track) now r r')
      (hworked : WorkedOn wiring track now (· = r'.bindings) r.objectId r' w w')
  | reentered (r r' : ObjectRecord) (hnone : w.partition.byTrack track.trackId = none)
      (hmatched : ∃ d c, reentryOf wiring track now crossingEpoch w.partition = .ok d ∧
        d.matched = some c ∧ c.objectId = r.objectId)
      (hr : w.partition.recordFor r.objectId = some r) (hreenterable : reenterable r = true)
      (hobserved : ObjectRecord.Observed (measuredOf track) now r r')
      (hworked : WorkedOn wiring track now (Rebound track.trackId now r'.bindings) r.objectId r'
        w w')
  | minted (hunmatched : Unmatched wiring track now crossingEpoch w.partition)
      (hworked : WorkedOn wiring track now (Rebound track.trackId now [])
        (wiring.idAt w.draws now) (w.shedOldest.partition.newRecord (wiring.idAt w.draws now)
          (sightingOf track) now) w.shedOldest w')
      (hroom : w.shedOldest.partition.atCapacity = false)
  | refused (hunmatched : Unmatched wiring track now crossingEpoch w.partition)
      (hsame : w' = w.shedOldest)
  | raised (hnone : w.partition.byTrack track.trackId = none)
      (hraised : ∃ exc, reentryOf wiring track now crossingEpoch w.partition = .error exc)
      (hsame : w' = w)

/-- Folding one track is a turn, whether it returns or raises. -/
theorem foldTrack_turn :
    wp (foldTrack wiring now crossingEpoch track)
      (fun _ w' => TrackTurn wiring track now crossingEpoch w w')
      (fun _ w' => TrackTurn wiring track now crossingEpoch w w') w := by
  unfold foldTrack
  rw [wp_bind]
  refine wp_absorb (fun r hby => ?_) (fun exc hnone hexc => .raised hnone ⟨exc, hexc⟩ rfl)
    (fun d c hnone hd hc => ?_) (fun d hnone hd hunmatched => ?_)
  · obtain ⟨hr, -, -⟩ := byTrack_eq_some_iff.mp hby
    obtain ⟨⟨r', hr', hobserved⟩, hsame⟩ :=
      recordFor_observe hr (measuredOf track) now
    have hturn : ∀ w', WorkedOn wiring track now (· = r'.bindings) r.objectId r' w w' →
        TrackTurn wiring track now crossingEpoch w w' := fun w' h =>
      .continued r r' hby hobserved h
    exact wp_mono (fun _ w' h => hturn w' h) (fun _ w' h => hturn w' h)
      (drive_worked hr' rfl rfl hsame rfl rfl rfl)
  · obtain ⟨r, hmem, hconsidered⟩ := bindReentry_considered hd (.inl hc)
    have hid : c.objectId = r.objectId := hconsidered.objectId
    have hr : w.partition.recordFor r.objectId = some r := mem_records.mp hmem
    rw [hid]
    obtain ⟨⟨r', hr', hobserved⟩, hsame⟩ :=
      recordFor_observe hr (measuredOf track) now
    have hturn : ∀ w', WorkedOn wiring track now (Rebound track.trackId now r'.bindings)
        r.objectId r' w w' → TrackTurn wiring track now crossingEpoch w w' := fun w' h =>
      .reentered r r' hnone ⟨d, c, hd, hc, hid⟩ hr hconsidered.reenterable hobserved h
    refine wp_mono (fun _ w₁ h => ?_) (fun _ w' h => hturn w' h)
      (opened_worked false hr' hsame rfl rfl rfl)
    exact wp_mono (fun _ w' h => hturn w' h) (fun _ w' h => hturn w' h) h
  · have hno : Unmatched wiring track now crossingEpoch w.partition := ⟨hnone, d, hd, hunmatched⟩
    refine wp_absorbNew (.refused hno rfl) (fun id w₁ hminted => ?_)
    have hid : id = wiring.idAt w.draws now := by
      rw [hminted.drawn, shedOldest_draws]
    subst hid
    have hturn : ∀ w', WorkedOn wiring track now (Rebound track.trackId now [])
        (wiring.idAt w.draws now) (w.shedOldest.partition.newRecord (wiring.idAt w.draws now)
          (sightingOf track) now) w.shedOldest w' →
        TrackTurn wiring track now crossingEpoch w w' := fun w' h => 
      .minted hno h hminted.room
    have hrest : w₁ = { w.shedOldest with partition := w₁.partition, draws := w₁.draws } :=
      hminted.rest
    refine wp_mono (fun _ w₂ h => ?_) (fun _ w' h => hturn w' h)
      (opened_worked true hminted.record hminted.others (by rw [hrest]) (by rw [hrest])
        (by rw [hrest]))
    exact wp_mono (fun _ w' h => hturn w' h) (fun _ w' h => hturn w' h) h

end VisionOs.Registry
