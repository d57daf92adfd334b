/-
  When does folding a frame return?  The records have to be sound, a track that measures must not
  be bound to a departed object, and one bound later than the frame must have its track in it.
-/
import VisionOs.Registry.Specs

namespace VisionOs.Registry

open Core Lib Effect RegistryPartition ObjectRecord List Option

variable {wiring : RegistryWiring} {w w' : Work} {id : ObjectId} {track : Track}
  {now : Instant} {crossingEpoch : Bool} {p : RegistryPartition} {r r' : ObjectRecord}

/-! ## Sound records -/

/-- A record that can be published at the moment. -/
structure ObjectRecord.Sound (now : Instant) (r : ObjectRecord) : Prop extends r.Projectable where
  recent : r.lastSeen.ns ≤ now.ns

theorem ObjectRecord.Projectable.of_observed {sighting : Option Sighting} (h : r.Projectable)
    (hobserved : ObjectRecord.Observed sighting now r r') (hfirst : r.firstSeen.ns ≤ now.ns)
    (hconfirmed : r.lastConfirmed.ns ≤ now.ns) : r'.Projectable := by
  refine ⟨?_, ?_, ?_, ?_, ?_⟩
  · rw [hobserved.lifecycle, hobserved.mergedInto]
    exact h.merged
  · rw [hobserved.mergedInto, hobserved.objectId]
    exact h.notSelf
  · have hcount := h.observed
    have hnext := hobserved.observationCount
    omega
  · rw [hobserved.firstSeen, hobserved.lastSeen]
    exact hfirst
  · rw [hobserved.lastSeen]
    rcases hobserved.lastConfirmed with heq | heq
    · rw [heq]
    · rw [heq]
      exact hconfirmed

namespace ObjectRecord.Sound

theorem mono {later : Instant} (h : r.Sound now) (hle : now.ns ≤ later.ns) : r.Sound later :=
  ⟨h.toProjectable, h.recent.trans hle⟩

theorem rebound (h : r.Sound now) (bindings : List TrackBinding) (confidence : PyFloat) :
    ({ r with bindings, identityConfidence := confidence } : ObjectRecord).Sound now :=
  ⟨⟨h.merged, h.notSelf, h.observed, h.seen_le, h.confirmed_le⟩, h.recent⟩

theorem moved {state : LifecycleState} (h : r.Sound now) (hbefore : r.lifecycle ≠ .mergedInto)
    (hafter : state ≠ .mergedInto) :
    ({ r with lifecycle := state } : ObjectRecord).Sound now := by
  have hnone : r.mergedInto = none := by
    by_contra hsome
    exact hbefore (h.merged.mpr hsome)
  refine ⟨⟨⟨fun h => absurd h hafter, fun h => absurd hnone h⟩, h.notSelf, h.observed, h.seen_le,
    h.confirmed_le⟩, h.recent⟩

theorem of_observed {sighting : Option Sighting} (h : r.Sound now)
    (hobserved : ObjectRecord.Observed sighting now r r') : r'.Sound now := by
  refine ⟨h.toProjectable.of_observed hobserved (h.seen_le.trans h.recent)
    (h.confirmed_le.trans h.recent), ?_⟩
  rw [hobserved.lastSeen]

theorem of_new (p : RegistryPartition) (id : ObjectId) (s : Sighting) (now : Instant) :
    (p.newRecord id s now).Sound now where
  merged := ⟨nofun, fun h => absurd rfl h⟩
  notSelf := nofun
  observed := by
    show (0 : Int) ≤ 1
    decide
  seen_le := le_rfl
  confirmed_le := le_rfl
  recent := le_rfl

end ObjectRecord.Sound

theorem ne_merged_of_live {state : LifecycleState} (h : state.isTerminal = false) :
    state ≠ .mergedInto := by
  rintro rfl
  cases h

theorem UnmeasuredEdge.ne_merged {state current : LifecycleState}
    (h : UnmeasuredEdge state current) : current ≠ .mergedInto := by
  unfold UnmeasuredEdge at h
  rintro rfl
  simp at h

theorem trackTransition_returns (hlive : r.lifecycle.isTerminal = false)
    (hhere : track.isPredicted = false → r.lifecycle ≠ .departed) :
    ∃ t, trackTransition wiring track now r = .ok t ∧ t.current ≠ .mergedInto := by
  unfold trackTransition
  by_cases hpredicted : track.isPredicted = true
  · rw [if_pos hpredicted]
    obtain ⟨t, ht, -, hedge⟩ :=
      onUnmeasured_ok wiring.lifecycle hlive (sinceConfirmed now r) false
    exact ⟨t, ht, hedge.ne_merged⟩
  · rw [if_neg hpredicted]
    obtain ⟨t, ht, -, hcurrent⟩ :=
      onMeasured_ok wiring.lifecycle hlive (hhere (by simpa using hpredicted)) r.observationCount
    refine ⟨t, ht, ?_⟩
    rcases hcurrent with h | ⟨-, h⟩
    · rw [h]
      exact nofun
    · rw [h]
      exact nofun

theorem reenterable_state (h : reenterable r = true) :
    r.lifecycle = .occluded ∨ r.lifecycle = .dormant := by
  simpa using (Bool.and_eq_true_iff.mp h).1

theorem live_of_reenterable (h : reenterable r = true) : r.lifecycle.isTerminal = false := by
  rcases reenterable_state h with h | h <;> rw [h] <;> rfl

/-- Every record can be published at the moment. -/
def RegistryPartition.Sound (now : Instant) (p : RegistryPartition) : Prop :=
  ∀ id r, p.recordFor id = some r → r.Sound now

theorem RegistryPartition.Sound.mono {later : Instant} (h : p.Sound now)
    (hle : now.ns ≤ later.ns) : p.Sound later :=
  fun id r hr => (h id r hr).mono hle

/-! ## Folding the tracks -/

structure Folding (now : Instant) (rest : List Track) (w : Work) : Prop where
  sound : w.partition.Sound now
  /-- No track to come measures a departed object. -/
  here : ∀ t ∈ rest, t.isPredicted = false → ∀ id r, w.partition.recordFor id = some r →
    r.owns t.trackId = true → r.lifecycle ≠ .departed
  /-- An object bound later has had its track, or its track is still to come. -/
  late : ∀ id r, w.partition.recordFor id = some r → r.lifecycle.isTerminal = false →
    r.LateFor now → r.boundTrack ≠ none ∧
      (id ∈ w.touched ∨ ∃ t ∈ rest, ∃ r', w.partition.byTrack t.trackId = some r' ∧
        r'.objectId = id)

variable {rest : List Track}

/-- Where one record changed, or was removed, that one decides: it is bound to no track
    still to come, and the tracks that are not to come any more were its own. -/
theorem Folding.change {tracks : List Track} (h : Folding now tracks w)
    (hrest : ∀ t ∈ rest, t ∈ tracks) (hgone : ∀ t ∈ tracks, t ∈ rest ∨
      ∀ r, w.partition.byTrack t.trackId = some r → r.objectId = id)
    (hothers : ∀ k, k ≠ id → w'.partition.recordFor k = w.partition.recordFor k)
    (htouched : ∀ k ∈ w.touched, k ∈ w'.touched)
    (hnew : ∀ r', w'.partition.recordFor id = some r' → r'.Sound now ∧
      (∀ t ∈ rest, r'.boundTrack ≠ some t.trackId) ∧
      (r'.LateFor now → r'.boundTrack ≠ none ∧ id ∈ w'.touched)) :
    Folding now rest w' where
  sound k r hr := by
    by_cases hk : k = id
    · subst hk
      exact (hnew r hr).1
    · rw [hothers k hk] at hr
      exact h.sound k r hr
  here t ht hmeasured k r hr howns := by
    by_cases hk : k = id
    · subst hk
      exact absurd (owns_iff.mp howns).1 ((hnew r hr).2.1 t ht)
    · rw [hothers k hk] at hr
      exact h.here t (hrest t ht) hmeasured k r hr howns
  late k r hr hlive hlate := by
    by_cases hk : k = id
    · subst hk
      obtain ⟨hbound, htouched'⟩ := (hnew r hr).2.2 hlate
      exact ⟨hbound, .inl htouched'⟩
    rw [hothers k hk] at hr
    obtain ⟨hbound, hdone | ⟨t, ht, first, hby, hid⟩⟩ := h.late k r hr hlive hlate
    · exact ⟨hbound, .inl (htouched k hdone)⟩
    · have htrack : t ∈ rest := (hgone t ht).resolve_right fun hown =>
        hk (by rw [← hid]; exact hown first hby)
      refine ⟨hbound, .inr ⟨t, htrack, first, ?_, hid⟩⟩
      -- The track that is to come finds the same record.
      obtain ⟨hfirst, howns, hleast⟩ := byTrack_eq_some_iff.mp hby
      refine byTrack_eq_some_iff.mpr ⟨?_, howns, fun k' hk' => ?_⟩
      · rw [hid, hothers k hk, ← hid]
        exact hfirst
      · obtain ⟨r', hr', howns'⟩ := hk'
        by_cases hsame : k' = id
        · subst hsame
          exact absurd (owns_iff.mp howns').1 ((hnew r' hr').2.1 t htrack)
        · rw [hothers k' hsame] at hr'
          exact hleast k' ⟨r', hr', howns'⟩

theorem Folding.remove (h : Folding now rest w)
    (hothers : ∀ k, k ≠ id → w'.partition.recordFor k = w.partition.recordFor k)
    (htouched : w'.touched = w.touched) (hgone : w'.partition.recordFor id = none) :
    Folding now rest w' := by
  refine h.change (fun _ ht => ht) (fun _ ht => .inl ht) hothers (fun k hk => ?_)
    (fun r' hr' => ?_)
  · rw [htouched]
    exact hk
  · rw [hgone] at hr'
    cases hr'

theorem Folding.shedOldest (h : Folding now rest w) :
    Folding now rest w.shedOldest := by
  unfold Work.shedOldest
  split
  · exact h
  · exact h.remove (fun k hk => (recordFor_evict ..).trans (if_neg hk)) rfl
      ((recordFor_evict ..).trans (if_pos rfl))

section FoldTrack

variable {tracks rest : List Track} {w₁ : Work}

/-- What a turn leaves to the turns after it. -/
structure Turn (track : Track) (id : ObjectId) (tracks rest : List Track) (w w₁ : Work) :
    Prop where
  fewer : ∀ t ∈ rest, t ∈ tracks
  own : ∀ t ∈ tracks, t ∈ rest ∨
    ∀ r, w.partition.byTrack t.trackId = some r → r.objectId = id
  other : ∀ t ∈ rest, t.trackId ≠ track.trackId
  others : ∀ k, k ≠ id → w₁.partition.recordFor k = w.partition.recordFor k
  touched : w₁.touched = w.touched

variable {wasCreated : Bool}

theorem drive_folding (h : Folding now tracks w)
    (hturn : Turn track id tracks rest w w₁) (hr : w₁.partition.recordFor id = some r)
    (hsound : r.Sound now) (hlive : r.lifecycle.isTerminal = false)
    (hhere : track.isPredicted = false → r.lifecycle ≠ .departed)
    (hbound : r.boundTrack = some track.trackId) :
    wp (drive wiring track now id wasCreated) (fun _ => Folding now rest) (fun _ _ => False)
      w₁ := by
  obtain ⟨t, ht, hcurrent⟩ := @trackTransition_returns wiring track now r hlive hhere
  refine wp_mono (fun _ w' hdriven => ?_) (fun exc w' hfailed => ?_) (drive_spec hr)
  · obtain ⟨t', ht', hmoved, hrecord⟩ := hdriven
    rw [ht] at ht'
    rw [← Except.ok.inj ht'] at hrecord
    have htouched : w'.touched = w.touched ++ [id] := by
      rw [hmoved.touched]
      exact congrArg (· ++ [id]) hturn.touched
    refine h.change hturn.fewer hturn.own
      (fun k hk => (hmoved.others k hk).trans (hturn.others k hk)) (fun k hk => ?_)
      (fun r' hr' => ?_)
    · rw [htouched]
      exact mem_append_left _ hk
    · rw [hrecord] at hr'
      rw [← some.inj hr']
      refine ⟨hsound.moved (ne_merged_of_live hlive) hcurrent, fun t ht heq => ?_, fun _ => ?_⟩
      · exact hturn.other t ht (some.inj (hbound.symm.trans heq)).symm
      · refine ⟨fun hnone => ?_, ?_⟩
        · have hnone' : r.boundTrack = none := hnone
          rw [hbound] at hnone'
          cases hnone'
        · rw [htouched]
          exact mem_append_right _ (mem_singleton_self id)
  · rw [ht] at hfailed
    cases hfailed.1

theorem opened_folding {method : BindingMethod} {confidence : PyFloat}
    (h : Folding now tracks w) (hturn : Turn track id tracks rest w w₁)
    (hr : w₁.partition.recordFor id = some r) (hsound : r.Sound now)
    (hlive : r.lifecycle.isTerminal = false) (hhere : r.lifecycle ≠ .departed)
    (hlate : ¬ r.LateFor now) (hunit : confidence.inUnit = true) :
    wp (openBinding wiring id track.trackId method confidence now)
      (fun _ => wp (drive wiring track now id wasCreated) (fun _ => Folding now rest)
        (fun _ _ => False))
      (fun _ _ => False) w₁ := by
  refine wp_mono (fun _ w₂ hbound => ?_) (fun exc w₂ hfailed => ?_) (openBinding_spec hr)
  · obtain ⟨closed, binding, confidence', -, htrack, -, hopen, hcurrent, hrecord⟩ := hbound.record
    have hturn' : Turn track id tracks rest w w₂ :=
      { hturn with
        others := fun k hk => (hbound.others k hk).trans (hturn.others k hk)
        touched := by
          rw [hbound.rest]
          exact hturn.touched }
    refine drive_folding h hturn' hrecord (hsound.rebound _ _) hlive (fun _ => hhere) ?_
    rw [← htrack]
    exact boundTrack_append rfl hopen hcurrent
  · rcases hfailed.2 with hlate' | hunit'
    · exact hlate hlate'
    · rw [hunit] at hunit'
      cases hunit'

theorem Folding.next (h : Folding now (track :: rest) w)
    (hnone : w.partition.byTrack track.trackId = none) : Folding now rest w where
  sound := h.sound
  here t ht := h.here t (mem_cons_of_mem _ ht)
  late k r hr hlive hlate := by
    obtain ⟨hbound, hdone | ⟨t, ht, first, hby, hid⟩⟩ := h.late k r hr hlive hlate
    · exact ⟨hbound, .inl hdone⟩
    · rcases mem_cons.mp ht with rfl | ht
      · rw [hnone] at hby
        cases hby
      · exact ⟨hbound, .inr ⟨t, ht, first, hby, hid⟩⟩

theorem foldTrack_folding
    (husable : wiring.binding.Usable)
    (h : Folding now (track :: rest) w) (hother : ∀ t ∈ rest, t.trackId ≠ track.trackId) :
    wp (foldTrack wiring now crossingEpoch track) (fun _ => Folding now rest)
      (fun _ _ => False) w := by
  -- The track itself finds its own object, or none.
  have hturn : ∀ (k : ObjectId) (w₁ : Work),
      (∀ r, w.partition.byTrack track.trackId = some r → r.objectId = k) →
      (∀ k', k' ≠ k → w₁.partition.recordFor k' = w.partition.recordFor k') →
      w₁.touched = w.touched → Turn track k (track :: rest) rest w w₁ := by
    intro k w₁ hown hothers htouched
    refine ⟨fun t ht => mem_cons_of_mem _ ht, fun t ht => ?_, hother, hothers, htouched⟩
    rcases mem_cons.mp ht with rfl | ht
    · exact .inr hown
    · exact .inl ht
  unfold foldTrack
  rw [wp_bind]
  refine wp_absorb (fun r hby => ?_) (fun exc _ hexc => ?_) (fun d c hnone hd hc => ?_)
    (fun d hnone hd hunmatched => ?_)
  · obtain ⟨hr, howns, -⟩ := byTrack_eq_some_iff.mp hby
    obtain ⟨hbound, hlive⟩ := owns_iff.mp howns
    obtain ⟨⟨r', hr', hobserved⟩, hsame⟩ :=
      recordFor_observe hr (measuredOf track) now
    refine drive_folding h (hturn _ _ (fun r₀ hr₀ => ?_) hsame rfl) hr'
      ((h.sound _ r hr).of_observed hobserved) ?_ (fun hmeasured => ?_) ?_
    · rw [hby] at hr₀
      rw [some.inj hr₀]
    · rw [hobserved.lifecycle]
      exact hlive
    · rw [hobserved.lifecycle]
      exact h.here track (mem_cons_self ..) hmeasured _ r hr howns
    · exact (boundTrack_congr hobserved.bindings).trans hbound
  · obtain ⟨d, hd⟩ := @bindReentry_returns wiring.hypot wiring.binding track.spatial
      track.classId now crossingEpoch wiring.hypot_nonneg husable w.partition.records
    unfold reentryOf at hexc
    rw [hd] at hexc
    cases hexc
  · obtain ⟨r, hmem, hconsidered⟩ := bindReentry_considered hd (.inl hc)
    have hr : w.partition.recordFor c.objectId = some r := by
      rw [hconsidered.objectId]
      exact mem_records.mp hmem
    have hfree := (Bool.and_eq_true_iff.mp hconsidered.reenterable).2
    have hlive : r.lifecycle.isTerminal = false := live_of_reenterable hconsidered.reenterable
    have hhere : r.lifecycle ≠ .departed := by
      rcases reenterable_state hconsidered.reenterable with h | h <;> rw [h] <;> exact nofun
    obtain ⟨⟨r', hr', hobserved⟩, hsame⟩ :=
      recordFor_observe hr (measuredOf track) now
    refine opened_folding h (hturn _ _ (fun r₀ hr₀ => ?_) hsame rfl) hr'
      ((h.sound _ r hr).of_observed hobserved) ?_ ?_ ?_
      (hconsidered.score_inUnit wiring.hypot_nonneg husable)
    · rw [hnone] at hr₀
      cases hr₀
    · rw [hobserved.lifecycle]
      exact hlive
    · rw [hobserved.lifecycle]
      exact hhere
    · -- A record that is late is bound to a track.
      rintro ⟨b, hb, hlate⟩
      rw [hobserved.bindings] at hb
      exact (h.late _ r hr hlive ⟨b, hb, hlate⟩).1 (by simpa using hfree)
  · have hshed : Folding now rest w.shedOldest := (h.next hnone).shedOldest
    refine wp_absorbNew hshed (fun k w₁ hminted => ?_)
    have hfresh : Turn track k rest rest w.shedOldest w₁ :=
      ⟨fun _ ht => ht, fun _ ht => .inl ht, hother, hminted.others, by rw [hminted.rest]⟩
    exact opened_folding hshed hfresh hminted.record (.of_new ..) rfl nofun
      (fun ⟨b, hb, _⟩ => by cases hb)
      (firstSightConfidence_inUnit wiring.hypot_nonneg husable hd)

theorem ageRecord_folding (h : Folding now [] w) :
    wp (ageRecord wiring now id) (fun _ => Folding now []) (fun _ _ => False) w := by
  refine wp_mono (fun _ w' haged => ?_) (fun exc w' hfailed => ?_) ageRecord_spec
  · rcases haged with ⟨rfl, -⟩ | ⟨r, t, haged⟩
    · exact h
    obtain ⟨closed, r', hclosed, hobserved, hrecord⟩ := haged.record
    refine h.change (fun _ ht => ht) (fun _ ht => .inl ht) haged.others (fun k hk => ?_)
      (fun r'' hr'' => ?_)
    · rw [haged.touched]
      exact hk
    · rw [hrecord] at hr''
      rw [← some.inj hr'']
      have hlive : r'.lifecycle ≠ .mergedInto := by
        rw [hobserved.lifecycle]
        exact ne_merged_of_live haged.live
      have hsound : r'.Sound now :=
        ((h.sound _ r haged.found).rebound closed r.identityConfidence).of_observed hobserved
      refine ⟨hsound.moved hlive haged.edge.ne_merged, fun t ht => (by cases ht), ?_⟩
      -- Its bindings are closed.
      rintro ⟨b, hb, hopen, -⟩
      have hb' : b ∈ closed := by
        have hsame : r'.bindings = closed := hobserved.bindings
        rw [← hsame]
        exact hb
      rw [hclosed b hb'] at hopen
      cases hopen
  · obtain ⟨-, r, hr, huntouched, hlive, hlate⟩ := hfailed
    obtain ⟨-, hdone | ⟨t, ht, -⟩⟩ := h.late _ r hr hlive hlate
    · exact huntouched hdone
    · cases ht

theorem foldFrame_returns
    (husable : wiring.binding.Usable)
    (hnodup : (tracks.map (·.trackId)).Nodup) (h : Folding now tracks w) :
    wp (foldFrame wiring tracks now crossingEpoch) (fun _ w' => w'.partition.Sound now)
      (fun _ _ => False) w := by
  unfold foldFrame
  rw [wp_bind]
  have hfolded := @wp_forEach PyException Work Track (fun _ _ => False) w
    (fun rest w' => Folding now rest w') (foldTrack wiring now crossingEpoch) tracks
    (by
      rintro t rest ⟨before, hsplit⟩ w' hfolding
      refine foldTrack_folding husable hfolding (fun t' ht' heq => ?_)
      rw [hsplit, map_append, map_cons, nodup_append] at hnodup
      exact (nodup_cons.mp hnodup.2.1).1 (mem_map.mpr ⟨t', ht', heq⟩))
    h
  refine wp_mono (fun _ w₁ hfolding => ?_) (fun _ _ h => h) hfolded
  rw [wp_bind, wp_read, wp_bind]
  have haged := @wp_forEach PyException Work ObjectId (fun _ _ => False) w₁
    (fun _ w' => Folding now [] w') (ageRecord wiring now) w₁.partition.ids
    (fun _ _ _ _ hfolding => ageRecord_folding hfolding) hfolding
  refine wp_mono (fun _ w₂ hfolding' => ?_) (fun _ _ h => h) haged
  rw [wp_bind, wp_read]
  obtain ⟨objects, hobjects⟩ := objects_ok
    (fun k r hr => (hfolding'.sound k r hr).toProjectable)
  rw [wp_ofExcept_ok hobjects]
  exact hfolding'.sound

end FoldTrack

end VisionOs.Registry
