/-
  Does a merged id stay resolvable?  Its record is kept for ever, but the one it leads to may be
  evicted or shed, a merged object that is split leads nowhere, and a population may be restored
  in part.
-/
import VisionOs.Registry.Restore
import VisionOs.Registry.Departures

namespace VisionOs.Registry

open Core Lib Effect RegistryPartition Option List RegistryAction Runs Finset ObjectRegistry
open OrderedDict
open VisualObjectFields

variable {wiring : RegistryWiring} {w w' : Work} {id : ObjectId} {track : Track} {now : Instant}
  {crossingEpoch : Bool} {p p' : RegistryPartition} {r r' : ObjectRecord}
  {Good Good' : ObjectRecord → Prop} {kept : ObjectId → Prop}

/-! ## Resolvable partitions -/

namespace RegistryPartition

/-- Some record was merged into the id. -/
def Target (p : RegistryPartition) (id : ObjectId) : Prop :=
  ∃ k r, p.recordFor k = some r ∧ r.mergedInto = some id

/-- The id's record was merged into another. -/
def MergedAway (p : RegistryPartition) (id : ObjectId) : Prop :=
  ∃ r, p.recordFor id = some r ∧ r.lifecycle = .mergedInto

structure Resolvable (Good : ObjectRecord → Prop) (kept : ObjectId → Prop)
    (p : RegistryPartition) : Prop where
  good : ∀ id r, p.recordFor id = some r → Good r
  arrives : ∀ id r, p.recordFor id = some r → Arrives p.forward id
  kept : ∀ id, kept id → p.MergedAway id

theorem forward_congr (h : p'.recordFor id = p.recordFor id) : p'.forward id = p.forward id := by
  unfold forward
  rw [h]

theorem forward_of_recordFor (hr : p.recordFor id = some r) : p.forward id = some r.mergedInto :=
  forward_eq_some.mpr ⟨r, hr, rfl⟩

theorem resolve_of_arrives (hprojectable : ∀ id r, p.recordFor id = some r → r.Projectable)
    (h : Arrives p.forward id) :
    ∃ o, p.resolve id = .ok (some o) ∧ o.lifecycle ≠ .mergedInto := by
  obtain ⟨survivor, hfollow, hfinal⟩ := @Arrives.follow_eq _ p.forward id _ p.table.keys h
    (fun x hx => by
      by_contra hno
      exact hx (map_eq_none_iff.mpr (get?_eq_none_iff.mpr hno)))
  obtain ⟨r, hr, hnone⟩ := forward_eq_some.mp hfinal
  obtain ⟨o, ho⟩ := (p.project_ok_iff r).mpr (hprojectable survivor r hr)
  have hlength : p.table.keys.length = p.table.size := length_map _
  refine ⟨o, ?_, ?_⟩
  · unfold resolve
    rw [← hlength, hfollow]
    simp only [bind_some, hr]
    rw [ho]
    rfl
  · -- What is published has the state of its record, which was merged into nothing.
    rw [project_lifecycle ho]
    intro hmerged
    exact (hprojectable survivor r hr).merged.mp hmerged hnone

namespace Resolvable

theorem mono (h : p.Resolvable Good kept)
    (hgood : ∀ id r, p.recordFor id = some r → Good r → Good' r) : p.Resolvable Good' kept :=
  ⟨fun id r hr => hgood id r hr (h.good id r hr), h.arrives, h.kept⟩

/-- Where one record changed, that one decides: it is merged into what it was before, or into
    nothing; and if it is gone, nothing was merged into it. -/
theorem change (h : p.Resolvable Good kept) (hothers : ∀ k, k ≠ id → p'.recordFor k = p.recordFor k)
    (hnew : ∀ r', p'.recordFor id = some r' → Good r' ∧
      (r'.mergedInto = none ∨ ∃ r, p.recordFor id = some r ∧ r'.mergedInto = r.mergedInto))
    (hgone : p'.recordFor id = none → ¬ p.Target id) (hkept : kept id → p'.MergedAway id) :
    p'.Resolvable Good kept := by
  have hsame : ∀ k, k ≠ id → p'.forward k = p.forward k :=
    fun k hk => forward_congr (hothers k hk)
  -- The changed record forwards as before, or nowhere, or is not there.
  have hself : p'.forward id = some none ∨ p'.forward id = p.forward id ∨ p'.forward id = none := by
    cases hr' : p'.recordFor id with
    | none => exact .inr (.inr (map_eq_none_iff.mpr hr'))
    | some r' =>
      rw [forward_of_recordFor hr']
      rcases (hnew r' hr').2 with hnone | ⟨r, hr, heq⟩
      · exact .inl (congrArg some hnone)
      · refine .inr (.inl ?_)
        rw [forward_of_recordFor hr, heq]
  -- A chase never comes to a record that is gone.
  have hway : ∀ a, (p'.forward id = none → a ≠ id) → Arrives p.forward a → Arrives p'.forward a := by
    intro a ha harrives
    refine @Arrives.mono _ p.forward p'.forward a (fun x => p'.forward id = none → x ≠ id)
      (fun x y _ hxy hnone hy => ?_) (fun x hx hfinal => ?_) (fun x y hx hxy => ?_) ha harrives
    · obtain ⟨r, hr, hmerged⟩ := forward_eq_some.mp hxy
      refine hgone (map_eq_none_iff.mp hnone) ⟨x, r, hr, ?_⟩
      rw [hmerged, hy]
    · by_cases hxid : x = id
      · subst hxid
        rcases hself with hnone | heq | habsent
        · exact .of_final hnone
        · exact .of_final (heq.trans hfinal)
        · exact absurd rfl (hx habsent)
      · exact .of_final ((hsame x hxid).trans hfinal)
    · by_cases hxid : x = id
      · subst hxid
        rcases hself with hnone | heq | habsent
        · exact .inr hnone
        · exact .inl (heq.trans hxy)
        · exact absurd rfl (hx habsent)
      · exact .inl ((hsame x hxid).trans hxy)
  refine ⟨fun k r hr => ?_, fun k r hr => ?_, fun k hk => ?_⟩
  · by_cases hkid : k = id
    · subst hkid
      exact (hnew r hr).1
    · rw [hothers k hkid] at hr
      exact h.good k r hr
  · have hpresent : p'.forward id = none → k ≠ id := by
      rintro hnone rfl
      rw [forward_of_recordFor hr] at hnone
      cases hnone
    by_cases hkid : k = id
    · subst hkid
      rcases (hnew r hr).2 with hnone | ⟨r₀, hr₀, -⟩
      · exact .of_final (forward_eq_some.mpr ⟨r, hr, hnone⟩)
      · exact hway k hpresent (h.arrives k r₀ hr₀)
    · have hr₀ := hr
      rw [hothers k hkid] at hr₀
      exact hway k hpresent (h.arrives k r hr₀)
  · by_cases hkid : k = id
    · subst hkid
      exact hkept hk
    · obtain ⟨r, hr, hmerged⟩ := h.kept k hk
      exact ⟨r, (hothers k hkid).trans hr, hmerged⟩

theorem not_kept (h : p.Resolvable Good kept) (hr : p.recordFor id = some r)
    (hstate : r.lifecycle ≠ .mergedInto) : ¬ kept id := by
  intro hkept
  obtain ⟨r', hr', hmerged⟩ := h.kept id hkept
  rw [hr] at hr'
  rw [← some.inj hr'] at hmerged
  exact hstate hmerged

theorem rewrite (h : p.Resolvable Good kept) (hr : p.recordFor id = some r)
    (hstate : r.lifecycle ≠ .mergedInto) (hothers : ∀ k, k ≠ id → p'.recordFor k = p.recordFor k)
    (hr' : p'.recordFor id = some r') (hgood : Good r') (hmerged : r'.mergedInto = r.mergedInto) :
    p'.Resolvable Good kept := by
  refine h.change hothers (fun r'' hr'' => ?_) (fun hnone => ?_)
    (fun hkept => absurd hkept (h.not_kept hr hstate))
  · rw [hr'] at hr''
    rw [← some.inj hr'']
    exact ⟨hgood, .inr ⟨r, hr, hmerged⟩⟩
  · rw [hr'] at hnone
    cases hnone

theorem remove (h : p.Resolvable Good kept) (hr : p.recordFor id = some r)
    (hstate : r.lifecycle ≠ .mergedInto) (htarget : ¬ p.Target id)
    (hothers : ∀ k, k ≠ id → p'.recordFor k = p.recordFor k)
    (hgone : p'.recordFor id = none) : p'.Resolvable Good kept := by
  refine h.change hothers (fun r' hr' => ?_) (fun _ => htarget)
    (fun hkept => absurd hkept (h.not_kept hr hstate))
  rw [hgone] at hr'
  cases hr'

end Resolvable

end RegistryPartition

/-! ## Frames -/

structure ObjectRecord.Ready (now : Instant) (r : ObjectRecord) : Prop extends r.Projectable where
  dated : r.lifecycle.isTerminal = false →
    r.firstSeen.ns ≤ now.ns ∧ r.lastConfirmed.ns ≤ now.ns

namespace ObjectRecord.Ready

theorem of_observed {sighting : Option Sighting} (h : r.Ready now)
    (hlive : r.lifecycle.isTerminal = false) (hobserved : Observed sighting now r r') :
    r'.Ready now := by
  obtain ⟨hfirst, hconfirmed⟩ := h.dated hlive
  have hprojectable := h.toProjectable.of_observed hobserved hfirst hconfirmed
  rw [← hobserved.lastSeen]
  exact ⟨hprojectable, fun _ => ⟨hprojectable.seen_le, hprojectable.confirmed_le⟩⟩

theorem moved {bindings : List TrackBinding} {confidence : PyFloat} {state : LifecycleState}
    (h : r.Ready now) (hlive : r.lifecycle.isTerminal = false) (hstate : state ≠ .mergedInto) :
    ({ r with bindings, identityConfidence := confidence, lifecycle := state } :
      ObjectRecord).Ready now := by
  have hnone : r.mergedInto = none := by
    by_contra hsome
    exact ne_merged_of_live hlive (h.merged.mpr hsome)
  exact ⟨⟨⟨fun heq => absurd heq hstate, fun hsome => absurd hnone hsome⟩, h.notSelf, h.observed,
    h.seen_le, h.confirmed_le⟩, fun _ => h.dated hlive⟩

theorem of_new (p : RegistryPartition) (id : ObjectId) (s : Sighting) (now : Instant) :
    (p.newRecord id s now).Ready now :=
  ⟨(ObjectRecord.Sound.of_new p id s now).toProjectable, fun _ => ⟨le_rfl, le_rfl⟩⟩

end ObjectRecord.Ready

/-- At a track's turn, no object is shed that another was merged into, and no merged object
    gives its id to a new one. -/
def SparesSurvivors (wiring : RegistryWiring) (now : Instant) (crossingEpoch : Bool)
    (track : Track) (w : Work) : Prop :=
  Unmatched wiring track now crossingEpoch w.partition →
    (∀ r, w.partition.shedNext = some r → ¬ w.partition.Target r.objectId) ∧
    ¬ w.partition.MergedAway (wiring.idAt w.draws now)

namespace RegistryPartition.Resolvable

theorem worked {B : List TrackBinding → Prop} {base : Work}
    (hworked : WorkedOn wiring track now B id r base w') (hready : r.Ready now)
    (hlive : r.lifecycle.isTerminal = false) :
    ∃ r', w'.partition.recordFor id = some r' ∧ r'.Ready now ∧ r'.mergedInto = r.mergedInto := by
  obtain ⟨bindings, confidence, state, hrecord, -, hmoved, -⟩ := hworked.record
  refine ⟨_, hrecord, hready.moved hlive ?_, rfl⟩
  rcases hmoved with ⟨rfl, -⟩ | ⟨t, ht, rfl, -⟩
  · exact ne_merged_of_live hlive
  · obtain ⟨-, -, hactive | ⟨-, hstill⟩ | ⟨-, hedge⟩⟩ := trackTransition_ok ht
    · rw [hactive]
      exact nofun
    · rw [hstill]
      exact nofun
    · exact hedge.ne_merged

theorem shedOldest (h : w.partition.Resolvable Good kept)
    (hspared : ∀ r, w.partition.shedNext = some r → ¬ w.partition.Target r.objectId) :
    w.shedOldest.partition.Resolvable Good kept := by
  unfold Work.shedOldest
  cases hnext : w.partition.shedNext with
  | none => exact h
  | some r =>
    have hmem : r ∈ w.partition.shedCandidates := by
      unfold shedNext at hnext
      split at hnext
      · exact mem_of_mem_head? hnext
      · cases hnext
    obtain ⟨hr, hprovisional⟩ := mem_shedCandidates.mp hmem
    refine h.remove hr ?_ (hspared r hnext)
      (fun k hk => (recordFor_evict ..).trans (if_neg hk))
      ((recordFor_evict ..).trans (if_pos rfl))
    rw [hprovisional]
    exact nofun

/-- A turn leaves every merged id resolvable. -/
theorem turn (h : w.partition.Resolvable (ObjectRecord.Ready now) kept)
    (hspares : SparesSurvivors wiring now crossingEpoch track w)
    (hturn : TrackTurn wiring track now crossingEpoch w w') :
    w'.partition.Resolvable (ObjectRecord.Ready now) kept := by
  -- The record that a frame is folded into is live, and stays so until the turn moves it.
  have hold : ∀ {B : List TrackBinding → Prop} {r r' : ObjectRecord},
      w.partition.recordFor r.objectId = some r → r.lifecycle.isTerminal = false →
      ObjectRecord.Observed (measuredOf track) now r r' →
      WorkedOn wiring track now B r.objectId r' w w' →
      w'.partition.Resolvable (ObjectRecord.Ready now) kept := by
    intro B r r' hr hlive hobserved hworked
    have hlive' : r'.lifecycle.isTerminal = false := by
      rw [hobserved.lifecycle]
      exact hlive
    obtain ⟨r'', hr'', hready, hmerged⟩ :=
      worked hworked ((h.good _ r hr).of_observed hlive hobserved) hlive'
    exact h.rewrite hr (ne_merged_of_live hlive) hworked.others hr'' hready
      (hmerged.trans hobserved.mergedInto)
  cases hturn with
  | continued r r' hby hobserved hworked =>
    obtain ⟨hr, howns, -⟩ := byTrack_eq_some_iff.mp hby
    exact hold hr (ObjectRecord.owns_iff.mp howns).2 hobserved hworked
  | reentered r r' hnone hmatched hr hreenterable hobserved hworked =>
    exact hold hr (live_of_reenterable hreenterable) hobserved hworked
  | minted hunmatched hworked =>
    obtain ⟨hshed, hdrawn⟩ := hspares hunmatched
    obtain ⟨r'', hr'', hready, hmerged⟩ := worked hworked (.of_new ..) rfl
    refine (h.shedOldest hshed).change hworked.others (fun r' hr' => ?_) (fun hnone => ?_)
      (fun hkept => absurd (h.kept _ hkept) hdrawn)
    · rw [hr''] at hr'
      rw [← some.inj hr']
      exact ⟨hready, .inl hmerged⟩
    · rw [hr''] at hnone
      cases hnone
  | refused hunmatched hsame =>
    rw [hsame]
    exact h.shedOldest (hspares hunmatched).1
  | raised hnone hraised hsame =>
    rw [hsame]
    exact h

theorem age (h : w.partition.Resolvable (ObjectRecord.Ready now) kept) :
    wp (ageRecord wiring now id)
      (fun _ w' => w'.partition.Resolvable (ObjectRecord.Ready now) kept)
      (fun _ w' => w'.partition.Resolvable (ObjectRecord.Ready now) kept) w := by
  refine wp_mono (fun _ w' haged => ?_) (fun _ w' hfailed => ?_) ageRecord_spec
  · rcases haged with ⟨rfl, -⟩ | ⟨r, t, haged⟩
    · exact h
    obtain ⟨closed, r', -, hobserved, hrecord⟩ := haged.record
    have hready : ObjectRecord.Ready now { r with bindings := closed } :=
      (h.good _ r haged.found).moved haged.live (ne_merged_of_live haged.live)
    have hready' : r'.Ready now := hready.of_observed haged.live hobserved
    have hlive : r'.lifecycle.isTerminal = false := by
      rw [hobserved.lifecycle]
      exact haged.live
    exact h.rewrite haged.found (ne_merged_of_live haged.live) haged.others hrecord
      (hready'.moved hlive haged.edge.ne_merged) hobserved.mergedInto
  · rw [hfailed.1]
    exact h

end RegistryPartition.Resolvable

/-! ## A sweep -/

/-- A sweep evicts the record. -/
def ObjectRecord.Doomed (wiring : RegistryWiring) (moment : Instant) (r : ObjectRecord) : Prop :=
  r.lifecycle = .expired ∨
    ∃ t, driveHorizons wiring.lifecycle r moment = .ok (some t) ∧ t.current = .expired

/-- No record that the sweep evicts has another merged into it. -/
def Sweepable (wiring : RegistryWiring) (moment : Instant) (p : RegistryPartition) : Prop :=
  ∀ id r, p.recordFor id = some r → r.Doomed wiring moment → ¬ p.Target id

structure SweepingMerges (kept : ObjectId → Prop) (p : RegistryPartition) (rest : List ObjectId)
    (w : Work) : Prop where
  resolvable : w.partition.Resolvable ObjectRecord.Projectable kept
  coming : ∀ id ∈ rest, w.partition.recordFor id = p.recordFor id
  targets : ∀ id, w.partition.Target id → p.Target id

theorem SweepingMerges.step {rest : List ObjectId} (h : SweepingMerges kept p rest w)
    (hid : id ∉ rest) (hothers : ∀ k, k ≠ id → w'.partition.recordFor k = w.partition.recordFor k)
    (hself : ∀ r', w'.partition.recordFor id = some r' → r'.mergedInto = none)
    (hresolvable : w'.partition.Resolvable ObjectRecord.Projectable kept) :
    SweepingMerges kept p rest w' := by
  refine ⟨hresolvable, fun k hk => ?_, fun target htarget => h.targets target ?_⟩
  · rw [hothers k (by rintro rfl; exact hid hk)]
    exact h.coming k hk
  · obtain ⟨k, r, hr, hmerged⟩ := htarget
    by_cases hk : k = id
    · subst hk
      rw [hself r hr] at hmerged
      cases hmerged
    · exact ⟨k, r, (hothers k hk).symm.trans hr, hmerged⟩

variable {moment : Instant}

theorem sweepRecord_merges {rest : List ObjectId}
    (hsweepable : Sweepable wiring moment p) (hid : id ∉ rest)
    (h : SweepingMerges kept p (id :: rest) w) :
    wp (sweepRecord wiring moment id) (fun _ w' => SweepingMerges kept p rest w')
      (fun _ w' => w'.partition.Resolvable ObjectRecord.Projectable kept) w := by
  have hnext : SweepingMerges kept p rest w :=
    { h with coming := fun k hk => h.coming k (mem_cons_of_mem _ hk) }
  have hsame : w.partition.recordFor id = p.recordFor id := h.coming id (mem_cons_self ..)
  -- A record that goes was no target, before the sweep or since.
  have hgone : ∀ {r : ObjectRecord} {w₁ w₂ : Work}, p.recordFor id = some r →
      r.Doomed wiring moment → SweepingMerges kept p rest w₁ →
      (∃ r₁, w₁.partition.recordFor id = some r₁ ∧ r₁.lifecycle ≠ .mergedInto) →
      Departed id w₁ w₂ → SweepingMerges kept p rest w₂ := by
    rintro r w₁ w₂ hr hdoomed h₁ ⟨r₁, hr₁, hstate⟩ hdeparted
    refine h₁.step hid hdeparted.others (fun r' hr' => ?_)
      (h₁.resolvable.remove hr₁ hstate (fun htarget => hsweepable id r hr hdoomed
        (h₁.targets id htarget)) hdeparted.others hdeparted.gone)
    rw [hdeparted.gone] at hr'
    cases hr'
  -- A record that moved was live.
  have hswept : ∀ {r : ObjectRecord} {t : LifecycleTransition} {w₁ : Work},
      w.partition.recordFor id = some r → r.lifecycle.isTerminal = false →
      driveHorizons wiring.lifecycle r moment = .ok (some t) → SweptOver id r t w w₁ →
      SweepingMerges kept p rest w₁ ∧
        ∃ r₁, w₁.partition.recordFor id = some r₁ ∧ r₁.lifecycle ≠ .mergedInto := by
    intro r t w₁ hr hlive hmoves hover
    obtain ⟨closed, -, hrecord⟩ := hover.record
    have hprojectable := h.resolvable.good id r hr
    have hnone : r.mergedInto = none := by
      by_contra hsome
      exact ne_merged_of_live hlive (hprojectable.merged.mpr hsome)
    have hstate := (away_of_driveHorizons hmoves).ne_merged
    refine ⟨hnext.step hid hover.others (fun r' hr' => ?_) (h.resolvable.rewrite hr
      (ne_merged_of_live hlive) hover.others hrecord ?_ rfl), _, hrecord, hstate⟩
    · rw [hrecord] at hr'
      rw [← some.inj hr']
      exact hnone
    · exact ⟨⟨fun heq => absurd heq hstate, fun hsome => absurd hnone hsome⟩,
        hprojectable.notSelf, hprojectable.observed, hprojectable.seen_le,
        hprojectable.confirmed_le⟩
  refine wp_mono ?_ ?_ sweepRecord_spec
  · rintro - w' (⟨rfl, -⟩ | ⟨hdeparted, r, hr, hexpired⟩ |
      ⟨r, t, swept, hr, hlive, hmoves, hover, hend⟩)
    · exact hnext
    · refine hgone (hsame ▸ hr) (.inl hexpired) hnext ⟨r, hr, ?_⟩ hdeparted
      rw [hexpired]
      exact nofun
    · obtain ⟨hafter, hstate⟩ := hswept hr hlive hmoves hover
      rcases hend with ⟨-, rfl⟩ | ⟨hexpired, hdeparted⟩
      · exact hafter
      · exact hgone (hsame ▸ hr) (.inr ⟨t, hmoves, hexpired⟩) hafter hstate hdeparted
  · rintro - w' ⟨r, hr, ⟨-, rfl, -⟩ | ⟨t, hlive, hmoves, ⟨rfl, -⟩ | ⟨-, hover, -⟩⟩⟩
    · exact h.resolvable
    · exact h.resolvable
    · exact (hswept hr hlive hmoves hover).1.resolvable

theorem sweepRecords_merges (hsweepable : Sweepable wiring moment w.partition)
    (h : w.partition.Resolvable ObjectRecord.Projectable kept) :
    wp (forEach (sweepRecord wiring moment) w.partition.ids)
      (fun _ w' => w'.partition.Resolvable ObjectRecord.Projectable kept)
      (fun _ w' => w'.partition.Resolvable ObjectRecord.Projectable kept) w := by
  have hloop := @wp_forEach PyException Work ObjectId
    (fun _ w' => w'.partition.Resolvable ObjectRecord.Projectable kept) w
    (fun rest w' => SweepingMerges kept w.partition rest w') (sweepRecord wiring moment)
    w.partition.ids ?_ ⟨h, fun _ _ => rfl, fun _ htarget => htarget⟩
  · exact wp_mono (fun _ _ h' => h'.resolvable) (fun _ _ h' => h') hloop
  · rintro id rest ⟨before, hsplit⟩ w' hw'
    have hnodup := w.partition.nodup_ids
    rw [hsplit, nodup_append] at hnodup
    exact sweepRecord_merges hsweepable (nodup_cons.mp hnodup.2.1).1 hw'

/-! ## Merging and splitting -/

theorem merge_resolvable {source target : ObjectRecord}
    (h : p.Resolvable ObjectRecord.Projectable kept)
    (hsource : p.recordFor source.objectId = some source)
    (htarget : p.recordFor target.objectId = some target)
    (hlive : source.lifecycle.isTerminal = false) (hmerge : p.merge source target now = .ok p') :
    p'.Resolvable ObjectRecord.Projectable kept := by
  obtain ⟨hne, hfinal, ⟨bindings, -, hsource'⟩, ⟨classId, htarget'⟩, hothers⟩ :=
    merge_ok hsource htarget hmerge
  have hs := h.good _ source hsource
  have ht := h.good _ target htarget
  have hsourceNone : source.mergedInto = none := by
    by_contra hsome
    exact ne_merged_of_live hlive (hs.merged.mpr hsome)
  -- The source forwards to the target, and nothing else changes.
  have hforward : ∀ k, k ≠ source.objectId → p'.forward k = p.forward k := by
    intro k hk
    by_cases hkt : k = target.objectId
    · subst hkt
      rw [forward_of_recordFor htarget',
        forward_of_recordFor htarget]
    · exact forward_congr (hothers k hk hkt)
  have htargetFinal : p'.forward target.objectId = some none := by
    rw [forward_of_recordFor htarget']
    exact congrArg some hfinal
  have hvia : p'.forward source.objectId = some (some target.objectId) :=
    forward_of_recordFor hsource'
  have hway : ∀ a, Arrives p.forward a → Arrives p'.forward a := by
    intro a ha
    refine @Arrives.mono _ p.forward p'.forward a (fun _ => True) (fun _ _ _ _ => trivial)
      (fun x _ hx => ?_) (fun x y _ hxy => .inl ?_) trivial ha
    · by_cases hxs : x = source.objectId
      · subst hxs
        exact .of_via hvia (.of_final htargetFinal)
      · exact .of_final ((hforward x hxs).trans hx)
    · rw [hforward x ?_]
      · exact hxy
      · rintro rfl
        rw [forward_of_recordFor hsource, hsourceNone] at hxy
        cases hxy
  refine ⟨fun k r hr => ?_, fun k r hr => ?_, fun k hk => ?_⟩
  · by_cases hks : k = source.objectId
    · subst hks
      rw [hsource'] at hr
      rw [← some.inj hr]
      exact ⟨⟨fun _ => nofun, fun _ => rfl⟩, fun heq => hne (some.inj heq).symm,
        hs.observed, hs.seen_le, hs.confirmed_le⟩
    by_cases hkt : k = target.objectId
    · subst hkt
      rw [htarget'] at hr
      rw [← some.inj hr]
      exact ⟨ht.merged, ht.notSelf, add_nonneg ht.observed hs.observed,
        (min_le_left _ _).trans ht.seen_le, ht.confirmed_le⟩
    · rw [hothers k hks hkt] at hr
      exact h.good k r hr
  · by_cases hks : k = source.objectId
    · subst hks
      exact .of_via hvia (.of_final htargetFinal)
    by_cases hkt : k = target.objectId
    · subst hkt
      exact .of_final htargetFinal
    · rw [hothers k hks hkt] at hr
      exact hway k (h.arrives k r hr)
  · obtain ⟨r, hr, hmerged⟩ := h.kept k hk
    by_cases hks : k = source.objectId
    · subst hks
      exact ⟨_, hsource', rfl⟩
    by_cases hkt : k = target.objectId
    · subst hkt
      rw [htarget] at hr
      rw [← some.inj hr] at hmerged
      exact ⟨_, htarget', hmerged⟩
    · exact ⟨r, (hothers k hks hkt).trans hr, hmerged⟩

variable {point : Instant} {successorId : ObjectId}

theorem Cut.resolvable (h : w.partition.Resolvable ObjectRecord.Projectable kept)
    (hr : w.partition.recordFor r.objectId = some r) (hstate : r.lifecycle ≠ .mergedInto)
    (hpoint : r.firstSeen.ns < point.ns ∧ point.ns < r.lastSeen.ns) (hcut : Cut r point w w') :
    w'.partition.Resolvable ObjectRecord.Projectable kept := by
  have hprojectable := h.good _ r hr
  refine h.rewrite hr hstate hcut.others hcut.original
    ⟨hprojectable.merged, hprojectable.notSelf, ?_, hpoint.1.le, min_le_right _ _⟩ rfl
  exact le_trans (by decide) (le_max_left 1 _)

theorem Divided.resolvable {cut : Work} (h : cut.partition.Resolvable ObjectRecord.Projectable kept)
    (hprojectable : r.Projectable) (hstate : r.lifecycle ≠ .mergedInto)
    (hpoint : r.firstSeen.ns < point.ns ∧ point.ns < r.lastSeen.ns)
    (hdivided : Divided r point successorId cut w') :
    w'.partition.Resolvable ObjectRecord.Projectable kept := by
  refine h.change hdivided.others (fun r' hr' => ?_) (fun hnone => ?_) (fun hkept => ?_)
  · rw [hdivided.successor] at hr'
    rw [← some.inj hr']
    refine ⟨⟨⟨fun heq => absurd heq hstate, fun hsome => absurd rfl hsome⟩, nofun, ?_, hpoint.2.le,
      hprojectable.confirmed_le⟩, .inl rfl⟩
    exact le_trans (by decide) (le_max_left 1 _)
  · rw [hdivided.successor] at hnone
    cases hnone
  · obtain ⟨r', hr', -⟩ := h.kept _ hkept
    rw [hdivided.fresh] at hr'
    cases hr'

/-! ## Restoring -/

variable {saved rest : List VisualObject} {snapshot : PartitionSnapshot} {o : VisualObject}

namespace RegistryPartition

def forwardWith (p : RegistryPartition) (saved : List VisualObject) :
    Forwards ObjectId := fun id =>
  (p.forward id).or ((saved.find? (·.objectId = id)).map (·.mergedInto))

def newIds (p : RegistryPartition) (saved : List VisualObject) : Finset ObjectId :=
  (saved.map (·.objectId)).toFinset.filter (fun id => (p.recordFor id).isNone)

/-- There is room for all saved objects, and all their bindings can be closed. -/
structure Takes (p : RegistryPartition) (takenAt : Instant) (saved : List VisualObject) :
    Prop where
  room : (p.table.size : Int) + (p.newIds saved).card ≤ p.policy.maxObjectsPerCamera
  timely : ∀ o ∈ saved, p.recordFor o.objectId = none → ∀ b ∈ o.trackBindings,
    TrackBinding.isOpen b = true → b.boundFrom.ns ≤ takenAt.ns

/-- What the snapshot merged away arrives somewhere, and the partition takes it. -/
def Restorable (p : RegistryPartition) (snapshot : PartitionSnapshot) : Prop :=
  ∀ o ∈ snapshot.objects, o.lifecycle = .mergedInto → p.recordFor o.objectId = none →
    p.Takes snapshot.takenAt snapshot.objects ∧
    Arrives (p.forwardWith snapshot.objects) o.objectId

theorem mem_newIds : id ∈ p.newIds saved ↔ id ∈ saved.map (·.objectId) ∧ p.recordFor id = none := by
  unfold newIds
  rw [Finset.mem_filter, List.mem_toFinset, Option.isNone_iff_eq_none]

theorem forwardWith_cons_of_present (hr : p.recordFor o.objectId = some r) :
    p.forwardWith (o :: rest) = p.forwardWith rest := by
  funext id
  unfold forwardWith
  by_cases hid : o.objectId = id
  · rw [← hid, forward_of_recordFor hr]
    rfl
  · rw [find?_cons_of_neg (by simpa using hid)]

theorem forwardWith_of_adopt (hnone : p.recordFor o.objectId = none)
    (hself : p'.recordFor o.objectId = some r) (hmerged : r.mergedInto = o.mergedInto)
    (hothers : ∀ k, k ≠ o.objectId → p'.recordFor k = p.recordFor k) :
    p'.forwardWith rest = p.forwardWith (o :: rest) := by
  funext id
  unfold forwardWith
  by_cases hid : o.objectId = id
  · have hnone' : p.forward id = none := by
      rw [← hid]
      exact map_eq_none_iff.mpr hnone
    rw [hnone', ← hid, forward_of_recordFor hself, hmerged,
      find?_cons_of_pos (by simp)]
    rfl
  · rw [find?_cons_of_neg (by simpa using hid), forward_congr (hothers id (Ne.symm hid))]

namespace Takes

variable {takenAt : Instant}

theorem skip (h : p.Takes takenAt (o :: rest)) : p.Takes takenAt rest := by
  have hsub : p.newIds rest ⊆ p.newIds (o :: rest) := by
    intro id hid
    obtain ⟨hmem, hnone⟩ := mem_newIds.mp hid
    exact mem_newIds.mpr ⟨mem_cons_of_mem _ hmem, hnone⟩
  have hcard := card_le_card hsub
  have hroom := h.room
  exact ⟨by omega, fun o' ho' => h.timely o' (mem_cons_of_mem _ ho')⟩

theorem adopt (h : p.Takes takenAt (o :: rest)) (hnone : p.recordFor o.objectId = none)
    (hself : p'.recordFor o.objectId = some r)
    (hothers : ∀ k, k ≠ o.objectId → p'.recordFor k = p.recordFor k)
    (hsize : p'.policy = p.policy ∧ p'.table.size ≤ p.table.size + 1) :
    p'.Takes takenAt rest := by
  have hmem : o.objectId ∈ p.newIds (o :: rest) := mem_newIds.mpr ⟨by simp, hnone⟩
  have hsub : p'.newIds rest ⊆ (p.newIds (o :: rest)).erase o.objectId := by
    intro id hid
    obtain ⟨hid', hnone'⟩ := mem_newIds.mp hid
    have hne : id ≠ o.objectId := by
      rintro rfl
      rw [hself] at hnone'
      cases hnone'
    rw [hothers id hne] at hnone'
    exact mem_erase.mpr ⟨hne, mem_newIds.mpr ⟨mem_cons_of_mem _ hid', hnone'⟩⟩
  have hcard := card_le_card hsub
  rw [card_erase_of_mem hmem] at hcard
  have hpos := card_pos.mpr ⟨_, hmem⟩
  have hroom := h.room
  refine ⟨?_, fun o' ho' hnone' => ?_⟩
  · rw [hsize.1]
    have hle := hsize.2
    omega
  · by_cases hid : o'.objectId = o.objectId
    · rw [hid, hself] at hnone'
      cases hnone'
    · rw [hothers _ hid] at hnone'
      exact h.timely o' (mem_cons_of_mem _ ho') hnone'

variable {exc : PyException}

theorem not_full (h : p.Takes takenAt (o :: rest)) (hnone : p.recordFor o.objectId = none)
    {bindings : List TrackBinding} :
    p.adoptSaved o bindings ≠ .error exc := by
  intro hadopt
  have hfull := full_of_adoptSaved hnone hadopt
  have hmem : o.objectId ∈ p.newIds (o :: rest) := mem_newIds.mpr ⟨by simp, hnone⟩
  have hpos := card_pos.mpr ⟨_, hmem⟩
  have hroom := h.room
  omega

theorem not_late (h : p.Takes takenAt (o :: rest)) (hnone : p.recordFor o.objectId = none)
    : o.trackBindings.mapM (closeBinding takenAt) ≠ .error exc := by
  intro hlate
  obtain ⟨bindings, hbindings, -⟩ := mapM_returns (fun b hb =>
    closeBinding_ok_iff.mpr (h.timely o (mem_cons_self ..) hnone b hb))
  cases hbindings.symm.trans hlate

end Takes

end RegistryPartition

/-- What holds while a snapshot is restored that fits: what is saved and not yet restored
    leads, with the camera, where everything saved led at the start. -/
structure Restoring (kept : ObjectId → Prop) (takenAt : Instant) (next : Forwards ObjectId)
    (rest : List VisualObject) (w : Work) : Prop where
  good : ∀ id r, w.partition.recordFor id = some r → r.Projectable
  kept : ∀ id, kept id → w.partition.MergedAway id
  leads : w.partition.forwardWith rest = next
  takes : w.partition.Takes takenAt rest

theorem restored_beside {bindings : List TrackBinding} (hnone : p.recordFor o.objectId = none)
    (hadopt : p.adoptSaved o bindings = .ok p')
    (hgood : ∀ id r, p.recordFor id = some r → r.Projectable)
    (hkept : ∀ id, kept id → p.MergedAway id) :
    (∀ id r, p'.recordFor id = some r → r.Projectable) ∧ ∀ id, kept id → p'.MergedAway id := by
  obtain ⟨hself, hothers⟩ := recordFor_adoptSaved hadopt
  refine ⟨fun id r hr => ?_, fun id hid => ?_⟩
  · by_cases heq : id = o.objectId
    · subst heq
      rw [hself] at hr
      rw [← some.inj hr]
      exact projectable_recordFrom ..
    · rw [hothers id heq] at hr
      exact hgood id r hr
  · obtain ⟨r, hr, hmerged⟩ := hkept id hid
    refine ⟨r, (hothers id ?_).trans hr, hmerged⟩
    rintro rfl
    rw [hnone] at hr
    cases hr

/-- With the saved objects, every id of the camera still leads to one that was not merged, and
    so does every id that was saved. -/
theorem arrives_forwardWith (hrestorable : p.Restorable snapshot)
    (h : p.Resolvable ObjectRecord.Projectable kept)
    (hid : p.forwardWith snapshot.objects id ≠ none) :
    Arrives (p.forwardWith snapshot.objects) id := by
  have hsame : ∀ {k target}, p.forward k = some target →
      p.forwardWith snapshot.objects k = some target := by
    intro k target hk
    unfold forwardWith
    rw [hk]
    rfl
  cases hr : p.recordFor id with
  | some r =>
    exact @Arrives.mono _ p.forward _ id (fun _ => True) (fun _ _ _ _ => trivial)
      (fun x _ hx => .of_final (hsame hx)) (fun x y _ hxy => .inl (hsame hxy)) trivial
      (h.arrives id r hr)
  | none =>
    -- The id is that of a saved object, which is merged or leads nowhere.
    have hforward : p.forwardWith snapshot.objects id =
        (snapshot.objects.find? (·.objectId = id)).map (·.mergedInto) := by
      unfold forwardWith forward
      rw [hr]
      rfl
    cases hfind : snapshot.objects.find? (·.objectId = id) with
    | none =>
      rw [hforward, hfind] at hid
      exact absurd rfl hid
    | some o =>
      have ho := mem_of_find?_eq_some hfind
      have hoid : o.objectId = id := by simpa using find?_some hfind
      by_cases hmerged : o.lifecycle = .mergedInto
      · rw [← hoid]
        exact (hrestorable o ho hmerged (by rw [hoid]; exact hr)).2
      · have hnone : o.mergedInto = none := by
          by_contra hsome
          exact hmerged ((postInit_eq_ok.mp o.accepted).2.1.mpr hsome)
        refine .of_final ?_
        rw [hforward, hfind, ← hnone]
        rfl

theorem restoreObjects_takes (htakes : w.partition.Takes snapshot.takenAt snapshot.objects)
    (hgood : ∀ id r, w.partition.recordFor id = some r → r.Projectable)
    (hkept : ∀ id, kept id → w.partition.MergedAway id) :
    wp (restoreObjects snapshot.takenAt snapshot.objects)
      (fun _ w' => Restoring kept snapshot.takenAt (w.partition.forwardWith snapshot.objects) [] w')
      (fun _ _ => False) w := by
  refine wp_restoreObjects (fun o rest w₁ h₁ hpresent => ?_)
    (fun o rest w₁ p bindings h₁ hnone _ hadopt => ?_)
    (fun o rest w₁ bindings exc h₁ hnone hfull => ?_) (fun o rest w₁ exc h₁ hnone hlate => ?_)
    ⟨hgood, hkept, rfl, htakes⟩
  · obtain ⟨r, hr⟩ := hpresent
    refine ⟨h₁.good, h₁.kept, ?_, h₁.takes.skip⟩
    rw [← forwardWith_cons_of_present hr]
    exact h₁.leads
  · obtain ⟨hself, hothers⟩ := recordFor_adoptSaved hadopt
    obtain ⟨hgood', hkept'⟩ := restored_beside hnone hadopt h₁.good h₁.kept
    refine ⟨hgood', hkept', ?_, ?_⟩
    · rw [forwardWith_of_adopt hnone hself rfl hothers]
      exact h₁.leads
    · exact h₁.takes.adopt hnone hself hothers (size_adoptSaved hadopt)
  · exact absurd hfull (h₁.takes.not_full hnone)
  · exact absurd hlate (h₁.takes.not_late hnone)

theorem restoreObjects_beside (h : w.partition.Resolvable ObjectRecord.Projectable kept)
    (hnone : ∀ o ∈ snapshot.objects, w.partition.recordFor o.objectId = none →
      o.mergedInto = none) :
    wp (restoreObjects snapshot.takenAt snapshot.objects)
      (fun _ w' => w'.partition.Resolvable ObjectRecord.Projectable kept)
      (fun _ w' => w'.partition.Resolvable ObjectRecord.Projectable kept) w := by
  refine wp_mono (fun _ _ h' => h'.1) (fun _ _ h' => h') (wp_restoreObjects (I := fun rest w' =>
    w'.partition.Resolvable ObjectRecord.Projectable kept ∧
      ∀ o ∈ rest, w'.partition.recordFor o.objectId = none → o.mergedInto = none)
    ?_ ?_ ?_ ?_ ⟨h, hnone⟩)
  · rintro o rest w₁ ⟨h₁, hrest⟩ -
    exact ⟨h₁, fun o' ho' => hrest o' (mem_cons_of_mem _ ho')⟩
  · rintro o rest w₁ p bindings ⟨h₁, hrest⟩ hfresh - hadopt
    obtain ⟨hself, hothers⟩ := recordFor_adoptSaved hadopt
    obtain ⟨-, hkept'⟩ := restored_beside hfresh hadopt h₁.good h₁.kept
    refine ⟨h₁.change hothers (fun r' hr' => ?_) (fun hgone => ?_) (hkept' _), fun o' ho' hnew => ?_⟩
    · rw [hself] at hr'
      rw [← some.inj hr']
      exact ⟨projectable_recordFrom .., .inl (hrest o (mem_cons_self ..) hfresh)⟩
    · rw [hself] at hgone
      cases hgone
    · refine hrest o' (mem_cons_of_mem _ ho') ?_
      rw [← hothers]
      · exact hnew
      · intro heq
        rw [heq] at hnew
        exact absurd (hself.symm.trans hnew) (some_ne_none _)
  · rintro o rest w₁ bindings exc ⟨h₁, -⟩ - -
    exact ⟨h₁, fun o' ho' => absurd ho' not_mem_nil⟩
  · rintro o rest w₁ exc ⟨h₁, -⟩ - -
    exact h₁

theorem restoreObjects_merges (hrestorable : w.partition.Restorable snapshot)
    (h : w.partition.Resolvable ObjectRecord.Projectable kept) :
    wp (restoreObjects snapshot.takenAt snapshot.objects)
      (fun _ w' => w'.partition.Resolvable ObjectRecord.Projectable kept)
      (fun _ w' => w'.partition.Resolvable ObjectRecord.Projectable kept) w := by
  by_cases hmerges : ∃ o ∈ snapshot.objects, o.lifecycle = .mergedInto ∧
      w.partition.recordFor o.objectId = none
  · obtain ⟨o, ho, hmerged, hnone⟩ := hmerges
    obtain ⟨htakes, -⟩ := hrestorable o ho hmerged hnone
    refine wp_mono (fun _ w' hw' => ?_) (fun _ _ h => h.elim)
      (restoreObjects_takes htakes h.good h.kept)
    -- All that was saved is there now.
    have hforward : w'.partition.forward = w.partition.forwardWith snapshot.objects := by
      rw [← hw'.leads]
      funext id
      show _ = (w'.partition.forward id).or none
      rw [or_none]
    refine ⟨hw'.good, fun id r hr => ?_, hw'.kept⟩
    rw [hforward]
    exact arrives_forwardWith hrestorable h (by
      rw [← hforward, forward_of_recordFor hr]
      exact some_ne_none _)
  · refine restoreObjects_beside h (fun o ho hnew => ?_)
    by_contra hsome
    exact hmerges ⟨o, ho, (postInit_eq_ok.mp o.accepted).2.1.mpr hsome, hnew⟩

/-! ## Actions -/

/-- The frame evicts and sheds no record that others were merged into. -/
structure FrameSparesSurvivors (wiring : RegistryWiring) (k : CameraId) (update : TrackUpdate)
    (clock : Instant) (s : ObjectRegistry) : Prop where
  dated : ∀ id r, (s.partitionOf wiring k).recordFor id = some r →
    r.lifecycle.isTerminal = false →
    r.firstSeen.ns ≤ (s.advanceTime k update clock).ns ∧
      r.lastConfirmed.ns ≤ (s.advanceTime k update clock).ns
  turns : Along (foldTrack wiring (s.advanceTime k update clock) (crossesEpoch s k update))
    (SparesSurvivors wiring (s.advanceTime k update clock) (crossesEpoch s k update))
    update.active (frameWork wiring k update clock s)

/-- An action that loses no object that others were merged into: no turn sheds one and no
    sweep evicts one, no merged object is split, and a snapshot is restorable. -/
def RegistryAction.SparesSurvivors (wiring : RegistryWiring) (s : ObjectRegistry) :
    RegistryAction → Prop
  | .call (.ingest k update clock) => FrameSparesSurvivors wiring k update clock s
  | .call (.sweep moment) => ∀ k p, s.partitions.get? k = some p → Sweepable wiring moment p
  | .call (.split objectId point _) => ∀ k p r, s.locate objectId = .ok (k, p, r) →
      r.firstSeen.ns < point.ns ∧ point.ns < r.lastSeen.ns → r.lifecycle ≠ .mergedInto
  | .restore snapshot => (s.partitionOf wiring snapshot.cameraId).Restorable snapshot
  | _ => True

def AllResolvable (kept : CameraId → ObjectId → Prop) (k : CameraId) (p : RegistryPartition)
    (_ : RegionTracker) : Prop :=
  p.Resolvable ObjectRecord.Projectable (kept k)

variable {s : ObjectRegistry} {held : CameraId → ObjectId → Prop}

theorem ingest_resolvable {k : CameraId} {update : TrackUpdate} {clock : Instant}
    (h : s.Each wiring (AllResolvable held)) (hspares : FrameSparesSurvivors wiring k update clock s) :
    (ingest wiring k update clock s).2.Each wiring (AllResolvable held) := by
  have hstart : (frameWork wiring k update clock s).partition.Resolvable
      (ObjectRecord.Ready (s.advanceTime k update clock)) (held k) :=
    (h k).mono fun id r hr hprojectable => ⟨hprojectable, hspares.dated id r hr⟩
  refine h.ingest (fun _ _ _ hP => hP) (wp_mono (fun _ _ hw' => ?_) (fun _ _ hw' => ?_)
    (@foldFrame_rule wiring _ _ _ _
      (fun w' => w'.partition.Resolvable (ObjectRecord.Ready (s.advanceTime k update clock)) (held k))
      _ (fun track w hw hturn => ?_) (fun id w hw => RegistryPartition.Resolvable.age hw)
      hspares.turns hstart))
  · exact hw'.mono fun _ _ _ hready => hready.toProjectable
  · exact hw'.mono fun _ _ _ hready => hready.toProjectable
  · exact wp_mono (fun _ _ h' => hw.turn hturn h') (fun _ _ h' => hw.turn hturn h') foldTrack_turn

theorem RegistryPartition.Resolvable.retouch (h : p.Resolvable ObjectRecord.Projectable kept)
    (hr : p.recordFor id = some r) (hothers : ∀ k, k ≠ id → p'.recordFor k = p.recordFor k)
    (hr' : ∃ bindings confidence attributes, p'.recordFor id = some
      { r with bindings, identityConfidence := confidence, attributes }) :
    p'.Resolvable ObjectRecord.Projectable kept := by
  obtain ⟨bindings, confidence, attributes, hr'⟩ := hr'
  have hprojectable := h.good id r hr
  refine h.change hothers (fun r' hself => ?_) (fun hnone => ?_) (fun hkept => ?_)
  · rw [hr'] at hself
    rw [← some.inj hself]
    exact ⟨⟨hprojectable.merged, hprojectable.notSelf, hprojectable.observed,
      hprojectable.seen_le, hprojectable.confirmed_le⟩, .inr ⟨r, hr, rfl⟩⟩
  · rw [hr'] at hnone
    cases hnone
  · obtain ⟨r', hr₀, hmerged⟩ := h.kept id hkept
    rw [hr] at hr₀
    rw [← some.inj hr₀] at hmerged
    exact ⟨_, hr', hmerged⟩

theorem resolvable_after {action : RegistryAction} (h : s.Each wiring (AllResolvable held))
    (hspares : action.SparesSurvivors wiring s) :
    (action.after wiring s).Each wiring (AllResolvable held) := by
  have hempty : ∀ k p t, AllResolvable held k p t → AllResolvable held k p {} :=
    fun _ _ _ hP => hP
  cases action with
  | call c =>
    cases c with
    | ingest k update clock => exact ingest_resolvable h hspares
    | sweep moment =>
      refine h.sweep hempty fun k p w hp hpartition _ hw => ?_
      subst hpartition
      exact sweepRecords_merges (hspares k w.partition hp) hw
    | bind trackId objectId method confidence now =>
      refine h.bind hempty fun k p r w hplace hlive hpartition hw => ?_
      obtain ⟨-, hr⟩ := locate_ok hplace
      subst hpartition
      refine wp_mono (fun _ w' hbound => ?_) (fun _ w' hfailed => ?_) (openBinding_spec hr)
      · obtain ⟨closed, binding, confidence', -, -, -, -, -, hrecord⟩ := hbound.record
        exact hw.retouch hr hbound.others ⟨_, _, _, hrecord⟩
      · obtain ⟨hreleased, -⟩ := hfailed
        obtain ⟨bindings, -, hrecord⟩ := hreleased.record
        exact hw.retouch hr hreleased.others ⟨_, _, _, hrecord⟩
    | merge sourceObject targetObject now =>
      refine h.merge hempty fun k p source target t hp hsource htarget hlive _ _ hP p' hmerge => ?_
      exact merge_resolvable hP (recordFor_objectId hsource)
        (recordFor_objectId htarget) hlive hmerge
    | split objectId point now =>
      refine h.split hempty fun k p r w hplace hpoint hr hpartition hw cut hcut => ?_
      subst hpartition
      have hstate := hspares k w.partition r hplace hpoint
      have hkept := Cut.resolvable hw hr hstate hpoint hcut
      exact ⟨hkept, fun successorId w' hdivided =>
        Divided.resolvable hkept (hw.good _ r hr) hstate hpoint hdivided⟩
    | applyAttribute objectId value =>
      refine h.applyAttribute hempty fun k p r t hr hP => ?_
      exact hP.retouch hr (fun k hk => recordFor_update_of_ne hk)
        ⟨r.bindings, r.identityConfidence, _, recordFor_applyAttribute value hr⟩
  | restore snapshot =>
    refine h.restore hempty fun w hpartition hw => ?_
    have hrestorable : (s.partitionOf wiring snapshot.cameraId).Restorable snapshot := hspares
    rw [← hpartition] at hrestorable
    exact restoreObjects_merges hrestorable hw
  | setRegions k regions now => exact h.setRegions (h k)

/-- The id is that of an object that was merged into another. -/
def ObjectRegistry.Merged (wiring : RegistryWiring) (s : ObjectRegistry) (id : ObjectId) : Prop :=
  ∃ k, (s.partitionOf wiring k).MergedAway id

theorem resolve_of_each (h : s.Each wiring (AllResolvable held)) {k : CameraId}
    (hr : (s.partitionOf wiring k).recordFor id = some r) :
    ∃ o, s.resolve id = .ok (some o) ∧ o.lifecycle ≠ .mergedInto := by
  have hp := partition_of_recordFor hr
  unfold ObjectRegistry.resolve
  cases hfind : s.partitions.values.find? (fun p => (p.recordFor id).isSome) with
  | none =>
    have hall := find?_eq_none.mp hfind _ (mem_values.mpr ⟨k, hp⟩)
    rw [hr] at hall
    exact absurd rfl hall
  | some p =>
    obtain ⟨k', hp'⟩ := mem_values.mp (mem_of_find?_eq_some hfind)
    have hhas : (p.recordFor id).isSome = true := by simpa using find?_some hfind
    obtain ⟨r', hr'⟩ := isSome_iff_exists.mp hhas
    have hresolvable := h k'
    rw [partitionOf_eq hp'] at hresolvable
    exact p.resolve_of_arrives hresolvable.good (hresolvable.arrives id r' hr')

/-- In a run that loses no object that others were merged into, every id that was ever merged
    resolves, from then on, to an object that was not. -/
theorem merged_stay_resolvable (wiring : RegistryWiring) (actions : List RegistryAction)
    (hactions : Runs.Always (after wiring)
      (fun s action => action.SparesSurvivors wiring s) {} actions) :
    ∀ earlier later, earlier <+: later → later <+: actions → ∀ id,
      (run (after wiring) {} earlier).Merged wiring id →
      ∃ o, (run (after wiring) {} later).resolve id = .ok (some o) ∧
        o.lifecycle ≠ .mergedInto := by
  rintro _ _ ⟨between, rfl⟩ ⟨rest, rfl⟩ id ⟨k, hmerged⟩
  rw [append_assoc] at hactions
  obtain ⟨hfirst, hsecond⟩ := always_append.mp hactions
  obtain ⟨hbetween, -⟩ := always_append.mp hsecond
  -- Everything resolves at first, and then what is merged by now is kept besides.
  have hbegin : ObjectRegistry.Each wiring (AllResolvable fun _ _ => False) {} := fun k =>
    ⟨fun _ _ hr => (by cases hr), fun _ _ hr => (by cases hr), fun _ hkept => hkept.elim⟩
  have hearlier := @Runs.reached_of_always _ _ _ (ObjectRegistry.Each wiring (AllResolvable
    fun _ _ => False)) _ (fun s action h hspares => resolvable_after h hspares) {} hbegin _ hfirst
    _ (prefix_refl _)
  have hnow : (run (after wiring) {} _).Each wiring (AllResolvable
      fun k id => ((run (after wiring) {} _).partitionOf wiring k).MergedAway
        id) := fun k => ⟨(hearlier k).good, (hearlier k).arrives, fun _ hkept => hkept⟩
  have hlater := @Runs.reached_of_always _ _ _ (ObjectRegistry.Each wiring (AllResolvable _)) _
    (fun s action h hspares => resolvable_after h hspares) _ hnow _ hbetween _
    (prefix_refl _)
  rw [run_append]
  obtain ⟨r, hr, -⟩ := (hlater k).kept id hmerged
  exact resolve_of_each hlater hr

/-! ### Two who were one -/

/-- The default wiring, but for confirming an object at its first observation. -/
def blendWiring : RegistryWiring := streetWiring promptPolicy

/-- Two objects, the second of which turns out to be the first. -/
def blending : List RegistryAction :=
  [.call (.ingest "north" leftFrame ⟨0⟩), .call (.ingest "north" (streetFrame 1 otherTrack) ⟨0⟩),
    .call (.merge (blendWiring.idAt 2 ⟨2000000000⟩) (blendWiring.idAt 0 ⟨1000⟩) ⟨3000000000⟩)]

theorem streetFrame_sparesSurvivors {frameSeq : Nat} {t : Track}
    (hdated : (s.partitionOf wiring "north").records.all (fun r =>
      r.firstSeen.ns ≤ (s.advanceTime "north" (streetFrame frameSeq t) ⟨0⟩).ns ∧
        r.lastConfirmed.ns ≤ (s.advanceTime "north" (streetFrame frameSeq t) ⟨0⟩).ns) = true)
    (hroom : (s.partitionOf wiring "north").shedNext.isNone = true)
    (hfresh : ((s.partitionOf wiring "north").recordFor (wiring.idAt s.draws
      (s.advanceTime "north" (streetFrame frameSeq t) ⟨0⟩))).isNone = true) :
    FrameSparesSurvivors wiring "north" (streetFrame frameSeq t) ⟨0⟩ s := by
  refine ⟨fun id r hr _ => ?_, fun _ => ⟨fun r hr => ?_, ?_⟩, wp_true _ _⟩
  · have hmem : r ∈ (s.partitionOf wiring "north").records := by
      rw [mem_records, objectId_of_recordFor hr]
      exact hr
    simpa using all_eq_true.mp hdated r hmem
  · have hr' : (s.partitionOf wiring "north").shedNext = some r := hr
    rw [hr'] at hroom
    cases hroom
  · rintro ⟨r, hr, -⟩
    have hr' : (s.partitionOf wiring "north").recordFor (wiring.idAt s.draws
      (s.advanceTime "north" (streetFrame frameSeq t) ⟨0⟩)) = some r := hr
    rw [hr'] at hfresh
    cases hfresh

theorem blending_merges : (run (after blendWiring) {} blending).Merged
    blendWiring (blendWiring.idAt 2 ⟨2000000000⟩) := by
  have hmerged : (((run (after blendWiring) {} blending).partitionOf
      blendWiring "north").recordFor (blendWiring.idAt 2 ⟨2000000000⟩)).any
      (fun r => r.lifecycle = .mergedInto) = true := by decide +kernel
  obtain ⟨r, hr, hstate⟩ := (any_eq_true _ _).mp hmerged
  exact ⟨"north", r, hr, by simpa using hstate⟩

/-- The second resolves to the first. -/
theorem merged_stay_resolvable_blending :
    ∃ o, (run (after blendWiring) {} blending).resolve
        (blendWiring.idAt 2 ⟨2000000000⟩) = .ok (some o) ∧ o.lifecycle ≠ .mergedInto := by
  refine merged_stay_resolvable blendWiring blending ⟨?_, ?_, trivial, trivial⟩ blending blending
    (prefix_refl _) (prefix_refl _) _ blending_merges
  · exact streetFrame_sparesSurvivors (by decide +kernel) (by decide +kernel) (by decide +kernel)
  · exact streetFrame_sparesSurvivors (by decide +kernel) (by decide +kernel) (by decide +kernel)

/-- Once the first has expired and is swept, the second resolves to nothing. -/
theorem merged_dangles :
    ¬ ∀ earlier later, earlier <+: later →
      later <+: blending ++ [.call (.sweep ⟨3000000000000⟩)] → ∀ id,
      (run (after blendWiring) {} earlier).Merged blendWiring id →
      ∃ o, (run (after blendWiring) {} later).resolve id = .ok (some o) ∧
        o.lifecycle ≠ .mergedInto := by
  intro hall
  have hdangles : ((run (after blendWiring) {}
      (blending ++ [.call (.sweep ⟨3000000000000⟩)])).resolve
        (blendWiring.idAt 2 ⟨2000000000⟩)).toOption.join.isNone = true := by decide +kernel
  obtain ⟨o, ho, -⟩ := hall blending _ (prefix_append _ _) (prefix_refl _)
    (blendWiring.idAt 2 ⟨2000000000⟩) blending_merges
  rw [ho] at hdangles
  cases hdangles

end VisionOs.Registry
