/-
  Is every object that leaves a camera announced?  Not one that is shed to make room, that expired
  in a frame which then fails, or which a sweep removed before it raised.
-/
import VisionOs.Registry.Poisoning
import VisionOs.Registry.Turns

namespace VisionOs.Registry

open Core Lib Effect List OrderedDict Option RegistryPartition LifecycleState LifecycleTransition
open PyFloat

variable {wiring : RegistryWiring} {w w' : Work} {id : ObjectId} {track : Track} {now : Instant}
  {crossingEpoch : Bool} {p p' : RegistryPartition} {k : CameraId}
  {history updates : List RegistryUpdate}

/-- The update lists a terminal change of the object and carries it. -/
def Announces (u : RegistryUpdate) (k : CameraId) (id : ObjectId) : Prop :=
  u.cameraId = k ∧
    (∃ previous current, (id, previous, current) ∈ u.lifecycleChanges ∧
      isTerminal current = true) ∧
    ∃ o ∈ u.objects, o.objectId = id

/-- Some update announced the object's departure. -/
def Announced (history : List RegistryUpdate) (k : CameraId) (id : ObjectId) : Prop :=
  ∃ u ∈ history, Announces u k id

theorem Announced.append_left (h : Announced history k id) (updates : List RegistryUpdate) :
    Announced (history ++ updates) k id := by
  obtain ⟨u, hu, hannounces⟩ := h
  exact ⟨u, mem_append_left _ hu, hannounces⟩

theorem Announced.append_right (history : List RegistryUpdate) (h : Announced updates k id) :
    Announced (history ++ updates) k id := by
  obtain ⟨u, hu, hannounces⟩ := h
  exact ⟨u, mem_append_right _ hu, hannounces⟩

/-- The partition has a record of the id. -/
def RegistryPartition.Has (p : RegistryPartition) (id : ObjectId) : Prop :=
  ∃ r, p.recordFor id = some r

/-- The registry has a record of the id, at the camera. -/
def ObjectRegistry.Has (s : ObjectRegistry) (k : CameraId) (id : ObjectId) : Prop :=
  ∃ p, s.partitions.get? k = some p ∧ p.Has id

/-- No record has a binding that begins later. -/
def RegistryPartition.Timely (now : Instant) (p : RegistryPartition) : Prop :=
  ∀ id r, p.recordFor id = some r → ¬ r.LateFor now

theorem RegistryPartition.Timely.mono {later : Instant} (h : p.Timely now)
    (hle : now.ns ≤ later.ns) : p.Timely later := by
  rintro id r hr ⟨b, hb, hopen, hlate⟩
  exact h id r hr ⟨b, hb, hopen, by omega⟩

theorem RegistryPartition.Timely.change (h : p.Timely now)
    (hothers : ∀ k, k ≠ id → p'.recordFor k = p.recordFor k)
    (hnew : ∀ r', p'.recordFor id = some r' → ¬ r'.LateFor now) : p'.Timely now := by
  intro k r hr
  by_cases hk : k = id
  · subst hk
    exact hnew r hr
  · rw [hothers k hk] at hr
    exact h k r hr

variable {r : ObjectRecord} {r' : ObjectRecord}

theorem not_late_of_rebound {trackId : TrackId}
    (h : Rebound trackId now r.bindings r'.bindings) (hr : ¬ r.LateFor now) :
    ¬ r'.LateFor now := by
  rintro ⟨b, hb, hopen, hlate⟩
  rcases h with hsame | hclosed | ⟨closed, binding, heq, hclosed, -, hfrom, -, -⟩
  · rw [hsame] at hb
    exact hr ⟨b, hb, hopen, hlate⟩
  · rw [hclosed b hb] at hopen
    cases hopen
  · rw [heq] at hb
    rcases mem_append.mp hb with hb | hb
    · rw [hclosed b hb] at hopen
      cases hopen
    · rw [mem_singleton.mp hb, hfrom] at hlate
      exact lt_irrefl _ hlate

/-! ## The records of a frame -/

/-- What has been accounted for while a frame is folded: the objects there were are still
    there, and those that expired were announced or are among the changes. -/
structure Accounted (history : List RegistryUpdate) (k : CameraId) (kept : ObjectId → Prop)
    (now : Instant) (w : Work) : Prop where
  timely : w.partition.Timely now
  kept : ∀ id, kept id → w.partition.Has id
  expired : ∀ id r, w.partition.recordFor id = some r → r.lifecycle = .expired →
    Announced history k id ∨ ∃ previous, (id, previous, .expired) ∈ w.changes

variable {kept : ObjectId → Prop}

theorem Accounted.change (h : Accounted history k kept now w)
    (hothers : ∀ k, k ≠ id → w'.partition.recordFor k = w.partition.recordFor k)
    (hchanges : ∀ c ∈ w.changes, c ∈ w'.changes) (hhas : kept id → w'.partition.Has id)
    (hnew : ∀ r', w'.partition.recordFor id = some r' → ¬ r'.LateFor now ∧
      (r'.lifecycle = .expired → ∃ previous, (id, previous, .expired) ∈ w'.changes)) :
    Accounted history k kept now w' where
  timely := h.timely.change hothers (fun r' hr' => (hnew r' hr').1)
  kept id' hid' := by
    by_cases hsame : id' = id
    · subst hsame
      exact hhas hid'
    · obtain ⟨r, hr⟩ := h.kept id' hid'
      exact ⟨r, (hothers id' hsame).trans hr⟩
  expired id' r hr hexpired := by
    by_cases hsame : id' = id
    · subst hsame
      exact .inr ((hnew r hr).2 hexpired)
    · rw [hothers id' hsame] at hr
      rcases h.expired id' r hr hexpired with hannounced | ⟨previous, hmem⟩
      · exact .inl hannounced
      · exact .inr ⟨previous, hchanges _ hmem⟩

/-- No kept object is shed for a new one. -/
def ShedsNone (wiring : RegistryWiring) (now : Instant) (crossingEpoch : Bool)
    (kept : ObjectId → Prop) (track : Track) (w : Work) : Prop :=
  Unmatched wiring track now crossingEpoch w.partition →
    ∀ r, w.partition.shedNext = some r → ¬ kept r.objectId

theorem Accounted.shedOldest (h : Accounted history k kept now w)
    (hsheds : ∀ r, w.partition.shedNext = some r → ¬ kept r.objectId) :
    Accounted history k kept now w.shedOldest := by
  unfold Work.shedOldest
  cases hnext : w.partition.shedNext with
  | none => exact h
  | some r =>
    have hgone : (w.partition.evict r.objectId).recordFor r.objectId = none :=
      (recordFor_evict ..).trans (if_pos rfl)
    refine h.change (fun k hk => (recordFor_evict ..).trans (if_neg hk))
      (fun _ hc => hc) (fun hkept => absurd hkept (hsheds r hnext)) (fun r' hr' => ?_)
    have hr'' : (w.partition.evict r.objectId).recordFor r.objectId = some r' := hr'
    rw [hgone] at hr''
    cases hr''

theorem Accounted.worked {B : List TrackBinding → Prop}
    (h : Accounted history k kept now w) (hworked : WorkedOn wiring track now B id r w w')
    (hlive : r.lifecycle.isTerminal = false)
    (hB : ∀ bindings, B bindings → Rebound track.trackId now r.bindings bindings)
    (hlate : ¬ r.LateFor now) : Accounted history k kept now w' := by
  obtain ⟨bindings, confidence, state, hrecord, hbindings, hmoved, -⟩ := hworked.record
  have hexpired : state = .expired → ∃ previous, (id, previous, .expired) ∈ w'.changes := by
    intro hstate
    rcases hmoved with ⟨hsame, -⟩ | ⟨t, ht, hcurrent, hchanges⟩
    · rw [← hsame, hstate] at hlive
      cases hlive
    have hprevious := (trackTransition_ok ht).1
    have hchanged : t.changed = true := by
      unfold changed
      rw [hprevious, ← hcurrent, hstate]
      refine decide_eq_true ?_
      rintro hsame
      rw [hsame] at hlive
      cases hlive
    rw [hchanges, if_pos hchanged, ← hcurrent, hstate]
    exact ⟨t.previous, mem_append_right _ (mem_singleton_self _)⟩
  have hkeeps : ∀ c ∈ w.changes, c ∈ w'.changes := by
    intro c hc
    rcases hmoved with ⟨-, hsame⟩ | ⟨t, -, -, hchanges⟩
    · rw [hsame]
      exact hc
    · rw [hchanges]
      split
      · exact mem_append_left _ hc
      · exact hc
  refine h.change hworked.others hkeeps (fun _ => ⟨_, hrecord⟩) (fun r' hr' => ?_)
  rw [hrecord] at hr'
  rw [← some.inj hr']
  exact ⟨not_late_of_rebound (hB bindings hbindings) hlate, hexpired⟩

theorem not_late_of_observed {sighting : Option Sighting}
    (hobserved : ObjectRecord.Observed sighting now r r') (hlate : ¬ r.LateFor now) :
    ¬ r'.LateFor now := by
  rintro ⟨b, hb, hafter⟩
  rw [hobserved.bindings] at hb
  exact hlate ⟨b, hb, hafter⟩

theorem Accounted.turn (h : Accounted history k kept now w)
    (hsheds : ShedsNone wiring now crossingEpoch kept track w)
    (hturn : TrackTurn wiring track now crossingEpoch w w') :
    Accounted history k kept now w' := by
  cases hturn with
  | continued r r' hby hobserved hworked =>
    obtain ⟨hr, howns, -⟩ := byTrack_eq_some_iff.mp hby
    refine h.worked hworked ?_ (fun _ hB => .inl hB)
      (not_late_of_observed hobserved (h.timely _ r hr))
    rw [hobserved.lifecycle]
    exact (ObjectRecord.owns_iff.mp howns).2
  | reentered r r' hnone hmatched hr hreenterable hobserved hworked =>
    refine h.worked hworked ?_ (fun _ hB => hB)
      (not_late_of_observed hobserved (h.timely _ r hr))
    rw [hobserved.lifecycle]
    exact live_of_reenterable hreenterable
  | minted hunmatched hworked =>
    exact (h.shedOldest (hsheds hunmatched)).worked hworked rfl (fun _ hB => hB)
      (fun ⟨b, hb, _⟩ => by cases hb)
  | refused hunmatched hsame =>
    rw [hsame]
    exact h.shedOldest (hsheds hunmatched)
  | raised hnone hraised hsame =>
    rw [hsame]
    exact h

theorem ageRecord_accounted (h : Accounted history k kept now w) :
    wp (ageRecord wiring now id) (fun _ w' => Accounted history k kept now w')
      (fun _ w' => Accounted history k kept now w') w := by
  refine wp_mono (fun _ w' haged => ?_) (fun _ w' hfailed => ?_) ageRecord_spec
  · rcases haged with ⟨rfl, -⟩ | ⟨r, t, haged⟩
    · exact h
    obtain ⟨closed, r', hclosed, hobserved, hrecord⟩ := haged.record
    refine h.change haged.others (fun c hc => ?_) (fun _ => ⟨_, hrecord⟩) (fun r'' hr'' => ?_)
    · rw [haged.changes]
      split
      · exact mem_append_left _ hc
      · exact hc
    · rw [hrecord] at hr''
      rw [← some.inj hr'']
      refine ⟨?_, fun hexpired => ?_⟩
      · rintro ⟨b, hb, hopen, -⟩
        have hb' : b ∈ closed := by
          have hsame : r'.bindings = closed := hobserved.bindings
          rw [← hsame]
          exact hb
        rw [hclosed b hb'] at hopen
        cases hopen
      · have hcurrent : t.current = .expired := hexpired
        have hchanged : t.changed = true := by
          unfold changed
          rw [haged.previous, hcurrent]
          refine decide_eq_true (fun hsame => ?_)
          have hlive := haged.live
          rw [hsame] at hlive
          cases hlive
        rw [haged.changes, if_pos hchanged, hcurrent]
        exact ⟨t.previous, mem_append_right _ (mem_singleton_self _)⟩
  · rw [hfailed.1]
    exact h

/-- The turn measures no departed object and sheds none that is kept. -/
def Gentle (wiring : RegistryWiring) (now : Instant) (crossingEpoch : Bool)
    (kept : ObjectId → Prop) (track : Track) (w : Work) : Prop :=
  (track.isPredicted = false → ∀ id r, w.partition.recordFor id = some r →
    r.owns track.trackId = true → r.lifecycle ≠ .departed) ∧
  ShedsNone wiring now crossingEpoch kept track w

theorem foldTrack_gentle
    (husable : wiring.binding.Usable)
    (h : Folding now [] w) (haccounted : Accounted history k kept now w)
    (hgentle : Gentle wiring now crossingEpoch kept track w) :
    wp (foldTrack wiring now crossingEpoch track)
      (fun _ w' => Folding now [] w' ∧ Accounted history k kept now w') (fun _ _ => False) w := by
  have hready : Folding now [track] w :=
    { sound := h.sound
      here := fun t ht hmeasured => by
        rw [mem_singleton.mp ht] at hmeasured ⊢
        exact hgentle.1 hmeasured
      late := fun id r hr hlive hlate => absurd hlate (haccounted.timely id r hr) }
  refine wp_mono (fun _ w' h' => ⟨h'.1, ?_⟩) (fun _ _ h' => h'.1)
    (wp_and (foldTrack_folding husable hready (fun t ht => by cases ht)) foldTrack_turn)
  exact haccounted.turn hgentle.2 h'.2

theorem foldFrame_accounted {tracks : List Track}
    (husable : wiring.binding.Usable)
    (hsound : w.partition.Sound now) (h : Accounted history k kept now w)
    (halong : Along (foldTrack wiring now crossingEpoch)
      (Gentle wiring now crossingEpoch kept) tracks w) :
    wp (foldFrame wiring tracks now crossingEpoch)
      (fun objects w' => w'.partition.objects = .ok objects ∧ w'.partition.Sound now ∧
        Accounted history k kept now w')
      (fun _ _ => False) w := by
  have hready : Folding now [] w :=
    { sound := hsound
      here := fun t ht => by cases ht
      late := fun id r hr hlive hlate => absurd hlate (h.timely id r hr) }
  unfold foldFrame
  rw [wp_bind]
  have hfolded := @wp_forEach_along PyException Work Track (fun _ _ => False) w
    (fun _ w' => Folding now [] w' ∧ Accounted history k kept now w')
    (Gentle wiring now crossingEpoch kept) (foldTrack wiring now crossingEpoch) tracks
    (fun t rest _ w' hw' hgentle => foldTrack_gentle husable hw'.1 hw'.2 hgentle)
    halong ⟨hready, h⟩
  refine wp_mono (fun _ w₁ h₁ => ?_) (fun _ _ h => h) hfolded
  rw [wp_bind, wp_read, wp_bind]
  have haged := @wp_forEach PyException Work ObjectId (fun _ _ => False) w₁
    (fun _ w' => Folding now [] w' ∧ Accounted history k kept now w') (ageRecord wiring now)
    w₁.partition.ids
    (fun id rest _ w' hw' => wp_mono (fun _ _ h => h) (fun _ _ h => h.1)
      (wp_and (ageRecord_folding hw'.1) (ageRecord_accounted hw'.2)))
    h₁
  refine wp_mono (fun _ w₂ h₂ => ?_) (fun _ _ h => h) haged
  rw [wp_bind, wp_read]
  obtain ⟨objects, hobjects⟩ := objects_ok
    (fun k r hr => (h₂.1.sound k r hr).toProjectable)
  rw [wp_ofExcept_ok hobjects]
  exact ⟨hobjects, h₂.1.sound, h₂.2⟩

/-! ## The registry between calls -/

/-- What is known of a camera's objects between calls: they are sound and timely, the
    camera has delivered a frame, and those that expired were announced. -/
structure Settled (history : List RegistryUpdate) (s : ObjectRegistry) (k : CameraId)
    (p : RegistryPartition) : Prop where
  clock : ∃ now, s.cameraTime.get? k = some now ∧ p.Sound now ∧ p.Timely now
  frame : ∃ frameRef, s.lastFrame.get? k = some frameRef
  expired : ∀ id r, p.recordFor id = some r → r.lifecycle = .expired → Announced history k id

/-- Every camera's partition is settled. -/
def ObjectRegistry.Settled (history : List RegistryUpdate) (s : ObjectRegistry) : Prop :=
  ∀ k p, s.partitions.get? k = some p → VisionOs.Registry.Settled history s k p

/-- Every turn of the frame is gentle. -/
def FrameGentle (wiring : RegistryWiring) (k : CameraId) (update : TrackUpdate)
    (clock : Instant) (s : ObjectRegistry) : Prop :=
  let now := s.advanceTime k update clock
  let crossingEpoch := crossesEpoch s k update
  Along (foldTrack wiring now crossingEpoch)
    (Gentle wiring now crossingEpoch (s.Has k)) update.active
    (frameWork wiring k update clock s)

variable {s : ObjectRegistry} {update : TrackUpdate} {clock : Instant}

theorem partitions_after_prepare
    {k' : CameraId} {q : RegistryPartition}
    (hq : ((prepare wiring k update (s.advanceTime k update clock) s).keep k w).partitions.get? k'
      = some q) :
    k = k' ∧ q = w.partition ∨ k ≠ k' ∧ s.partitions.get? k' = some q := by
  rw [partitions_keep] at hq
  by_cases hk : k = k'
  · rw [if_pos hk] at hq
    exact .inl ⟨hk, (some.inj hq).symm⟩
  · rw [if_neg hk] at hq
    have hset : (s.partitions.set k ((s.partitions.get? k).getD (wiring.newPartition k))).get?
        k' = some q := hq
    rw [get?_set, if_neg hk] at hset
    exact .inr ⟨hk, hset⟩

theorem ingest_settled
    (husable : wiring.binding.Usable)
    (h : s.Settled history) (hgentle : FrameGentle wiring k update clock s) :
    (∀ k' id, s.Has k' id → (ingest wiring k update clock s).2.Has k' id) ∧
    (ingest wiring k update clock s).2.Settled
      (history ++ [(ingest wiring k update clock s).1]) := by
  -- a camera's first frame starts from an empty partition
  have hready : (frameWork wiring k update clock s).partition.Sound
        (s.advanceTime k update clock) ∧
      Accounted history k (s.Has k) (s.advanceTime k update clock)
        (frameWork wiring k update clock s) := by
    cases hp : s.partitions.get? k with
    | some p =>
      have hwork : (frameWork wiring k update clock s).partition = p := frameWork_partition hp
      obtain ⟨⟨now, htime, hsound, htimely⟩, -, hexpired⟩ := h k p hp
      rw [hwork]
      refine ⟨hsound.mono (advanceTime_le htime), ?_, ?_, ?_⟩
      · rw [hwork]
        exact htimely.mono (advanceTime_le htime)
      · rintro id ⟨q, hq, hhas⟩
        obtain rfl := some.inj (hp.symm.trans hq)
        rw [hwork]
        exact hhas
      · rw [hwork]
        exact fun id r hr hstate => .inl (hexpired id r hr hstate)
    | none =>
      have hwork : (frameWork wiring k update clock s).partition = wiring.newPartition k := by
        unfold frameWork ObjectRegistry.work
        simp only [hp, getD_none]
      have hempty : ∀ id r, (wiring.newPartition k).recordFor id = some r → False := by
        intro id r hr
        cases hr
      rw [hwork]
      refine ⟨wiring.newPartition_sound k, ?_, ?_, ?_⟩
      · rw [hwork]
        exact fun id r hr => (hempty id r hr).elim
      · rintro id ⟨q, hq, -⟩
        rw [hp] at hq
        cases hq
      · rw [hwork]
        exact fun id r hr => (hempty id r hr).elim
  refine @ingest_rule wiring s k update clock
    (fun result => (∀ k' id, s.Has k' id → result.2.Has k' id) ∧
      result.2.Settled (history ++ [result.1]))
    (wp_mono (fun objects w' hfolded => ?_) (fun _ _ h => h.elim)
      (foldFrame_accounted husable hready.1 hready.2 hgentle))
  obtain ⟨hobjects, hsound, haccounted⟩ := hfolded
  constructor
  · rintro k' id hhas
    by_cases hk : k = k'
    · subst hk
      exact ⟨w'.partition, (partitions_keep ..).trans (if_pos rfl), haccounted.kept id hhas⟩
    · obtain ⟨q, hq, hid⟩ := hhas
      refine ⟨q, ?_, hid⟩
      rw [partitions_keep, if_neg hk]
      exact (get?_set ..).trans (by rw [if_neg hk]; exact hq)
  · intro k' q hq
    rcases partitions_after_prepare hq with ⟨rfl, rfl⟩ | ⟨hk, hq'⟩
    · refine ⟨⟨s.advanceTime k update clock, get?_set_self .., hsound,
        haccounted.timely⟩, ⟨update.frameRef, get?_set_self ..⟩,
        fun id r hr hstate => ?_⟩
      rcases haccounted.expired id r hr hstate with hannounced | ⟨previous, hmem⟩
      · exact hannounced.append_left _
      · -- The update lists the change, and every object that is left.
        obtain ⟨o, ho, hid⟩ := mem_map.mp
          ((mem_objects hobjects).mpr ⟨r, hr⟩)
        exact Announced.append_right _ ⟨_, mem_singleton_self _, rfl,
          ⟨previous, .expired, hmem, rfl⟩, o, ho, hid⟩
    · obtain ⟨⟨now, htime, hsound', htimely⟩, ⟨frameRef, hframe⟩, hexpired⟩ := h k' q hq'
      refine ⟨⟨now, ?_, hsound', htimely⟩, ⟨frameRef, ?_⟩,
        fun id r hr hstate => (hexpired id r hr hstate).append_left _⟩
      · exact (get?_set ..).trans (by rw [if_neg hk]; exact htime)
      · exact (get?_set ..).trans (by rw [if_neg hk]; exact hframe)

/-! ## A sweep -/

/-- No record that the sweep moves has a binding that begins later. -/
def SweepTimely (wiring : RegistryWiring) (moment : Instant) (p : RegistryPartition) : Prop :=
  ∀ id r t, p.recordFor id = some r → r.lifecycle.isTerminal = false →
    driveHorizons wiring.lifecycle r moment = .ok (some t) → ¬ r.LateFor moment

def Expires (p : RegistryPartition) (w : Work) (id : ObjectId) : Prop :=
  (∃ r₀, p.recordFor id = some r₀ ∧ r₀.lifecycle = .expired) ∨
    ∃ previous, (id, previous, .expired) ∈ w.changes

theorem Expires.mono (h : Expires p w id) (hchanges : ∀ c ∈ w.changes, c ∈ w'.changes) :
    Expires p w' id := by
  refine h.imp_right ?_
  rintro ⟨previous, hmem⟩
  exact ⟨previous, hchanges _ hmem⟩

structure Sweeping (p : RegistryPartition) (now : Instant) (rest : List ObjectId) (w : Work) :
    Prop where
  coming : ∀ id ∈ rest, w.partition.recordFor id = p.recordFor id
  sound : w.partition.Sound now
  timely : w.partition.Timely now
  expired : ∀ id r, w.partition.recordFor id = some r → r.lifecycle = .expired → Expires p w id
  gone : ∀ id, p.Has id → ¬ w.partition.Has id →
    (∃ o ∈ w.departed, o.objectId = id) ∧ id ∈ w.removed ∧ Expires p w id

variable {rest : List ObjectId}

theorem Sweeping.depart (h : Sweeping p now rest w) (hid : id ∉ rest)
    (hexpires : Expires p w id) (hdeparted : Departed id w w') : Sweeping p now rest w' := by
  have hkeeps : ∀ c ∈ w.changes, c ∈ w'.changes := by
    rw [hdeparted.changes]
    exact fun _ hc => hc
  have hno : ∀ r', w'.partition.recordFor id ≠ some r' := by
    intro r' hr'
    rw [hdeparted.gone] at hr'
    cases hr'
  refine ⟨fun k hk => ?_, ?_, ?_, fun k r hr hstate => ?_, fun k hhad hhas => ?_⟩
  · rw [hdeparted.others k (by rintro rfl; exact hid hk)]
    exact h.coming k hk
  · exact h.sound.change hdeparted.others (fun r' hr' => absurd hr' (hno r'))
  · exact h.timely.change hdeparted.others (fun r' hr' => absurd hr' (hno r'))
  · have hk : k ≠ id := by
      rintro rfl
      exact hno r hr
    rw [hdeparted.others k hk] at hr
    exact (h.expired k r hr hstate).mono hkeeps
  · obtain ⟨o, hoid, hlisted⟩ := hdeparted.frozen
    rw [hlisted, hdeparted.removed]
    by_cases hk : k = id
    · subst hk
      exact ⟨⟨o, by simp, hoid⟩, by simp, hexpires.mono hkeeps⟩
    · have hhas' : ¬ w.partition.Has k := by
        rintro ⟨r, hr⟩
        exact hhas ⟨r, (hdeparted.others k hk).trans hr⟩
      obtain ⟨⟨o', ho', hoid'⟩, hremoved, hwhy⟩ := h.gone k hhad hhas'
      exact ⟨⟨o', mem_append_left _ ho', hoid'⟩, mem_append_left _ hremoved,
        hwhy.mono hkeeps⟩

theorem Sweeping.swept {t : LifecycleTransition}
    (h : Sweeping p now rest w) (hid : id ∉ rest) (hr : w.partition.recordFor id = some r)
    (hlive : r.lifecycle.isTerminal = false) (haway : Away t.current)
    (hover : SweptOver id r t w w') : Sweeping p now rest w' := by
  obtain ⟨closed, hclosed, hrecord⟩ := hover.record
  have hstate : t.current ≠ .mergedInto := by
    rcases haway with heq | heq | heq | heq <;> rw [heq] <;> exact nofun
  have hkeeps : ∀ c ∈ w.changes, c ∈ w'.changes := by
    rw [hover.changes]
    exact fun _ hc => mem_append_left _ hc
  refine ⟨fun k hk => ?_, ?_, ?_, fun k r' hr' hexpired => ?_, fun k hhad hhas => ?_⟩
  · rw [hover.others k (by rintro rfl; exact hid hk)]
    exact h.coming k hk
  · refine h.sound.change hover.others (fun r' hr' => ?_)
    rw [hrecord] at hr'
    rw [← some.inj hr']
    exact ((h.sound id r hr).rebound closed r.identityConfidence).moved
      (ne_merged_of_live hlive) hstate
  · refine h.timely.change hover.others (fun r' hr' => ?_)
    rw [hrecord] at hr'
    rw [← some.inj hr']
    -- All its bindings are closed.
    rintro ⟨b, hb, hopen, -⟩
    rw [hclosed b hb] at hopen
    cases hopen
  · by_cases hk : k = id
    · subst hk
      rw [hrecord] at hr'
      rw [← some.inj hr'] at hexpired
      have hcurrent : t.current = .expired := hexpired
      refine .inr ⟨t.previous, ?_⟩
      rw [hover.changes, hcurrent]
      simp
    · rw [hover.others k hk] at hr'
      exact (h.expired k r' hr' hexpired).mono hkeeps
  · have hk : k ≠ id := by
      rintro rfl
      exact hhas ⟨_, hrecord⟩
    have hhas' : ¬ w.partition.Has k := by
      rintro ⟨r', hr'⟩
      exact hhas ⟨r', (hover.others k hk).trans hr'⟩
    rw [hover.departed, hover.removed]
    obtain ⟨hdeparted, hremoved, hwhy⟩ := h.gone k hhad hhas'
    exact ⟨hdeparted, hremoved, hwhy.mono hkeeps⟩

variable {moment : Instant}

theorem sweepRecord_sweeping
    (htimely : SweepTimely wiring moment p) (hid : id ∉ rest) (h : Sweeping p now (id :: rest) w) :
    wp (sweepRecord wiring moment id) (fun _ w' => Sweeping p now rest w') (fun _ _ => False)
      w := by
  have hnext : Sweeping p now rest w :=
    { h with coming := fun k hk => h.coming k (mem_cons_of_mem _ hk) }
  have hsame : w.partition.recordFor id = p.recordFor id := h.coming id (mem_cons_self ..)
  have haway : ∀ {r : ObjectRecord} {t : LifecycleTransition},
      driveHorizons wiring.lifecycle r moment = .ok (some t) → Away t.current := by
    intro r t hmoves
    rcases driveHorizons_ok wiring.lifecycle r moment with hnone | ⟨t', ht', -, haway⟩
    · rw [hmoves] at hnone
      cases hnone
    · rw [hmoves] at ht'
      rw [some.inj (Except.ok.inj ht')]
      exact haway
  refine wp_mono ?_ ?_ sweepRecord_spec
  · rintro - w' (⟨rfl, -⟩ | ⟨hgone, r, hr, hexpired⟩ |
      ⟨r, t, swept, hr, hlive, hmoves, hover, hend⟩)
    · exact hnext
    · rw [hsame] at hr
      exact hnext.depart hid (.inl ⟨r, hr, hexpired⟩) hgone
    · have hswept := hnext.swept hid hr hlive (haway hmoves) hover
      rcases hend with ⟨-, rfl⟩ | ⟨hexpired, hgone⟩
      · exact hswept
      · refine hswept.depart hid (.inr ⟨t.previous, ?_⟩) hgone
        rw [hover.changes, hexpired]
        simp
  · rintro - w' ⟨r, hr, ⟨-, -, hno⟩ | ⟨t, hlive, hmoves, ⟨-, hlate⟩ | ⟨-, -, hno⟩⟩⟩
    · exact hno (h.sound id r hr).toProjectable
    · exact htimely id r t (by rw [← hsame]; exact hr) hlive hmoves hlate
    · have hstate : t.current ≠ .mergedInto := by
        rcases haway hmoves with heq | heq | heq | heq <;> rw [heq] <;> exact nofun
      exact hno ((h.sound id r hr).moved (ne_merged_of_live hlive) hstate).toProjectable

theorem RegistryPartition.nodup_ids (p : RegistryPartition) : p.ids.Nodup :=
  (perm_insertionSort _ _).nodup_iff.mpr p.table.nodupKeys

theorem sweepRecords_sweeping {draws : Nat} {regions : RegionTracker}
    (htimely : SweepTimely wiring moment p) (hsound : p.Sound now) (hnow : p.Timely now) :
    wp (forEach (sweepRecord wiring moment) p.ids) (fun _ w' => Sweeping p now [] w')
      (fun _ _ => False) { partition := p, regions, draws } := by
  refine @wp_forEach PyException Work ObjectId (fun _ _ => False) _
    (fun rest w' => Sweeping p now rest w') (sweepRecord wiring moment) p.ids ?_ ?_
  · rintro id rest ⟨before, hsplit⟩ w' hw'
    have hnodup := p.nodup_ids
    rw [hsplit, nodup_append] at hnodup
    exact sweepRecord_sweeping htimely (nodup_cons.mp hnodup.2.1).1 hw'
  · exact ⟨fun _ _ => rfl, hsound, hnow, fun id r hr hstate => .inl ⟨r, hr, hstate⟩,
      fun id hhad hhas => absurd hhad hhas⟩

structure CameraSwept (history updates : List RegistryUpdate) (k : CameraId)
    (s s' : ObjectRegistry) : Prop where
  others : ∀ k', k' ≠ k → s'.partitions.get? k' = s.partitions.get? k'
  settled : s'.Settled (history ++ updates)
  announced : ∀ id, s.Has k id → ¬ s'.Has k id → Announced (history ++ updates) k id

/-- A timely sweep of a settled camera returns, and announces what it takes away. -/
theorem sweepCamera_spec (h : s.Settled history)
    (htimely : ∀ p, s.partitions.get? k = some p → SweepTimely wiring moment p) :
    wp (sweepCamera wiring moment k) (fun updates s' => CameraSwept history updates k s s')
      (fun _ _ => False) s := by
  unfold sweepCamera
  rw [wp_bind, wp_read]
  cases hp : s.partitions.get? k with
  | none =>
    refine ⟨fun _ _ => rfl, ?_, fun id hhad hhas => absurd hhad hhas⟩
    rw [append_nil]
    exact h
  | some p =>
    obtain ⟨⟨now, htime, hsound, hnow⟩, ⟨frameRef, hframe⟩, hannounced⟩ := h k p hp
    rw [wp_bind, wp_within]
    refine wp_mono (fun _ w' hswept => ?_) (fun _ _ h => h)
      (sweepRecords_sweeping (htimely p hp) hsound hnow)
    have hothers : ∀ k', k' ≠ k → (s.keep k w').partitions.get? k' = s.partitions.get? k' :=
      fun k' hk' => (partitions_keep ..).trans (if_neg (Ne.symm hk'))
    have hself : (s.keep k w').partitions.get? k = some w'.partition :=
      (partitions_keep ..).trans (if_pos rfl)
    have hgone : ∀ id, s.Has k id → ¬ (s.keep k w').Has k id →
        p.Has id ∧ ¬ w'.partition.Has id := by
      rintro id ⟨q, hq, hid⟩ hhas
      obtain rfl := some.inj (hp.symm.trans hq)
      exact ⟨hid, fun hid' => hhas ⟨w'.partition, hself, hid'⟩⟩
    -- What is settled once what expired has been announced.
    have hsettled : ∀ updates : List RegistryUpdate,
        (∀ id, w'.partition.Has id → Expires p w' id → Announced (history ++ updates) k id) →
        (s.keep k w').Settled (history ++ updates) := by
      intro updates hexpires k' q hq
      by_cases hk : k' = k
      · subst hk
        rw [hself] at hq
        rw [← some.inj hq]
        exact ⟨⟨now, htime, hswept.sound, hswept.timely⟩, ⟨frameRef, hframe⟩,
          fun id r hr hstate => hexpires id ⟨r, hr⟩ (hswept.expired id r hr hstate)⟩
      · rw [hothers k' hk] at hq
        obtain ⟨hclock, hlast, hexpired⟩ := h k' q hq
        exact ⟨hclock, hlast, fun id r hr hstate => (hexpired id r hr hstate).append_left _⟩
    have hbefore : ∀ (updates : List RegistryUpdate) (id : ObjectId), Expires p w' id →
        (∀ previous, (id, previous, expired) ∈ w'.changes →
          Announced updates k id) → Announced (history ++ updates) k id := by
      rintro updates id (⟨r₀, hr₀, hstate⟩ | ⟨previous, hmem⟩) hnew
      · exact (hannounced id r₀ hr₀ hstate).append_left _
      · exact Announced.append_right _ (hnew previous hmem)
    show wp (if w'.changes.isEmpty ∧ w'.removed.isEmpty then _ else _) _ _ _
    by_cases hquiet : w'.changes.isEmpty = true ∧ w'.removed.isEmpty = true
    · rw [if_pos hquiet]
      have hno : ∀ previous id, (id, previous, expired) ∉ w'.changes := by
        intro previous id hmem
        rw [isEmpty_iff.mp hquiet.1] at hmem
        cases hmem
      refine ⟨hothers, hsettled _ (fun id _ hexpires => hbefore [] id hexpires ?_), ?_⟩
      · exact fun previous hmem => absurd hmem (hno previous id)
      · intro id hhad hhas
        obtain ⟨hhad', hhas'⟩ := hgone id hhad hhas
        have hremoved := (hswept.gone id hhad' hhas').2.1
        rw [isEmpty_iff.mp hquiet.2] at hremoved
        cases hremoved
    · rw [if_neg hquiet]
      simp only [hframe]
      obtain ⟨objects, hobjects⟩ := objects_ok
        (fun k r hr => (hswept.sound k r hr).toProjectable)
      rw [wp_bind, wp_ofExcept_ok hobjects, wp_pure]
      -- The update lists every change, and the objects there are or were.
      have hlisted : ∀ id previous, (id, previous, expired) ∈ w'.changes →
          (∃ o ∈ objects ++ w'.departed, o.objectId = id) →
          Announced [({ cameraId := k, frameRef, objects := objects ++ w'.departed,
                        lifecycleChanges := w'.changes, expired := w'.removed } :
                          RegistryUpdate)] k id :=
        fun id previous hmem hobject =>
          ⟨_, mem_singleton_self _, rfl, ⟨previous, .expired, hmem, rfl⟩, hobject⟩
      refine ⟨hothers, hsettled _ (fun id hid hexpires => hbefore _ id hexpires ?_), ?_⟩
      · intro previous hmem
        obtain ⟨o, ho, hoid⟩ := mem_map.mp
          ((mem_objects hobjects).mpr hid)
        exact hlisted id previous hmem ⟨o, mem_append_left _ ho, hoid⟩
      · intro id hhad hhas
        obtain ⟨hhad', hhas'⟩ := hgone id hhad hhas
        obtain ⟨⟨o, ho, hoid⟩, -, hexpires⟩ := hswept.gone id hhad' hhas'
        exact hbefore _ id hexpires (fun previous hmem =>
          hlisted id previous hmem ⟨o, mem_append_right _ ho, hoid⟩)

theorem sweepCameras_spec {cameras : List CameraId} (hnodup : cameras.Nodup)
    (h : s.Settled history) (htimely : ∀ k ∈ cameras, ∀ p, s.partitions.get? k = some p →
      SweepTimely wiring moment p) :
    wp (sweepCameras wiring moment cameras)
      (fun updates s' => s'.Settled (history ++ updates) ∧
        ∀ k id, s.Has k id → ¬ s'.Has k id → Announced (history ++ updates) k id)
      (fun _ _ => False) s := by
  induction cameras generalizing s history with
  | nil =>
    refine ⟨?_, fun k id hhad hhas => absurd hhad hhas⟩
    rw [append_nil]
    exact h
  | cons k rest ih =>
    obtain ⟨hk, hrest⟩ := nodup_cons.mp hnodup
    unfold sweepCameras
    rw [wp_bind]
    refine wp_mono (fun updates s₁ hswept => ?_) (fun _ _ h => h)
      (sweepCamera_spec h (htimely k (mem_cons_self ..)))
    have htimely' : ∀ k' ∈ rest, ∀ p, s₁.partitions.get? k' = some p →
        SweepTimely wiring moment p := by
      intro k' hk' p hp
      rw [hswept.others k' (by rintro rfl; exact hk hk')] at hp
      exact htimely k' (mem_cons_of_mem _ hk') p hp
    rw [wp_bind]
    refine wp_mono (fun later s' hlater => ?_) (fun _ _ h => h) (ih hrest hswept.settled htimely')
    rw [wp_pure, ← append_assoc]
    refine ⟨hlater.1, fun k' id hhad hhas => ?_⟩
    by_cases hmid : s₁.Has k' id
    · exact hlater.2 k' id hmid hhas
    · -- It was gone after the first camera, so it was one of that camera's.
      by_cases hk' : k' = k
      · subst hk'
        exact (hswept.announced id hhad hmid).append_left _
      · obtain ⟨p, hp, hid⟩ := hhad
        exact absurd ⟨p, (hswept.others k' hk').trans hp, hid⟩ hmid

/-! ## Runs -/

/-- A registry, and every update it has returned. -/
structure Publishing where
  registry : ObjectRegistry := {}
  published : List RegistryUpdate := []

def Publishing.after (wiring : RegistryWiring) (x : Publishing) (call : RegistryCall) :
    Publishing where
  registry := call.after wiring x.registry
  published := x.published ++
    match (call.perform wiring x.registry).1 with
    | .ok updates => updates
    | .error _ => []

/-- The calls that age a camera's objects. -/
def RegistryCall.Ages : RegistryCall → Prop
  | .ingest .. | .sweep _ => True
  | _ => False

/-- A call that loses no departure: the turns of a frame are gentle, and the horizons of a
    sweep move no live record with a binding from later on. -/
def RegistryCall.Lossless (wiring : RegistryWiring) (s : ObjectRegistry) : RegistryCall → Prop
  | .ingest k update clock => FrameGentle wiring k update clock s
  | .sweep moment => ∀ k p, s.partitions.get? k = some p → SweepTimely wiring moment p
  | _ => True

/-- Every object that a call removes has been announced when the call has returned. -/
def Disclosed (wiring : RegistryWiring) (x : Publishing) (call : RegistryCall) : Prop :=
  ∀ k id, x.registry.Has k id → ¬ (x.after wiring call).registry.Has k id →
    Announced (x.after wiring call).published k id

theorem ObjectRegistry.nodup_cameras (s : ObjectRegistry) : s.cameras.Nodup :=
  (perm_insertionSort _ _).nodup_iff.mpr s.partitions.nodupKeys

theorem Publishing.after_settled {x : Publishing} {call : RegistryCall}
    (husable : wiring.binding.Usable)
    (h : x.registry.Settled x.published) (hages : call.Ages)
    (hlossless : call.Lossless wiring x.registry) :
    (x.after wiring call).registry.Settled (x.after wiring call).published ∧
    Disclosed wiring x call := by
  cases call with
  | ingest k update clock =>
    obtain ⟨hkeeps, hsettled⟩ := ingest_settled husable h hlossless
    exact ⟨hsettled, fun k' id hhad hhas => absurd (hkeeps k' id hhad) hhas⟩
  | sweep moment =>
    have hswept := sweepCameras_spec x.registry.nodup_cameras h
      (fun k _ p hp => hlossless k p hp)
    obtain ⟨hok, hraised⟩ := wp_iff.mp hswept
    cases hresult : (sweepCameras wiring moment x.registry.cameras x.registry).1 with
    | ok updates =>
      obtain ⟨hsettled, hannounced⟩ := hok updates hresult
      have hpublished : (x.after wiring (.sweep moment)).published = x.published ++ updates := by
        show x.published ++ (match (sweepCameras wiring moment x.registry.cameras
          x.registry).1 with
          | .ok updates => updates
          | .error _ => []) = _
        rw [hresult]
      unfold Disclosed
      rw [hpublished]
      exact ⟨hsettled, hannounced⟩
    | error exc => exact (hraised exc hresult).elim
  | bind _ _ _ _ _ => exact hages.elim
  | merge _ _ _ => exact hages.elim
  | split _ _ _ => exact hages.elim
  | applyAttribute _ _ => exact hages.elim

/-- In a run of frames and sweeps that lose no departure, every object that leaves a camera
    is announced by an update returned by then. -/
theorem departures_disclosed (wiring : RegistryWiring)
    (husable : wiring.binding.Usable)
    (calls : List RegistryCall) (hcalls : Runs.Always (Publishing.after wiring)
      (fun x call => call.Ages ∧ call.Lossless wiring x.registry) {} calls) :
    Runs.Always (Publishing.after wiring) (Disclosed wiring) {} calls := by
  have hempty : ObjectRegistry.Settled [] {} := fun k p hp => by cases hp
  refine @Runs.always_mono_of_kept Publishing RegistryCall (Publishing.after wiring)
    (fun x => x.registry.Settled x.published) _ (Disclosed wiring)
    (fun x call hsettled hcall => ?_) (fun x call hsettled hcall => ?_) {} hempty calls hcalls
  · exact (Publishing.after_settled husable hsettled hcall.1 hcall.2).1
  · exact (Publishing.after_settled husable hsettled hcall.1 hcall.2).2

theorem sweepTimely_of_records
    (h : p.records.all (fun r => ∀ b ∈ r.bindings, b.boundFrom.ns ≤ moment.ns) = true) :
    SweepTimely wiring moment p := by
  rintro id r t hr - - ⟨b, hb, -, hlate⟩
  have hmem : r ∈ p.records := by
    rw [mem_records, objectId_of_recordFor hr]
    exact hr
  have hall : ∀ b ∈ r.bindings, b.boundFrom.ns ≤ moment.ns := by
    simpa using all_eq_true.mp h r hmem
  exact absurd (hall b hb) (not_le.mpr hlate)

/-- Somebody seen once, and swept after four seconds. -/
def passing : List RegistryCall := [.ingest "north" leftFrame ⟨0⟩, .sweep ⟨4000000000⟩]

/-- The provisional object expires in the sweep, and the sweep says so. -/
theorem departures_disclosed_passing :
    Runs.Always (Publishing.after (streetWiring patientPolicy))
      (Disclosed (streetWiring patientPolicy)) {} passing := by
  refine departures_disclosed (streetWiring patientPolicy) (streetWiring_usable _) passing ?_
  refine ⟨⟨trivial, ⟨fun _ id r hr => (by cases hr), fun _ r hr => (by cases hr)⟩,
    wp_true _ _⟩, ⟨trivial, fun k p hp => sweepTimely_of_records ?_⟩, trivial⟩
  have hall : (afterLeft patientPolicy).partitions.entries.all (fun e => e.2.records.all
      (fun r => ∀ b ∈ r.bindings, b.boundFrom.ns ≤ 4000000000)) = true := by decide +kernel
  exact all_eq_true.mp hall (k, p) (get?_eq_some_iff.mp hp)

/-- The default policy, but for holding one object at a time. -/
def crampedPolicy : LifecyclePolicy := ⟨{ maxObjectsPerCamera := 1 }, by decide +kernel⟩

def otherTrack : Track where
  toTrackFields :=
    { (streetTrack rightBox false ⟨2000000000⟩ ⟨2000000000⟩ rightBox_isWithinUnit
        (Int.le_refl _)).toTrackFields with trackId := ⟨⟨"north", 0, 8⟩, by decide +kernel⟩ }
  accepted := by decide +kernel

def crowded : List RegistryCall :=
  [.ingest "north" leftFrame ⟨0⟩, .ingest "north" (streetFrame 1 otherTrack) ⟨0⟩]

/-- The first person is shed for the second, and no update has a terminal change. -/
theorem shed_person_undisclosed :
    ¬ Runs.Always (Publishing.after (streetWiring crampedPolicy))
      (Disclosed (streetWiring crampedPolicy)) {} crowded := by
  rintro ⟨-, hlast, -⟩
  have hsilent : (Runs.run (Publishing.after (streetWiring crampedPolicy)) {}
      crowded).published.all (fun u => u.lifecycleChanges.all
        (fun c => ¬ c.2.2.isTerminal = true)) = true := by decide +kernel
  have hhad : ((afterLeft crampedPolicy).partitions.get? "north").any (fun p =>
      (p.recordFor ((streetWiring crampedPolicy).idAt 0 ⟨1000⟩)).isSome) = true := by
    decide +kernel
  have hhas : ((Runs.run (Publishing.after (streetWiring crampedPolicy)) {}
      crowded).registry.partitions.get? "north").all (fun p =>
      (p.recordFor ((streetWiring crampedPolicy).idAt 0 ⟨1000⟩)).isNone) = true := by
    decide +kernel
  obtain ⟨u, hu, -, ⟨previous, current, hmem, hterminal⟩, -⟩ :=
    hlast "north" ((streetWiring crampedPolicy).idAt 0 ⟨1000⟩) (by
      obtain ⟨p, hp, hsome⟩ := (Option.any_eq_true _ _).mp hhad
      exact ⟨p, hp, isSome_iff_exists.mp hsome⟩) (by
      rintro ⟨p, hp, r, hr⟩
      have hnone := (Option.all_eq_true _ _).mp hhas p hp
      rw [hr] at hnone
      cases hnone)
  have hquiet := all_eq_true.mp (all_eq_true.mp hsilent u hu) _ hmem
  simp [hterminal] at hquiet

end VisionOs.Registry
