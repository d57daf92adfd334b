/-
  What an object's last confirmation and its histories rest on.  A track that is given a new
  object writes them whatever it is; any other only when it was measured.
-/
import VisionOs.Registry.Turns

namespace VisionOs.Registry

open Core Lib Effect List Runs ObjectRegistry Option

variable {wiring : RegistryWiring} {w w' : Work} {id : ObjectId} {track : Track} {now : Instant}
  {crossingEpoch : Bool} {tracks : List Track}

/-- Two records were confirmed at the same instant and have the same histories. -/
structure SameEvidence (r r' : ObjectRecord) : Prop where
  lastConfirmed : r'.lastConfirmed = r.lastConfirmed
  spatialHistory : r'.spatialHistory = r.spatialHistory
  classHistory : r'.classHistory = r.classHistory

/-- Every instant, position and class of a record is one of the sightings. -/
structure RestsOn (sighted : Instant → Sighting → Prop) (r : ObjectRecord) : Prop where
  confirmed : ∃ s, sighted r.lastConfirmed s
  places : ∀ e ∈ r.spatialHistory.items, ∃ s, sighted e.1 s ∧ e.2 = s.spatial
  classes : ∀ c ∈ r.classHistory.items, ∃ s, sighted c.observedAt s ∧
    c = s.classObservation c.observedAt

variable {r r' : ObjectRecord}

theorem RestsOn.same {sighted : Instant → Sighting → Prop}
    (h : RestsOn sighted r) (hsame : SameEvidence r r') : RestsOn sighted r' := by
  obtain ⟨hconfirmed, hplaces, hclasses⟩ := hsame
  refine ⟨?_, ?_, ?_⟩
  · rw [hconfirmed]
    exact h.confirmed
  · rw [hplaces]
    exact h.places
  · rw [hclasses]
    exact h.classes

theorem RestsOn.mono {sighted sighted' : Instant → Sighting → Prop} {r : ObjectRecord}
    (h : RestsOn sighted r) (hmore : ∀ t s, sighted t s → sighted' t s) :
    RestsOn sighted' r where
  confirmed := h.confirmed.imp fun s => hmore _ s
  places e he := (h.places e he).imp fun s hs => ⟨hmore _ s hs.1, hs.2⟩
  classes c hc := (h.classes c hc).imp fun s hs => ⟨hmore _ s hs.1, hs.2⟩

theorem mem_push {α : Type} {deque : BoundedDeque α} {a b : α} (h : b ∈ (deque.push a).items) :
    b ∈ deque.items ∨ b = a := by
  have hmem : b ∈ deque.items ++ [a] := mem_of_mem_drop h
  simpa using hmem

theorem restsOn_push {sighted : Instant → Sighting → Prop} {s : Sighting}
    (hs : sighted now s) {places : BoundedDeque (Instant × SpatialInfo)}
    {classes : BoundedDeque ClassObservation} (hconfirmed : r'.lastConfirmed = now)
    (hspatial : r'.spatialHistory = places.push (now, s.spatial))
    (hclass : r'.classHistory = classes.push (s.classObservation now))
    (hplaces : ∀ e ∈ places.items, ∃ s, sighted e.1 s ∧ e.2 = s.spatial)
    (hclasses : ∀ c ∈ classes.items, ∃ s, sighted c.observedAt s ∧
      c = s.classObservation c.observedAt) : RestsOn sighted r' := by
  refine ⟨⟨s, by rwa [hconfirmed]⟩, fun e he => ?_, fun c hc => ?_⟩
  · rw [hspatial] at he
    rcases mem_push he with hold | rfl
    · exact hplaces e hold
    · exact ⟨s, hs, rfl⟩
  · rw [hclass] at hc
    rcases mem_push hc with hold | rfl
    · exact hclasses c hold
    · exact ⟨s, hs, rfl⟩

/-! ## One track -/

/-- The object a track is folded into: its own, one it re-enters, or a new one. -/
inductive AbsorbedInto (wiring : RegistryWiring) (track : Track) (now : Instant)
    (crossingEpoch : Bool) (w : Work) : ObjectId → Prop where
  | continued (r : ObjectRecord) (hby : w.partition.byTrack track.trackId = some r) :
      AbsorbedInto wiring track now crossingEpoch w r.objectId
  | reentered (d : BindingDecision) (c : Candidate)
      (hnone : w.partition.byTrack track.trackId = none)
      (hd : reentryOf wiring track now crossingEpoch w.partition = .ok d)
      (hc : d.matched = some c) : AbsorbedInto wiring track now crossingEpoch w c.objectId
  | minted (hunmatched : Unmatched wiring track now crossingEpoch w.partition)
      (hroom : w.shedOldest.partition.atCapacity = false) :
      AbsorbedInto wiring track now crossingEpoch w (wiring.idAt w.draws now)

/-- No object is made for a track that was only predicted: one that is neither bound nor
    matched finds the camera full of objects that may not be shed. -/
def NotMinted (wiring : RegistryWiring) (now : Instant) (crossingEpoch : Bool) (track : Track)
    (w : Work) : Prop :=
  track.isPredicted = true → Unmatched wiring track now crossingEpoch w.partition →
    w.shedOldest.partition.atCapacity = true

theorem WorkedOn.evidence {B : List TrackBinding → Prop}
    (h : WorkedOn wiring track now B id r w w') {k : ObjectId}
    (hr' : w'.partition.recordFor k = some r') :
    k = id ∧ SameEvidence r r' ∨ k ≠ id ∧ w.partition.recordFor k = some r' := by
  by_cases hk : k = id
  · subst hk
    obtain ⟨bindings, confidence, state, hself, -⟩ := h.record
    rw [hself] at hr'
    rw [← some.inj hr']
    exact .inl ⟨rfl, rfl, rfl, rfl⟩
  · exact .inr ⟨hk, (h.others k hk).symm.trans hr'⟩

variable {sighted : ObjectId → Instant → Sighting → Prop}

/-- What a turn leaves of a record: the evidence it had before, or that with the track's
    measurement, which was absorbed into it. -/
theorem TrackTurn.evidence
    (h : TrackTurn wiring track now crossingEpoch w w')
    (hminted : NotMinted wiring now crossingEpoch track w)
    (hsighted : ∀ k s, AbsorbedInto wiring track now crossingEpoch w k →
      measuredOf track = some s → sighted k now s)
    (hbefore : ∀ k r, w.partition.recordFor k = some r → RestsOn (sighted k) r)
    {k : ObjectId} (hr' : w'.partition.recordFor k = some r') :
    (∃ r, w.partition.recordFor k = some r ∧ SameEvidence r r') ∨
      RestsOn (sighted k) r' ∧ AbsorbedInto wiring track now crossingEpoch w k ∧
        ∃ s, measuredOf track = some s := by
  -- the two turns that absorb the track into a held object differ only in how it is found
  have hheld : ∀ {r r₁ : ObjectRecord} {id}, w.partition.recordFor id = some r →
      AbsorbedInto wiring track now crossingEpoch w id →
      ObjectRecord.Observed (measuredOf track) now r r₁ → SameEvidence r₁ r' → k = id →
      (∃ r, w.partition.recordFor k = some r ∧ SameEvidence r r') ∨
        RestsOn (sighted k) r' ∧ AbsorbedInto wiring track now crossingEpoch w k ∧
          ∃ s, measuredOf track = some s := by
    intro r r₁ id hr hinto hobserved hsame hk
    subst hk
    cases hmeasured : measuredOf track with
    | none =>
      rw [hmeasured] at hobserved
      obtain ⟨hplaces, hclasses⟩ := hobserved.believed rfl
      exact .inl ⟨r, hr, hsame.1.trans (hobserved.unconfirmed rfl), hsame.2.trans hplaces,
        hsame.3.trans hclasses⟩
    | some s =>
      obtain ⟨hconfirmed, hplaces, hclasses⟩ := hobserved.measured s hmeasured
      have hrests := hbefore _ r hr
      exact .inr ⟨(restsOn_push (hsighted _ s hinto hmeasured) hconfirmed hplaces hclasses
        hrests.places hrests.classes).same hsame, hinto, s, rfl⟩
  cases h with
  | continued r r₁ hby hobserved hworked =>
    obtain ⟨hr, -, -⟩ := RegistryPartition.byTrack_eq_some_iff.mp hby
    rcases hworked.evidence hr' with ⟨hk, hsame⟩ | ⟨-, hr'⟩
    · exact hheld hr (.continued r hby) hobserved hsame hk
    · exact .inl ⟨r', hr', rfl, rfl, rfl⟩
  | reentered r r₁ hnone hmatched hr _ hobserved hworked =>
    obtain ⟨d, c, hd, hc, hid⟩ := hmatched
    rcases hworked.evidence hr' with ⟨hk, hsame⟩ | ⟨-, hr'⟩
    · exact hheld hr (hid ▸ .reentered d c hnone hd hc) hobserved hsame hk
    · exact .inl ⟨r', hr', rfl, rfl, rfl⟩
  | minted hunmatched hworked hroom =>
    rcases hworked.evidence hr' with ⟨rfl, hsame⟩ | ⟨-, hr'⟩
    · have hmeasured : measuredOf track = some (sightingOf track) := by
        refine if_neg fun hpredicted => ?_
        rw [hminted hpredicted hunmatched] at hroom
        cases hroom
      have hinto : AbsorbedInto wiring track now crossingEpoch w (wiring.idAt w.draws now) :=
        .minted hunmatched hroom
      exact .inr ⟨(restsOn_push (hsighted _ _ hinto hmeasured) rfl rfl rfl
        (fun _ he => (not_mem_nil he).elim) (fun _ hc => (not_mem_nil hc).elim)).same
          hsame, hinto, _, hmeasured⟩
    · exact .inl ⟨r', recordFor_shedOldest hr', rfl, rfl, rfl⟩
  | refused _ hsame =>
    rw [hsame] at hr'
    exact .inl ⟨r', recordFor_shedOldest hr', rfl, rfl, rfl⟩
  | raised _ _ hsame =>
    rw [hsame] at hr'
    exact .inl ⟨r', hr', rfl, rfl, rfl⟩

/-! ## One frame -/

/-- Some track of the frame measures the object. -/
inductive Measured (wiring : RegistryWiring) (now : Instant) (crossingEpoch : Bool)
    (id : ObjectId) (s : Sighting) : List Track → Work → Prop where
  | here {track : Track} {rest : List Track} {w : Work}
      (hinto : AbsorbedInto wiring track now crossingEpoch w id)
      (hs : measuredOf track = some s) : Measured wiring now crossingEpoch id s (track :: rest) w
  | later {track : Track} {rest : List Track} {w : Work}
      (hfolded : (foldTrack wiring now crossingEpoch track w).1 = .ok ())
      (hrest : Measured wiring now crossingEpoch id s rest
        (foldTrack wiring now crossingEpoch track w).2) :
      Measured wiring now crossingEpoch id s (track :: rest) w

def FrameKeeps (wiring : RegistryWiring) (now : Instant) (crossingEpoch : Bool)
    (tracks : List Track) (before : Work) (sighted : ObjectId → Instant → Sighting → Prop)
    (w : Work) : Prop :=
  ∀ k r, w.partition.recordFor k = some r → RestsOn (sighted k) r ∧
    ((∀ s, ¬ Measured wiring now crossingEpoch k s tracks before) →
      ∃ r₀, before.partition.recordFor k = some r₀ ∧ SameEvidence r₀ r)

theorem FrameKeeps.age {before : Work}
    (h : FrameKeeps wiring now crossingEpoch tracks before sighted w)
    {t : LifecycleTransition} (haged : Aged now id r t w w') :
    FrameKeeps wiring now crossingEpoch tracks before sighted w' := by
  intro k r' hr'
  by_cases hk : k = id
  · subst hk
    obtain ⟨closed, r₁, -, hobserved, hself⟩ := haged.record
    rw [hself] at hr'
    obtain ⟨hplaces, hclasses⟩ := hobserved.believed rfl
    have hsame : SameEvidence r r' := by
      rw [← some.inj hr']
      exact ⟨hobserved.unconfirmed rfl, hplaces, hclasses⟩
    obtain ⟨hrests, hkept⟩ := h k r haged.found
    refine ⟨hrests.same hsame, fun hno => ?_⟩
    obtain ⟨r₀, hr₀, hsame₀⟩ := hkept hno
    exact ⟨r₀, hr₀, hsame.1.trans hsame₀.1, hsame.2.trans hsame₀.2, hsame.3.trans hsame₀.3⟩
  · exact h k r' ((haged.others k hk).symm.trans hr')

theorem foldFrame_evidence
    (hsighted : ∀ k s, Measured wiring now crossingEpoch k s tracks w → sighted k now s)
    (halong : Along (foldTrack wiring now crossingEpoch) (NotMinted wiring now crossingEpoch)
      tracks w) (h : ∀ k r, w.partition.recordFor k = some r → RestsOn (sighted k) r) :
    wp (foldFrame wiring tracks now crossingEpoch)
      (fun _ => FrameKeeps wiring now crossingEpoch tracks w sighted)
      (fun _ => FrameKeeps wiring now crossingEpoch tracks w sighted) w := by
  have hstart : FrameKeeps wiring now crossingEpoch tracks w sighted w := fun k r hr =>
    ⟨h k r hr, fun _ => ⟨r, hr, rfl, rfl, rfl⟩⟩
  unfold foldFrame
  rw [wp_bind]
  -- What the tracks to come measure is measured in the frame.
  refine wp_mono (fun _ w₁ h₁ => ?_) (fun _ _ h => h) (@wp_forEach_along _ _ _
    (fun _ => FrameKeeps wiring now crossingEpoch tracks w sighted) w
    (fun rest w' => (∀ k s, Measured wiring now crossingEpoch k s rest w' →
        Measured wiring now crossingEpoch k s tracks w) ∧
      FrameKeeps wiring now crossingEpoch tracks w sighted w') _ _ _
    (fun track rest _ w₁ hw₁ hminted => ?_) halong ⟨fun _ _ hm => hm, hstart⟩)
  · rw [wp_bind, wp_read, wp_bind]
    refine wp_mono (fun _ w₂ h₂ => ?_) (fun _ _ h => h) (@wp_forEach _ _ _
      (fun _ => FrameKeeps wiring now crossingEpoch tracks w sighted) w₁
      (fun _ => FrameKeeps wiring now crossingEpoch tracks w sighted) _ _
      (fun id _ _ w' hw' => ?_) h₁.2)
    · rw [wp_bind, wp_read, wp_ofExcept]
      exact ⟨fun _ _ => h₂, fun _ _ => h₂⟩
    · refine wp_mono (fun _ w'' haged => ?_) (fun _ w'' haged => ?_) ageRecord_spec
      · rcases haged with ⟨rfl, -⟩ | ⟨r, t, haged⟩
        · exact hw'
        · exact hw'.age haged
      · rw [haged.1]
        exact hw'
  · obtain ⟨hmeasured, hkept⟩ := hw₁
    have hturn : ∀ w₂, TrackTurn wiring track now crossingEpoch w₁ w₂ →
        FrameKeeps wiring now crossingEpoch tracks w sighted w₂ := by
      intro w₂ hturn k r' hr'
      rcases hturn.evidence hminted (fun k s hinto hs => hsighted k s (hmeasured k s
        (.here hinto hs))) (fun k r hr => (hkept k r hr).1) hr' with ⟨r, hr, hsame⟩ | hadded
      · obtain ⟨hrests, hsame₀⟩ := hkept k r hr
        refine ⟨hrests.same hsame, fun hno => ?_⟩
        obtain ⟨r₀, hr₀, h₀⟩ := hsame₀ hno
        exact ⟨r₀, hr₀, hsame.1.trans h₀.1, hsame.2.trans h₀.2, hsame.3.trans h₀.3⟩
      · obtain ⟨hrests, hinto, s, hs⟩ := hadded
        exact ⟨hrests, fun hno => (hno s (hmeasured k s (.here hinto hs))).elim⟩
    refine wp_iff.mpr ⟨fun a ha => ⟨fun k s hrest => hmeasured k s (.later ha hrest), ?_⟩,
      fun e he => ?_⟩
    · exact hturn _ ((wp_iff.mp foldTrack_turn).1 a ha)
    · exact hturn _ ((wp_iff.mp foldTrack_turn).2 e he)

/-! ## Runs -/

/-- A frame that a camera delivers, and what the clock shows. -/
structure FrameCall where
  cameraId : CameraId
  update : TrackUpdate
  clock : Instant

def ObjectRegistry.held (s : ObjectRegistry) (k : CameraId) (id : ObjectId) : Option ObjectRecord :=
  (s.partitions.get? k).bind (·.recordFor id)

namespace FrameCall

variable {c : FrameCall} {s : ObjectRegistry} {k : CameraId}

def after (wiring : RegistryWiring) (s : ObjectRegistry) (c : FrameCall) : ObjectRegistry :=
  (ingest wiring c.cameraId c.update c.clock s).2

def instant (s : ObjectRegistry) (c : FrameCall) : Instant :=
  s.advanceTime c.cameraId c.update c.clock

/-- The frame makes no object for a track that was only predicted. -/
def NoneMinted (wiring : RegistryWiring) (s : ObjectRegistry) (c : FrameCall) : Prop :=
  Along (foldTrack wiring (c.instant s) (crossesEpoch s c.cameraId c.update))
    (NotMinted wiring (c.instant s) (crossesEpoch s c.cameraId c.update)) c.update.active
    (frameWork wiring c.cameraId c.update c.clock s)

/-- A measured track of the frame says this of the object it is absorbed into. -/
def Measures (wiring : RegistryWiring) (s : ObjectRegistry) (c : FrameCall) (k : CameraId)
    (id : ObjectId) (o : Sighting) : Prop :=
  c.cameraId = k ∧ Measured wiring (c.instant s) (crossesEpoch s c.cameraId c.update) id o
    c.update.active (frameWork wiring c.cameraId c.update c.clock s)

theorem held_frameWork :
    (frameWork wiring c.cameraId c.update c.clock s).partition.recordFor id =
      s.held c.cameraId id := by
  unfold frameWork held
  cases hp : s.partitions.get? c.cameraId <;> rfl

theorem held_keep {update : TrackUpdate} {moment : Instant} {k' : CameraId} :
    ((prepare wiring k update moment s).keep k w).held k' id =
      if k = k' then w.partition.recordFor id else s.held k' id := by
  unfold held
  rw [partitions_keep]
  by_cases hk : k = k'
  · rw [if_pos hk, if_pos hk]
    rfl
  · rw [if_neg hk, if_neg hk]
    show ((s.partitions.set k _).get? k').bind _ = _
    rw [OrderedDict.get?_set, if_neg hk]

/-- What the frame leaves rests on the sightings, and is as it was where the frame measured
    nothing. -/
def Keeps (wiring : RegistryWiring) (sighted : CameraId → ObjectId → Instant → Sighting → Prop)
    (s : ObjectRegistry) (c : FrameCall) (s' : ObjectRegistry) : Prop :=
  ∀ k id r', s'.held k id = some r' → RestsOn (sighted k id) r' ∧
    ((∀ o, ¬ c.Measures wiring s k id o) → ∃ r, s.held k id = some r ∧ SameEvidence r r')

theorem after_evidence {sighted : CameraId → ObjectId → Instant → Sighting → Prop}
    (hminted : c.NoneMinted wiring s)
    (hsighted : ∀ k id o, c.Measures wiring s k id o → sighted k id (c.instant s) o)
    (h : ∀ k id r, s.held k id = some r → RestsOn (sighted k id) r) :
    c.Keeps wiring sighted s (c.after wiring s) := by
  have hkept : ∀ w', FrameKeeps wiring (c.instant s) (crossesEpoch s c.cameraId c.update)
      c.update.active (frameWork wiring c.cameraId c.update c.clock s) (sighted c.cameraId) w' →
      c.Keeps wiring sighted s
        ((prepare wiring c.cameraId c.update (c.instant s) s).keep c.cameraId w') := by
    intro w' hw' k id r' hr'
    rw [held_keep] at hr'
    by_cases hk : c.cameraId = k
    · subst hk
      rw [if_pos rfl] at hr'
      obtain ⟨hrests, hsame⟩ := hw' id r' hr'
      refine ⟨hrests, fun hno => ?_⟩
      rw [← held_frameWork]
      exact hsame fun o ho => hno o ⟨rfl, ho⟩
    · rw [if_neg hk] at hr'
      exact ⟨h k id r' hr', fun _ => ⟨r', hr', rfl, rfl, rfl⟩⟩
  have hframe := foldFrame_evidence (fun id o ho => hsighted _ id o ⟨rfl, ho⟩) hminted
    (fun id r hr => h c.cameraId id r (held_frameWork.symm.trans hr))
  exact ingest_rule (P := fun result => c.Keeps wiring sighted s result.2)
    (wp_mono (fun _ w' hw' => hkept w' hw') (fun _ w' hw' => hkept w' hw') hframe)

end FrameCall

/-- In the run, a track measured at the instant was absorbed into the object and said this. -/
def SightedIn (wiring : RegistryWiring) (calls : List FrameCall) (k : CameraId) (id : ObjectId)
    (t : Instant) (o : Sighting) : Prop :=
  ∃ before c after, calls = before ++ c :: after ∧
    t = c.instant (run (FrameCall.after wiring) {} before) ∧
    c.Measures wiring (run (FrameCall.after wiring) {} before) k id o

theorem SightedIn.append {calls : List FrameCall} {k : CameraId} {t : Instant} {o : Sighting}
    (h : SightedIn wiring calls k id t o) (more : List FrameCall) :
    SightedIn wiring (calls ++ more) k id t o := by
  obtain ⟨before, c, after, hcalls, hrest⟩ := h
  exact ⟨before, c, after ++ more, by rw [hcalls, append_assoc]; rfl, hrest⟩

theorem run_restsOn (calls : List FrameCall)
    (halways : Runs.Always (FrameCall.after wiring) (FrameCall.NoneMinted wiring) {} calls) :
    ∀ k id r, (run (FrameCall.after wiring) {} calls).held k id = some r →
      RestsOn (SightedIn wiring calls k id) r := by
  induction calls using List.reverseRecOn with
  | nil =>
    intro k id r hr
    cases hr
  | append_singleton calls c ih =>
    obtain ⟨hbefore, hminted, -⟩ := always_append.mp halways
    intro k id r hr
    rw [run_append] at hr
    refine (FrameCall.after_evidence hminted (fun k id o ho => ?_) (fun k id r hr => ?_) k id r hr).1
    · exact ⟨calls, c, [], rfl, rfl, ho⟩
    · exact (ih hbefore k id r hr).mono fun _ _ ho => ho.append [c]

/-- In every run of frames in which no object is made for a track that was only predicted, an
    object's last confirmation, places and classes are those of frames that measured it, and a
    frame that does not measure it leaves all three alone. -/
theorem evidence_is_measured (wiring : RegistryWiring) (calls : List FrameCall)
    (halways : Runs.Always (FrameCall.after wiring) (FrameCall.NoneMinted wiring) {} calls) :
    (∀ k id r, (run (FrameCall.after wiring) {} calls).held k id = some r →
      RestsOn (SightedIn wiring calls k id) r) ∧
    ∀ before c after, calls = before ++ c :: after → ∀ k id r',
      (c.after wiring (run (FrameCall.after wiring) {} before)).held k id = some r' →
      (∀ o, ¬ c.Measures wiring (run (FrameCall.after wiring) {} before) k id o) →
      ∃ r, (run (FrameCall.after wiring) {} before).held k id = some r ∧
        SameEvidence r r' := by
  refine ⟨run_restsOn calls halways, ?_⟩
  rintro before c after rfl k id r' hr' hno
  obtain ⟨hbefore, hminted, -⟩ := always_append.mp halways
  refine (@FrameCall.after_evidence wiring c _ (SightedIn wiring (before ++ c :: after)) hminted
    (fun k id o ho => ?_) (fun k id r hr => ?_) k id r' hr').2 hno
  · exact ⟨before, c, after, rfl, rfl, ho⟩
  · exact (run_restsOn before hbefore k id r hr).mono fun _ _ ho => ho.append (c :: after)

theorem streetFrame_noneMinted {s : ObjectRegistry} {frameSeq : Nat}
    (h : track.isPredicted = false) :
    FrameCall.NoneMinted wiring s ⟨"north", streetFrame frameSeq track, ⟨0⟩⟩ := by
  refine ⟨fun hpredicted => ?_, wp_mono (fun _ _ _ => trivial) (fun _ _ _ => trivial)
    (wp_true _ _)⟩
  rw [h] at hpredicted
  cases hpredicted

/-- The person seen on the left and then on the right. -/
def leftThenRight : List FrameCall :=
  [⟨"north", leftFrame, ⟨0⟩⟩, ⟨"north", rightFrame, ⟨0⟩⟩]

theorem evidence_is_measured_street :
    ∃ id r, (run (FrameCall.after (streetWiring promptPolicy)) {} leftThenRight).held "north"
        id = some r ∧
      RestsOn (SightedIn (streetWiring promptPolicy) leftThenRight "north" id) r := by
  have hheld : ((run (FrameCall.after (streetWiring promptPolicy)) {} leftThenRight).held
      "north" ((streetWiring promptPolicy).idAt 0 ⟨1000⟩)).isSome = true := by
    decide +kernel
  obtain ⟨r, hr⟩ := isSome_iff_exists.mp hheld
  exact ⟨_, r, hr, (evidence_is_measured (streetWiring promptPolicy) leftThenRight
    ⟨streetFrame_noneMinted rfl, streetFrame_noneMinted rfl, trivial⟩).1 _ _ r hr⟩

theorem firstSeen_le : (⟨1000⟩ : Instant).ns ≤ (⟨1000⟩ : Instant).ns := le_rfl

/-- The person's track when it was only predicted, after a microsecond. -/
def predictedFrame : FrameCall :=
  ⟨"north",
    streetFrame 0 (streetTrack leftBox true ⟨1000⟩ ⟨1000⟩ leftBox_isWithinUnit firstSeen_le), ⟨0⟩⟩

theorem Measured.mem {s : Sighting} (h : Measured wiring now crossingEpoch id s tracks w) :
    ∃ t ∈ tracks, measuredOf t = some s := by
  induction h with
  | here _ hs => exact ⟨_, mem_cons_self, hs⟩
  | later _ _ ih =>
    obtain ⟨t, ht, hs⟩ := ih
    exact ⟨t, mem_cons_of_mem _ ht, hs⟩

/-- A first sight that was only predicted confirms an object that nothing ever measured. -/
theorem prediction_confirms :
    ∃ id r, (run (FrameCall.after (streetWiring promptPolicy)) {} [predictedFrame]).held
        "north" id = some r ∧
      ¬ RestsOn (SightedIn (streetWiring promptPolicy) [predictedFrame] "north" id) r := by
  have hheld : ((run (FrameCall.after (streetWiring promptPolicy)) {} [predictedFrame]).held
      "north" ((streetWiring promptPolicy).idAt 0 ⟨1000⟩)).isSome = true := by
    decide +kernel
  obtain ⟨r, hr⟩ := isSome_iff_exists.mp hheld
  refine ⟨_, r, hr, fun hrests => ?_⟩
  obtain ⟨o, before, c, after, hcalls, -, -, hmeasured⟩ := hrests.confirmed
  have hc : c ∈ [predictedFrame] := by
    rw [hcalls]
    exact mem_append_right _ mem_cons_self
  rw [mem_singleton.mp hc] at hmeasured
  obtain ⟨t, ht, ho⟩ := hmeasured.mem
  rw [mem_singleton.mp ht] at ho
  cases ho

end VisionOs.Registry
