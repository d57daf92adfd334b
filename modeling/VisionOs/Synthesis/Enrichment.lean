/-
  What an understanding result does to an object that the state holds: the subject is
  reconstructed as an active placeholder, and the projection takes its lifecycle over.
-/
import VisionOs.State.Staleness
import VisionOs.Synthesis.Runtime

namespace VisionOs.Synthesis

open Core Registry State Understanding Lib List ObservationBuilder StateSection

variable {stamps : Nat → Stamp} {o : Observation}

theorem mem_built_assemble {b : ObservationBuilder}
    {jobs : List (Raises (BuildContext × Job))} {a : Assembly}
    (h : o ∈ (b.assemble stamps jobs a).1.built) :
    o ∈ a.built ∨ ∃ c job stamp s s', .ok (c, job) ∈ jobs ∧
      b.build stamp s c job = (.ok (some o), s') := by
  induction jobs generalizing a with
  | nil => exact .inl h
  | cons job rest ih =>
    have hlater : ∀ {a' : Assembly}, o ∈ (b.assemble stamps rest a').1.built →
        o ∈ a'.built ∨ ∃ c job' stamp s s', .ok (c, job') ∈ job :: rest ∧
          b.build stamp s c job' = (.ok (some o), s') := by
      intro a' h'
      rcases ih h' with hbefore | ⟨c, job', stamp, s, s', hmem, hbuild⟩
      · exact .inl hbefore
      · exact .inr ⟨c, job', stamp, s, s', mem_cons_of_mem _ hmem, hbuild⟩
    cases job with
    | error exc => exact .inl h
    | ok call =>
      obtain ⟨c, job⟩ := call
      unfold assemble at h
      split at h
      · rename_i published s' hbuild
        rcases hlater h with hbefore | hjob
        · rcases mem_append.mp hbefore with hbefore | hpublished
          · exact .inl hbefore
          · -- This job built it.
            rw [Option.mem_toList] at hpublished
            rw [hpublished] at hbuild
            exact .inr ⟨c, job, _, _, s', mem_cons_self, hbuild⟩
        · exact .inr hjob
      · exact @hlater { a with state := _, minted := a.minted + 1 } h
      · exact .inl h

structure SaysActive (o : Observation) : Prop where
  type : o.observationType = .attributes
  lifecycle : o.lifecycleState = some .active
  object : o.objectId ≠ none

theorem saysActive_of_built {rt : SynthesisRuntime} {cameraId : CameraId}
    {results : List AnsweredResult} {s : CameraSuppressionState} {minted : Nat}
    (h : o ∈ (rt.buildFromUnderstanding stamps cameraId results
      { state := s, minted }).1.built) : SaysActive o := by
  rcases mem_built_assemble h with hbefore | ⟨c, job, stamp, s, s', hjob, hbuild⟩
  · cases hbefore
  obtain ⟨r, -, hr⟩ := mem_filterMap.mp hjob
  obtain ⟨obj, hobj, hcall⟩ := Option.map_eq_some_iff.mp hr
  obtain ⟨c', -, hpair⟩ := bind_eq_ok.mp hcall
  cases hpair
  have hactive : obj.lifecycle = .active := by
    obtain ⟨objectId, -, rfl⟩ := Option.map_eq_some_iff.mp hobj
    rfl
  simp only [ObservationBuilder.build, ObservationBuilder.buildAttribute] at hbuild
  split at hbuild
  · cases hbuild
  · obtain ⟨kept, hfields⟩ := publish_published hbuild
    have htype := congrArg (·.observationType) hfields
    have hlifecycle := congrArg (·.lifecycleState) hfields
    have hobject := congrArg (·.objectId) hfields
    exact ⟨htype, hlifecycle.trans (congrArg some hactive), fun hnone => by simp_all [envelopeFields]⟩

/-! ## What it leaves of an object -/

/-- Nothing but the attributes has changed. -/
structure OnlyEnriched (s s' : ObjectState) : Prop where
  lifecycle : s'.lifecycle = s.lifecycle
  spatial : s'.spatial = s.spatial
  measurementBasis : s'.measurementBasis = s.measurementBasis
  trajectory : s'.trajectory = s.trajectory
  regions : s'.regions = s.regions
  identity : s'.identity = s.identity

/-- Projecting an observation leaves the lifecycle, the spatial state and the identity
    summary of an object as they were. -/
def Enriches (bounds : ProjectionBounds) (p : CameraPartition) (o : Observation)
    (position : Int) (objectId : ObjectId) (s : ObjectState) : Prop :=
  ∃ s', (afterProjecting bounds p o position).objects.get? objectId = some s' ∧ OnlyEnriched s s'

theorem onlyEnriched_applyClass (base previous : ObjectState) (o : Observation)
    (bounds : ProjectionBounds) : OnlyEnriched base (applyClass base previous o bounds) := by
  unfold applyClass
  split
  · exact ⟨rfl, rfl, rfl, rfl, rfl, rfl⟩
  · split
    · exact ⟨rfl, rfl, rfl, rfl, rfl, rfl⟩
    · split
      · split <;> exact ⟨rfl, rfl, rfl, rfl, rfl, rfl⟩
      · exact ⟨rfl, rfl, rfl, rfl, rfl, rfl⟩

theorem onlyEnriched_applyKnown_iff {s : ObjectState} (bounds : ProjectionBounds)
    (h : SaysActive o) : OnlyEnriched s (applyKnown s o bounds) ↔ s.lifecycle = .active := by
  have hlifecycle : (applyKnown s o bounds).lifecycle = .active := by
    obtain ⟨-, -, hlifecycle, -⟩ := applyKnown_shown s o bounds
    rw [hlifecycle, if_neg (by rw [h.type]; decide), h.lifecycle]
    rfl
  have hpayload : applyPayload (sighted s o) o bounds =
      applyAttributes (sighted s o) o bounds := by
    unfold applyPayload
    rw [h.type]
  have hclass := onlyEnriched_applyClass (applyAttributes (sighted s o) o bounds) s o bounds
  have hknown : applyKnown s o bounds =
      { applyClass (applyAttributes (sighted s o) o bounds) s o bounds with
        lifecycle := .active } := by
    unfold applyKnown
    rw [hpayload, h.lifecycle]
    dsimp only
    rw [if_neg (by rw [h.type]; decide)]
  constructor
  · intro honly
    rw [← honly.lifecycle, hlifecycle]
  · intro hactive
    rw [hknown]
    exact ⟨hactive.symm, hclass.spatial, hclass.measurementBasis, hclass.trajectory,
      hclass.regions, hclass.identity⟩

/-- Projecting the observation built of a result leaves the lifecycle, the spatial state and
    the identity summary of an object of its camera exactly when that object was active. -/
theorem built_enriches_iff (rt : SynthesisRuntime) (stamps : Nat → Stamp) (cameraId : CameraId)
    (results : List AnsweredResult) (st : SynthesisState) (bounds : ProjectionBounds)
    (p : CameraPartition) (position : Int) :
    ∀ o ∈ (rt.buildFromUnderstanding stamps cameraId results (st.assembly cameraId)).1.built,
      ∀ objectId s, o.objectId = some objectId → p.objects.get? objectId = some s →
        (Enriches bounds p o position objectId s ↔
          (o.cameraId = p.cameraId → s.lifecycle = .active)) := by
  intro o ho objectId s hobject hheld
  have hactive := saysActive_of_built ho
  unfold Enriches
  by_cases hcamera : o.cameraId = p.cameraId
  · obtain ⟨hafter, -⟩ := @afterProjecting_known bounds p o position _ _ hcamera hobject hheld
    rw [hafter, ← onlyEnriched_applyKnown_iff bounds hactive]
    simp [hcamera]
  · -- The projection raises: the partition stays.
    have hsame : afterProjecting bounds p o position = p := by
      unfold afterProjecting project
      rw [if_pos hcamera]
    rw [hsame]
    exact ⟨fun _ h => absurd h hcamera, fun _ => ⟨s, hheld, rfl, rfl, rfl, rfl, rfl, rfl⟩⟩

/-! ### A person standing -/

def postureSchema : AttributeSchema where
  key := "posture"
  valueType := .enum
  domain := ["standing", "sitting"]
  accepted := rfl

def postureRuntime : SynthesisRuntime where
  builder := {
    gate := {
      registry := { schemas := .ofPairs [("posture", postureSchema)] }
      tools := { readFloat := fun _ => none, showList := fun _ => "['standing', 'sitting']" } }
    policy := .exact
    tools := {
      sha256 := fun _ => "fce646731bdc662d2f2efe1f2392d2ced1018340e14ce0cb646c16737b4a052e"
      fixed := fun _ _ => "0.000"
      repr := fun _ => "'standing'"
      room := 900 }
    provenance := plainProvenance
    heartbeatMs := 30000
    suppressionCapacity := 4096
    heartbeatMs_pos := by decide
    suppressionCapacity_pos := Nat.succ_pos _ }

theorem request_ne_empty : "request" ≠ "" := by decide

theorem forty_nonneg : (PyFloat.finite 40).lt (.finite 0) = false := by decide +kernel

def standingResult : AnsweredResult where
  requestId := ⟨"request", request_ne_empty⟩
  tenantId := "tenant"
  siteId := "site"
  cameraId := "north"
  objectId := some "person"
  classId := "person"
  outcome := .succeeded
  evidence := {
    triggerReason := .firstSight
    frameRef := ⟨{ cameraId := "north", streamEpoch := 3, frameSeq := 41 }, northFrame_accepted⟩
    cropRef := some "crop" }
  attributes := [{ postureAttribute with
    value := .str "standing", observedAt := ⟨12⟩, accepted := rfl }]
  accepted := UnderstandingResultFields.postInit_eq_ok.mpr ⟨by simp, by simp, by simp; rfl⟩
  provenance := plainProvenance
  evidenceId := "evidence"
  totalMs := .finite 40
  evidenceId_ne_empty := by decide
  totalMs_nonneg := forty_nonneg

def plainStamps (n : Nat) : Stamp where
  observationId := "stamp" ++ toString n
  tPublished := ⟨13⟩
  observationId_ne_empty := by
    intro h
    have := congrArg String.length h
    simp at this

def standingObservations : List Observation :=
  (postureRuntime.buildFromUnderstanding plainStamps "north" [standingResult]
    (SynthesisState.assembly {} "north")).1.built

theorem standingObservations_spec : ∃ o ∈ standingObservations,
    o.objectId = some "person" ∧ o.cameraId = "north" := by
  have hlength : standingObservations.length = 1 := by decide +kernel
  obtain ⟨o, ho⟩ := length_eq_one_iff.mp hlength
  have hobject : standingObservations.map (·.objectId) = [some "person"] := by decide +kernel
  have hcamera : standingObservations.map (·.cameraId) = ["north"] := by decide +kernel
  rw [ho] at hobject hcamera
  exact ⟨o, ho ▸ mem_cons_self, head_eq_of_cons_eq hobject,
    head_eq_of_cons_eq hcamera⟩

/-- The state of the camera after its observations were appended. -/
def northAfter (observations : List Observation) : Option CameraPartition :=
  ((Manager.new.append defaults (fun _ => {}) observations).2.cells "north").partition

/-- Of a person the camera still sees, the answer leaves everything but the attributes. -/
theorem active_is_enriched : ∃ p s, northAfter [activePosture] = some p ∧
    p.objects.get? "person" = some s ∧
    ∃ o ∈ standingObservations, Enriches defaults.bounds p o 2 "person" s := by
  obtain ⟨o, ho, hobject, -⟩ := standingObservations_spec
  refine ⟨_, _, rfl, rfl, o, ho, ?_⟩
  exact (built_enriches_iff postureRuntime plainStamps "north" [standingResult] {}
    defaults.bounds _ 2 o ho "person" _ hobject rfl).mpr fun _ => rfl

/-- A person who left is active again once an answer about them arrives. -/
theorem departed_is_resurrected : ∃ p s, northAfter [activePosture, departure] = some p ∧
    p.objects.get? "person" = some s ∧
    ∃ o ∈ standingObservations, ¬ Enriches defaults.bounds p o 3 "person" s := by
  obtain ⟨o, ho, hobject, hcamera⟩ := standingObservations_spec
  have hleft : ∃ p s, northAfter [activePosture, departure] = some p ∧ p.cameraId = "north" ∧
      p.objects.get? "person" = some s ∧ s.lifecycle = .departed := ⟨_, _, rfl, rfl, rfl, rfl⟩
  obtain ⟨p, s, hp, hnorth, hheld, hdeparted⟩ := hleft
  refine ⟨p, s, hp, hheld, o, ho, ?_⟩
  rintro ⟨s', hs', honly⟩
  have hafter := (@afterProjecting_known defaults.bounds p o 3 _ _
    (hcamera.trans hnorth.symm) hobject hheld).1
  rw [hafter] at hs'
  cases hs'
  have hactive := (onlyEnriched_applyKnown_iff _ (saysActive_of_built ho)).mp honly
  rw [hdeparted] at hactive
  cases hactive

end VisionOs.Synthesis
