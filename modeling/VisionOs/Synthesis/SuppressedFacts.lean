/-
  What stands behind a suppressed candidate.  A signature is noted as published before the state
  is asked to take the observation, so a refused commit leaves a signature without a fact.
-/
import VisionOs.State.Durability
import VisionOs.Synthesis.Enrichment

namespace VisionOs.Synthesis

open Core Registry State Lib List ObservationBuilder SynthesisState Manager CameraSuppressionState
open UnicodeTables
open Nat
/-! ## One call of the builder -/

def Job.key : Job → SubjectKey
  | .presence obj _ => (some obj.objectId, .presence)
  | .spatial obj _ => (some obj.objectId, .spatial)
  | .lifecycle obj _ => (some obj.objectId, .lifecycle)
  | .attributes obj _ => (some obj.objectId, .attributes)

structure Job.Makes (stamp : Stamp) (c : BuildContext) (job : Job) (o : Observation) : Prop where
  id : o.observationId = stamp.observationId
  camera : o.cameraId = c.cameraId
  key : subjectKey o = job.key

inductive BuildOutcome (b : ObservationBuilder) (stamp : Stamp) (s : CameraSuppressionState)
    (c : BuildContext) (job : Job) : Raises (Option Observation) × CameraSuppressionState → Prop
  | published (o : Observation) (signature : String) (hmakes : job.Makes stamp c o)
      (hsignature : b.policy.signature b.tools o = .ok signature) :
      BuildOutcome b stamp s c job
        (.ok (some o), s.record b.suppressionCapacity job.key signature o)
  | suppressed (o : Observation) (last : PublishedSignature) (hmakes : job.Makes stamp c o)
      (hlast : s.last job.key = some last)
      (hsame : b.policy.signature b.tools o = .ok last.signature)
      (htype : job.key.2 ∉ alwaysPublish) :
      BuildOutcome b stamp s c job (.ok none, { s with suppressed := s.suppressed ++ [o] })
  | refused (message : Message) :
      BuildOutcome b stamp s c job (.error (.validationFailedError message), s)

variable {obj : VisualObject}

variable {b : ObservationBuilder} {stamp : Stamp} {c : BuildContext} {content : Content}

variable {kind : ObservationType}

theorem envelope_eq_ok
    (h : (b.envelopeFields stamp kind obj c content).PayloadPresent) :
    ∃ candidate, b.envelope stamp kind obj c content = .ok candidate ∧
      candidate.toObservationFields = b.envelopeFields stamp kind obj c content := by
  have haccepted : (b.envelopeFields stamp kind obj c content).postInit = .ok () :=
    ObservationFields.postInit_eq_ok.mpr
      ⟨stamp.observationId_ne_empty, require_eq_ok.mp c.accepted,
        uncertainty_nonneg c, h, by simp [envelopeFields],
        by simp [envelopeFields]⟩
  unfold envelope Observation.construct
  rw [constructWith_eq_ok haccepted]
  exact ⟨_, rfl, rfl⟩

variable {job : Job}

/-- What becomes of an envelope that the builder is to publish. -/
theorem publish_outcome {s : CameraSuppressionState}
    (hkey : job.key = (some obj.objectId, kind)) (hkind : kind ≠ .attributes)
    (hattributes : content.attributes = [])
    (h : (b.envelopeFields stamp kind obj c content).PayloadPresent) :
    BuildOutcome b stamp s c job (b.publish s (b.envelope stamp kind obj c content)) := by
  obtain ⟨candidate, henvelope, hfields⟩ := envelope_eq_ok h
  have hmakes : job.Makes stamp c candidate.toObservation := by
    refine ⟨?_, ?_, ?_⟩
    · rw [hfields]
      rfl
    · rw [hfields]
      rfl
    · unfold subjectKey
      rw [hfields, hkey]
      rfl
  have hnone : candidate.attributes = [] := by
    rw [hfields]
    exact hattributes
  have htype : candidate.observationType ≠ .attributes := by
    rw [hfields]
    exact hkind
  rw [henvelope]
  show BuildOutcome b stamp s c job (b.finish s candidate)
  rcases finish_plain hnone htype with ⟨message, hrefused⟩ |
    ⟨signature, hsignature, publish, s', hadmission, hfinish⟩
  · rw [hrefused]
    exact .refused message
  rw [hfinish]
  cases hadmission with
  | noted =>
    rw [hmakes.key]
    exact .published _ signature hmakes hsignature
  | held last hallowed hlast hsame hearly =>
    rw [hmakes.key] at hlast
    refine .suppressed _ last hmakes hlast (hsame ▸ hsignature) ?_
    rw [← hmakes.key]
    exact hallowed

theorem build_outcome {b : ObservationBuilder} {stamp : Stamp} {s : CameraSuppressionState}
    {c : BuildContext} {job : Job} (h : job.key.2 ≠ .attributes) :
    BuildOutcome b stamp s c job (b.build stamp s c job) := by
  cases job with
  | presence obj basis =>
    refine publish_outcome rfl (by decide) rfl ?_
    constructor <;> simp [envelopeFields]
  | spatial obj basis =>
    refine publish_outcome rfl (by decide) rfl ?_
    constructor <;> simp [envelopeFields]
  | lifecycle obj transition =>
    refine publish_outcome rfl (by decide) rfl ?_
    constructor <;> simp [envelopeFields]
  | attributes obj result => exact absurd rfl h

/-! ## One pass over an update -/

/-- Of two jobs about one subject and type, the earlier is of a type that is never
    suppressed. -/
def DistinctJobs (jobs : List Job) : Prop :=
  jobs.Pairwise fun job job' => job.key.2 ∉ alwaysPublish → job.key ≠ job'.key

structure Pass (b : ObservationBuilder) (stamps : Nat → Stamp) (c : BuildContext)
    (jobs : List Job) (a a' : Assembly) (new held : List Observation) : Prop where
  built : a'.built = a.built ++ new
  suppressed : a'.state.suppressed = a.state.suppressed ++ held
  minted : a.minted ≤ a'.minted
  length : new.length ≤ jobs.length
  camera : ∀ o ∈ new, o.cameraId = c.cameraId
  ids : ∀ o ∈ new, ∃ i, a.minted ≤ i ∧ i < a'.minted ∧
    o.observationId = (stamps i).observationId
  nodup : Function.Injective (fun i => (stamps i).observationId) →
    (new.map (·.observationId)).Nodup
  memory : ∀ key last, a'.state.last key = some last → a.state.last key = some last ∨
    ∃ o ∈ new, subjectKey o = key ∧ b.policy.signature b.tools o = .ok last.signature
  backed : ∀ o ∈ held, subjectKey o ∈ jobs.map Job.key ∧ (subjectKey o).2 ∉ alwaysPublish ∧
    ∃ last, a.state.last (subjectKey o) = some last ∧
      b.policy.signature b.tools o = .ok last.signature

section Steps

variable {b : ObservationBuilder} {stamps : Nat → Stamp} {c : BuildContext} {job : Job}
  {rest : List Job} {a a' : Assembly} {new held : List Observation}

variable {o : Observation}

/-- A published observation before a pass over the rest. -/
theorem Pass.published {signature : String} (hmakes : job.Makes (stamps a.minted) c o)
    (hsignature : b.policy.signature b.tools o = .ok signature)
    (hfirst : ∀ job' ∈ rest, job.key.2 ∉ alwaysPublish → job.key ≠ job'.key)
    (hpass : Pass b stamps c rest
      { state := a.state.record b.suppressionCapacity job.key signature o
        minted := a.minted + 1
        built := a.built ++ [o] } a' new held) :
    Pass b stamps c (job :: rest) a a' (o :: new) held where
  built := by
    rw [hpass.built, append_assoc]
    rfl
  suppressed := hpass.suppressed
  minted := (le_succ _).trans hpass.minted
  length := succ_le_succ hpass.length
  camera := forall_mem_cons.mpr ⟨hmakes.camera, hpass.camera⟩
  ids := by
    have hminted : a.minted + 1 ≤ a'.minted := hpass.minted
    refine forall_mem_cons.mpr ⟨⟨a.minted, le_refl _, by omega, hmakes.id⟩, ?_⟩
    intro o' ho'
    obtain ⟨i, hi, hlt, hid⟩ := hpass.ids o' ho'
    exact ⟨i, (le_succ _).trans hi, hlt, hid⟩
  nodup := by
    intro hfresh
    rw [map_cons, nodup_cons]
    refine ⟨fun hmem => ?_, hpass.nodup hfresh⟩
    -- The later ids come from later stamps.
    obtain ⟨o', ho', hsame⟩ := mem_map.mp hmem
    obtain ⟨i, hi, -, hid⟩ := hpass.ids o' ho'
    have hstamp : i = a.minted := hfresh (hid.symm.trans (hsame.trans hmakes.id))
    have hlater : a.minted + 1 ≤ i := hi
    omega
  memory := by
    intro key last hlast
    rcases hpass.memory key last hlast with hbefore | ⟨o', ho', hkey, hsame⟩
    · rcases last_of_record hbefore with ⟨hkey, hsame⟩ | hbefore
      · exact .inr ⟨o, mem_cons_self, hmakes.key.trans hkey.symm, hsame ▸ hsignature⟩
      · exact .inl hbefore
    · exact .inr ⟨o', mem_cons_of_mem _ ho', hkey, hsame⟩
  backed := by
    intro o' ho'
    obtain ⟨hmem, htype, last, hlast, hsame⟩ := hpass.backed o' ho'
    refine ⟨mem_cons_of_mem _ hmem, htype, last, ?_, hsame⟩
    rcases last_of_record hlast with ⟨hkey, -⟩ | hbefore
    · -- The note just taken is of another subject or type.
      obtain ⟨job', hjob', hkey'⟩ := mem_map.mp hmem
      refine absurd (hkey.symm.trans hkey'.symm) (hfirst job' hjob' ?_)
      rw [← hkey]
      exact htype
    · exact hbefore

theorem Pass.suppressedFirst {last : PublishedSignature}
    (hmakes : job.Makes (stamps a.minted) c o) (hlast : a.state.last job.key = some last)
    (hsame : b.policy.signature b.tools o = .ok last.signature)
    (htype : job.key.2 ∉ alwaysPublish)
    (hpass : Pass b stamps c rest
      { state := { a.state with suppressed := a.state.suppressed ++ [o] }
        minted := a.minted + 1
        built := a.built ++ [] } a' new held) :
    Pass b stamps c (job :: rest) a a' new (o :: held) where
  built := by
    rw [hpass.built, append_nil]
  suppressed := by
    rw [hpass.suppressed, append_assoc]
    rfl
  minted := (le_succ _).trans hpass.minted
  length := hpass.length.trans (le_succ _)
  camera := hpass.camera
  ids := by
    intro o' ho'
    obtain ⟨i, hi, hlt, hid⟩ := hpass.ids o' ho'
    exact ⟨i, (le_succ _).trans hi, hlt, hid⟩
  nodup := hpass.nodup
  memory := hpass.memory
  backed := by
    refine forall_mem_cons.mpr ⟨?_, ?_⟩
    · rw [hmakes.key]
      exact ⟨mem_cons_self, htype, last, hlast, hsame⟩
    · intro o' ho'
      obtain ⟨hmem, hheld⟩ := hpass.backed o' ho'
      exact ⟨mem_cons_of_mem _ hmem, hheld⟩

theorem Pass.refused (hpass : Pass b stamps c rest { a with minted := a.minted + 1 } a' new held) :
    Pass b stamps c (job :: rest) a a' new held where
  built := hpass.built
  suppressed := hpass.suppressed
  minted := (le_succ _).trans hpass.minted
  length := hpass.length.trans (le_succ _)
  camera := hpass.camera
  ids := by
    intro o' ho'
    obtain ⟨i, hi, hlt, hid⟩ := hpass.ids o' ho'
    exact ⟨i, (le_succ _).trans hi, hlt, hid⟩
  nodup := hpass.nodup
  memory := hpass.memory
  backed := by
    intro o' ho'
    obtain ⟨hmem, hheld⟩ := hpass.backed o' ho'
    exact ⟨mem_cons_of_mem _ hmem, hheld⟩

end Steps

theorem assemble_pass (b : ObservationBuilder) (stamps : Nat → Stamp) (c : BuildContext)
    {jobs : List Job} (htypes : ∀ job ∈ jobs, job.key.2 ≠ .attributes)
    (hdistinct : DistinctJobs jobs) (a : Assembly) :
    ∃ a' new held, b.assemble stamps (jobs.map fun job => .ok (c, job)) a = (a', none) ∧
      Pass b stamps c jobs a a' new held := by
  induction jobs generalizing a with
  | nil =>
    exact ⟨a, [], [], rfl, by simp, by simp, le_refl _, by simp, by simp, by simp, by simp,
      fun _ _ h => .inl h, by simp⟩
  | cons job rest ih =>
    obtain ⟨hfirst, hrest⟩ := pairwise_cons.mp hdistinct
    have htypes' : ∀ job' ∈ rest, job'.key.2 ≠ .attributes :=
      fun job' h => htypes job' (mem_cons_of_mem _ h)
    have hout := @build_outcome b (stamps a.minted) a.state c job
      (htypes job mem_cons_self)
    rw [map_cons]
    unfold assemble
    generalize b.build (stamps a.minted) a.state c job = out at hout ⊢
    cases hout with
    | published o signature hmakes hsignature =>
      obtain ⟨a', new, held, hloop, hpass⟩ := ih htypes' hrest
        { state := a.state.record b.suppressionCapacity job.key signature o
          minted := a.minted + 1
          built := a.built ++ [o] }
      exact ⟨a', o :: new, held, hloop, hpass.published hmakes hsignature hfirst⟩
    | suppressed o last hmakes hlast hsame htype =>
      obtain ⟨a', new, held, hloop, hpass⟩ := ih htypes' hrest
        { state := { a.state with suppressed := a.state.suppressed ++ [o] }
          minted := a.minted + 1
          built := a.built ++ [] }
      exact ⟨a', new, o :: held, hloop, hpass.suppressedFirst hmakes hlast hsame htype⟩
    | refused message =>
      obtain ⟨a', new, held, hloop, hpass⟩ := ih htypes' hrest { a with minted := a.minted + 1 }
      exact ⟨a', new, held, hloop, hpass.refused⟩

theorem key_of_mem_objectJobs (h : job ∈ objectJobs obj) :
    job.key = (some obj.objectId, .presence) ∨ job.key = (some obj.objectId, .spatial) := by
  rcases mem_pair.mp h with rfl | rfl
  · exact .inl rfl
  · exact .inr rfl

theorem key_of_changeJob {objects : List VisualObject}
    {change : ObjectId × LifecycleState × LifecycleState}
    (h : changeJob objects change = some job) : job.key.2 = .lifecycle := by
  obtain ⟨objectId, previous, current⟩ := change
  simp only [changeJob] at h
  split at h
  · cases h
  · split at h
    · cases h
    · cases h
      rfl

theorem registryJobs_types (u : RegistryUpdate) :
    ∀ job ∈ registryJobs u, job.key.2 ≠ .attributes := by
  intro job hjob
  rcases mem_append.mp hjob with hobject | hchange
  · obtain ⟨obj, -, hobject⟩ := mem_flatMap.mp hobject
    rcases key_of_mem_objectJobs hobject with hkey | hkey <;> simp [hkey]
  · obtain ⟨change, -, hmade⟩ := mem_filterMap.mp hchange
    simp [key_of_changeJob hmade]

theorem registryJobs_distinct {u : RegistryUpdate}
    (h : (u.objects.map (·.objectId)).Nodup) : DistinctJobs (registryJobs u) := by
  have hchange : ∀ job ∈ u.lifecycleChanges.filterMap (changeJob u.objects),
      job.key.2 = .lifecycle := by
    intro job hjob
    obtain ⟨change, -, hmade⟩ := mem_filterMap.mp hjob
    exact key_of_changeJob hmade
  unfold DistinctJobs registryJobs
  rw [pairwise_append, pairwise_flatMap]
  refine ⟨⟨fun obj _ => ?_, ?_⟩, ?_, ?_⟩
  · simp [objectJobs, Job.key]
  · refine (pairwise_map.mp h).imp ?_
    intro obj obj' hne job hjob job' hjob' _
    rcases key_of_mem_objectJobs hjob with hkey | hkey <;>
      rcases key_of_mem_objectJobs hjob' with hkey' | hkey' <;> simp [hkey, hkey', hne]
  · -- A lifecycle observation is never suppressed.
    refine pairwise_of_forall_mem_list fun job hjob job' _ htype => ?_
    exact absurd (by rw [hchange job hjob]; decide) htype
  · intro job hjob job' hjob' _ hsame
    obtain ⟨obj, -, hobject⟩ := mem_flatMap.mp hjob
    have htype := hchange job' hjob'
    rw [← hsame] at htype
    rcases key_of_mem_objectJobs hobject with hkey | hkey <;> simp [hkey] at htype

/-! ## The state edge -/

def onRecord (cell : Cell) : List Observation := cell.log.records ++ cell.buffer.pending

variable {cameraId : CameraId} {observations : List Observation}

theorem onRecord_appendPartition (config : StateSection) (at_ : Circumstance) {cell : Cell}
    (hinv : CellInv cameraId cell) (hcamera : ∀ o ∈ observations, o.cameraId = cameraId)
    (hopen : (cell.partitionOf cameraId).isDegraded = false) (hroom : at_.fault = none ∨
      cell.buffer.pending.length + observations.length ≤ config.logBufferCapacity)
    (hnew : ((onRecord cell ++ observations).map (·.observationId)).Nodup) :
    onRecord (cell.appendPartition config at_ cameraId observations).2 =
      onRecord cell ++ observations := by
  have hlog : (cell.log.append (cell.buffer.pending ++ observations)).1.records =
      onRecord cell ++ observations := by
    unfold onRecord at hnew ⊢
    rw [append_assoc, map_append] at hnew
    obtain ⟨-, hpending, hdisjoint⟩ := nodup_append.mp hnew
    rw [LogPartition.append_records, append_assoc]
    refine congrArg _ (Dedup.fresh_eq_self hpending fun o ho hid => ?_)
    exact hdisjoint _ ((cell.log.mem_ids _).mp hid) _ (mem_map_of_mem ho) rfl
  have hout := appendPartition_outcome config at_ hinv hcamera
  generalize cell.appendPartition config at_ cameraId observations = out at hout ⊢
  cases hout with
  | refused message hdegraded =>
    rw [hopen] at hdegraded
    cases hdegraded
  | buffered message since _ hfault hfits =>
    show cell.log.records ++ (cell.buffer.pending ++ observations) = _
    rw [← append_assoc]
    rfl
  | halted _ hfault hfull =>
    rw [length_append] at hfull
    rcases hroom with hnone | hroom
    · rw [hnone] at hfault
      cases hfault
    · omega
  | raised message seen _ hfault hno hseen =>
    show (cell.log.append (cell.buffer.pending ++ observations)).1.records ++ [] = _
    rw [append_nil, hlog]
  | committed _ hfault hok =>
    show (cell.log.append (cell.buffer.pending ++ observations)).1.records ++ [] = _
    rw [append_nil, hlog]

theorem cells_append_of_camera (config : StateSection) (at_ : Manager.Circumstances)
    (hcamera : ∀ o ∈ observations, o.cameraId = cameraId) (hne : observations ≠ []) (m : Manager) :
    m.append config at_ observations = m.appendPartition config at_ cameraId observations := by
  cases observations with
  | nil => exact absurd rfl hne
  | cons o rest =>
    unfold append
    have ho := hcamera o mem_cons_self
    have hall : rest.all (fun o' => o'.cameraId = o.cameraId) = true := by
      rw [all_eq_true]
      intro o' ho'
      rw [decide_eq_true_eq, hcamera o' (mem_cons_of_mem _ ho'), ho]
    dsimp only
    rw [if_pos hall, ho]

theorem onRecord_append (config : StateSection) (at_ : Manager.Circumstances) {m : Manager}
    (hinv : ManagerInv m)
    (hcamera : ∀ o ∈ observations, o.cameraId = cameraId)
    (htaken : observations = [] ∨
      ((m.cells cameraId).partitionOf cameraId).isDegraded = false ∧
      ((at_ cameraId).fault = none ∨
        (m.cells cameraId).buffer.pending.length + observations.length ≤
          config.logBufferCapacity))
    (hnew : ((onRecord (m.cells cameraId) ++ observations).map (·.observationId)).Nodup)
    (c : CameraId) :
    onRecord ((m.append config at_ observations).2.cells c) =
      if c = cameraId then onRecord (m.cells c) ++ observations else onRecord (m.cells c) := by
  by_cases hne : observations = []
  · subst hne
    show onRecord (m.cells c) = _
    rw [append_nil, ite_self]
  obtain ⟨hopen, hroom⟩ := htaken.resolve_left hne
  rw [cells_append_of_camera config at_ hcamera hne]
  split
  · rename_i hc
    subst hc
    rw [appendPartition_cells]
    exact onRecord_appendPartition config (at_ c) (hinv c) hcamera hopen hroom hnew
  · rename_i hc
    exact congrArg onRecord (put_cells_of_ne m _ hc)

theorem onRecord_resume (m : Manager) (cameraId c : CameraId) :
    onRecord ((m.resume cameraId).cells c) = onRecord (m.cells c) := by
  by_cases hc : c = cameraId
  · subst hc
    unfold resume
    rw [put_cells_self]
    rfl
  · exact congrArg onRecord (put_cells_of_ne m _ hc)

/-! ## Runs -/

/-- What happens to a runtime over a state: a registry update arrives, under whatever the
    log does meanwhile, or an operator resumes a camera. -/
inductive RuntimeCall where
  | registered (at_ : Manager.Circumstances) (now : Instant) (u : RegistryUpdate)
  | resume (cameraId : CameraId)

section Runs

variable (config : StateSection) (rt : SynthesisRuntime) (stamps : Nat → Stamp)

def SynthesisState.step (st : SynthesisState) : RuntimeCall → SynthesisState
  | .registered at_ now u => st.onRegistered config rt stamps at_ now u
  | .resume cameraId => { st with manager := st.manager.resume cameraId }

/-- Every candidate that a call suppresses is matched, when it is suppressed, by an
    observation in the log or in the buffer with its subject, type and signature. -/
def HidesNothing (st : SynthesisState) (call : RuntimeCall) : Prop :=
  ∀ cameraId, ∃ held,
    ((st.step config rt stamps call).suppression cameraId).suppressed =
      (st.suppression cameraId).suppressed ++ held ∧
    ∀ o ∈ held, ∃ fact ∈ onRecord (st.manager.cells cameraId),
      subjectKey fact = subjectKey o ∧
      rt.builder.policy.signature rt.builder.tools fact =
        rt.builder.policy.signature rt.builder.tools o

/-- A registry update lists no object twice, and the state takes what it has to say: it says
    nothing, or the partition is open and either the log answers or the buffer has room. -/
def Takes (st : SynthesisState) : RuntimeCall → Prop
  | .registered at_ _ u =>
    (u.objects.map (·.objectId)).Nodup ∧
      (registryJobs u = [] ∨
        ((st.manager.cells u.cameraId).partitionOf u.cameraId).isDegraded = false ∧
        ((at_ u.cameraId).fault = none ∨
          (st.manager.cells u.cameraId).buffer.pending.length + (registryJobs u).length ≤
            config.logBufferCapacity))
  | .resume _ => True

/-- Every signature that is remembered has its observation in the log or in the buffer, and
    what is recorded has ids of its own that were minted. -/
structure Backed (st : SynthesisState) : Prop where
  manager : ManagerInv st.manager
  remembered : ∀ cameraId key last, (st.suppression cameraId).last key = some last →
    ∃ fact ∈ onRecord (st.manager.cells cameraId), subjectKey fact = key ∧
      rt.builder.policy.signature rt.builder.tools fact = .ok last.signature
  nodup : ∀ cameraId,
    ((onRecord (st.manager.cells cameraId)).map (·.observationId)).Nodup
  minted : ∀ cameraId, ∀ o ∈ onRecord (st.manager.cells cameraId),
    ∃ i < st.minted, o.observationId = (stamps i).observationId

variable {config rt stamps}

theorem backed_new : Backed rt stamps {} where
  manager := managerInv_new
  remembered := fun cameraId key last h => (by cases h)
  nodup := fun cameraId => nodup_nil
  minted := fun cameraId o ho => (by cases ho)

theorem onRegistered_pass (at_ : Manager.Circumstances) (now : Instant) {u : RegistryUpdate}
    (hnodup : (u.objects.map (·.objectId)).Nodup) (st : SynthesisState) :
    st.onRegistered config rt stamps at_ now u = st ∨
    ∃ c a new held, c.cameraId = u.cameraId ∧
      Pass rt.builder stamps c (registryJobs u) (st.assembly u.cameraId) a new held ∧
      st.onRegistered config rt stamps at_ now u =
        { suppression := fun cameraId =>
            if cameraId = u.cameraId then a.state else st.suppression cameraId
          minted := a.minted
          manager := (st.manager.append config at_ new).2 } := by
  unfold onRegistered
  split
  · exact .inl rfl
  unfold SynthesisRuntime.buildFromRegistry
  split
  · -- The frame is of another camera: nothing was asked of the builder.
    left
    have hsame : (fun cameraId => if cameraId = u.cameraId then
        (st.assembly u.cameraId).state else st.suppression cameraId) = st.suppression := by
      funext cameraId
      split
      · rename_i hcamera
        rw [hcamera]
        rfl
      · rfl
    show ({ suppression := _, minted := _, manager := _ } : SynthesisState) = st
    rw [hsame]
    rfl
  · rename_i c hcontext
    right
    obtain ⟨haccepted, hfields⟩ := constructWith_eq_ok_iff.mp hcontext
    obtain ⟨a, new, held, hloop, hpass⟩ := assemble_pass rt.builder stamps c
      (registryJobs_types u) (registryJobs_distinct hnodup) (st.assembly u.cameraId)
    refine ⟨c, a, new, held, ?_, hpass, ?_⟩
    · rw [← hfields]
    · rw [hloop]
      show ({ suppression := _, minted := _, manager := _ } : SynthesisState) = _
      rw [hpass.built]
      rfl

variable {st : SynthesisState} {call : RuntimeCall}

theorem hidesNothing_of_quiet
    (h : (st.step config rt stamps call).suppression = st.suppression) :
    HidesNothing config rt stamps st call := by
  intro cameraId
  refine ⟨[], ?_, fun o ho => (by cases ho)⟩
  rw [h, append_nil]

variable {cameraId : CameraId} {c : BuildContext} {jobs : List Job} {a : Assembly}

theorem nodup_onRecord_append (hfresh : Function.Injective fun i => (stamps i).observationId)
    (hbacked : Backed rt stamps st) {new held : List Observation}
    (hpass : Pass rt.builder stamps c jobs (st.assembly cameraId) a new held) :
    ((onRecord (st.manager.cells cameraId) ++ new).map (·.observationId)).Nodup := by
  rw [map_append, nodup_append]
  refine ⟨hbacked.nodup cameraId, hpass.nodup hfresh, ?_⟩
  intro id hid id' hid' hsame
  obtain ⟨o, ho, rfl⟩ := mem_map.mp hid
  obtain ⟨o', ho', rfl⟩ := mem_map.mp hid'
  obtain ⟨i, hi, hstamp⟩ := hbacked.minted cameraId o ho
  obtain ⟨i', hi', -, hstamp'⟩ := hpass.ids o' ho'
  have hii : i = i' := hfresh (hstamp.symm.trans (hsame.trans hstamp'))
  have hminted : st.minted ≤ i' := hi'
  omega

theorem Backed.pass (hfresh : Function.Injective fun i => (stamps i).observationId)
    {st' : SynthesisState} (hbacked : Backed rt stamps st) {new held : List Observation}
    (hpass : Pass rt.builder stamps c jobs (st.assembly cameraId) a new held)
    (hinv : ManagerInv st'.manager)
    (hsuppression : st'.suppression = fun cameraId' =>
      if cameraId' = cameraId then a.state else st.suppression cameraId')
    (hminted : st'.minted = a.minted)
    (hrecorded : ∀ cameraId', onRecord (st'.manager.cells cameraId') =
      if cameraId' = cameraId then onRecord (st.manager.cells cameraId') ++ new
      else onRecord (st.manager.cells cameraId')) : Backed rt stamps st' where
  manager := hinv
  remembered := by
    intro cameraId' key last hlast
    rw [hsuppression] at hlast
    rw [hrecorded cameraId']
    by_cases hc : cameraId' = cameraId
    · subst hc
      rw [if_pos rfl]
      simp only [if_true] at hlast
      rcases hpass.memory key last hlast with hbefore | ⟨o, ho, hkey, hsame⟩
      · obtain ⟨fact, hfact, hmatches⟩ := hbacked.remembered cameraId' key last hbefore
        exact ⟨fact, mem_append_left _ hfact, hmatches⟩
      · exact ⟨o, mem_append_right _ ho, hkey, hsame⟩
    · rw [if_neg hc]
      simp only [hc, if_false] at hlast
      exact hbacked.remembered cameraId' key last hlast
  nodup := by
    intro cameraId'
    rw [hrecorded cameraId']
    by_cases hc : cameraId' = cameraId
    · subst hc
      rw [if_pos rfl]
      exact nodup_onRecord_append hfresh hbacked hpass
    · rw [if_neg hc]
      exact hbacked.nodup cameraId'
  minted := by
    intro cameraId' o ho
    rw [hrecorded cameraId'] at ho
    rw [hminted]
    have hgrows : st.minted ≤ a.minted := hpass.minted
    have hbefore : ∀ o ∈ onRecord (st.manager.cells cameraId'),
        ∃ i < a.minted, o.observationId = (stamps i).observationId := by
      intro o ho
      obtain ⟨i, hi, hid⟩ := hbacked.minted cameraId' o ho
      exact ⟨i, by omega, hid⟩
    split at ho
    · rcases mem_append.mp ho with ho | ho
      · exact hbefore o ho
      · obtain ⟨i, -, hi, hid⟩ := hpass.ids o ho
        exact ⟨i, hi, hid⟩
    · exact hbefore o ho

/-- A call that the state takes hides nothing, and leaves every signature backed. -/
theorem Backed.step (hfresh : Function.Injective fun i => (stamps i).observationId)
    (hbacked : Backed rt stamps st)
    (htakes : Takes config st call) :
    Backed rt stamps (st.step config rt stamps call) ∧ HidesNothing config rt stamps st call := by
  cases call with
  | resume cameraId =>
    refine ⟨⟨hbacked.manager.put (hbacked.manager cameraId).resume, ?_, ?_, ?_⟩,
      hidesNothing_of_quiet rfl⟩
    all_goals
      intro c
      unfold SynthesisState.step
      simp only [onRecord_resume]
    · exact hbacked.remembered c
    · exact hbacked.nodup c
    · exact hbacked.minted c
  | registered at_ now u =>
    obtain ⟨hnodup, htaken⟩ := htakes
    rcases @onRegistered_pass config rt stamps at_ now u hnodup st with
      hsame | ⟨c, a, new, held, hc, hpass, hstep⟩
    · have hstep : st.step config rt stamps (.registered at_ now u) = st := hsame
      refine ⟨by rw [hstep]; exact hbacked, hidesNothing_of_quiet ?_⟩
      rw [hstep]
    have hcamera : ∀ o ∈ new, o.cameraId = u.cameraId :=
      fun o ho => (hpass.camera o ho).trans hc
    have hlength := hpass.length
    have hnew := nodup_onRecord_append hfresh hbacked hpass
    -- what the state takes is recorded whole: the cell answers, or its buffer has room
    have hroom : new = [] ∨
        ((st.manager.cells u.cameraId).partitionOf u.cameraId).isDegraded = false ∧
        ((at_ u.cameraId).fault = none ∨
          (st.manager.cells u.cameraId).buffer.pending.length + new.length ≤
            config.logBufferCapacity) := by
      rcases htaken with hnothing | ⟨hopen, hanswers | hfits⟩
      · left
        rw [hnothing] at hlength
        exact length_eq_zero_iff.mp (le_zero.mp hlength)
      · exact .inr ⟨hopen, .inl hanswers⟩
      · exact .inr ⟨hopen, .inr (by omega)⟩
    have hrecorded := onRecord_append config at_ hbacked.manager hcamera hroom hnew
    have hstate : st.step config rt stamps (.registered at_ now u) = _ := hstep
    refine ⟨?_, ?_⟩
    · rw [hstate]
      exact hbacked.pass hfresh hpass (hbacked.manager.append config at_ new) rfl rfl hrecorded
    · intro cameraId
      rw [hstate]
      by_cases hcam : cameraId = u.cameraId
      · subst hcam
        refine ⟨held, ?_, fun o ho => ?_⟩
        · show (if u.cameraId = u.cameraId then a.state else _).suppressed = _
          rw [if_pos rfl]
          exact hpass.suppressed
        · obtain ⟨-, -, last, hlast, hsignature⟩ := hpass.backed o ho
          obtain ⟨fact, hfact, hkey, hsame⟩ := hbacked.remembered u.cameraId _ last hlast
          exact ⟨fact, hfact, hkey, hsame.trans hsignature.symm⟩
      · refine ⟨[], ?_, fun o ho => (by cases ho)⟩
        show (if cameraId = u.cameraId then a.state else _).suppressed = _
        rw [if_neg hcam, append_nil]

/-- In every run whose updates the state takes, suppression never hides a fact that was not
    recorded. -/
theorem suppression_hides_nothing (config : StateSection) (rt : SynthesisRuntime)
    (stamps : Nat → Stamp) (hfresh : Function.Injective fun i => (stamps i).observationId)
    (calls : List RuntimeCall)
    (htakes : Runs.Always (step config rt stamps) (Takes config) {} calls) :
    Runs.Always (step config rt stamps) (HidesNothing config rt stamps) {} calls :=
  @Runs.always_mono_of_kept _ _ _ (Backed rt stamps) _ _
    (fun _ _ hbacked h => (hbacked.step hfresh h).1) (fun _ _ hbacked h => (hbacked.step hfresh h).2)
    _ backed_new _ htakes

end Runs

/-! ### A person who stands still -/

theorem unplaced_accepted :
    SpatialFields.postInit { frameOfReference := .normalized } = .ok () := rfl

def seenPerson : VisualObject where
  objectId := "person"
  tenantId := "tenant"
  siteId := "site"
  cameraId := "north"
  classId := "person"
  confidence := Confidence.defaultIdentity
  lifecycle := .active
  classHistory := []
  trackBindings := []
  currentSpatial := { frameOfReference := .normalized, accepted := unplaced_accepted }
  spatialHistory := []
  attributes := ∅
  firstSeen := ⟨0⟩
  lastSeen := ⟨7⟩
  lastConfirmed := ⟨7⟩
  observationCount := 4
  provenance := plainProvenance
  accepted := VisualObjectFields.postInit_eq_ok.mpr
    ⟨rfl, by simp, by simp, by decide, by decide, by decide⟩

/-- The registry sees the person, and nothing changes. -/
def seenUpdate : RegistryUpdate where
  cameraId := "north"
  frameRef := ⟨{ cameraId := "north", streamEpoch := 3, frameSeq := 41 }, northFrame_accepted⟩
  objects := [seenPerson]

/-- A runtime that hashes what it says of that person. -/
def sightingRuntime : SynthesisRuntime where
  builder := { postureRuntime.builder with
    tools := { postureRuntime.builder.tools with
      sha256 := fun text =>
        if text = "presencepersonpersonactivemeasured" then
          "ce40078b410b4900ce5780c691aad25b8c7f98b41d1d71d18c0974c4e512ecf9"
        else "9166c79f138959dd8f2ceb03d3735eebed7dba0041cee1dcd1689bd57c9493d3" } }

/-- The same update twice, the log answering or not the first time. -/
def seenTwice (first : Manager.Circumstances) : List RuntimeCall :=
  [.registered first ⟨7⟩ seenUpdate, .registered (fun _ => {}) ⟨8⟩ seenUpdate]

theorem plainStamps_injective : Function.Injective fun i => (plainStamps i).observationId := by
  intro i j hsame
  have htext : toString i = toString j := (String.append_right_inj "stamp").mp hsame
  have hread := congrArg ascii.readInt htext
  rw [readInt_toString, readInt_toString] at hread
  exact Int.ofNat.inj (Option.some.inj hread)

/-- Over a log that answers, the second sighting is suppressed behind the first. -/
theorem still_person_hides_nothing :
    Runs.Always (step tight sightingRuntime plainStamps)
      (HidesNothing tight sightingRuntime plainStamps) {} (seenTwice fun _ => {}) := by
  refine suppression_hides_nothing tight sightingRuntime plainStamps plainStamps_injective _ ?_
  refine ⟨⟨?_, .inr ⟨?_, .inl rfl⟩⟩, ⟨?_, .inr ⟨?_, .inl rfl⟩⟩, trivial⟩
  all_goals decide +kernel

/-- While the log is down the first sighting halts the partition and is lost; the second is
    suppressed as already published. -/
theorem halted_sighting_hides :
    ¬ Runs.Always (step tight sightingRuntime plainStamps)
      (HidesNothing tight sightingRuntime plainStamps) {} (seenTwice northDown) := by
  rintro ⟨-, hsecond, -⟩
  obtain ⟨held, hsuppressed, hbacked⟩ := hsecond "north"
  have hbefore : ((step tight sightingRuntime plainStamps {}
      (.registered northDown ⟨7⟩ seenUpdate)).suppression "north").suppressed.length = 0 := by
    decide +kernel
  have hafter : ((step tight sightingRuntime plainStamps
      (step tight sightingRuntime plainStamps {}
        (.registered northDown ⟨7⟩ seenUpdate))
      (.registered (fun _ => {}) ⟨8⟩ seenUpdate)).suppression "north").suppressed.length = 2 := by
    decide +kernel
  have hrecorded : (onRecord ((step tight sightingRuntime plainStamps {}
      (.registered northDown ⟨7⟩ seenUpdate)).manager.cells "north")).length = 0 := by
    decide +kernel
  rw [hsuppressed, length_append, hbefore, zero_add] at hafter
  obtain ⟨o, rest, hheld⟩ := exists_cons_of_length_pos (by omega : 0 < held.length)
  obtain ⟨fact, hfact, -⟩ := hbacked o (hheld ▸ mem_cons_self)
  rw [length_eq_zero_iff.mp hrecorded] at hfact
  cases hfact

end VisionOs.Synthesis
