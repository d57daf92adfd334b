/-
  Understanding results held in the registry, and the same results projected as
  attribute observations.  The registry holds what arrived last under a key; the
  projection refuses what is older than what it holds.
-/
import VisionOs.Registry.Continuity
import VisionOs.State.Staleness
import VisionOs.Understanding.Model
import Mathlib.Data.Int.ConditionallyCompleteOrder

namespace VisionOs.App

open Core Registry State Understanding Lib List OrderedDict Option LastWriter

/-! ## The sink -/

/-- What happened between the understanding layer and the registry. -/
structure WriteBackAudit where
  resultsProduced : Nat := 0
  resultsFailed : Nat := 0
  attributesProduced : Nat := 0
  writebackAttempts : Nat := 0
  writebacksApplied : Nat := 0
  writebacksRejected : Nat := 0
  noObjectId : Nat := 0
  failedOutcome : Nat := 0
  rejectionKinds : OrderedDict String Nat := ∅
  rejectionSamples : List Message := []

def WriteBackAudit.applied (audit : WriteBackAudit) : WriteBackAudit :=
  { audit with
    writebackAttempts := audit.writebackAttempts + 1
    writebacksApplied := audit.writebacksApplied + 1 }

def WriteBackAudit.rejected (audit : WriteBackAudit) (exc : PyException) : WriteBackAudit :=
  let kind := exc.typeName
  { audit with
    writebackAttempts := audit.writebackAttempts + 1
    writebacksRejected := audit.writebacksRejected + 1
    rejectionKinds := audit.rejectionKinds.set kind ((audit.rejectionKinds.get? kind).getD 0 + 1)
    rejectionSamples :=
      if audit.rejectionSamples.length < 20 then
        audit.rejectionSamples ++ [[.text s!"{kind}: "] ++ exc.text]
      else audit.rejectionSamples }

/-- `RegistryWriteBackSink`, with the registry it writes to. -/
structure RegistryWriteBackSink where
  registry : ObjectRegistry
  audit : WriteBackAudit := {}

namespace RegistryWriteBackSink

variable (wiring : RegistryWiring)

def write (sink : RegistryWriteBackSink) (objectId : ObjectId) (held : Core.Attribute) :
    RegistryWriteBackSink :=
  match applyAttribute wiring objectId held sink.registry with
  | (.ok _, registry) => { registry, audit := sink.audit.applied }
  | (.error exc, registry) => { registry, audit := sink.audit.rejected exc }

/-- One turn of `_apply_one`'s loop. -/
def produce (objectId : ObjectId) (sink : RegistryWriteBackSink) (held : Core.Attribute) :
    RegistryWriteBackSink :=
  write wiring
    { sink with
      audit := { sink.audit with attributesProduced := sink.audit.attributesProduced + 1 } }
    objectId held

def applyOne (sink : RegistryWriteBackSink) (result : UnderstandingResult) :
    RegistryWriteBackSink :=
  let audit := { sink.audit with resultsProduced := sink.audit.resultsProduced + 1 }
  if result.outcome ≠ .succeeded then
    { sink with audit := { audit with
      resultsFailed := audit.resultsFailed + 1
      failedOutcome := audit.failedOutcome + 1 } }
  else
    match result.objectId with
    | none => { sink with audit := { audit with noObjectId := audit.noObjectId + 1 } }
    | some objectId => result.attributes.foldl (produce wiring objectId) { sink with audit }

def emit (sink : RegistryWriteBackSink) (results : List UnderstandingResult) :
    RegistryWriteBackSink :=
  results.foldl (applyOne wiring) sink

end RegistryWriteBackSink

abbrev HeldAttribute := PyValue × Confidence × Instant

def recordOf (s : ObjectRegistry) (objectId : ObjectId) : Option ObjectRecord :=
  (s.locate objectId).toOption.map (·.2.2)

def heldByRegistry (s : ObjectRegistry) (objectId : ObjectId) (key : AttributeKey) :
    Option HeldAttribute :=
  ((recordOf s objectId).bind (·.attributes.get? key)).map
    fun a => (a.value, a.confidence, a.observedAt)

def heldByState (p : CameraPartition) (objectId : ObjectId) (key : AttributeKey) :
    Option HeldAttribute :=
  ((p.objects.get? objectId).bind (·.attributes.get? key)).map
    fun a => (a.value, a.confidence, a.observedAt)

/-- The two stores hold the same attributes of an object. -/
def SameAttributes (s : ObjectRegistry) (p : CameraPartition) (objectId : ObjectId) : Prop :=
  ∀ key, heldByRegistry s objectId key = heldByState p objectId key

def asRegister : Option HeldAttribute → WithBot Int × Option (PyValue × Confidence)
  | none => (⊥, none)
  | some (value, confidence, observedAt) => (↑observedAt.ns, some (value, confidence))

theorem asRegister_inj {x y : Option HeldAttribute} (h : asRegister x = asRegister y) : x = y := by
  rcases x with _ | ⟨v, c, t⟩ <;> rcases y with _ | ⟨v', c', t'⟩
  · rfl
  · cases (Prod.mk.inj h).2
  · cases (Prod.mk.inj h).2
  · obtain ⟨htime, hvalue⟩ := Prod.mk.inj h
    obtain ⟨rfl, rfl⟩ := Prod.mk.inj (some.inj hvalue)
    rw [Instant.ext (WithBot.coe_injective htime)]

def writtenAt (a : Core.Attribute) : WithBot Int := ↑a.observedAt.ns

def written (a : Core.Attribute) : Option (PyValue × Confidence) := some (a.value, a.confidence)

def guarded (key : AttributeKey) :
    WithBot Int × Option (PyValue × Confidence) → Core.Attribute →
      WithBot Int × Option (PyValue × Confidence) :=
  write (fun a => a.key = key) writtenAt written

def unguarded (key : AttributeKey) :
    WithBot Int × Option (PyValue × Confidence) → Core.Attribute →
      WithBot Int × Option (PyValue × Confidence) :=
  overwrite (fun a => a.key = key) writtenAt written

/-! ## The registry's side -/

theorem locate_keep {s : ObjectRegistry} {objectId : ObjectId} {k : CameraId}
    {p : RegistryPartition} {r r' : ObjectRecord} {w : Work}
    (h : s.locate objectId = .ok (k, p, r)) (hr' : w.partition.recordFor objectId = some r') :
    (s.keep k w).locate objectId = .ok (k, w.partition, r') := by
  obtain ⟨hp, hr⟩ := locate_ok h
  have hcameras : (s.keep k w).cameras = s.cameras := by
    have hkeys : (s.partitions.set k w.partition).keys = s.partitions.keys :=
      (map_fst_setIn k w.partition s.partitions.entries).trans
        (if_pos (mem_keys_iff.mpr ⟨p, hp⟩))
    exact congrArg (List.insertionSort (· ≤ ·)) hkeys
  unfold ObjectRegistry.locate at h ⊢
  rw [hcameras]
  cases hfound : s.cameras.findSome? (fun cameraId => do
      let p ← s.partitions.get? cameraId
      let r ← p.recordFor objectId
      return (cameraId, p, r)) with
  | none =>
    simp only [hfound] at h
    cases h
  | some place =>
    simp only [hfound] at h
    obtain ⟨before, camera, after, hsplit, hcamera, hbefore⟩ :=
      findSome?_eq_some_iff.mp hfound
    -- The object was found at its own camera, and at none before it.
    have hown : camera = k := by
      obtain ⟨p', -, hcamera⟩ := bind_eq_some_iff.mp hcamera
      obtain ⟨r'', -, hcamera⟩ := bind_eq_some_iff.mp hcamera
      exact congrArg Prod.fst ((some.inj hcamera).trans (Except.ok.inj h))
    subst hown
    have hnow : (s.cameras.findSome? fun cameraId => do
        let p ← (s.keep camera w).partitions.get? cameraId
        let r ← p.recordFor objectId
        return (cameraId, p, r)) = some (camera, w.partition, r') := by
      refine findSome?_eq_some_iff.mpr ⟨before, camera, after, hsplit, ?_, fun x hx => ?_⟩
      · rw [partitions_keep, if_pos rfl]
        show (w.partition.recordFor objectId >>= _) = _
        rw [hr']
        rfl
      · have hne : camera ≠ x := by
          rintro rfl
          have hnone := hbefore camera hx
          rw [hnone] at hcamera
          cases hcamera
        rw [partitions_keep, if_neg hne]
        exact hbefore x hx
    rw [hnow]

variable {objectId : ObjectId} {a : Core.Attribute}

theorem heldByRegistry_applyAttribute {wiring : RegistryWiring} {s s' : ObjectRegistry}
    (h : applyAttribute wiring objectId a s = (.ok (), s')) (key : AttributeKey) :
    asRegister (heldByRegistry s' objectId key) =
      unguarded key (asRegister (heldByRegistry s objectId key)) a := by
  obtain ⟨k, p, r, hplace, rfl⟩ := Effect.wp_ok h applyAttribute_spec
  obtain ⟨-, hr⟩ := locate_ok hplace
  have hr' := RegistryPartition.recordFor_applyAttribute a hr
  have hnow := @locate_keep s objectId k p r _
    { s.work k p with partition := p.applyAttribute objectId a } hplace hr'
  have hbefore : recordOf s objectId = some r := by
    unfold recordOf
    rw [hplace]
    rfl
  have hafter : recordOf (s.keep k { s.work k p with
      partition := p.applyAttribute objectId a }) objectId =
      some { r with attributes := r.attributes.set a.key a } := by
    unfold recordOf
    rw [hnow]
    rfl
  unfold heldByRegistry unguarded overwrite
  rw [hafter, hbefore, bind_some, bind_some, get?_set]
  by_cases hkey : a.key = key
  · rw [if_pos hkey, if_pos hkey]
    rfl
  · rw [if_neg hkey, if_neg hkey]

namespace RegistryWriteBackSink

variable {wiring : RegistryWiring} {objectId : ObjectId}

def Overwritten (sink sink' : RegistryWriteBackSink) (objectId : ObjectId)
    (attributes : List Core.Attribute) : Prop :=
  sink.audit.writebacksRejected ≤ sink'.audit.writebacksRejected ∧
  (sink'.audit.writebacksRejected = sink.audit.writebacksRejected → ∀ key,
    asRegister (heldByRegistry sink'.registry objectId key) =
      attributes.foldl (unguarded key) (asRegister (heldByRegistry sink.registry objectId key)))

theorem Overwritten.nil (sink : RegistryWriteBackSink) : Overwritten sink sink objectId [] :=
  ⟨le_refl _, fun _ _ => rfl⟩

theorem Overwritten.append {sink mid sink' : RegistryWriteBackSink} {xs ys : List Core.Attribute}
    (hxs : Overwritten sink mid objectId xs) (hys : Overwritten mid sink' objectId ys) :
    Overwritten sink sink' objectId (xs ++ ys) := by
  refine ⟨hxs.1.trans hys.1, fun hsame key => ?_⟩
  have hmid : mid.audit.writebacksRejected = sink.audit.writebacksRejected := by
    have hfirst := hxs.1
    have hsecond := hys.1
    omega
  rw [foldl_append, hys.2 (hsame.trans hmid.symm) key, hxs.2 hmid key]

theorem produce_overwritten (sink : RegistryWriteBackSink) (a : Core.Attribute) :
    Overwritten sink (produce wiring objectId sink a) objectId [a] := by
  unfold produce write
  rcases hcall : applyAttribute wiring objectId a sink.registry with ⟨result, registry⟩
  cases result with
  | ok _ => exact ⟨le_refl _, fun _ key => heldByRegistry_applyAttribute hcall key⟩
  | error exc =>
    -- A refusal is counted.
    refine ⟨Nat.le_succ _, fun hsame => ?_⟩
    have hcount : sink.audit.writebacksRejected + 1 = sink.audit.writebacksRejected := hsame
    omega

theorem foldl_produce_overwritten (sink : RegistryWriteBackSink)
    (attributes : List Core.Attribute) :
    Overwritten sink (attributes.foldl (produce wiring objectId) sink) objectId attributes := by
  induction attributes generalizing sink with
  | nil => exact .nil sink
  | cons a rest ih => exact (produce_overwritten sink a).append (ih _)

theorem emit_overwritten (sink : RegistryWriteBackSink) {results : List UnderstandingResult}
    (h : ∀ r ∈ results, r.outcome = .succeeded ∧ r.objectId = some objectId) :
    Overwritten sink (emit wiring sink results) objectId (results.flatMap (·.attributes)) := by
  induction results generalizing sink with
  | nil => exact .nil sink
  | cons r rest ih =>
    obtain ⟨hsucceeded, hobject⟩ := h r mem_cons_self
    have hone : Overwritten sink (applyOne wiring sink r) objectId r.attributes := by
      have happly : applyOne wiring sink r = r.attributes.foldl (produce wiring objectId)
          { sink with
            audit := { sink.audit with resultsProduced := sink.audit.resultsProduced + 1 } } := by
        unfold applyOne
        rw [if_neg (not_not.mpr hsucceeded), hobject]
      rw [happly]
      exact foldl_produce_overwritten { sink with
        audit := { sink.audit with resultsProduced := sink.audit.resultsProduced + 1 } }
        r.attributes
    rw [flatMap_cons]
    exact hone.append (ih (applyOne wiring sink r) fun r' hr' => h r' (mem_cons_of_mem _ hr'))

end RegistryWriteBackSink

/-! ## The projection's side -/

theorem foldAttribute_guarded (o : Observation) (bounds : ProjectionBounds)
    (state : OrderedDict AttributeKey AttributeState) (a : Core.Attribute) (key : AttributeKey) :
    asRegister (((foldAttribute o bounds state a).get? key).map
        fun a => (a.value, a.confidence, a.observedAt)) =
      guarded key (asRegister ((state.get? key).map
        fun a => (a.value, a.confidence, a.observedAt))) a := by
  unfold guarded write
  by_cases hkey : a.key = key
  · subst hkey
    unfold foldAttribute
    cases hheld : state.get? a.key with
    | none =>
      rw [get?_set_self, if_pos ⟨rfl, not_lt_bot⟩]
      rfl
    | some held =>
      dsimp only
      by_cases holder : a.observedAt.ns < held.observedAt.ns
      · have hlt : writtenAt a < (asRegister (some (held.value, held.confidence,
            held.observedAt))).1 := WithBot.coe_lt_coe.mpr holder
        rw [if_pos holder, hheld, map_some, if_neg (fun h => h.2 hlt)]
      · have hge : ¬ writtenAt a < (asRegister (some (held.value, held.confidence,
            held.observedAt))).1 := fun h => holder (WithBot.coe_lt_coe.mp h)
        rw [if_neg holder, get?_set_self, map_some, if_pos ⟨rfl, hge⟩]
        rfl
  · have hframe : (foldAttribute o bounds state a).get? key = state.get? key := by
      unfold foldAttribute
      split
      · rw [get?_set, if_neg hkey]
      · split
        · rfl
        · rw [get?_set, if_neg hkey]
    rw [hframe, if_neg (fun h => hkey h.1)]

theorem foldl_foldAttribute_guarded (o : Observation) (bounds : ProjectionBounds)
    (state : OrderedDict AttributeKey AttributeState) (attributes : List Core.Attribute)
    (key : AttributeKey) :
    asRegister (((attributes.foldl (foldAttribute o bounds) state).get? key).map
        fun a => (a.value, a.confidence, a.observedAt)) =
      attributes.foldl (guarded key) (asRegister ((state.get? key).map
        fun a => (a.value, a.confidence, a.observedAt))) := by
  induction attributes generalizing state with
  | nil => rfl
  | cons a rest ih => rw [foldl_cons, foldl_cons, ih, foldAttribute_guarded]

/-- An attribute observation of this object. -/
structure ObservesAttributes (cameraId : CameraId) (objectId : ObjectId) (o : Observation) :
    Prop where
  camera : o.cameraId = cameraId
  object : o.objectId = some objectId
  kind : o.observationType = .attributes

variable {p : CameraPartition} {o : Observation}

theorem afterProjecting_attributes (bounds : ProjectionBounds) (hid : objectId ≠ "")
    (h : ObservesAttributes p.cameraId objectId o) (position : Int) :
    (afterProjecting bounds p o position).cameraId = p.cameraId ∧
      ((afterProjecting bounds p o position).objects.get? objectId).map (·.attributes) =
        some (o.attributes.foldl (foldAttribute o bounds)
          (((p.objects.get? objectId).map (·.attributes)).getD ∅)) := by
  have hkind : o.observationType ≠ .coverage := by
    rw [h.kind]
    decide
  obtain ⟨updated, happly, hattributes⟩ : ∃ updated,
      apply (p.objects.get? objectId) objectId o bounds = .ok updated ∧
      updated.attributes = o.attributes.foldl (foldAttribute o bounds)
        (((p.objects.get? objectId).map (·.attributes)).getD ∅) := by
    cases hheld : p.objects.get? objectId with
    | some s =>
      refine ⟨_, rfl, ?_⟩
      rw [(applyKnown_shown s o bounds).2.2.2.1, if_pos h.kind]
      rfl
    | none =>
      refine ⟨_, dif_neg hid, ?_⟩
      rw [if_pos h.kind]
      rfl
  have hproject : ∃ outcome, project bounds p o position = .ok outcome ∧
      outcome.partition.cameraId = p.cameraId ∧
      outcome.partition.objects =
        (shed (p.objects.set objectId updated) bounds.maxObjects objectId).1 := by
    unfold project
    rw [if_neg (not_not.mpr h.camera), if_neg hkind, h.object]
    unfold projectObject
    dsimp only
    rw [happly]
    exact ⟨_, rfl, rfl, rfl⟩
  obtain ⟨outcome, houtcome, hcamera, hobjects⟩ := hproject
  unfold afterProjecting
  rw [houtcome]
  refine ⟨hcamera, ?_⟩
  rw [hobjects]
  unfold shed
  rw [get?_shedLoop_keep, get?_set_self, map_some, hattributes]

theorem afterProjecting_guarded (bounds : ProjectionBounds) (hid : objectId ≠ "")
    (h : ObservesAttributes p.cameraId objectId o) (position : Int) (key : AttributeKey) :
    asRegister (heldByState (afterProjecting bounds p o position) objectId key) =
      o.attributes.foldl (guarded key) (asRegister (heldByState p objectId key)) := by
  have hattributes := (afterProjecting_attributes bounds hid h position).2
  obtain ⟨s', hs', hfold⟩ := map_eq_some_iff.mp hattributes
  have hbefore : heldByState p objectId key =
      ((((p.objects.get? objectId).map fun s : ObjectState => s.attributes).getD ∅).get? key).map
        fun a => (a.value, a.confidence, a.observedAt) := by
    unfold heldByState
    cases p.objects.get? objectId <;> rfl
  have hafter : heldByState (afterProjecting bounds p o position) objectId key =
      (s'.attributes.get? key).map fun a => (a.value, a.confidence, a.observedAt) := by
    unfold heldByState
    rw [hs']
    rfl
  rw [hafter, hbefore, hfold]
  exact foldl_foldAttribute_guarded o bounds _ o.attributes key

def projectAll (bounds : ProjectionBounds) (p : CameraPartition)
    (observed : List (Observation × Int)) : CameraPartition :=
  observed.foldl (fun p e => afterProjecting bounds p e.1 e.2) p

theorem projectAll_guarded (bounds : ProjectionBounds) (hid : objectId ≠ "")
    {observed : List (Observation × Int)}
    (h : ∀ e ∈ observed, ObservesAttributes p.cameraId objectId e.1) (key : AttributeKey) :
    asRegister (heldByState (projectAll bounds p observed) objectId key) =
      (observed.flatMap (·.1.attributes)).foldl (guarded key)
        (asRegister (heldByState p objectId key)) := by
  induction observed generalizing p with
  | nil => rfl
  | cons e rest ih =>
    have hfirst := h e mem_cons_self
    have hcamera := (afterProjecting_attributes bounds hid hfirst e.2).1
    rw [flatMap_cons, foldl_append, ← afterProjecting_guarded bounds hid hfirst e.2]
    refine ih fun e' he' => ?_
    rw [hcamera]
    exact h e' (mem_cons_of_mem _ he')

/-! ## The same stream to both -/

/-- A successful result for an object and the observation it was published as, with the
    observation's position in the log. -/
structure Delivered where
  result : UnderstandingResult
  observation : Observation
  position : Int

/-- The result succeeded for the object and the observation carries its attributes. -/
structure Delivered.Of (d : Delivered) (cameraId : CameraId) (objectId : ObjectId) : Prop where
  succeeded : d.result.outcome = .succeeded
  object : d.result.objectId = some objectId
  observes : ObservesAttributes cameraId objectId d.observation
  attributes : d.observation.attributes = d.result.attributes

/-- The attributes of a stream, in the order of their arrival. -/
def arrivals (stream : List Delivered) : List Core.Attribute := stream.flatMap (·.result.attributes)

def writtenBack (wiring : RegistryWiring) (sink : RegistryWriteBackSink) (stream : List Delivered) :
    RegistryWriteBackSink :=
  sink.emit wiring (stream.map (·.result))

def projected (bounds : ProjectionBounds) (p : CameraPartition) (stream : List Delivered) :
    CameraPartition :=
  projectAll bounds p (stream.map fun d => (d.observation, d.position))

/-- The last arrival under each key is older than nothing: not than what the registry held,
    and not than an arrival before it. -/
def LastIsNewest (s : ObjectRegistry) (objectId : ObjectId)
    (attributes : List Core.Attribute) : Prop :=
  ∀ before a after, attributes = before ++ a :: after → (∀ b ∈ after, b.key ≠ a.key) →
    (∀ held, heldByRegistry s objectId a.key = some held → held.2.2.ns ≤ a.observedAt.ns) ∧
    ∀ b ∈ before, b.key = a.key → b.observedAt.ns ≤ a.observedAt.ns

theorem asRegister_le_iff {held : Option HeldAttribute} :
    (asRegister held).1 ≤ writtenAt a ↔ ∀ x, held = some x → x.2.2.ns ≤ a.observedAt.ns := by
  rcases held with _ | ⟨value, confidence, observedAt⟩
  · simp [asRegister]
  · simp [asRegister, writtenAt]

/-- Where the registry accepts every write, the two stores agree after a stream on which
    they agreed before exactly when under every key the last arrival is the newest. -/
theorem sameAttributes_iff {wiring : RegistryWiring} {bounds : ProjectionBounds}
    {sink : RegistryWriteBackSink} {p : CameraPartition} {objectId : ObjectId}
    (hid : objectId ≠ "") {stream : List Delivered}
    (hstream : ∀ d ∈ stream, d.Of p.cameraId objectId)
    (hsame : SameAttributes sink.registry p objectId)
    (haccepted : (writtenBack wiring sink stream).audit.writebacksRejected =
      sink.audit.writebacksRejected) :
    SameAttributes (writtenBack wiring sink stream).registry (projected bounds p stream) objectId ↔
      LastIsNewest sink.registry objectId (arrivals stream) := by
  have hresults : ∀ r ∈ stream.map (·.result), r.outcome = .succeeded ∧
      r.objectId = some objectId := by
    intro r hr
    obtain ⟨d, hd, rfl⟩ := mem_map.mp hr
    exact ⟨(hstream d hd).succeeded, (hstream d hd).object⟩
  have hobserved : ∀ e ∈ stream.map (fun d => (d.observation, d.position)),
      ObservesAttributes p.cameraId objectId e.1 := by
    intro e he
    obtain ⟨d, hd, rfl⟩ := mem_map.mp he
    exact (hstream d hd).observes
  -- Both stores fold the arrivals, from the same register.
  have hregistry : ∀ key, asRegister (heldByRegistry (writtenBack wiring sink stream).registry
      objectId key) = (arrivals stream).foldl (unguarded key)
        (asRegister (heldByRegistry sink.registry objectId key)) := by
    intro key
    have hfold := (@RegistryWriteBackSink.emit_overwritten wiring objectId sink _ hresults).2
      haccepted key
    rwa [flatMap_map] at hfold
  have hstate : ∀ key, asRegister (heldByState (projected bounds p stream) objectId key) =
      (arrivals stream).foldl (guarded key)
        (asRegister (heldByRegistry sink.registry objectId key)) := by
    intro key
    have harrivals : (stream.map fun d => (d.observation, d.position)).flatMap
        (·.1.attributes) = arrivals stream := by
      rw [flatMap_map]
      exact flatMap_congr fun d hd => (hstream d hd).attributes
    unfold projected
    rw [projectAll_guarded bounds hid hobserved key, harrivals, hsame key]
  have hkey : ∀ key, heldByRegistry (writtenBack wiring sink stream).registry objectId key =
      heldByState (projected bounds p stream) objectId key ↔
      ∀ before a after, arrivals stream = before ++ a :: after → a.key = key →
        (∀ b ∈ after, ¬ b.key = key) →
        (asRegister (heldByRegistry sink.registry objectId key)).1 ≤ writtenAt a ∧
        ∀ b ∈ before, b.key = key → writtenAt b ≤ writtenAt a := by
    intro key
    rw [← foldl_write_eq_foldl_overwrite_iff]
    constructor
    · intro heq
      have hregisters := congrArg asRegister heq
      rw [hregistry, hstate] at hregisters
      exact hregisters.symm
    · intro heq
      refine asRegister_inj ?_
      rw [hregistry, hstate]
      exact heq.symm
  constructor
  · intro hafter before a after hsplit hlast
    obtain ⟨hheld, hbefore⟩ := (hkey a.key).mp (hafter a.key) before a after hsplit rfl hlast
    exact ⟨asRegister_le_iff.mp hheld, fun b hb hb' => WithBot.coe_le_coe.mp (hbefore b hb hb')⟩
  · intro hlast key
    refine (hkey key).mpr ?_
    rintro before a after hsplit rfl hafter
    obtain ⟨hheld, hbefore⟩ := hlast before a after hsplit hafter
    exact ⟨asRegister_le_iff.mpr hheld, fun b hb hb' => WithBot.coe_le_coe.mpr (hbefore b hb hb')⟩

/-! ## A hairnet seen late -/

def wornSchema : AttributeSchema where
  key := "headwear"
  valueType := .enum
  domain := ["none", "hairnet"]
  accepted := by decide

def wornVocabulary : AttributeRegistry where
  schemas := .ofPairs [("headwear", wornSchema)]

def headwearWiring : RegistryWiring :=
  { streetWiring promptPolicy with attributes := wornVocabulary }

def bareWorker : ObjectRecord where
  objectId := "worker"
  cameraId := "north"
  tenantId := "tenant"
  siteId := "site"
  lifecycle := .active
  classId := "person"
  distribution := 0
  spatial := { frameOfReference := .normalized, bbox := some leftBox, accepted := rfl }
  firstSeen := ⟨0⟩
  lastSeen := ⟨0⟩
  lastConfirmed := ⟨0⟩
  identityConfidence := .finite 1

def workerPartition : RegistryPartition :=
  (headwearWiring.newPartition "north").insert bareWorker (by decide +kernel)

def workerSink : RegistryWriteBackSink where
  registry := { partitions := .ofPairs [("north", workerPartition)] }

def workerBounds : ProjectionBounds :=
  ⟨8, 4, 4, 16, Nat.succ_pos _, Nat.succ_pos _, Nat.succ_pos _, Nat.succ_pos _⟩

def headwearSeen (value : String) (seen : Int) : Core.Attribute where
  key := "headwear"
  schemaVersion := "1.0.0"
  value := .str value
  confidence := ⟨{ value := .finite 1, semantics := .selfReported }, by decide +kernel⟩
  observedAt := ⟨seen⟩
  producer := streetProvenance
  accepted := rfl

/-- A result that found the headwear, and its observation. -/
def headwearDelivered (value : String) (seen position : Int) : Delivered where
  result :=
    { requestId := ⟨"request", by decide⟩
      tenantId := "tenant"
      siteId := "site"
      cameraId := "north"
      objectId := some "worker"
      classId := "person"
      outcome := .succeeded
      evidence :=
        { triggerReason := .attributeStale
          frameRef := { cameraId := "north", streamEpoch := 0, frameSeq := 1, accepted := rfl }
          cropRef := some "crop" }
      attributes := [headwearSeen value seen]
      accepted := UnderstandingResultFields.postInit_eq_ok.mpr ⟨by simp, by simp, by simp; rfl⟩ }
  observation :=
    { observationId := "observation"
      observationType := .attributes
      tenantId := "tenant"
      siteId := "site"
      cameraId := "north"
      frameRef := { cameraId := "north", streamEpoch := 0, frameSeq := 1, accepted := rfl }
      tCapture := ⟨seen⟩
      tCaptureUnc := ⟨0⟩
      clockQuality := .ntpSynced
      tPublished := ⟨seen⟩
      provenance := streetProvenance
      objectId := some "worker"
      classId := some "person"
      attributes := [headwearSeen value seen]
      accepted := rfl }
  position

theorem headwearDelivered_of (value : String) (seen position : Int) :
    (headwearDelivered value seen position).Of "north" "worker" :=
  ⟨rfl, rfl, ⟨rfl, rfl, rfl⟩, rfl⟩

def shownHeadwear (held : Option HeldAttribute) : Option (String × Int) :=
  held.bind fun a =>
    match a.1 with
    | .str text => some (text, a.2.2.ns)
    | _ => none

/-- A bare head seen first arrives last: the registry holds the bare head and the state the
    hairnet seen after it. -/
theorem late_arrival_divides_stores :
    (∀ d ∈ [headwearDelivered "hairnet" 200 1, headwearDelivered "none" 100 2],
      d.Of "north" "worker") ∧
    SameAttributes workerSink.registry { cameraId := "north" } "worker" ∧
    (writtenBack headwearWiring workerSink
      [headwearDelivered "hairnet" 200 1, headwearDelivered "none" 100 2]).audit.writebacksRejected =
      workerSink.audit.writebacksRejected ∧
    ¬ SameAttributes (writtenBack headwearWiring workerSink
        [headwearDelivered "hairnet" 200 1, headwearDelivered "none" 100 2]).registry
      (projected workerBounds { cameraId := "north" }
        [headwearDelivered "hairnet" 200 1, headwearDelivered "none" 100 2]) "worker" := by
  refine ⟨?_, fun _ => rfl, by decide +kernel, fun hsame => ?_⟩
  · intro d hd
    rcases mem_cons.mp hd with rfl | hd
    · exact headwearDelivered_of _ _ _
    · rw [mem_singleton.mp hd]
      exact headwearDelivered_of _ _ _
  · have hregistry : shownHeadwear (heldByRegistry (writtenBack headwearWiring workerSink
        [headwearDelivered "hairnet" 200 1, headwearDelivered "none" 100 2]).registry
        "worker" "headwear") = some ("none", 100) := by decide +kernel
    have hstate : shownHeadwear (heldByState (projected workerBounds { cameraId := "north" }
        [headwearDelivered "hairnet" 200 1, headwearDelivered "none" 100 2])
        "worker" "headwear") = some ("hairnet", 200) := by decide +kernel
    rw [hsame "headwear", hstate] at hregistry
    exact absurd hregistry (by decide)

/-- Seen and arrived in one order, the same two results leave the stores alike. -/
theorem ordered_arrivals_agree :
    SameAttributes (writtenBack headwearWiring workerSink
        [headwearDelivered "none" 100 1, headwearDelivered "hairnet" 200 2]).registry
      (projected workerBounds { cameraId := "north" }
        [headwearDelivered "none" 100 1, headwearDelivered "hairnet" 200 2]) "worker" := by
  have hof : ∀ d ∈ [headwearDelivered "none" 100 1, headwearDelivered "hairnet" 200 2],
      d.Of "north" "worker" := by
    intro d hd
    rcases mem_cons.mp hd with rfl | hd
    · exact headwearDelivered_of _ _ _
    · rw [mem_singleton.mp hd]
      exact headwearDelivered_of _ _ _
  refine (sameAttributes_iff (by decide) hof (fun _ => rfl) (by decide +kernel)).mpr ?_
  intro before a after hsplit hlast
  refine ⟨fun held hheld => ?_, fun b hb _ => ?_⟩
  · -- Nothing was held.
    cases hheld
  · have hsplit : [headwearSeen "none" 100, headwearSeen "hairnet" 200] =
        before ++ a :: after := hsplit
    match before, hsplit with
    | [], _ => cases hb
    | [x], hsplit =>
      obtain ⟨rfl, hrest⟩ := List.cons.inj hsplit
      obtain ⟨rfl, -⟩ := List.cons.inj hrest
      rw [mem_singleton.mp hb]
      decide
    | x :: y :: rest, hsplit =>
      have hlength := congrArg List.length hsplit
      simp at hlength

end VisionOs.App