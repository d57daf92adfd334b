/-
  `UnderstandingRuntime`: the bounded queue of crops, and the batch that answers them.  A crop is
  matched with a request by the id of its object alone.
-/
import VisionOs.Cropping.Manager
import VisionOs.Understanding.Batch

namespace VisionOs.Understanding

open Core Cropping Lib WorkerPool List UnderstandingRequestFields OrderedDict

structure Pending where
  request : UnderstandingRequest
  crops : List Crop

/-- The runtime: what it was built with, its queue, and the engine's cache. -/
structure UnderstandingRuntime where
  engine : UnderstandingEngine
  enabled : Bool
  hasSink : Bool
  queueCapacity : Nat
  cache : ResponseCache
  started : Bool := false
  queue : List Pending := []

/-- What a call of the runtime meets outside: the ids `new_ulid` mints, the answers of the
    models, and how the calls of its batch interleave, at which instants. -/
structure Surroundings where
  ulid : Nat → Ulid
  answers : Nat → ModelAnswer
  moves : List (Move Instant)

/-- What a call asks the engine, what it passes to the sink, and what it raises. -/
structure Delivery where
  asked : List UnderstandingRequest := []
  passed : List UnderstandingResult := []
  raised : Option PyException := none

/-- `int(x)` of a float. -/
def pyInt : PyFloat → Raises Int
  | .finite q => .ok (if 0 ≤ q then q.floor else q.ceil)
  | .nan => .error (.valueError "cannot convert float NaN to integer")
  | _ => .error (.overflowError "cannot convert float infinity to integer")

def pushBounded {α : Type} (maxlen : Nat) (queue : List α) (item : α) : List α :=
  if queue.length = maxlen then queue.tail ++ [item] else queue ++ [item]

namespace UnderstandingRuntime

def maxlen (rt : UnderstandingRuntime) : Nat := max 1 rt.queueCapacity

def requestFor (id : Ulid) (crop : Crop) (source : CropRequest) : Raises UnderstandingRequest :=
  UnderstandingRequest.construct {
    requestId := id
    tenantId := crop.tenantId
    siteId := crop.siteId
    cameraId := crop.cameraId
    objectId := crop.objectId
    classId := source.classId
    cropIds := [crop.cropId]
    frameRef := crop.sourceFrame
    requestedAttributes := source.requiredAttributes
    triggerReason := crop.triggerReason
    tCapture := crop.tCapture
    quality := crop.quality
    priorityClass := source.priorityClass
    demandIds := source.demandIds }

def byObject (requests : List CropRequest) : OrderedDict ObjectId CropRequest :=
  ofPairs (requests.map fun r => (r.objectId, r))

def enqueueLoop (sources : OrderedDict ObjectId CropRequest) (maxlen : Nat) (ulid : Nat → Ulid) :
    Nat → List Crop → List Pending → List Pending × Option PyException
  | _, [], queue => (queue, none)
  | i, crop :: rest, queue =>
    match crop.objectId.bind sources.get? with
    | none => enqueueLoop sources maxlen ulid (i + 1) rest queue
    | some source =>
      match requestFor (ulid i) crop source with
      | .error exc => (queue, some exc)
      | .ok request =>
        enqueueLoop sources maxlen ulid (i + 1) rest (pushBounded maxlen queue ⟨request, [crop]⟩)

/-- `_publish`: every result's cost is counted, as an int, before the sink is called. -/
def published (rt : UnderstandingRuntime) (results : List UnderstandingResult) :
    Raises (List UnderstandingResult) := do
  results.forM fun r => do
    let _ ← pyInt r.costUnits
  return if rt.hasSink then results.map (·.withoutRawOutput) else []

def runReady (rt : UnderstandingRuntime) (env : Surroundings) : UnderstandingRuntime × Delivery :=
  if rt.queue.isEmpty then (rt, {})
  else
    let requests := rt.queue.map (·.request)
    match planBatches rt.engine requests with
    | .error exc => ({ rt with queue := [] }, { raised := some exc })
    | .ok _ =>
      let batch := Batch.after rt.engine requests env.answers rt.cache env.moves
      let rt' := { rt with queue := [], cache := batch.cache }
      match rt.published (Batch.results requests batch).values with
      | .error exc => (rt', { asked := requests, raised := some exc })
      | .ok passed => (rt', { asked := requests, passed })

/-- `on_crops`: what is raised inside ends in its guard, after the queue was cleared. -/
def onCrops (rt : UnderstandingRuntime) (env : Surroundings) (result : EvaluationResult)
    (crops : List Crop) : UnderstandingRuntime × Delivery :=
  if ¬ (rt.started ∧ rt.enabled) then (rt, {})
  else if crops.isEmpty then (rt, {})
  else
    match enqueueLoop (byObject result.requests) rt.maxlen env.ulid 0 crops rt.queue with
    | (queue, some exc) => ({ rt with queue }, { raised := some exc })
    | (queue, none) => runReady { rt with queue } env

def start (rt : UnderstandingRuntime) : UnderstandingRuntime := { rt with started := true }

/-- `stop`: drain before shutting down; a drain that raises leaves the runtime started. -/
def stop (rt : UnderstandingRuntime) (env : Surroundings) : UnderstandingRuntime :=
  let (rt', delivery) := rt.runReady env
  if delivery.raised.isSome then rt' else { rt' with started := false }

end UnderstandingRuntime

inductive RuntimeCall where
  | start
  | stop (env : Surroundings)
  | crops (env : Surroundings) (handoff : CropHandoff)

def RuntimeCall.step (rt : UnderstandingRuntime) : RuntimeCall → UnderstandingRuntime
  | .start => rt.start
  | .stop env => rt.stop env
  | .crops env handoff => (rt.onCrops env handoff.result handoff.crops).1

namespace UnderstandingRuntime

/-! ## Matching crops with requests -/

variable {requests : List CropRequest} {r : CropRequest}

theorem byObject_of_mem (h : r ∈ requests) :
    ∃ source ∈ requests, source.objectId = r.objectId ∧
      (byObject requests).get? r.objectId = some source := by
  have hkey : r.objectId ∈ (requests.map fun r => (r.objectId, r)).map Prod.fst :=
    mem_map.mpr ⟨(r.objectId, r), mem_map.mpr ⟨r, h, rfl⟩, rfl⟩
  obtain ⟨source, hsource⟩ := exists_get?_ofPairs hkey
  obtain ⟨r', hr', hpair⟩ := mem_map.mp (mem_of_get?_ofPairs hsource)
  have hkey' : r'.objectId = r.objectId := congrArg Prod.fst hpair
  have hsame : r' = source := congrArg Prod.snd hpair
  rw [hsame] at hr' hkey'
  exact ⟨source, hr', hkey', hsource⟩

theorem requestFor_ok (id : Ulid) (crop : Crop) {source : CropRequest}
    (h : source.requiredAttributes ≠ []) : ∃ q, requestFor id crop source = .ok q := by
  have haccepted : postInit {
      requestId := id, tenantId := crop.tenantId, siteId := crop.siteId
      cameraId := crop.cameraId, objectId := crop.objectId, classId := source.classId
      cropIds := [crop.cropId], frameRef := crop.sourceFrame
      requestedAttributes := source.requiredAttributes, triggerReason := crop.triggerReason
      tCapture := crop.tCapture, quality := crop.quality, priorityClass := source.priorityClass
      demandIds := source.demandIds } = .ok () :=
    postInit_eq_ok.mpr ⟨by simp, h, crop.sourceFrame_cameraId⟩
  exact ⟨_, constructWith_eq_ok haccepted⟩

structure AskedFrom (requests : List CropRequest) (id : Ulid) (r : CropRequest) (c : Crop)
    (q : UnderstandingRequest) : Prop where
  made : ∃ source ∈ requests, source.objectId = r.objectId ∧
    c.objectId.bind (byObject requests).get? = some source ∧ requestFor id c source = .ok q

theorem exists_askedFrom
    (hasks : ∀ r ∈ requests, r.requiredAttributes ≠ []) (id : Ulid) {c : Crop}
    (hr : r ∈ requests) (hextracted : ExtractedFor r c) :
    ∃ q, AskedFrom requests id r c q := by
  obtain ⟨source, hsource, hobject, hget⟩ := byObject_of_mem hr
  obtain ⟨q, hq⟩ := requestFor_ok id c (hasks source hsource)
  refine ⟨q, source, hsource, hobject, ?_, hq⟩
  rw [hextracted.objectId]
  exact hget

theorem enqueueLoop_cons {maxlen : Nat} {ulid : Nat → Ulid} {i : Nat}
    {c : Crop} {q : UnderstandingRequest}
    (h : AskedFrom requests (ulid i) r c q) (rest : List Crop) (queue : List Pending) :
    enqueueLoop (byObject requests) maxlen ulid i (c :: rest) queue =
      enqueueLoop (byObject requests) maxlen ulid (i + 1) rest
        (pushBounded maxlen queue ⟨q, [c]⟩) := by
  obtain ⟨source, -, -, hfound, hq⟩ := h
  conv => left; unfold enqueueLoop
  rw [hfound]
  dsimp only
  rw [hq]

theorem enqueueLoop_never_raises
    (hasks : ∀ r ∈ requests, r.requiredAttributes ≠ []) (maxlen : Nat) (ulid : Nat → Ulid)
    {rs : List CropRequest} {crops : List Crop} (hpaired : List.Forall₂ ExtractedFor rs crops)
    (hmem : ∀ r ∈ rs, r ∈ requests) (i : Nat) (queue : List Pending) :
    (enqueueLoop (byObject requests) maxlen ulid i crops queue).2 = none := by
  induction hpaired generalizing i queue with
  | nil => rfl
  | @cons r c rs crops hextracted _ ih =>
    obtain ⟨q, hasked⟩ := exists_askedFrom hasks (ulid i) (hmem r (by simp)) hextracted
    rw [enqueueLoop_cons hasked]
    exact ih (fun r' hr' => hmem r' (mem_cons_of_mem _ hr')) _ _

theorem enqueueLoop_spec {requests : List CropRequest}
    (hasks : ∀ r ∈ requests, r.requiredAttributes ≠ []) {maxlen : Nat} (ulid : Nat → Ulid)
    {rs : List CropRequest} {crops : List Crop} (hpaired : List.Forall₂ ExtractedFor rs crops)
    (hmem : ∀ r ∈ rs, r ∈ requests) {i : Nat} {queue : List Pending}
    (hfit : queue.length + crops.length ≤ maxlen) :
    ∃ new : List Pending,
      enqueueLoop (byObject requests) maxlen ulid i crops queue = (queue ++ new, none) ∧
      new.length = crops.length ∧
      ∀ (k : Nat) (r : CropRequest) (c : Crop), rs[k]? = some r → crops[k]? = some c →
        ∃ q, (new.map (·.request))[k]? = some q ∧ AskedFrom requests (ulid (i + k)) r c q := by
  induction hpaired generalizing i queue with
  | nil => exact ⟨[], by rw [append_nil]; rfl, rfl, fun k r c hr _ => by cases hr⟩
  | @cons r c rs crops hextracted _ ih =>
    obtain ⟨q, hasked⟩ := exists_askedFrom hasks (ulid i) (hmem r (by simp)) hextracted
    rw [length_cons] at hfit
    -- The deque is not full yet, so nothing is dropped.
    have hpush : pushBounded maxlen queue ⟨q, [c]⟩ = queue ++ [⟨q, [c]⟩] := by
      unfold pushBounded
      rw [if_neg (by omega)]
    obtain ⟨new, hloop, hlength, hnew⟩ := @ih (fun r' hr' => hmem r' (mem_cons_of_mem _ hr'))
      (i + 1) (queue ++ [⟨q, [c]⟩]) (by
        rw [length_append, length_singleton]
        omega)
    refine ⟨⟨q, [c]⟩ :: new, ?_, ?_, fun k r' c' hr' hc' => ?_⟩
    · rw [enqueueLoop_cons hasked, hpush, hloop, append_assoc]
      rfl
    · rw [length_cons, length_cons, hlength]
    · cases k with
      | zero =>
        cases hr'
        cases hc'
        exact ⟨q, rfl, hasked⟩
      | succ k =>
        obtain ⟨q', hq', hasked'⟩ := hnew k r' c' hr' hc'
        refine ⟨q', hq', ?_⟩
        rwa [Nat.add_assoc, Nat.add_comm 1 k] at hasked'

@[simp] theorem runReady_queue (rt : UnderstandingRuntime) (env : Surroundings) :
    (rt.runReady env).1.queue = [] := by
  unfold runReady
  split
  · rename_i hempty
    exact isEmpty_iff.mp hempty
  · dsimp only
    split
    · rfl
    · split <;> rfl

theorem runReady_capacity (rt : UnderstandingRuntime) (env : Surroundings) :
    (rt.runReady env).1.queueCapacity = rt.queueCapacity := by
  unfold runReady
  split
  · rfl
  · dsimp only
    split
    · rfl
    · split <;> rfl

/-- Between calls nothing waits, and the queue's capacity is the one it was built with. -/
def Idle (capacity : Nat) (rt : UnderstandingRuntime) : Prop :=
  rt.queue = [] ∧ rt.queueCapacity = capacity

variable {rt : UnderstandingRuntime}

theorem idle_step {capacity : Nat} (h : Idle capacity rt)
    (call : RuntimeCall) : Idle capacity (call.step rt) := by
  obtain ⟨hqueue, hcapacity⟩ := h
  cases call with
  | start => exact ⟨hqueue, hcapacity⟩
  | stop env =>
    show Idle capacity (rt.stop env)
    unfold stop
    dsimp only
    split
    · exact ⟨runReady_queue rt env, by rw [runReady_capacity, hcapacity]⟩
    · refine ⟨runReady_queue rt env, ?_⟩
      show (rt.runReady env).1.queueCapacity = capacity
      rw [runReady_capacity, hcapacity]
  | crops env handoff =>
    show Idle capacity (rt.onCrops env handoff.result handoff.crops).1
    unfold onCrops
    split
    · exact ⟨hqueue, hcapacity⟩
    split
    · exact ⟨hqueue, hcapacity⟩
    have hnone := enqueueLoop_never_raises handoff.asks rt.maxlen env.ulid handoff.paired
      (fun _ h => h) 0 rt.queue
    split
    · rename_i exc hloop
      rw [hloop] at hnone
      cases hnone
    · refine ⟨runReady_queue _ env, ?_⟩
      rw [runReady_capacity]
      exact hcapacity

theorem idle_run (h : rt.queue = []) (calls : List RuntimeCall) :
    Idle rt.queueCapacity (Runs.run RuntimeCall.step rt calls) :=
  @Runs.run_invariant _ _ _ (Idle rt.queueCapacity) (fun _ call hidle => idle_step hidle call) rt
    ⟨h, rfl⟩ calls

end UnderstandingRuntime

end VisionOs.Understanding
