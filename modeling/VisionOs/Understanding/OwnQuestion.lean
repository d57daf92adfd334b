/-
  Whether the results a handoff comes to are those of the questions its crops were extracted for.
-/
import VisionOs.Understanding.Questions
import VisionOs.Understanding.Runtime

namespace VisionOs.Understanding

open Core Cropping Lib WorkerPool UnderstandingRuntime List Option Batch RuntimeCall Question Runs
open FrameRefFields

/-! ## What is to hold -/

def questionOf (r : CropRequest) : Question :=
  ⟨r.requiredAttributes, r.demandIds, r.triggerReason⟩

/-- The request and its crop, by position. -/
def PairAt (handoff : CropHandoff) (i : Nat) (r : CropRequest) (c : Crop) : Prop :=
  handoff.result.requests[i]? = some r ∧ handoff.crops[i]? = some c

/-- The crop was asked about as its request demands, and so answered. -/
structure AnsweredAsAsked (r : CropRequest) (c : Crop) (q : UnderstandingRequest)
    (a : UnderstandingResult) : Prop where
  crop : q.cropIds = [c.cropId]
  asked : q.question = questionOf r
  priority : q.priorityClass = r.priorityClass
  requestId : a.requestId = q.requestId
  answered : a.question = questionOf r

/-- What a call on `n` crops can meet from an instant on: ids that never repeat, and any
    interleaving of the batch's calls at later instants. -/
structure Surroundings.Possible (rt : UnderstandingRuntime) (now : Instant) (n : Nat)
    (env : Surroundings) : Prop where
  fresh : Function.Injective env.ulid
  interleaved : Interleaving (rt.engine.batchWorkers n) n (fun t => now.ns ≤ t.ns) (fun _ => 0)
    env.moves

/-- Whatever the call meets besides these answers of the models: one result for each crop
    reaches the sink, and it answers the question of the very request that crop was
    extracted for. -/
def EveryCropAsked (rt : UnderstandingRuntime) (now : Instant) (handoff : CropHandoff)
    (answers : Nat → ModelAnswer) : Prop :=
  ∀ env : Surroundings, env.Possible rt now handoff.crops.length → env.answers = answers →
    let delivery := (rt.onCrops env handoff.result handoff.crops).2
    delivery.passed.length = handoff.crops.length ∧
    ∀ i r c, PairAt handoff i r c → ∃ q a, delivery.asked[i]? = some q ∧
      delivery.passed[i]? = some a ∧ AnsweredAsAsked r c q a

def UnderstandingEngine.lookupFor (engine : UnderstandingEngine) (r : CropRequest) (c : Crop) :
    Lookup :=
  engine.lookup r.requiredAttributes r.classId c.quality c.tenantId c.cropId

/-- Requests for one object ask the same. -/
def SamePerObject (handoff : CropHandoff) : Prop :=
  ∀ r ∈ handoff.result.requests, ∀ r' ∈ handoff.result.requests, r.objectId = r'.objectId →
    r.requiredAttributes = r'.requiredAttributes ∧ r.demandIds = r'.demandIds ∧
      r.priorityClass = r'.priorityClass

/-- The runtime runs, the requests of one object ask the same, and neither the cache nor
    another request of the batch has the key of a request and another question. -/
structure OneQuestion (rt : UnderstandingRuntime) (now : Instant) (handoff : CropHandoff) :
    Prop where
  running : handoff.crops ≠ [] → rt.started = true ∧ rt.enabled = true ∧ rt.hasSink = true
  perObject : SamePerObject handoff
  cached : ∀ i r c, PairAt handoff i r c → ∀ key, rt.engine.lookupFor r c = .keyed key →
    ∀ a, rt.cache.answers key now = some a → a.question = questionOf r
  shared : ∀ i r c, PairAt handoff i r c → ∀ j r' c', PairAt handoff j r' c' →
    ∀ key, rt.engine.lookupFor r c = .keyed key → rt.engine.lookupFor r' c' = .keyed key →
      questionOf r = questionOf r'

variable {i : Nat} {r : CropRequest} {c : Crop} {handoff : CropHandoff}

theorem PairAt.mem
    (h : PairAt handoff i r c) : r ∈ handoff.result.requests :=
  mem_of_getElem? h.1

theorem PairAt.extractedFor (h : PairAt handoff i r c) :
    ExtractedFor r c := by
  obtain ⟨hi, hr⟩ := List.getElem?_eq_some_iff.mp h.1
  obtain ⟨hi', hc⟩ := List.getElem?_eq_some_iff.mp h.2
  have hpair := handoff.paired.get hi hi'
  rw [get_eq_getElem, get_eq_getElem] at hpair
  rwa [hr, hc] at hpair

theorem exists_pairAt
    (h : r ∈ handoff.result.requests) : ∃ i c, PairAt handoff i r c := by
  obtain ⟨i, hi, hr⟩ := getElem_of_mem h
  have hi' : i < handoff.crops.length := handoff.paired.length_eq ▸ hi
  refine ⟨i, handoff.crops[i], ?_, getElem?_eq_getElem hi'⟩
  rw [getElem?_eq_getElem hi, hr]

theorem exists_pairAt_of_lt {handoff : CropHandoff} {i : Nat} (h : i < handoff.crops.length) :
    ∃ r c, PairAt handoff i r c := by
  have hi : i < handoff.result.requests.length := handoff.paired.length_eq ▸ h
  exact ⟨_, _, getElem?_eq_getElem hi, getElem?_eq_getElem h⟩

/-! ## What the engine is asked -/

variable {q : UnderstandingRequest}

theorem requestFor_fields {id : Ulid} {source : CropRequest} (h : requestFor id c source = .ok q) :
    q.requestId = id ∧ q.cropIds = [c.cropId] ∧ q.priorityClass = source.priorityClass ∧
    q.question = ⟨source.requiredAttributes, source.demandIds, c.triggerReason⟩ ∧
    ∀ engine : UnderstandingEngine, engine.lookupOf q =
      engine.lookup source.requiredAttributes source.classId c.quality c.tenantId c.cropId := by
  obtain ⟨haccepted, hmk⟩ := constructWith_eq_ok_iff.mp h
  rw [← hmk]
  exact ⟨rfl, rfl, rfl, rfl, fun _ => rfl⟩

structure AskedOf (ulid : Nat → Ulid) (handoff : CropHandoff) (qs : List UnderstandingRequest) :
    Prop where
  length : qs.length = handoff.crops.length
  pair : ∀ i r c, PairAt handoff i r c →
    ∃ q, qs[i]? = some q ∧ AskedFrom handoff.result.requests (ulid i) r c q

variable {ulid : Nat → Ulid} {qs : List UnderstandingRequest}

theorem AskedOf.exists_pair (h : AskedOf ulid handoff qs)
    (hq : qs[i]? = some q) :
    ∃ r c, PairAt handoff i r c ∧ AskedFrom handoff.result.requests (ulid i) r c q := by
  have hi : i < qs.length := (List.getElem?_eq_some_iff.mp hq).1
  obtain ⟨r, c, hpair⟩ := @exists_pairAt_of_lt handoff i (h.length ▸ hi)
  obtain ⟨q', hq', hasked⟩ := h.pair i r c hpair
  rw [hq] at hq'
  rw [Option.some.inj hq']
  exact ⟨r, c, hpair, hasked⟩

theorem AskedOf.requestIds (h : AskedOf ulid handoff qs) :
    qs.map (·.requestId) = (range qs.length).map ulid := by
  apply ext_getElem
  · rw [length_map, length_map, length_range]
  · intro i hi _
    rw [length_map] at hi
    have hq : qs[i]? = some qs[i] := getElem?_eq_getElem hi
    obtain ⟨r, c, -, source, -, -, -, hmade⟩ := h.exists_pair hq
    rw [getElem_map, getElem_map, getElem_range]
    exact (requestFor_fields hmade).1

theorem AskedOf.nodup (h : AskedOf ulid handoff qs)
    (hfresh : Function.Injective ulid) : (qs.map (·.requestId)).Nodup := by
  rw [h.requestIds]
  exact nodup_range.map hfresh

namespace UnderstandingRuntime

theorem published_ok {rt : UnderstandingRuntime} {results : List UnderstandingResult}
    (h : ∀ r ∈ results, ∃ units, r.costUnits = .finite units) :
    rt.published results = .ok (if rt.hasSink then results.map (·.withoutRawOutput) else []) := by
  have hcounted : results.forM (fun r => do let _ ← pyInt r.costUnits) = .ok () := by
    refine forM_eq_ok.mpr fun r hr => ?_
    obtain ⟨units, hunits⟩ := h r hr
    rw [hunits]
    rfl
  unfold published
  rw [hcounted]
  rfl

theorem runReady_delivery {rt : UnderstandingRuntime} (hqueue : rt.queue ≠ [])
    {env : Surroundings} (hpriced : Priced env.answers) :
    (rt.runReady env).2 = {
      asked := rt.queue.map (·.request)
      passed :=
        if rt.hasSink then
          (results (rt.queue.map (·.request)) (after rt.engine
            (rt.queue.map (·.request)) env.answers rt.cache env.moves)).values.map
              (·.withoutRawOutput)
        else [] } := by
  obtain ⟨groups, hgroups⟩ := planBatches_ok rt.engine (rt.queue.map (·.request))
  let requests := rt.queue.map (·.request)
  have hpublished := @published_ok rt _ (countable_results requests
    (countable_after rt.engine requests hpriced rt.cache env.moves))
  unfold runReady
  rw [if_neg (by rwa [List.isEmpty_iff])]
  dsimp only
  rw [hgroups]
  dsimp only
  rw [hpublished]

variable {rt : UnderstandingRuntime}

theorem onCrops_delivery
    (hqueue : rt.queue = []) (hfit : handoff.crops.length ≤ rt.maxlen)
    (hcrops : handoff.crops ≠ []) (hrunning : rt.started = true ∧ rt.enabled = true)
    (ulid : Nat → Ulid) :
    ∃ qs, AskedOf ulid handoff qs ∧ ∀ answers, Priced answers → ∀ moves,
      (rt.onCrops ⟨ulid, answers, moves⟩ handoff.result handoff.crops).2 = {
        asked := qs
        passed :=
          if rt.hasSink then
            (results qs (after rt.engine qs answers rt.cache moves)).values.map
              (·.withoutRawOutput)
          else [] } := by
  obtain ⟨new, hloop, hlength, hnew⟩ := @enqueueLoop_spec _ handoff.asks rt.maxlen ulid _ _
    handoff.paired (fun _ h => h) 0 [] (by rw [length_nil, Nat.zero_add]; exact hfit)
  refine ⟨new.map (·.request), ⟨?_, fun i r c hpair => ?_⟩, fun answers hpriced moves => ?_⟩
  · rw [length_map, hlength]
  · obtain ⟨q, hq, hasked⟩ := hnew i r c hpair.1 hpair.2
    rw [Nat.zero_add] at hasked
    exact ⟨q, hq, hasked⟩
  · have hne : new ≠ [] := by
      intro hnil
      rw [hnil] at hlength
      exact hcrops (length_eq_zero_iff.mp hlength.symm)
    unfold onCrops
    rw [if_neg (by rw [not_not]; exact hrunning), if_neg (by rwa [List.isEmpty_iff]), hqueue]
    rw [hloop, nil_append]
    exact @runReady_delivery { rt with queue := new } hne ⟨ulid, answers, moves⟩ hpriced

theorem onCrops_of_not_running (h : ¬ (rt.started = true ∧ rt.enabled = true)) (env : Surroundings)
    (result : EvaluationResult) (crops : List Crop) :
    (rt.onCrops env result crops).2 = {} := by
  unfold onCrops
  rw [if_pos h]

end UnderstandingRuntime

/-! ## The questions of the batch -/

section Batch

variable {handoff : CropHandoff} {ulid : Nat → Ulid} {qs : List UnderstandingRequest}

def AskedOwn (handoff : CropHandoff) (qs : List UnderstandingRequest) : Prop :=
  ∀ i r c, PairAt handoff i r c → ∀ q, qs[i]? = some q →
    q.question = questionOf r ∧ q.priorityClass = r.priorityClass

theorem askedOwn_iff (h : AskedOf ulid handoff qs) :
    AskedOwn handoff qs ↔ SamePerObject handoff := by
  constructor
  · intro hown r hr r' hr' hobject
    obtain ⟨i, c, hpair⟩ := exists_pairAt hr
    obtain ⟨j, c', hpair'⟩ := exists_pairAt hr'
    obtain ⟨q, hq, source, -, -, hfound, hmade⟩ := h.pair i r c hpair
    obtain ⟨q', hq', source', -, -, hfound', hmade'⟩ := h.pair j r' c' hpair'
    -- Both crops find the same request.
    have hsource : source = source' := by
      rw [hpair.extractedFor.objectId, hobject, ← hpair'.extractedFor.objectId, hfound'] at hfound
      exact (some.inj hfound).symm
    obtain ⟨-, -, hpriority, hquestion, -⟩ := requestFor_fields hmade
    obtain ⟨-, -, hpriority', hquestion', -⟩ := requestFor_fields hmade'
    obtain ⟨hasked, hprior⟩ := hown i r c hpair q hq
    obtain ⟨hasked', hprior'⟩ := hown j r' c' hpair' q' hq'
    rw [hquestion] at hasked
    rw [hquestion'] at hasked'
    rw [hpriority] at hprior
    rw [hpriority'] at hprior'
    subst hsource
    refine ⟨?_, ?_, hprior.symm.trans hprior'⟩
    · exact (congrArg attributes hasked).symm.trans (congrArg attributes hasked')
    · exact (congrArg demandIds hasked).symm.trans (congrArg demandIds hasked')
  · intro hsame i r c hpair q hq
    obtain ⟨q', hq', source, hsource, hobject, -, hmade⟩ := h.pair i r c hpair
    rw [hq] at hq'
    rw [← some.inj hq'] at hmade
    obtain ⟨-, -, hpriority, hquestion, -⟩ := requestFor_fields hmade
    obtain ⟨hattributes, hdemands, hprior⟩ := hsame source hsource r hpair.mem hobject
    rw [hquestion, hpriority, hattributes, hdemands, hpair.extractedFor.triggerReason]
    exact ⟨rfl, hprior⟩

theorem lookupOf_of_askedOwn (h : AskedOf ulid handoff qs) (hown : AskedOwn handoff qs)
    (engine : UnderstandingEngine)
    (hpair : PairAt handoff i r c) (hq : qs[i]? = some q) :
    engine.lookupOf q = engine.lookupFor r c := by
  obtain ⟨q', hq', source, hsource, hobject, -, hmade⟩ := h.pair i r c hpair
  rw [hq] at hq'
  rw [← some.inj hq'] at hmade
  obtain ⟨-, -, -, hquestion, hlookup⟩ := requestFor_fields hmade
  have hasked := (hown i r c hpair q hq).1
  rw [hquestion] at hasked
  have hattributes : source.requiredAttributes = r.requiredAttributes :=
    congrArg attributes hasked
  have hclass : source.classId = r.classId := handoff.sameClass source hsource r hpair.mem hobject
  rw [hlookup engine, hattributes, hclass]
  rfl

theorem consistent_iff (h : AskedOf ulid handoff qs) (hown : AskedOwn handoff qs)
    (engine : UnderstandingEngine) (cache : ResponseCache) (now : Instant) :
    Batch.Consistent engine qs cache now ↔
      (∀ i r c, PairAt handoff i r c → ∀ key, engine.lookupFor r c = .keyed key →
        ∀ a, cache.answers key now = some a → a.question = questionOf r) ∧
      (∀ i r c, PairAt handoff i r c → ∀ j r' c', PairAt handoff j r' c' →
        ∀ key, engine.lookupFor r c = .keyed key → engine.lookupFor r' c' = .keyed key →
          questionOf r = questionOf r') := by
  -- What is asked about a pair: its question, under its lookup.
  have hpairs : ∀ i r c, PairAt handoff i r c →
      ∃ q ∈ qs, q.question = questionOf r ∧ engine.lookupOf q = engine.lookupFor r c := by
    intro i r c hpair
    obtain ⟨q, hq, -⟩ := h.pair i r c hpair
    exact ⟨q, mem_of_getElem? hq, (hown i r c hpair q hq).1,
      lookupOf_of_askedOwn h hown engine hpair hq⟩
  have hasked : ∀ q ∈ qs, ∃ i r c, PairAt handoff i r c ∧ q.question = questionOf r ∧
      engine.lookupOf q = engine.lookupFor r c := by
    intro q hq
    obtain ⟨i, hi⟩ := mem_iff_getElem?.mp hq
    obtain ⟨r, c, hpair, -⟩ := h.exists_pair hi
    exact ⟨i, r, c, hpair, (hown i r c hpair q hi).1, lookupOf_of_askedOwn h hown engine hpair hi⟩
  constructor
  · intro hconsistent
    refine ⟨fun i r c hpair key hkey a ha => ?_, fun i r c hpair j r' c' hpair' key hkey hkey' => ?_⟩
    · obtain ⟨q, hq, hquestion, hlookup⟩ := hpairs i r c hpair
      rw [← hquestion]
      exact hconsistent.cached q hq key (hlookup.trans hkey) a ha
    · obtain ⟨q, hq, hquestion, hlookup⟩ := hpairs i r c hpair
      obtain ⟨q', hq', hquestion', hlookup'⟩ := hpairs j r' c' hpair'
      rw [← hquestion, ← hquestion']
      exact hconsistent.shared q hq q' hq' key (hlookup.trans hkey) (hlookup'.trans hkey')
  · rintro ⟨hcached, hshared⟩
    refine ⟨fun q hq key hkey a ha => ?_, fun q hq q' hq' key hkey hkey' => ?_⟩
    · obtain ⟨i, r, c, hpair, hquestion, hlookup⟩ := hasked q hq
      rw [hquestion]
      exact hcached i r c hpair key (hlookup.symm.trans hkey) a ha
    · obtain ⟨i, r, c, hpair, hquestion, hlookup⟩ := hasked q hq
      obtain ⟨j, r', c', hpair', hquestion', hlookup'⟩ := hasked q' hq'
      rw [hquestion, hquestion']
      exact hshared i r c hpair j r' c' hpair' key (hlookup.symm.trans hkey)
        (hlookup'.symm.trans hkey')

theorem passed_spec (engine : UnderstandingEngine) (answers : Nat → ModelAnswer)
    (cache : ResponseCache) {workers : Nat} {Valid : Instant → Prop} {moves : List (Move Instant)}
    (hmoves : Interleaving workers qs.length Valid (fun _ => 0) moves)
    (hids : (qs.map (·.requestId)).Nodup) :
    let batch := after engine qs answers cache moves
    let passed := (results qs batch).values.map (·.withoutRawOutput)
    passed.length = qs.length ∧ ∀ i q, qs[i]? = some q →
      ∃ a, batch.calls i = .returned a ∧ passed[i]? = some a.withoutRawOutput := by
  have hreturned := all_returned engine qs answers hmoves cache
  obtain ⟨hlength, hresults⟩ := results_spec qs hreturned hids
  refine ⟨by rw [length_map, hlength], fun i q hq => ?_⟩
  obtain ⟨a, ha, hget⟩ := hresults i q hq
  refine ⟨a, ha, ?_⟩
  rw [getElem?_map, hget]
  rfl

end Batch

/-! ## When every crop is asked its own question -/

/-- Some surroundings are possible: 26 and more times the same letter are ids, and the calls
    can run one after the other. -/
theorem exists_possible (rt : UnderstandingRuntime) (now : Instant) {n : Nat} (h : 0 < n) :
    ∃ ulid : Nat → Ulid, Function.Injective ulid ∧ ∀ answers,
      Surroundings.Possible rt now n ⟨ulid, answers, sequential now 0 n⟩ := by
  have hlength : ∀ k, (String.ofList (replicate (k + 1) '0')).length = k + 1 := by
    intro k
    simp
  have hne : ∀ k, String.ofList (replicate (k + 1) '0') ≠ "" := by
    intro k hempty
    have hzero := congrArg String.length hempty
    rw [hlength] at hzero
    exact Nat.succ_ne_zero k hzero
  have hinjective : Function.Injective
      (fun k => (⟨String.ofList (replicate (k + 1) '0'), hne k⟩ : Ulid)) := by
    intro k k' hsame
    have hlengths := congrArg (fun id : Ulid => id.val.length) hsame
    simp only [hlength] at hlengths
    omega
  exact ⟨_, hinjective, fun answers =>
    ⟨hinjective, sequential_interleaving (le_refl now.ns) (batchWorkers_pos rt.engine h)⟩⟩

variable {rt : UnderstandingRuntime} {now : Instant}

theorem everyCropAsked_of_consistent (hqueue : rt.queue = [])
    (hfit : handoff.crops.length ≤ rt.maxlen)
    (hrunning : handoff.crops ≠ [] →
      rt.started = true ∧ rt.enabled = true ∧ rt.hasSink = true)
    (hown : ∀ ulid qs, AskedOf ulid handoff qs →
      AskedOwn handoff qs ∧ Batch.Consistent rt.engine qs rt.cache now)
    {answers : Nat → ModelAnswer} (hpriced : Priced answers) :
    EveryCropAsked rt now handoff answers := by
  rintro ⟨ulid, answers', moves⟩ ⟨hfresh, hmoves⟩ hanswers
  have hsame : answers' = answers := hanswers
  subst hsame
  by_cases hcrops : handoff.crops = []
  · -- Nothing to ask, nothing passed on.
    have hnothing : (rt.onCrops ⟨ulid, answers', moves⟩ handoff.result handoff.crops).2 = {} := by
      unfold onCrops
      rw [hcrops]
      split <;> rfl
    rw [hnothing]
    refine ⟨by rw [hcrops]; rfl, fun i r c hpair => ?_⟩
    have hnone := hpair.2
    rw [hcrops] at hnone
    cases hnone
  · obtain ⟨hstarted, henabled, hsink⟩ := hrunning hcrops
    obtain ⟨qs, hqs, hdelivery⟩ :=
      onCrops_delivery hqueue hfit hcrops ⟨hstarted, henabled⟩ ulid
    obtain ⟨hasked, hconsistent⟩ := hown ulid qs hqs
    have hcalls := (everyCallOwn_iff rt.engine qs rt.cache now).mpr hconsistent
    rw [← hqs.length] at hmoves
    obtain ⟨hlength, hpassed⟩ :=
      passed_spec rt.engine answers' rt.cache hmoves (hqs.nodup hfresh)
    rw [hdelivery answers' hpriced moves, if_pos hsink]
    refine ⟨hlength.trans hqs.length, fun i r c hpair => ?_⟩
    obtain ⟨q, hq, source, -, -, -, hmade⟩ := hqs.pair i r c hpair
    obtain ⟨a, ha, hget⟩ := hpassed i q hq
    obtain ⟨a', ha', hid, hquestion⟩ := hcalls answers' hpriced moves hmoves i q hq
    have hsame : a = a' := by
      rw [ha] at ha'
      exact CallState.returned.inj ha'
    obtain ⟨hq_asked, hq_priority⟩ := hasked i r c hpair q hq
    rw [← hsame] at hid hquestion
    refine ⟨q, a.withoutRawOutput, hq, hget, ?_⟩
    exact ⟨(requestFor_fields hmade).2.1, hq_asked, hq_priority, hid, hquestion.trans hq_asked⟩

theorem running_of_everyCropAsked (hqueue : rt.queue = [])
    (hfit : handoff.crops.length ≤ rt.maxlen)
    (h : EveryCropAsked rt now handoff (fun _ => .failed)) (hcrops : handoff.crops ≠ []) :
    rt.started = true ∧ rt.enabled = true ∧ rt.hasSink = true := by
  have hpos : 0 < handoff.crops.length := length_pos_of_ne_nil hcrops
  obtain ⟨ulid, -, hpossible⟩ := exists_possible rt now hpos
  obtain ⟨hlength, -⟩ := h _ (hpossible (fun _ => .failed)) rfl
  -- A result is passed on, so none of the ways to pass nothing was taken.
  have hrunning : rt.started = true ∧ rt.enabled = true := by
    by_contra hno
    rw [onCrops_of_not_running hno] at hlength
    have hzero : (0 : Nat) = handoff.crops.length := hlength
    omega
  obtain ⟨qs, -, hdelivery⟩ := onCrops_delivery hqueue hfit hcrops hrunning ulid
  have hsink : rt.hasSink = true := by
    by_contra hno
    rw [hdelivery _ priced_failed, if_neg hno] at hlength
    have hzero : (0 : Nat) = handoff.crops.length := hlength
    omega
  exact ⟨hrunning.1, hrunning.2, hsink⟩

theorem oneQuestion_of_nil (rt : UnderstandingRuntime) (now : Instant)
    (hcrops : handoff.crops = []) : OneQuestion rt now handoff := by
  have hrequests : handoff.result.requests = [] := by
    apply length_eq_zero_iff.mp
    rw [handoff.paired.length_eq, hcrops]
    rfl
  have hnone : ∀ i r c, ¬ PairAt handoff i r c := by
    rintro i r c ⟨-, hc⟩
    rw [hcrops] at hc
    cases hc
  refine ⟨fun hne => absurd hcrops hne, fun r hr => ?_,
    fun i r c hpair => absurd hpair (hnone i r c), fun i r c hpair => absurd hpair (hnone i r c)⟩
  rw [hrequests] at hr
  cases hr

section Necessary

variable {rt : UnderstandingRuntime} {handoff : CropHandoff} {now : Instant} {ulid : Nat → Ulid}
  {qs : List UnderstandingRequest}

-- What a call under these ids asks and passes on, whatever the models answer at a finite cost.
variable (hdelivery : ∀ answers, Priced answers → ∀ moves,
  (rt.onCrops ⟨ulid, answers, moves⟩ handoff.result handoff.crops).2 = {
    asked := qs
    passed := (results qs (after rt.engine qs answers rt.cache moves)).values.map
      (·.withoutRawOutput) })

include hdelivery

theorem askedOwn_of_everyCropAsked (h : EveryCropAsked rt now handoff (fun _ => .failed))
    (hpossible : ∀ answers, Surroundings.Possible rt now handoff.crops.length
      ⟨ulid, answers, sequential now 0 handoff.crops.length⟩) : AskedOwn handoff qs := by
  intro i r c hpair q hq
  obtain ⟨-, hanswered⟩ := h _ (hpossible (fun _ => .failed)) rfl
  obtain ⟨q', a, hq', -, hasked⟩ := hanswered i r c hpair
  rw [hdelivery _ priced_failed] at hq'
  have hsame : q = q' := some.inj (hq.symm.trans hq')
  rw [hsame]
  exact ⟨hasked.asked, hasked.priority⟩

theorem everyCallOwn_of_everyCropAsked
    (h : ∀ answers, Priced answers → EveryCropAsked rt now handoff answers)
    (hqs : AskedOf ulid handoff qs) (hfresh : Function.Injective ulid) :
    Batch.EveryCallOwn rt.engine qs rt.cache now := by
  intro answers hpriced moves hmoves i q hq
  obtain ⟨-, hpassed⟩ := passed_spec rt.engine answers rt.cache hmoves (hqs.nodup hfresh)
  obtain ⟨a, ha, hget⟩ := hpassed i q hq
  rw [hqs.length] at hmoves
  obtain ⟨-, hanswered⟩ := h answers hpriced ⟨ulid, answers, moves⟩ ⟨hfresh, hmoves⟩ rfl
  obtain ⟨r, c, hpair, -⟩ := hqs.exists_pair hq
  obtain ⟨q', a', hq', hget', hasked⟩ := hanswered i r c hpair
  rw [hdelivery _ hpriced] at hq' hget'
  have hsame : q = q' := some.inj (hq.symm.trans hq')
  -- The result passed on is the call's, without its raw output.
  have hpassed' : a.withoutRawOutput = a' := some.inj (hget.symm.trans hget')
  have hid : a.requestId = a'.requestId := by rw [← hpassed']; rfl
  have hquestion : a.question = a'.question := by rw [← hpassed']; rfl
  refine ⟨a, ha, ?_, ?_⟩
  · rw [hid, hasked.requestId, hsame]
  · rw [hquestion, hasked.answered, ← hasked.asked, hsame]

end Necessary

theorem oneQuestion_of_everyCropAsked (hqueue : rt.queue = [])
    (hfit : handoff.crops.length ≤ rt.maxlen)
    (h : ∀ answers, Priced answers → EveryCropAsked rt now handoff answers) :
    OneQuestion rt now handoff := by
  by_cases hcrops : handoff.crops = []
  · exact oneQuestion_of_nil rt now hcrops
  have hfailed := h _ priced_failed
  have hrunning := running_of_everyCropAsked hqueue hfit hfailed hcrops
  have hpos : 0 < handoff.crops.length := length_pos_of_ne_nil hcrops
  obtain ⟨ulid, hfresh, hpossible⟩ := exists_possible rt now hpos
  obtain ⟨qs, hqs, hdelivery⟩ :=
    onCrops_delivery hqueue hfit hcrops ⟨hrunning.1, hrunning.2.1⟩ ulid
  simp only [if_pos hrunning.2.2] at hdelivery
  have hown := askedOwn_of_everyCropAsked hdelivery hfailed hpossible
  have hconsistent := (everyCallOwn_iff rt.engine qs rt.cache now).mp
    (everyCallOwn_of_everyCropAsked hdelivery h hqs hfresh)
  obtain ⟨hcached, hshared⟩ := (consistent_iff hqs hown rt.engine rt.cache now).mp hconsistent
  exact ⟨fun _ => hrunning, (askedOwn_iff hqs).mp hown, hcached, hshared⟩

theorem everyCropAsked_iff
    (hqueue : rt.queue = []) (hfit : handoff.crops.length ≤ rt.maxlen) :
    (∀ answers, Priced answers → EveryCropAsked rt now handoff answers) ↔
      OneQuestion rt now handoff := by
  refine ⟨oneQuestion_of_everyCropAsked hqueue hfit, fun h answers hpriced => ?_⟩
  refine everyCropAsked_of_consistent hqueue hfit h.running (fun ulid qs hqs => ?_) hpriced
  have hown := (askedOwn_iff hqs).mpr h.perObject
  exact ⟨hown, (consistent_iff hqs hown rt.engine rt.cache now).mpr ⟨h.cached, h.shared⟩⟩

/-- After any calls a runtime built with an empty queue asks every crop of a frame its own
    question, as many crops as its queue holds and whatever the models answer at a finite
    cost, exactly when no two questions meet. -/
theorem frame_asked_iff {rt : UnderstandingRuntime} (hbuilt : rt.queue = [])
    (calls : List RuntimeCall) (f : FrameInput) (now : Instant) :
    ∀ handoff ∈ f.handoff, handoff.crops.length ≤ max 1 rt.queueCapacity →
      ((∀ answers, Priced answers → EveryCropAsked (run step rt calls) now handoff answers) ↔
        OneQuestion (run step rt calls) now handoff) := by
  intro handoff _ hfit
  obtain ⟨hqueue, hcapacity⟩ := idle_run hbuilt calls
  apply everyCropAsked_iff hqueue
  show handoff.crops.length ≤ max 1 (run step rt calls).queueCapacity
  rw [hcapacity]
  exact hfit

/-! ## A worker's helmet and gloves -/

/-- The frame of one worker, of whom `attributes` are wanted: the helmet is seen in the upper
    half of the worker, the gloves in the lower. -/
def workerInput (attributes : List AttributeKey) : FrameInput where
  config := {
    maxCandidatesPerFrame := 8
    evidenceRegions := OrderedDict.ofPairs
      [("helmet", ⟨.finite 0, .finite (1 / 2)⟩), ("gloves", ⟨.finite (1 / 2), .finite (1 / 2)⟩)] }
  frame := ⟨{ cameraId := "north", streamEpoch := 3, frameSeq := 41
              accepted := postInit_eq_ok.mpr ⟨by decide, by decide⟩ }, ⟨7⟩⟩
  objects := [
    { objectId := "worker", tenantId := "tenant", siteId := "site", classId := "person" }]
  policy := .ok [
    { objectId := "worker", reason := some .firstSight, attributes, demandIds := ["ppe"]
      accepted := rfl }]
  Budget := Unit
  trySpend := fun budget _ => (true, budget)
  budget := ()
  lease := .held
    ⟨{ cameraId := "north", streamEpoch := 3, frameSeq := 41
       accepted := postInit_eq_ok.mpr ⟨by decide, by decide⟩ }, ⟨7⟩⟩
  extract := fun request => .passed (String.intercalate "," request.requiredAttributes) {}

/-- A runtime whose one model covers whatever it is asked. -/
def coveringRuntime : UnderstandingRuntime where
  engine := {
    route := fun attributes => { selected := some ⟨"adapter", "model"⟩, covered := attributes }
    resolvePrompt := fun _ _ _ => some ("ppe", "1")
    render := fun promptId version _ => .prompt promptId version
    maxConcurrency := 4
    remoteConcurrency := 2
    maxBatchSize := 8
    maxConcurrency_pos := by decide
    remoteConcurrency_pos := by decide
    maxBatchSize_pos := Nat.pos_of_ne_zero (by decide) }
  enabled := true
  hasSink := true
  queueCapacity := 64
  cache := {
    entries := { entries := ∅, capacity := 16, capacity_pos := Nat.pos_of_ne_zero (by decide) }
    ttl := none
    ttl_nonneg := none_ttl_nonneg }

theorem workerInput_handoff {α : Type} (attributes : List AttributeKey)
    (read : CropRequest → α) (expected : List α)
    (h : (extractAll (workerInput attributes).lease (workerInput attributes).extract
      (workerInput attributes).evaluation).map (fun e => e.fulfilled.map read) = .ok expected) :
    ∃ handoff ∈ (workerInput attributes).handoff,
      handoff.result.requests.map read = expected ∧
        handoff.crops.length = expected.length := by
  cases hextraction : extractAll (workerInput attributes).lease (workerInput attributes).extract
      (workerInput attributes).evaluation with
  | error exc =>
    rw [hextraction] at h
    cases h
  | ok extraction =>
    rw [hextraction] at h
    have hread : extraction.fulfilled.map read = expected := Except.ok.inj h
    obtain ⟨handoff, hhandoff, hresult, -⟩ := FrameInput.exists_handoff hextraction
    have hrequests : handoff.result.requests.map read = expected := by
      rw [hresult]
      exact hread
    refine ⟨handoff, hhandoff, hrequests, ?_⟩
    rw [← handoff.paired.length_eq, ← hrequests, length_map]

/-- The worker of whom only the helmet is wanted is asked for just that. -/
theorem worker_asked_helmet :
    ∃ handoff ∈ (workerInput ["helmet"]).handoff, handoff.crops.length = 1 ∧
      ∀ answers, Priced answers →
        EveryCropAsked (run step coveringRuntime [.start]) ⟨0⟩ handoff answers := by
  obtain ⟨handoff, hhandoff, hrequests, hlength⟩ :=
    workerInput_handoff ["helmet"] (·.requiredAttributes) [["helmet"]] (by decide +kernel)
  refine ⟨handoff, hhandoff, hlength, ?_⟩
  have hone : ∀ i r c, PairAt handoff i r c → i = 0 := by
    intro i r c hpair
    have hi : i < handoff.crops.length := (List.getElem?_eq_some_iff.mp hpair.2).1
    rw [hlength, length_singleton] at hi
    omega
  have hsame : ∀ r ∈ handoff.result.requests, ∀ r' ∈ handoff.result.requests, r = r' := by
    intro r hr r' hr'
    obtain ⟨i, c, hpair⟩ := exists_pairAt hr
    obtain ⟨j, c', hpair'⟩ := exists_pairAt hr'
    have hat := hpair.1
    rw [hone i r c hpair, ← hone j r' c' hpair', hpair'.1] at hat
    exact (Option.some.inj hat).symm
  refine (frame_asked_iff rfl [.start] (workerInput ["helmet"]) ⟨0⟩ handoff hhandoff ?_).mpr ?_
  · rw [hlength]
    decide
  · refine ⟨fun _ => ⟨rfl, rfl, rfl⟩, fun r hr r' hr' _ => ?_,
      fun i r c _ key _ a ha => ?_, fun i r c hpair j r' c' hpair' _ _ _ => ?_⟩
    · rw [hsame r hr r' hr']
      exact ⟨rfl, rfl, rfl⟩
    · -- The cache is empty.
      cases ha
    · rw [hsame r hpair.mem r' hpair'.mem]

/-- The worker of whom helmet and gloves are wanted makes two crops, and they are not both
    asked their own question: the request made last stands for both. -/
theorem worker_not_asked_helmet :
    ∃ handoff ∈ (workerInput ["helmet", "gloves"]).handoff, handoff.crops.length = 2 ∧
      ¬ ∀ answers, Priced answers →
        EveryCropAsked (run step coveringRuntime [.start]) ⟨0⟩ handoff answers := by
  obtain ⟨handoff, hhandoff, hrequests, hlength⟩ :=
    workerInput_handoff ["helmet", "gloves"] (fun r => (r.objectId, r.requiredAttributes))
      [("worker", ["helmet"]), ("worker", ["gloves"])] (by decide +kernel)
  refine ⟨handoff, hhandoff, hlength, fun hasked => ?_⟩
  have hfit : handoff.crops.length ≤
      (run step coveringRuntime [.start]).maxlen := by
    rw [hlength]
    decide
  have hquestion := (everyCropAsked_iff rfl hfit).mp hasked
  -- The two requests are of one object and ask for different attributes.
  obtain ⟨helmet, rest, hcons, hread, hrest⟩ := map_eq_cons_iff.mp hrequests
  obtain ⟨gloves, rest', hcons', hread', -⟩ := map_eq_cons_iff.mp hrest
  have hhelmet : helmet ∈ handoff.result.requests := by simp [hcons]
  have hgloves : gloves ∈ handoff.result.requests := by simp [hcons, hcons']
  have hobject : helmet.objectId = gloves.objectId :=
    (congrArg Prod.fst hread).trans (congrArg Prod.fst hread').symm
  obtain ⟨hattributes, -, -⟩ := hquestion.perObject helmet hhelmet gloves hgloves hobject
  have hwanted : ["helmet"] = ["gloves"] :=
    calc ["helmet"] = helmet.requiredAttributes := (congrArg Prod.snd hread).symm
      _ = gloves.requiredAttributes := hattributes
      _ = ["gloves"] := congrArg Prod.snd hread'
  exact absurd hwanted (by decide)

end VisionOs.Understanding
