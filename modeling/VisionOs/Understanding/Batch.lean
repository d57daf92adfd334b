/-
  `plan_batches` and `understand_batch`: the requests of a batch run on a pool of
  workers and share the cache, each in two steps.  Under every interleaving every
  request gets a result.
-/
import VisionOs.Lib.Runs
import VisionOs.Understanding.Engine

namespace VisionOs.Understanding

open Core Cropping Lib WorkerPool List Nat Function OrderedDict

/-- Requests that may be sent to a model together. -/
structure BatchGroup where
  adapterId : String
  promptPinned : String
  indices : List Nat
  deriving DecidableEq

def slices (size : Nat) (indices : List Nat) : List (List Nat) :=
  (List.range ((indices.length + size - 1) / size)).map
    (fun i => (indices.drop (i * size)).take size)

def groupForBatching (keys : List (String × String)) (maxBatchSize : Nat) :
    Raises (List BatchGroup) := do
  require (¬ maxBatchSize < 1) (.valueError "max_batch_size must be >= 1")
  let buckets : OrderedDict (String × String) (List Nat) := keys.zipIdx.foldl
    (fun buckets e => buckets.set e.1 ((buckets.get? e.1).getD [] ++ [e.2])) ∅
  return buckets.entries.flatMap fun e =>
    (slices maxBatchSize e.2).map (fun indices => ⟨e.1.1, e.1.2, indices⟩)

def batchKey (engine : UnderstandingEngine) (q : UnderstandingRequest) : String × String :=
  match (engine.route q.requestedAttributes).selected with
  | none => ("", "")
  | some bound =>
    match engine.resolvePrompt q.requestedAttributes q.classId bound.modelId with
    | none => (bound.adapterId, "")
    | some (promptId, version) => (bound.adapterId, s!"{promptId}@{version}")

def planBatches (engine : UnderstandingEngine) (requests : List UnderstandingRequest) :
    Raises (List BatchGroup) :=
  groupForBatching (requests.map (batchKey engine)) engine.maxBatchSize

theorem planBatches_ok (engine : UnderstandingEngine) (requests : List UnderstandingRequest) :
    ∃ groups, planBatches engine requests = .ok groups := by
  have hpos : ¬ engine.maxBatchSize < 1 := by
    have := engine.maxBatchSize_pos
    omega
  refine ⟨_, bind_eq_ok.mpr ⟨(), require_eq_ok.mpr hpos, rfl⟩⟩

/-! ## The calls of a batch -/

inductive CallState where
  | waiting
  | invoking (key : CacheKey)
  | returned (result : UnderstandingResult)

def CallState.rank : CallState → Nat
  | .waiting => 0
  | .invoking _ => 1
  | .returned _ => 2

/-- The calls of a batch and the cache they share. -/
structure Batch where
  cache : ResponseCache
  calls : Nat → CallState

namespace Batch

variable (engine : UnderstandingEngine) (requests : List UnderstandingRequest)
  (answers : Nat → ModelAnswer)

def setCall (s : Batch) (i : Nat) (c : CallState) : Batch :=
  { s with calls := update s.calls i c }

@[simp] theorem setCall_cache (s : Batch) (i : Nat) (c : CallState) :
    (s.setCall i c).cache = s.cache := rfl

/-- One step of one call, at an instant: the lookup, or the return with the model's
    answer. -/
def step (s : Batch) (m : Move Instant) : Batch :=
  match requests[m.call]? with
  | none => s
  | some q =>
    match s.calls m.call with
    | .waiting =>
      match engine.lookupOf q with
      | .fails outcome h => s.setCall m.call (.returned (failed q outcome h))
      | .keyed key =>
        let (cache, found) := s.cache.get key m.reading
        match found with
        | some cached => { s with cache }.setCall m.call (.returned (fromCache q cached))
        | none => { s with cache }.setCall m.call (.invoking key)
    | .invoking key =>
      let result := interpret q (answers m.call)
      let cache :=
        if result.outcome.isFailure then s.cache else s.cache.put key result m.reading
      { s with cache }.setCall m.call (.returned result)
    | .returned _ => s

/-- A move begins a call, ends one, or does nothing. -/
theorem step_cases (s : Batch) (m : Move Instant) :
    (step engine requests answers s m = s ∧
      (requests[m.call]? = none ∨ ∃ r, s.calls m.call = .returned r)) ∨
    (∃ q outcome h, requests[m.call]? = some q ∧ s.calls m.call = .waiting ∧
      engine.lookupOf q = .fails outcome h ∧
      step engine requests answers s m = s.setCall m.call (.returned (failed q outcome h))) ∨
    (∃ q key, requests[m.call]? = some q ∧ s.calls m.call = .waiting ∧
      engine.lookupOf q = .keyed key ∧
      step engine requests answers s m =
        { s with cache := (s.cache.get key m.reading).1 }.setCall m.call
          (match s.cache.answers key m.reading with
            | some cached => .returned (fromCache q cached)
            | none => .invoking key)) ∨
    (∃ q key, requests[m.call]? = some q ∧ s.calls m.call = .invoking key ∧
      step engine requests answers s m =
        { s with cache := s.cache.put key (interpret q (answers m.call)) m.reading }.setCall m.call
          (.returned (interpret q (answers m.call)))) := by
  unfold step
  cases hq : requests[m.call]? with
  | none => exact .inl ⟨rfl, .inl rfl⟩
  | some q =>
    cases hcall : s.calls m.call with
    | waiting =>
      dsimp only
      cases hlookup : engine.lookupOf q with
      | fails outcome h => exact .inr (.inl ⟨q, outcome, h, rfl, rfl, hlookup, rfl⟩)
      | keyed key =>
        refine .inr (.inr (.inl ⟨q, key, rfl, rfl, hlookup, ?_⟩))
        unfold ResponseCache.answers
        dsimp only
        cases (s.cache.get key m.reading).2 <;> rfl
    | invoking key =>
      refine .inr (.inr (.inr ⟨q, key, rfl, rfl, ?_⟩))
      dsimp only
      split
      · rename_i hfailure
        rw [ResponseCache.put_of_failure hfailure]
      · rfl
    | returned r => exact .inl ⟨rfl, .inr ⟨r, rfl⟩⟩

variable {m : Move Instant} {i : Nat}

theorem calls_step_of_ne (s : Batch) (h : i ≠ m.call) :
    (step engine requests answers s m).calls i = s.calls i := by
  have hset : ∀ (s' : Batch) c, s'.calls = s.calls → (s'.setCall m.call c).calls i = s.calls i := by
    intro s' c hcalls
    show update s'.calls m.call c i = s.calls i
    rw [update_of_ne h, hcalls]
  rcases step_cases engine requests answers s m with
    ⟨hstep, -⟩ | ⟨_, _, _, -, -, -, hstep⟩ | ⟨_, _, -, -, -, hstep⟩ | ⟨_, _, -, -, hstep⟩
  · rw [hstep]
  · rw [hstep]
    exact hset s _ rfl
  · rw [hstep]
    exact hset _ _ rfl
  · rw [hstep]
    exact hset _ _ rfl

theorem rank_step_self (s : Batch) (hcall : m.call < requests.length)
    (hrank : (s.calls m.call).rank < 2) :
    (s.calls m.call).rank < ((step engine requests answers s m).calls m.call).rank := by
  have hset : ∀ (s' : Batch) c, (s'.setCall m.call c).calls m.call = c :=
    fun s' c => update_self _ _ _
  rcases step_cases engine requests answers s m with
    ⟨-, hnone | ⟨r, hreturned⟩⟩ | ⟨_, _, _, -, hwaiting, -, hstep⟩ |
    ⟨q, key, -, hwaiting, -, hstep⟩ | ⟨q, key, -, hinvoking, hstep⟩
  · rw [getElem?_eq_none_iff] at hnone
    omega
  · rw [hreturned] at hrank
    simp [CallState.rank] at hrank
  · rw [hstep, hset, hwaiting]
    simp [CallState.rank]
  · rw [hstep, hset, hwaiting]
    split <;> simp [CallState.rank]
  · rw [hstep, hset, hinvoking]
    simp [CallState.rank]

theorem calls_step_of_returned (s : Batch) {r : UnderstandingResult}
    (h : s.calls i = .returned r) :
    (step engine requests answers s m).calls i = .returned r := by
  by_cases hi : i = m.call
  · subst hi
    have hsame : step engine requests answers s m = s := by
      unfold step
      cases requests[m.call]? with
      | none => rfl
      | some q =>
        rw [h]
    rw [hsame, h]
  · rw [calls_step_of_ne engine requests answers s hi, h]

theorem rank_step (s : Batch) (m : Move Instant) (i : Nat) :
    (s.calls i).rank ≤ ((step engine requests answers s m).calls i).rank := by
  by_cases hi : i = m.call
  · subst hi
    cases hcall : s.calls m.call with
    | returned r => rw [calls_step_of_returned engine requests answers s hcall]
    | waiting => exact zero_le _
    | invoking key =>
      by_cases hlt : m.call < requests.length
      · have := rank_step_self engine requests answers s hlt (by rw [hcall]; exact one_lt_two)
        rw [hcall] at this
        omega
      · have hnone : requests[m.call]? = none := getElem?_eq_none_iff.mpr (by omega)
        have hsame : step engine requests answers s m = s := by
          unfold step
          rw [hnone]
        rw [hsame, hcall]
  · rw [calls_step_of_ne engine requests answers s hi]

def start (cache : ResponseCache) : Batch := ⟨cache, fun _ => .waiting⟩

/-- The batch after the moves of an interleaving. -/
abbrev after (cache : ResponseCache) (moves : List (Move Instant)) : Batch :=
  Runs.run (step engine requests answers) (start cache) moves

theorem all_returned {workers : Nat} {Valid : Instant → Prop} {moves : List (Move Instant)}
    (h : Interleaving workers requests.length Valid (fun _ => 0) moves) (cache : ResponseCache) :
    ∀ i < requests.length, ∃ r, (after engine requests answers cache moves).calls i = .returned r := by
  have hrank : ∀ i < requests.length,
      2 ≤ ((after engine requests answers cache moves).calls i).rank :=
    Interleaving.progress (fun s i => (s.calls i).rank)
      (fun s m i => rank_step engine requests answers s m i)
      (fun s m hcall hlow => rank_step_self engine requests answers s hcall hlow)
      h (fun i _ => zero_le _)
  intro i hi
  have htwo := hrank i hi
  cases hcall : (after engine requests answers cache moves).calls i with
  | returned r => exact ⟨r, rfl⟩
  | waiting =>
    rw [hcall] at htwo
    simp [CallState.rank] at htwo
  | invoking key =>
    rw [hcall] at htwo
    simp [CallState.rank] at htwo

/-- Every answer of a model costs a finite number of units. -/
def Priced (answers : Nat → ModelAnswer) : Prop :=
  ∀ i accepted cost raw, answers i = .interpreted accepted cost raw → ∃ units, cost = .finite units

/-- What the calls returned so far costs finite numbers of units. -/
def Countable (s : Batch) : Prop :=
  ∀ i r, s.calls i = .returned r → ∃ units, r.costUnits = .finite units

variable {answers}

theorem costUnits_interpret (h : Priced answers) (q : UnderstandingRequest) (i : Nat) :
    ∃ units, (interpret q (answers i)).costUnits = .finite units := by
  cases hanswer : answers i with
  | failed => exact ⟨0, rfl⟩
  | refused raw => exact ⟨0, rfl⟩
  | interpreted accepted cost raw =>
    obtain ⟨units, hunits⟩ := h i accepted cost raw hanswer
    refine ⟨units, ?_⟩
    cases accepted <;> exact hunits

variable {s : Batch}

theorem countable_step (hpriced : Priced answers) (h : Countable s)
    (m : Move Instant) : Countable (step engine requests answers s m) := by
  -- One call is set; what it returns, if anything, is priced.
  have hset : ∀ (s' : Batch) c, s'.calls = s.calls →
      (∀ r, c = .returned r → ∃ units, r.costUnits = .finite units) →
      Countable (s'.setCall m.call c) := by
    intro s' c hcalls hc i r hr
    have hcall : (s'.setCall m.call c).calls i = if i = m.call then c else s.calls i := by
      show update s'.calls m.call c i = _
      rw [update_apply, hcalls]
    rw [hcall] at hr
    split at hr
    · exact hc r hr
    · exact h i r hr
  rcases step_cases engine requests answers s m with
    ⟨hstep, -⟩ | ⟨q, outcome, hne, -, -, -, hstep⟩ | ⟨q, key, -, -, -, hstep⟩ |
    ⟨q, key, -, -, hstep⟩
  · rw [hstep]
    exact h
  · rw [hstep]
    apply hset s _ rfl
    rintro _ ⟨⟩
    exact ⟨0, rfl⟩
  · rw [hstep]
    apply hset _ _ rfl
    intro r hr
    cases hanswer : s.cache.answers key m.reading with
    | some cached =>
      rw [hanswer] at hr
      cases hr
      exact ⟨0, rfl⟩
    | none =>
      rw [hanswer] at hr
      cases hr
  · rw [hstep]
    apply hset _ _ rfl
    rintro _ ⟨⟩
    exact costUnits_interpret hpriced q m.call

theorem countable_after (hpriced : Priced answers) (cache : ResponseCache)
    (moves : List (Move Instant)) : Countable (after engine requests answers cache moves) :=
  @Runs.run_invariant _ _ _ Countable (fun _ m hs => countable_step engine requests hpriced hs m)
    (start cache) (fun i r hr => (by cases hr)) moves

def resultPairs (s : Batch) : Nat → List UnderstandingRequest → List (Ulid × UnderstandingResult)
  | _, [] => []
  | i, q :: rest =>
    match s.calls i with
    | .returned r => (q.requestId, r) :: resultPairs s (i + 1) rest
    | _ => resultPairs s (i + 1) rest

/-- `understand_batch`'s mapping from request ids to results. -/
def results (s : Batch) : OrderedDict Ulid UnderstandingResult :=
  ofPairs (resultPairs s 0 requests)

theorem resultPairs_spec {s : Batch} {i : Nat} {requests : List UnderstandingRequest}
    (h : ∀ k < requests.length, ∃ r, s.calls (i + k) = .returned r) :
    (resultPairs s i requests).map Prod.fst = requests.map (·.requestId) ∧
    ∀ k q, requests[k]? = some q → ∃ r, s.calls (i + k) = .returned r ∧
      (resultPairs s i requests)[k]? = some (q.requestId, r) := by
  induction requests generalizing i with
  | nil => exact ⟨rfl, fun k q hq => by cases hq⟩
  | cons q rest ih =>
    obtain ⟨r, hr⟩ := h 0 (zero_lt_succ _)
    rw [add_zero] at hr
    obtain ⟨hids, hresults⟩ := @ih (i + 1) (fun k hk => by
      have := h (k + 1) (succ_lt_succ hk)
      rwa [← add_assoc, add_right_comm] at this)
    have hpairs : resultPairs s i (q :: rest) = (q.requestId, r) :: resultPairs s (i + 1) rest := by
      rw [resultPairs, hr]
    rw [hpairs]
    refine ⟨?_, fun k q' hq' => ?_⟩
    · rw [map_cons, map_cons, hids]
    · cases k with
      | zero =>
        cases hq'
        exact ⟨r, hr, rfl⟩
      | succ k =>
        obtain ⟨r', hr', hget⟩ := hresults k q' hq'
        refine ⟨r', ?_, hget⟩
        rwa [add_right_comm, add_assoc] at hr'

theorem results_spec (h : ∀ i < requests.length, ∃ r, s.calls i = .returned r)
    (hids : (requests.map (·.requestId)).Nodup) :
    (results requests s).values.length = requests.length ∧
    ∀ i q, requests[i]? = some q → ∃ r, s.calls i = .returned r ∧
      (results requests s).values[i]? = some r := by
  obtain ⟨hkeys, hresults⟩ := @resultPairs_spec s 0 requests (fun k hk => by
    rw [zero_add]
    exact h k hk)
  have hentries : (results requests s).entries = resultPairs s 0 requests :=
    entries_ofPairs (hkeys ▸ hids)
  unfold values
  rw [hentries]
  constructor
  · have hlength := congrArg List.length hkeys
    rw [length_map, length_map] at hlength
    rw [length_map, hlength]
  · intro i q hq
    obtain ⟨r, hr, hget⟩ := hresults i q hq
    rw [zero_add] at hr
    refine ⟨r, hr, ?_⟩
    rw [getElem?_map, hget]
    rfl

theorem mem_resultPairs {requests : List UnderstandingRequest}
    {e : Ulid × UnderstandingResult} (h : e ∈ resultPairs s i requests) :
    ∃ k, s.calls k = .returned e.2 := by
  induction requests generalizing i with
  | nil => cases h
  | cons q rest ih =>
    rw [resultPairs] at h
    split at h
    · rename_i r hr
      rcases mem_cons.mp h with rfl | hmem
      · exact ⟨i, hr⟩
      · exact ih hmem
    · exact ih h

theorem countable_results (h : Countable s) :
    ∀ r ∈ (results requests s).values, ∃ units, r.costUnits = .finite units := by
  intro r hr
  obtain ⟨id, hid⟩ := mem_values.mp hr
  obtain ⟨k, hk⟩ := mem_resultPairs (mem_of_get?_ofPairs hid)
  exact h k r hk

end Batch

end VisionOs.Understanding
