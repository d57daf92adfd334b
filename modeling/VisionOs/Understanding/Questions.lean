/-
  Whose question a result answers: its own request's, unless a request of the batch or the cache
  has the same key and another question.
-/
import VisionOs.Understanding.Batch

namespace VisionOs.Understanding

open Core Cropping Lib WorkerPool Runs List ResponseCache Function

namespace Batch

variable (engine : UnderstandingEngine) (requests : List UnderstandingRequest)
  (answers : Nat → ModelAnswer)

/-! ## The questions of the results -/

/-- No request of the batch, and nothing the cache answers at an instant, has the key of a
    request and another question. -/
structure Consistent (cache : ResponseCache) (now : Instant) : Prop where
  cached : ∀ q ∈ requests, ∀ key, engine.lookupOf q = .keyed key →
    ∀ r, cache.answers key now = some r → r.question = q.question
  shared : ∀ q ∈ requests, ∀ q' ∈ requests, ∀ key, engine.lookupOf q = .keyed key →
    engine.lookupOf q' = .keyed key → q.question = q'.question

structure OwnQuestions (now : Instant) (s : Batch) : Prop where
  returned : ∀ i r, s.calls i = .returned r →
    ∃ q, requests[i]? = some q ∧ r.requestId = q.requestId ∧ r.question = q.question
  invoking : ∀ i key, s.calls i = .invoking key →
    ∃ q, requests[i]? = some q ∧ engine.lookupOf q = .keyed key
  cached : ∀ q ∈ requests, ∀ key, engine.lookupOf q = .keyed key →
    ∀ r, s.cache.answers key now = some r → r.question = q.question

variable {now : Instant} {s : Batch} {call : Nat}

theorem OwnQuestions.setCall {s' : Batch} {c : CallState}
    (h : OwnQuestions engine requests now s) (hcalls : s'.calls = s.calls)
    (hreturned : ∀ r, c = .returned r →
      ∃ q, requests[call]? = some q ∧ r.requestId = q.requestId ∧ r.question = q.question)
    (hinvoking : ∀ key, c = .invoking key →
      ∃ q, requests[call]? = some q ∧ engine.lookupOf q = .keyed key)
    (hcached : ∀ q ∈ requests, ∀ key, engine.lookupOf q = .keyed key →
      ∀ r, s'.cache.answers key now = some r → r.question = q.question) :
    OwnQuestions engine requests now (s'.setCall call c) := by
  have hcall : ∀ i, (s'.setCall call c).calls i = if i = call then c else s.calls i := by
    intro i
    show update s'.calls call c i = _
    rw [update_apply, hcalls]
  refine ⟨fun i r hr => ?_, fun i key hkey => ?_, hcached⟩
  · rw [hcall] at hr
    by_cases hi : i = call
    · rw [if_pos hi] at hr
      rw [hi]
      exact hreturned r hr
    · rw [if_neg hi] at hr
      exact h.returned i r hr
  · rw [hcall] at hkey
    by_cases hi : i = call
    · rw [if_pos hi] at hkey
      rw [hi]
      exact hinvoking key hkey
    · rw [if_neg hi] at hkey
      exact h.invoking i key hkey

variable {q : UnderstandingRequest} {later : Instant} {key : CacheKey}

theorem OwnQuestions.lookup
    (h : OwnQuestions engine requests now s) (hlater : now.ns ≤ later.ns) (hq : requests[call]? = some q)
    (hlookup : engine.lookupOf q = .keyed key) :
    OwnQuestions engine requests now
      ({ s with cache := (s.cache.get key later).1 }.setCall call
        (match s.cache.answers key later with
          | some cached => .returned (fromCache q cached)
          | none => .invoking key)) := by
  apply h.setCall
  · rfl
  · intro r hr
    cases hanswer : s.cache.answers key later with
    | none =>
      rw [hanswer] at hr
      cases hr
    | some cached =>
      rw [hanswer] at hr
      cases hr
      have hearlier := answers_earlier hlater hanswer
      exact ⟨q, hq, rfl, h.cached q (mem_of_getElem? hq) key hlookup cached hearlier⟩
  · intro key' hkey
    cases hanswer : s.cache.answers key later with
    | none =>
      rw [hanswer] at hkey
      cases hkey
      exact ⟨q, hq, hlookup⟩
    | some cached =>
      rw [hanswer] at hkey
      cases hkey
  · intro q' hq' key' hkey' r hr
    exact h.cached q' hq' key' hkey' r (answers_of_get hr)

variable {cache : ResponseCache}

theorem OwnQuestions.answered (hconsistent : Consistent engine requests cache now)
    (h : OwnQuestions engine requests now s)
    (hq : requests[call]? = some q) (hlookup : engine.lookupOf q = .keyed key) :
    OwnQuestions engine requests now
      ({ s with cache := s.cache.put key (interpret q (answers call)) later }.setCall call
        (.returned (interpret q (answers call)))) := by
  have hmem : q ∈ requests := mem_of_getElem? hq
  apply h.setCall
  · rfl
  · intro r hr
    cases hr
    exact ⟨q, hq, requestId_interpret q _, question_interpret q _⟩
  · intro key' hkey
    cases hkey
  · intro q' hq' key' hkey' r hr
    rcases answers_of_put hr with ⟨hkey, hresult⟩ | hbefore
    · rw [hkey] at hkey'
      rw [hresult, question_withoutRawOutput, question_interpret]
      exact hconsistent.shared q hmem q' hq' key hlookup hkey'
    · exact h.cached q' hq' key' hkey' r hbefore

variable {m : Move Instant}

theorem ownQuestions_step (hconsistent : Consistent engine requests cache now)
    (h : OwnQuestions engine requests now s) (hlater : now.ns ≤ m.reading.ns) :
    OwnQuestions engine requests now (step engine requests answers s m) := by
  rcases step_cases engine requests answers s m with
    ⟨hstep, -⟩ | ⟨q, outcome, hne, hq, -, -, hstep⟩ | ⟨q, key, hq, -, hlookup, hstep⟩ |
    ⟨q, key, hq, hcall, hstep⟩
  · rw [hstep]
    exact h
  · rw [hstep]
    apply h.setCall engine requests rfl
    · intro r hr
      cases hr
      exact ⟨q, hq, rfl, rfl⟩
    · intro key hkey
      cases hkey
    · exact h.cached
  · rw [hstep]
    exact h.lookup engine requests hlater hq hlookup
  · rw [hstep]
    obtain ⟨q', hq', hlookup⟩ := h.invoking m.call key hcall
    rw [hq] at hq'
    rw [← Option.some.inj hq'] at hlookup
    exact h.answered engine requests answers hconsistent hq hlookup

/-! ## The batch that goes wrong -/

/-- Every call fails at once. -/
def Quiet (now : Instant) (moves : List (Move Instant)) : Prop :=
  ∀ m ∈ moves, m.reading = now ∧ answers m.call = .failed

theorem answers_step_of_failed (s : Batch) (hfailed : answers m.call = .failed) (key : CacheKey) :
    (step engine requests answers s m).cache.answers key m.reading =
      s.cache.answers key m.reading := by
  rcases step_cases engine requests answers s m with
    ⟨hstep, -⟩ | ⟨_, _, _, -, -, -, hstep⟩ | ⟨q, key', -, -, -, hstep⟩ | ⟨q, key', -, -, hstep⟩
  · rw [hstep]
  · rw [hstep]
    rfl
  · rw [hstep]
    exact answers_get s.cache key' key m.reading
  · rw [hstep, setCall_cache, hfailed]
    have hsame : s.cache.put key' (interpret q .failed) m.reading = s.cache :=
      put_of_failure rfl
    rw [hsame]

theorem run_quiet {moves : List (Move Instant)} (hquiet : Quiet answers now moves) (s : Batch) :
    (∀ key, (run (step engine requests answers) s moves).cache.answers key now =
      s.cache.answers key now) ∧
    (∀ i, (∀ m ∈ moves, i ≠ m.call) →
      (run (step engine requests answers) s moves).calls i = s.calls i) := by
  induction moves generalizing s with
  | nil => exact ⟨fun _ => rfl, fun _ _ => rfl⟩
  | cons m rest ih =>
    obtain ⟨hreading, hfailed⟩ := hquiet m (by simp)
    obtain ⟨hcache, hcalls⟩ := ih (fun m' hm' => hquiet m' (mem_cons_of_mem _ hm'))
      (step engine requests answers s m)
    constructor
    · intro key
      have hone := answers_step_of_failed engine requests answers s hfailed key
      rw [hreading] at hone
      rw [run_cons, hcache, hone]
    · intro i hi
      rw [run_cons, hcalls i (fun m' hm' => hi m' (mem_cons_of_mem _ hm')),
        calls_step_of_ne engine requests answers s (hi m (by simp))]

variable {i : Nat}

variable {cached : UnderstandingResult}

theorem calls_of_hit (hq : requests[i]? = some q)
    (hwaiting : s.calls i = .waiting) (hlookup : engine.lookupOf q = .keyed key)
    (hcached : s.cache.answers key now = some cached) :
    (step engine requests answers s ⟨i, now⟩).calls i = .returned (fromCache q cached) := by
  have hfound : (s.cache.get key now).2 = some cached := hcached
  unfold step
  simp only [hq, hwaiting, hlookup, hfound]
  exact update_self _ _ _

theorem cache_of_invoking
    (hq : requests[i]? = some q) (hcall : s.calls i = .invoking key)
    (hanswer : (interpret q (answers i)).outcome.isFailure = false) :
    (step engine requests answers s ⟨i, now⟩).cache =
      s.cache.put key (interpret q (answers i)) now := by
  unfold step
  simp only [hq, hcall, hanswer]
  rfl

theorem answers_of_miss
    (hq : requests[i]? = some q) (hwaiting : s.calls i = .waiting)
    (hlookup : engine.lookupOf q = .keyed key) (hmiss : s.cache.answers key now = none)
    (hanswer : (interpret q (answers i)).outcome.isFailure = false) :
    (run (step engine requests answers) s [⟨i, now⟩, ⟨i, now⟩]).cache.answers key now =
      some (interpret q (answers i)).withoutRawOutput := by
  have hfound : (s.cache.get key now).2 = none := hmiss
  have hfirst : step engine requests answers s ⟨i, now⟩ =
      { s with cache := (s.cache.get key now).1 }.setCall i (.invoking key) := by
    unfold step
    simp only [hq, hwaiting, hlookup, hfound]
  have hcall : (step engine requests answers s ⟨i, now⟩).calls i = .invoking key := by
    rw [hfirst]
    exact update_self _ _ _
  rw [run_cons, run_cons, run_nil,
    cache_of_invoking engine requests answers hq hcall hanswer]
  exact answers_put hanswer

theorem run_of_returned {r : UnderstandingResult}
    (h : s.calls i = .returned r) (moves : List (Move Instant)) :
    (run (step engine requests answers) s moves).calls i = .returned r :=
  @run_invariant _ _ _ (fun s : Batch => s.calls i = .returned r)
    (fun s _ hs => calls_step_of_returned engine requests answers s hs) s h moves

variable {n : Nat}

theorem sequential_split (now : Instant) (h : i < n) : sequential now 0 n =
      sequential now 0 i ++ ([⟨i, now⟩, ⟨i, now⟩] ++ sequential now (i + 1) (n - i - 1)) := by
  have hn : n = i + (n - i - 1 + 1) := by omega
  rw [hn, sequential_add, Nat.zero_add, sequential_succ]
  have hrest : i + (n - i - 1 + 1) - i - 1 = n - i - 1 := by omega
  rw [hrest]

variable {j : Nat}

theorem sequential_split_two (now : Instant) (hij : i < j) (hj : j < n) : sequential now 0 n =
      sequential now 0 i ++ ([⟨i, now⟩, ⟨i, now⟩] ++ (sequential now (i + 1) (j - i - 1) ++
        (⟨j, now⟩ :: ⟨j, now⟩ :: sequential now (j + 1) (n - j - 1)))) := by
  have hlength : n - i - 1 = (j - i - 1) + ((n - j - 1) + 1) := by omega
  have hnext : i + 1 + (j - i - 1) = j := by omega
  rw [sequential_split now (Nat.lt_trans hij hj), hlength, sequential_add, sequential_succ, hnext]
  rfl

theorem quiet_sequential {start count : Nat}
    (h : ∀ i, start ≤ i → i < start + count → answers i = .failed) :
    Quiet answers now (sequential now start count) := by
  intro m hm
  obtain ⟨hlow, hhigh, hreading⟩ := call_of_mem_sequential hm
  exact ⟨hreading, h m.call hlow hhigh⟩

theorem returned_of_cached
    (hq : requests[i]? = some q) (hlookup : engine.lookupOf q = .keyed key)
    (hcached : cache.answers key now = some cached) :
    (after engine requests (fun _ => .failed) cache (sequential now 0 requests.length)).calls i =
      .returned (fromCache q cached) := by
  have hi : i < requests.length := by
    have := List.getElem?_eq_some_iff.mp hq
    exact this.1
  have hquiet : Quiet (fun _ => .failed) now (sequential now 0 i) :=
    quiet_sequential _ (fun _ _ _ => rfl)
  obtain ⟨hanswers, hcalls⟩ :=
    run_quiet engine requests (fun _ => .failed) hquiet (start cache)
  have hwaiting := hcalls i (fun m hm => by
    have := (call_of_mem_sequential hm).2.1
    omega)
  have hhit := calls_of_hit engine requests (fun _ => .failed) hq hwaiting hlookup
    ((hanswers key).trans hcached)
  unfold after
  rw [sequential_split now hi, run_append, List.cons_append, run_cons]
  exact run_of_returned engine requests _ hhit _

variable {q' : UnderstandingRequest}

/-- A later request of a shared key is answered from what the earlier one stored. -/
theorem returned_of_shared (hij : i < j) (hq : requests[i]? = some q)
    (hq' : requests[j]? = some q') (hlookup : engine.lookupOf q = .keyed key)
    (hlookup' : engine.lookupOf q' = .keyed key) (hmiss : cache.answers key now = none) :
    ∃ answers, Priced answers ∧
      (after engine requests answers cache (sequential now 0 requests.length)).calls j =
        .returned (fromCache q' (interpret q (.interpreted [] (.finite 0) [])).withoutRawOutput) := by
  -- Call `i` gets an answer without attributes, which is no failure.
  let answers : Nat → ModelAnswer := fun k =>
    if k = i then .interpreted [] (.finite 0) [] else .failed
  have hanswer : answers i = .interpreted [] (.finite 0) [] := if_pos rfl
  have hfailed : ∀ k, k ≠ i → answers k = .failed := fun k hk => if_neg hk
  have hpriced : Priced answers := by
    intro k accepted cost raw hk
    by_cases hki : k = i
    · rw [hki, hanswer] at hk
      cases hk
      exact ⟨0, rfl⟩
    · rw [hfailed k hki] at hk
      cases hk
  have hj : j < requests.length := (List.getElem?_eq_some_iff.mp hq').1
  have hbefore : Quiet answers now (sequential now 0 i) :=
    quiet_sequential _ (fun k _ hk => hfailed k (by omega))
  have hbetween : Quiet answers now (sequential now (i + 1) (j - i - 1)) :=
    quiet_sequential _ (fun k hk _ => hfailed k (by omega))
  -- Up to call `i` nothing changes.
  obtain ⟨hcache₁, hcalls₁⟩ := run_quiet engine requests answers hbefore (start cache)
  generalize hs₁ : run (step engine requests answers) (start cache) (sequential now 0 i) = s₁
    at hcache₁ hcalls₁
  have hwaiting : ∀ k, i ≤ k → s₁.calls k = .waiting := by
    intro k hk
    refine hcalls₁ k (fun m hm => ?_)
    have := (call_of_mem_sequential hm).2.1
    omega
  -- Call `i` misses and writes its result.
  have hwrites := answers_of_miss engine requests answers hq (hwaiting i (le_refl i)) hlookup
    ((hcache₁ key).trans hmiss) (by rw [hanswer]; rfl)
  rw [hanswer] at hwrites
  have hstill : (run (step engine requests answers) s₁ [⟨i, now⟩, ⟨i, now⟩]).calls j =
      .waiting := by
    rw [run_cons, run_cons, run_nil,
      calls_step_of_ne engine requests answers _ (by show j ≠ i; omega),
      calls_step_of_ne engine requests answers _ (by show j ≠ i; omega)]
    exact hwaiting j (by omega)
  generalize hs₂ : run (step engine requests answers) s₁ [⟨i, now⟩, ⟨i, now⟩] = s₂
    at hwrites hstill
  -- Between the two calls nothing changes.
  obtain ⟨hcache₃, hcalls₃⟩ := run_quiet engine requests answers hbetween s₂
  have hwaiting₃ := (hcalls₃ j (fun m hm => by
    have := (call_of_mem_sequential hm).2.1
    omega)).trans hstill
  have hhit := calls_of_hit engine requests answers hq' hwaiting₃ hlookup'
    ((hcache₃ key).trans hwrites)
  refine ⟨answers, hpriced, ?_⟩
  unfold after
  rw [sequential_split_two now hij hj, run_append, hs₁, run_append, hs₂, run_append, run_cons]
  exact run_of_returned engine requests answers hhit _

/-- Whatever the models answer at a finite cost and however the calls interleave, each
    returns its own question's result. -/
def EveryCallOwn (cache : ResponseCache) (now : Instant) : Prop :=
  ∀ answers, Priced answers → ∀ moves, Interleaving (engine.batchWorkers requests.length) requests.length
      (fun t => now.ns ≤ t.ns) (fun _ => 0) moves →
    ∀ i q, requests[i]? = some q →
      ∃ r, (after engine requests answers cache moves).calls i = .returned r ∧
        r.requestId = q.requestId ∧ r.question = q.question

theorem batchWorkers_pos (h : 0 < n) : 1 ≤ engine.batchWorkers n := by
  unfold UnderstandingEngine.batchWorkers
  omega

theorem priced_failed : Priced (fun _ => .failed) := fun _ _ _ _ h => by cases h

theorem EveryCallOwn.sequential (h : EveryCallOwn engine requests cache now)
    (hpriced : Priced answers) (hq : requests[i]? = some q) :
    ∃ r, (after engine requests answers cache (sequential now 0 requests.length)).calls i =
      .returned r ∧ r.question = q.question := by
  have hpos : 0 < requests.length := by
    have := (List.getElem?_eq_some_iff.mp hq).1
    omega
  obtain ⟨r, hr, -, hquestion⟩ := h answers hpriced _
    (sequential_interleaving (le_refl now.ns) (batchWorkers_pos engine hpos)) i q hq
  exact ⟨r, hr, hquestion⟩

theorem cached_of_everyCallOwn (h : EveryCallOwn engine requests cache now) :
    ∀ q ∈ requests, ∀ key, engine.lookupOf q = .keyed key →
      ∀ r, cache.answers key now = some r → r.question = q.question := by
  intro q hq key hlookup r hr
  obtain ⟨i, hi⟩ := mem_iff_getElem?.mp hq
  obtain ⟨r', hr', hquestion⟩ := h.sequential engine requests (fun _ => .failed) priced_failed hi
  rw [returned_of_cached engine requests hi hlookup hr] at hr'
  cases hr'
  exact hquestion

theorem shared_of_everyCallOwn (h : EveryCallOwn engine requests cache now)
    (hij : i < j) (hi : requests[i]? = some q) (hj : requests[j]? = some q')
    (hlookup : engine.lookupOf q = .keyed key) (hlookup' : engine.lookupOf q' = .keyed key)
    (hmiss : cache.answers key now = none) : q.question = q'.question := by
  obtain ⟨answers, hpriced, hreturned⟩ :=
    returned_of_shared engine requests hij hi hj hlookup hlookup' hmiss
  obtain ⟨r, hr, hquestion⟩ := h.sequential engine requests answers hpriced hj
  rw [hreturned] at hr
  cases hr
  exact hquestion

theorem consistent_of_everyCallOwn
    (h : EveryCallOwn engine requests cache now) : Consistent engine requests cache now := by
  have hcached := cached_of_everyCallOwn engine requests h
  refine ⟨hcached, fun q hq q' hq' key hlookup hlookup' => ?_⟩
  cases hanswer : cache.answers key now with
  | some r => rw [← hcached q hq key hlookup r hanswer, hcached q' hq' key hlookup' r hanswer]
  | none =>
    obtain ⟨i, hi⟩ := mem_iff_getElem?.mp hq
    obtain ⟨j, hj⟩ := mem_iff_getElem?.mp hq'
    rcases Nat.lt_trichotomy i j with hij | hij | hij
    · exact shared_of_everyCallOwn engine requests h hij hi hj hlookup hlookup' hanswer
    · rw [hij, hj] at hi
      rw [Option.some.inj hi]
    · exact (shared_of_everyCallOwn engine requests h hij hj hi hlookup' hlookup hanswer).symm

theorem everyCallOwn_of_consistent
    (h : Consistent engine requests cache now) : EveryCallOwn engine requests cache now := by
  intro answers _ moves hmoves i q hq
  have hstart : OwnQuestions engine requests now (start cache) :=
    ⟨fun i r hr => (by cases hr), fun i key hkey => (by cases hkey), h.cached⟩
  have hown : OwnQuestions engine requests now (after engine requests answers cache moves) :=
    Interleaving.invariant (OwnQuestions engine requests now)
      (fun s m _ hlater hs => ownQuestions_step engine requests answers h hs hlater) hmoves hstart
  have hi : i < requests.length := (List.getElem?_eq_some_iff.mp hq).1
  obtain ⟨r, hr⟩ := all_returned engine requests answers hmoves cache i hi
  obtain ⟨q', hq', hid, hquestion⟩ := hown.returned i r hr
  rw [hq] at hq'
  cases hq'
  exact ⟨r, hr, hid, hquestion⟩

theorem everyCallOwn_iff (cache : ResponseCache) (now : Instant) :
    EveryCallOwn engine requests cache now ↔ Consistent engine requests cache now :=
  ⟨consistent_of_everyCallOwn engine requests, everyCallOwn_of_consistent engine requests⟩

end Batch

end VisionOs.Understanding
