/-
  Any number of `understand` calls on one engine, in any order of their lookups and answers:
  whatever the cache answers is the reading of the response that was stored last under its key.
-/
import VisionOs.Lib.Runs
import VisionOs.Understanding.Answering

namespace VisionOs.Understanding

open Core Cropping Lib Function ResponseCache Option

structure Asking where
  request : InformedRequest
  crops : List HeldCrop

structure Filling where
  asking : Asking
  prompt : RenderedPrompt
  selected : BoundUnderstander
  bound : BoundUnderstander
  response : PortResponse

/-- The stored result is what was read of the call's response. -/
structure Filling.Made (engine : AnsweringEngine) (f : Filling) (key : CacheKey)
    (stored : UnderstandingResult) : Prop where
  asked : engine.ask f.asking.request = .keyed key f.prompt f.selected
  read : ∃ answer rejected,
    engine.read f.asking.request f.prompt f.bound f.response = .ok (answer, rejected) ∧
    stored = (report f.asking.request.toUnderstandingRequest answer rejected).withoutRawOutput

structure History where
  cache : ResponseCache
  inFlight : List Asking := []
  answered : List Filling := []
  /-- The answered call whose result was stored last under a key. -/
  filledBy : CacheKey → Option Filling := fun _ => none

/-- A call up to its lookup, or the return of call `i` of those in flight. -/
inductive Event where
  | ask (asking : Asking) (now : Instant)
  | returns (i : Nat) (conditions : AnsweringEngine.Conditions) (now : Instant)

namespace History

variable (engine : AnsweringEngine)

def book (s : History) (f : Filling) : History := { s with answered := f :: s.answered }

/-- The history with a result stored under a key, a failure excepted. -/
def store (s : History) (key : CacheKey) (f : Filling) (result : UnderstandingResult)
    (now : Instant) : History :=
  if result.outcome.isFailure then s
  else
    { s with
      cache := s.cache.put key result now
      filledBy := Function.update s.filledBy key (some f) }

def settle (s : History) (a : Asking) (key : CacheKey) (prompt : RenderedPrompt)
    (selected : BoundUnderstander) (conditions : AnsweringEngine.Conditions) (now : Instant) :
    History :=
  match engine.invokeChain conditions a.request selected a.crops with
  | none => s
  | some (bound, response) =>
    let f : Filling := ⟨a, prompt, selected, bound, response⟩
    (s.book f).store key f (engine.answer conditions a.request prompt selected a.crops) now

def step (s : History) : Event → History
  | .ask a now =>
    match engine.ask a.request with
    | .fails _ _ => s
    | .keyed key _ _ =>
      let (cache, found) := s.cache.get key now
      if found.isSome then { s with cache } else { s with cache, inFlight := s.inFlight ++ [a] }
  | .returns i conditions now =>
    match s.inFlight[i]? with
    | none => s
    | some a =>
      let s := { s with inFlight := s.inFlight.eraseIdx i }
      match engine.ask a.request with
      | .fails _ _ => s
      | .keyed key prompt selected => settle engine s a key prompt selected conditions now

def hit (s : History) : Event → Option (Asking × UnderstandingResult)
  | .ask a now =>
    match engine.ask a.request with
    | .fails _ _ => none
    | .keyed key _ _ => (s.cache.answers key now).map fun cached =>
      (a, fromCache a.request.toUnderstandingRequest cached)
  | .returns _ _ _ => none

/-- The call that returns at an event, and the result it returns. -/
def returned (s : History) : Event → Option (Asking × UnderstandingResult)
  | .ask a now =>
    match engine.ask a.request with
    | .fails outcome h => some (a, failed a.request.toUnderstandingRequest outcome h)
    | .keyed _ _ _ => hit engine s (.ask a now)
  | .returns i conditions _ =>
    match s.inFlight[i]? with
    | none => none
    | some a =>
      match engine.ask a.request with
      | .fails outcome h => some (a, failed a.request.toUnderstandingRequest outcome h)
      | .keyed _ prompt selected =>
        some (a, engine.answer conditions a.request prompt selected a.crops)

/-! ## What the cache holds -/

/-- What the cache answers a key with, at any instant, is the reading of the call the key
    was last filled by, and that call is on the books. -/
def Kept (s : History) : Prop :=
  ∀ key now stored, s.cache.answers key now = some stored →
    ∃ f, s.filledBy key = some f ∧ f ∈ s.answered ∧ f.Made engine key stored

variable {s : History} {now : Instant} {key : CacheKey}

theorem Kept.of_get (h : Kept engine s) {inFlight : List Asking} :
    Kept engine { s with cache := (s.cache.get key now).1, inFlight } :=
  fun key' now' stored hanswers => h key' now' stored (answers_of_get hanswers)

theorem Kept.book (h : Kept engine s) (f : Filling) : Kept engine (s.book f) := by
  intro key now stored hanswers
  obtain ⟨g, hg, hmem, hmade⟩ := h key now stored hanswers
  exact ⟨g, hg, List.mem_cons_of_mem f hmem, hmade⟩

variable {f : Filling} {result : UnderstandingResult}

theorem Kept.store (h : Kept engine s)
    (hmem : f ∈ s.answered)
    (hmade : result.outcome.isFailure = false → f.Made engine key result.withoutRawOutput) :
    Kept engine (s.store key f result now) := by
  unfold History.store
  split
  · exact h
  rename_i hanswer
  have hanswer : result.outcome.isFailure = false := Bool.eq_false_iff.mpr hanswer
  intro key' now' stored hanswers
  by_cases hkey : key' = key
  · subst hkey
    refine ⟨f, update_self _ _ _, hmem, ?_⟩
    rw [answers_put_self hanswer hanswers]
    exact hmade hanswer
  · -- Another key's entry was there before, and its call with it.
    have hbefore : s.cache.answers key' now' = some stored :=
      (answers_of_put hanswers).resolve_left fun hnew => hkey hnew.1
    obtain ⟨g, hg, hgmem, hgmade⟩ := h key' now' stored hbefore
    exact ⟨g, (update_of_ne hkey _ _).trans hg, hgmem, hgmade⟩

variable {a : Asking} {prompt : RenderedPrompt} {selected : BoundUnderstander}

theorem Kept.settle (h : Kept engine s)
    (hask : engine.ask a.request = .keyed key prompt selected)
    (conditions : AnsweringEngine.Conditions) (now : Instant) :
    Kept engine (settle engine s a key prompt selected conditions now) := by
  unfold History.settle
  cases hchain : engine.invokeChain conditions a.request selected a.crops with
  | none => exact h
  | some found =>
    obtain ⟨bound, response⟩ := found
    refine (h.book engine _).store engine List.mem_cons_self fun hanswer => ⟨hask, ?_⟩
    obtain ⟨bound', response', answer, rejected, hchain', hread, hresult⟩ :=
      AnsweringEngine.answer_spec hanswer
    rw [hchain] at hchain'
    obtain ⟨rfl, rfl⟩ := Prod.mk.inj (some.inj hchain')
    exact ⟨answer, rejected, hread, by rw [hresult]⟩

/-- A lookup touches the cache, and an answer is settled; nothing else happens. -/
theorem step_cases (s : History) (e : Event) :
    (step engine s e = s) ∨
    (∃ a now key prompt selected inFlight, e = .ask a now ∧
      engine.ask a.request = .keyed key prompt selected ∧
      step engine s e = { s with cache := (s.cache.get key now).1, inFlight }) ∨
    (∃ i conditions now a, e = .returns i conditions now ∧ s.inFlight[i]? = some a ∧
      ((∃ outcome h, engine.ask a.request = .fails outcome h ∧
        step engine s e = { s with inFlight := s.inFlight.eraseIdx i }) ∨
      ∃ key prompt selected, engine.ask a.request = .keyed key prompt selected ∧
        step engine s e = settle engine { s with inFlight := s.inFlight.eraseIdx i } a key
          prompt selected conditions now)) := by
  cases e with
  | ask a now =>
    cases hask : engine.ask a.request with
    | fails outcome h => exact .inl (by simp only [step, hask])
    | keyed key prompt selected =>
      refine .inr (.inl ⟨a, now, key, prompt, selected,
        if (s.cache.get key now).2.isSome then s.inFlight else s.inFlight ++ [a], rfl, hask, ?_⟩)
      simp only [step, hask]
      split <;> rfl
  | returns i conditions now =>
    cases hcall : s.inFlight[i]? with
    | none => exact .inl (by simp only [step, hcall])
    | some a =>
      refine .inr (.inr ⟨i, conditions, now, a, rfl, hcall, ?_⟩)
      cases hask : engine.ask a.request with
      | fails outcome h => exact .inl ⟨outcome, h, rfl, by simp only [step, hcall, hask]⟩
      | keyed key prompt selected =>
        exact .inr ⟨key, prompt, selected, rfl, by simp only [step, hcall, hask]⟩

theorem kept_step (h : Kept engine s) (e : Event) : Kept engine (step engine s e) := by
  rcases step_cases engine s e with hsame | ⟨a, now, key, prompt, selected, inFlight, -, -, hstep⟩ |
    ⟨i, conditions, now, a, -, -, ⟨outcome, hfail, -, hstep⟩ | ⟨key, prompt, selected, hask, hstep⟩⟩
  · rw [hsame]
    exact h
  · rw [hstep]
    exact h.of_get engine
  · rw [hstep]
    exact h
  · rw [hstep]
    exact Kept.settle engine (s := { s with inFlight := s.inFlight.eraseIdx i }) h hask conditions now

variable {conditions : AnsweringEngine.Conditions}

theorem filledBy_settle {key' : CacheKey}
    (h : (settle engine s a key prompt selected conditions now).filledBy key' = some f) :
    s.filledBy key' = some f ∨
      ∃ bound response, engine.invokeChain conditions a.request selected a.crops =
          some (bound, response) ∧ f = ⟨a, prompt, selected, bound, response⟩ := by
  unfold settle at h
  cases hchain : engine.invokeChain conditions a.request selected a.crops with
  | none =>
    rw [hchain] at h
    exact .inl h
  | some found =>
    obtain ⟨bound, response⟩ := found
    rw [hchain] at h
    dsimp only [store] at h
    split at h
    · exact .inl h
    have hupdate : Function.update s.filledBy key
        (some ⟨a, prompt, selected, bound, response⟩) key' = some f := h
    by_cases hkey : key' = key
    · rw [hkey, update_self] at hupdate
      exact .inr ⟨bound, response, rfl, (some.inj hupdate).symm⟩
    · rw [update_of_ne hkey] at hupdate
      exact .inl hupdate

theorem filledBy_returns {i : Nat}
    (h : (step engine s (.returns i conditions now)).filledBy key = some f) :
    s.filledBy key = some f ∨
      ∃ a key' prompt selected bound response, s.inFlight[i]? = some a ∧
        engine.ask a.request = .keyed key' prompt selected ∧
        engine.invokeChain conditions a.request selected a.crops = some (bound, response) ∧
        f = ⟨a, prompt, selected, bound, response⟩ := by
  rw [step] at h
  cases hcall : s.inFlight[i]? with
  | none =>
    rw [hcall] at h
    exact .inl h
  | some a =>
    rw [hcall] at h
    cases hask : engine.ask a.request with
    | fails outcome hfail =>
      simp only [hask] at h
      exact .inl h
    | keyed key' prompt selected =>
      simp only [hask] at h
      obtain hbefore | ⟨bound, response, hchain, hf⟩ := filledBy_settle engine h
      · exact .inl hbefore
      · exact .inr ⟨a, key', prompt, selected, bound, response, rfl, hask, hchain, hf⟩

def start (cache : ResponseCache) : History := { cache }

/-- The cache answers nothing. -/
def Empty (cache : ResponseCache) : Prop := ∀ key now, cache.answers key now = none

theorem kept_start {cache : ResponseCache} (h : Empty cache) : Kept engine (start cache) := by
  intro key now stored hanswers
  have hnone : cache.answers key now = some stored := hanswers
  rw [h key now] at hnone
  cases hnone

theorem hit_asking {b : Asking}
    (h : hit engine s (.ask b now) = some (a, result)) : b = a := by
  unfold hit at h
  dsimp only at h
  cases hask : engine.ask b.request with
  | fails outcome hfail =>
    rw [hask] at h
    cases h
  | keyed key prompt selected =>
    rw [hask] at h
    obtain ⟨stored, -, hpair⟩ := map_eq_some_iff.mp h
    exact (Prod.mk.inj hpair).1

theorem hit_spec (h : Kept engine s) {e : Event}
    (hhit : hit engine s e = some (a, result)) :
    ∃ key prompt selected f stored, engine.ask a.request = .keyed key prompt selected ∧
      s.filledBy key = some f ∧ f ∈ s.answered ∧ f.Made engine key stored ∧
      result = fromCache a.request.toUnderstandingRequest stored := by
  cases e with
  | returns i conditions now => cases hhit
  | ask asking now =>
    unfold hit at hhit
    dsimp only at hhit
    cases hask : engine.ask asking.request with
    | fails outcome hfail =>
      rw [hask] at hhit
      cases hhit
    | keyed key prompt selected =>
      rw [hask] at hhit
      obtain ⟨stored, hstored, hpair⟩ := map_eq_some_iff.mp hhit
      obtain ⟨rfl, rfl⟩ := Prod.mk.inj hpair
      obtain ⟨f, hfilled, hmem, hmade⟩ := h key now stored hstored
      exact ⟨key, prompt, selected, f, stored, hask, hfilled, hmem, hmade, rfl⟩

end History

end VisionOs.Understanding
