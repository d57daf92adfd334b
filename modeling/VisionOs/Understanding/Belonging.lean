/-
  Whether a result belongs to its request.  What a model call returns always does; a
  cached result keeps the subject, the moment and the demands of the call that filled
  its entry, and only the request id is put right.
-/
import VisionOs.Understanding.CacheHits

namespace VisionOs.Understanding

open Core Cropping Lib Registry Option AnsweringEngine History List.Subset

/-- The result is the request's own, with values its registry accepts. -/
structure Belongs (registry : AttributeRegistry) (q : UnderstandingRequest)
    (r : UnderstandingResult) : Prop where
  requestId : r.requestId = q.requestId
  tenantId : r.tenantId = q.tenantId
  siteId : r.siteId = q.siteId
  cameraId : r.cameraId = q.cameraId
  objectId : r.objectId = q.objectId
  classId : r.classId = q.classId
  demandIds : r.demandIds = q.demandIds
  requestedAttributes : r.requestedAttributes = q.requestedAttributes
  frameRef : r.evidence.frameRef = q.frameRef
  cropRef : r.evidence.cropRef = some q.primaryCrop
  observedAt : ∀ a ∈ r.attributes, a.observedAt = q.tCapture
  registered : ∀ a ∈ r.attributes, ∃ schema, registry.require a.key = .ok schema
  applies : ∀ a ∈ r.attributes, registry.applies a.key q.classId = true

/-- The request that filled an entry is about the same subject at the same moment and for
    the same demands; without attributes the moment does not show. -/
structure SameSubject (f q : UnderstandingRequest) (attributes : List Attribute) : Prop where
  siteId : f.siteId = q.siteId
  cameraId : f.cameraId = q.cameraId
  objectId : f.objectId = q.objectId
  classId : f.classId = q.classId
  demandIds : f.demandIds = q.demandIds
  requestedAttributes : f.requestedAttributes = q.requestedAttributes
  frameRef : f.frameRef = q.frameRef
  tCapture : attributes ≠ [] → f.tCapture = q.tCapture

def ModelAnswer.attributes : ModelAnswer → List Attribute
  | .interpreted accepted _ _ => accepted
  | _ => []

@[simp] theorem attributes_report (q : UnderstandingRequest) (answer : ModelAnswer)
    (rejected : List RejectedField) :
    (report q answer rejected).attributes = answer.attributes := by
  rcases answer with _ | _ | ⟨_ | ⟨_, _⟩, _, _⟩ <;> rfl

variable {engine : AnsweringEngine} {q : InformedRequest} {prompt : RenderedPrompt}

variable {answer : ModelAnswer}

theorem AnsweringEngine.read_passed {bound : BoundUnderstander} {response : PortResponse}
    {rejected : List RejectedField}
    (h : engine.read q prompt bound response = .ok (answer, rejected)) :
    ∃ producer, ∀ a ∈ answer.attributes,
      engine.validator.Passed (gateContext q prompt response producer) a := by
  obtain ⟨model, -, h⟩ := bind_eq_ok.mp h
  split at h
  · obtain ⟨rfl, -⟩ := Prod.mk.inj (Except.ok.inj h)
    exact ⟨engine.provenance, fun a ha => nomatch ha⟩
  · obtain ⟨structured, -, h⟩ := bind_eq_ok.mp h
    obtain ⟨producer, -, h⟩ := bind_eq_ok.mp h
    obtain ⟨validation, hvalidation, h⟩ := bind_eq_ok.mp h
    obtain ⟨rfl, -⟩ := Prod.mk.inj (Except.ok.inj h)
    exact ⟨producer, AttributeValidator.validate_passed hvalidation⟩

theorem belongs_failed (registry : AttributeRegistry) (q : UnderstandingRequest)
    (outcome : UnderstandingOutcome) (h : outcome ≠ .succeeded) :
    Belongs registry q (failed q outcome h) where
  requestId := rfl
  tenantId := rfl
  siteId := rfl
  cameraId := rfl
  objectId := rfl
  classId := rfl
  demandIds := rfl
  requestedAttributes := rfl
  frameRef := rfl
  cropRef := rfl
  observedAt _ ha := nomatch ha
  registered _ ha := nomatch ha
  applies _ ha := nomatch ha

theorem belongs_report {v : AttributeValidator} {c : GateContext}
    (hclass : c.classId = q.classId) (hmoment : c.observedAt = q.tCapture)
    (rejected : List RejectedField) (h : ∀ a ∈ answer.attributes, v.Passed c a) :
    Belongs v.registry q.toUnderstandingRequest
      (report q.toUnderstandingRequest answer rejected) := by
  have hpassed : ∀ a ∈ (report q.toUnderstandingRequest answer rejected).attributes,
      v.Passed c a := by
    rw [attributes_report]
    exact h
  refine ⟨?_, ?_, ?_, ?_, ?_, ?_, ?_, ?_, ?_, ?_, fun a ha => ?_, fun a ha => ?_, fun a ha => ?_⟩
  case refine_11 => exact (hpassed a ha).observedAt.trans hmoment
  case refine_12 => exact (hpassed a ha).registered
  case refine_13 =>
    rw [← hclass]
    exact (hpassed a ha).applies
  all_goals rcases answer with _ | _ | ⟨_ | ⟨_, _⟩, _, _⟩ <;> rfl

/-! ## Results from the cache -/

variable {stored : UnderstandingResult}

theorem belongs_fromCache_iff {registry : AttributeRegistry} {f q : UnderstandingRequest}
    (hstored : Belongs registry f stored)
    (htenant : f.tenantId = q.tenantId) (hcrop : f.primaryCrop = q.primaryCrop) :
    Belongs registry q (fromCache q stored) ↔ SameSubject f q stored.attributes := by
  constructor
  · intro h
    refine ⟨hstored.siteId.symm.trans h.siteId, hstored.cameraId.symm.trans h.cameraId,
      hstored.objectId.symm.trans h.objectId, hstored.classId.symm.trans h.classId,
      hstored.demandIds.symm.trans h.demandIds,
      hstored.requestedAttributes.symm.trans h.requestedAttributes,
      hstored.frameRef.symm.trans h.frameRef, fun hne => ?_⟩
    -- Any attribute shows the moment it was observed at.
    obtain ⟨a, ha⟩ := List.exists_mem_of_ne_nil _ hne
    exact (hstored.observedAt a ha).symm.trans (h.observedAt a ha)
  · intro h
    have hmoment : ∀ a ∈ stored.attributes, a.observedAt = q.tCapture := fun a ha =>
      (hstored.observedAt a ha).trans (h.tCapture (List.ne_nil_of_mem ha))
    have hclass : ∀ a ∈ stored.attributes, registry.applies a.key q.classId = true := by
      intro a ha
      rw [← h.classId]
      exact hstored.applies a ha
    exact ⟨rfl, hstored.tenantId.trans htenant, hstored.siteId.trans h.siteId,
      hstored.cameraId.trans h.cameraId, hstored.objectId.trans h.objectId,
      hstored.classId.trans h.classId, hstored.demandIds.trans h.demandIds,
      hstored.requestedAttributes.trans h.requestedAttributes,
      hstored.frameRef.trans h.frameRef,
      hstored.cropRef.trans (congrArg some hcrop), hmoment, hstored.registered, hclass⟩

theorem AnsweringEngine.ask_key {key : CacheKey} {selected : BoundUnderstander}
    (h : engine.ask q = .keyed key prompt selected) :
    key.tenantId = q.tenantId ∧ key.cropId = q.primaryCrop := by
  unfold ask at h
  dsimp only at h
  cases hselected : (engine.route q.requestedAttributes).selected with
  | none =>
    rw [hselected] at h
    cases h
  | some bound =>
    rw [hselected] at h
    dsimp only at h
    cases hresolve : engine.resolvePrompt q.requestedAttributes q.classId bound.modelId with
    | none =>
      rw [hresolve] at h
      cases h
    | some pinned =>
      obtain ⟨promptId, version⟩ := pinned
      rw [hresolve] at h
      dsimp only at h
      cases hrender : engine.render promptId version (contextOf q) with
      | unavailable =>
        rw [hrender] at h
        cases h
      | raised =>
        rw [hrender] at h
        cases h
      | prompt rendered =>
        rw [hrender] at h
        obtain ⟨rfl, -, -⟩ := Asked.keyed.inj h
        exact ⟨rfl, rfl⟩

theorem Filling.Made.belongs {f : Filling} {key : CacheKey}
    (h : f.Made engine key stored) :
    Belongs engine.validator.registry f.asking.request.toUnderstandingRequest stored := by
  obtain ⟨answer, rejected, hread, rfl⟩ := h.read
  obtain ⟨producer, hpassed⟩ := read_passed hread
  have hreport := belongs_report (q := f.asking.request) rfl rfl rejected hpassed
  exact ⟨hreport.requestId, hreport.tenantId, hreport.siteId, hreport.cameraId, hreport.objectId,
    hreport.classId, hreport.demandIds, hreport.requestedAttributes, hreport.frameRef,
    hreport.cropRef, hreport.observedAt, hreport.registered, hreport.applies⟩

/-! ## Every result of a history -/

namespace History

variable (engine : AnsweringEngine)

/-- What returns at an event belongs to its request, and has attributes only where some
    adapter answered for a request of the same tenant with the same crop. -/
def ReturnsBelong (s : History) (e : Event) : Prop :=
  ∀ a result, returned engine s e = some (a, result) →
    Belongs engine.validator.registry a.request.toUnderstandingRequest result ∧
    (result.attributes ≠ [] → ∃ f ∈ (step engine s e).answered,
      f.asking.request.tenantId = a.request.tenantId ∧
      f.asking.request.primaryCrop = a.request.primaryCrop)

/-- A call answered from the cache finds an entry made for the same subject. -/
def HitsOwnSubject (s : History) (e : Event) : Prop :=
  ∀ a now, e = .ask a now → ∀ key prompt selected stored f,
    engine.ask a.request = .keyed key prompt selected →
    s.cache.answers key now = some stored → s.filledBy key = some f →
    SameSubject f.asking.request.toUnderstandingRequest a.request.toUnderstandingRequest
      stored.attributes

theorem answered_step (s : History) (e : Event) : s.answered ⊆ (step engine s e).answered := by
  rcases step_cases engine s e with hsame | ⟨a, now, key, prompt, selected, inFlight, -, -, hstep⟩ |
    ⟨i, conditions, now, a, -, -, ⟨outcome, hfail, -, hstep⟩ | ⟨key, prompt, selected, -, hstep⟩⟩
  · rw [hsame]
    exact refl _
  · rw [hstep]
    exact refl _
  · rw [hstep]
    exact refl _
  · rw [hstep]
    unfold settle
    split
    · exact refl _
    · rw [answered_store]
      exact List.subset_cons_self _ _

theorem returnsBelong_returns (s : History) (i : Nat) (conditions : AnsweringEngine.Conditions)
    (now : Instant) : ReturnsBelong engine s (.returns i conditions now) := by
  intro a result hreturned
  unfold returned at hreturned
  dsimp only at hreturned
  cases hcall : s.inFlight[i]? with
  | none =>
    rw [hcall] at hreturned
    cases hreturned
  | some b =>
    rw [hcall] at hreturned
    dsimp only at hreturned
    cases hask : engine.ask b.request with
    | fails outcome h =>
      rw [hask] at hreturned
      obtain ⟨rfl, rfl⟩ := Prod.mk.inj (some.inj hreturned)
      exact ⟨belongs_failed _ _ _ _, fun hne => absurd rfl hne⟩
    | keyed key prompt selected =>
      rw [hask] at hreturned
      obtain ⟨rfl, rfl⟩ := Prod.mk.inj (some.inj hreturned)
      have hstep : (step engine s (.returns i conditions now)).answered =
          (settle engine { s with inFlight := s.inFlight.eraseIdx i } b key prompt selected
            conditions now).answered := by
        simp only [step, hcall, hask]
      rw [hstep]
      unfold settle answer
      cases hchain : engine.invokeChain conditions b.request selected b.crops with
      | none => exact ⟨belongs_failed _ _ _ _, fun hne => absurd rfl hne⟩
      | some found =>
        obtain ⟨bound, response⟩ := found
        dsimp only
        rw [answered_store]
        cases hread : engine.read b.request prompt bound response with
        | error exc => exact ⟨belongs_failed _ _ _ _, fun hne => absurd rfl hne⟩
        | ok reading =>
          obtain ⟨answer, rejected⟩ := reading
          obtain ⟨producer, hpassed⟩ := read_passed hread
          exact ⟨belongs_report rfl rfl rejected hpassed, fun _ =>
            ⟨_, List.mem_cons_self, rfl, rfl⟩⟩

/-- What a call returns is its own exactly when a hit would be. -/
theorem returnsBelong_iff {s : History} (h : Kept engine s) (e : Event) :
    ReturnsBelong engine s e ↔ HitsOwnSubject engine s e := by
  cases e with
  | returns i conditions now =>
    constructor
    · intro _ a now' he
      cases he
    · intro _
      exact returnsBelong_returns engine s i conditions now
  | ask b now =>
    cases hask : engine.ask b.request with
    | fails outcome hfail =>
      constructor
      · intro _ a now' he key prompt selected stored f hkeyed
        obtain ⟨rfl, rfl⟩ := Event.ask.inj he
        rw [hask] at hkeyed
        cases hkeyed
      · intro _ a result hreturned
        simp only [returned, hask] at hreturned
        obtain ⟨rfl, rfl⟩ := Prod.mk.inj (some.inj hreturned)
        exact ⟨belongs_failed _ _ _ _, fun hne => absurd rfl hne⟩
    | keyed key prompt selected =>
      -- What the cache answers was made for the call the key was last filled by.
      have hiff : ∀ stored f, s.cache.answers key now = some stored →
          s.filledBy key = some f →
          f ∈ s.answered ∧ f.asking.request.tenantId = b.request.tenantId ∧
          f.asking.request.primaryCrop = b.request.primaryCrop ∧
          (Belongs engine.validator.registry b.request.toUnderstandingRequest
            (fromCache b.request.toUnderstandingRequest stored) ↔
          SameSubject f.asking.request.toUnderstandingRequest
            b.request.toUnderstandingRequest stored.attributes) := by
        intro stored f hstored hfilled
        obtain ⟨g, hg, hmem, hmade⟩ := h key now stored hstored
        obtain rfl := some.inj (hg.symm.trans hfilled)
        obtain ⟨htenant, hcrop⟩ := ask_key hask
        obtain ⟨htenant', hcrop'⟩ := ask_key hmade.asked
        have hsameTenant := htenant'.symm.trans htenant
        have hsameCrop := hcrop'.symm.trans hcrop
        exact ⟨hmem, hsameTenant, hsameCrop,
          belongs_fromCache_iff hmade.belongs hsameTenant hsameCrop⟩
      constructor
      · intro hbelong a now' he key' prompt' selected' stored f hkeyed hstored hfilled
        obtain ⟨rfl, rfl⟩ := Event.ask.inj he
        obtain ⟨rfl, rfl, rfl⟩ := Asked.keyed.inj (hask.symm.trans hkeyed)
        have hreturned : returned engine s (.ask b now) =
            some (b, fromCache b.request.toUnderstandingRequest stored) := by
          simp only [returned, hit, hask, hstored, map_some]
        exact (hiff stored f hstored hfilled).2.2.2.mp (hbelong b _ hreturned).1
      · intro hown a result hreturned
        simp only [returned, hit, hask] at hreturned
        obtain ⟨stored, hstored, hpair⟩ := map_eq_some_iff.mp hreturned
        obtain ⟨rfl, rfl⟩ := Prod.mk.inj hpair
        obtain ⟨f, hfilled, -, -⟩ := h key now stored hstored
        obtain ⟨hmem, htenant, hcrop, hbelongs⟩ := hiff stored f hstored hfilled
        exact ⟨hbelongs.mpr (hown b now rfl key prompt selected stored f hask hstored hfilled),
          fun _ => ⟨f, answered_step engine s _ hmem, htenant, hcrop⟩⟩

/-- Over any history of calls, whatever the adapters reply: every result belongs to its
    request exactly when every hit finds an entry made for its own subject. -/
theorem results_belong_iff {cache : ResponseCache} (hempty : Empty cache) (events : List Event) :
    Runs.Always (step engine) (ReturnsBelong engine) (start cache) events ↔
      Runs.Always (step engine) (HitsOwnSubject engine) (start cache) events := by
  have hkeep : ∀ s e, Kept engine s → Kept engine (step engine s e) :=
    fun _ e hkept => kept_step engine hkept e
  have hiff : ∀ s e, Kept engine s → (ReturnsBelong engine s e ↔ HitsOwnSubject engine s e) :=
    fun _ e hkept => returnsBelong_iff engine hkept e
  exact Runs.always_iff_of_invariant hkeep hiff (kept_start engine hempty) events

end History

def coworkerCall (requestId : String) (h : requestId ≠ "") : Asking where
  request :=
    { requestId := ⟨requestId, h⟩
      tenantId := "bakery"
      siteId := "main"
      cameraId := "north"
      objectId := some "coworker"
      classId := "person"
      cropIds := ["first", "bright"]
      frameRef := { cameraId := "north", streamEpoch := 1, frameSeq := 11, accepted := by decide }
      requestedAttributes := ["headwear"]
      triggerReason := .firstSight
      tCapture := ⟨140⟩
      quality := {}
      accepted := UnderstandingRequestFields.postInit_eq_ok.mpr ⟨by simp, by simp, rfl⟩ }
  crops := [⟨"first", some [0], 8, 8, "bgr24"⟩, ⟨"bright", some [255], 8, 8, "bgr24"⟩]

/-- Asked about another worker whose crops are the same, the engine returns a result about
    the first worker, at the first moment. -/
theorem coworker_told_of_worker :
    History.Empty emptyCache ∧
      ¬ Runs.Always (step headwearEngine) (History.ReturnsBelong headwearEngine)
        (start emptyCache)
        (twoCalls (headwearCall "r1" (by decide) "bright" 255) (coworkerCall "r2" (by decide))
          []) := by
  refine ⟨empty_emptyCache, ?_⟩
  rintro ⟨-, -, hlast, -⟩
  have hrun : (lastHit (headwearCall "r1" (by decide) "bright" 255)
      (coworkerCall "r2" (by decide)) []).map (fun r => r.2.objectId) = some (some "worker") := by
    decide +kernel
  obtain ⟨⟨c, result⟩, hhit, hobject⟩ := map_eq_some_iff.mp hrun
  obtain rfl := hit_asking headwearEngine hhit
  have hbelongs := (hlast _ result hhit).1
  have hown : result.objectId = some "coworker" := hbelongs.objectId
  exact absurd (hobject.symm.trans hown) (by decide)

/-- One worker asked about twice: the second result is from the cache and belongs. -/
theorem repeated_call_belongs :
    (lastHit (headwearCall "r1" (by decide) "bright" 255)
      (headwearCall "r2" (by decide) "bright" 255) []).isSome = true ∧
    Runs.Always (step headwearEngine) (History.ReturnsBelong headwearEngine)
      (start emptyCache)
      (twoCalls (headwearCall "r1" (by decide) "bright" 255)
        (headwearCall "r2" (by decide) "bright" 255) []) := by
  refine ⟨by decide +kernel, ?_⟩
  refine (results_belong_iff headwearEngine empty_emptyCache _).mpr ⟨?_, ?_, ?_, trivial⟩
  · intro a now he key prompt selected stored f hask hstored
    cases hstored
  · intro a now he
    cases he
  · intro a now he key prompt selected stored f hask hstored hfilled
    obtain ⟨rfl, rfl⟩ := Event.ask.inj he
    obtain hbefore | ⟨b, key', prompt', selected', bound, response, hcall, -, -, rfl⟩ :=
      filledBy_returns headwearEngine hfilled
    · cases hbefore
    · obtain rfl := some.inj hcall
      exact ⟨rfl, rfl, rfl, rfl, rfl, rfl, rfl, fun _ => rfl⟩

end VisionOs.Understanding
