/-
  Whether a cache hit says what the selected understander would say.  The key names the tenant,
  the first crop, the pinned prompt, the selected model and the attributes, and nothing else of
  the request or of the chain.
-/
import VisionOs.Understanding.History

namespace VisionOs.Understanding

open Core Cropping Lib Registry Option History Except AnsweringEngine

structure Findings where
  accepted : List (AttributeKey × PyValue × Confidence)
  rejected : List RejectedField

def claims (attributes : List Attribute) : List (AttributeKey × PyValue × Confidence) :=
  attributes.map fun a => (a.key, a.value, a.confidence)

def UnderstandingResult.findings (r : UnderstandingResult) : Findings :=
  ⟨claims r.attributes, r.rejectedFields⟩

@[simp] theorem findings_withoutRawOutput (r : UnderstandingResult) :
    r.withoutRawOutput.findings = r.findings := rfl

@[simp] theorem findings_fromCache (q : UnderstandingRequest) (r : UnderstandingResult) :
    (fromCache q r).findings = r.findings := rfl

/-- What a reading says, whatever request it is reported under. -/
def findingsOf : ModelAnswer × List RejectedField → Findings
  | (.interpreted accepted _ _, rejected) => ⟨claims accepted, rejected⟩
  | (_, rejected) => ⟨[], rejected⟩

theorem findings_report (q : UnderstandingRequest) (answer : ModelAnswer)
    (rejected : List RejectedField) :
    (report q answer rejected).findings = findingsOf (answer, rejected) := by
  rcases answer with _ | _ | ⟨_ | ⟨_, _⟩, _, _⟩ <;> rfl

/-! ## Readings of one response -/

theorem AttributeValidator.gate_findings {v : AttributeValidator} {c c' : GateContext}
    (hschema : c.schema = c'.schema) (hclass : c.classId = c'.classId)
    (hconfidence : c.fieldConfidence = c'.fieldConfidence) {fields : List (String × PyValue)}
    {o : ValidationOutcome} (h : v.gate c fields = .ok o) :
    ∃ o', v.gate c' fields = .ok o' ∧ claims o'.accepted = claims o.accepted ∧
      o'.rejected = o.rejected := by
  induction fields generalizing o with
  | nil =>
    rw [← ok.inj h]
    exact ⟨{}, rfl, rfl, rfl⟩
  | cons field rest ih =>
    obtain ⟨fieldName, value⟩ := field
    rw [gate, bind_eq_ok] at h
    obtain ⟨verdict, hverdict, h⟩ := h
    rw [hschema, hclass] at hverdict
    cases verdict with
    | some refusal =>
      obtain ⟨reason, detail⟩ := refusal
      obtain ⟨rawValue, hraw, h⟩ := bind_eq_ok.mp h
      obtain ⟨refused, hrefused, h⟩ := bind_eq_ok.mp h
      obtain ⟨others, hothers, h⟩ := bind_eq_ok.mp h
      obtain ⟨others', hothers', haccepted, hrejected⟩ := ih hothers
      refine ⟨{ others' with rejected := refused :: others'.rejected }, ?_, ?_, ?_⟩
      · rw [gate, bind_eq_ok]
        exact ⟨_, hverdict, bind_eq_ok.mpr ⟨rawValue, hraw,
          bind_eq_ok.mpr ⟨refused, hrefused, bind_eq_ok.mpr ⟨_, hothers', rfl⟩⟩⟩⟩
      · rw [← ok.inj h]
        exact haccepted
      · rw [← ok.inj h, hrejected]
    | none =>
      obtain ⟨schema, hrequire, h⟩ := bind_eq_ok.mp h
      obtain ⟨others, hothers, h⟩ := bind_eq_ok.mp h
      obtain ⟨others', hothers', haccepted, hrejected⟩ := ih hothers
      refine ⟨{ others' with
        accepted := attributeOf c' schema fieldName value :: others'.accepted }, ?_, ?_, ?_⟩
      · rw [gate, bind_eq_ok]
        exact ⟨_, hverdict, bind_eq_ok.mpr ⟨schema, hrequire, bind_eq_ok.mpr ⟨_, hothers', rfl⟩⟩⟩
      · rw [← ok.inj h]
        simp only [claims, List.map_cons, List.cons.injEq, attributeOf, hconfidence, true_and]
        exact haccepted
      · rw [← ok.inj h, hrejected]

theorem AnsweringEngine.read_findings {engine : AnsweringEngine} {q q' : InformedRequest}
    {prompt : RenderedPrompt} {bound : BoundUnderstander} {response : PortResponse}
    (hclass : q.classId = q'.classId) {reading : ModelAnswer × List RejectedField}
    (h : engine.read q prompt bound response = .ok reading) :
    ∃ reading', engine.read q' prompt bound response = .ok reading' ∧
      findingsOf reading' = findingsOf reading := by
  obtain ⟨model, hmodel, h⟩ := bind_eq_ok.mp h
  split at h
  · rename_i hrefused
    refine ⟨_, bind_eq_ok.mpr ⟨model, hmodel, if_pos hrefused⟩, ?_⟩
    rw [← ok.inj h]
  rename_i hanswered
  obtain ⟨structured, hstructured, h⟩ := bind_eq_ok.mp h
  obtain ⟨producer, hproducer, h⟩ := bind_eq_ok.mp h
  obtain ⟨validation, hvalidation, h⟩ := bind_eq_ok.mp h
  have hgate : engine.validator.gate (gateContext q prompt response producer) _ =
      .ok validation := hvalidation
  have hschema : (gateContext q prompt response producer).schema =
      (gateContext q' prompt response producer).schema := rfl
  have hclasses : (gateContext q prompt response producer).classId =
      (gateContext q' prompt response producer).classId := hclass
  have hconfidences : (gateContext q prompt response producer).fieldConfidence =
      (gateContext q' prompt response producer).fieldConfidence := rfl
  obtain ⟨validation', hgate', haccepted, hrejected⟩ :=
    AttributeValidator.gate_findings hschema hclasses hconfidences hgate
  refine ⟨(.interpreted validation'.accepted (engine.costClass bound) response.rawOutput,
    validation'.rejected), bind_eq_ok.mpr ⟨model, hmodel, ?_⟩, ?_⟩
  · exact (if_neg hanswered).trans (bind_eq_ok.mpr ⟨structured, hstructured,
      bind_eq_ok.mpr ⟨producer, hproducer, bind_eq_ok.mpr ⟨validation', hgate', rfl⟩⟩⟩)
  · rw [← ok.inj h]
    simp only [findingsOf, haccepted, hrejected]

/-! ## The answer of the moment -/

section Functional

-- The adapters, each a function of the port request, and the engine they are bound to.
variable (engine : AnsweringEngine) (respond : BoundUnderstander → PortRequest → PortReply)

def AnsweringEngine.current (a : Asking) : Option Findings :=
  match engine.ask a.request with
  | .fails _ _ => none
  | .keyed _ prompt selected =>
    match views a.crops with
    | .error _ => none
    | .ok crops =>
      match respond selected (engine.portRequest a.request prompt crops) with
      | .fails _ => none
      | .answered response =>
        match engine.read a.request prompt selected response with
        | .error _ => none
        | .ok (answer, rejected) =>
          some (report a.request.toUnderstandingRequest answer rejected).findings

def Filling.Genuine (f : Filling) : Prop :=
  ∃ crops, views f.asking.crops = .ok crops ∧
    respond f.bound (engine.portRequest f.asking.request f.prompt crops) = .answered f.response

/-- The filling call asked the same model the same question. -/
structure Filling.SameQuestion (f : Filling) (a : Asking) (prompt : RenderedPrompt)
    (selected : BoundUnderstander) : Prop where
  answeredBySelected : f.bound = selected
  sameCrops : views f.asking.crops = views a.crops
  samePrompt : f.prompt = prompt
  sameContext : contextOf f.asking.request = contextOf a.request
  /-- The port requests now differ in the request id alone; it changes nothing. -/
  idUnread : ∀ crops, views a.crops = .ok crops →
    respond selected (engine.portRequest f.asking.request prompt crops) =
      respond selected (engine.portRequest a.request prompt crops)

namespace History

/-- Whatever a call in flight is answered, it is what that adapter makes of its port
    request: adapters may fail at any time, but not answer differently. -/
def Steady (s : History) : Event → Prop
  | .ask _ _ => True
  | .returns i conditions _ => ∀ a key prompt selected crops,
      s.inFlight[i]? = some a → engine.ask a.request = .keyed key prompt selected →
      views a.crops = .ok crops → ∀ k j bound response,
        (engine.chain a.request selected)[k]? = some bound →
        conditions.reply k j = .answered response →
        respond bound (engine.portRequest a.request prompt crops) = .answered response

/-- A hit answers the question that its entry was stored for. -/
def HitAsksTheSame (s : History) (e : Event) : Prop :=
  ∀ a result, hit engine s e = some (a, result) →
    ∀ key prompt selected f, engine.ask a.request = .keyed key prompt selected →
      s.filledBy key = some f → f.SameQuestion engine respond a prompt selected

/-- A hit says what the selected understander would say to this very request. -/
def HitIsCurrent (s : History) (e : Event) : Prop :=
  ∀ a result, hit engine s e = some (a, result) →
    engine.current respond a = some result.findings

/-- Every answered call was answered by its adapter's function, and the cache holds
    readings of answered calls. -/
structure Genuine (s : History) : Prop where
  kept : Kept engine s
  genuine : ∀ f ∈ s.answered, f.Genuine engine respond

theorem answered_store (s : History) (key : CacheKey) (f : Filling) (result : UnderstandingResult)
    (now : Instant) : (s.store key f result now).answered = s.answered := by
  unfold store
  split <;> rfl

/-- A steady step keeps the stored results genuine. -/
theorem genuine_step {s : History} (h : Genuine engine respond s) {e : Event}
    (hsteady : Steady engine respond s e) : Genuine engine respond (step engine s e) := by
  refine ⟨kept_step engine h.kept e, ?_⟩
  rcases step_cases engine s e with hsame | ⟨a, now, key, prompt, selected, inFlight, -, -, hstep⟩ |
    ⟨i, conditions, now, a, he, hcall, ⟨outcome, hfail, -, hstep⟩ |
      ⟨key, prompt, selected, hask, hstep⟩⟩
  · rw [hsame]
    exact h.genuine
  · rw [hstep]
    exact h.genuine
  · rw [hstep]
    exact h.genuine
  · rw [hstep]
    unfold settle
    cases hchain : engine.invokeChain conditions a.request selected a.crops with
    | none => exact h.genuine
    | some found =>
      obtain ⟨bound, response⟩ := found
      rw [answered_store]
      intro f hf
      rcases List.mem_cons.mp hf with rfl | hf
      · -- The new call: its response is a reply of a link of its chain.
        obtain ⟨⟨crops, hviews⟩, k, j, hlink, hreply⟩ :=
          invokeChain_eq_some hchain
        subst he
        exact ⟨crops, hviews,
          hsteady a key prompt selected crops hcall hask hviews k j bound response hlink hreply⟩
      · exact h.genuine f hf

theorem hitIsCurrent_of_sameQuestion {s : History} (h : Genuine engine respond s) {e : Event}
    (hsame : HitAsksTheSame engine respond s e) : HitIsCurrent engine respond s e := by
  intro a result hhit
  obtain ⟨key, prompt, selected, f, stored, hask, hfilled, hmem, hmade, rfl⟩ :=
    hit_spec engine h.kept hhit
  have hquestion := hsame a _ hhit key prompt selected f hask hfilled
  obtain ⟨crops, hviews, hresponse⟩ := h.genuine f hmem
  obtain ⟨answer, rejected, hread, rfl⟩ := hmade.read
  have hclass : f.asking.request.classId = a.request.classId :=
    congrArg (fun c => c.classId) hquestion.sameContext
  rw [hquestion.samePrompt, hquestion.answeredBySelected] at hresponse hread
  have hseen : views a.crops = .ok crops := hquestion.sameCrops.symm.trans hviews
  have hreply : respond selected (engine.portRequest a.request prompt crops) =
      .answered f.response := (hquestion.idUnread crops hseen).symm.trans hresponse
  obtain ⟨⟨answer', rejected'⟩, hread', hfindings⟩ :=
    read_findings hclass hread
  unfold current
  simp only [hask, hseen, hreply, hread', findings_fromCache, findings_withoutRawOutput,
    findings_report, hfindings]

theorem genuine_start {cache : ResponseCache} (h : Empty cache) :
    Genuine engine respond (start cache) :=
  ⟨kept_start engine h, fun _ hf => nomatch hf⟩

/-- Over any history of calls with steady adapters: where every hit is made of a call
    that put the same question to the selected understander, every hit is current. -/
theorem hits_current {cache : ResponseCache} (hempty : Empty cache) {events : List Event}
    (hsteady : Runs.Always (step engine) (Steady engine respond) (start cache) events)
    (hsame : Runs.Always (step engine) (HitAsksTheSame engine respond) (start cache) events) :
    Runs.Always (step engine) (HitIsCurrent engine respond) (start cache) events := by
  have hkeep : ∀ s e, Genuine engine respond s →
      (Steady engine respond s e ∧ HitAsksTheSame engine respond s e) →
      Genuine engine respond (step engine s e) :=
    fun s e hinv hcond => genuine_step engine respond hinv hcond.1
  have hcurrent : ∀ s e, Genuine engine respond s →
      (Steady engine respond s e ∧ HitAsksTheSame engine respond s e) →
      HitIsCurrent engine respond s e :=
    fun s e hinv hcond => hitIsCurrent_of_sameQuestion engine respond hinv hcond.2
  exact Runs.always_mono_of_kept hkeep hcurrent (genuine_start engine respond hempty)
    (Runs.always_and.mpr ⟨hsteady, hsame⟩)

end History

end Functional

/-! ## Two understanders of headwear -/

def headwearSchema : AttributeSchema where
  key := "headwear"
  valueType := .enum
  domain := ["none", "hairnet"]
  accepted := rfl

/-- The large model and the small one it falls back to. -/
def largeModel : BoundUnderstander := ⟨"vlm.large", "large"⟩
def smallModel : BoundUnderstander := ⟨"attr.small", "small"⟩

def headwearIs (value : String) : PortResponse where
  structured := OrderedDict.ofPairs [("headwear", .str value)]
  refused := false
  refusal_empty := fun h => by cases h

def headwearPrompt : RenderedPrompt where
  promptId := "headwear"
  version := "1"
  text := "describe the headwear"
  outputSchema := { fields := ["headwear"], accepted := by decide }

/-- An engine that asks the large model about headwear, and else the small one. -/
def headwearEngine : AnsweringEngine where
  route attributes := { selected := some largeModel, covered := attributes,
                        fallbacks := [smallModel] }
  resolvePrompt _ _ _ := some ("headwear", "1")
  render _ _ _ := .prompt headwearPrompt
  coerce _ _ := .ok ∅
  validator :=
    { registry := { schemas := OrderedDict.ofPairs [("headwear", headwearSchema)] }
      tools := { readFloat := fun _ => none, showList := String.intercalate ", "
                 str := fun _ => "", lower := id, room := 900 } }
  provenance := { producerModule := "understanding", producerVersion := "1"
                  configRevision := "7", accepted := by decide }
  costClass _ := .finite 1
  deterministic _ := true
  timeout := ⟨5000000000⟩

/-- The large model sees a hairnet where the last crop is bright; the small one sees none. -/
def headwearAdapters (bound : BoundUnderstander) (request : PortRequest) : PortReply :=
  if bound = largeModel ∧ request.crops.getLast?.any (fun c => c.pixels = [255]) then
    .answered (headwearIs "hairnet")
  else .answered (headwearIs "none")

/-- A call about the headwear of one worker: the first crop is dark, the second is given. -/
def headwearCall (requestId : String) (h : requestId ≠ "") (second : CropId) (pixel : UInt8) :
    Asking where
  request :=
    { requestId := ⟨requestId, h⟩
      tenantId := "bakery"
      siteId := "main"
      cameraId := "north"
      objectId := some "worker"
      classId := "person"
      cropIds := ["first", second]
      frameRef := { cameraId := "north", streamEpoch := 1, frameSeq := 10, accepted := by decide }
      requestedAttributes := ["headwear"]
      triggerReason := .firstSight
      tCapture := ⟨100⟩
      quality := {}
      accepted := UnderstandingRequestFields.postInit_eq_ok.mpr ⟨by simp, by simp, rfl⟩ }
  crops := [⟨"first", some [0], 8, 8, "bgr24"⟩, ⟨second, some [pixel], 8, 8, "bgr24"⟩]

def emptyCache : ResponseCache where
  entries := { entries := ∅, capacity := 16, capacity_pos := Nat.le_add_left 1 15 }
  ttl := none
  ttl_nonneg := none_ttl_nonneg

theorem empty_emptyCache : History.Empty emptyCache := fun _ _ => rfl

def conditionsOf (a : Asking) (down : List BoundUnderstander) : AnsweringEngine.Conditions where
  circuitOpen _ := false
  reply i _ :=
    match (headwearEngine.chain a.request largeModel)[i]?, views a.crops with
    | some bound, .ok crops =>
      if bound ∈ down then .fails .unavailable
      else headwearAdapters bound (headwearEngine.portRequest a.request headwearPrompt crops)
    | _, _ => .fails .unavailable

/-- A call is asked and answered, and then the next one is asked. -/
def twoCalls (a b : Asking) (down : List BoundUnderstander) : List Event :=
  [.ask a ⟨100⟩, .returns 0 (conditionsOf a down) ⟨200⟩, .ask b ⟨300⟩]

def Findings.texts (findings : Findings) : List String :=
  findings.accepted.filterMap fun claim =>
    match claim.2.1 with
    | .str text => some text
    | _ => none

theorem steady_twoCalls (a b : Asking) (down : List BoundUnderstander) :
    Runs.Always (step headwearEngine) (History.Steady headwearEngine headwearAdapters)
      (start emptyCache) (twoCalls a b down) := by
  refine ⟨trivial, ?_, trivial, trivial⟩
  intro c key prompt selected crops hcall hask hviews k j bound response hlink hreply
  obtain rfl : a = c := some.inj hcall
  obtain ⟨-, rfl, rfl⟩ := Asked.keyed.inj hask
  have hfirst : (conditionsOf a down).reply k j =
      if bound ∈ down then .fails .unavailable
      else headwearAdapters bound
        (headwearEngine.portRequest a.request headwearPrompt crops) := by
    simp only [conditionsOf, hlink, hviews]
  rw [hfirst] at hreply
  split at hreply
  · cases hreply
  · exact hreply

def lastHit (a b : Asking) (down : List BoundUnderstander) :
    Option (Asking × UnderstandingResult) :=
  hit headwearEngine (Runs.run (step headwearEngine) (start emptyCache)
    [.ask a ⟨100⟩, .returns 0 (conditionsOf a down) ⟨200⟩]) (.ask b ⟨300⟩)

theorem not_current_of_texts {a b : Asking} {down : List BoundUnderstander} {told now : List String}
    (hhit : (lastHit a b down).map (fun r => r.2.findings.texts) = some told)
    (hnow : (headwearEngine.current headwearAdapters b).map Findings.texts = some now)
    (hne : now ≠ told) :
    ¬ Runs.Always (step headwearEngine)
      (History.HitIsCurrent headwearEngine headwearAdapters) (start emptyCache)
      (twoCalls a b down) := by
  rintro ⟨-, -, hlast, -⟩
  obtain ⟨⟨c, result⟩, hr, htold⟩ := map_eq_some_iff.mp hhit
  obtain rfl := hit_asking headwearEngine hr
  rw [hlast b result hr] at hnow
  exact hne ((some.inj hnow).symm.trans htold)

/-- The small model's answer of an outage is served after it, and a sequence of crops is
    answered for another that begins with the same crop. -/
theorem hit_not_current :
    (History.Empty emptyCache ∧
      Runs.Always (step headwearEngine)
        (History.Steady headwearEngine headwearAdapters) (start emptyCache)
        (twoCalls (headwearCall "r1" (by decide) "bright" 255)
          (headwearCall "r2" (by decide) "bright" 255) [largeModel]) ∧
      ¬ Runs.Always (step headwearEngine)
        (History.HitIsCurrent headwearEngine headwearAdapters) (start emptyCache)
        (twoCalls (headwearCall "r1" (by decide) "bright" 255)
          (headwearCall "r2" (by decide) "bright" 255) [largeModel])) ∧
    Runs.Always (step headwearEngine)
      (History.Steady headwearEngine headwearAdapters) (start emptyCache)
      (twoCalls (headwearCall "r1" (by decide) "bright" 255)
        (headwearCall "r2" (by decide) "dark" 0) []) ∧
    ¬ Runs.Always (step headwearEngine)
      (History.HitIsCurrent headwearEngine headwearAdapters) (start emptyCache)
      (twoCalls (headwearCall "r1" (by decide) "bright" 255)
        (headwearCall "r2" (by decide) "dark" 0) []) := by
  refine ⟨⟨empty_emptyCache, steady_twoCalls _ _ _, ?_⟩, steady_twoCalls _ _ _, ?_⟩
  · have hhit : (lastHit (headwearCall "r1" (by decide) "bright" 255)
        (headwearCall "r2" (by decide) "bright" 255) [largeModel]).map
        (fun r => r.2.findings.texts) = some ["none"] := by decide +kernel
    have hnow : (headwearEngine.current headwearAdapters
        (headwearCall "r2" (by decide) "bright" 255)).map Findings.texts =
        some ["hairnet"] := by decide +kernel
    exact not_current_of_texts hhit hnow (by decide)
  · have hhit : (lastHit (headwearCall "r1" (by decide) "bright" 255)
        (headwearCall "r2" (by decide) "dark" 0) []).map
        (fun r => r.2.findings.texts) = some ["hairnet"] := by decide +kernel
    have hnow : (headwearEngine.current headwearAdapters
        (headwearCall "r2" (by decide) "dark" 0)).map Findings.texts = some ["none"] := by
      decide +kernel
    exact not_current_of_texts hhit hnow (by decide)

/-- The same two crops asked about twice, the large model reachable: the second call is
    answered from the cache, and currently. -/
theorem repeated_call_current :
    (lastHit (headwearCall "r1" (by decide) "bright" 255)
      (headwearCall "r2" (by decide) "bright" 255) []).isSome = true ∧
    Runs.Always (step headwearEngine)
      (History.HitIsCurrent headwearEngine headwearAdapters) (start emptyCache)
      (twoCalls (headwearCall "r1" (by decide) "bright" 255)
        (headwearCall "r2" (by decide) "bright" 255) []) := by
  refine ⟨by decide +kernel, ?_⟩
  refine hits_current headwearEngine headwearAdapters empty_emptyCache
    (steady_twoCalls _ _ []) ⟨?_, ?_, ?_, trivial⟩
  · intro a result hhit
    cases hhit
  · intro a result hhit
    cases hhit
  · intro a result hhit key prompt selected f hask hfilled
    obtain rfl := hit_asking headwearEngine hhit
    obtain ⟨-, rfl, rfl⟩ := Asked.keyed.inj hask
    -- Nothing was filled before the first call returned.
    obtain hbefore | ⟨a, key', prompt, selected, bound, response, hcall, hasked, hchain, rfl⟩ :=
      filledBy_returns headwearEngine hfilled
    · cases hbefore
    · obtain rfl := some.inj hcall
      obtain ⟨-, rfl, rfl⟩ := Asked.keyed.inj hasked
      have hbound : (headwearEngine.invokeChain
          (conditionsOf (headwearCall "r1" (by decide) "bright" 255) [])
          (headwearCall "r1" (by decide) "bright" 255).request largeModel
          (headwearCall "r1" (by decide) "bright" 255).crops).map Prod.fst = some largeModel := by
        decide +kernel
      rw [hchain] at hbound
      exact ⟨some.inj hbound, rfl, rfl, rfl, fun crops _ => rfl⟩

end VisionOs.Understanding
