/-
  The model call of one request in full: the chain of the selected understander and its fallbacks
  with their retries, and what the engine reads out of the response.  What an adapter replies, and
  whether a circuit is open, are given from outside.
-/
import VisionOs.Understanding.Engine
import VisionOs.Understanding.Validation

namespace VisionOs.Understanding

open Core Cropping Lib Registry UnderstandingResultFields

structure InformedRequest extends UnderstandingRequest where
  priorAttributes : List (AttributeKey × PyValue) := []

structure HeldCrop where
  cropId : CropId
  pixels : Option (List UInt8)
  width : Int
  height : Int
  colourSpace : String := "bgr24"
  deriving DecidableEq

structure CropView where
  cropId : CropId
  pixels : List UInt8
  width : Int
  height : Int
  colourSpace : String
  width_pos : 0 < width
  height_pos : 0 < height
  deriving DecidableEq

/-- How a call to an adapter ends without a response. -/
inductive Outage where
  | timedOut | unavailable | raised
  deriving DecidableEq, Repr

def HeldCrop.view (c : HeldCrop) (pixels : List UInt8) : Except Outage CropView :=
  if h : 0 < c.width ∧ 0 < c.height then
    .ok ⟨c.cropId, pixels, c.width, c.height, c.colourSpace, h.1, h.2⟩
  else .error .raised

def readable : List HeldCrop → Except Outage (List CropView)
  | [] => .ok []
  | c :: rest =>
    match c.pixels with
    | none => readable rest
    | some pixels => do
      let view ← c.view pixels
      let others ← readable rest
      return view :: others

def views (crops : List HeldCrop) : Except Outage (List CropView) := do
  let found ← readable crops
  if found.isEmpty then .error .unavailable else return found

structure PromptContext extends RenderContext where
  priorAttributes : List (AttributeKey × PyValue)

def contextOf (q : InformedRequest) : PromptContext where
  classId := q.classId
  requestedAttributes := q.requestedAttributes
  quality := q.quality
  priorAttributes := q.priorAttributes

structure RenderedPrompt where
  promptId : String
  version : String
  text : String
  outputSchema : OutputSchema
  maxOutputTokens : Int := 512
  deriving DecidableEq

def RenderedPrompt.pinned (p : RenderedPrompt) : String := s!"{p.promptId}@{p.version}"

structure PortRequest where
  requestId : Ulid
  crops : List CropView
  prompt : RenderedPrompt
  outputSchema : OutputSchema
  context : PromptContext
  maxTokens : Int
  timeout : Duration
  temperature : PyFloat

structure ModelMeta where
  modelId : String
  modelVersion : String
  artifactHash : String
  adapterId : String := ""
  deterministic : Bool := false
  modelId_ne_empty : modelId ≠ ""
  artifactHash_ne_empty : artifactHash ≠ ""

structure PortResponse where
  structured : OrderedDict String PyValue := ∅
  unparsed : Option String := none
  fieldConfidence : Option (OrderedDict String PyFloat) := none
  rawOutput : List UInt8 := []
  modelMeta : Option ModelMeta := none
  refused : Bool := false
  refusal_empty : refused = true → structured.entries = []

inductive PortReply where
  | answered (response : PortResponse)
  | fails (outage : Outage)

structure ChainedDecision extends RoutingDecision where
  fallbacks : List BoundUnderstander := []

inductive RenderOutcome where
  | prompt (prompt : RenderedPrompt)
  | unavailable
  | raised

structure AnsweringEngine where
  route : List AttributeKey → ChainedDecision
  resolvePrompt : List AttributeKey → ClassId → String → Option (String × String)
  render : String → String → PromptContext → RenderOutcome
  /-- The coercion port, on text the adapter did not parse. -/
  coerce : String → OutputSchema → Raises (OrderedDict String PyValue)
  validator : AttributeValidator
  provenance : Provenance
  costClass : BoundUnderstander → PyFloat
  deterministic : BoundUnderstander → Bool
  maxRetries : Int := 1
  timeout : Duration
  temperature : PyFloat := .finite 0

inductive Asked where
  | fails (outcome : UnderstandingOutcome) (h : outcome ≠ .succeeded)
  | keyed (key : CacheKey) (prompt : RenderedPrompt) (selected : BoundUnderstander)

namespace AnsweringEngine

def ask (engine : AnsweringEngine) (q : InformedRequest) : Asked :=
  let decision := engine.route q.requestedAttributes
  match decision.selected with
  | none => .fails .unsupported nofun
  | some bound =>
    match engine.resolvePrompt q.requestedAttributes q.classId bound.modelId with
    | none => .fails .unsupported nofun
    | some (promptId, version) =>
      match engine.render promptId version (contextOf q) with
      | .unavailable => .fails .unsupported nofun
      -- The guard of `understand`.
      | .raised => .fails .unavailable nofun
      | .prompt prompt =>
        .keyed (cacheKey q.tenantId q.primaryCrop prompt.pinned bound.modelId decision.covered)
          prompt bound

def attempts (engine : AnsweringEngine) : Nat := 1 + engine.maxRetries.toNat

def portRequest (engine : AnsweringEngine) (q : InformedRequest) (prompt : RenderedPrompt)
    (crops : List CropView) : PortRequest where
  requestId := q.requestId
  crops
  prompt
  outputSchema := prompt.outputSchema
  context := contextOf q
  maxTokens := prompt.maxOutputTokens
  timeout := engine.timeout
  temperature := engine.temperature

/-- What the chain finds as it comes to link `i`, and in attempt `j` there: another
    request may have opened the circuit or hold every slot of the model. -/
structure Conditions where
  circuitOpen : Nat → Bool
  reply : Nat → Nat → PortReply

def attemptLink (reply : Nat → PortReply) : Nat → Nat → Option PortResponse
  | 0, _ => none
  | left + 1, j =>
    match reply j with
    | .answered response => some response
    | .fails .timedOut => attemptLink reply left (j + 1)
    | .fails _ => none

def followChain (engine : AnsweringEngine) (conditions : Conditions) :
    Nat → List BoundUnderstander → Option (BoundUnderstander × PortResponse)
  | _, [] => none
  | i, bound :: rest =>
    if conditions.circuitOpen i then engine.followChain conditions (i + 1) rest
    else
      match attemptLink (conditions.reply i) engine.attempts 0 with
      | some response => some (bound, response)
      | none => engine.followChain conditions (i + 1) rest

def chain (engine : AnsweringEngine) (q : InformedRequest) (selected : BoundUnderstander) :
    List BoundUnderstander :=
  selected :: (engine.route q.requestedAttributes).fallbacks

def invokeChain (engine : AnsweringEngine) (conditions : Conditions) (q : InformedRequest)
    (selected : BoundUnderstander) (crops : List HeldCrop) :
    Option (BoundUnderstander × PortResponse) :=
  match views crops with
  | .error _ => none
  | .ok _ => engine.followChain conditions 0 (engine.chain q selected)

/-! ### The reading of a response -/

def metaFor (engine : AnsweringEngine) (bound : BoundUnderstander) : Raises ModelMeta :=
  if h : bound.modelId ≠ "" then
    .ok
      { modelId := bound.modelId
        modelVersion := "unknown"
        artifactHash := "unreported"
        adapterId := bound.adapterId
        deterministic := engine.deterministic bound
        modelId_ne_empty := h
        artifactHash_ne_empty := by decide }
  else .error (.valueError "model metadata requires a model_id")

def attribution (engine : AnsweringEngine) (model : ModelMeta) : Raises Provenance :=
  Provenance.construct
    { engine.provenance.toProvenanceFields with
      adapterId := if model.adapterId = "" then none else some model.adapterId
      modelId := some model.modelId
      modelVersion := some model.modelVersion
      modelArtifactHash := some model.artifactHash
      deterministic := model.deterministic }

def coerced (engine : AnsweringEngine) (schema : OutputSchema) (response : PortResponse) :
    Raises (OrderedDict String PyValue) :=
  if response.structured.entries ≠ [] then .ok response.structured
  else
    match response.unparsed with
    | none => .ok ∅
    | some text => if text = "" then .ok ∅ else engine.coerce text schema

def gateContext (q : InformedRequest) (prompt : RenderedPrompt) (response : PortResponse)
    (producer : Provenance) : GateContext where
  schema := prompt.outputSchema
  classId := q.classId
  observedAt := q.tCapture
  producer
  evidenceRef := some q.primaryCrop
  fieldConfidence := response.fieldConfidence

def modelOf (engine : AnsweringEngine) (bound : BoundUnderstander) (response : PortResponse) :
    Raises ModelMeta :=
  match response.modelMeta with
  | some model => .ok model
  | none => engine.metaFor bound

def read (engine : AnsweringEngine) (q : InformedRequest) (prompt : RenderedPrompt)
    (bound : BoundUnderstander) (response : PortResponse) :
    Raises (ModelAnswer × List RejectedField) := do
  let model ← engine.modelOf bound response
  if response.refused then .ok (.refused response.rawOutput, [])
  else do
    let structured ← engine.coerced prompt.outputSchema response
    let producer ← engine.attribution model
    let validation ← engine.validator.validate structured (gateContext q prompt response producer)
    return (.interpreted validation.accepted (engine.costClass bound) response.rawOutput,
      validation.rejected)

end AnsweringEngine

/-- The result of a model's answer, with the fields the gate refused. -/
def report (q : UnderstandingRequest) (answer : ModelAnswer) (rejected : List RejectedField) :
    UnderstandingResult :=
  { interpret q answer with
    rejectedFields := rejected
    accepted := postInit_eq_ok.mpr
      (postInit_eq_ok.mp (interpret q answer).accepted) }

namespace AnsweringEngine

/-- The result `_invoke_chain` returns; an exception while reading meets the guard of
    `understand`. -/
def answer (engine : AnsweringEngine) (conditions : Conditions) (q : InformedRequest)
    (prompt : RenderedPrompt) (selected : BoundUnderstander) (crops : List HeldCrop) :
    UnderstandingResult :=
  match engine.invokeChain conditions q selected crops with
  | none => failed q.toUnderstandingRequest .unavailable nofun
  | some (bound, response) =>
    match engine.read q prompt bound response with
    | .error _ => failed q.toUnderstandingRequest .unavailable nofun
    | .ok (answer, rejected) => report q.toUnderstandingRequest answer rejected

/-! ## What the chain and the reading come to -/

variable {response : PortResponse}

theorem attemptLink_eq_some {reply : Nat → PortReply} {left j : Nat}
    (h : attemptLink reply left j = some response) : ∃ k, reply k = .answered response := by
  induction left generalizing j with
  | zero => cases h
  | succ left ih =>
    rw [attemptLink] at h
    cases hreply : reply j with
    | answered found =>
      rw [hreply] at h
      exact ⟨j, by rw [hreply, Option.some.inj h]⟩
    | fails outage =>
      rw [hreply] at h
      cases outage with
      | timedOut => exact ih h
      | unavailable => cases h
      | raised => cases h

variable {engine : AnsweringEngine}

variable {bound : BoundUnderstander} {conditions : Conditions}

theorem followChain_eq_some {i : Nat} {links : List BoundUnderstander}
    (h : engine.followChain conditions i links = some (bound, response)) :
    ∃ k j, links[k]? = some bound ∧ conditions.reply (i + k) j = .answered response := by
  induction links generalizing i with
  | nil => cases h
  | cons link rest ih =>
    -- Where the first link does not answer, the others are numbered from the next.
    have hlater : engine.followChain conditions (i + 1) rest = some (bound, response) →
        ∃ k j, (link :: rest)[k]? = some bound ∧
          conditions.reply (i + k) j = .answered response := by
      intro hrest
      obtain ⟨k, j, hlink, hreply⟩ := ih hrest
      refine ⟨k + 1, j, hlink, ?_⟩
      rwa [Nat.add_right_comm, Nat.add_assoc] at hreply
    rw [followChain] at h
    split at h
    · exact hlater h
    · split at h
      · rename_i found hfound
        obtain ⟨j, hj⟩ := attemptLink_eq_some hfound
        obtain ⟨rfl, rfl⟩ := Prod.mk.inj (Option.some.inj h)
        exact ⟨0, j, rfl, hj⟩
      · exact hlater h

variable {q : InformedRequest} {selected : BoundUnderstander} {crops : List HeldCrop}

theorem invokeChain_eq_some
    (h : engine.invokeChain conditions q selected crops = some (bound, response)) :
    (∃ seen, views crops = .ok seen) ∧
      ∃ k j, (engine.chain q selected)[k]? = some bound ∧
        conditions.reply k j = .answered response := by
  unfold invokeChain at h
  cases hviews : views crops with
  | error outage =>
    rw [hviews] at h
    cases h
  | ok seen =>
    rw [hviews] at h
    obtain ⟨k, j, hlink, hreply⟩ := followChain_eq_some h
    rw [Nat.zero_add] at hreply
    exact ⟨⟨seen, rfl⟩, k, j, hlink, hreply⟩

theorem answer_spec {prompt : RenderedPrompt}
    (h : (engine.answer conditions q prompt selected crops).outcome.isFailure = false) :
    ∃ bound response answer rejected,
      engine.invokeChain conditions q selected crops = some (bound, response) ∧
      engine.read q prompt bound response = .ok (answer, rejected) ∧
      engine.answer conditions q prompt selected crops =
        report q.toUnderstandingRequest answer rejected := by
  unfold answer at h ⊢
  cases hchain : engine.invokeChain conditions q selected crops with
  | none =>
    rw [hchain] at h
    cases h
  | some found =>
    obtain ⟨bound, response⟩ := found
    rw [hchain] at h
    dsimp only at h ⊢
    cases hread : engine.read q prompt bound response with
    | error e =>
      rw [hread] at h
      cases h
    | ok reading =>
      obtain ⟨answer, rejected⟩ := reading
      exact ⟨bound, response, answer, rejected, rfl, hread, rfl⟩

end AnsweringEngine

end VisionOs.Understanding
