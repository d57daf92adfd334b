/-
  The response cache, bounded and with a time to live; its key is the question put to one model
  about one crop.  `UnderstandingEngine.understand` in its two steps on shared state: the lookup,
  and the return of the model call.  Routing, prompts and models are parameters.
-/
import VisionOs.Lib.Bounded
import VisionOs.Understanding.Model
import Mathlib.Data.List.Sort

namespace VisionOs.Understanding

open Core Cropping Lib UnderstandingResultFields LruCache

structure CacheKey where
  tenantId : String
  cropId : String
  promptVersion : String
  modelVersion : String
  attributes : String
  deriving DecidableEq, Repr

def cacheKey (tenantId : TenantId) (cropId : CropId) (promptVersion modelVersion : String)
    (attributes : List AttributeKey) : CacheKey where
  tenantId
  cropId
  promptVersion
  modelVersion
  attributes := String.intercalate "," (attributes.insertionSort (fun a b => a ≤ b))

structure CacheEntry where
  result : UnderstandingResult
  storedAt : Instant

/-- The response cache.  The configuration accepts no time to live below a millisecond. -/
structure ResponseCache where
  entries : LruCache CacheKey CacheEntry
  ttl : Option Duration
  ttl_nonneg : ∀ d, ttl = some d → 0 ≤ d.ns

theorem none_ttl_nonneg (d : Duration) (h : none = some d) : 0 ≤ d.ns := nomatch h

def expired (ttl : Option Duration) (entry : CacheEntry) (now : Instant) : Bool :=
  match ttl with
  | none => false
  | some ttl => now.ns - entry.storedAt.ns > ttl.ns

namespace ResponseCache

/-- `get`: the cache after the lookup, and what it found. -/
def get (c : ResponseCache) (key : CacheKey) (now : Instant) :
    ResponseCache × Option UnderstandingResult :=
  match c.entries.find? key with
  | none => (c, none)
  | some entry =>
    if expired c.ttl entry now then ({ c with entries := c.entries.remove key }, none)
    else ({ c with entries := c.entries.use key }, some entry.result)

def put (c : ResponseCache) (key : CacheKey) (result : UnderstandingResult) (now : Instant) :
    ResponseCache :=
  if result.outcome.isFailure then c
  else { c with entries := c.entries.insert key ⟨result.withoutRawOutput, now⟩ }

def answers (c : ResponseCache) (key : CacheKey) (now : Instant) : Option UnderstandingResult :=
  (c.get key now).2

/-! ## Lookup -/

variable {c : ResponseCache} {now : Instant} {key : CacheKey} {result : UnderstandingResult}

theorem answers_eq_some :
    c.answers key now = some result ↔ ∃ entry, c.entries.find? key = some entry ∧
      expired c.ttl entry now = false ∧ entry.result = result := by
  unfold answers get
  cases hfind : c.entries.find? key with
  | none => simp
  | some entry => cases hexpired : expired c.ttl entry now <;> simp [hexpired]

@[simp] theorem get_ttl (c : ResponseCache) (key : CacheKey) (now : Instant) :
    (c.get key now).1.ttl = c.ttl := by
  unfold get
  split
  · rfl
  · split <;> rfl

@[simp] theorem put_ttl (c : ResponseCache) (key : CacheKey) (result : UnderstandingResult)
    (now : Instant) : (c.put key result now).ttl = c.ttl := by
  unfold put
  split <;> rfl

variable {key' : CacheKey}

theorem find?_of_get
    {entry : CacheEntry} (h : (c.get key now).1.entries.find? key' = some entry) :
    c.entries.find? key' = some entry := by
  unfold get at h
  split at h
  · exact h
  split at h
  · have hremove : (c.entries.remove key).find? key' = some entry := h
    rw [find?_remove] at hremove
    by_cases hk : key' = key
    · rw [if_pos hk] at hremove
      cases hremove
    · rw [if_neg hk] at hremove
      exact hremove
  · have huse : (c.entries.use key).find? key' = some entry := h
    rw [find?_use] at huse
    exact huse

theorem answers_get (c : ResponseCache) (key key' : CacheKey) (now : Instant) :
    (c.get key now).1.answers key' now = c.answers key' now := by
  ext result
  rw [answers_eq_some, answers_eq_some, get_ttl]
  constructor
  · rintro ⟨entry, hfind, hlive, hresult⟩
    exact ⟨entry, find?_of_get hfind, hlive, hresult⟩
  · rintro ⟨entry, hfind, hlive, hresult⟩
    refine ⟨entry, ?_, hlive, hresult⟩
    unfold get
    cases hkey : c.entries.find? key with
    | none => exact hfind
    | some entry' =>
      dsimp only
      split
      · -- The entry taken out is expired, so it is not the one under `key'`.
        rename_i hexpired
        rw [find?_remove]
        by_cases hk : key' = key
        · rw [hk, hkey] at hfind
          rw [Option.some.inj hfind, hlive] at hexpired
          cases hexpired
        · rw [if_neg hk]
          exact hfind
      · rw [find?_use]
        exact hfind

variable {later : Instant}

theorem answers_of_get
    (h : (c.get key later).1.answers key' now = some result) :
    c.answers key' now = some result := by
  rw [answers_eq_some, get_ttl] at h
  obtain ⟨entry, hfind, hlive, hresult⟩ := h
  rw [answers_eq_some]
  exact ⟨entry, find?_of_get hfind, hlive, hresult⟩

theorem answers_earlier
    (hle : now.ns ≤ later.ns)
    (h : c.answers key later = some result) : c.answers key now = some result := by
  rw [answers_eq_some] at h ⊢
  obtain ⟨entry, hfind, hlive, hresult⟩ := h
  refine ⟨entry, hfind, ?_, hresult⟩
  unfold expired at hlive ⊢
  cases httl : c.ttl with
  | none => rfl
  | some ttl =>
    simp only [httl, gt_iff_lt, decide_eq_false_iff_not, not_lt] at hlive ⊢
    omega

theorem put_of_failure
    (h : result.outcome.isFailure = true) : c.put key result now = c := by
  unfold put
  rw [if_pos h]

variable {r : UnderstandingResult}

theorem answers_of_put
    (h : (c.put key result later).answers key' now = some r) :
    (key' = key ∧ r = result.withoutRawOutput) ∨ c.answers key' now = some r := by
  rw [answers_eq_some, put_ttl] at h
  obtain ⟨entry, hfind, hlive, hresult⟩ := h
  rw [answers_eq_some]
  unfold put at hfind
  split at hfind
  · exact .inr ⟨entry, hfind, hlive, hresult⟩
  · rcases find?_of_insert hfind with ⟨hkey, hentry⟩ | hbefore
    · rw [hentry] at hresult
      exact .inl ⟨hkey, hresult.symm⟩
    · exact .inr ⟨entry, hbefore, hlive, hresult⟩

theorem answers_put_self
    (hanswer : result.outcome.isFailure = false)
    (h : (c.put key result later).answers key now = some r) : r = result.withoutRawOutput := by
  rw [answers_eq_some] at h
  obtain ⟨entry, hfind, -, hresult⟩ := h
  unfold put at hfind
  rw [if_neg (by rw [hanswer]; decide)] at hfind
  have hself : some (⟨result.withoutRawOutput, later⟩ : CacheEntry) = some entry := by
    rw [← hfind]
    exact (find?_insert_self _ _ _).symm
  rw [← hresult, ← Option.some.inj hself]

theorem answers_put
    (h : result.outcome.isFailure = false) :
    (c.put key result now).answers key now = some result.withoutRawOutput := by
  rw [answers_eq_some, put_ttl]
  refine ⟨⟨result.withoutRawOutput, now⟩, ?_, ?_, rfl⟩
  · unfold put
    rw [if_neg (by rw [h]; decide)]
    exact find?_insert_self _ _ _
  · unfold expired
    cases httl : c.ttl with
    | none => rfl
    | some ttl =>
      have hnonneg := c.ttl_nonneg ttl httl
      simp only [sub_self, gt_iff_lt, decide_eq_false_iff_not, not_lt]
      exact hnonneg

end ResponseCache

structure Question where
  attributes : List AttributeKey
  demandIds : List String
  triggerReason : TriggerReason
  deriving DecidableEq

def UnderstandingRequest.question (q : UnderstandingRequest) : Question :=
  ⟨q.requestedAttributes, q.demandIds, q.triggerReason⟩

def UnderstandingResult.question (r : UnderstandingResult) : Question :=
  ⟨r.requestedAttributes, r.demandIds, r.evidence.triggerReason⟩

@[simp] theorem question_withoutRawOutput (r : UnderstandingResult) :
    r.withoutRawOutput.question = r.question := rfl

structure BoundUnderstander where
  adapterId : String
  modelId : String
  deriving DecidableEq

structure RoutingDecision where
  selected : Option BoundUnderstander := none
  covered : List AttributeKey := []
  uncovered : List AttributeKey := []

structure RenderContext where
  classId : ClassId
  requestedAttributes : List AttributeKey
  quality : QualityGrades

inductive Rendering where
  | prompt (promptId version : String)
  | unavailable
  | raised

structure UnderstandingEngine where
  route : List AttributeKey → RoutingDecision
  resolvePrompt : List AttributeKey → ClassId → String → Option (String × String)
  render : String → String → RenderContext → Rendering
  maxConcurrency : Nat
  remoteConcurrency : Nat
  maxBatchSize : Nat
  maxConcurrency_pos : 1 ≤ maxConcurrency
  remoteConcurrency_pos : 1 ≤ remoteConcurrency
  maxBatchSize_pos : 1 ≤ maxBatchSize

inductive ModelAnswer where
  | failed
  | refused (rawOutput : List UInt8)
  | interpreted (accepted : List Attribute) (costUnits : PyFloat) (rawOutput : List UInt8)

/-! ## Results -/

def rawOrNone (raw : List UInt8) : Option (List UInt8) := if raw.isEmpty then none else some raw

def evidence (q : UnderstandingRequest) : UnderstandingEvidence where
  triggerReason := q.triggerReason
  frameRef := q.frameRef
  cropRef := some q.primaryCrop

def failed (q : UnderstandingRequest) (outcome : UnderstandingOutcome)
    (h : outcome ≠ .succeeded) : UnderstandingResult where
  requestId := q.requestId
  tenantId := q.tenantId
  siteId := q.siteId
  cameraId := q.cameraId
  objectId := q.objectId
  classId := q.classId
  outcome
  evidence := evidence q
  requestedAttributes := q.requestedAttributes
  demandIds := q.demandIds
  accepted := postInit_eq_ok.mpr
    ⟨fun hnone => (by cases hnone), fun hsucceeded => absurd hsucceeded h, fun hne => absurd rfl hne⟩

def completed (q : UnderstandingRequest) (outcome : UnderstandingOutcome)
    (attributes : List Attribute) (costUnits : PyFloat) (raw : List UInt8)
    (hsucceeded : outcome = .succeeded → attributes ≠ []) (hanswer : outcome.isFailure = false) :
    UnderstandingResult where
  requestId := q.requestId
  tenantId := q.tenantId
  siteId := q.siteId
  cameraId := q.cameraId
  objectId := q.objectId
  classId := q.classId
  outcome
  evidence := evidence q
  attributes
  requestedAttributes := q.requestedAttributes
  demandIds := q.demandIds
  costUnits
  rawOutput := rawOrNone raw
  accepted := postInit_eq_ok.mpr
    ⟨fun hnone => (by cases hnone), hsucceeded, fun _ => hanswer⟩

def interpret (q : UnderstandingRequest) : ModelAnswer → UnderstandingResult
  | .failed => failed q .unavailable (by decide)
  | .refused raw => completed q .refused [] (.finite 0) raw (fun h => by cases h) rfl
  | .interpreted [] costUnits raw =>
    completed q .noAttributes [] costUnits raw (fun h => by cases h) rfl
  | .interpreted (a :: rest) costUnits raw =>
    completed q .succeeded (a :: rest) costUnits raw (fun _ => by simp) rfl

def fromCache (q : UnderstandingRequest) (cached : UnderstandingResult) : UnderstandingResult :=
  { cached with
    requestId := q.requestId
    cacheHit := true
    costUnits := .finite 0
    accepted := postInit_eq_ok.mpr
      (postInit_eq_ok.mp cached.accepted) }

@[simp] theorem question_interpret (q : UnderstandingRequest) (answer : ModelAnswer) :
    (interpret q answer).question = q.question := by
  rcases answer with _ | _ | ⟨_ | ⟨_, _⟩, _, _⟩ <;> rfl

@[simp] theorem requestId_interpret (q : UnderstandingRequest) (answer : ModelAnswer) :
    (interpret q answer).requestId = q.requestId := by
  rcases answer with _ | _ | ⟨_ | ⟨_, _⟩, _, _⟩ <;> rfl

inductive Lookup where
  | fails (outcome : UnderstandingOutcome) (h : outcome ≠ .succeeded)
  | keyed (key : CacheKey)

def UnderstandingEngine.lookup (engine : UnderstandingEngine) (attributes : List AttributeKey)
    (classId : ClassId) (quality : QualityGrades) (tenantId : TenantId) (cropId : CropId) :
    Lookup :=
  let decision := engine.route attributes
  match decision.selected with
  | none => .fails .unsupported (by decide)
  | some bound =>
    match engine.resolvePrompt attributes classId bound.modelId with
    | none => .fails .unsupported (by decide)
    | some (promptId, version) =>
      match engine.render promptId version ⟨classId, attributes, quality⟩ with
      | .unavailable => .fails .unsupported (by decide)
      -- The guard of `understand`.
      | .raised => .fails .unavailable (by decide)
      | .prompt promptId version =>
        .keyed (cacheKey tenantId cropId s!"{promptId}@{version}" bound.modelId decision.covered)

def UnderstandingEngine.lookupOf (engine : UnderstandingEngine) (q : UnderstandingRequest) :
    Lookup :=
  engine.lookup q.requestedAttributes q.classId q.quality q.tenantId q.primaryCrop

def UnderstandingEngine.batchWorkers (engine : UnderstandingEngine) (requests : Nat) : Nat :=
  min (max 1 (min engine.maxConcurrency engine.remoteConcurrency)) requests

end VisionOs.Understanding
