/-
  `CropManager.evaluate`: from the trigger policy's decisions to the requests of a frame, one for
  each object and evidence group, in priority order while the budget lasts.  `CropRuntime`: one
  lease a frame, and a `CropHandoff` whose crops stand in the order of its requests.
-/
import VisionOs.Cropping.Request
import VisionOs.Lib.OrderedDict
import Mathlib.Data.List.Sort

namespace VisionOs.Cropping

open Core Lib List OrderedDict

/-- What the manager reads of a visual object. -/
structure VisualObject where
  objectId : ObjectId
  tenantId : TenantId
  siteId : SiteId
  classId : ClassId
  bbox : Option Box := none
  deriving DecidableEq

structure FrameContext where
  frameRef : FrameRef
  tCapture : Instant
  deriving DecidableEq

/-- A horizontal band of an object: where it starts and how high it is. -/
structure Band where
  top : PyFloat
  height : PyFloat
  deriving DecidableEq, Repr

structure CropConfig where
  maxCandidatesPerFrame : Nat
  priorityClasses : List String := []
  evidenceRegions : OrderedDict String Band := ∅

def bandLe : Option Band → Option Band → Bool
  | none, _ => true
  | some _, none => false
  | some a, some b => a.top.lt b.top || (a.top.eq b.top && a.height.le b.height)

def addToBucket (regions : OrderedDict String Band)
    (buckets : OrderedDict (Option Band) (List AttributeKey)) (key : AttributeKey) :
    OrderedDict (Option Band) (List AttributeKey) :=
  let band := regions.get? key
  buckets.set band ((buckets.get? band).getD [] ++ [key])

def evidenceGroups (regions : OrderedDict String Band) (attributes : List AttributeKey) :
    List (List AttributeKey) :=
  let buckets := attributes.foldl (addToBucket regions) ∅
  (buckets.entries.insertionSort (fun a b => bandLe a.1 b.1)).map
    (fun bucket => bucket.2.insertionSort (fun a b => a ≤ b))

variable {regions : OrderedDict String Band}

theorem addToBucket_ne_nil
    {buckets : OrderedDict (Option Band) (List AttributeKey)} {key : AttributeKey}
    (h : ∀ e ∈ buckets.entries, e.2 ≠ []) :
    ∀ e ∈ (addToBucket regions buckets key).entries, e.2 ≠ [] := by
  rintro ⟨band, keys⟩ he
  have hget := get?_eq_some_iff.mpr he
  unfold addToBucket at hget
  rcases get?_of_set hget with ⟨-, rfl⟩ | ⟨-, hget⟩
  · simp
  · exact h (band, keys) (get?_eq_some_iff.mp hget)

theorem evidenceGroups_ne_nil
    {attributes : List AttributeKey} {group : List AttributeKey}
    (h : group ∈ evidenceGroups regions attributes) : group ≠ [] := by
  -- Every bucket is made with a key in it and only grows.
  have hbuckets : ∀ e ∈ (attributes.foldl (addToBucket regions) ∅).entries, e.2 ≠ [] := by
    refine List.foldlRecOn (motive := fun buckets => ∀ e ∈ buckets.entries, e.2 ≠ [])
      attributes (addToBucket regions) ?_ ?_
    · intro e he
      cases he
    · exact fun _ hbuckets _ _ => addToBucket_ne_nil hbuckets
  obtain ⟨bucket, hbucket, rfl⟩ := mem_map.mp h
  have hmem := (mem_insertionSort _).mp hbucket
  have hne := hbuckets bucket hmem
  intro hnil
  have hlength := length_insertionSort (fun a b => a ≤ b) bucket.2
  rw [hnil] at hlength
  exact hne (length_eq_zero_iff.mp hlength.symm)

def rank (priorityClasses : List String) (priorityClass : String) : Nat :=
  let order := ofPairs priorityClasses.zipIdx
  (order.get? priorityClass).getD order.size

structure AdmissionCandidate where
  decision : TriggerDecision
  reason : TriggerReason
  obj : VisualObject

def order (priorityClasses : List String) (candidates : List AdmissionCandidate) :
    List AdmissionCandidate :=
  candidates.insertionSort (fun a b => rank priorityClasses a.decision.priorityClass ≤
    rank priorityClasses b.decision.priorityClass)

/-! ## Admission -/

def degenerateBox : Box where
  x1 := .finite 0
  y1 := .finite 0
  x2 := .round (1 / 10000)
  y2 := .round (1 / 10000)
  accepted := by decide +kernel

def boxOf (obj : VisualObject) : Box := obj.bbox.getD degenerateBox

def cropRequest (frame : FrameContext) (item : AdmissionCandidate) (group : List AttributeKey) :
    CropRequest where
  objectId := item.obj.objectId
  cameraId := frame.frameRef.cameraId
  frameRef := frame.frameRef
  sourceBox := boxOf item.obj
  triggerReason := item.reason
  tenantId := item.obj.tenantId
  siteId := item.obj.siteId
  classId := item.obj.classId
  requiredAttributes := group
  priorityClass := item.decision.priorityClass
  demandIds := item.decision.demandIds
  accepted := require_eq_ok.mpr rfl

section Admission

-- The understanding budget: its state, and its answer to one `try_spend`.
variable {β : Type} (trySpend : β → List String → Bool × β)

/-- What `_admit` has gathered so far. -/
structure Admission (β : Type) where
  requests : List CropRequest := []
  skipped : List Skipped := []
  budget : β

def admitGroup (config : CropConfig) (frame : FrameContext) (item : AdmissionCandidate)
    (s : Admission β) (group : List AttributeKey) : Admission β :=
  let skip (reason : SkipReason) (detail : String) : Skipped :=
    { objectId := item.obj.objectId, cameraId := frame.frameRef.cameraId, reason, detail
      attributeKeys := group }
  if config.maxCandidatesPerFrame ≤ s.requests.length then
    { s with skipped := s.skipped ++ [skip .priorityPreempted
        s!"per-frame candidate ceiling ({config.maxCandidatesPerFrame}) reached"] }
  else
    match trySpend s.budget item.decision.demandIds with
    | (false, budget) =>
      { s with
        skipped := s.skipped ++ [skip .budgetExhausted "understanding budget spent for this window"]
        budget }
    | (true, budget) =>
      { s with requests := s.requests ++ [cropRequest frame item group], budget }

def admitFiring (config : CropConfig) (frame : FrameContext) (firing : List AdmissionCandidate)
    (budget : β) : Admission β :=
  (order config.priorityClasses firing).foldl
    (fun s item => (evidenceGroups config.evidenceRegions item.decision.attributes).foldl
      (admitGroup trySpend config frame item) s)
    { budget }

def MadeFor (config : CropConfig) (frame : FrameContext) (firing : List AdmissionCandidate)
    (r : CropRequest) : Prop :=
  ∃ item ∈ firing, ∃ group ∈ evidenceGroups config.evidenceRegions item.decision.attributes,
    r = cropRequest frame item group

theorem admitGroup_requests (config : CropConfig) (frame : FrameContext)
    (item : AdmissionCandidate) (s : Admission β) (group : List AttributeKey) {r : CropRequest}
    (h : r ∈ (admitGroup trySpend config frame item s group).requests) :
    r ∈ s.requests ∨ r = cropRequest frame item group := by
  unfold admitGroup at h
  split at h
  · exact .inl h
  · split at h
    · exact .inl h
    · rcases mem_append.mp h with h | h
      · exact .inl h
      · exact .inr (mem_singleton.mp h)

theorem admitFiring_requests (config : CropConfig) (frame : FrameContext)
    (firing : List AdmissionCandidate) (budget : β) :
    ∀ r ∈ (admitFiring trySpend config frame firing budget).requests, MadeFor config frame firing r := by
  -- The outer loop is over the candidates, the inner over the groups of one of them.
  refine List.foldlRecOn (motive := fun s : Admission β => ∀ r ∈ s.requests,
      MadeFor config frame firing r)
    (order config.priorityClasses firing) _ ?_ ?_
  · intro r hr
    cases hr
  · intro s hs item hitem
    refine List.foldlRecOn (motive := fun s : Admission β => ∀ r ∈ s.requests,
      MadeFor config frame firing r)
      _ (admitGroup trySpend config frame item) hs ?_
    intro s hs group hgroup r hr
    rcases admitGroup_requests trySpend config frame item s group hr with hr | hr
    · exact hs r hr
    · exact ⟨item, (mem_insertionSort _).mp hitem, group, hgroup, hr⟩

/-! ## Evaluation -/

def splitDecisions (cameraId : CameraId) (byId : OrderedDict ObjectId VisualObject) :
    List TriggerDecision → Option (List AdmissionCandidate × List Skipped)
  | [] => some ([], [])
  | decision :: rest =>
    match byId.get? decision.objectId, splitDecisions cameraId byId rest with
    | some obj, some (firing, skipped) =>
      match decision.reason, decision.skip with
      | some reason, _ => some (⟨decision, reason, obj⟩ :: firing, skipped)
      | none, some reason =>
        some (firing, { objectId := decision.objectId, cameraId, reason
                        detail := decision.detail, attributeKeys := decision.attributes } :: skipped)
      -- No accepted decision carries neither.
      | none, none => some (firing, skipped)
    | _, _ => none

def evaluationFailed (frame : FrameContext) (objects : List VisualObject) (typeName : String) :
    EvaluationResult where
  cameraId := frame.frameRef.cameraId
  frameRef := frame.frameRef
  skipped := objects.map fun obj => {
    objectId := obj.objectId, cameraId := frame.frameRef.cameraId
    reason := .qualityInsufficient, detail := s!"evaluation failed: {typeName}" }

/-- `evaluate`, with the decisions of the trigger policy, or the type of the exception it
    raised. -/
def evaluate (config : CropConfig) (frame : FrameContext) (objects : List VisualObject)
    (policy : Except String (List TriggerDecision)) (budget : β) : EvaluationResult × β :=
  match policy with
  | .error typeName => (evaluationFailed frame objects typeName, budget)
  | .ok decisions =>
    if decisions.length ≠ objects.length then
      (evaluationFailed frame objects "CropExtractionError", budget)
    else
      let byId := ofPairs (objects.map fun obj => (obj.objectId, obj))
      match splitDecisions frame.frameRef.cameraId byId decisions with
      | none => (evaluationFailed frame objects "KeyError", budget)
      | some (firing, skipped) =>
        let admission := admitFiring trySpend config frame firing budget
        ({ cameraId := frame.frameRef.cameraId
           frameRef := frame.frameRef
           requests := admission.requests
           skipped := skipped ++ admission.skipped },
          admission.budget)

theorem splitDecisions_objects {cameraId : CameraId} {byId : OrderedDict ObjectId VisualObject}
    (hown : ∀ id obj, byId.get? id = some obj → obj.objectId = id)
    {decisions : List TriggerDecision} {firing : List AdmissionCandidate} {skipped : List Skipped}
    (h : splitDecisions cameraId byId decisions = some (firing, skipped)) :
    ∀ item ∈ firing, byId.get? item.obj.objectId = some item.obj := by
  induction decisions generalizing firing skipped with
  | nil =>
    cases h
    intro item hitem
    cases hitem
  | cons decision rest ih =>
    unfold splitDecisions at h
    cases hobj : byId.get? decision.objectId with
    | none => simp [hobj] at h
    | some obj =>
      cases hrest : splitDecisions cameraId byId rest with
      | none => simp [hobj, hrest] at h
      | some split =>
        obtain ⟨firing', skipped'⟩ := split
        have hfiring' := ih hrest
        rw [hobj, hrest] at h
        cases hreason : decision.reason with
        | some reason =>
          rw [hreason] at h
          cases h
          intro item hitem
          rcases mem_cons.mp hitem with rfl | hitem
          · rw [hown _ _ hobj, hobj]
          · exact hfiring' item hitem
        | none =>
          rw [hreason] at h
          cases hskip : decision.skip with
          | some skip =>
            rw [hskip] at h
            cases h
            exact hfiring'
          | none =>
            rw [hskip] at h
            cases h
            exact hfiring'

theorem evaluate_requests (config : CropConfig) (frame : FrameContext)
    (objects : List VisualObject) (policy : Except String (List TriggerDecision)) (budget : β) :
    (∀ r ∈ (evaluate trySpend config frame objects policy budget).1.requests,
      r.requiredAttributes ≠ []) ∧
    (∀ r ∈ (evaluate trySpend config frame objects policy budget).1.requests,
      ∀ r' ∈ (evaluate trySpend config frame objects policy budget).1.requests,
        r.objectId = r'.objectId → r.classId = r'.classId) := by
  have hfailed : ∀ typeName, (evaluationFailed frame objects typeName).requests = [] :=
    fun _ => rfl
  unfold evaluate
  cases policy with
  | error typeName => simp [hfailed]
  | ok decisions =>
    dsimp only
    split
    · simp [hfailed]
    cases hsplit : splitDecisions frame.frameRef.cameraId
        (ofPairs (objects.map fun obj => (obj.objectId, obj))) decisions with
    | none => simp [hfailed]
    | some split =>
      obtain ⟨firing, skipped⟩ := split
      have hown : ∀ id obj, (ofPairs
          (objects.map fun obj => (obj.objectId, obj))).get? id = some obj →
            obj.objectId = id := by
        intro id obj hget
        obtain ⟨obj', -, hpair⟩ := mem_map.mp (mem_of_get?_ofPairs hget)
        cases hpair
        rfl
      have hobjects := splitDecisions_objects hown hsplit
      have hmade := admitFiring_requests trySpend config frame firing budget
      constructor
      · intro r hr
        obtain ⟨item, -, group, hgroup, rfl⟩ := hmade r hr
        exact evidenceGroups_ne_nil hgroup
      · intro r hr r' hr' hid
        obtain ⟨item, hitem, group, -, rfl⟩ := hmade r hr
        obtain ⟨item', hitem', group', -, rfl⟩ := hmade r' hr'
        have hobj := hobjects item hitem
        have hobj' := hobjects item' hitem'
        have hsame : item.obj.objectId = item'.obj.objectId := hid
        rw [hsame, hobj'] at hobj
        show item.obj.classId = item'.obj.classId
        rw [Option.some.inj hobj]

end Admission

inductive Extracted where
  | passed (contentHash : CropId) (quality : QualityGrades)
  | gateRejected (detail : String)
  | frameUnavailable
  | extractionFailed (message : String)
  | cropError (typeName message : String)
  | raised (exc : PyException)

inductive Lease where
  | noBuffer
  | evicted
  | held (frame : FrameContext)

def cropOf (frame : FrameContext) (request : CropRequest) (contentHash : CropId)
    (quality : QualityGrades) : Raises Crop :=
  Crop.construct {
    cropId := contentHash
    tenantId := request.tenantId
    siteId := request.siteId
    cameraId := request.cameraId
    sourceFrame := request.frameRef
    objectId := some request.objectId
    quality
    tCapture := frame.tCapture
    triggerReason := request.triggerReason }

def skipOf (request : CropRequest) (reason : SkipReason) (detail : String) : Skipped where
  objectId := request.objectId
  cameraId := request.cameraId
  reason
  detail
  attributeKeys := request.requiredAttributes

def unavailable (request : CropRequest) (detail : String) : Skipped :=
  skipOf request .frameUnavailable detail

def extractOne (frame : FrameContext) (request : CropRequest) :
    Extracted → Raises (Crop ⊕ Skipped)
  | .passed contentHash quality => .inl <$> cropOf frame request contentHash quality
  | .gateRejected detail => .ok (.inr (skipOf request .qualityInsufficient detail))
  | .frameUnavailable => .ok (.inr (unavailable request "frame evicted during extraction"))
  | .extractionFailed message =>
    .ok (.inr (skipOf request .qualityInsufficient s!"extraction failed: {message}"))
  | .cropError typeName message =>
    .ok (.inr (skipOf request .qualityInsufficient s!"{typeName}: {message}"))
  | .raised exc => .error exc

structure Extraction where
  fulfilled : List CropRequest := []
  crops : List Crop := []
  skips : List Skipped := []

def extractLoop (frame : FrameContext) (extract : CropRequest → Extracted) :
    List CropRequest → Raises Extraction
  | [] => .ok {}
  | request :: rest => do
    let outcome ← extractOne frame request (extract request)
    let e ← extractLoop frame extract rest
    match outcome with
    | .inl crop => return { e with fulfilled := request :: e.fulfilled, crops := crop :: e.crops }
    | .inr skip => return { e with skips := skip :: e.skips }

def extractAll (lease : Lease) (extract : CropRequest → Extracted) (result : EvaluationResult) :
    Raises Extraction :=
  match lease with
  | .noBuffer => .ok { skips := result.requests.map (unavailable · "no frame buffer bound") }
  | .evicted => .ok { skips := result.requests.map (unavailable · "frame evicted before extraction") }
  | .held frame => extractLoop frame extract result.requests

/-- `_publish`: the evaluation, its requests narrowed to the fulfilled ones. -/
def published (result : EvaluationResult) (extraction : Extraction) : EvaluationResult where
  cameraId := result.cameraId
  frameRef := result.frameRef
  requests := extraction.fulfilled
  skipped := result.skipped ++ extraction.skips

structure ExtractedFor (r : CropRequest) (c : Crop) : Prop where
  tenantId : c.tenantId = r.tenantId
  cameraId : c.cameraId = r.cameraId
  sourceFrame : c.sourceFrame = r.frameRef
  objectId : c.objectId = some r.objectId
  triggerReason : c.triggerReason = r.triggerReason

variable {frame : FrameContext}

theorem extractOne_crop {request : CropRequest} {outcome : Extracted}
    {crop : Crop} (h : extractOne frame request outcome = .ok (.inl crop)) :
    ExtractedFor request crop := by
  cases outcome with
  | passed contentHash quality =>
    cases hcrop : cropOf frame request contentHash quality with
    | error exc =>
      rw [extractOne, hcrop] at h
      cases h
    | ok crop' =>
      rw [extractOne, hcrop] at h
      have hsame : crop' = crop := Sum.inl.inj (Except.ok.inj h)
      obtain ⟨_, hmk⟩ := constructWith_eq_ok_iff.mp hcrop
      rw [← hsame, ← hmk]
      exact ⟨rfl, rfl, rfl, rfl, rfl⟩
  | gateRejected detail => cases h
  | frameUnavailable => cases h
  | extractionFailed message => cases h
  | cropError typeName message => cases h
  | raised exc => cases h

variable {extract : CropRequest → Extracted}

theorem extractLoop_paired
    {requests : List CropRequest} {e : Extraction}
    (h : extractLoop frame extract requests = .ok e) :
    List.Forall₂ ExtractedFor e.fulfilled e.crops ∧ e.fulfilled.Sublist requests := by
  induction requests generalizing e with
  | nil =>
    cases h
    exact ⟨.nil, .slnil⟩
  | cons request rest ih =>
    obtain ⟨outcome, houtcome, h⟩ := bind_eq_ok.mp h
    obtain ⟨e', he', h⟩ := bind_eq_ok.mp h
    obtain ⟨hpaired, hsub⟩ := ih he'
    cases outcome with
    | inl crop =>
      cases h
      exact ⟨.cons (extractOne_crop houtcome) hpaired, hsub.cons_cons request⟩
    | inr skip =>
      cases h
      exact ⟨hpaired, hsub.cons request⟩

theorem extractAll_paired {lease : Lease}
    {result : EvaluationResult} {e : Extraction} (h : extractAll lease extract result = .ok e) :
    List.Forall₂ ExtractedFor e.fulfilled e.crops ∧ e.fulfilled.Sublist result.requests := by
  cases lease with
  | noBuffer =>
    cases h
    exact ⟨.nil, nil_sublist _⟩
  | evicted =>
    cases h
    exact ⟨.nil, nil_sublist _⟩
  | held frame => exact extractLoop_paired h

structure CropHandoff where
  result : EvaluationResult
  crops : List Crop
  paired : List.Forall₂ ExtractedFor result.requests crops
  asks : ∀ r ∈ result.requests, r.requiredAttributes ≠ []
  sameClass : ∀ r ∈ result.requests, ∀ r' ∈ result.requests,
    r.objectId = r'.objectId → r.classId = r'.classId

/-- One frame as it reaches the runtime, with the answers of the parts it is wired to: the
    trigger policy, the budget, the frame buffer and the extraction. -/
structure FrameInput where
  config : CropConfig
  frame : FrameContext
  objects : List VisualObject
  policy : Except String (List TriggerDecision)
  Budget : Type
  trySpend : Budget → List String → Bool × Budget
  budget : Budget
  lease : Lease
  extract : CropRequest → Extracted

namespace FrameInput

def evaluation (f : FrameInput) : EvaluationResult :=
  (evaluate f.trySpend f.config f.frame f.objects f.policy f.budget).1

/-- `on_registered`: what reaches the sink; nothing where the extraction raised. -/
def handoff (f : FrameInput) : Option CropHandoff :=
  match h : extractAll f.lease f.extract f.evaluation with
  | .error _ => none
  | .ok extraction =>
    have hpaired := (extractAll_paired h).1
    have hsub := (extractAll_paired h).2
    have hrequests := evaluate_requests f.trySpend f.config f.frame f.objects f.policy f.budget
    some {
      result := published f.evaluation extraction
      crops := extraction.crops
      paired := hpaired
      asks := fun r hr => hrequests.1 r (hsub.subset hr)
      sameClass := fun r hr r' hr' => hrequests.2 r (hsub.subset hr) r' (hsub.subset hr') }

theorem exists_handoff {f : FrameInput} {extraction : Extraction}
    (h : extractAll f.lease f.extract f.evaluation = .ok extraction) :
    ∃ handoff ∈ f.handoff, handoff.result = published f.evaluation extraction ∧
      handoff.crops = extraction.crops := by
  unfold FrameInput.handoff
  split
  · rename_i exc hraised
    rw [h] at hraised
    cases hraised
  · rename_i extraction' hextracted
    have hsame : extraction' = extraction := by
      rw [h] at hextracted
      exact (Except.ok.inj hextracted).symm
    subst hsame
    exact ⟨_, rfl, rfl, rfl⟩

end FrameInput

end VisionOs.Cropping
