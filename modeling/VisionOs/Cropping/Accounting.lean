/-
  What the trigger policy asks of a frame, and where it goes: each pair of an object and a group
  of attributes into one request or one skip.
-/
import VisionOs.Cropping.Manager
import VisionOs.Cropping.Triggers
import VisionOs.Lib.Tally

namespace VisionOs.Cropping

open Core Lib OrderedDict CropRequest List.Perm TriggerDecision
open scoped List

abbrev Ask := ObjectId × List AttributeKey

def CropRequest.ask (r : CropRequest) : Ask := (r.objectId, r.requiredAttributes)

def Skipped.ask (s : Skipped) : Ask := (s.objectId, s.attributeKeys)

def EvaluationResult.asks (result : EvaluationResult) : List Ask :=
  result.requests.map ask ++ result.skipped.map Skipped.ask

def TriggerDecision.asks (regions : OrderedDict String Band) (d : TriggerDecision) : List Ask :=
  if d.fires then (evidenceGroups regions d.attributes).map (d.objectId, ·)
  else [(d.objectId, d.attributes)]

variable {regions : OrderedDict String Band}

theorem TriggerDecision.asks_objectId {d : TriggerDecision}
    {ask : Ask} (h : ask ∈ d.asks regions) : ask.1 = d.objectId := by
  unfold asks at h
  split at h
  · obtain ⟨group, -, rfl⟩ := List.mem_map.mp h
    rfl
  · rw [List.mem_singleton.mp h]

/-! ## Evidence groups -/

def bucketKeys (buckets : OrderedDict (Option Band) (List AttributeKey)) : List AttributeKey :=
  (buckets.entries.map Prod.snd).flatten

theorem bucketKeys_addToBucket (regions : OrderedDict String Band)
    (buckets : OrderedDict (Option Band) (List AttributeKey)) (key : AttributeKey) :
    (bucketKeys (addToBucket regions buckets key)).Perm (bucketKeys buckets ++ [key]) := by
  unfold addToBucket bucketKeys
  simp only
  cases hget : buckets.get? (regions.get? key) with
  | none =>
    rw [entries_set_of_get?_none hget]
    simp
  | some keys =>
    obtain ⟨before, after, hentries, hset⟩ :=
      entries_set_of_get?_some hget (keys ++ [key])
    rw [Option.getD_some, hset, hentries]
    simp only [List.map_append, List.map_cons, List.flatten_append, List.flatten_cons,
      List.append_assoc]
    -- the key stands behind its bucket, before the buckets that follow
    apply append_left
    apply append_left
    exact List.perm_append_comm

theorem evidenceGroups_flatten (regions : OrderedDict String Band)
    (attributes : List AttributeKey) :
    (evidenceGroups regions attributes).flatten.Perm attributes := by
  have hbuckets : ∀ (keys : List AttributeKey)
      (buckets : OrderedDict (Option Band) (List AttributeKey)),
      (bucketKeys (keys.foldl (addToBucket regions) buckets)).Perm (bucketKeys buckets ++ keys) := by
    intro keys
    induction keys with
    | nil => simp
    | cons key rest ih =>
      intro buckets
      refine (ih _).trans ?_
      rw [← List.singleton_append, ← List.append_assoc]
      exact (bucketKeys_addToBucket regions buckets key).append_right rest
  have hsorted := List.perm_insertionSort
    (fun a b : Option Band × List AttributeKey => bandLe a.1 b.1)
    (attributes.foldl (addToBucket regions) ∅).entries
  unfold evidenceGroups
  calc (List.map (fun bucket : Option Band × List AttributeKey =>
          bucket.2.insertionSort (fun a b => a ≤ b)) _).flatten
      -- each group is its bucket, sorted
      ~ (List.map Prod.snd (List.insertionSort
        (fun a b : Option Band × List AttributeKey => bandLe a.1 b.1)
        (attributes.foldl (addToBucket regions) ∅).entries)).flatten := by
        rw [← List.flatMap_def, ← List.flatMap_def]
        exact flatMap_left _ fun bucket _ => List.perm_insertionSort _ _
    _ ~ bucketKeys (attributes.foldl (addToBucket regions) ∅) := (hsorted.map Prod.snd).flatten
    _ ~ attributes := hbuckets attributes ∅

theorem countP_evidenceGroups {attributes : List AttributeKey}
    (hnodup : attributes.Nodup) {key : AttributeKey} (hkey : key ∈ attributes) :
    (evidenceGroups regions attributes).countP (fun group => key ∈ group) = 1 := by
  have hflatten := evidenceGroups_flatten regions attributes
  have hgroups : ∀ group ∈ evidenceGroups regions attributes, group.Nodup := by
    intro group hgroup
    exact (List.sublist_flatten_of_mem hgroup).nodup (hflatten.nodup_iff.mpr hnodup)
  calc (evidenceGroups regions attributes).countP (fun group => key ∈ group)
      = Tally.charges (evidenceGroups regions attributes) key :=
        (Tally.charges_of_nodup hgroups key).symm
    _ = (evidenceGroups regions attributes).flatten.count key := List.count_flatten.symm
    _ = attributes.count key := hflatten.count_eq key
    _ = 1 := List.count_eq_one_of_mem hnodup hkey

section Admission

variable {β : Type} (trySpend : β → List String → Bool × β)

def groupsOf (config : CropConfig) (firing : List AdmissionCandidate) :
    List (AdmissionCandidate × List AttributeKey) :=
  (order config.priorityClasses firing).flatMap fun item =>
    (evidenceGroups config.evidenceRegions item.decision.attributes).map (item, ·)

def admitGroups (config : CropConfig) (frame : FrameContext)
    (groups : List (AdmissionCandidate × List AttributeKey)) (s : Admission β) : Admission β :=
  groups.foldl (fun s turn => admitGroup trySpend config frame turn.1 s turn.2) s

theorem admitFiring_eq (config : CropConfig) (frame : FrameContext)
    (firing : List AdmissionCandidate) (budget : β) :
    admitFiring trySpend config frame firing budget =
      admitGroups trySpend config frame (groupsOf config firing) { budget } := by
  unfold admitFiring admitGroups groupsOf
  rw [List.foldl_flatMap]
  simp only [List.foldl_map]

def Admission.asks (s : Admission β) : List Ask :=
  s.requests.map ask ++ s.skipped.map Skipped.ask

theorem admitGroup_asks (config : CropConfig) (frame : FrameContext) (item : AdmissionCandidate)
    (s : Admission β) (group : List AttributeKey) :
    (admitGroup trySpend config frame item s group).asks.Perm
      (s.asks ++ [(item.obj.objectId, group)]) := by
  unfold admitGroup Admission.asks
  split
  · rw [List.map_append, List.append_assoc]
    exact List.Perm.refl _
  · split
    · rw [List.map_append, List.append_assoc]
      exact List.Perm.refl _
    · -- a request stands before the skips
      rw [List.map_append, List.append_assoc, List.append_assoc]
      exact List.perm_append_comm.append_left _

theorem admitGroups_asks (config : CropConfig) (frame : FrameContext)
    (groups : List (AdmissionCandidate × List AttributeKey)) (s : Admission β) :
    (admitGroups trySpend config frame groups s).asks.Perm
      (s.asks ++ groups.map fun turn => (turn.1.obj.objectId, turn.2)) := by
  induction groups generalizing s with
  | nil =>
    rw [List.map_nil, List.append_nil]
    exact List.Perm.refl _
  | cons turn rest ih =>
    refine (ih _).trans ?_
    rw [List.map_cons, ← List.singleton_append, ← List.append_assoc]
    exact (admitGroup_asks trySpend config frame turn.1 s turn.2).append_right _

end Admission

/-! ## Decisions -/

structure Split (decisions : List TriggerDecision) (firing : List AdmissionCandidate)
    (skipped : List Skipped) : Prop where
  fired : firing.map (·.decision) = decisions.filter (·.fires)
  own : ∀ item ∈ firing, item.obj.objectId = item.decision.objectId
  skips : skipped.map Skipped.ask =
    (decisions.filter fun d => !d.fires).map fun d => (d.objectId, d.attributes)

variable {decisions : List TriggerDecision}

theorem splitDecisions_split {cameraId : CameraId} {byId : OrderedDict ObjectId VisualObject}
    (hown : ∀ id obj, byId.get? id = some obj → obj.objectId = id)
    (hfound : ∀ d ∈ decisions, ∃ obj, byId.get? d.objectId = some obj) :
    ∃ firing skipped, splitDecisions cameraId byId decisions = some (firing, skipped) ∧
      Split decisions firing skipped := by
  induction decisions with
  | nil =>
    refine ⟨[], [], rfl, rfl, ?_, rfl⟩
    intro item hitem
    cases hitem
  | cons d rest ih =>
    obtain ⟨obj, hobj⟩ := hfound d List.mem_cons_self
    obtain ⟨firing, skipped, hrest, hsplit⟩ :=
      ih fun d' hd' => hfound d' (List.mem_cons_of_mem _ hd')
    unfold splitDecisions
    rw [hobj, hrest]
    cases hreason : d.reason with
    | some reason =>
      have hfires : d.fires = true := by simp [fires, hreason]
      refine ⟨_, _, rfl, ?_, ?_, ?_⟩
      · rw [List.map_cons, hsplit.fired, List.filter_cons_of_pos hfires]
      · intro item hitem
        rcases List.mem_cons.mp hitem with rfl | hitem
        · exact hown _ _ hobj
        · exact hsplit.own item hitem
      · rw [hsplit.skips, List.filter_cons_of_neg (by simp [hfires])]
    | none =>
      have hfires : d.fires = false := by simp [fires, hreason]
      cases hskip : d.skip with
      | some skip =>
        refine ⟨_, _, rfl, ?_, hsplit.own, ?_⟩
        · rw [hsplit.fired, List.filter_cons_of_neg (by simp [hfires])]
        · rw [List.map_cons, hsplit.skips, List.filter_cons_of_pos (by simp [hfires]),
            List.map_cons]
          rfl
      | none =>
        -- its constructor refuses a decision that carries neither
        have haccepted := require_eq_ok.mp d.accepted
        simp [hreason, hskip] at haccepted

theorem groupsOf_asks (config : CropConfig)
    {firing : List AdmissionCandidate} {skipped : List Skipped}
    (h : Split decisions firing skipped) :
    ((groupsOf config firing).map fun turn => (turn.1.obj.objectId, turn.2)).Perm
      ((decisions.filter (·.fires)).flatMap fun d => d.asks config.evidenceRegions) := by
  unfold groupsOf
  rw [← h.fired, List.flatMap_map, List.map_flatMap]
  refine ((List.perm_insertionSort _ firing).flatMap_right _).trans ?_
  refine flatMap_left _ fun item hitem => ?_
  have hfires : item.decision.fires = true := by
    have hmem : item.decision ∈ decisions.filter (·.fires) :=
      h.fired ▸ List.mem_map_of_mem hitem
    exact (List.mem_filter.mp hmem).2
  unfold asks
  rw [if_pos hfires, List.map_map, ← h.own item hitem]
  exact List.Perm.refl _

def byId (objects : List VisualObject) : OrderedDict ObjectId VisualObject :=
  OrderedDict.ofPairs (objects.map fun obj => (obj.objectId, obj))

variable {objects : List VisualObject}

theorem byId_own (id : ObjectId) (obj : VisualObject)
    (h : (byId objects).get? id = some obj) : obj.objectId = id := by
  obtain ⟨obj', -, hpair⟩ := List.mem_map.mp (mem_of_get?_ofPairs h)
  cases hpair
  rfl

variable {β : Type}

theorem evaluate_split (trySpend : β → List String → Bool × β) (config : CropConfig)
    (frame : FrameContext)
    (hdecided : decisions.map (·.objectId) = objects.map (·.objectId)) (budget : β) :
    ∃ firing skipped, Split decisions firing skipped ∧
      evaluate trySpend config frame objects (.ok decisions) budget =
        ({ cameraId := frame.frameRef.cameraId
           frameRef := frame.frameRef
           requests := (admitFiring trySpend config frame firing budget).requests
           skipped := skipped ++ (admitFiring trySpend config frame firing budget).skipped },
          (admitFiring trySpend config frame firing budget).budget) := by
  have hlength : decisions.length = objects.length := by
    simpa using congrArg List.length hdecided
  have hfound : ∀ d ∈ decisions, ∃ obj, (byId objects).get? d.objectId = some obj := by
    intro d hd
    apply exists_get?_ofPairs
    rw [List.map_map]
    show d.objectId ∈ objects.map (·.objectId)
    rw [← hdecided]
    exact List.mem_map_of_mem hd
  obtain ⟨firing, skipped, hsplitDecisions, hsplit⟩ : ∃ firing skipped,
      splitDecisions frame.frameRef.cameraId (byId objects) decisions = some (firing, skipped) ∧
        Split decisions firing skipped := splitDecisions_split byId_own hfound
  refine ⟨firing, skipped, hsplit, ?_⟩
  unfold evaluate
  unfold byId at hsplitDecisions
  simp only [if_neg (not_not.mpr hlength), hsplitDecisions]

theorem evaluate_asks (trySpend : β → List String → Bool × β) (config : CropConfig)
    (frame : FrameContext)
    (hdecided : decisions.map (·.objectId) = objects.map (·.objectId)) (budget : β) :
    (evaluate trySpend config frame objects (.ok decisions) budget).1.asks.Perm
      (decisions.flatMap fun d => d.asks config.evidenceRegions) := by
  obtain ⟨firing, skipped, hsplit, hevaluate⟩ :=
    evaluate_split trySpend config frame hdecided budget
  have hadmitted := admitGroups_asks trySpend config frame (groupsOf config firing) { budget }
  rw [← admitFiring_eq] at hadmitted
  -- A decision that does not fire asks for the one pair its skip reports.
  have hskips : (decisions.filter fun d => !d.fires).map (fun d => (d.objectId, d.attributes)) =
      (decisions.filter fun d => !d.fires).flatMap fun d => d.asks config.evidenceRegions := by
    rw [← List.flatMap_pure_eq_map]
    apply List.flatMap_congr
    intro d hd
    have hfires : d.fires = false := by simpa using (List.mem_filter.mp hd).2
    unfold asks
    rw [if_neg (by simp [hfires])]
    rfl
  rw [hevaluate]
  unfold EvaluationResult.asks
  rw [List.map_append, hsplit.skips, hskips]
  calc _ ~ (admitFiring trySpend config frame firing budget).asks ++
        (decisions.filter fun d => !d.fires).flatMap (fun d => d.asks config.evidenceRegions) := by
        unfold Admission.asks
        rw [List.append_assoc]
        exact List.perm_append_comm.append_left _
    _ ~ (decisions.filter (·.fires)).flatMap (fun d => d.asks config.evidenceRegions) ++
        (decisions.filter fun d => !d.fires).flatMap (fun d => d.asks config.evidenceRegions) :=
        (hadmitted.trans (groupsOf_asks config hsplit)).append_right _
    _ ~ decisions.flatMap fun d => d.asks config.evidenceRegions := by
        rw [← List.flatMap_append]
        exact (List.filter_append_perm (·.fires) decisions).flatMap_right _

theorem evaluate_requests_fire (trySpend : β → List String → Bool × β)
    (config : CropConfig) (frame : FrameContext)
    (hdecided : decisions.map (·.objectId) = objects.map (·.objectId)) (budget : β) :
    ∀ r ∈ (evaluate trySpend config frame objects (.ok decisions) budget).1.requests,
      ∃ d ∈ decisions, d.fires = true ∧ d.objectId = r.objectId := by
  obtain ⟨firing, skipped, hsplit, hevaluate⟩ :=
    evaluate_split trySpend config frame hdecided budget
  rw [hevaluate]
  intro r hr
  obtain ⟨item, hitem, group, -, rfl⟩ := admitFiring_requests trySpend config frame firing budget r hr
  have hmem : item.decision ∈ decisions.filter (·.fires) :=
    hsplit.fired ▸ List.mem_map_of_mem hitem
  exact ⟨item.decision, (List.mem_filter.mp hmem).1, (List.mem_filter.mp hmem).2,
    (hsplit.own item hitem).symm⟩

variable {frame : FrameContext}

theorem extractOne_skip {request : CropRequest} {outcome : Extracted}
    {skip : Skipped} (h : extractOne frame request outcome = .ok (.inr skip)) :
    skip.ask = request.ask := by
  cases outcome with
  | passed contentHash quality =>
    cases hcrop : cropOf frame request contentHash quality with
    | error exc =>
      rw [extractOne, hcrop] at h
      cases h
    | ok crop =>
      rw [extractOne, hcrop] at h
      cases h
  | gateRejected detail =>
    cases h
    rfl
  | frameUnavailable =>
    cases h
    rfl
  | extractionFailed message =>
    cases h
    rfl
  | cropError typeName message =>
    cases h
    rfl
  | raised exc => cases h

variable {extract : CropRequest → Extracted} {e : Extraction}

theorem extractLoop_asks
    {requests : List CropRequest}
    (h : extractLoop frame extract requests = .ok e) :
    (e.fulfilled.map ask ++ e.skips.map Skipped.ask).Perm
      (requests.map ask) := by
  induction requests generalizing e with
  | nil =>
    cases h
    exact List.Perm.refl _
  | cons request rest ih =>
    obtain ⟨outcome, houtcome, h⟩ := bind_eq_ok.mp h
    obtain ⟨e', he', h⟩ := bind_eq_ok.mp h
    have hrest := ih he'
    cases outcome with
    | inl crop =>
      cases h
      exact hrest.cons _
    | inr skip =>
      cases h
      have hask : skip.ask = request.ask := extractOne_skip houtcome
      show (e'.fulfilled.map ask ++ skip.ask :: e'.skips.map Skipped.ask).Perm
        (request.ask :: rest.map ask)
      rw [hask]
      exact List.perm_middle.trans (hrest.cons _)

variable {result : EvaluationResult}

theorem extractAll_asks {lease : Lease}
    (h : extractAll lease extract result = .ok e) :
    (e.fulfilled.map ask ++ e.skips.map Skipped.ask).Perm
      (result.requests.map ask) := by
  cases lease with
  | noBuffer =>
    cases h
    rw [List.map_map]
    exact List.Perm.refl _
  | evicted =>
    cases h
    rw [List.map_map]
    exact List.Perm.refl _
  | held frame => exact extractLoop_asks h

theorem published_asks {lease : Lease}
    (h : extractAll lease extract result = .ok e) :
    (published result e).asks.Perm result.asks := by
  show (e.fulfilled.map ask ++ (result.skipped ++ e.skips).map Skipped.ask).Perm
    (result.requests.map ask ++ result.skipped.map Skipped.ask)
  rw [List.map_append]
  calc _ ~ (e.fulfilled.map ask ++ e.skips.map Skipped.ask) ++
        result.skipped.map Skipped.ask := by
        rw [List.append_assoc]
        exact List.perm_append_comm.append_left _
    _ ~ _ := (extractAll_asks h).append_right _

end VisionOs.Cropping
