/-
  `CropManager.evaluate` over composed trigger policies: whether every candidate of
  a frame is accounted for in what it returns, and in what is published of it.
-/
import VisionOs.Cropping.Accounting
import VisionOs.Cropping.Budget
import VisionOs.Cropping.Policies

namespace VisionOs.Cropping

open Core Lib List TriggerPolicy TriggerDecision Spending Except

/-- `CropManager`: its configuration, its policy, the demands and the budget. -/
structure CropManager where
  config : CropConfig
  policy : TriggerPolicy
  demands : DemandRegistry := {}
  spending : Spending

def candidateOf (frame : FrameContext) (obj : VisualObject) (seen : TriggerCandidate) :
    TriggerCandidate :=
  { seen with
    objectId := obj.objectId, cameraId := frame.frameRef.cameraId, classId := obj.classId }

/-- The candidates of a frame, or the type of the exception that what looks at them raised. -/
def candidatesOf (frame : FrameContext) (sight : VisualObject → Except String TriggerCandidate)
    (objects : List VisualObject) : Except String (List TriggerCandidate) :=
  objects.mapM fun obj => candidateOf frame obj <$> sight obj

namespace CropManager

variable (clock : Nat → Instant)

/-- The policy's decisions about the objects of a frame, and the policy after them. -/
def answer (m : CropManager) (now : Instant) (frame : FrameContext)
    (sight : VisualObject → Except String TriggerCandidate) (objects : List VisualObject) :
    Except String (List TriggerDecision × TriggerPolicy) := do
  let candidates ← candidatesOf frame sight objects
  match m.policy.evaluate now m.demands candidates with
  | .ok answer => .ok answer
  | .error exc => .error exc.typeName

def decisions (m : CropManager) (now : Instant) (frame : FrameContext)
    (sight : VisualObject → Except String TriggerCandidate) (objects : List VisualObject) :
    Except String (List TriggerDecision) :=
  Prod.fst <$> m.answer now frame sight objects

def policyAfter (m : CropManager) (now : Instant) (frame : FrameContext)
    (sight : VisualObject → Except String TriggerCandidate) (objects : List VisualObject) :
    TriggerPolicy :=
  match m.answer now frame sight objects with
  | .ok answer => answer.2
  | .error _ => m.policy

def reportExhausted (result : EvaluationResult) (s : Spending) : Spending :=
  if result.skipped.any fun skip => skip.reason = .budgetExhausted then s.status clock else s

def evaluate (m : CropManager) (now : Instant) (frame : FrameContext)
    (sight : VisualObject → Except String TriggerCandidate) (objects : List VisualObject) :
    EvaluationResult × CropManager :=
  let (result, spending) := Cropping.evaluate (trySpend clock) m.config frame objects
    (m.decisions now frame sight objects) m.spending
  (result, { m with
    policy := m.policyAfter now frame sight objects
    spending := reportExhausted clock result spending })

end CropManager

/-- The object has a request or a skip. -/
def EvaluationResult.Reports (result : EvaluationResult) (objectId : ObjectId) : Prop :=
  (∃ r ∈ result.requests, r.objectId = objectId) ∨ ∃ s ∈ result.skipped, s.objectId = objectId

/-- What a frame's evaluation is to account for: every object is requested or skipped; every
    attribute of a decision that fires is in one request or skip of its object; a decision
    that does not fire is one skip; and what is published after the extraction reports the
    same pairs of object and attributes. -/
structure AttentionAccounted (objects : List VisualObject)
    (decisions : Except String (List TriggerDecision)) (result : EvaluationResult) : Prop where
  everyObject : ∀ obj ∈ objects, result.Reports obj.objectId
  everyAttribute : ∀ ds, decisions = .ok ds → ∀ d ∈ ds, d.fires = true → ∀ key ∈ d.attributes,
    result.requests.countP (fun r => r.objectId = d.objectId ∧ key ∈ r.requiredAttributes) +
      result.skipped.countP (fun s => s.objectId = d.objectId ∧ key ∈ s.attributeKeys) = 1
  everySkip : ∀ ds, decisions = .ok ds → ∀ d ∈ ds, d.fires = false →
    result.skipped.countP (fun s => s.objectId = d.objectId) = 1
  extracted : ∀ lease extract e, extractAll lease extract result = .ok e →
    (published result e).asks.Perm result.asks

/-! ## The pairs of one object -/

theorem EvaluationResult.reports_iff {result : EvaluationResult} {objectId : ObjectId} :
    result.Reports objectId ↔ ∃ ask ∈ result.asks, ask.1 = objectId := by
  constructor
  · rintro (⟨r, hr, hid⟩ | ⟨s, hs, hid⟩)
    · exact ⟨r.ask, mem_append_left _ (mem_map_of_mem hr), hid⟩
    · exact ⟨s.ask, mem_append_right _ (mem_map_of_mem hs), hid⟩
  · rintro ⟨ask, hask, hid⟩
    rcases mem_append.mp hask with hask | hask
    · obtain ⟨r, hr, rfl⟩ := mem_map.mp hask
      exact .inl ⟨r, hr, hid⟩
    · obtain ⟨s, hs, rfl⟩ := mem_map.mp hask
      exact .inr ⟨s, hs, hid⟩

variable {regions : OrderedDict String Band} {d : TriggerDecision}

theorem TriggerDecision.asks_eq_nil : d.asks regions = [] ↔ d.fires = true ∧ d.attributes = [] := by
  unfold asks
  by_cases hfires : d.fires = true
  · rw [if_pos hfires, map_eq_nil_iff]
    have hflatten := evidenceGroups_flatten regions d.attributes
    constructor
    · intro hnil
      rw [hnil] at hflatten
      exact ⟨hfires, nil_perm.mp hflatten⟩
    · rintro ⟨-, hnil⟩
      rw [hnil]
      rfl
  · rw [if_neg hfires]
    simp [hfires]

theorem countP_asks {ds : List TriggerDecision}
    (hdistinct : (ds.map (·.objectId)).Nodup) (hd : d ∈ ds) (p : List AttributeKey → Bool) :
    (ds.flatMap fun d => d.asks regions).countP (fun ask => ask.1 = d.objectId && p ask.2) =
      (d.asks regions).countP (fun ask => p ask.2) := by
  have hother : ∀ d' : TriggerDecision, d'.objectId ≠ d.objectId →
      (d'.asks regions).countP (fun ask => ask.1 = d.objectId && p ask.2) = 0 := by
    intro d' hne
    rw [countP_eq_zero]
    intro ask hask
    simp [asks_objectId hask, hne]
  have hown : (d.asks regions).countP (fun ask => ask.1 = d.objectId && p ask.2) =
      (d.asks regions).countP (fun ask => p ask.2) := by
    apply countP_congr
    intro ask hask
    simp [asks_objectId hask]
  induction ds with
  | nil => cases hd
  | cons d' rest ih =>
    rw [map_cons, nodup_cons] at hdistinct
    obtain ⟨hnew, hrest⟩ := hdistinct
    rw [flatMap_cons, countP_append]
    rcases mem_cons.mp hd with rfl | hd
    · -- the others are of other objects
      have hzero : (rest.flatMap fun d => d.asks regions).countP
          (fun ask => ask.1 = d.objectId && p ask.2) = 0 := by
        rw [countP_eq_zero]
        intro ask hask
        obtain ⟨d', hd', hmem⟩ := mem_flatMap.mp hask
        have hne : d'.objectId ≠ d.objectId := by
          intro hsame
          exact hnew (hsame ▸ mem_map_of_mem hd')
        simp [asks_objectId hmem, hne]
      rw [hown, hzero, add_zero]
    · have hne : d'.objectId ≠ d.objectId := by
        intro hsame
        exact hnew (hsame ▸ mem_map_of_mem hd)
      rw [hother d' hne, zero_add]
      exact ih hrest hd

theorem countP_result_asks (result : EvaluationResult) (objectId : ObjectId)
    (p : List AttributeKey → Bool) :
    result.asks.countP (fun ask => ask.1 = objectId && p ask.2) =
      result.requests.countP (fun r => r.objectId = objectId && p r.requiredAttributes) +
        result.skipped.countP (fun s => s.objectId = objectId && p s.attributeKeys) := by
  unfold EvaluationResult.asks
  rw [countP_append, countP_map, countP_map]
  rfl

/-! ## The decisions of a frame -/

theorem candidatesOf_ids {frame : FrameContext}
    {sight : VisualObject → Except String TriggerCandidate}
    {objects : List VisualObject} {cs : List TriggerCandidate}
    (h : candidatesOf frame sight objects = .ok cs) :
    cs.map (·.objectId) = objects.map (·.objectId) := by
  induction objects generalizing cs with
  | nil =>
    cases h
    rfl
  | cons obj rest ih =>
    unfold candidatesOf at h ih
    rw [mapM_cons] at h
    cases hseen : sight obj with
    | error typeName =>
      rw [hseen] at h
      cases h
    | ok seen =>
      cases hrest : rest.mapM fun obj => candidateOf frame obj <$> sight obj with
      | error typeName =>
        rw [hseen, hrest] at h
        cases h
      | ok cs' =>
        rw [hseen, hrest] at h
        cases h
        rw [map_cons, map_cons, ih hrest]
        rfl

namespace CropManager

variable (clock : Nat → Instant) {m : CropManager} {now : Instant} {frame : FrameContext}
  {sight : VisualObject → Except String TriggerCandidate} {objects : List VisualObject}

variable {cs : List TriggerCandidate}

theorem decisions_of_candidates (h : candidatesOf frame sight objects = .ok cs) :
    m.decisions now frame sight objects = .ok (cs.map (m.policy.decision now m.demands)) := by
  unfold decisions answer
  rw [h]
  show Prod.fst <$> (match m.policy.evaluate now m.demands cs with
    | .ok answer => ok answer
    | .error exc => .error exc.typeName) = _
  rw [evaluate_eq]
  rfl

variable {typeName : String}

theorem decisions_of_error
    (h : candidatesOf frame sight objects = .error typeName) :
    m.decisions now frame sight objects = .error typeName := by
  unfold decisions answer
  rw [h]
  rfl

theorem decisions_ids (h : candidatesOf frame sight objects = .ok cs) :
    (cs.map (m.policy.decision now m.demands)).map (·.objectId) = objects.map (·.objectId) := by
  rw [← candidatesOf_ids h, map_map]
  apply map_congr_left
  intro c _
  exact (decision_decided m.policy c).objectId

theorem evaluate_fst : (m.evaluate clock now frame sight objects).1 =
    (Cropping.evaluate (trySpend clock) m.config frame objects
      (m.decisions now frame sight objects) m.spending).1 := rfl

theorem evaluate_asks_of_candidates (h : candidatesOf frame sight objects = .ok cs) :
    (m.evaluate clock now frame sight objects).1.asks.Perm
      ((cs.map (m.policy.decision now m.demands)).flatMap fun d =>
        d.asks m.config.evidenceRegions) := by
  rw [evaluate_fst, decisions_of_candidates h]
  exact evaluate_asks (trySpend clock) m.config frame (decisions_ids h) m.spending

theorem evaluate_of_error
    (h : candidatesOf frame sight objects = .error typeName) :
    (m.evaluate clock now frame sight objects).1 = evaluationFailed frame objects typeName := by
  rw [evaluate_fst, decisions_of_error h]
  rfl

section OfCandidates

variable {cs : List TriggerCandidate} {c : TriggerCandidate}

theorem countP_evaluated (hdistinct : (objects.map (·.objectId)).Nodup)
    (h : candidatesOf frame sight objects = .ok cs) (hc : c ∈ cs) (p : List AttributeKey → Bool) :
    (m.evaluate clock now frame sight objects).1.requests.countP
        (fun r => r.objectId = c.objectId && p r.requiredAttributes) +
      (m.evaluate clock now frame sight objects).1.skipped.countP
        (fun s => s.objectId = c.objectId && p s.attributeKeys) =
      ((m.policy.decision now m.demands c).asks m.config.evidenceRegions).countP
        (fun ask => p ask.2) := by
  have hdecisions : ((cs.map (m.policy.decision now m.demands)).map (·.objectId)).Nodup := by
    rw [decisions_ids h]
    exact hdistinct
  have hown : (m.policy.decision now m.demands c).objectId = c.objectId :=
    (decision_decided m.policy c).objectId
  rw [← countP_result_asks, (evaluate_asks_of_candidates clock h).countP_eq, ← hown]
  exact countP_asks hdecisions (mem_map_of_mem hc) p

theorem reports_candidate (hdistinct : (objects.map (·.objectId)).Nodup)
    (h : candidatesOf frame sight objects = .ok cs) (hc : c ∈ cs) :
    (m.evaluate clock now frame sight objects).1.Reports c.objectId ↔
      ¬ ((m.policy.decision now m.demands c).fires = true ∧
        (m.policy.decision now m.demands c).attributes = []) := by
  have hcount : (m.evaluate clock now frame sight objects).1.asks.countP
      (fun ask => ask.1 = c.objectId && true) =
        ((m.policy.decision now m.demands c).asks m.config.evidenceRegions).countP fun _ => true := by
    exact (countP_result_asks _ _ fun _ => true).trans
      (countP_evaluated clock hdistinct h hc fun _ => true)
  have hnil : ¬ 0 < ((m.policy.decision now m.demands c).asks m.config.evidenceRegions).length ↔
      (m.policy.decision now m.demands c).asks m.config.evidenceRegions = [] := by
    rw [Nat.not_lt, Nat.le_zero, length_eq_zero_iff]
  rw [countP_true] at hcount
  rw [EvaluationResult.reports_iff, ← asks_eq_nil, ← hnil, not_not, ← hcount,
    countP_pos_iff]
  simp

theorem evaluated_attribute (hdistinct : (objects.map (·.objectId)).Nodup)
    (h : candidatesOf frame sight objects = .ok cs) (hc : c ∈ cs)
    (hfires : (m.policy.decision now m.demands c).fires = true) {key : AttributeKey}
    (hkey : key ∈ (m.policy.decision now m.demands c).attributes) :
    (m.evaluate clock now frame sight objects).1.requests.countP
        (fun r => r.objectId = c.objectId && key ∈ r.requiredAttributes) +
      (m.evaluate clock now frame sight objects).1.skipped.countP
        (fun s => s.objectId = c.objectId && key ∈ s.attributeKeys) = 1 := by
  have hnodup : (m.policy.decision now m.demands c).attributes.Nodup :=
    (decision_decided m.policy c).nodup_attributes
  refine (countP_evaluated clock hdistinct h hc fun group => decide (key ∈ group)).trans ?_
  unfold asks
  rw [if_pos hfires, countP_map]
  exact countP_evidenceGroups hnodup hkey

theorem evaluated_skip (hdistinct : (objects.map (·.objectId)).Nodup)
    (h : candidatesOf frame sight objects = .ok cs) (hc : c ∈ cs)
    (hfires : (m.policy.decision now m.demands c).fires = false) :
    (m.evaluate clock now frame sight objects).1.skipped.countP
        (fun s => s.objectId = c.objectId) = 1 := by
  have hcount : _ = ((m.policy.decision now m.demands c).asks _).countP fun _ => true :=
    countP_evaluated clock hdistinct h hc fun _ => true
  have hrequests : (m.evaluate clock now frame sight objects).1.requests.countP
      (fun r => r.objectId = c.objectId && true) = 0 := by
    rw [countP_eq_zero]
    intro r hr hsame
    rw [evaluate_fst, decisions_of_candidates h] at hr
    obtain ⟨d, hd, hdfires, hdr⟩ := evaluate_requests_fire (trySpend clock) m.config frame
      (decisions_ids h) m.spending r hr
    -- There is one decision about the object, and it does not fire.
    have hdecisions : ((cs.map (m.policy.decision now m.demands)).map (·.objectId)).Nodup := by
      rw [decisions_ids h]
      exact hdistinct
    have hid : d.objectId = (m.policy.decision now m.demands c).objectId := by
      rw [hdr, (decision_decided m.policy c).objectId]
      simpa using hsame
    have hd_eq := inj_on_of_nodup_map hdecisions hd (mem_map_of_mem hc) hid
    rw [hd_eq, hfires] at hdfires
    cases hdfires
  rw [hrequests, zero_add] at hcount
  unfold asks at hcount
  rw [if_neg (by simp [hfires])] at hcount
  simpa using hcount

end OfCandidates

/-- Every candidate of a frame is accounted for exactly when no policy layer was asked for an
    object that no active demand covers. -/
theorem attention_accounted_iff (m : CropManager) (now : Instant) (frame : FrameContext)
    (sight : VisualObject → Except String TriggerCandidate) (objects : List VisualObject)
    (hdistinct : (objects.map (·.objectId)).Nodup) :
    AttentionAccounted objects (m.decisions now frame sight objects)
        (m.evaluate clock now frame sight objects).1 ↔
      ∀ cs, candidatesOf frame sight objects = .ok cs → ∀ c ∈ cs,
        m.policy.requests c.objectId = true → ¬ c.Undemanded m.demands := by
  cases hcandidates : candidatesOf frame sight objects with
  | error typeName =>
    -- The guard of `evaluate` skips every object.
    rw [evaluate_of_error clock hcandidates, decisions_of_error hcandidates]
    constructor
    · intro _ cs hcs
      cases hcs
    · intro _
      refine ⟨?_, ?_, ?_, fun _ _ _ => published_asks⟩
      · intro obj hobj
        exact .inr ⟨_, mem_map_of_mem hobj, rfl⟩
      · intro ds hds
        cases hds
      · intro ds hds
        cases hds
  | ok cs =>
    have hids := candidatesOf_ids hcandidates
    constructor
    · intro haccounted cs' hcs c hc hrequested hwants
      obtain rfl := ok.inj hcs
      -- The decision fires, for the attributes that are wanted: none.
      have hobj : c.objectId ∈ objects.map (·.objectId) := hids ▸ mem_map_of_mem hc
      obtain ⟨obj, hobj, hid⟩ := mem_map.mp hobj
      have hreports := haccounted.everyObject obj hobj
      rw [hid] at hreports
      refine (reports_candidate clock hdistinct hcandidates hc).mp hreports ⟨?_, ?_⟩
      · rw [decision_fires_of_undemanded m.policy hwants]
        exact hrequested
      · exact (decision_attributes_eq_nil m.policy c).mpr hwants
    · intro hdemanded
      have hown : ∀ c : TriggerCandidate,
          (m.policy.decision now m.demands c).objectId = c.objectId :=
        fun c => (decision_decided m.policy c).objectId
      rw [decisions_of_candidates hcandidates]
      refine ⟨?_, ?_, ?_, fun _ _ _ => published_asks⟩
      · intro obj hobj
        have hc : obj.objectId ∈ cs.map (·.objectId) := hids ▸ mem_map_of_mem hobj
        obtain ⟨c, hc, hid⟩ := mem_map.mp hc
        rw [← hid]
        refine (reports_candidate clock hdistinct hcandidates hc).mpr ?_
        rintro ⟨hfires, hnil⟩
        have hwants := (decision_attributes_eq_nil m.policy c).mp hnil
        rw [decision_fires_of_undemanded m.policy hwants] at hfires
        exact hdemanded cs rfl c hc hfires hwants
      · intro ds hds d hd hfires key hkey
        obtain rfl := ok.inj hds
        obtain ⟨c, hc, rfl⟩ := mem_map.mp hd
        simp only [hown, Bool.decide_and]
        exact evaluated_attribute clock hdistinct hcandidates hc hfires hkey
      · intro ds hds d hd hfires
        obtain rfl := ok.inj hds
        obtain ⟨c, hc, rfl⟩ := mem_map.mp hd
        simp only [hown]
        exact evaluated_skip clock hdistinct hcandidates hc hfires

def depotFrame : FrameContext where
  frameRef := { cameraId := "depot-2", streamEpoch := 0, frameSeq := 41, accepted := rfl }
  tCapture := ⟨0⟩

def pallets : List VisualObject :=
  [{ objectId := "pallet-7", tenantId := "acme", siteId := "depot", classId := "pallet" },
    { objectId := "pallet-8", tenantId := "acme", siteId := "depot", classId := "pallet" }]

/-- What is seen of each: nothing that was not there before. -/
def seenPallet (_ : VisualObject) : Except String TriggerCandidate :=
  .ok { objectId := "", cameraId := "", classId := "" }

/-- A consumer wants to know of every pallet whether it is wrapped. -/
def wrappedDemand : Demand where
  demandId := "wrapped"
  subscriber := "warehouse"
  scope := {}
  subjectFilter := { accepted := rfl }
  requiredAttributes := ["wrapped"]
  freshness := ⟨1000000000⟩
  accepted := rfl

/-- The demands of the depot while the consumer is registered. -/
def depotDemands : DemandRegistry where
  demands := OrderedDict.ofPairs [("wrapped", {
    demand := wrappedDemand
    status := .active
    acknowledgement := { demandId := "wrapped", status := .accepted, satisfiable := ["wrapped"] }
    activatedAt := ⟨0⟩
    effectiveFreshness := ⟨1000000000⟩ })]

/-- The depot's manager, asked on demand for one of the pallets. -/
def depotManager (demands : DemandRegistry) : CropManager where
  config := { maxCandidatesPerFrame := 128 }
  policy := .explicitRequest (.default .default) ["pallet-7"]
  demands
  spending := { budget := {
    ceilingPerHour := .finite 36000
    credit := .finite 600
    accepted := by decide +kernel } }

theorem demanded_pallets_accounted :
    AttentionAccounted pallets
      ((depotManager depotDemands).decisions ⟨0⟩ depotFrame seenPallet pallets)
      ((depotManager depotDemands).evaluate (fun _ => ⟨0⟩) ⟨0⟩ depotFrame seenPallet pallets).1 := by
  refine (attention_accounted_iff (fun _ => ⟨0⟩) (depotManager depotDemands) ⟨0⟩ depotFrame
    seenPallet pallets (by decide)).mpr ?_
  intro cs hcs
  obtain rfl := ok.inj hcs
  decide +kernel

/-- Without a demand the pallet that was asked for is in no request and in no skip. -/
theorem undemanded_pallet_vanishes :
    (pallets.map (·.objectId)).Nodup ∧
      ¬ AttentionAccounted pallets
        ((depotManager {}).decisions ⟨0⟩ depotFrame seenPallet pallets)
        ((depotManager {}).evaluate (fun _ => ⟨0⟩) ⟨0⟩ depotFrame seenPallet pallets).1 := by
  refine ⟨by decide, fun haccounted => ?_⟩
  have hreports := haccounted.everyObject _ mem_cons_self
  have hrequests : ((depotManager {}).evaluate (fun _ => ⟨0⟩) ⟨0⟩ depotFrame seenPallet
      pallets).1.requests = [] := by decide +kernel
  have hskipped : ((depotManager {}).evaluate (fun _ => ⟨0⟩) ⟨0⟩ depotFrame seenPallet
      pallets).1.skipped.map (·.objectId) = ["pallet-8"] := by decide +kernel
  rcases hreports with ⟨r, hr, -⟩ | ⟨s, hs, hid⟩
  · rw [hrequests] at hr
    cases hr
  · have hmem : s.objectId ∈ ["pallet-8"] := hskipped ▸ mem_map_of_mem hs
    rw [hid] at hmem
    revert hmem
    decide

end CropManager

end VisionOs.Cropping
