/-
  `CropRuntime.on_registered` with the budget it spends: the tally of a run balances exactly as
  long as every frame settles what it reserved.
-/
import VisionOs.Cropping.Extract

namespace VisionOs.Cropping

open Core Lib List Effect CropManager Spending Except

/-! ## The loop over the requests -/

section Loop

variable (gate : QualityGate) (frame : FrameContext) (parts : CropRequest → ExtractionParts)

def extractRequest (request : CropRequest) : Effect PyException Spending (Crop ⊕ Skipped) :=
  fun s =>
    match extract gate frame (parts request) request s with
    | (.ok crop, s') => (.ok (.inl crop), s')
    | (.error fault, s') => (extractOne frame request fault.extracted, s')

def Extraction.put (e : Extraction) (request : CropRequest) : Crop ⊕ Skipped → Extraction
  | .inl crop => { e with fulfilled := request :: e.fulfilled, crops := crop :: e.crops }
  | .inr skip => { e with skips := skip :: e.skips }

def extractEach : List CropRequest → Effect PyException Spending Extraction
  | [] => pure {}
  | request :: rest => do
    let outcome ← extractRequest gate frame parts request
    let e ← extractEach rest
    pure (e.put request outcome)

/-- Every request is settled, and one that escapes is the last. -/
def EachSettled : List CropRequest → Prop
  | [] => True
  | request :: rest =>
    Settles gate frame (parts request) request ∧
      (Escapes gate frame (parts request) request → rest = []) ∧ EachSettled rest

/-- What one request leaves: its unit is settled or lost, and the loop goes on unless an
    exception of no documented kind went through. -/
theorem extractRequest_cases (request : CropRequest) (s : Spending) :
    (Settles gate frame (parts request) request ∧
        ((extractRequest gate frame parts request s).2 = s.produce request.demandIds ∨
          (extractRequest gate frame parts request s).2 = s.refund request.demandIds) ∧
        ((∃ exc, (extractRequest gate frame parts request s).1 = .error exc) ↔
          Escapes gate frame (parts request) request)) ∨
      (¬ Settles gate frame (parts request) request ∧
        (extractRequest gate frame parts request s).2 = s) := by
  unfold extractRequest
  rcases wp_cases (extract gate frame (parts request) request) s (wp_extract s) with
    ⟨crop, s', hextract, hsettles, hescapes, hleft⟩ | ⟨fault, s', hextract, hspec⟩
  · rw [hextract]
    refine .inl ⟨hsettles, .inl hleft, ?_⟩
    simp [hescapes]
  · rw [hextract]
    rcases hspec with ⟨hsettles, hleft, hraised⟩ | ⟨hsettles, hleft⟩
    · refine .inl ⟨hsettles, .inr hleft, ?_⟩
      rw [← hraised]
      cases fault <;> simp [CropFault.extracted, extractOne]
    · exact .inr ⟨hsettles, hleft⟩

def charged (requests : List CropRequest) : List (List String) := requests.map (·.demandIds)

theorem extractEach_owes (requests : List CropRequest) {out : List (List String)} {s : Spending}
    (h : s.tally.Owes (charged requests ++ out)) :
    ∃ lost, (extractEach gate frame parts requests s).2.tally.Owes (lost ++ out) ∧
      (lost = [] ↔ EachSettled gate frame parts requests) := by
  induction requests generalizing out s with
  | nil => exact ⟨[], h, iff_of_true rfl trivial⟩
  | cons request rest ih =>
    -- the state after the first request, and whether the loop goes on from it
    rcases hrun : extractRequest gate frame parts request s with ⟨result, s'⟩
    have hcases := extractRequest_cases gate frame parts request s
    rw [hrun] at hcases
    have hstopped : ∀ exc, result = .error exc →
        (extractEach gate frame parts (request :: rest) s).2 = s' := by
      rintro exc rfl
      exact congrArg Prod.snd (bind_of_error hrun)
    have hwent : ∀ outcome, result = .ok outcome →
        (extractEach gate frame parts (request :: rest) s).2 =
          (extractEach gate frame parts rest s').2 := by
      rintro outcome rfl
      refine (congrArg Prod.snd (bind_of_ok hrun)).trans ?_
      rcases hrest : extractEach gate frame parts rest s' with ⟨rested, s''⟩
      cases rested with
      | error exc => exact congrArg Prod.snd (bind_of_error hrest)
      | ok e => exact (congrArg Prod.snd (bind_of_ok hrest)).trans rfl
    rcases hcases with ⟨hsettles, hleft, hescapes⟩ | ⟨hsettles, hleft⟩
    · -- settled: the first unit is not out any more
      have howes : s'.tally.Owes (charged rest ++ out) := by
        rcases hleft with rfl | rfl
        · exact h.use
        · exact h.refund
      cases result with
      | error exc =>
        have hescape : Escapes gate frame (parts request) request := hescapes.mp ⟨exc, rfl⟩
        rw [hstopped exc rfl]
        refine ⟨charged rest, howes, ?_⟩
        constructor
        · intro hnil
          have hrest : rest = [] := map_eq_nil_iff.mp hnil
          exact ⟨hsettles, fun _ => hrest, hrest ▸ trivial⟩
        · rintro ⟨-, hlast, -⟩
          rw [hlast hescape]
          rfl
      | ok outcome =>
        obtain ⟨lost, hlost, hiff⟩ := ih howes
        rw [hwent outcome rfl]
        refine ⟨lost, hlost, hiff.trans ?_⟩
        constructor
        · intro heach
          refine ⟨hsettles, fun hescape => ?_, heach⟩
          obtain ⟨exc, hexc⟩ := hescapes.mpr hescape
          cases hexc
        · exact fun heach => heach.2.2
    · -- lost: the first unit stays out, whatever happens to the others
      obtain rfl : s' = s := hleft
      cases result with
      | error exc =>
        rw [hstopped exc rfl]
        refine ⟨charged (request :: rest), h, ?_⟩
        simp [charged, EachSettled, hsettles]
      | ok outcome =>
        have hbehind : s'.tally.Owes (charged rest ++ (request.demandIds :: out)) :=
          h.congr perm_middle.symm
        obtain ⟨lost, hlost, -⟩ := ih hbehind
        rw [hwent outcome rfl]
        refine ⟨lost ++ [request.demandIds], by simpa using hlost, ?_⟩
        simp [EachSettled, hsettles]

end Loop

section Admission

variable (clock : Nat → Instant) (config : CropConfig) (frame : FrameContext)

theorem admitGroups_owes {groups : List (AdmissionCandidate × List AttributeKey)}
    (hdistinct : ∀ turn ∈ groups, turn.1.decision.demandIds.Nodup) {s : Admission Spending}
    {out : List (List String)} (h : s.budget.tally.Owes (out ++ charged s.requests)) :
    (admitGroups (trySpend clock) config frame groups s).budget.tally.Owes
      (out ++ charged (admitGroups (trySpend clock) config frame groups s).requests) := by
  induction groups generalizing s with
  | nil => exact h
  | cons turn rest ih =>
    refine ih (fun turn' hturn => hdistinct turn' (mem_cons_of_mem _ hturn)) ?_
    have htally := trySpend_tally clock s.budget turn.1.decision.demandIds
    unfold admitGroup
    simp only
    split
    · exact h
    split
    · rename_i budget hspend
      rw [hspend] at htally
      rw [show budget.tally = s.budget.tally from htally]
      exact h
    · rename_i budget hspend
      rw [hspend] at htally
      have hreserved := h.reserve (hdistinct turn mem_cons_self)
      rw [show budget.tally = s.budget.tally.reserve turn.1.decision.demandIds from htally]
      unfold charged at hreserved ⊢
      rw [map_append, ← append_assoc]
      exact hreserved

end Admission

/-! ## The runtime -/

/-- One registry update, with all that the runtime meets on it: the frame it names (or why it
    could not be looked at), the policy and the demands of the moment, what is seen of the
    objects, an exception inside `_admit` after a number of its groups, what the lease of the
    pixels comes to, what each extraction meets, and whether a report is due. -/
structure Arrival where
  listening : Bool := true
  failed : Bool := false
  frameRef : FrameRef
  peek : Raises (Option FrameContext)
  now : Instant
  policy : TriggerPolicy
  demands : DemandRegistry
  present : List VisualObject
  sight : VisualObject → Except String TriggerCandidate
  interrupted : Option (Nat × String) := none
  lease : Raises Lease
  parts : CropRequest → ExtractionParts
  reportDue : Bool := false

section Runtime

variable (clock : Nat → Instant) (config : CropConfig) (gate : QualityGate)

namespace Arrival

def manager (a : Arrival) (s : Spending) : CropManager where
  config
  policy := a.policy
  demands := a.demands
  spending := s

def frameContext (a : Arrival) : Raises (Option FrameContext) :=
  match a.lease with
  | .ok .noBuffer => .ok none
  | _ => a.peek

/-- The groups of the frame in the order they are admitted; none where the policy raised or
    named an object that is not there. -/
def groups (a : Arrival) (frame : FrameContext) (s : Spending) :
    List (AdmissionCandidate × List AttributeKey) :=
  match (a.manager config s).decisions a.now frame a.sight a.present with
  | .error _ => []
  | .ok decisions =>
    match splitDecisions frame.frameRef.cameraId (byId a.present) decisions with
    | none => []
    | some (firing, _) => groupsOf config firing

def admittedBy (a : Arrival) (frame : FrameContext) (n : Nat) (s : Spending) : Admission Spending :=
  admitGroups (trySpend clock) config frame ((a.groups config frame s).take n)
    { budget := s }

/-- `CropManager.evaluate`: where `_admit` is interrupted, its guard skips every object and the
    budget stays as it is. -/
def evaluate (a : Arrival) (frame : FrameContext) : Effect PyException Spending EvaluationResult :=
  fun s =>
    match a.interrupted with
    | none =>
      let (result, m) := (a.manager config s).evaluate clock a.now frame a.sight a.present
      (.ok result, m.spending)
    | some (n, typeName) =>
      (.ok (evaluationFailed frame a.present typeName), (a.admittedBy clock config frame n s).budget)

def frameGone (a : Arrival) : EvaluationResult where
  cameraId := a.frameRef.cameraId
  frameRef := a.frameRef
  skipped := a.present.map fun obj => {
    objectId := obj.objectId, cameraId := a.frameRef.cameraId, reason := .frameUnavailable
    detail := "frame evicted before trigger evaluation" }

def evaluateFrame (a : Arrival) : Effect PyException Spending EvaluationResult := do
  match ← Effect.ofExcept a.frameContext with
  | none => pure a.frameGone
  | some frame => a.evaluate clock config frame

def extractAll (a : Arrival) (result : EvaluationResult) : Effect PyException Spending Extraction :=
  if result.requests = [] then pure {}
  else do
    match ← Effect.ofExcept a.lease with
    | .noBuffer =>
      pure { skips := result.requests.map (unavailable · "no frame buffer bound") }
    | .evicted =>
      pure { skips := result.requests.map (unavailable · "frame evicted before extraction") }
    | .held leased => extractEach gate leased a.parts result.requests

/-- What `on_registered` guards. -/
def handle (a : Arrival) : Effect PyException Spending (EvaluationResult × Extraction) := do
  let result ← a.evaluateFrame clock config
  let extraction ← a.extractAll gate result
  pure (result, extraction)

end Arrival

def onRegistered (s : Spending) (a : Arrival) : Option (EvaluationResult × List Crop) × Spending :=
  if !a.listening || a.failed then (none, s)
  else
    match a.handle clock config gate s with
    | (.error _, s') => (none, s')
    | (.ok (result, extraction), s') =>
      -- a report that is due reads the budget's status twice
      (some (published result extraction, extraction.crops),
        if a.reportDue then (s'.status clock).status clock else s')

def spend (s : Spending) (a : Arrival) : Spending := (onRegistered clock config gate s a).2

/-- The update settles what it reserves: an exception inside `_admit` comes before a unit is
    granted; and where there are requests, the frame is still there for them and each of them
    is settled. -/
def Arrival.Settled (s : Spending) (a : Arrival) : Prop :=
  a.listening = true → a.failed = false → ∀ frame, a.frameContext = .ok (some frame) →
    match a.interrupted with
    | some (n, _) => (a.admittedBy clock config frame n s).requests = []
    | none =>
      ∀ requests, requests =
          ((a.manager config s).evaluate clock a.now frame a.sight a.present).1.requests →
        requests ≠ [] →
          ∃ leased, a.lease = .ok (.held leased) ∧ EachSettled gate leased a.parts requests

/-! ## What one update leaves -/

namespace Arrival

variable {config gate} {a : Arrival} {frame : FrameContext} {s : Spending}

variable {decisions : List TriggerDecision}

theorem decisions_distinct
    (h : (a.manager config s).decisions a.now frame a.sight a.present = .ok decisions) :
    decisions.map (·.objectId) = a.present.map (·.objectId) ∧
      ∀ d ∈ decisions, d.demandIds.Nodup := by
  cases hcandidates : candidatesOf frame a.sight a.present with
  | error typeName =>
    rw [decisions_of_error hcandidates] at h
    cases h
  | ok cs =>
    rw [decisions_of_candidates hcandidates] at h
    obtain rfl := ok.inj h
    refine ⟨decisions_ids hcandidates, fun d hd => ?_⟩
    obtain ⟨c, -, rfl⟩ := mem_map.mp hd
    exact (TriggerPolicy.decision_decided _ c).demandIds

theorem splitDecisions_of_decisions
    (h : (a.manager config s).decisions a.now frame a.sight a.present = .ok decisions) :
    ∃ firing skipped, splitDecisions frame.frameRef.cameraId (byId a.present) decisions =
      some (firing, skipped) ∧ Split decisions firing skipped := by
  refine splitDecisions_split byId_own fun d hd => ?_
  apply OrderedDict.exists_get?_ofPairs
  rw [map_map]
  show d.objectId ∈ a.present.map (·.objectId)
  rw [← (decisions_distinct h).1]
  exact mem_map_of_mem hd

theorem groups_distinct : ∀ turn ∈ a.groups config frame s, turn.1.decision.demandIds.Nodup := by
  intro turn hturn
  unfold groups at hturn
  cases hdecisions : (a.manager config s).decisions a.now frame a.sight a.present with
  | error typeName =>
    rw [hdecisions] at hturn
    cases hturn
  | ok decisions =>
    obtain ⟨firing, skipped, hsplitDecisions, hsplit⟩ := splitDecisions_of_decisions hdecisions
    simp only [hdecisions, hsplitDecisions] at hturn
    obtain ⟨item, hitem, hgroup⟩ := mem_flatMap.mp hturn
    obtain ⟨group, -, rfl⟩ := mem_map.mp hgroup
    have hfiring : item ∈ firing := (mem_insertionSort _).mp hitem
    have hdecision : item.decision ∈ decisions.filter (·.fires) :=
      hsplit.fired ▸ mem_map_of_mem hfiring
    exact (decisions_distinct hdecisions).2 _ (mem_filter.mp hdecision).1

theorem evaluate_admits (a : Arrival) (config : CropConfig) (frame : FrameContext)
    (s : Spending) :
    ((a.manager config s).evaluate clock a.now frame a.sight a.present).1.requests =
        (admitGroups (trySpend clock) config frame (a.groups config frame s)
          { budget := s }).requests ∧
      ((a.manager config s).evaluate clock a.now frame a.sight a.present).2.spending.tally =
        (admitGroups (trySpend clock) config frame (a.groups config frame s)
          { budget := s }).budget.tally := by
  have hreport : ∀ result (s : Spending),
      (reportExhausted clock result s).tally = s.tally := by
    intro result s
    unfold reportExhausted
    split <;> rfl
  unfold CropManager.evaluate
  simp only [hreport]
  unfold groups
  cases hdecisions : (a.manager config s).decisions a.now frame a.sight a.present with
  | error typeName => exact ⟨rfl, rfl⟩
  | ok decisions =>
    obtain ⟨firing, skipped, hsplitDecisions, -⟩ := splitDecisions_of_decisions hdecisions
    have hlength : decisions.length = a.present.length := by
      simpa using congrArg List.length (decisions_distinct hdecisions).1
    unfold Cropping.evaluate
    simp only [hsplitDecisions, if_neg (not_not.mpr hlength)]
    unfold byId at hsplitDecisions
    simp only [hsplitDecisions, admitFiring_eq]
    exact ⟨rfl, rfl⟩

theorem admitted_owes (h : s.tally.Owes [])
    {groups : List (AdmissionCandidate × List AttributeKey)}
    (hsub : ∀ turn ∈ groups, turn ∈ a.groups config frame s) :
    (admitGroups (trySpend clock) config frame groups
        { budget := s }).budget.tally.Owes
      (charged (admitGroups (trySpend clock) config frame groups
        { budget := s }).requests) := by
  have hdistinct : ∀ turn ∈ groups, turn.1.decision.demandIds.Nodup :=
    fun turn hturn => groups_distinct turn (hsub turn hturn)
  have hstart : ({ budget := s } : Admission Spending).budget.tally.Owes
      ([] ++ charged ({ budget := s } : Admission Spending).requests) := h
  exact admitGroups_owes clock config frame hdistinct hstart

variable {result : EvaluationResult}

theorem extractAll_owes (h : s.tally.Owes (charged result.requests)) :
    ∃ lost, (a.extractAll gate result s).2.tally.Owes lost ∧
      (lost = [] ↔ (result.requests ≠ [] →
        ∃ leased, a.lease = .ok (.held leased) ∧
          EachSettled gate leased a.parts result.requests)) := by
  unfold extractAll
  by_cases hnone : result.requests = []
  · rw [if_pos hnone]
    rw [hnone] at h
    exact ⟨[], h, iff_of_true rfl fun hne => absurd hnone hne⟩
  rw [if_neg hnone]
  have hout : charged result.requests = [] ↔ False :=
    iff_of_false (fun hnil => hnone (map_eq_nil_iff.mp hnil)) not_false
  cases hlease : a.lease with
  | error exc =>
    refine ⟨charged result.requests, h, hout.trans ?_⟩
    simp [hnone]
  | ok lease =>
    cases lease with
    | noBuffer =>
      refine ⟨charged result.requests, h, hout.trans ?_⟩
      simp [hnone]
    | evicted =>
      refine ⟨charged result.requests, h, hout.trans ?_⟩
      simp [hnone]
    | held leased =>
      rw [← append_nil (charged result.requests)] at h
      obtain ⟨lost, hlost, hiff⟩ := extractEach_owes gate leased a.parts result.requests h
      rw [append_nil] at hlost
      refine ⟨lost, hlost, hiff.trans ?_⟩
      simp [hnone]

theorem handle_snd {s' : Spending}
    (h : a.evaluateFrame clock config s = (.ok result, s')) :
    (a.handle clock config gate s).2 = (a.extractAll gate result s').2 := by
  refine (congrArg Prod.snd (bind_of_ok h)).trans ?_
  rcases hextract : a.extractAll gate result s' with ⟨extracted, s''⟩
  cases extracted with
  | error exc => exact congrArg Prod.snd (bind_of_error hextract)
  | ok extraction => exact (congrArg Prod.snd (bind_of_ok hextract)).trans rfl

theorem evaluateFrame_of_frame (h : a.frameContext = .ok (some frame)) :
    a.evaluateFrame clock config s = a.evaluate clock config frame s := by
  unfold evaluateFrame
  rw [h]
  rfl

/-- What is still out after the guarded part of an update that found nothing out. -/
theorem handle_owes (h : s.tally.Owes []) :
    ∃ lost, (a.handle clock config gate s).2.tally.Owes lost ∧
      (lost = [] ↔ ∀ frame, a.frameContext = .ok (some frame) →
        match a.interrupted with
        | some (n, _) => (a.admittedBy clock config frame n s).requests = []
        | none =>
          ∀ requests, requests =
              ((a.manager config s).evaluate clock a.now frame a.sight a.present).1.requests →
            requests ≠ [] →
              ∃ leased, a.lease = .ok (.held leased) ∧
                EachSettled gate leased a.parts requests) := by
  cases hcontext : a.frameContext with
  | error exc =>
    have hraised : a.evaluateFrame clock config s = (.error exc, s) := by
      unfold evaluateFrame
      rw [hcontext]
      rfl
    have hleft : (a.handle clock config gate s).2 = s :=
      congrArg Prod.snd (bind_of_error hraised)
    rw [hleft]
    exact ⟨[], h, iff_of_true rfl fun frame hframe => by cases hframe⟩
  | ok context =>
    cases context with
    | none =>
      -- the frame is gone: nothing is admitted
      have hgone : a.evaluateFrame clock config s = (.ok a.frameGone, s) := by
        unfold evaluateFrame
        rw [hcontext]
        rfl
      rw [a.handle_snd clock hgone]
      exact ⟨[], h, iff_of_true rfl fun frame hframe => by cases hframe⟩
    | some frame =>
      have hframe : a.evaluateFrame clock config s = a.evaluate clock config frame s :=
        evaluateFrame_of_frame clock hcontext
      have hsame : ∀ frame', ok (some frame) = (ok (some frame') : Raises _) →
          frame = frame' := fun frame' heq => Option.some.inj (ok.inj heq)
      cases hinterrupted : a.interrupted with
      | some interruption =>
        -- what was reserved before the exception is not extracted any more
        obtain ⟨n, typeName⟩ := interruption
        unfold evaluate at hframe
        rw [hinterrupted] at hframe
        rw [a.handle_snd clock hframe]
        refine ⟨charged (a.admittedBy clock config frame n s).requests, ?_, ?_⟩
        · exact admitted_owes clock h fun turn hturn => mem_of_mem_take hturn
        · constructor
          · intro hnil frame' heq
            obtain rfl := hsame frame' heq
            exact map_eq_nil_iff.mp hnil
          · intro hall
            exact map_eq_nil_iff.mpr (hall frame rfl)
      | none =>
        unfold evaluate at hframe
        rw [hinterrupted] at hframe
        rw [a.handle_snd clock hframe]
        obtain ⟨hrequests, htally⟩ := a.evaluate_admits clock config frame s
        have howes := admitted_owes clock h fun turn (hturn : turn ∈ a.groups config frame s) => hturn
        rw [← hrequests, ← htally] at howes
        obtain ⟨lost, hlost, hiff⟩ : ∃ lost, (a.extractAll gate _ _).2.tally.Owes lost ∧ _ :=
          extractAll_owes howes
        refine ⟨lost, hlost, hiff.trans ?_⟩
        constructor
        · intro hall frame' heq requests hreq
          obtain rfl := hsame frame' heq
          rw [hreq]
          exact hall
        · intro hall
          exact hall frame rfl _ rfl

/-- What is still out after an update that found nothing out: nothing exactly when the update
    settled what it reserved. -/
theorem spend_owes (a : Arrival) (h : s.tally.Owes []) :
    ∃ lost, (spend clock config gate s a).tally.Owes lost ∧
      (lost = [] ↔ a.Settled clock config gate s) := by
  unfold spend onRegistered Settled
  by_cases hskipped : (!a.listening || a.failed) = true
  · rw [if_pos hskipped]
    refine ⟨[], h, iff_of_true rfl fun hlistening hfailed => ?_⟩
    rw [hlistening, hfailed] at hskipped
    cases hskipped
  rw [if_neg hskipped]
  simp only [Bool.or_eq_true, Bool.not_eq_true', not_or, Bool.not_eq_true, Bool.not_eq_false]
    at hskipped
  obtain ⟨lost, hlost, hiff⟩ : ∃ lost, (a.handle clock config gate s).2.tally.Owes lost ∧ _ :=
    handle_owes clock h
  refine ⟨lost, ?_, hiff.trans ⟨fun hall _ _ => hall, fun hall => hall hskipped.1 hskipped.2⟩⟩
  rcases hhandle : a.handle clock config gate s with ⟨result, s'⟩
  rw [hhandle] at hlost
  cases result with
  | error exc => exact hlost
  | ok handled =>
    -- a report leaves the tally
    show (if a.reportDue then (s'.status clock).status clock else s').tally.Owes lost
    split
    · exact hlost
    · exact hlost

end Arrival

/-- Budget buys only evidence: in every state of a run the units reserved less those given back
    are the crops produced, in all and for each demand, exactly when every update of the run
    settles what it reserves. -/
theorem budget_buys_evidence_iff (budget : UnderstandingBudget) (arrivals : List Arrival) :
    (∀ before, before <+: arrivals →
        (Runs.run (spend clock config gate) { budget } before).tally.Balanced) ↔
      Runs.Always (spend clock config gate)
        (fun s a => a.Settled clock config gate s) { budget } arrivals := by
  have hholds : ∀ s : Spending, s.tally.Owes [] → s.tally.Balanced :=
    fun s h => h.balanced_iff.mpr rfl
  have hkeep : ∀ (s : Spending) (a : Arrival), s.tally.Owes [] →
      a.Settled clock config gate s → (spend clock config gate s a).tally.Owes [] := by
    intro s a h hsettled
    obtain ⟨lost, hlost, hiff⟩ := a.spend_owes clock h
    rwa [hiff.mpr hsettled] at hlost
  have hbreak : ∀ (s : Spending) (a : Arrival), s.tally.Owes [] →
      ¬ a.Settled clock config gate s → ¬ (spend clock config gate s a).tally.Balanced := by
    intro s a h hsettled hbalanced
    obtain ⟨lost, hlost, hiff⟩ := a.spend_owes clock h
    exact hsettled (hiff.mp (hlost.balanced_iff.mp hbalanced))
  exact Runs.reached_iff_always hholds hkeep hbreak Tally.owes_empty arrivals

end Runtime

/-- Two pallets are wanted of the depot's frame, which is gone when its pixels are leased. -/
def evictedArrival : Arrival where
  frameRef := depotFrame.frameRef
  peek := .ok (some depotFrame)
  now := ⟨0⟩
  policy := .default .default
  demands := depotDemands
  present := pallets
  sight := seenPallet
  lease := .ok .evicted
  parts := fun _ => { pixels := .ok "c0ffee" }

/-- The units of both pallets stay spent, and no crop was made. -/
theorem evicted_frame_keeps_units :
    ¬ (Runs.run (spend (fun _ => ⟨0⟩) { maxCandidatesPerFrame := 128 } {})
      { budget := (depotManager {}).spending.budget }
      [evictedArrival]).tally.Balanced := by
  have htally : (Runs.run (spend (fun _ => ⟨0⟩) { maxCandidatesPerFrame := 128 } {})
      { budget := (depotManager {}).spending.budget } [evictedArrival]).tally =
        { reserved := [["wrapped"], ["wrapped"]] } := by decide +kernel
  intro hbalanced
  have hunits := hbalanced.units
  rw [htally] at hunits
  cases hunits

end VisionOs.Cropping
