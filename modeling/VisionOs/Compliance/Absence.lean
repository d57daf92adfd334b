/-
  Absence of evidence never becomes evidence.  Losing evidence can only withdraw what an
  evaluation relies on, so every condition's outcome fades.  What raises is a value that cannot be
  written or compared; `Answerable` rules it out where it is met.
-/
import VisionOs.Compliance.Evaluator
import VisionOs.Lib.Evidence

namespace VisionOs.Compliance

open Core Lib Lib.Evidence List ConditionOutcome Bool

structure Situation where
  view : ObjectView
  now : Instant
  coverage : Option CoverageSummary
  capabilityGaps : List String

/-- `evaluate_rule` in a situation. -/
def ComplianceEvaluator.evaluateIn (self : ComplianceEvaluator) (py : Interpreter)
    (rule : Rule) (s : Situation) (subjectLabel : String) : Raises Finding :=
  self.evaluateRule py rule s.view s.now s.coverage s.capabilityGaps subjectLabel

def assessIn (py : Interpreter) (evidence : EvidenceRequirements) (s : Situation)
    (condition : Condition) : Raises ConditionOutcome :=
  assess py condition s.view evidence s.now s.capabilityGaps s.coverage

def withoutAttributes (view : ObjectView) (dropped : AttributeKey → Bool) : ObjectView :=
  { view with attributes := view.attributes.filterKeys (fun key => !dropped key) }

/-- The later coverage promises no more than the earlier one. -/
def CoverageReduced : Option CoverageSummary → Option CoverageSummary → Prop
  | none, _ => True
  | some _, none => False
  | some c, some c' =>
    c'.observableFraction.le c.observableFraction = true ∧ c.unavailable ⊆ c'.unavailable

/-- `s'` is `s` with attributes removed, time moved on, capability gaps added and
    coverage reduced, in any combination. -/
structure LosesEvidence (s s' : Situation) : Prop where
  view : ∃ dropped, s'.view = withoutAttributes s.view dropped
  now : s.now.ns ≤ s'.now.ns
  coverage : CoverageReduced s.coverage s'.coverage
  capabilityGaps : s.capabilityGaps ⊆ s'.capabilityGaps

/-- The observable fraction, where there is one, lies in [0,1]. -/
def CoverageInUnit (coverage : Option CoverageSummary) : Prop :=
  ∀ c, coverage = some c → c.observableFraction.inUnit = true

/-- Everything a verdict on a condition rests on: the capability and the coverage
    are there, and the held value is no refusal, fresh and corroborated. -/
structure Relied (py : Interpreter) (evidence : EvidenceRequirements) (s : Situation)
    (condition : Condition) (held : AttributeView) : Prop where
  served : condition.attributeKey ∉ s.capabilityGaps
  covered : coverageBlocked evidence s.coverage = false
  found : s.view.attributes.get? condition.attributeKey = some held
  noRefusal : refused py condition held.value = .ok false
  fresh : isStale held evidence s.now = false
  corroborated : uncorroborated s.view evidence s.now = false

/-- Judging a condition does not raise: what is held under its key can be written where its
    text is asked for, and compared where it is relied on. -/
structure Readable (py : Interpreter) (evidence : EvidenceRequirements) (s : Situation)
    (condition : Condition) : Prop where
  text : ∀ held, condition.operator ≠ .present → condition.attributeKey ∉ s.capabilityGaps →
    coverageBlocked evidence s.coverage = false →
    s.view.attributes.get? condition.attributeKey = some held → condition.unknownValues ≠ [] →
    held.value.depth ≤ py.room ∧ held.value.printable = true
  compared : ∀ held, condition.operator ≠ .present → Relied py evidence s condition held →
    ∃ verdict, compare py condition held.value = .ok verdict

/-- The condition is assessed, and found satisfied. -/
def Holds (py : Interpreter) (evidence : EvidenceRequirements) (s : Situation)
    (condition : Condition) : Prop :=
  ∃ o, assessIn py evidence s condition = .ok o ∧ o.satisfied = some true

/-- The guards can be read, and where they all hold, the requirements can. -/
structure Answerable (py : Interpreter) (rule : Rule) (s : Situation) : Prop where
  guard : ∀ c ∈ rule.when, Readable py rule.evidence s c
  required : (∀ c ∈ rule.when, Holds py rule.evidence s c) →
    ∀ c ∈ rule.require, Readable py rule.evidence s c

/-! ## Losing evidence withdraws what was relied on -/

theorem CoverageSummary.fullyObservable_of_reduced {c c' : CoverageSummary}
    (h : CoverageReduced (some c) (some c')) (hfull : c'.fullyObservable = true) :
    c.fullyObservable = true := by
  simp only [Core.CoverageSummary.fullyObservable, and_eq_true, List.isEmpty_iff] at *
  obtain ⟨hle, hsub⟩ := h
  refine ⟨PyFloat.le_trans hfull.1 hle, ?_⟩
  rw [hfull.2] at hsub
  exact List.subset_nil.mp hsub

variable {evidence : EvidenceRequirements} {coverage : Option CoverageSummary}

theorem coverageBlocked_of_reduced
    {coverage' : Option CoverageSummary} (h : CoverageReduced coverage coverage')
    (hfree : coverageBlocked evidence coverage' = false) :
    coverageBlocked evidence coverage = false := by
  unfold coverageBlocked at *
  cases hreq : evidence.requireFullCoverage with
  | false => rfl
  | true =>
    cases coverage with
    | none => rfl
    | some c =>
      cases coverage' with
      | none => exact h.elim
      | some c' =>
        simp only [hreq, Bool.true_and, Bool.not_eq_false'] at hfree ⊢
        exact CoverageSummary.fullyObservable_of_reduced h hfree

variable {held : AttributeView}

theorem get?_of_withoutAttributes {view : ObjectView} {dropped : AttributeKey → Bool}
    {key : AttributeKey}
    (h : (withoutAttributes view dropped).attributes.get? key = some held) :
    view.attributes.get? key = some held := by
  have hget := OrderedDict.get?_filterKeys view.attributes (fun key => !dropped key) key
  rw [withoutAttributes] at h
  rw [hget] at h
  split at h
  · exact h
  · cases h

theorem isStale_mono
    {now later : Instant} (hle : now.ns ≤ later.ns)
    (hfresh : isStale held evidence later = false) : isStale held evidence now = false := by
  rw [isStale, or_eq_false_iff] at *
  obtain ⟨hview, hrule⟩ := hfresh
  refine ⟨?_, ?_⟩
  · by_contra hstale
    rw [not_eq_false] at hstale
    rw [AttributeView.isStale_mono hle hstale] at hview
    cases hview
  · cases hmax : evidence.maxStaleness with
    | none => rfl
    | some maxStaleness =>
      simp only [hmax, decide_eq_false_iff_not, gt_iff_lt, not_lt] at hrule ⊢
      omega

variable {s s' : Situation}

theorem uncorroborated_of_loses
    (h : LosesEvidence s s') (hok : uncorroborated s'.view evidence s'.now = false) :
    uncorroborated s.view evidence s.now = false := by
  obtain ⟨dropped, hview⟩ := h.view
  unfold uncorroborated at *
  rw [any_eq_false] at *
  intro key hkey
  have hkey' := hok key hkey
  cases hget : s'.view.attributes.get? key with
  | none => simp [hget] at hkey'
  | some corroboration =>
    simp only [hget, not_eq_true] at hkey'
    rw [hview] at hget
    rw [get?_of_withoutAttributes hget]
    intro hstale
    rw [AttributeView.isStale_mono h.now hstale] at hkey'
    cases hkey'

variable {py : Interpreter} {condition : Condition}

theorem Relied.of_loses
    (h : LosesEvidence s s') (hrel : Relied py evidence s' condition held) :
    Relied py evidence s condition held where
  served := fun hgap => hrel.served (h.capabilityGaps hgap)
  covered := coverageBlocked_of_reduced h.coverage hrel.covered
  found := by
    obtain ⟨dropped, hview⟩ := h.view
    have hfound := hrel.found
    rw [hview] at hfound
    exact get?_of_withoutAttributes hfound
  noRefusal := hrel.noRefusal
  fresh := isStale_mono h.now hrel.fresh
  corroborated := uncorroborated_of_loses h hrel.corroborated

theorem Readable.of_loses (h : LosesEvidence s s')
    (hread : Readable py evidence s condition) : Readable py evidence s' condition where
  text := by
    intro held hop hserved hcovered hfound
    obtain ⟨dropped, hview⟩ := h.view
    rw [hview] at hfound
    exact hread.text held hop (fun hgap => hserved (h.capabilityGaps hgap))
      (coverageBlocked_of_reduced h.coverage hcovered) (get?_of_withoutAttributes hfound)
  compared := fun held hop hrel => hread.compared held hop (hrel.of_loses h)

/-! ## One condition -/

theorem refused_returns {held : PyValue} :
    (∃ answer, refused py condition held = .ok answer) ↔
      (condition.unknownValues ≠ [] → held.depth ≤ py.room ∧ held.printable = true) := by
  unfold refused
  by_cases hnone : condition.unknownValues = []
  · rw [if_pos (by simp [hnone])]
    exact ⟨fun _ hne => absurd hnone hne, fun _ => ⟨_, rfl⟩⟩
  rw [if_neg (by simpa using hnone)]
  have htext : (∃ text, asText py held = .ok text) ↔
      held.depth ≤ py.room ∧ held.printable = true := by
    cases held with
    | str text => simp [asText, PyValue.depth, PyValue.printable]
    | _ => simp [asText, PyValue.text_eq_ok]
  simp only [bind_eq_ok, ne_eq, hnone, not_false_eq_true, forall_true_left]
  exact ⟨fun ⟨_, text, h, _⟩ => htext.mp ⟨text, h⟩, fun h =>
    (htext.mpr h).elim fun text h => ⟨_, text, h, rfl⟩⟩

theorem unresolvedOutcome_returns (condition : Condition) (held : Option AttributeView)
    (reason : UnknownReason) :
    ∃ o, unresolvedOutcome condition held reason = .ok o ∧ o.satisfied = none := by
  obtain ⟨o, ho, hfields⟩ := construct_eq_ok
    { outcomeOf condition held with unknownReason := some reason } (by simp [outcomeOf])
  refine ⟨o, ho, ?_⟩
  rw [hfields]
  rfl

theorem verdictOutcome_returns (condition : Condition) (held : Option AttributeView)
    (verdict : Bool) :
    ∃ o, construct
        { outcomeOf condition held with satisfied := some verdict } = .ok o ∧
      o.satisfied = some verdict := by
  obtain ⟨o, ho, hfields⟩ := construct_eq_ok
    { outcomeOf condition held with satisfied := some verdict } (by simp [outcomeOf])
  refine ⟨o, ho, ?_⟩
  rw [hfields]

theorem assessIn_of_relied {verdict : Bool}
    (hop : condition.operator ≠ .present) (hrel : Relied py evidence s condition held)
    (hcmp : compare py condition held.value = .ok (some verdict)) :
    ∃ o, assessIn py evidence s condition = .ok o ∧ o.satisfied = some verdict := by
  obtain ⟨o, ho, hsat⟩ := verdictOutcome_returns condition (some held) verdict
  refine ⟨o, ?_, hsat⟩
  unfold assessIn assess
  simp only [hrel.served, hrel.covered, hop, hrel.found, hrel.noRefusal, hrel.fresh,
    hrel.corroborated, if_false, false_eq_true, hcmp, ok_bind]
  exact ho

/-- What returns and rests its verdict on something reads it. -/
structure Assessed (py : Interpreter) (evidence : EvidenceRequirements) (s : Situation)
    (condition : Condition) (o : ConditionOutcome) : Prop where
  returned : assessIn py evidence s condition = .ok o
  relied : condition.operator ≠ .present → ∀ verdict, o.satisfied = some verdict →
    ∃ held, Relied py evidence s condition held ∧
      compare py condition held.value = .ok (some verdict)

/-- A readable condition is assessed. -/
theorem assessIn_returns
    (hread : Readable py evidence s condition) : ∃ o, Assessed py evidence s condition o := by
  have hnone : ∀ held reason, assessIn py evidence s condition =
      unresolvedOutcome condition held reason → ∃ o, Assessed py evidence s condition o := by
    intro held reason heq
    obtain ⟨o, ho, hsat⟩ := unresolvedOutcome_returns condition held reason
    refine ⟨o, heq.trans ho, fun _ verdict h => ?_⟩
    rw [hsat] at h
    cases h
  -- One gate after the other: each either leaves the condition unresolved or
  -- establishes the next field of `Relied`.
  by_cases hserved : condition.attributeKey ∈ s.capabilityGaps
  · exact hnone _ _ (by unfold assessIn assess; simp only [hserved, if_true]; rfl)
  by_cases hcovered : coverageBlocked evidence s.coverage = true
  · exact hnone _ _ (by
      unfold assessIn assess
      simp only [hserved, hcovered, if_true, if_false]
      rfl)
  by_cases hop : condition.operator = .present
  · obtain ⟨o, ho, -⟩ := verdictOutcome_returns condition
      (s.view.attributes.get? condition.attributeKey)
      (s.view.attributes.get? condition.attributeKey).isSome
    refine ⟨o, ?_, fun hnot => absurd hop hnot⟩
    unfold assessIn assess
    simp only [hserved, hcovered, hop, if_true, if_false]
    exact ho
  have hcovered' : coverageBlocked evidence s.coverage = false := by simpa using hcovered
  cases hfound : s.view.attributes.get? condition.attributeKey with
  | none =>
    exact hnone none _ (by
      unfold assessIn assess
      simp only [hserved, hcovered, hop, if_false, false_eq_true, hfound]
      rfl)
  | some held =>
    have hgates := @assess_of_held py condition s.view evidence s.now s.capabilityGaps s.coverage
      held hserved hcovered' hop hfound
    obtain ⟨answer, hanswer⟩ := refused_returns.mpr
      (hread.text held hop hserved hcovered' hfound)
    rw [hanswer, ok_bind] at hgates
    cases answer with
    | true => exact hnone _ _ (hgates.trans (if_pos rfl))
    | false =>
      rw [if_neg Bool.false_ne_true] at hgates
      by_cases hstale : isStale held evidence s.now = true
      · exact hnone _ _ (hgates.trans (if_pos hstale))
      rw [if_neg hstale] at hgates
      by_cases huncorroborated : uncorroborated s.view evidence s.now = true
      · exact hnone _ _ (hgates.trans (if_pos huncorroborated))
      rw [if_neg huncorroborated] at hgates
      have hrel : Relied py evidence s condition held := ⟨hserved, hcovered', hfound, hanswer,
        by simpa using hstale, by simpa using huncorroborated⟩
      obtain ⟨result, hcmp⟩ := hread.compared held hop hrel
      cases result with
      | none => exact hnone _ _ (hgates.trans (by rw [hcmp]; rfl))
      | some verdict =>
        obtain ⟨o, ho, hsat⟩ := assessIn_of_relied hop hrel hcmp
        refine ⟨o, ho, fun _ verdict' h => ⟨held, hrel, ?_⟩⟩
        rw [hsat, Option.some.injEq] at h
        rw [← h]
        exact hcmp

theorem readable_of_assessIn {o : ConditionOutcome}
    (h : assessIn py evidence s condition = .ok o) : Readable py evidence s condition := by
  unfold assessIn assess at h
  constructor
  · intro held hop hserved hcovered hfound
    simp only [hserved, hcovered, hop, hfound, if_false, false_eq_true] at h
    obtain ⟨answer, hanswer, -⟩ := bind_eq_ok.mp h
    exact refused_returns.mp ⟨answer, hanswer⟩
  · intro held hop hrel
    simp only [hrel.served, hrel.covered, hop, hrel.found, hrel.noRefusal, hrel.fresh,
      hrel.corroborated, if_false, false_eq_true, ok_bind] at h
    obtain ⟨verdict, hverdict, -⟩ := bind_eq_ok.mp h
    exact ⟨verdict, hverdict⟩

theorem assessed_of_assessIn {o : ConditionOutcome}
    (h : assessIn py evidence s condition = .ok o) : Assessed py evidence s condition o := by
  obtain ⟨o', ho'⟩ := assessIn_returns (readable_of_assessIn h)
  obtain rfl := Except.ok.inj (h.symm.trans ho'.returned)
  exact ho'

variable {o : ConditionOutcome}

theorem assessIn_fades {o' : ConditionOutcome}
    (hop : condition.operator ≠ .present) (hloses : LosesEvidence s s')
    (ho : assessIn py evidence s condition = .ok o)
    (ho' : assessIn py evidence s' condition = .ok o') :
    Fades o.satisfied o'.satisfied := by
  cases hsat : o'.satisfied with
  | none => exact .inr rfl
  | some verdict =>
    obtain ⟨held, hrel, hcmp⟩ := (assessed_of_assessIn ho').relied hop verdict hsat
    obtain ⟨p, hp, hpsat⟩ := assessIn_of_relied hop (hrel.of_loses hloses) hcmp
    rw [ho] at hp
    cases hp
    exact .inl hpsat.symm

/-! ## One rule -/

def ruleState : Option Bool → Option Bool → ComplianceState
  | some false, _ => .notApplicable
  | none, _ => .unknown
  | some true, some false => .violation
  | some true, none => .unknown
  | some true, some true => .compliant

theorem ruleState_fades {g g' r r' : Option Bool} (hg : Fades g g') (hr : Fades r r') :
    ruleState g' r' = ruleState g r ∨ ruleState g' r' = .unknown := by
  rcases hg with rfl | rfl
  · rcases hr with rfl | rfl
    · exact .inl rfl
    · rcases g' with _ | _ | _
      · exact .inr rfl
      · exact .inl rfl
      · exact .inr rfl
  · exact .inr rfl

def conjOf (outcomes : List ConditionOutcome) : Option Bool :=
  conj (outcomes.map (·.satisfied))

variable {outcomes : List ConditionOutcome}

theorem any_failed_iff :
    outcomes.any (·.failed) = true ↔ some false ∈ outcomes.map (·.satisfied) := by
  simp only [any_eq_true, failed, decide_eq_true_eq, mem_map]

theorem any_unresolved_iff :
    outcomes.any (·.unresolved) = true ↔ none ∈ outcomes.map (·.satisfied) := by
  simp only [any_eq_true, unresolved, decide_eq_true_eq, mem_map]

variable {guard required : List ConditionOutcome}

theorem any_of_requiredState_violation (h : requiredState required = .violation) :
    (guard ++ required).any (·.failed) = true := by
  unfold requiredState at h
  split at h
  · rename_i hfailed
    simp [any_append, hfailed]
  · split at h <;> cases h

theorem any_of_requiredState_unknown (h : requiredState required = .unknown) :
    (guard ++ required).any (·.unresolved) = true := by
  unfold requiredState at h
  split at h
  · cases h
  · split at h
    · rename_i hopen
      simp [any_append, hopen]
    · cases h

theorem ComplianceEvaluator.finding_returns (self : ComplianceEvaluator) (rule : Rule)
    (subject : SubjectRef) (state : ComplianceState) (outcomes : List ConditionOutcome)
    (now : Instant) {observable : PyFloat} (hunit : observable.inUnit = true)
    (hviolation : state = .violation → outcomes.any (·.failed) = true)
    (hunknown : state = .unknown → outcomes.any (·.unresolved) = true) :
    ∃ f, self.finding rule subject state outcomes now observable = .ok f ∧
      f.state = state := by
  obtain ⟨f, hf, hfields⟩ := Finding.construct_eq_ok {
    findingId := self.idFactory rule subject now
    ruleId := rule.ruleId
    ruleVersion := rule.version
    rulesetVersion := self.rules.version
    state, subject
    evaluatedAt := now
    conditions := outcomes
    severity := rule.severity
    coverageFraction := observable
    labels := rule.labels } (by
    unfold FindingFields.postInit
    rw [check_bind_eq_ok, check_bind_eq_ok, check_bind_eq_ok]
    simp only [require_eq_ok]
    refine ⟨?_, ?_, ?_, hunit⟩
    · simp [rule.ruleId_ne_empty, rule.version_ne_empty]
    · rintro ⟨hstate, hempty⟩
      obtain ⟨o, ho, hfailed⟩ := any_eq_true.mp (hviolation hstate)
      exact absurd hfailed (by simpa using filter_eq_nil_iff.mp hempty o ho)
    · rintro ⟨hstate, hempty⟩
      obtain ⟨o, ho, hopen⟩ := any_eq_true.mp (hunknown hstate)
      exact absurd hopen (by simpa using filter_eq_nil_iff.mp hempty o ho))
  refine ⟨f, hf, ?_⟩
  rw [hfields]

theorem observableFraction_inUnit
    (hcov : CoverageInUnit coverage) : (observableFraction coverage).inUnit = true := by
  cases hc : coverage with
  | none => exact PyFloat.one_inUnit
  | some c => exact hcov c hc

theorem ruleState_of_guard (r : Option Bool) : ruleState (conjOf guard) r =
      if guard.any (·.failed) then .notApplicable
      else if guard.any (·.unresolved) then .unknown
      else ruleState (some true) r := by
  unfold conjOf conj
  by_cases hfailed : guard.any (·.failed) = true
  · simp only [any_failed_iff.mp hfailed, hfailed, if_true, ruleState]
  by_cases hopen : guard.any (·.unresolved) = true
  · simp only [mt any_failed_iff.mpr hfailed, any_unresolved_iff.mp hopen, hfailed, hopen,
      if_true, if_false, ruleState, false_eq_true]
  · simp only [mt any_failed_iff.mpr hfailed, mt any_unresolved_iff.mpr hopen, hfailed, hopen,
      if_false, false_eq_true]

theorem ruleState_of_required (required : List ConditionOutcome) :
    ruleState (some true) (conjOf required) = requiredState required := by
  unfold conjOf conj requiredState
  by_cases hfailed : required.any (·.failed) = true
  · simp only [any_failed_iff.mp hfailed, hfailed, if_true, ruleState]
  by_cases hopen : required.any (·.unresolved) = true
  · simp only [mt any_failed_iff.mpr hfailed, any_unresolved_iff.mp hopen, hfailed, hopen,
      if_true, if_false, ruleState, false_eq_true]
  · simp only [mt any_failed_iff.mpr hfailed, mt any_unresolved_iff.mpr hopen, hfailed, hopen,
      if_false, ruleState, false_eq_true]

variable {rule : Rule}

section

variable {os : List ConditionOutcome}

variable {f : Condition → Raises ConditionOutcome} {conditions : List Condition}

theorem outcome_mem_of_condition
    (hos : List.Forall₂ (fun c o => f c = .ok o) conditions os) {c : Condition}
    (hc : c ∈ conditions) : ∃ o ∈ os, f c = .ok o := by
  induction hos with
  | nil => simp at hc
  | @cons c' o _ os ho _ ih =>
    rcases mem_cons.mp hc with rfl | hc
    · exact ⟨o, by simp, ho⟩
    · obtain ⟨o', ho', hf⟩ := ih hc
      exact ⟨o', mem_cons_of_mem _ ho', hf⟩

theorem condition_mem_of_outcome
    (hos : List.Forall₂ (fun c o => f c = .ok o) conditions os)
    (ho : o ∈ os) : ∃ c ∈ conditions, f c = .ok o := by
  induction hos with
  | nil => simp at ho
  | @cons c o' conditions _ hf _ ih =>
    rcases mem_cons.mp ho with rfl | ho
    · exact ⟨c, by simp, hf⟩
    · obtain ⟨c', hc', hf'⟩ := ih ho
      exact ⟨c', mem_cons_of_mem _ hc', hf'⟩

end

/-- What an evaluation that returns makes of its conditions.  The requirements are assessed
    only where every guard holds. -/
structure Judgement (py : Interpreter) (rule : Rule) (s : Situation) (f : Finding)
    (guard : List ConditionOutcome) (r : Option Bool) : Prop where
  guards : List.Forall₂ (fun c o => assessIn py rule.evidence s c = .ok o) rule.when guard
  requirements : conjOf guard = some true → ∃ required, r = conjOf required ∧
    List.Forall₂ (fun c o => assessIn py rule.evidence s c = .ok o) rule.require required
  state : f.state = ruleState (conjOf guard) r

theorem conjOf_eq_some_true : conjOf guard = some true ↔
    guard.any (·.failed) = false ∧ guard.any (·.unresolved) = false := by
  unfold conjOf conj
  rw [← not_eq_true, ← not_eq_true, any_failed_iff, any_unresolved_iff]
  split_ifs with hfailed hopen
  · simp [hfailed]
  · simp [hopen]
  · simp [hfailed, hopen]

variable {conditions : List Condition}

theorem holds_of_conjOf
    (hos : List.Forall₂ (fun c o => assessIn py evidence s c = .ok o) conditions guard) :
    conjOf guard = some true ↔ ∀ c ∈ conditions, Holds py evidence s c := by
  unfold conjOf
  rw [conj_eq_some_true, forall_mem_map]
  induction hos with
  | nil => simp
  | @cons c o conditions guard ho _ ih =>
    rw [forall_mem_cons, forall_mem_cons, ih]
    refine and_congr_left fun _ => ⟨fun h => ⟨o, ho, h⟩, ?_⟩
    rintro ⟨o', ho', h⟩
    obtain rfl := Except.ok.inj (ho.symm.trans ho')
    exact h

/-- Evaluating an answerable situation returns a finding. -/
theorem ComplianceEvaluator.evaluateIn_returns (self : ComplianceEvaluator)
    (s : Situation) (subjectLabel : String) (hread : Answerable py rule s)
    (hcov : CoverageInUnit s.coverage) :
    ∃ f guard r, self.evaluateIn py rule s subjectLabel = .ok f ∧
      Judgement py rule s f guard r := by
  have hassess : ∀ {conditions : List Condition},
      (∀ c ∈ conditions, Readable py rule.evidence s c) → ∃ outcomes,
        conditions.mapM (fun c =>
          assess py c s.view rule.evidence s.now s.capabilityGaps s.coverage) = .ok outcomes ∧
        List.Forall₂ (fun c o => assessIn py rule.evidence s c = .ok o) conditions outcomes := by
    intro conditions hreads
    exact mapM_returns fun c hc =>
      (assessIn_returns (hreads c hc)).imp fun _ ho => ho.returned
  obtain ⟨guard, hguard, hguards⟩ := hassess hread.guard
  have hunit := observableFraction_inUnit hcov
  unfold evaluateIn evaluateRule
  simp only [hguard, Except.bind, Bind.bind]
  by_cases hfailed : guard.any (·.failed) = true
  · rw [if_pos hfailed]
    obtain ⟨f, hf, hstate⟩ := self.finding_returns rule (subjectOf s.view subjectLabel)
      .notApplicable guard s.now hunit (by simp) (by simp)
    refine ⟨f, guard, none, hf, hguards, fun hholds => ?_, ?_⟩
    · rw [(conjOf_eq_some_true.mp hholds).1] at hfailed
      cases hfailed
    · rw [ruleState_of_guard, if_pos hfailed, hstate]
  rw [if_neg hfailed]
  by_cases hopen : guard.any (·.unresolved) = true
  · rw [if_pos hopen]
    obtain ⟨f, hf, hstate⟩ := self.finding_returns rule (subjectOf s.view subjectLabel)
      .unknown guard s.now hunit (by simp) (fun _ => hopen)
    refine ⟨f, guard, none, hf, hguards, fun hholds => ?_, ?_⟩
    · rw [(conjOf_eq_some_true.mp hholds).2] at hopen
      cases hopen
    · rw [ruleState_of_guard, if_neg hfailed, if_pos hopen, hstate]
  rw [if_neg hopen]
  have hholds : conjOf guard = some true := conjOf_eq_some_true.mpr
    ⟨eq_false_of_not_eq_true hfailed, eq_false_of_not_eq_true hopen⟩
  obtain ⟨required, hrequired, hrequirements⟩ :=
    hassess (hread.required ((holds_of_conjOf hguards).mp hholds))
  simp only [hrequired]
  obtain ⟨f, hf, hstate⟩ := self.finding_returns rule (subjectOf s.view subjectLabel)
    (requiredState required) (guard ++ required) s.now hunit
    (fun h => any_of_requiredState_violation h) (fun h => any_of_requiredState_unknown h)
  refine ⟨f, guard, conjOf required, hf, hguards, fun _ => ⟨required, rfl, hrequirements⟩, ?_⟩
  rw [hholds, ruleState_of_required, hstate]

theorem mapM_assess
    (h : conditions.mapM (fun c => assess py c s.view evidence s.now s.capabilityGaps s.coverage) =
      .ok outcomes) : List.Forall₂ (fun c o => assessIn py evidence s c = .ok o) conditions
        outcomes := by
  induction conditions generalizing outcomes with
  | nil =>
    cases h
    exact .nil
  | cons c rest ih =>
    rw [mapM_cons] at h
    obtain ⟨o, ho, h⟩ := bind_eq_ok.mp h
    obtain ⟨os, hos, h⟩ := bind_eq_ok.mp h
    cases h
    exact .cons ho (ih hos)

theorem answerable_of_evaluateIn {self : ComplianceEvaluator} {subjectLabel : String}
    {f : Finding} (h : self.evaluateIn py rule s subjectLabel = .ok f) :
    Answerable py rule s := by
  have hreads : ∀ {conditions : List Condition} {outcomes : List ConditionOutcome},
      List.Forall₂ (fun c o => assessIn py rule.evidence s c = .ok o) conditions outcomes →
      ∀ c ∈ conditions, Readable py rule.evidence s c := by
    intro conditions outcomes hos c hc
    obtain ⟨o, -, ho⟩ := outcome_mem_of_condition hos hc
    exact readable_of_assessIn ho
  unfold ComplianceEvaluator.evaluateIn ComplianceEvaluator.evaluateRule at h
  obtain ⟨guard, hguard, h⟩ := bind_eq_ok.mp h
  have hguards := mapM_assess hguard
  refine ⟨hreads hguards, fun hholds => ?_⟩
  obtain ⟨hfailed, hopen⟩ := conjOf_eq_some_true.mp ((holds_of_conjOf hguards).mpr hholds)
  rw [if_neg (by simp [hfailed]), if_neg (by simp [hopen])] at h
  obtain ⟨required, hrequired, -⟩ := bind_eq_ok.mp h
  exact hreads (mapM_assess hrequired)

variable {os : List ConditionOutcome}

theorem conjOf_fades
    {os' : List ConditionOutcome}
    (hop : ∀ c ∈ conditions, c.operator ≠ .present) (hloses : LosesEvidence s s')
    (hos : List.Forall₂ (fun c o => assessIn py evidence s c = .ok o) conditions os)
    (hos' : List.Forall₂ (fun c o => assessIn py evidence s' c = .ok o) conditions os') :
    Fades (conjOf os) (conjOf os') := by
  refine conj_fades ?_
  induction hos generalizing os' with
  | nil =>
    cases hos'
    exact .nil
  | cons ho _ ih =>
    obtain _ | ⟨ho', hrest'⟩ := hos'
    exact .cons (assessIn_fades (hop _ (by simp)) hloses ho ho')
      (ih (fun c hc => hop c (mem_cons_of_mem _ hc)) hrest')

theorem Holds.of_loses (hop : condition.operator ≠ .present)
    (h : LosesEvidence s s') (hholds : Holds py evidence s' condition) :
    Holds py evidence s condition := by
  obtain ⟨o, ho, hsat⟩ := hholds
  obtain ⟨held, hrel, hcmp⟩ := (assessed_of_assessIn ho).relied hop true hsat
  exact assessIn_of_relied hop (hrel.of_loses h) hcmp

theorem Answerable.of_loses (hop : ∀ c ∈ rule.when ++ rule.require, c.operator ≠ .present)
    (h : LosesEvidence s s') (hread : Answerable py rule s) : Answerable py rule s' where
  guard := fun c hc => (hread.guard c hc).of_loses h
  required := fun hholds c hc => (hread.required (fun c hc =>
    (hholds c hc).of_loses (hop c (mem_append_left _ hc)) h) c hc).of_loses h

theorem compared_of_violation {f : Finding} {r : Option Bool}
    (hop : ∀ c ∈ rule.when ++ rule.require, c.operator ≠ .present)
    (hjudged : Judgement py rule s f guard r) (hstate : f.state = .violation) :
    (∀ c ∈ rule.when, ∃ held, Relied py rule.evidence s c held ∧
      compare py c held.value = .ok (some true)) ∧
    ∃ c ∈ rule.require, ∃ held, Relied py rule.evidence s c held ∧
      compare py c held.value = .ok (some false) := by
  have hviolation := hjudged.state.symm.trans hstate
  have hg : conjOf guard = some true := by
    rcases hc : conjOf guard with _ | _ | _ <;> simp_all [ruleState]
  obtain ⟨required, rfl, hrequired⟩ := hjudged.requirements hg
  have hr : conjOf required = some false := by
    rw [hg] at hviolation
    rcases hc : conjOf required with _ | _ | _ <;> simp_all [ruleState]
  refine ⟨fun c hc => ?_, ?_⟩
  · obtain ⟨o, ho, hassess⟩ := outcome_mem_of_condition hjudged.guards hc
    have hsat := conj_eq_some_true.mp hg o.satisfied (mem_map.mpr ⟨o, ho, rfl⟩)
    exact (assessed_of_assessIn hassess).relied (hop c (mem_append_left _ hc)) true hsat
  · obtain ⟨o, ho, hsat⟩ := mem_map.mp (conj_eq_some_false.mp hr)
    obtain ⟨c, hc, hassess⟩ := condition_mem_of_outcome hrequired ho
    exact ⟨c, hc, (assessed_of_assessIn hassess).relied (hop c (mem_append_right _ hc)) false hsat⟩

theorem Judgement.fades {f f' : Finding} {guard' : List ConditionOutcome} {r r' : Option Bool}
    (hop : ∀ c ∈ rule.when ++ rule.require, c.operator ≠ .present) (hloses : LosesEvidence s s')
    (h : Judgement py rule s f guard r) (h' : Judgement py rule s' f' guard' r') :
    f'.state = f.state ∨ f'.state = .unknown := by
  have hgfades := conjOf_fades (fun c hc => hop c (mem_append_left _ hc)) hloses h.guards h'.guards
  rw [h.state, h'.state]
  by_cases hholds : conjOf guard' = some true
  · have hbefore : conjOf guard = some true := by
      rcases hgfades with heq | hnone
      · exact heq.symm.trans hholds
      · rw [hholds] at hnone
        cases hnone
    obtain ⟨required, rfl, hrequired⟩ := h.requirements hbefore
    obtain ⟨required', rfl, hrequired'⟩ := h'.requirements hholds
    exact ruleState_fades hgfades (conjOf_fades (fun c hc => hop c (mem_append_right _ hc)) hloses
      hrequired hrequired')
  · -- Without its guards the requirements play no part.
    rcases hgfades with heq | hnone
    · rw [heq] at hholds ⊢
      rcases hc : conjOf guard with _ | _ | _
      · exact .inr rfl
      · exact .inl rfl
      · exact absurd hc hholds
    · rw [hnone]
      exact .inr rfl

/-- Absence of evidence never becomes evidence: the evaluation returns; a violation rests on
    guards that were compared and held and on a requirement that was compared and failed; and
    in every situation with less evidence the state is the same or unknown. -/
def ComplianceEvaluator.AbsenceNoEvidence (self : ComplianceEvaluator) (py : Interpreter)
    (rule : Rule) (s : Situation) (subjectLabel : String) : Prop :=
  ∃ f, self.evaluateIn py rule s subjectLabel = .ok f ∧
    (f.state = .violation →
      (∀ c ∈ rule.when, ∃ held, Relied py rule.evidence s c held ∧
        compare py c held.value = .ok (some true)) ∧
      ∃ c ∈ rule.require, ∃ held, Relied py rule.evidence s c held ∧
        compare py c held.value = .ok (some false)) ∧
    ∀ s', LosesEvidence s s' → CoverageInUnit s'.coverage →
      ∃ f', self.evaluateIn py rule s' subjectLabel = .ok f' ∧
        (f'.state = f.state ∨ f'.state = .unknown)

/-- `str` of a plain value plays no part in the sample, and no object is shared. -/
def samplePython : Interpreter where
  str := fun _ => ""
  same := fun _ _ => false
  room := 900

def hairnetRule : Rule where
  ruleId := "headwear"
  version := "1"
  require := [{
    attributeKey := "head_covering"
    operator := .eq
    expected := .str "hairnet"
    unknownValues := ["not_visible"]
    accepted := rfl }]
  evidence := { maxStaleness := some ⟨10⟩ }
  accepted := rfl

def situationHolding (value : PyValue) : Situation where
  view := {
    objectId := "object"
    classId := "person"
    cameraId := "camera"
    attributes := OrderedDict.empty.set "head_covering" {
      key := "head_covering"
      value
      observedAt := ⟨0⟩
      validUntil := none
      evidenceRef := none } }
  now := ⟨5⟩
  coverage := none
  capabilityGaps := []

def bareheadedSituation : Situation := situationHolding (.str "none")

def sampleEvaluator : ComplianceEvaluator where
  rules := { rules := [hairnetRule] }
  idFactory := deterministicId

end VisionOs.Compliance
