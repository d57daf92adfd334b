/-
  `evaluate`: every rule against every subject.  Where it returns, there is one finding for each
  subject and each rule that covers it.
-/
import VisionOs.Compliance.Absence

namespace VisionOs.Compliance

open Core Lib List ComplianceEvaluator RuleSet

structure LoadedRules extends RuleSet where
  distinct : (rules.map (·.ruleId)).Nodup

/-- `evaluate`, without labels. -/
def ComplianceEvaluator.evaluate (self : ComplianceEvaluator) (py : Interpreter)
    (views : List ObjectView) (now : Instant) (coverage : Option CoverageSummary)
    (capabilityGaps : List String) : Raises (List Finding) := do
  let found ← views.mapM fun view => self.evaluateObject py view now coverage capabilityGaps ""
  return found.flatten

variable {self : ComplianceEvaluator} {rule : Rule}

theorem ComplianceEvaluator.finding_eq_ok
    {subject : SubjectRef} {state : ComplianceState} {outcomes : List ConditionOutcome}
    {now : Instant} {observable : PyFloat} {f : Finding}
    (h : self.finding rule subject state outcomes now observable = .ok f) :
    f.ruleId = rule.ruleId ∧ f.subject = subject ∧ f.state = state ∧ f.conditions = outcomes ∧
      f.severity = rule.severity := by
  unfold finding Finding.construct constructWith at h
  split at h
  · cases h
    exact ⟨rfl, rfl, rfl, rfl, rfl⟩
  · cases h

theorem ComplianceEvaluator.named_of_evaluateRule
    {py : Interpreter} {view : ObjectView} {now : Instant}
    {coverage : Option CoverageSummary} {capabilityGaps : List String} {label : String}
    {f : Finding} (h : self.evaluateRule py rule view now coverage capabilityGaps label = .ok f) :
    f.ruleId = rule.ruleId ∧ f.subject = subjectOf view label := by
  unfold evaluateRule at h
  obtain ⟨guard, -, h⟩ := bind_eq_ok.mp h
  split at h
  · obtain ⟨hrule, hsubject, -⟩ := finding_eq_ok h
    exact ⟨hrule, hsubject⟩
  · split at h
    · obtain ⟨hrule, hsubject, -⟩ := finding_eq_ok h
      exact ⟨hrule, hsubject⟩
    · obtain ⟨required, -, h⟩ := bind_eq_ok.mp h
      obtain ⟨hrule, hsubject, -⟩ := finding_eq_ok h
      exact ⟨hrule, hsubject⟩

def Finding.name (f : Finding) : CameraId × ObjectId × String :=
  (f.subject.cameraId, f.subject.objectId, f.ruleId)

def RuleSet.judging (rules : RuleSet) (classId : ClassId) (camera : CameraId) : List Rule :=
  (rules.forClass classId).filter (·.scope.coversCamera camera)

theorem RuleSet.mem_judging {rules : RuleSet} {classId : ClassId} {camera : CameraId}
    : rule ∈ rules.judging classId camera ↔
      rule ∈ rules.rules ∧ rule.coversClass classId = true ∧
        rule.scope.coversCamera camera = true := by
  unfold judging forClass
  rw [mem_filter, mem_filter, and_assoc]

def RuleSet.namesOf (rules : RuleSet) (view : ObjectView) : List (CameraId × ObjectId × String) :=
  (rules.judging view.classId view.cameraId).map fun rule =>
    (view.cameraId, view.objectId, rule.ruleId)

/-- Every rule that covers a subject can be answered for it. -/
def ComplianceEvaluator.AnswerableFor (self : ComplianceEvaluator) (py : Interpreter)
    (view : ObjectView) (now : Instant) (coverage : Option CoverageSummary)
    (capabilityGaps : List String) : Prop :=
  ∀ rule ∈ self.rules.judging view.classId view.cameraId,
    Answerable py rule ⟨view, now, coverage, capabilityGaps⟩

section

variable {self : ComplianceEvaluator} {py : Interpreter} {view : ObjectView} {now : Instant}
  {coverage : Option CoverageSummary} {capabilityGaps : List String}

theorem ComplianceEvaluator.evaluateObject_returns (hcov : CoverageInUnit coverage) :
    (∃ found, self.evaluateObject py view now coverage capabilityGaps "" = .ok found) ↔
      self.AnswerableFor py view now coverage capabilityGaps := by
  constructor
  · rintro ⟨found, hfound⟩ rule hrule
    obtain ⟨f, -, hf⟩ := (mapM_ok hfound).1 rule hrule
    exact answerable_of_evaluateIn hf
  · intro hread
    refine (mapM_returns fun rule hrule => ?_).imp fun _ h => h.1
    obtain ⟨f, -, -, hf, -⟩ := self.evaluateIn_returns _ "" (hread rule hrule) hcov
    exact ⟨f, hf⟩

variable {found : List Finding}

theorem ComplianceEvaluator.names_of_evaluateObject
    (h : self.evaluateObject py view now coverage capabilityGaps "" = .ok found) :
    found.map (·.name) = self.rules.namesOf view := by
  refine mapM_map_eq (fun rule f hf => ?_) h
  obtain ⟨hrule, hsubject⟩ := named_of_evaluateRule hf
  unfold Finding.name
  rw [hrule, hsubject]
  rfl

variable {views : List ObjectView}

theorem ComplianceEvaluator.evaluate_returns (hcov : CoverageInUnit coverage) :
    (∃ found, self.evaluate py views now coverage capabilityGaps = .ok found) ↔
      ∀ view ∈ views, self.AnswerableFor py view now coverage capabilityGaps := by
  unfold evaluate
  constructor
  · rintro ⟨found, hfound⟩ view hview
    obtain ⟨parts, hparts, -⟩ := bind_eq_ok.mp hfound
    obtain ⟨part, -, hpart⟩ := (mapM_ok hparts).1 view hview
    exact (evaluateObject_returns hcov).mp ⟨part, hpart⟩
  · intro hread
    obtain ⟨parts, hparts, -⟩ := mapM_returns fun view hview =>
      (evaluateObject_returns hcov).mpr (hread view hview)
    exact ⟨parts.flatten, by rw [hparts]; rfl⟩

theorem ComplianceEvaluator.names_of_evaluate
    (h : self.evaluate py views now coverage capabilityGaps = .ok found) :
    found.map (·.name) = views.flatMap self.rules.namesOf := by
  obtain ⟨parts, hparts, h⟩ := bind_eq_ok.mp h
  cases h
  rw [map_flatten, flatMap_def]
  exact congrArg flatten (mapM_map_eq (fun _ _ h => names_of_evaluateObject h) hparts)

end

theorem nodup_names {rules : LoadedRules} {views : List ObjectView}
    (h : (views.map fun view => (view.cameraId, view.objectId)).Nodup) :
    (views.flatMap rules.toRuleSet.namesOf).Nodup := by
  have hmem : ∀ {view : ObjectView} {name : CameraId × ObjectId × String},
      name ∈ rules.toRuleSet.namesOf view → name.1 = view.cameraId ∧ name.2.1 = view.objectId := by
    intro view name hname
    obtain ⟨rule, -, rfl⟩ := mem_map.mp hname
    exact ⟨rfl, rfl⟩
  induction views with
  | nil => exact nodup_nil
  | cons view rest ih =>
    rw [map_cons, nodup_cons] at h
    rw [flatMap_cons, nodup_append']
    refine ⟨?_, ih h.2, fun name hfirst hlater => ?_⟩
    · have hrules : ((rules.toRuleSet.judging view.classId view.cameraId).map (·.ruleId)).Nodup := by
        refine List.Nodup.sublist ?_ rules.distinct
        exact (filter_sublist.trans filter_sublist).map _
      unfold namesOf
      apply List.Nodup.of_map (fun name : CameraId × ObjectId × String => name.2.2)
      rw [map_map]
      exact hrules
    · obtain ⟨view', hview', hname'⟩ := mem_flatMap.mp hlater
      refine h.1 (mem_map.mpr ⟨view', hview', ?_⟩)
      rw [← (hmem hname').1, ← (hmem hname').2, (hmem hfirst).1, (hmem hfirst).2]

end VisionOs.Compliance
