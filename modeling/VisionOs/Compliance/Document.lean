/-
  Compliance rules as data, and what an evaluation produces.  Conditions, rules, outcomes and
  findings carry the proof that their constructor accepted them.
-/
import VisionOs.Core.Api

namespace VisionOs.Compliance

open Core Lib

/-- How a held value is compared with an expected one. -/
inductive Operator where
  | eq | ne | isIn | notIn | gt | gte | lt | lte | present
  deriving DecidableEq, Repr

namespace Operator

def value : Operator → String
  | eq => "eq"
  | ne => "ne"
  | isIn => "in"
  | notIn => "not_in"
  | gt => "gt"
  | gte => "gte"
  | lt => "lt"
  | lte => "lte"
  | present => "present"

def needsExpected (o : Operator) : Bool := o ≠ present

end Operator

structure ConditionFields where
  attributeKey : String
  operator : Operator
  expected : PyValue := .none
  message : String := ""
  /-- Values that mean the platform could not tell. -/
  unknownValues : List String := []

def ConditionFields.postInit (c : ConditionFields) : Raises Unit := do
  require (c.attributeKey ≠ "") (.ruleDocumentError "a condition must name an attribute")
  require (¬ (c.operator.needsExpected = true ∧ c.expected.isNone = true))
    (.ruleDocumentError
      s!"condition on '{c.attributeKey}' uses '{c.operator.value}' with no expected value")
  require (¬ ((c.operator = .isIn ∨ c.operator = .notIn) ∧ ¬ c.expected.isSequence = true))
    (.ruleDocumentError
      s!"condition on '{c.attributeKey}' uses '{c.operator.value}' and needs a list of values")

structure Condition extends ConditionFields where
  accepted : toConditionFields.postInit = .ok ()

/-- What the evidence behind a rule must satisfy before it is relied on. -/
structure EvidenceRequirements where
  maxStaleness : Option Duration := none
  requires : List String := []
  requireFullCoverage : Bool := false

structure RuleScope where
  tenantId : TenantId := ""
  siteIds : List SiteId := []
  cameraIds : List CameraId := []

def RuleScope.coversCamera (s : RuleScope) (cameraId : CameraId) : Bool :=
  s.cameraIds.isEmpty || s.cameraIds.contains cameraId

structure RuleFields where
  ruleId : String
  version : String
  require : List Condition
  when : List Condition := []
  subjectClasses : List ClassId := []
  scope : RuleScope := {}
  evidence : EvidenceRequirements := {}
  severity : String := ""
  labels : OrderedDict String String := ∅

def RuleFields.postInit (r : RuleFields) : Raises Unit := do
  Core.require (r.ruleId ≠ "")
    (.ruleDocumentError "a rule must carry a rule_id for traceability")
  Core.require (r.version ≠ "") (.ruleDocumentError
    s!"rule '{r.ruleId}' carries no version; an unversioned rule makes every finding it produced unexplainable, because nobody can tell which wording of it was applied")
  Core.require (r.require ≠ []) (.ruleDocumentError
    s!"rule '{r.ruleId}' requires nothing; a rule that cannot fail would report every subject compliant and inflate a pass rate")

/-- One business requirement, as its constructor accepts it. -/
structure Rule extends RuleFields where
  accepted : toRuleFields.postInit = .ok ()

theorem Rule.ruleId_ne_empty (r : Rule) : r.ruleId ≠ "" := by
  obtain ⟨hid, -⟩ := check_bind_eq_ok.mp r.accepted
  exact require_eq_ok.mp hid

theorem Rule.version_ne_empty (r : Rule) : r.version ≠ "" := by
  obtain ⟨-, hrest⟩ := check_bind_eq_ok.mp r.accepted
  obtain ⟨hversion, -⟩ := check_bind_eq_ok.mp hrest
  exact require_eq_ok.mp hversion

def Rule.coversClass (r : Rule) (classId : ClassId) : Bool :=
  r.subjectClasses.isEmpty || r.subjectClasses.any (fun allowed =>
    classId = allowed || (allowed ++ ".").toList.isPrefixOf classId.toList)

structure RuleSet where
  version : String := "1.0.0"
  rules : List Rule := []

def RuleSet.forClass (s : RuleSet) (classId : ClassId) : List Rule :=
  s.rules.filter (fun rule => rule.coversClass classId)

inductive ComplianceState where
  | compliant | violation | unknown | notApplicable
  deriving DecidableEq, Repr

/-- Why a condition could not be established. -/
inductive UnknownReason where
  | attributeAbsent
  | attributeStale
  | evidenceUnverified
  | notObservable
  | coverageGap
  | capabilityGap
  | subjectNotObserved
  | valueUnparseable
  deriving DecidableEq, Repr

structure SubjectRef where
  objectId : ObjectId
  classId : ClassId
  cameraId : CameraId
  tenantId : TenantId := ""
  siteId : SiteId := ""
  label : String := ""
  deriving DecidableEq, Repr

/-- The fields of one condition's verdict.  `satisfied` is `some true` where the
    condition held, `some false` where it failed and `none` where it could not be
    established. -/
structure OutcomeFields where
  attributeKey : String
  operator : String
  expected : PyValue
  observed : PyValue := .none
  satisfied : Option Bool := none
  unknownReason : Option UnknownReason := none
  observedAt : Option Instant := none
  evidenceRef : Option EvidenceId := none
  message : String := ""

def OutcomeFields.postInit (o : OutcomeFields) : Raises Unit := do
  require (¬ (o.satisfied = none ∧ o.unknownReason = none)) (.valueError
    s!"condition on '{o.attributeKey}' is neither satisfied, failed, nor attributed to a reason; an outcome nobody can explain is one nobody can act on")
  require (¬ (o.satisfied ≠ none ∧ o.unknownReason ≠ none)) (.valueError
    s!"condition on '{o.attributeKey}' reports both a verdict and an unknown reason; exactly one of them is true")

structure ConditionOutcome extends OutcomeFields where
  accepted : toOutcomeFields.postInit = .ok ()

/-- `ConditionOutcome(...)`. -/
def ConditionOutcome.construct : OutcomeFields → Raises ConditionOutcome :=
  constructWith OutcomeFields.postInit ConditionOutcome.mk

theorem ConditionOutcome.construct_eq_ok (o : OutcomeFields)
    (h : o.satisfied = none ↔ o.unknownReason ≠ none) :
    ∃ c : ConditionOutcome, construct o = .ok c ∧ c.toOutcomeFields = o := by
  have hok : o.postInit = .ok () := by
    unfold OutcomeFields.postInit
    rw [check_bind_eq_ok, require_eq_ok, require_eq_ok]
    tauto
  exact ⟨⟨o, hok⟩, constructWith_eq_ok hok, rfl⟩

def ConditionOutcome.failed (o : ConditionOutcome) : Bool := o.satisfied = some false

def ConditionOutcome.unresolved (o : ConditionOutcome) : Bool := o.satisfied = none

def findingSchemaVersion : String := "1.0.0"

structure FindingFields where
  findingId : String
  ruleId : String
  ruleVersion : String
  rulesetVersion : String
  state : ComplianceState
  subject : SubjectRef
  evaluatedAt : Instant
  conditions : List ConditionOutcome := []
  severity : String := ""
  coverageFraction : PyFloat := .finite 1
  schemaVersion : String := findingSchemaVersion
  labels : OrderedDict String String := ∅

def FindingFields.failedConditions (f : FindingFields) : List ConditionOutcome :=
  f.conditions.filter (·.failed)

def FindingFields.unresolvedConditions (f : FindingFields) : List ConditionOutcome :=
  f.conditions.filter (·.unresolved)

def FindingFields.postInit (f : FindingFields) : Raises Unit := do
  require (¬ (f.ruleId = "" ∨ f.ruleVersion = "")) (.valueError
    "a finding must name the rule and version that produced it; a verdict traceable to no rule cannot be reviewed or appealed")
  require (¬ (f.state = .violation ∧ f.failedConditions = [])) (.valueError
    s!"rule '{f.ruleId}' reported a violation with no failed condition; a verdict that cannot name what failed is one nobody can act on")
  require (¬ (f.state = .unknown ∧ f.unresolvedConditions = [])) (.valueError
    s!"rule '{f.ruleId}' reported unknown with no unresolved condition; the reason is what tells an operator whether to fix a camera, a budget, a model or the rule")
  require (f.coverageFraction.inUnit = true)
    (.valueError "coverage_fraction must be in [0,1]")

/-- One rule's verdict, as its constructor accepts it. -/
structure Finding extends FindingFields where
  accepted : toFindingFields.postInit = .ok ()

/-- `Finding(...)`. -/
def Finding.construct : FindingFields → Raises Finding :=
  constructWith FindingFields.postInit Finding.mk

theorem Finding.construct_eq_ok (f : FindingFields) (h : f.postInit = .ok ()) :
    ∃ g : Finding, construct f = .ok g ∧ g.toFindingFields = f :=
  ⟨⟨f, h⟩, constructWith_eq_ok h, rfl⟩

end VisionOs.Compliance
