/-
  `ComplianceEvaluator`: one condition against one object (`assess`, eight gates
  tried in a fixed order), one rule against one object (`evaluateRule`), and
  every rule that covers an object.
-/
import VisionOs.Compliance.Document

namespace VisionOs.Compliance

open Core Lib ConditionOutcome

/-- `ComplianceEvaluator`: the rules and the injected id factory. -/
structure ComplianceEvaluator where
  rules : RuleSet
  idFactory : Rule → SubjectRef → Instant → String

def deterministicId (rule : Rule) (subject : SubjectRef) (now : Instant) : String :=
  s!"{rule.ruleId}@{rule.version}:{subject.objectId}:{now.ns}"

def asText (py : Interpreter) : PyValue → Raises String
  | .str s => .ok s
  | value => value.text py

def orderable : PyValue → Option PyFloat
  | .int i => some (.finite i)
  | .float x => some x
  | _ => none

/-- `_compare`: apply one operator; `none` where the comparison is not meaningful. -/
def compare (py : Interpreter) (condition : Condition) (held : PyValue) : Raises (Option Bool) :=
  match condition.operator with
  | .eq => do return some (← PyValue.equal py py.room held condition.expected)
  | .ne => do return some (!(← PyValue.equal py py.room held condition.expected))
  | .isIn => do
    let items ← condition.expected.toTuple
    return some (← PyValue.isIn py held items)
  | .notIn => do
    let items ← condition.expected.toTuple
    return some (!(← PyValue.isIn py held items))
  | .gt => .ok (ordering fun x y => y.lt x)
  | .gte => .ok (ordering fun x y => y.le x)
  | .lt => .ok (ordering PyFloat.lt)
  | .lte => .ok (ordering PyFloat.le)
  | .present => .ok none
where
  ordering (test : PyFloat → PyFloat → Bool) : Option Bool :=
    match orderable held, orderable condition.expected with
    | some x, some y => some (test x y)
    | _, _ => none

def isStale (held : AttributeView) (evidence : EvidenceRequirements) (now : Instant) : Bool :=
  held.isStale now ||
    match evidence.maxStaleness with
    | none => false
    | some maxStaleness => decide (now.ns - held.observedAt.ns > maxStaleness.ns)

def uncorroborated (view : ObjectView) (evidence : EvidenceRequirements) (now : Instant) : Bool :=
  evidence.requires.any fun key =>
    match view.attributes.get? key with
    | none => true
    | some corroboration => corroboration.isStale now

/-- Whether the rule insists on full coverage and the platform does not report it. -/
def coverageBlocked (evidence : EvidenceRequirements) (coverage : Option CoverageSummary) : Bool :=
  evidence.requireFullCoverage &&
    match coverage with
    | none => false
    | some c => !c.fullyObservable

/-- Whether the platform looked and said that it could not tell. -/
def refused (py : Interpreter) (condition : Condition) (held : PyValue) : Raises Bool :=
  if condition.unknownValues.isEmpty then .ok false
  else do return decide ((← asText py held) ∈ condition.unknownValues)

def outcomeOf (condition : Condition) (held : Option AttributeView) : OutcomeFields where
  attributeKey := condition.attributeKey
  operator := condition.operator.value
  expected := condition.expected
  observed := (held.map (·.value)).getD .none
  observedAt := held.map (·.observedAt)
  evidenceRef := held.bind (·.evidenceRef)
  message := condition.message

def unresolvedOutcome (condition : Condition) (held : Option AttributeView)
    (reason : UnknownReason) : Raises ConditionOutcome :=
  construct { outcomeOf condition held with unknownReason := some reason }

def assess (py : Interpreter) (condition : Condition) (view : ObjectView)
    (evidence : EvidenceRequirements) (now : Instant) (capabilityGaps : List String)
    (coverage : Option CoverageSummary) : Raises ConditionOutcome :=
  let held := view.attributes.get? condition.attributeKey
  let unresolved := unresolvedOutcome condition held
  if condition.attributeKey ∈ capabilityGaps then
    unresolved .capabilityGap
  else if coverageBlocked evidence coverage then
    unresolved .coverageGap
  else if condition.operator = .present then
    -- Absence answers this question, so it is the one gate a missing value passes.
    construct { outcomeOf condition held with satisfied := some held.isSome }
  else
    match held with
    | none => unresolved .attributeAbsent
    | some value => do
      if ← refused py condition value.value then
        unresolved .notObservable
      else if isStale value evidence now then
        unresolved .attributeStale
      else if uncorroborated view evidence now then
        unresolved .evidenceUnverified
      else
        match ← compare py condition value.value with
        | none => unresolved .valueUnparseable
        | some verdict =>
          construct { outcomeOf condition held with satisfied := some verdict }

/-- Past the first three gates a value that is held meets the other four, in their order. -/
theorem assess_of_held {py : Interpreter} {condition : Condition} {view : ObjectView}
    {evidence : EvidenceRequirements} {now : Instant} {capabilityGaps : List String}
    {coverage : Option CoverageSummary} {held : AttributeView}
    (hserved : condition.attributeKey ∉ capabilityGaps)
    (hcovered : coverageBlocked evidence coverage = false) (hop : condition.operator ≠ .present)
    (hfound : view.attributes.get? condition.attributeKey = some held) :
    assess py condition view evidence now capabilityGaps coverage = (do
      if ← refused py condition held.value then
        unresolvedOutcome condition (some held) .notObservable
      else if isStale held evidence now then
        unresolvedOutcome condition (some held) .attributeStale
      else if uncorroborated view evidence now then
        unresolvedOutcome condition (some held) .evidenceUnverified
      else
        match ← compare py condition held.value with
        | none => unresolvedOutcome condition (some held) .valueUnparseable
        | some verdict =>
          construct { outcomeOf condition (some held) with satisfied := some verdict }) := by
  unfold assess
  rw [if_neg hserved, if_neg (by rw [hcovered]; exact Bool.false_ne_true), if_neg hop, hfound]

def ComplianceEvaluator.finding (self : ComplianceEvaluator) (rule : Rule)
    (subject : SubjectRef) (state : ComplianceState) (outcomes : List ConditionOutcome)
    (now : Instant) (observable : PyFloat) : Raises Finding :=
  Finding.construct {
    findingId := self.idFactory rule subject now
    ruleId := rule.ruleId
    ruleVersion := rule.version
    rulesetVersion := self.rules.version
    state
    subject
    evaluatedAt := now
    conditions := outcomes
    severity := rule.severity
    coverageFraction := observable
    labels := rule.labels }

def subjectOf (view : ObjectView) (subjectLabel : String) : SubjectRef :=
  { objectId := view.objectId, classId := view.classId, cameraId := view.cameraId,
    label := subjectLabel }

def observableFraction : Option CoverageSummary → PyFloat
  | some c => c.observableFraction
  | none => .finite 1

def requiredState (required : List ConditionOutcome) : ComplianceState :=
  if required.any (·.failed) then .violation
  else if required.any (·.unresolved) then .unknown
  else .compliant

def ComplianceEvaluator.evaluateRule (self : ComplianceEvaluator) (py : Interpreter)
    (rule : Rule) (view : ObjectView) (now : Instant) (coverage : Option CoverageSummary)
    (capabilityGaps : List String) (subjectLabel : String) : Raises Finding := do
  let subject := subjectOf view subjectLabel
  let observable := observableFraction coverage
  let guard ← rule.when.mapM fun c =>
    assess py c view rule.evidence now capabilityGaps coverage
  if guard.any (·.failed) then
    self.finding rule subject .notApplicable guard now observable
  else if guard.any (·.unresolved) then
    self.finding rule subject .unknown guard now observable
  else
    -- No short-circuit: a subject failing three requirements reports three failures.
    let required ← rule.require.mapM fun c =>
      assess py c view rule.evidence now capabilityGaps coverage
    self.finding rule subject (requiredState required) (guard ++ required) now observable

def ComplianceEvaluator.evaluateObject (self : ComplianceEvaluator) (py : Interpreter)
    (view : ObjectView) (now : Instant) (coverage : Option CoverageSummary)
    (capabilityGaps : List String) (subjectLabel : String) : Raises (List Finding) :=
  ((self.rules.forClass view.classId).filter
      (fun rule => rule.scope.coversCamera view.cameraId)).mapM fun rule =>
    self.evaluateRule py rule view now coverage capabilityGaps subjectLabel

end VisionOs.Compliance
