/-
  A violation and a compliant finding of one rule about one subject: which of them rests on values
  observed later.
-/
import VisionOs.Compliance.Judging

namespace VisionOs.Compliance

open Core Lib List Option ConditionOutcome

/-- The closing finding satisfies all that failed by values observed strictly later, and rests on
    nothing older. -/
structure RestsOnLater (closing violation : Finding) : Prop where
  satisfied : ∀ c ∈ violation.conditions, c.failed = true → ∀ t, c.observedAt = some t →
    ∃ c' ∈ closing.conditions, c'.attributeKey = c.attributeKey ∧ c'.satisfied = some true
  later : ∀ c ∈ violation.conditions, c.failed = true → ∀ t, c.observedAt = some t →
    ∀ c' ∈ closing.conditions, c'.attributeKey = c.attributeKey →
      ∃ t', c'.observedAt = some t' ∧ t.ns < t'.ns
  noEarlier : ∀ c ∈ violation.conditions, ∀ t, c.observedAt = some t →
    ∀ c' ∈ closing.conditions, c'.attributeKey = c.attributeKey →
      ∃ t', c'.observedAt = some t' ∧ t.ns ≤ t'.ns

theorem ConditionOutcome.fields_of_construct {fields : OutcomeFields} {o : ConditionOutcome}
    (h : construct fields = .ok o) : o.toOutcomeFields = fields := by
  obtain ⟨_, rfl⟩ := constructWith_eq_ok_iff.mp h
  rfl

structure OutcomeOf (py : Interpreter) (view : ObjectView) (condition : Condition)
    (o : ConditionOutcome) : Prop where
  attributeKey : o.attributeKey = condition.attributeKey
  observedAt : o.observedAt = (view.attributes.get? condition.attributeKey).map (·.observedAt)
  present : ∀ verdict, o.satisfied = some verdict → condition.operator = .present →
    verdict = (view.attributes.get? condition.attributeKey).isSome
  compared : ∀ verdict, o.satisfied = some verdict → condition.operator ≠ .present →
    ∃ held, view.attributes.get? condition.attributeKey = some held ∧
      compare py condition held.value = .ok (some verdict)

variable {py : Interpreter} {view : ObjectView} {condition : Condition} {o : ConditionOutcome}

theorem outcomeOf_unresolved {reason : UnknownReason}
    (h : unresolvedOutcome condition (view.attributes.get? condition.attributeKey) reason = .ok o) :
    OutcomeOf py view condition o := by
  have hfields := fields_of_construct h
  have hnone : o.satisfied = none := by rw [hfields]; rfl
  refine ⟨by rw [hfields]; rfl, by rw [hfields]; rfl, fun verdict hv => ?_, fun verdict hv => ?_⟩
  · rw [hnone] at hv
    cases hv
  · rw [hnone] at hv
    cases hv

variable {now : Instant} {capabilityGaps : List String} {coverage : Option CoverageSummary}

theorem outcomeOf_assess {evidence : EvidenceRequirements}
    (h : assess py condition view evidence now capabilityGaps coverage = .ok o) :
    OutcomeOf py view condition o := by
  unfold assess at h
  dsimp only at h
  split at h
  · exact outcomeOf_unresolved h
  split at h
  · exact outcomeOf_unresolved h
  split at h
  · rename_i hpresent
    have hfields := fields_of_construct h
    refine ⟨by rw [hfields]; rfl, by rw [hfields]; rfl, fun verdict hv _ => ?_,
      fun _ _ hnot => absurd hpresent hnot⟩
    rw [hfields] at hv
    exact (some.inj hv).symm
  · rename_i hnot
    split at h
    · exact outcomeOf_unresolved h
    rename_i held hheld
    obtain ⟨answer, -, h⟩ := bind_eq_ok.mp h
    split at h
    · exact outcomeOf_unresolved h
    split at h
    · exact outcomeOf_unresolved h
    split at h
    · exact outcomeOf_unresolved h
    obtain ⟨verdict, hcompare, hrest⟩ := bind_eq_ok.mp h
    cases verdict with
    | none => exact outcomeOf_unresolved hrest
    | some verdict =>
      have hfields := fields_of_construct hrest
      refine ⟨by rw [hfields]; rfl, by rw [hfields]; rfl,
        fun _ _ hpresent => absurd hpresent hnot, fun verdict' hv _ => ?_⟩
      rw [hfields] at hv
      cases hv
      exact ⟨held, hheld, hcompare⟩

/-! ## What a verdict rests on -/

structure Verdict (py : Interpreter) (rule : Rule) (view : ObjectView) (f : Finding) : Prop where
  outcome : ∀ o ∈ f.conditions, ∃ c ∈ rule.when ++ rule.require, OutcomeOf py view c o
  violated : f.state = .violation → ∃ c ∈ rule.require, ∃ o ∈ f.conditions,
    OutcomeOf py view c o ∧ o.satisfied = some false
  failed : ∀ o ∈ f.conditions, o.satisfied = some false →
    ∃ c ∈ rule.require, OutcomeOf py view c o
  compliant : f.state = .compliant → ∀ c ∈ rule.require, ∃ o ∈ f.conditions,
    OutcomeOf py view c o ∧ o.satisfied = some true

variable {required : List ConditionOutcome}

theorem requiredState_eq_compliant (h : requiredState required = .compliant) :
    required.any (·.failed) = false ∧ required.any (·.unresolved) = false := by
  unfold requiredState at h
  split at h
  · cases h
  · rename_i hfailed
    split at h
    · cases h
    · rename_i hopen
      exact ⟨Bool.eq_false_of_not_eq_true hfailed, Bool.eq_false_of_not_eq_true hopen⟩

theorem requiredState_eq_violation
    (h : requiredState required = .violation) : required.any (·.failed) = true := by
  unfold requiredState at h
  split at h
  · rename_i hfailed
    exact hfailed
  · split at h <;> cases h

theorem satisfied_of_neither {outcomes : List ConditionOutcome}
    (hfailed : outcomes.any (·.failed) = false)
    (hopen : outcomes.any (·.unresolved) = false) (ho : o ∈ outcomes) :
    o.satisfied = some true := by
  have hnot := any_eq_false.mp hfailed o ho
  have hnone := any_eq_false.mp hopen o ho
  unfold failed at hnot
  unfold unresolved at hnone
  rw [decide_eq_true_eq] at hnot hnone
  cases hs : o.satisfied with
  | none => exact absurd hs hnone
  | some verdict =>
    cases verdict with
    | true => rfl
    | false => exact absurd hs hnot

theorem ComplianceEvaluator.verdict {self : ComplianceEvaluator} {rule : Rule}
    {label : String}
    {f : Finding} (h : self.evaluateRule py rule view now coverage capabilityGaps label = .ok f)
    (hstate : f.state = .violation ∨ f.state = .compliant) : Verdict py rule view f := by
  unfold evaluateRule at h
  obtain ⟨guard, hguard, h⟩ := bind_eq_ok.mp h
  have hguardOf : ∀ o ∈ guard, ∃ c ∈ rule.when, OutcomeOf py view c o := by
    intro o ho
    obtain ⟨c, hc, hassess⟩ := (mapM_ok hguard).2 o ho
    exact ⟨c, hc, outcomeOf_assess hassess⟩
  split at h
  · -- the guard decides that the rule does not apply
    have hf := (finding_eq_ok h).2.2.1
    rcases hstate with hs | hs <;> (rw [hs] at hf; cases hf)
  rename_i hnotFailed
  split at h
  · have hf := (finding_eq_ok h).2.2.1
    rcases hstate with hs | hs <;> (rw [hs] at hf; cases hf)
  rename_i hnotOpen
  obtain ⟨required, hrequired, h⟩ := bind_eq_ok.mp h
  obtain ⟨-, -, hf, hconditions, -⟩ := finding_eq_ok h
  have hholds : ∀ o ∈ guard, o.satisfied = some true := fun o ho =>
    satisfied_of_neither (Bool.eq_false_of_not_eq_true hnotFailed)
      (Bool.eq_false_of_not_eq_true hnotOpen) ho
  have hrequiredOf : ∀ o ∈ required, ∃ c ∈ rule.require, OutcomeOf py view c o := by
    intro o ho
    obtain ⟨c, hc, hassess⟩ := (mapM_ok hrequired).2 o ho
    exact ⟨c, hc, outcomeOf_assess hassess⟩
  refine ⟨fun o ho => ?_, fun hviolation => ?_, fun o ho hfailed => ?_,
    fun hcompliant c hc => ?_⟩
  · rw [hconditions, mem_append] at ho
    rcases ho with ho | ho
    · obtain ⟨c, hc, hof⟩ := hguardOf o ho
      exact ⟨c, mem_append_left _ hc, hof⟩
    · obtain ⟨c, hc, hof⟩ := hrequiredOf o ho
      exact ⟨c, mem_append_right _ hc, hof⟩
  · rw [hviolation] at hf
    obtain ⟨o, ho, hfailed⟩ := any_eq_true.mp (requiredState_eq_violation hf.symm)
    obtain ⟨c, hc, hof⟩ := hrequiredOf o ho
    refine ⟨c, hc, o, ?_, hof, of_decide_eq_true hfailed⟩
    rw [hconditions]
    exact mem_append_right _ ho
  · rw [hconditions, mem_append] at ho
    rcases ho with ho | ho
    · rw [hholds o ho] at hfailed
      cases hfailed
    · exact hrequiredOf o ho
  · rw [hcompliant] at hf
    obtain ⟨hno, hopen⟩ := requiredState_eq_compliant hf.symm
    obtain ⟨o, ho, hassess⟩ := (mapM_ok hrequired).1 c hc
    refine ⟨o, ?_, outcomeOf_assess hassess, satisfied_of_neither hno hopen ho⟩
    rw [hconditions]
    exact mem_append_right _ ho

/-! ## Two views of one subject -/

def ViewNoOlder (view view' : ObjectView) : Prop :=
  ∀ key a, view.attributes.get? key = some a → ∃ a', view'.attributes.get? key = some a' ∧
    a.observedAt.ns ≤ a'.observedAt.ns

def ViewObserved (values : AttributeKey → Instant → PyValue) (view : ObjectView) : Prop :=
  ∀ key a, view.attributes.get? key = some a → a.value = values key a.observedAt

section TwoViews

variable {rule : Rule} {earlier later : ObjectView} {violation closing : Finding}

theorem OutcomeOf.noEarlier (hviews : ViewNoOlder earlier later) {c c' : Condition}
    {o o' : ConditionOutcome} (ho : OutcomeOf py earlier c o) (ho' : OutcomeOf py later c' o')
    (hkey : o'.attributeKey = o.attributeKey) {t : Instant} (ht : o.observedAt = some t) :
    ∃ held held', earlier.attributes.get? c.attributeKey = some held ∧
      later.attributes.get? c.attributeKey = some held' ∧ held.observedAt = t ∧
      o'.observedAt = some held'.observedAt ∧ t.ns ≤ held'.observedAt.ns := by
  rw [ho.observedAt] at ht
  obtain ⟨held, hheld, rfl⟩ := map_eq_some_iff.mp ht
  obtain ⟨held', hheld', hle⟩ := hviews _ held hheld
  refine ⟨held, held', hheld, hheld', rfl, ?_, hle⟩
  rw [ho.attributeKey, ho'.attributeKey] at hkey
  rw [ho'.observedAt, hkey, hheld', map_some]

theorem Verdict.restsOnLater {values : AttributeKey → Instant → PyValue}
    (hV : Verdict py rule earlier violation) (hF : Verdict py rule later closing)
    (hcompliant : closing.state = .compliant) (hviews : ViewNoOlder earlier later)
    (hobserved : ViewObserved values earlier) (hobserved' : ViewObserved values later) :
    RestsOnLater closing violation where
  satisfied := by
    intro o ho hfailed t _
    obtain ⟨c, hc, hof⟩ := hV.failed o ho (of_decide_eq_true hfailed)
    obtain ⟨o', ho', hof', hholds⟩ := hF.compliant hcompliant c hc
    exact ⟨o', ho', hof'.attributeKey.trans hof.attributeKey.symm, hholds⟩
  later := by
    intro o ho hfailed t ht o'' ho'' hkey
    obtain ⟨c, hc, hof⟩ := hV.failed o ho (of_decide_eq_true hfailed)
    obtain ⟨c'', -, hof''⟩ := hF.outcome o'' ho''
    obtain ⟨held, held', hheld, hheld', rfl, hat, hle⟩ := hof.noEarlier hviews hof'' hkey ht
    refine ⟨held'.observedAt, hat, lt_of_le_of_ne hle fun hsame => ?_⟩
    -- observed at one instant, the two values are the same
    have hinstant : held.observedAt = held'.observedAt := Instant.ext hsame
    have hvalue : held.value = held'.value := by
      rw [hobserved _ held hheld, hobserved' _ held' hheld', hinstant]
    obtain ⟨o', ho', hof', hholds⟩ := hF.compliant hcompliant c hc
    by_cases hpresent : c.operator = .present
    · have hverdict := hof.present false (of_decide_eq_true hfailed) hpresent
      rw [hheld] at hverdict
      cases hverdict
    obtain ⟨_, hget, hfail⟩ := hof.compared false (of_decide_eq_true hfailed) hpresent
    obtain ⟨_, hget', hok⟩ := hof'.compared true hholds hpresent
    rw [hheld] at hget
    rw [hheld'] at hget'
    cases hget
    cases hget'
    rw [hvalue, hok] at hfail
    cases hfail
  noEarlier := by
    intro o ho t ht o'' ho'' hkey
    obtain ⟨c, -, hof⟩ := hV.outcome o ho
    obtain ⟨c'', -, hof''⟩ := hF.outcome o'' ho''
    obtain ⟨-, held', -, -, -, hat, hle⟩ := hof.noEarlier hviews hof'' hkey ht
    exact ⟨held'.observedAt, hat, hle⟩

theorem Verdict.not_restsOnLater (hF : Verdict py rule earlier closing)
    (hV : Verdict py rule later violation) (hcompliant : closing.state = .compliant)
    (hviolation : violation.state = .violation) (hviews : ViewNoOlder earlier later) :
    ¬ RestsOnLater closing violation := by
  intro hrests
  obtain ⟨c, hc, o, ho, hof, hfalse⟩ := hV.violated hviolation
  obtain ⟨o', ho', hof', htrue⟩ := hF.compliant hcompliant c hc
  -- what the satisfied condition rests on is held, and is held later too
  have hheld : ∃ held, earlier.attributes.get? c.attributeKey = some held := by
    by_cases hpresent : c.operator = .present
    · exact isSome_iff_exists.mp (hof'.present true htrue hpresent).symm
    · obtain ⟨held, hheld, -⟩ := hof'.compared true htrue hpresent
      exact ⟨held, hheld⟩
  obtain ⟨held, hheld⟩ := hheld
  obtain ⟨held', hheld', hle⟩ := hviews _ held hheld
  have hat : o.observedAt = some held'.observedAt := by rw [hof.observedAt, hheld', map_some]
  have hat' : o'.observedAt = some held.observedAt := by rw [hof'.observedAt, hheld, map_some]
  obtain ⟨t', ht', hlt⟩ := hrests.later o ho (decide_eq_true hfalse) _ hat o' ho'
    (hof'.attributeKey.trans hof.attributeKey.symm)
  rw [hat'] at ht'
  cases ht'
  omega

end TwoViews

end VisionOs.Compliance
