/-
  Findings against the readings of the state they were judged on.
-/
import VisionOs.App.Judgements
import VisionOs.Compliance.LaterEvidence
import VisionOs.State.Advancing

namespace VisionOs.App

open Core Compliance Exposure State Lib OrderedDict List ComplianceDriver ComplianceEvaluator

theorem get?_viewOf (camera : CameraId) (held : ObjectState) (key : AttributeKey) :
    (viewOf (camera, held)).attributes.get? key =
      (held.attributes.get? key).map (attributeViewOf key) := by
  have hall : (held.attributes.entries.filter fun e =>
      (none : Option (List AttributeKey)).all fun wanted => wanted.contains e.1) =
      held.attributes.entries := filter_eq_self.mpr fun _ _ => rfl
  have hmem : ∀ view, (viewOf (camera, held)).attributes.get? key = some view ↔
      ∃ a, held.attributes.get? key = some a ∧ attributeViewOf key a = view := by
    intro view
    rw [get?_eq_some_iff]
    change (key, view) ∈ (held.attributes.entries.filter fun e =>
      (none : Option (List AttributeKey)).all fun wanted => wanted.contains e.1).map _ ↔ _
    rw [hall, mem_map]
    constructor
    · rintro ⟨e, he, heq⟩
      obtain ⟨rfl, rfl⟩ := Prod.mk.inj heq
      exact ⟨e.2, get?_eq_some_iff.mpr he, rfl⟩
    · rintro ⟨a, ha, rfl⟩
      exact ⟨(key, a), get?_eq_some_iff.mp ha, rfl⟩
  ext view
  rw [hmem, Option.map_eq_some_iff]

variable {camera : CameraId}

theorem viewNoOlder_viewOf {held held' : ObjectState}
    (h : NoOlder held.attributes held'.attributes) :
    ViewNoOlder (viewOf (camera, held)) (viewOf (camera, held')) := by
  intro key view hview
  rw [get?_viewOf, Option.map_eq_some_iff] at hview
  obtain ⟨a, ha, rfl⟩ := hview
  obtain ⟨a', ha', hle⟩ := h key a ha
  refine ⟨attributeViewOf key a', ?_, hle⟩
  rw [get?_viewOf, ha', Option.map_some]

theorem viewObserved_viewOf {values : Values} {held : ObjectState}
    (h : Observed values held.attributes) :
    ViewObserved values (viewOf (camera, held)) := by
  intro key view hview
  rw [get?_viewOf, Option.map_eq_some_iff] at hview
  obtain ⟨a, ha, rfl⟩ := hview
  exact h key a ha

/-! ## What a finding was judged on -/

namespace ComplianceDriver

variable (driver : ComplianceDriver)

def JudgedOn (m : Manager) (f : Finding) : Prop :=
  ∃ held, ∃ rule ∈ driver.rules.rules,
    (m.cells f.subject.cameraId).objects.get? f.subject.objectId = some held ∧
    f.ruleId = rule.ruleId ∧
    (f.state = .violation ∨ f.state = .compliant →
      Verdict driver.py rule (viewOf (f.subject.cameraId, held)) f)

variable {now : Instant} {capabilityGaps : List String} {f : Finding}

variable {driver} {findings : List Finding}

theorem judgedOn_of_evaluate (hinv : ManagerInv driver.state)
    {given : List (CameraId × ObjectState)}
    (hgiven : ∀ e ∈ given, e.2 ∈ driver.admitted e.1)
    {coverage : Option CoverageSummary}
    (h : driver.evaluator.evaluate driver.py (given.map viewOf) now coverage capabilityGaps =
      .ok findings) (hf : f ∈ findings) : driver.JudgedOn driver.state f := by
  obtain ⟨found, hfound, h⟩ := bind_eq_ok.mp h
  cases h
  obtain ⟨part, hpart, hmem⟩ := mem_flatten.mp hf
  obtain ⟨view, hview, hobject⟩ := (mapM_ok hfound).2 part hpart
  obtain ⟨⟨camera, held⟩, he, rfl⟩ := mem_map.mp hview
  obtain ⟨rule, hrule, hone⟩ := (mapM_ok hobject).2 f hmem
  obtain ⟨hruleId, hsubject⟩ := named_of_evaluateRule hone
  obtain ⟨p, hp, hvalues, -⟩ := mem_admitted.mp (hgiven _ he)
  obtain ⟨id, hget⟩ := mem_values.mp hvalues
  have hid : held.objectId = id := ((hinv camera).partition p hp).keyed id held hget
  refine ⟨held, rule, mem_of_mem_filter (mem_of_mem_filter hrule), ?_, hruleId,
    fun hstate => ?_⟩
  · rw [hsubject]
    change (driver.state.cells camera).objects.get? held.objectId = some held
    unfold Cell.objects
    rw [hp, hid]
    exact hget
  · have hverdict := verdict hone hstate
    rw [hsubject]
    exact hverdict

theorem judgedOn_of_judge (hinv : ManagerInv driver.state) {cameras : List CameraId}
    (hdistinct : cameras.Nodup) {now' : Instant}
    (h : driver.judge cameras now now' = .ok findings) (hf : f ∈ findings) :
    driver.JudgedOn driver.state f := by
  by_cases hanswered : driver.Answered now
  · by_cases hcameras : cameras = []
    · -- without cameras there is nothing to read
      subst hcameras
      unfold judge snapshot at h
      rw [if_pos (.inr rfl)] at h
      cases h
      cases hf
    · obtain ⟨snapshot, hsnapshot, hevaluate⟩ := bind_eq_ok.mp h
      unfold ComplianceDriver.snapshot at hsnapshot
      rw [if_neg (by rintro (hhidden | hnone)
                     · rw [hanswered.1] at hhidden
                       cases hhidden
                     · exact hcameras hnone),
        driver.read_of_answered hcameras hanswered] at hsnapshot
      cases hsnapshot
      unfold evaluate at hevaluate
      dsimp only at hevaluate
      rw [driver.collectViews_eq hdistinct] at hevaluate
      split at hevaluate
      · cases hevaluate
        cases hf
      · refine judgedOn_of_evaluate hinv (fun e he => ?_) hevaluate hf
        have hserved := (Paging.given_sublist 0 (cameras.map driver.served)).subset he
        obtain ⟨part, hpart, hmem⟩ := mem_flatten.mp hserved
        obtain ⟨camera, -, rfl⟩ := mem_map.mp hpart
        obtain ⟨rfl, -, hadmitted⟩ := mem_served.mp hmem
        exact hadmitted
  · rw [driver.judge_of_unanswered hanswered now' h] at hf
    cases hf

section TwoReadings

variable {m m' : Manager} {violation closing : Finding}

structure SameMatter (f g : Finding) : Prop where
  cameraId : f.subject.cameraId = g.subject.cameraId
  objectId : f.subject.objectId = g.subject.objectId
  ruleId : f.ruleId = g.ruleId

theorem views_of_judgedOn {f g : Finding} (hf : driver.JudgedOn m f) (hg : driver.JudgedOn m' g)
    (hsame : SameMatter f g) (hadvances : m.Advances m') :
    ∃ held held' : ObjectState, ∃ rule,
      (m.cells f.subject.cameraId).objects.get? f.subject.objectId = some held ∧
      (m'.cells f.subject.cameraId).objects.get? f.subject.objectId = some held' ∧
      NoOlder held.attributes held'.attributes ∧
      (f.state = .violation ∨ f.state = .compliant →
        Verdict driver.py rule (viewOf (f.subject.cameraId, held)) f) ∧
      (g.state = .violation ∨ g.state = .compliant →
        Verdict driver.py rule (viewOf (f.subject.cameraId, held')) g) := by
  obtain ⟨held, rule, hrule, hheld, hruleId, hverdict⟩ := hf
  obtain ⟨held', rule', hrule', hheld', hruleId', hverdict'⟩ := hg
  have hone : rule = rule' := by
    refine inj_on_of_nodup_map driver.rules.distinct hrule hrule' ?_
    rw [← hruleId, ← hruleId', hsame.ruleId]
  subst hone
  rw [← hsame.cameraId] at hheld' hverdict'
  rw [← hsame.objectId] at hheld'
  obtain ⟨held'', hheld'', hle⟩ := hadvances _ _ _ hheld
  rw [hheld'] at hheld''
  cases hheld''
  exact ⟨held, held', rule, hheld, hheld', hle, hverdict, hverdict'⟩

theorem restsOnLater_of_advances {values : CameraValues} (hV : driver.JudgedOn m violation)
    (hF : driver.JudgedOn m' closing) (hsame : SameMatter violation closing)
    (hviolation : violation.state = .violation) (hcompliant : closing.state = .compliant)
    (hadvances : m.Advances m') (hobserved : m.Observed values) (hobserved' : m'.Observed values) :
    RestsOnLater closing violation := by
  obtain ⟨held, held', rule, hheld, hheld', hle, hverdict, hverdict'⟩ :=
    views_of_judgedOn hV hF hsame hadvances
  have hvalues := (hobserved violation.subject.cameraId).objects _ _ hheld
  have hvalues' := (hobserved' violation.subject.cameraId).objects _ _ hheld'
  exact (hverdict (.inl hviolation)).restsOnLater (hverdict' (.inr hcompliant)) hcompliant
    (viewNoOlder_viewOf hle) (viewObserved_viewOf hvalues) (viewObserved_viewOf hvalues')

theorem not_restsOnLater_of_advances (hF : driver.JudgedOn m closing)
    (hV : driver.JudgedOn m' violation) (hsame : SameMatter violation closing)
    (hviolation : violation.state = .violation) (hcompliant : closing.state = .compliant)
    (hadvances : m.Advances m') : ¬ RestsOnLater closing violation := by
  have hsame' : SameMatter closing violation :=
    ⟨hsame.cameraId.symm, hsame.objectId.symm, hsame.ruleId.symm⟩
  obtain ⟨held, held', rule, -, -, hle, hverdict, hverdict'⟩ :=
    views_of_judgedOn hF hV hsame' hadvances
  exact (hverdict (.inr hcompliant)).not_restsOnLater (hverdict' (.inl hviolation)) hcompliant
    hviolation (viewNoOlder_viewOf hle)

end TwoReadings

end ComplianceDriver

end VisionOs.App
