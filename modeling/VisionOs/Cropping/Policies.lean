/-
  Trigger policies: the default one, and the two that wrap another; `VerificationPolicy`
  withdraws, narrows or relabels a decision about attributes that a rule governs.  An empty text
  says that a condition does not hold.
-/
import VisionOs.Cropping.Triggers

namespace VisionOs.Cropping

open Core Lib List List.Sublist

def matchesClass (classId : ClassId) (allowed : List ClassId) : Bool :=
  allowed.any fun candidate =>
    classId = candidate || (candidate ++ ".").toList.isPrefixOf classId.toList

/-! ## Rules -/

/-- The least quality that a corroborating look is worth paying for. -/
structure CropRequirements where
  minScalePixels : Option PyFloat := none
  maxTruncation : Option PyFloat := none
  maxOcclusion : Option PyFloat := none
  deriving DecidableEq, Repr

def unmetBound (bound grade : Option PyFloat) (fails : PyFloat → PyFloat → Bool)
    (say : PyFloat → PyFloat → String) : Option String := do
  let bound ← bound
  let grade ← grade
  if fails bound grade then some (say bound grade) else none

def CropRequirements.unmet (r : CropRequirements) (grades : Grades) : String :=
  ([unmetBound r.minScalePixels grades.scalePixels (fun bound grade => grade.lt bound)
      (fun bound grade => "scale " ++ grade.fixed 0 ++ "px below the " ++ bound.fixed 0 ++
        "px floor for corroboration"),
    unmetBound r.maxTruncation grades.truncation (fun bound grade => bound.lt grade)
      (fun bound grade => "truncation " ++ grade.fixed 2 ++ " above " ++ bound.fixed 2),
    unmetBound r.maxOcclusion grades.occlusion (fun bound grade => bound.lt grade)
      (fun bound grade => "occlusion " ++ grade.fixed 2 ++ " above " ++ bound.fixed 2)].findSome?
    id).getD ""

structure TrustConditions where
  labelSpaces : List String := []
  confidenceBelow : Option PyFloat := none
  outsideVocabulary : Bool := false
  instabilityAbove : Option PyFloat := none
  classes : List ClassId := []
  deriving DecidableEq, Repr

namespace TrustConditions

def otherShare (c : TriggerCandidate) : PyFloat :=
  c.classAlternatives.foldl (fun share alternative => share.add alternative.2) (.finite 0)

def conditions (t : TrustConditions) (c : TriggerCandidate) : List (Option String) :=
  [ if t.classes ≠ [] ∧ matchesClass c.classId t.classes then
      some s!"class '{c.classId}' is declared identity-sensitive"
    else none,
    unmetBound t.confidenceBelow (c.classConfidence.map (·.value))
      (fun bound score => score.lt bound)
      (fun bound score => "class score " ++ score.fixed 3 ++ " is below the " ++ bound.fixed 3 ++
        " floor for a standalone claim"),
    if t.outsideVocabulary ∧ c.classInNativeVocabulary = some false then
      some (s!"class '{c.classId}' is outside the detector's declared vocabulary; a closed-set " ++
        "model returns the nearest word it knows")
    else none,
    unmetBound t.instabilityAbove (some (otherShare c)) (fun bound share => bound.lt share)
      (fun _ share => share.fixed 2 ++ " of retained class evidence names " ++
        s!"{c.classAlternatives.length} other class(es)") ]

def triggered (t : TrustConditions) (c : TriggerCandidate) : String :=
  if t.labelSpaces ≠ [] ∧ c.labelSpaceKind ∉ t.labelSpaces then ""
  else ((t.conditions c).findSome? id).getD ""

def isEmpty (t : TrustConditions) : Bool :=
  t.confidenceBelow.isNone && !t.outsideVocabulary && t.instabilityAbove.isNone &&
    t.classes.isEmpty

end TrustConditions

structure VerificationRuleFields where
  ruleId : String
  attributes : List AttributeKey
  requireWhen : TrustConditions := {}
  cropMust : CropRequirements := {}
  subjectClasses : List ClassId := []
  deriving DecidableEq, Repr

def VerificationRuleFields.postInit (r : VerificationRuleFields) : Raises Unit := do
  require (r.ruleId ≠ "") (.configurationError "a verification rule requires a rule_id")
  require (r.attributes ≠ []) (.configurationError
    (s!"verification rule '{r.ruleId}' governs no attribute; a rule that governs nothing would " ++
      "never be consulted and would sit in the document looking as though it did something"))
  require (r.requireWhen.isEmpty = false) (.configurationError
    (s!"verification rule '{r.ruleId}' declares no condition under which corroboration is " ++
      "required. Such a rule suppresses every call to the attributes it governs, which is " ++
      "almost certainly not what was meant; remove the rule instead"))

structure VerificationRule extends VerificationRuleFields where
  accepted : toVerificationRuleFields.postInit = .ok ()
  deriving DecidableEq

def VerificationRule.covers (r : VerificationRule) (c : TriggerCandidate) : Bool :=
  r.subjectClasses.isEmpty || matchesClass c.classId r.subjectClasses

abbrev VerificationRules := List VerificationRule

def governing (rules : VerificationRules) (c : TriggerCandidate) (key : AttributeKey) :
    Option VerificationRule :=
  rules.find? fun r => r.attributes.contains key && r.covers c

/-! ## The policy -/

def assessOne (rules : VerificationRules) (c : TriggerCandidate)
    (found : List String × List String) (key : AttributeKey) : List String × List String :=
  match governing rules c key with
  | none => found
  | some rule =>
    let why := rule.requireWhen.triggered c
    let blocked := rule.cropMust.unmet c.estimatedQuality
    if why = "" then found
    else if blocked ≠ "" then (found.1, found.2 ++ [blocked])
    else (found.1 ++ [why], found.2)

def joined (texts : List String) : String := String.intercalate "; " (Dedup.fresh id [] texts)

/-- `_assess`: whether corroboration is warranted, why, and what quality bar blocks it. -/
def assess (rules : VerificationRules) (c : TriggerCandidate) (governed : List AttributeKey) :
    Bool × String × String :=
  let (reasons, unmet) := governed.foldl (assessOne rules c) ([], [])
  if reasons ≠ [] then (true, joined reasons, "")
  else if unmet ≠ [] then (false, "", joined unmet)
  else (false, "detector claim is sufficient for the demanded evidence", "")

def lstripSeparator (s : String) : String :=
  String.ofList (s.toList.dropWhile fun ch => ch = ';' || ch = ' ')

def TriggerDecision.relabel (d : TriggerDecision) (detail : String) : TriggerDecision where
  toTriggerDecisionFields :=
    { d.toTriggerDecisionFields with reason := some .identityUnverified, skip := none, detail }
  accepted := rfl

/-- `replace(decision, attributes=remainder, detail=...)`. -/
def TriggerDecision.narrow (d : TriggerDecision) (attributes : List AttributeKey)
    (detail : String) : TriggerDecision where
  toTriggerDecisionFields := { d.toTriggerDecisionFields with attributes, detail }
  accepted := d.accepted

def governedOf (rules : VerificationRules) (c : TriggerCandidate) (d : TriggerDecision) :
    List AttributeKey :=
  d.attributes.filter fun key => (governing rules c key).isSome

def refine (rules : VerificationRules) (c : TriggerCandidate) (d : TriggerDecision) :
    TriggerDecision :=
  let governed := governedOf rules c d
  let (warranted, detail, unmet) := assess rules c governed
  let remainder := d.attributes.filter fun key => key ∉ governed
  if !d.fires then d
  else if governed = [] then d
  else if warranted then d.relabel detail
  else if remainder ≠ [] then
    d.narrow remainder (lstripSeparator (d.detail ++
      s!"; corroboration withdrawn for {governed.length} attribute(s): {detail}"))
  else if unmet ≠ "" then
    .withhold c.objectId .qualityInsufficient governed d.priorityClass d.demandIds unmet
  else .withhold c.objectId .evidenceSufficient governed d.priorityClass d.demandIds detail

theorem refine_cases (rules : VerificationRules) (c : TriggerCandidate) (d : TriggerDecision)
    (hobject : d.objectId = c.objectId) :
    refine rules c d = d ∨
      (d.fires = true ∧ d.attributes ≠ [] ∧ (refine rules c d).objectId = c.objectId ∧
        (refine rules c d).demandIds = d.demandIds ∧ (refine rules c d).attributes ≠ [] ∧
        (refine rules c d).attributes.Sublist d.attributes) := by
  unfold refine
  simp only
  have hsub : (governedOf rules c d).Sublist d.attributes := filter_sublist
  by_cases hfires : d.fires = true
  · rw [if_neg (by simp [hfires])]
    by_cases hgoverned : governedOf rules c d = []
    · rw [if_pos hgoverned]
      exact .inl rfl
    rw [if_neg hgoverned]
    -- A governed attribute is one of those the decision asks for.
    have hasked : d.attributes ≠ [] := by
      rintro hnil
      rw [hnil] at hsub
      exact hgoverned (sublist_nil.mp hsub)
    right
    refine ⟨hfires, hasked, ?_⟩
    split
    · exact ⟨hobject, rfl, hasked, refl _⟩
    split
    · rename_i hremainder
      exact ⟨hobject, rfl, hremainder, filter_sublist⟩
    split
    · exact ⟨rfl, rfl, hgoverned, hsub⟩
    · exact ⟨rfl, rfl, hgoverned, hsub⟩
  · rw [if_pos (by simp [hfires])]
    exact .inl rfl

inductive TriggerPolicy where
  | default (policy : DefaultTriggerPolicy)
  | verification (inner : TriggerPolicy) (rules : VerificationRules)
  | explicitRequest (inner : TriggerPolicy) (requested : List ObjectId)

namespace TriggerPolicy

def policyId : TriggerPolicy → String
  | .default _ => "trigger.default"
  | .verification inner _ => s!"trigger.verification({inner.policyId})"
  | .explicitRequest inner _ => s!"trigger.explicit({inner.policyId})"

def explicitly (c : TriggerCandidate) (d : TriggerDecision) : TriggerDecision :=
  .fire c.objectId .explicitRequest d.attributes d.priorityClass d.demandIds
    "explicit on-demand request"

/-- One candidate's turn in `ExplicitRequestPolicy.evaluate`. -/
def serve (requested : List ObjectId) (c : TriggerCandidate) (d : TriggerDecision) :
    TriggerDecision :=
  if c.objectId ∈ requested then explicitly c d else d

def zipStrict (candidates : List TriggerCandidate) (decisions : List TriggerDecision) :
    Raises (List (TriggerCandidate × TriggerDecision)) :=
  if decisions.length < candidates.length then
    .error (.valueError "zip() argument 2 is shorter than argument 1")
  else if candidates.length < decisions.length then
    .error (.valueError "zip() argument 2 is longer than argument 1")
  else .ok (candidates.zip decisions)

/-- `evaluate`: the decisions, and the policy with the requests it served taken out. -/
def evaluate (now : Instant) (demands : DemandRegistry) (candidates : List TriggerCandidate) :
    TriggerPolicy → Raises (List TriggerDecision × TriggerPolicy)
  | .default policy => .ok (candidates.map (policy.decide now demands), .default policy)
  | .verification inner rules => do
    let (decisions, after) ← inner.evaluate now demands candidates
    require (decisions.length = candidates.length) (.valueError
      (s!"inner policy '{inner.policyId}' returned {decisions.length} decisions for " ++
        s!"{candidates.length} candidates"))
    let pairs ← zipStrict candidates decisions
    .ok (pairs.map fun pair => refine rules pair.1 pair.2, .verification after rules)
  | .explicitRequest inner requested => do
    let (decisions, after) ← inner.evaluate now demands candidates
    let pairs ← zipStrict candidates decisions
    .ok (pairs.map fun pair => serve requested pair.1 pair.2,
      .explicitRequest after
        (requested.filter fun id => id ∉ candidates.map (·.objectId)))

def decision (now : Instant) (demands : DemandRegistry) :
    TriggerPolicy → TriggerCandidate → TriggerDecision
  | .default policy, c => policy.decide now demands c
  | .verification inner rules, c => refine rules c (inner.decision now demands c)
  | .explicitRequest inner requested, c => serve requested c (inner.decision now demands c)

/-- The policy after the candidates were decided about. -/
def after (candidates : List TriggerCandidate) : TriggerPolicy → TriggerPolicy
  | .default policy => .default policy
  | .verification inner rules => .verification (inner.after candidates) rules
  | .explicitRequest inner requested =>
    .explicitRequest (inner.after candidates)
      (requested.filter fun id => id ∉ candidates.map (·.objectId))

/-- Some layer of the policy was asked for the object and has not served it. -/
def requests (objectId : ObjectId) : TriggerPolicy → Bool
  | .default _ => false
  | .verification inner _ => inner.requests objectId
  | .explicitRequest inner requested => requested.contains objectId || inner.requests objectId

variable {now : Instant} {demands : DemandRegistry}

theorem zipStrict_map (candidates : List TriggerCandidate)
    (f : TriggerCandidate → TriggerDecision) :
    zipStrict candidates (candidates.map f) = .ok (candidates.map fun c => (c, f c)) := by
  unfold zipStrict
  rw [length_map, if_neg (lt_irrefl _), if_neg (lt_irrefl _)]
  congr 1
  induction candidates with
  | nil => rfl
  | cons c rest ih =>
    rw [map_cons, map_cons, zip_cons_cons, ih]

theorem evaluate_eq (policy : TriggerPolicy) (now : Instant) (demands : DemandRegistry)
    (candidates : List TriggerCandidate) :
    policy.evaluate now demands candidates =
      .ok (candidates.map (policy.decision now demands), policy.after candidates) := by
  -- by the layers of the policy, from the inside out
  induction policy with
  | default policy => rfl
  | verification inner rules ih =>
    unfold evaluate
    rw [ih, ok_bind]
    show (require ((candidates.map _).length = candidates.length) _ >>= _) = _
    rw [require_eq_ok.mpr (length_map _), ok_bind, zipStrict_map, ok_bind, map_map]
    rfl
  | explicitRequest inner requested ih =>
    unfold evaluate
    rw [ih, ok_bind]
    show (zipStrict candidates (candidates.map _) >>= _) = _
    rw [zipStrict_map, ok_bind, map_map]
    rfl

/-! ## What a decision asks for -/

structure Decided (demands : DemandRegistry) (c : TriggerCandidate) (d : TriggerDecision) :
    Prop where
  objectId : d.objectId = c.objectId
  attributes : d.attributes.Sublist ((c.wants demands).map Prod.fst)
  demandIds : d.demandIds.Nodup

theorem Decided.nodup_attributes {c : TriggerCandidate} {d : TriggerDecision}
    (h : Decided demands c d) : d.attributes.Nodup :=
  h.attributes.nodup (c.nodup_wants demands)

theorem nodup_demandIdsOf (wants : List (AttributeKey × Want)) : (demandIdsOf wants).Nodup := by
  have hnodup : ((demandIdsOf wants).map id).Nodup := Dedup.nodup_map_fresh [] _
  rwa [map_id] at hnodup

theorem decided_default (policy : DefaultTriggerPolicy) (c : TriggerCandidate) :
    Decided demands c (policy.decide now demands c) := by
  by_cases hwants : c.Undemanded demands
  · rw [policy.decide_of_undemanded now hwants]
    exact ⟨rfl, nil_sublist _, nodup_nil⟩
  · rcases policy.decide_of_demanded now hwants with
      ⟨reason, attributes, detail, hdecide, -, hsub⟩ | hdecide
    · rw [hdecide]
      exact ⟨rfl, hsub, nodup_demandIdsOf _⟩
    · rw [hdecide]
      exact ⟨rfl, refl _, nodup_demandIdsOf _⟩

theorem decision_decided (policy : TriggerPolicy) (c : TriggerCandidate) :
    Decided demands c (policy.decision now demands c) := by
  induction policy with
  | default policy => exact decided_default policy c
  | verification inner rules ih =>
    show Decided demands c (refine rules c (inner.decision now demands c))
    rcases refine_cases rules c (inner.decision now demands c) ih.objectId with
      hsame | ⟨-, -, hobject, hdemands, -, hsub⟩
    · rw [hsame]
      exact ih
    · exact ⟨hobject, hsub.trans ih.attributes, hdemands ▸ ih.demandIds⟩
  | explicitRequest inner requested ih =>
    show Decided demands c (serve requested c (inner.decision now demands c))
    unfold serve
    split
    · exact ⟨rfl, ih.attributes, ih.demandIds⟩
    · exact ih

theorem decision_attributes_eq_nil (policy : TriggerPolicy) (c : TriggerCandidate) :
    (policy.decision now demands c).attributes = [] ↔ c.Undemanded demands := by
  constructor
  · -- a policy does not empty a decision that asks for something
    contrapose
    intro hwants
    induction policy with
    | default policy =>
      rcases policy.decide_of_demanded now hwants with
        ⟨reason, attributes, detail, hdecide, hne, -⟩ | hdecide
      · show (policy.decide now demands c).attributes ≠ []
        rw [hdecide]
        exact hne
      · show (policy.decide now demands c).attributes ≠ []
        rw [hdecide]
        exact fun hnil => hwants (map_eq_nil_iff.mp hnil)
    | verification inner rules ih =>
      rcases refine_cases rules c (inner.decision now demands c)
        (decision_decided inner c).objectId with hsame | ⟨-, -, -, -, hne, -⟩
      · show (refine rules c (inner.decision now demands c)).attributes ≠ []
        rw [hsame]
        exact ih
      · exact hne
    | explicitRequest inner requested ih =>
      show (serve requested c (inner.decision now demands c)).attributes ≠ []
      unfold serve
      split
      · exact ih
      · exact ih
  · intro hwants
    have hdecided : Decided demands c (policy.decision now demands c) := decision_decided policy c
    have hsub := hdecided.attributes
    rw [show c.wants demands = [] from hwants] at hsub
    exact sublist_nil.mp hsub

theorem decision_fires_of_undemanded (policy : TriggerPolicy) {c : TriggerCandidate}
    (hwants : c.Undemanded demands) :
    (policy.decision now demands c).fires = policy.requests c.objectId := by
  induction policy with
  | default policy =>
    show (policy.decide now demands c).fires = false
    rw [policy.decide_of_undemanded now hwants]
    rfl
  | verification inner rules ih =>
    show (refine rules c (inner.decision now demands c)).fires = inner.requests c.objectId
    rcases refine_cases rules c (inner.decision now demands c)
      (decision_decided inner c).objectId with hsame | ⟨-, hne, -⟩
    · rw [hsame]
      exact ih
    · exact absurd ((decision_attributes_eq_nil inner c).mpr hwants) hne
  | explicitRequest inner requested ih =>
    show (serve requested c (inner.decision now demands c)).fires =
      (requested.contains c.objectId || inner.requests c.objectId)
    unfold serve
    by_cases hrequested : c.objectId ∈ requested
    · rw [if_pos hrequested, contains_iff_mem.mpr hrequested]
      rfl
    · have hnot : requested.contains c.objectId = false := by
        simpa using hrequested
      rw [if_neg hrequested, hnot, Bool.false_or]
      exact ih

end TriggerPolicy

/-! ## Corroboration -/

/-- `VerificationPolicy.evaluate`, on the decisions of any inner policy. -/
def refineAll (innerId : String) (rules : VerificationRules) (candidates : List TriggerCandidate)
    (decisions : List TriggerDecision) : Raises (List TriggerDecision) := do
  require (decisions.length = candidates.length) (.valueError
    (s!"inner policy '{innerId}' returned {decisions.length} decisions for " ++
      s!"{candidates.length} candidates"))
  let pairs ← TriggerPolicy.zipStrict candidates decisions
  .ok (pairs.map fun pair => refine rules pair.1 pair.2)

/-- The rule that governs the attribute is triggered, and its crop requirements are met. -/
def Warranted (rules : VerificationRules) (c : TriggerCandidate) (key : AttributeKey) : Prop :=
  ∃ rule, governing rules c key = some rule ∧ rule.requireWhen.triggered c ≠ "" ∧
    rule.cropMust.unmet c.estimatedQuality = ""

/-- What may become of a decision: only what a rule governs is withdrawn, and exactly where
    the rule does not ask for it. -/
structure BoughtWhereAsked (rules : VerificationRules) (c : TriggerCandidate)
    (d d' : TriggerDecision) : Prop where
  named : d.objectId = c.objectId → d'.objectId = c.objectId
  untouched : d.fires = false → d' = d
  nothingNew : d'.attributes ⊆ d.attributes
  ungoverned : d.fires = true → ∀ key ∈ d.attributes, governing rules c key = none →
    d'.fires = true ∧ key ∈ d'.attributes
  governed : d.fires = true → ∀ key ∈ d.attributes, governing rules c key ≠ none →
    ((d'.fires = true ∧ key ∈ d'.attributes) ↔ Warranted rules c key)

/-- A decision to look for attributes of which one is warranted, and another is governed and
    is not. -/
def Mixed (rules : VerificationRules) (c : TriggerCandidate) (d : TriggerDecision) : Prop :=
  d.fires = true ∧ (∃ key ∈ d.attributes, Warranted rules c key) ∧
    ∃ key ∈ d.attributes, governing rules c key ≠ none ∧ ¬ Warranted rules c key

variable {rules : VerificationRules} {c : TriggerCandidate} {d : TriggerDecision}
  {key : AttributeKey}

theorem Warranted.governed (h : Warranted rules c key) : governing rules c key ≠ none := by
  obtain ⟨rule, hrule, -⟩ := h
  rw [hrule]
  exact Option.some_ne_none _

theorem assessOne_reasons (found : List String × List String) :
    (assessOne rules c found key).1 ≠ [] ↔ found.1 ≠ [] ∨ Warranted rules c key := by
  unfold assessOne Warranted
  cases governing rules c key with
  | none => simp
  | some rule =>
    by_cases hwhy : rule.requireWhen.triggered c = ""
    · simp [hwhy]
    · by_cases hblocked : rule.cropMust.unmet c.estimatedQuality = "" <;> simp [hwhy, hblocked]

theorem foldl_assessOne (keys : List AttributeKey) (found : List String × List String) :
    (keys.foldl (assessOne rules c) found).1 ≠ [] ↔
      found.1 ≠ [] ∨ ∃ key ∈ keys, Warranted rules c key := by
  induction keys generalizing found with
  | nil => simp
  | cons key rest ih =>
    rw [foldl_cons, ih, assessOne_reasons, exists_mem_cons_iff, or_assoc]

theorem assess_warranted (keys : List AttributeKey) :
    (assess rules c keys).1 = true ↔ ∃ key ∈ keys, Warranted rules c key := by
  have hfold := @foldl_assessOne rules c keys ([], [])
  unfold assess
  simp only [ne_eq, not_true_eq_false, false_or] at hfold
  simp only
  rw [← hfold]
  split
  · rename_i hreasons
    exact ⟨fun _ => hreasons, fun _ => rfl⟩
  · rename_i hreasons
    split <;> exact ⟨fun h => (by cases h), fun h => absurd h hreasons⟩

theorem mem_governedOf :
    key ∈ governedOf rules c d ↔ key ∈ d.attributes ∧ governing rules c key ≠ none := by
  unfold governedOf
  rw [mem_filter, Option.isSome_iff_ne_none]

theorem refine_sublist : (refine rules c d).attributes.Sublist d.attributes := by
  unfold refine
  simp only
  split
  · exact refl _
  split
  · exact refl _
  split
  · exact refl _
  split
  · exact filter_sublist
  · split <;> exact filter_sublist

theorem refine_objectId (hobject : d.objectId = c.objectId) :
    (refine rules c d).objectId = c.objectId := by
  rcases refine_cases rules c d hobject with hsame | hrefined
  · rw [hsame, hobject]
  · exact hrefined.2.2.1

theorem refine_of_warranted (hfires : d.fires = true)
    (h : ∃ key ∈ d.attributes, Warranted rules c key) :
    (refine rules c d).fires = true ∧ (refine rules c d).attributes = d.attributes := by
  obtain ⟨key, hkey, hwarranted⟩ := h
  have hgoverned := mem_governedOf.mpr ⟨hkey, hwarranted.governed⟩
  have hassess := (assess_warranted _).mpr ⟨key, hgoverned, hwarranted⟩
  unfold refine
  simp only
  rw [if_neg (by simp [hfires]), if_neg (ne_nil_of_mem hgoverned), if_pos hassess]
  exact ⟨rfl, rfl⟩

theorem refine_of_unwarranted (hfires : d.fires = true)
    (h : ¬ ∃ key ∈ d.attributes, Warranted rules c key) (hkey : key ∈ d.attributes) :
    ((refine rules c d).fires = true ∧ key ∈ (refine rules c d).attributes) ↔
      governing rules c key = none := by
  have hassess : ¬ (assess rules c (governedOf rules c d)).1 = true := by
    rw [assess_warranted]
    rintro ⟨key', hkey', hwarranted⟩
    exact h ⟨key', (mem_governedOf.mp hkey').1, hwarranted⟩
  have hout : key ∉ governedOf rules c d ↔ governing rules c key = none := by
    rw [mem_governedOf, not_and, not_not, imp_iff_right hkey]
  unfold refine
  simp only
  rw [if_neg (by simp [hfires])]
  split
  · rename_i hnone
    rw [← hout, hnone]
    exact ⟨fun _ => not_mem_nil, fun _ => ⟨hfires, hkey⟩⟩
  split
  · show d.fires = true ∧ key ∈ d.attributes.filter _ ↔ _
    rw [mem_filter, decide_eq_true_eq, hout]
    exact ⟨fun hkept => hkept.2.2, fun hnone => ⟨hfires, hkey, hnone⟩⟩
  · rename_i hremainder
    have hin : key ∈ governedOf rules c d := by
      have hall := filter_eq_nil_iff.mp (not_not.mp hremainder) key hkey
      simpa using hall
    refine ⟨fun hstays => ?_, fun hnone => absurd hnone (mem_governedOf.mp hin).2⟩
    split at hstays <;> cases hstays.1

theorem refine_boughtWhereAsked_iff :
    BoughtWhereAsked rules c d (refine rules c d) ↔ ¬ Mixed rules c d := by
  constructor
  · rintro h ⟨hfires, hsome, key, hkey, hgoverned, hnot⟩
    obtain ⟨hfires', hattributes⟩ := refine_of_warranted hfires hsome
    exact hnot ((h.governed hfires key hkey hgoverned).mp ⟨hfires', hattributes ▸ hkey⟩)
  · intro h
    by_cases hfires : d.fires = true
    · by_cases hsome : ∃ key ∈ d.attributes, Warranted rules c key
      · obtain ⟨hfires', hattributes⟩ := refine_of_warranted hfires hsome
        refine ⟨refine_objectId, fun hnot => absurd (hfires.symm.trans hnot) (by decide),
          refine_sublist.subset, fun _ key hkey _ => ⟨hfires', hattributes ▸ hkey⟩,
          fun _ key hkey hgoverned => ?_⟩
        have hwarranted : Warranted rules c key := by
          by_contra hnot
          exact h ⟨hfires, hsome, key, hkey, hgoverned, hnot⟩
        exact ⟨fun _ => hwarranted, fun _ => ⟨hfires', hattributes ▸ hkey⟩⟩
      · refine ⟨refine_objectId, fun hnot => absurd (hfires.symm.trans hnot) (by decide), ?_,
          fun _ key hkey hnone => (refine_of_unwarranted hfires hsome hkey).mpr hnone,
          fun _ key hkey hgoverned => ?_⟩
        · exact refine_sublist.subset
        · rw [refine_of_unwarranted hfires hsome hkey]
          exact ⟨fun hnone => absurd hnone hgoverned, fun hwarranted => absurd
            ⟨key, hkey, hwarranted⟩ hsome⟩
    · have hsame : refine rules c d = d := by
        exact if_pos (by simpa using hfires)
      rw [hsame]
      exact ⟨id, fun _ => rfl, List.Subset.refl _, fun hyes => absurd hyes hfires,
        fun hyes => absurd hyes hfires⟩

theorem refineAll_pairs (innerId : String) (pairs : List (TriggerCandidate × TriggerDecision)) :
    refineAll innerId rules (pairs.map Prod.fst) (pairs.map Prod.snd) =
      .ok (pairs.map fun pair => refine rules pair.1 pair.2) := by
  have hzip : (pairs.map Prod.fst).zip (pairs.map Prod.snd) = pairs := by
    simpa only [unzip_eq_map] using zip_unzip pairs
  unfold refineAll
  rw [require_eq_ok.mpr (by rw [length_map, length_map]), ok_bind]
  unfold TriggerPolicy.zipStrict
  rw [length_map, length_map, if_neg (lt_irrefl _), if_neg (lt_irrefl _), ok_bind, hzip]

/-- Corroboration is bought exactly where a rule asks for it unless a decision is mixed. -/
theorem corroboration_iff (innerId : String) (rules : VerificationRules)
    (pairs : List (TriggerCandidate × TriggerDecision)) :
    (∃ refined, refineAll innerId rules (pairs.map Prod.fst) (pairs.map Prod.snd) = .ok refined ∧
      List.Forall₂ (fun pair d' => BoughtWhereAsked rules pair.1 pair.2 d') pairs refined) ↔
      ∀ pair ∈ pairs, ¬ Mixed rules pair.1 pair.2 := by
  rw [refineAll_pairs]
  constructor
  · rintro ⟨refined, hsame, h⟩ pair hpair
    rw [← Except.ok.inj hsame, List.forall₂_map_right_iff, List.forall₂_same] at h
    exact refine_boughtWhereAsked_iff.mp (h pair hpair)
  · intro h
    refine ⟨_, rfl, List.forall₂_map_right_iff.mpr (List.forall₂_same.mpr fun pair hpair => ?_)⟩
    exact refine_boughtWhereAsked_iff.mpr (h pair hpair)

def plateRule : VerificationRule where
  ruleId := "plate"
  attributes := ["plate"]
  requireWhen := { classes := ["van"] }
  accepted := by decide +kernel

def makerRule : VerificationRule where
  ruleId := "maker"
  attributes := ["maker"]
  requireWhen := { classes := ["truck"] }
  accepted := by decide +kernel

/-- The maker is bought along with the plate, though nothing asks for it. -/
theorem buys_the_maker : ¬ ∀ rules pairs,
    ∃ refined, refineAll "trigger.default" rules (pairs.map Prod.fst) (pairs.map Prod.snd) =
        .ok refined ∧
      List.Forall₂ (fun pair d' => BoughtWhereAsked rules pair.1 pair.2 d') pairs refined := by
  intro h
  let van : TriggerCandidate := { objectId := "A", cameraId := "north", classId := "van" }
  obtain ⟨refined, hsame, hall⟩ := h [plateRule, makerRule]
    [(van, .fire "A" .attributeMissing ["plate", "maker"] "" [] "")]
  rw [refineAll_pairs] at hsame
  cases hsame
  refine refine_boughtWhereAsked_iff.mp (List.forall₂_cons.mp hall).1
    ⟨rfl, ⟨"plate", by decide, ?_⟩, "maker", by decide, by decide +kernel, ?_⟩
  · exact ⟨plateRule, by decide +kernel, by decide +kernel, by decide +kernel⟩
  · rintro ⟨rule, hrule, hwhy, -⟩
    have hmaker : governing [plateRule, makerRule] van "maker" = some makerRule := by
      decide +kernel
    rw [Option.some.inj (hrule.symm.trans hmaker)] at hwhy
    exact hwhy (by decide +kernel)

end VisionOs.Cropping
