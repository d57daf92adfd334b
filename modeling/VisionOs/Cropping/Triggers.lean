/-
  What is wanted of an object, and the default trigger policy's decision about it.  What no policy
  reads of a candidate is left out.
-/
import VisionOs.Cropping.Demands
import VisionOs.Cropping.Gate
import VisionOs.Cropping.Request
import VisionOs.Lib.Ledger

namespace VisionOs.Cropping

open Core Lib List Prod List.Sublist OrderedDict

structure Want where
  freshness : Duration
  priorityClass : String
  demandIds : List DemandId
  deriving DecidableEq, Repr

namespace DemandRegistry

def active (r : DemandRegistry) : List DemandState := r.all.filter (·.status.isServing)

def matching (r : DemandRegistry) (cameraId : CameraId) (classId : ClassId)
    (regionIds : List RegionId) : List DemandState :=
  r.active.filter fun state =>
    state.demand.scope.coversCamera cameraId && state.demand.scope.coversRegion regionIds &&
      state.demand.subjectFilter.matchesClass classId

/-- One demand's want of one attribute: the strictest freshness stands, and the first
    priority that is named.  A `Duration` is never false, so the demand's own freshness is
    not fallen back on. -/
def addWant (state : DemandState) (wanted : OrderedDict AttributeKey Want)
    (key : AttributeKey) : OrderedDict AttributeKey Want :=
  match wanted.get? key with
  | none =>
    wanted.set key {
      freshness := state.effectiveFreshness
      priorityClass := state.demand.priorityClass
      demandIds := [state.demand.demandId] }
  | some want =>
    wanted.set key {
      freshness := ⟨min want.freshness.ns state.effectiveFreshness.ns⟩
      priorityClass :=
        if want.priorityClass = "" then state.demand.priorityClass else want.priorityClass
      demandIds := want.demandIds ++ [state.demand.demandId] }

def requiredAttributes (r : DemandRegistry) (cameraId : CameraId) (classId : ClassId)
    (regionIds : List RegionId) : OrderedDict AttributeKey Want :=
  (r.matching cameraId classId regionIds).foldl
    (fun wanted state => state.acknowledgement.satisfiable.foldl (addWant state) wanted) ∅

end DemandRegistry

structure AttributeStatus where
  observedAt : Option Instant := none
  confidence : Option PyFloat := none
  deriving DecidableEq, Repr

def AttributeStatus.isStale (s : AttributeStatus) (now : Instant) (freshness : Duration) : Bool :=
  match s.observedAt with
  | none => true
  | some observedAt => freshness.ns < max 0 (now.ns - observedAt.ns)

/-- One object considered for analysis on one frame. -/
structure TriggerCandidate where
  objectId : ObjectId
  cameraId : CameraId
  classId : ClassId
  regionIds : List RegionId := []
  attributes : OrderedDict AttributeKey AttributeStatus := ∅
  appearanceDelta : Option PyFloat := none
  lastAnalysed : Option Instant := none
  lastGateRejection : Bool := false
  enteredRegionThisFrame : Bool := false
  lifecycleChangedThisFrame : Bool := false
  estimatedQuality : Grades := .unmeasured
  classConfidence : Option Confidence := none
  classAlternatives : List (ClassId × PyFloat) := []
  labelSpaceKind : String := ""
  classInNativeVocabulary : Option Bool := none

def TriggerCandidate.wants (c : TriggerCandidate) (demands : DemandRegistry) :
    List (AttributeKey × Want) :=
  (demands.requiredAttributes c.cameraId c.classId c.regionIds).entries.insertionSort
    (fun a b => a.1 ≤ b.1)

/-- No active demand wants anything of the candidate. -/
def TriggerCandidate.Undemanded (c : TriggerCandidate) (demands : DemandRegistry) : Prop :=
  c.wants demands = []

instance (c : TriggerCandidate) (demands : DemandRegistry) : Decidable (c.Undemanded demands) :=
  inferInstanceAs (Decidable (c.wants demands = []))

def priorityOf (wants : List (AttributeKey × Want)) : String :=
  ((wants.map (·.2.priorityClass)).find? (· ≠ "")).getD ""

def demandIdsOf (wants : List (AttributeKey × Want)) : List String :=
  Dedup.fresh id [] (wants.flatMap (·.2.demandIds))

def TriggerDecision.fire (objectId : ObjectId) (reason : TriggerReason)
    (attributes : List AttributeKey) (priorityClass : String) (demandIds : List String)
    (detail : String) : TriggerDecision where
  objectId
  reason := some reason
  attributes
  priorityClass
  demandIds
  detail
  accepted := rfl

def TriggerDecision.withhold (objectId : ObjectId) (skip : SkipReason)
    (attributes : List AttributeKey) (priorityClass : String) (demandIds : List String)
    (detail : String) : TriggerDecision where
  objectId
  skip := some skip
  attributes
  priorityClass
  demandIds
  detail
  accepted := rfl

def TriggerDecision.fires (d : TriggerDecision) : Bool := d.reason.isSome

/-! ## The default policy -/

structure DefaultTriggerPolicyFields where
  appearanceThreshold : PyFloat := .round (1 / 4)
  lowConfidence : PyFloat := .round (1 / 2)
  refreshInterval : Duration := ⟨300000000000⟩
  deriving DecidableEq, Repr

/-- The checks of `DefaultTriggerPolicy.__init__`. -/
def DefaultTriggerPolicyFields.postInit (p : DefaultTriggerPolicyFields) : Raises Unit := do
  require (p.appearanceThreshold.inUnit = true)
    (.valueError "appearance_threshold must be in [0,1]")
  require (p.lowConfidence.inUnit = true) (.valueError "low_confidence must be in [0,1]")
  require (¬ p.refreshInterval.ns ≤ 0) (.valueError "refresh_interval must be positive")

structure DefaultTriggerPolicy extends DefaultTriggerPolicyFields where
  accepted : toDefaultTriggerPolicyFields.postInit = .ok ()
  deriving DecidableEq

def DefaultTriggerPolicy.default : DefaultTriggerPolicy where
  accepted := by decide +kernel

namespace DefaultTriggerPolicy

def appearanceChanged (p : DefaultTriggerPolicy) (c : TriggerCandidate) : Bool :=
  c.appearanceDelta.any fun delta => p.appearanceThreshold.le delta

def refreshDue (p : DefaultTriggerPolicy) (c : TriggerCandidate) (now : Instant) : Bool :=
  match c.lastAnalysed with
  | none => true
  | some lastAnalysed => p.refreshInterval.ns ≤ now.ns - lastAnalysed.ns

def qualityAdequate (c : TriggerCandidate) : Bool :=
  match c.estimatedQuality.overall, c.estimatedQuality.scalePixels with
  | some overall, _ => isUsable overall
  | none, some scalePixels => (PyFloat.finite 0).lt scalePixels
  | none, none => true

def keysWhere (wants : List (AttributeKey × Want)) (p : AttributeKey → Want → Bool) :
    List AttributeKey :=
  (wants.filter fun want => p want.1 want.2).map fst

def missing (c : TriggerCandidate) (wants : List (AttributeKey × Want)) : List AttributeKey :=
  keysWhere wants fun key _ => ((c.attributes.get? key).bind (·.observedAt)).isNone

def stale (c : TriggerCandidate) (now : Instant) (wants : List (AttributeKey × Want)) :
    List AttributeKey :=
  keysWhere wants fun key want => (c.attributes.get? key).any (·.isStale now want.freshness)

def weak (p : DefaultTriggerPolicy) (c : TriggerCandidate) (wants : List (AttributeKey × Want)) :
    List AttributeKey :=
  keysWhere wants fun key _ =>
    ((c.attributes.get? key).bind (·.confidence)).any fun confidence => confidence.lt p.lowConfidence

def trigger (p : DefaultTriggerPolicy) (c : TriggerCandidate) (now : Instant)
    (wants : List (AttributeKey × Want)) : Option (TriggerReason × List AttributeKey × String) :=
  let all := wants.map fst
  let missing := missing c wants
  let stale := stale c now wants
  let weak := p.weak c wants
  if missing ≠ [] then
    some (if c.lastAnalysed.isNone then .firstSight else .attributeMissing, missing,
      s!"{missing.length} attribute(s) never computed")
  else if c.lastGateRejection && qualityAdequate c then
    some (.qualityImproved, all, "previously rejected; conditions now adequate")
  else if stale ≠ [] then
    some (.attributeStale, stale, s!"{stale.length} attribute(s) past their freshness SLA")
  else if c.lifecycleChangedThisFrame || c.enteredRegionThisFrame then
    some (.lifecycleTransition, all, "lifecycle or region transition")
  else if p.appearanceChanged c then
    some (.appearanceChanged, all, "appearance delta exceeds threshold")
  else if weak ≠ [] then
    some (.lowConfidence, weak, s!"{weak.length} prior claim(s) below the confidence floor")
  else if p.refreshDue c now then
    some (.periodicRefresh, all, "cadence floor reached")
  else none

/-- The decision for an object whose wants, in the order of their keys, are these. -/
def decideFor (p : DefaultTriggerPolicy) (now : Instant) (wants : List (AttributeKey × Want))
    (c : TriggerCandidate) : TriggerDecision :=
  if wants = [] then
    .withhold c.objectId .noDemand [] "" [] "no active demand covers this object"
  else
    match p.trigger c now wants with
    | some (reason, attributes, detail) =>
      .fire c.objectId reason attributes (priorityOf wants) (demandIdsOf wants) detail
    | none =>
      .withhold c.objectId .freshEnough (wants.map fst) (priorityOf wants)
        (demandIdsOf wants) "all demanded attributes are fresh"

def decide (p : DefaultTriggerPolicy) (now : Instant) (demands : DemandRegistry)
    (c : TriggerCandidate) : TriggerDecision :=
  p.decideFor now (c.wants demands) c

end DefaultTriggerPolicy

theorem TriggerCandidate.nodup_wants (c : TriggerCandidate) (demands : DemandRegistry) :
    ((c.wants demands).map fst).Nodup := by
  have hkeys := (demands.requiredAttributes c.cameraId c.classId c.regionIds).nodupKeys
  have hperm := (perm_insertionSort (fun a b : AttributeKey × Want => a.1 ≤ b.1)
    (demands.requiredAttributes c.cameraId c.classId c.regionIds).entries).map fst
  exact hperm.nodup_iff.mpr hkeys

namespace DefaultTriggerPolicy

variable {c : TriggerCandidate} {demands : DemandRegistry} {wants : List (AttributeKey × Want)}

theorem keysWhere_sublist (wants : List (AttributeKey × Want))
    (pick : AttributeKey → Want → Bool) : (keysWhere wants pick).Sublist (wants.map fst) :=
  filter_sublist.map fst

variable {p : DefaultTriggerPolicy} {reason : TriggerReason} {detail : String}

variable {attributes : List AttributeKey}

theorem trigger_attributes {now : Instant} (hwants : wants ≠ [])
    (h : p.trigger c now wants = some (reason, attributes, detail)) :
    attributes ≠ [] ∧ attributes.Sublist (wants.map fst) := by
  have hall : wants.map fst ≠ [] := by simpa using hwants
  unfold trigger at h
  simp only at h
  -- The triggers are tried in order; each fires for all that is wanted or for a part of it
  -- that the trigger found not to be empty.
  split at h
  · rename_i hmissing
    cases h
    exact ⟨hmissing, keysWhere_sublist _ _⟩
  split at h
  · cases h
    exact ⟨hall, refl _⟩
  split at h
  · rename_i hstale
    cases h
    exact ⟨hstale, keysWhere_sublist _ _⟩
  split at h
  · cases h
    exact ⟨hall, refl _⟩
  split at h
  · cases h
    exact ⟨hall, refl _⟩
  split at h
  · rename_i hweak
    cases h
    exact ⟨hweak, keysWhere_sublist _ _⟩
  split at h
  · cases h
    exact ⟨hall, refl _⟩
  · cases h

theorem decide_of_undemanded (p : DefaultTriggerPolicy) (now : Instant) (h : c.Undemanded demands) :
    p.decide now demands c =
      .withhold c.objectId .noDemand [] "" [] "no active demand covers this object" := by
  exact if_pos h

theorem decide_of_demanded (p : DefaultTriggerPolicy) (now : Instant) (h : ¬ c.Undemanded demands) :
    (∃ reason attributes detail, p.decide now demands c =
        .fire c.objectId reason attributes (priorityOf (c.wants demands))
          (demandIdsOf (c.wants demands)) detail ∧
        attributes ≠ [] ∧ attributes.Sublist ((c.wants demands).map fst)) ∨
      p.decide now demands c =
        .withhold c.objectId .freshEnough ((c.wants demands).map fst)
          (priorityOf (c.wants demands)) (demandIdsOf (c.wants demands))
          "all demanded attributes are fresh" := by
  have hwants : c.wants demands ≠ [] := h
  cases htrigger : p.trigger c now (c.wants demands) with
  | none =>
    refine .inr ?_
    unfold decide decideFor
    simp only [if_neg hwants, htrigger]
  | some fired =>
    obtain ⟨reason, attributes, detail⟩ := fired
    refine .inl ⟨reason, attributes, detail, ?_, trigger_attributes hwants htrigger⟩
    unfold decide decideFor
    simp only [if_neg hwants, htrigger]

/-! ## What lapsed -/

def sortedWants (wanted : OrderedDict AttributeKey Want) : List (AttributeKey × Want) :=
  wanted.entries.insertionSort fun a b => a.1 ≤ b.1

def decideOn (p : DefaultTriggerPolicy) (now : Instant) (wanted : OrderedDict AttributeKey Want)
    (c : TriggerCandidate) : TriggerDecision :=
  p.decideFor now (sortedWants wanted) c

/-- Nothing dated is held of the attribute. -/
def NeverObserved (c : TriggerCandidate) (key : AttributeKey) : Prop :=
  ((c.attributes.get? key).bind (·.observedAt)).isNone = true

instance (c : TriggerCandidate) (key : AttributeKey) : Decidable (NeverObserved c key) :=
  inferInstanceAs (Decidable (_ = true))

/-- It was observed, and is past the freshness that is wanted. -/
def PastFreshness (c : TriggerCandidate) (now : Instant) (key : AttributeKey) (want : Want) :
    Prop :=
  ¬ NeverObserved c key ∧ (c.attributes.get? key).any (·.isStale now want.freshness) = true

/-- Nothing that lapsed is passed over: not by a skip as fresh enough, and not by a decision
    to look again for something else. -/
def AsksForLapsed (p : DefaultTriggerPolicy) (now : Instant)
    (wanted : OrderedDict AttributeKey Want) (c : TriggerCandidate) : Prop :=
  ∀ key want, wanted.get? key = some want → NeverObserved c key ∨ PastFreshness c now key want →
    (p.decideOn now wanted c).skip ≠ some .freshEnough ∧
      ((p.decideOn now wanted c).fires = true → key ∈ (p.decideOn now wanted c).attributes)

variable {now : Instant} {wanted : OrderedDict AttributeKey Want} {key : AttributeKey}
  {want : Want}

theorem mem_sortedWants : (key, want) ∈ sortedWants wanted ↔ wanted.get? key = some want := by
  unfold sortedWants
  rw [mem_insertionSort, get?_eq_some_iff]

theorem mem_keysWhere {pick : AttributeKey → Want → Bool} :
    key ∈ keysWhere (sortedWants wanted) pick ↔
      ∃ want, wanted.get? key = some want ∧ pick key want = true := by
  constructor
  · intro h
    obtain ⟨⟨key', want⟩, hwant, rfl⟩ := mem_map.mp h
    obtain ⟨hmem, hpick⟩ := mem_filter.mp hwant
    exact ⟨want, mem_sortedWants.mp hmem, hpick⟩
  · rintro ⟨want, hwant, hpick⟩
    exact mem_map.mpr ⟨(key, want), mem_filter.mpr ⟨mem_sortedWants.mpr hwant, hpick⟩, rfl⟩

variable {c : TriggerCandidate}

theorem mem_missing : key ∈ missing c (sortedWants wanted) ↔
    ∃ want, wanted.get? key = some want ∧ NeverObserved c key := mem_keysWhere

theorem trigger_of_missing_eq_nil
    (hmissing : missing c (sortedWants wanted) = []) (hwant : wanted.get? key = some want)
    (hstale : PastFreshness c now key want) :
    ∃ reason attributes detail, p.trigger c now (sortedWants wanted) =
      some (reason, attributes, detail) ∧ key ∈ attributes := by
  have hall : key ∈ (sortedWants wanted).map fst :=
    mem_map_of_mem (f := fst) (mem_sortedWants.mpr hwant)
  have hkey : key ∈ stale c now (sortedWants wanted) := mem_keysWhere.mpr ⟨want, hwant, hstale.2⟩
  unfold trigger
  rw [if_neg (not_not.mpr hmissing)]
  split
  · exact ⟨_, _, _, rfl, hall⟩
  · rw [if_pos (ne_nil_of_mem hkey)]
    exact ⟨_, _, _, rfl, hkey⟩

theorem decideOn_of_trigger (hwant : wanted.get? key = some want)
    (h : p.trigger c now (sortedWants wanted) = some (reason, attributes, detail)) :
    p.decideOn now wanted c = .fire c.objectId reason attributes (priorityOf (sortedWants wanted))
      (demandIdsOf (sortedWants wanted)) detail := by
  unfold decideOn decideFor
  simp only [if_neg (ne_nil_of_mem (mem_sortedWants.mpr hwant)), h]

theorem trigger_of_missing {p : DefaultTriggerPolicy} {c : TriggerCandidate}
    (h : missing c (sortedWants wanted) ≠ []) : ∃ reason detail,
      p.trigger c now (sortedWants wanted) =
        some (reason, missing c (sortedWants wanted), detail) := by
  unfold trigger
  rw [if_pos h]
  exact ⟨_, _, rfl⟩

/-- What is missing hides what is stale, and nothing else does. -/
theorem asksForLapsed_iff (p : DefaultTriggerPolicy) (now : Instant)
    (wanted : OrderedDict AttributeKey Want) (c : TriggerCandidate) :
    AsksForLapsed p now wanted c ↔
      ¬ ((∃ key want, wanted.get? key = some want ∧ NeverObserved c key) ∧
        ∃ key want, wanted.get? key = some want ∧ PastFreshness c now key want) := by
  constructor
  · rintro h ⟨⟨key, want, hwant, hnever⟩, key', want', hwant', hpast⟩
    have hmissing : missing c (sortedWants wanted) ≠ [] :=
      ne_nil_of_mem (mem_missing.mpr ⟨want, hwant, hnever⟩)
    obtain ⟨reason, detail, hfired⟩ := @trigger_of_missing now _ p c hmissing
    have hasked := (h key' want' hwant' (.inr hpast)).2
    rw [decideOn_of_trigger hwant hfired] at hasked
    -- Only what was never observed is asked for.
    obtain ⟨_, -, hnever'⟩ := mem_missing.mp (hasked rfl)
    exact hpast.1 hnever'
  · intro h key want hwant hlapsed
    by_cases hmissing : missing c (sortedWants wanted) = []
    · have hpast : PastFreshness c now key want := by
        refine hlapsed.resolve_left fun hnever => ?_
        exact ne_nil_of_mem (mem_missing.mpr ⟨want, hwant, hnever⟩) hmissing
      obtain ⟨reason, attributes, detail, hfired, hkey⟩ :=
        trigger_of_missing_eq_nil (p := p) hmissing hwant hpast
      rw [decideOn_of_trigger hwant hfired]
      exact ⟨nofun, fun _ => hkey⟩
    · obtain ⟨missed, hmissed⟩ := exists_mem_of_ne_nil _ hmissing
      obtain ⟨want', hwant', hnever'⟩ := mem_missing.mp hmissed
      have hnever : NeverObserved c key := by
        refine hlapsed.resolve_right fun hpast => ?_
        exact h ⟨⟨missed, want', hwant', hnever'⟩, key, want, hwant, hpast⟩
      obtain ⟨reason, detail, hfired⟩ := @trigger_of_missing now _ p c hmissing
      rw [decideOn_of_trigger hwant hfired]
      exact ⟨nofun, fun _ => mem_missing.mpr ⟨want, hwant, hnever⟩⟩

def everySecond : Want := ⟨⟨1000000000⟩, "", []⟩

/-- A colour that is a minute old is not looked at again while the logo is missing. -/
theorem stale_colour_waits : ¬ AsksForLapsed .default ⟨60000000000⟩
    (ofPairs [("colour", everySecond), ("logo", everySecond)])
    { objectId := "A", cameraId := "north", classId := "van"
      attributes := ofPairs [("colour", { observedAt := some ⟨0⟩ })] } := by
  intro h
  have hasked := (h "colour" everySecond (by decide) (.inr ⟨by decide, by decide⟩)).2
  revert hasked
  decide +kernel

end DefaultTriggerPolicy

end VisionOs.Cropping
