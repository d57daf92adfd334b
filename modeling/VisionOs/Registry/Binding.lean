/-
  Track-to-object binding: which object a track continues, or which one it may be
  re-entering as.  The reasons of a decision, which only events carry, are left out.
-/
import VisionOs.Core.Rounding
import VisionOs.Registry.Attributes
import VisionOs.Registry.Partition

namespace VisionOs.Registry

open Core Lib PyFloat ObjectRecord

structure BindingPolicyFields where
  maxReentryDistance : PyFloat := .finite (1 / 4)
  maxReentryGap : Duration := ⟨30000000000⟩
  ambiguityMargin : PyFloat := .round (15 / 100)
  minBindingConfidence : PyFloat := .round (3 / 10)
  epochRebindPenalty : PyFloat := .finite (1 / 2)
  classMustMatch : Bool := true

def checkThreshold (name : String) (value : PyFloat) : Raises Unit :=
  require (value.inUnit = true)
    (.valueError [.text s!"{name} must be in [0,1], got ", .float value])

def BindingPolicyFields.postInit (p : BindingPolicyFields) : Raises Unit := do
  checkThreshold "max_reentry_distance" p.maxReentryDistance
  checkThreshold "ambiguity_margin" p.ambiguityMargin
  checkThreshold "min_binding_confidence" p.minBindingConfidence
  require ((finite 0).lt p.epochRebindPenalty = true ∧
      p.epochRebindPenalty.le (.finite 1) = true)
    (.valueError "epoch_rebind_penalty must be in (0,1]")
  require (¬ p.maxReentryGap.ns ≤ 0) (.valueError "max_reentry_gap must be positive")

structure BindingPolicy extends BindingPolicyFields where
  accepted : toBindingPolicyFields.postInit = .ok ()

theorem BindingPolicyFields.postInit_eq_ok {p : BindingPolicyFields} :
    p.postInit = .ok () ↔
      p.maxReentryDistance.inUnit = true ∧ p.ambiguityMargin.inUnit = true ∧
      p.minBindingConfidence.inUnit = true ∧
      ((finite 0).lt p.epochRebindPenalty = true ∧
        p.epochRebindPenalty.le (.finite 1) = true) ∧ 0 < p.maxReentryGap.ns := by
  unfold postInit checkThreshold
  simp only [check_bind_eq_ok, require_eq_ok, not_le]

/-- The policies under which a candidate is described without an exception: some distance is
    allowed, and the longest gap allowed is a float in milliseconds. -/
structure BindingPolicy.Usable (p : BindingPolicy) : Prop where
  distance : (finite 0).lt p.maxReentryDistance = true
  gap : ∃ ms, p.maxReentryGap.millis = .ok ms

theorem BindingPolicy.Usable.millis {p : BindingPolicy} (h : p.Usable) {gap : Duration}
    (hgap : 0 ≤ gap.ns ∧ gap.ns ≤ p.maxReentryGap.ns) : ∃ ms, gap.millis = .ok ms := by
  obtain ⟨ms, hms⟩ := h.gap
  unfold Duration.millis at hms ⊢
  cases hround : PyFloat.round ((p.maxReentryGap.ns : ℚ) / 1000000) with
  | finite r =>
    have hratio : (0 : ℚ) ≤ gap.ns / 1000000 ∧
        (gap.ns / 1000000 : ℚ) ≤ p.maxReentryGap.ns / 1000000 :=
      ⟨div_nonneg (by exact_mod_cast hgap.1) (by norm_num),
        div_le_div_of_nonneg_right (by exact_mod_cast hgap.2) (by norm_num)⟩
    obtain ⟨s, hs⟩ := round_finite_of_le hratio.1 hratio.2 hround
    rw [hs]
    exact ⟨_, rfl⟩
  | posInf | negInf | nan =>
    rw [hround] at hms
    cases hms

/-! ## Decisions -/

/-- One object a track might continue, with the evidence behind its score. -/
structure Candidate where
  objectId : ObjectId
  score : PyFloat
  method : BindingMethod
  distance : PyFloat
  gap : Duration
  rationale : Message := []

structure BindingDecision where
  matched : Option Candidate
  candidates : List Candidate := []
  ambiguous : Bool := false

def BindingDecision.firstSightConfidence (d : BindingDecision) : PyFloat :=
  if d.ambiguous then (d.candidates.head?.map (·.score)).getD (.finite 1) else .finite 1

def bindContinuing (records : List ObjectRecord) (trackId : TrackId) : BindingDecision where
  matched := (records.find? (·.owns trackId)).map fun r =>
    { objectId := r.objectId, score := .finite 1, method := .trackContinuity,
      distance := .finite 0, gap := ⟨0⟩, rationale := "same track id within one epoch" }

def classCompatible (existing incoming : ClassId) : Bool :=
  classMatches existing incoming || classMatches incoming existing

/-- `_score`: spatial proximity times recency, each falling to zero at its limit. -/
def score (policy : BindingPolicy) (distance : PyFloat) (gap : Duration) : Raises PyFloat := do
  let spatialRatio ← distance.div policy.maxReentryDistance
  let spatialTerm := (finite 0).pyMax ((finite 1).sub spatialRatio)
  let temporalTerm := (finite 0).pyMax
    ((finite 1).sub (.ofRatio gap.ns policy.maxReentryGap.ns))
  return spatialTerm.mul temporalTerm

section Reentry

variable (hypot : PyFloat → PyFloat → PyFloat) (policy : BindingPolicy) (spatial : SpatialInfo)
  (classId : ClassId) (now : Instant) (crossingEpoch : Bool)

def reenterable (r : ObjectRecord) : Bool :=
  (r.lifecycle = .occluded || r.lifecycle = .dormant) && r.boundTrack.isNone

def gapOf (r : ObjectRecord) : Duration := ⟨max 0 (now.ns - r.lastConfirmed.ns)⟩

def scored (plain : PyFloat) : PyFloat :=
  if crossingEpoch then plain.mul policy.epochRebindPenalty else plain

def rationaleOf (distance : PyFloat) (gap : Duration) : Raises Message := do
  let ms ← gap.millis
  return [.text "distance ", .float distance, .text ", gap ", .float ms,
    .text (if crossingEpoch then "ms, across tracker epoch" else "ms")]

def considerReentry (r : ObjectRecord) : Raises (Option Candidate) :=
  if ¬ reenterable r then .ok none
  else if policy.classMustMatch ∧ ¬ classCompatible r.classId classId then .ok none
  else if (gapOf now r).ns > policy.maxReentryGap.ns then .ok none
  else
    let distance := spatialDistance hypot r.spatial spatial
    if policy.maxReentryDistance.lt distance then .ok none
    else do
      let plain ← score policy distance (gapOf now r)
      if (scored policy crossingEpoch plain).lt policy.minBindingConfidence then return none
      let rationale ← rationaleOf crossingEpoch distance (gapOf now r)
      return some {
        objectId := r.objectId
        score := scored policy crossingEpoch plain
        method := if crossingEpoch then .epochRebind else .spatioTemporal
        distance
        gap := gapOf now r
        rationale }

/-- `(-a.score, a.object_id) <= (-b.score, b.object_id)`. -/
def Candidate.before (a b : Candidate) : Bool :=
  b.score.lt a.score || b.score.eq a.score && a.objectId ≤ b.objectId

def decideReentry (candidates : List Candidate) : BindingDecision :=
  match candidates.insertionSort (fun a b => a.before b) with
  | [] => { matched := none }
  | [only] => { matched := some only, candidates := [only] }
  | first :: second :: rest =>
    let ordered := first :: second :: rest
    if (first.score.sub second.score).lt policy.ambiguityMargin then
      { matched := none, candidates := ordered, ambiguous := true }
    else { matched := some first, candidates := ordered }

/-- `bind_reentry`: score the unbound objects that are plausibly still around. -/
def bindReentry (records : List ObjectRecord) : Raises BindingDecision := do
  let considered ← records.mapM
    (considerReentry hypot policy spatial classId now crossingEpoch)
  return decideReentry policy (considered.filterMap id)

variable {hypot policy spatial classId now crossingEpoch}

structure Considered (r : ObjectRecord) (c : Candidate) : Prop where
  objectId : c.objectId = r.objectId
  reenterable : reenterable r = true
  gap_le : (gapOf now r).ns ≤ policy.maxReentryGap.ns
  near : policy.maxReentryDistance.lt (spatialDistance hypot r.spatial spatial) = false
  score_eq : ∃ plain, score policy (spatialDistance hypot r.spatial spatial)
    (gapOf now r) = .ok plain ∧ c.score = scored policy crossingEpoch plain

variable {r : ObjectRecord} {c : Candidate}

theorem considered_of_ok
    (h : considerReentry hypot policy spatial classId now crossingEpoch r = .ok (some c)) :
    @Considered hypot policy spatial now crossingEpoch r c := by
  unfold considerReentry at h
  by_cases hreenterable : reenterable r = true
  · rw [if_neg (not_not.mpr hreenterable)] at h
    by_cases hclass : policy.classMustMatch = true ∧ ¬ classCompatible r.classId classId = true
    · rw [if_pos hclass] at h
      cases h
    rw [if_neg hclass] at h
    by_cases hgap : (gapOf now r).ns > policy.maxReentryGap.ns
    · rw [if_pos hgap] at h
      cases h
    rw [if_neg hgap] at h
    by_cases hfar : policy.maxReentryDistance.lt
        (spatialDistance hypot r.spatial spatial) = true
    · simp only [hfar, if_true] at h
      cases h
    simp only [hfar] at h
    obtain ⟨plain, hplain, h⟩ := bind_eq_ok.mp h
    split at h
    · cases h
    · obtain ⟨rationale, -, h⟩ := bind_eq_ok.mp h
      have hc := Option.some.inj (Except.ok.inj h)
      rw [← hc]
      exact ⟨rfl, hreenterable, not_lt.mp hgap, by simpa using hfar, plain, hplain, rfl⟩
  · rw [if_pos hreenterable] at h
    cases h

theorem decideReentry_mem {candidates : List Candidate} {c : Candidate}
    (h : (decideReentry policy candidates).matched = some c ∨
      c ∈ (decideReentry policy candidates).candidates) : c ∈ candidates := by
  have hmem : ∀ c', c' ∈ candidates.insertionSort (fun a b => a.before b) → c' ∈ candidates :=
    fun c' hc' => (List.mem_insertionSort _).mp hc'
  apply hmem
  unfold decideReentry at h
  split at h
  · simp at h
  · rename_i only heq
    rw [heq]
    simpa [eq_comm] using h
  · rename_i first second rest heq
    rw [heq]
    split at h
    · simpa using h
    · rcases h with h | h
      · rw [← Option.some.inj h]
        simp
      · exact h

variable {d : BindingDecision} {records : List ObjectRecord}

theorem bindReentry_considered
    (h : bindReentry hypot policy spatial classId now crossingEpoch records = .ok d)
    (hc : d.matched = some c ∨ c ∈ d.candidates) :
    ∃ r ∈ records, @Considered hypot policy spatial now crossingEpoch r c := by
  obtain ⟨considered, hconsidered, h⟩ := bind_eq_ok.mp h
  rw [← Except.ok.inj h] at hc
  obtain ⟨candidate, hmem, hsome⟩ := List.mem_filterMap.mp (decideReentry_mem hc)
  obtain ⟨r, hr, hok⟩ := (mapM_ok hconsidered).2 candidate hmem
  have hcandidate : candidate = some c := hsome
  rw [hcandidate] at hok
  exact ⟨r, hr, considered_of_ok hok⟩

/-! ## Scores are confidences -/

theorem spatialDistance_inUnit (hhypot : ∀ x y, (hypot x y).lt (.finite 0) = false)
    (first second : SpatialInfo) :
    (spatialDistance hypot first second).inUnit = true := by
  unfold spatialDistance
  split
  · have hdiagonal : ∃ q : ℚ, PyFloat.round (14142135623730951 / 10000000000000000) = .finite q ∧
        0 < q := ⟨6369051672525773 / 4503599627370496, by decide +kernel, by decide +kernel⟩
    obtain ⟨q, hq, hpos⟩ := hdiagonal
    rw [hq]
    exact one_min_inUnit (quotient_nonneg (hhypot _ _) hpos)
  · exact inUnit_finite zero_le_one le_rfl

theorem score_ok {distance : PyFloat} {gap : Duration}
    (hpositive : (finite 0).lt policy.maxReentryDistance = true)
    (hdistance : distance.inUnit = true) (hnear : policy.maxReentryDistance.lt distance = false)
    (hgap : 0 ≤ gap.ns ∧ gap.ns ≤ policy.maxReentryGap.ns) :
    ∃ plain, score policy distance gap = .ok plain ∧ plain.inUnit = true := by
  obtain ⟨hmax, -, -, -, hgapPositive⟩ := BindingPolicyFields.postInit_eq_ok.mp policy.accepted
  obtain ⟨m, hm, -, -⟩ := inUnit_iff.mp hmax
  obtain ⟨d, rfl, hd, -⟩ := inUnit_iff.mp hdistance
  rw [hm] at hpositive hnear
  have hpos : 0 < m := of_decide_eq_true hpositive
  have hle : d ≤ m := not_lt.mp (of_decide_eq_false hnear)
  have hratio : (finite d).div policy.maxReentryDistance =
      .ok ((finite d).quotient (.finite m)) := by
    unfold div
    rw [hm, if_neg]
    intro hzero
    exact hpos.ne' (of_decide_eq_true hzero)
  unfold score
  rw [hratio, ok_bind]
  refine ⟨_, rfl, mul_inUnit ?_ ?_⟩
  · exact zero_max_inUnit (one_sub_inUnit (quotient_inUnit hd hle hpos))
  · exact zero_max_inUnit
      (one_sub_inUnit (ofRatio_inUnit hgap.1 hgap.2 hgapPositive))

theorem scored_inUnit {plain : PyFloat} (h : plain.inUnit = true) :
    (scored policy crossingEpoch plain).inUnit = true := by
  obtain ⟨-, -, -, hpenalty, -⟩ := BindingPolicyFields.postInit_eq_ok.mp policy.accepted
  unfold scored
  split
  · refine mul_inUnit h ?_
    unfold inUnit le
    rw [Bool.and_eq_true]
    exact ⟨by rw [hpenalty.1]; rfl, hpenalty.2⟩
  · exact h

theorem bindReentry_returns (hhypot : ∀ x y, (hypot x y).lt (.finite 0) = false)
    (husable : policy.Usable)
    (records : List ObjectRecord) :
    ∃ d, bindReentry hypot policy spatial classId now crossingEpoch records = .ok d := by
  have hone : ∀ r ∈ records, ∃ c,
      considerReentry hypot policy spatial classId now crossingEpoch r = .ok c := by
    intro r _
    unfold considerReentry
    split
    · exact ⟨none, rfl⟩
    split
    · exact ⟨none, rfl⟩
    split
    · exact ⟨none, rfl⟩
    rename_i hgap
    by_cases hfar : policy.maxReentryDistance.lt
        (spatialDistance hypot r.spatial spatial) = true
    · exact ⟨none, if_pos hfar⟩
    have hbounds : 0 ≤ (gapOf now r).ns ∧ (gapOf now r).ns ≤ policy.maxReentryGap.ns :=
      ⟨le_max_left _ _, not_lt.mp hgap⟩
    obtain ⟨plain, hplain, -⟩ := score_ok husable.distance
      (spatialDistance_inUnit hhypot r.spatial spatial) (by simpa using hfar) hbounds
    obtain ⟨ms, hms⟩ := husable.millis hbounds
    simp only [hfar, hplain, rationaleOf, hms, ok_bind]
    by_cases hlow : (scored policy crossingEpoch plain).lt policy.minBindingConfidence = true
    · exact ⟨none, if_pos hlow⟩
    · exact ⟨_, if_neg hlow⟩
  obtain ⟨considered, hconsidered, -⟩ := mapM_returns hone
  exact ⟨_, bind_eq_ok.mpr ⟨considered, hconsidered, rfl⟩⟩

theorem Considered.score_inUnit (hhypot : ∀ x y, (hypot x y).lt (.finite 0) = false)
    (husable : policy.Usable)
    (h : @Considered hypot policy spatial now crossingEpoch r c) : c.score.inUnit = true := by
  obtain ⟨plain, hplain, hscore⟩ := h.score_eq
  obtain ⟨plain', hplain', hunit⟩ := score_ok husable.distance
    (spatialDistance_inUnit hhypot r.spatial spatial) h.near ⟨le_max_left _ _, h.gap_le⟩
  obtain rfl := Except.ok.inj (hplain.symm.trans hplain')
  rw [hscore]
  exact scored_inUnit hunit

theorem firstSightConfidence_inUnit
    (hhypot : ∀ x y, (hypot x y).lt (.finite 0) = false)
    (husable : policy.Usable)
    (h : bindReentry hypot policy spatial classId now crossingEpoch records = .ok d) :
    d.firstSightConfidence.inUnit = true := by
  have hone : (finite 1).inUnit = true := inUnit_finite zero_le_one le_rfl
  unfold BindingDecision.firstSightConfidence
  split
  · cases hfirst : d.candidates.head? with
    | none => exact hone
    | some c =>
      obtain ⟨r, -, hconsidered⟩ :=
        bindReentry_considered h (.inr (List.mem_of_head? hfirst))
      exact hconsidered.score_inUnit hhypot husable
  · exact hone

end Reentry

end VisionOs.Registry
