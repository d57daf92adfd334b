/-
  Re-entry does not guess.  A candidate is an eligible record with its score; the
  decision is read off the candidates in the order of their scores, so it does not
  depend on the order of the records.
-/
import VisionOs.Core.Rounding
import VisionOs.Registry.Continuity

namespace VisionOs.Registry

open Core Lib List Option PyFloat ObjectRecord BindingPolicyFields Candidate

section Reentry

variable (hypot : PyFloat → PyFloat → PyFloat) (policy : BindingPolicy) (spatial : SpatialInfo)
  (classId : ClassId) (now : Instant) (crossingEpoch : Bool)

/-! ## Eligible records -/

/-- The record may be re-entered, with this score. -/
structure Eligible (r : ObjectRecord) (c : Candidate) : Prop where
  around : r.lifecycle = .occluded ∨ r.lifecycle = .dormant
  unbound : r.boundTrack = none
  compatible : policy.classMustMatch = true → classCompatible r.classId classId = true
  recent : (gapOf now r).ns ≤ policy.maxReentryGap.ns
  near : (spatialDistance hypot r.spatial spatial).le policy.maxReentryDistance = true
  evidence : ∃ plain rationale,
    score policy (spatialDistance hypot r.spatial spatial) (gapOf now r) = .ok plain ∧
    rationaleOf crossingEpoch (spatialDistance hypot r.spatial spatial) (gapOf now r) =
      .ok rationale ∧
    c = { objectId := r.objectId
          score := scored policy crossingEpoch plain
          method := if crossingEpoch then .epochRebind else .spatioTemporal
          distance := spatialDistance hypot r.spatial spatial
          gap := gapOf now r
          rationale }
  sure : policy.minBindingConfidence.le c.score = true

def candidateOf (r : ObjectRecord) : Option Candidate :=
  match considerReentry hypot policy spatial classId now crossingEpoch r with
  | .ok c => c
  | .error _ => none

variable {hypot policy spatial classId now crossingEpoch}

theorem le_iff_of_inUnit {x y : PyFloat} (hx : x.inUnit = true) (hy : y.inUnit = true) :
    x.le y = true ↔ y.lt x = false := by
  obtain ⟨p, rfl, -, -⟩ := inUnit_iff.mp hx
  obtain ⟨q, rfl, -, -⟩ := inUnit_iff.mp hy
  simp [le, lt, eq, ← le_iff_lt_or_eq]

theorem none_iff {P : Candidate → Prop} (h : ∀ c, ¬ P c) (c : Candidate) : none = some c ↔ P c :=
  iff_of_false (some_ne_none c).symm (h c)

section Scored

variable (hhypot : ∀ x y, (hypot x y).lt (.finite 0) = false)
  (husable : policy.Usable)

include hhypot husable

variable {r : ObjectRecord}

theorem score_near (crossingEpoch : Bool)
    (hgap : (gapOf now r).ns ≤ policy.maxReentryGap.ns) (hnear : policy.maxReentryDistance.lt
      (spatialDistance hypot r.spatial spatial) = false) :
    ∃ plain, score policy (spatialDistance hypot r.spatial spatial)
      (gapOf now r) = .ok plain ∧ (scored policy crossingEpoch plain).inUnit = true := by
  obtain ⟨plain, hplain, hunit⟩ := score_ok husable.distance
    (spatialDistance_inUnit hhypot r.spatial spatial) hnear ⟨le_max_left _ _, hgap⟩
  exact ⟨plain, hplain, scored_inUnit hunit⟩

theorem considerReentry_eq_ok (r : ObjectRecord) :
    ∃ found, considerReentry hypot policy spatial classId now crossingEpoch r = .ok found ∧
      ∀ c, found = some c ↔
        @Eligible hypot policy spatial classId now crossingEpoch r c := by
  obtain ⟨hmax, -, hmin, -⟩ := postInit_eq_ok.mp policy.accepted
  have hdistance := spatialDistance_inUnit hhypot r.spatial spatial
  unfold considerReentry
  by_cases haround : reenterable r = true
  · have hstate : (r.lifecycle = .occluded ∨ r.lifecycle = .dormant) ∧ r.boundTrack = none := by
      simpa [reenterable] using haround
    rw [if_neg (not_not.mpr haround)]
    by_cases hclass : policy.classMustMatch = true ∧ ¬ classCompatible r.classId classId = true
    · rw [if_pos hclass]
      exact ⟨none, rfl, none_iff fun c h => hclass.2 (h.compatible hclass.1)⟩
    rw [if_neg hclass]
    by_cases hgap : (gapOf now r).ns > policy.maxReentryGap.ns
    · rw [if_pos hgap]
      exact ⟨none, rfl, none_iff fun c h => not_le.mpr hgap h.recent⟩
    rw [if_neg hgap]
    by_cases hfar : policy.maxReentryDistance.lt
        (spatialDistance hypot r.spatial spatial) = true
    · refine ⟨none, if_pos hfar, none_iff fun c h => ?_⟩
      rw [(le_iff_of_inUnit hdistance hmax).mp h.near] at hfar
      cases hfar
    have hnear : policy.maxReentryDistance.lt
        (spatialDistance hypot r.spatial spatial) = false := by simpa using hfar
    obtain ⟨plain, hplain, hunit⟩ :=
      score_near hhypot husable crossingEpoch (not_lt.mp hgap) hnear
    have hbounds : 0 ≤ (gapOf now r).ns ∧ (gapOf now r).ns ≤ policy.maxReentryGap.ns :=
      ⟨le_max_left _ _, not_lt.mp hgap⟩
    obtain ⟨ms, hms⟩ := husable.millis hbounds
    obtain ⟨rationale, hrationale⟩ : ∃ rationale, rationaleOf crossingEpoch
        (spatialDistance hypot r.spatial spatial) (gapOf now r) = .ok rationale :=
      ⟨_, by rw [rationaleOf, hms]; rfl⟩
    simp only [hnear, hplain, hrationale, ok_bind]
    by_cases hlow : (scored policy crossingEpoch plain).lt policy.minBindingConfidence = true
    · refine ⟨none, if_pos hlow, none_iff fun c h => ?_⟩
      obtain ⟨plain', rationale', hplain', -, hc⟩ := h.evidence
      obtain rfl := Except.ok.inj (hplain.symm.trans hplain')
      have hsure := h.sure
      rw [hc, le_iff_of_inUnit hmin hunit, hlow] at hsure
      cases hsure
    · refine ⟨_, if_neg hlow, fun c => ⟨fun h => ?_, fun h => ?_⟩⟩
      · obtain rfl := some.inj h
        exact ⟨hstate.1, hstate.2, fun hmust => by_contra fun hnot => hclass ⟨hmust, hnot⟩,
          not_lt.mp hgap, (le_iff_of_inUnit hdistance hmax).mpr hnear,
          ⟨plain, rationale, hplain, hrationale, rfl⟩,
          (le_iff_of_inUnit hmin hunit).mpr (by simpa using hlow)⟩
      · obtain ⟨plain', rationale', hplain', hrationale', hc⟩ := h.evidence
        obtain rfl := Except.ok.inj (hplain.symm.trans hplain')
        obtain rfl := Except.ok.inj (hrationale.symm.trans hrationale')
        rw [hc]
  · rw [if_pos haround]
    refine ⟨none, rfl, none_iff fun c h => haround ?_⟩
    simpa [reenterable] using And.intro h.around h.unbound

theorem candidateOf_eq_some (r : ObjectRecord) (c : Candidate) :
    candidateOf hypot policy spatial classId now crossingEpoch r = some c ↔
      @Eligible hypot policy spatial classId now crossingEpoch r c := by
  obtain ⟨found, hfound, hiff⟩ := @considerReentry_eq_ok hypot policy spatial classId now
    crossingEpoch hhypot husable r
  rw [← hiff]
  unfold candidateOf
  rw [hfound]

theorem Eligible.score_inUnit {c : Candidate}
    (h : @Eligible hypot policy spatial classId now crossingEpoch r c) :
    c.score.inUnit = true := by
  obtain ⟨hmax, -⟩ := postInit_eq_ok.mp policy.accepted
  have hnear := (le_iff_of_inUnit (spatialDistance_inUnit hhypot r.spatial spatial) hmax).mp h.near
  obtain ⟨plain, hplain, hunit⟩ :=
    score_near hhypot husable crossingEpoch h.recent hnear
  obtain ⟨plain', rationale, hplain', -, hc⟩ := h.evidence
  obtain rfl := Except.ok.inj (hplain.symm.trans hplain')
  rw [hc]
  exact hunit

theorem bindReentry_eq_decide (records : List ObjectRecord) :
    bindReentry hypot policy spatial classId now crossingEpoch records =
      .ok (decideReentry policy
        (records.filterMap (candidateOf hypot policy spatial classId now crossingEpoch))) := by
  have hone : ∀ r ∈ records, ∃ c,
      considerReentry hypot policy spatial classId now crossingEpoch r = .ok c := by
    intro r _
    obtain ⟨found, hfound, -⟩ := @considerReentry_eq_ok hypot policy spatial classId now
      crossingEpoch hhypot husable r
    exact ⟨found, hfound⟩
  obtain ⟨considered, hconsidered, -⟩ := mapM_returns hone
  have hvalue : considered =
      records.map (candidateOf hypot policy spatial classId now crossingEpoch) := by
    rw [← map_id considered]
    refine mapM_map_eq (fun r c h => ?_) hconsidered
    unfold candidateOf
    rw [h]
    rfl
  unfold bindReentry
  rw [hconsidered, ok_bind, hvalue, filterMap_map]
  rfl

end Scored

/-! ## The order of the candidates -/

def Candidate.value (c : Candidate) : ℚ :=
  match c.score with
  | .finite q => q
  | _ => 0

def Candidate.ahead (a b : Candidate) : Prop :=
  b.value < a.value ∨ b.value = a.value ∧ a.objectId ≤ b.objectId

namespace Candidate

instance : DecidableRel ahead := fun a b =>
  inferInstanceAs (Decidable (b.value < a.value ∨ b.value = a.value ∧ a.objectId ≤ b.objectId))

instance : Std.Total ahead where
  total a b := by
    rcases lt_trichotomy a.value b.value with h | h | h
    · exact .inr (.inl h)
    · rcases le_total a.objectId b.objectId with hid | hid
      · exact .inl (.inr ⟨h.symm, hid⟩)
      · exact .inr (.inr ⟨h, hid⟩)
    · exact .inl (.inl h)

instance : IsTrans Candidate ahead where
  trans a b c hab hbc := by
    rcases hab with hab | ⟨hab, hid⟩
    · rcases hbc with hbc | ⟨hbc, -⟩
      · exact .inl (hbc.trans hab)
      · exact .inl (hbc.trans_lt hab)
    · rcases hbc with hbc | ⟨hbc, hid'⟩
      · exact .inl (hbc.trans_eq hab)
      · exact .inr ⟨hbc.trans hab, hid.trans hid'⟩

theorem finite_value {c : Candidate} (h : c.score.inUnit = true) :
    c.score = .finite c.value ∧ 0 ≤ c.value := by
  obtain ⟨q, hq, h0, -⟩ := inUnit_iff.mp h
  unfold value
  rw [hq]
  exact ⟨rfl, h0⟩

theorem before_iff {a b : Candidate} (ha : a.score.inUnit = true) (hb : b.score.inUnit = true) :
    a.before b = true ↔ a.ahead b := by
  unfold before ahead
  rw [(finite_value ha).1, (finite_value hb).1]
  simp [lt, eq]

theorem insertionSort_before {cs : List Candidate} (h : ∀ c ∈ cs, c.score.inUnit = true) :
    cs.insertionSort (fun a b => a.before b) = cs.insertionSort ahead := by
  have hmap := List.map_insertionSort (fun a b : Candidate => a.before b = true) ahead id cs
    fun a ha b hb => before_iff (h a ha) (h b hb)
  rwa [List.map_id, List.map_id] at hmap

/-- No object is listed twice with one score. -/
def NoTies (cs : List Candidate) : Prop :=
  ∀ a ∈ cs, ∀ b ∈ cs, a.objectId = b.objectId → a.score = b.score → a = b

theorem insertionSort_eq_of_perm {cs cs' : List Candidate}
    (h : ∀ c ∈ cs, c.score.inUnit = true) (hties : NoTies cs) (hperm : cs'.Perm cs) :
    cs'.insertionSort (fun a b => a.before b) = cs.insertionSort (fun a b => a.before b) := by
  have h' : ∀ c ∈ cs', c.score.inUnit = true := fun c hc => h c (hperm.mem_iff.mp hc)
  rw [insertionSort_before h, insertionSort_before h']
  have hsorted : (cs'.insertionSort ahead).Perm (cs.insertionSort ahead) :=
    ((perm_insertionSort _ cs').trans hperm).trans (perm_insertionSort _ cs).symm
  refine hsorted.eq_of_pairwise (fun a b ha hb hab hba => ?_)
    (pairwise_insertionSort _ cs') (pairwise_insertionSort _ cs)
  have hmem : a ∈ cs := hperm.mem_iff.mp ((mem_insertionSort _).mp ha)
  have hmem' : b ∈ cs := (mem_insertionSort _).mp hb
  have hvalue : a.value = b.value ∧ a.objectId = b.objectId := by
    rcases hab with hab | ⟨hab, hid⟩
    · rcases hba with hba | ⟨hba, -⟩
      · exact absurd (hab.trans hba) (lt_irrefl _)
      · exact absurd (hab.trans_eq hba) (lt_irrefl _)
    · rcases hba with hba | ⟨-, hid'⟩
      · exact absurd (hba.trans_eq hab) (lt_irrefl _)
      · exact ⟨hab.symm, le_antisymm hid hid'⟩
  refine hties a hmem b hmem' hvalue.2 ?_
  rw [(finite_value (h a hmem)).1, (finite_value (h b hmem')).1, hvalue.1]

theorem margin_of_le {a b c : Candidate} {margin : PyFloat} (hmargin : margin.inUnit = true)
    (ha : a.score.inUnit = true) (hb : b.score.inUnit = true) (hc : c.score.inUnit = true)
    (hab : b.value ≤ a.value) (hbc : c.value ≤ b.value)
    (h : (a.score.sub b.score).lt margin = false) :
    margin.le (a.score.sub c.score) = true := by
  obtain ⟨m, rfl, -, -⟩ := inUnit_iff.mp hmargin
  rw [(finite_value ha).1, (finite_value hb).1] at h
  rw [(finite_value ha).1, (finite_value hc).1]
  exact round_reaches (by linarith) (by linarith) h

end Candidate

theorem decideReentry_cases (cs : List Candidate) :
    (decideReentry policy cs).candidates = cs.insertionSort (fun a b => a.before b) ∧
      ∀ c, (decideReentry policy cs).matched = some c →
        ∃ others, cs.insertionSort (fun a b => a.before b) = c :: others ∧
          ∀ second ∈ others.head?, (c.score.sub second.score).lt policy.ambiguityMargin = false := by
  unfold decideReentry
  split
  · rename_i heq
    exact ⟨heq.symm, fun c h => by cases h⟩
  · rename_i only heq
    refine ⟨heq.symm, fun c h => ⟨[], ?_, fun second hsecond => by cases hsecond⟩⟩
    rw [heq, some.inj h]
  · rename_i first second rest heq
    by_cases hmargin : (first.score.sub second.score).lt policy.ambiguityMargin = true
    · simp only [hmargin, if_true]
      exact ⟨heq.symm, fun c h => by cases h⟩
    · simp only [hmargin]
      refine ⟨heq.symm, fun c h => ⟨second :: rest, ?_, fun second' hsecond => ?_⟩⟩
      · rw [heq, some.inj h]
      · obtain rfl := some.inj hsecond
        rw [← some.inj h]
        simpa using hmargin

theorem decideReentry_leads {cs before after : List Candidate} {c : Candidate}
    (hunit : ∀ c ∈ cs, c.score.inUnit = true) (hcs : cs = before ++ c :: after)
    (hfirst : ∃ others, cs.insertionSort (fun a b => a.before b) = c :: others ∧
      ∀ second ∈ others.head?, (c.score.sub second.score).lt policy.ambiguityMargin = false)
    {other : Candidate} (hother : other ∈ before ++ after) :
    policy.ambiguityMargin.le (c.score.sub other.score) = true := by
  obtain ⟨others, hsort, hmargin⟩ := hfirst
  obtain ⟨-, hmarginUnit, -⟩ := postInit_eq_ok.mp policy.accepted
  have hsorted := pairwise_insertionSort ahead cs
  have hperm := perm_insertionSort ahead cs
  rw [← insertionSort_before hunit, hsort] at hsorted hperm
  have hothers : others.Perm (before ++ after) := by
    rw [hcs] at hperm
    exact (hperm.trans perm_middle).cons_inv
  have hmem : other ∈ others := hothers.mem_iff.mpr hother
  cases others with
  | nil => cases hmem
  | cons second rest =>
    have hall : ∀ c' ∈ c :: second :: rest, c'.score.inUnit = true :=
      fun c' hc' => hunit c' (hperm.mem_iff.mp hc')
    have hvalue : ∀ {a b : Candidate}, a.ahead b → b.value ≤ a.value := by
      rintro a b (h | ⟨h, -⟩)
      · exact h.le
      · exact h.le
    have hrest := pairwise_cons.mp hsorted
    have hbelow : other.value ≤ second.value := by
      rcases mem_cons.mp hmem with rfl | hlater
      · exact le_rfl
      · exact hvalue ((pairwise_cons.mp hrest.2).1 other hlater)
    exact margin_of_le hmarginUnit (hall c (by simp)) (hall second (by simp))
      (hall other (mem_cons_of_mem _ hmem)) (hvalue (hrest.1 second (by simp))) hbelow
      (hmargin second rfl)

/-! ## No guess -/

variable (hypot policy spatial classId now crossingEpoch)

/-- The decision is forced by the evidence. -/
structure Unguessed (records : List ObjectRecord) (d : BindingDecision) : Prop where
  /-- A match is eligible and leads every other eligible record by the margin. -/
  matched : ∀ c, d.matched = some c → ∃ before r after, records = before ++ r :: after ∧
    Eligible hypot policy spatial classId now crossingEpoch r c ∧
    ∀ other ∈ before ++ after, ∀ c',
      Eligible hypot policy spatial classId now crossingEpoch other c' →
        policy.ambiguityMargin.le (c.score.sub c'.score) = true
  /-- Without a match the candidates are the eligible records, each once. -/
  unmatched : d.matched = none → d.candidates.Perm
    (records.filterMap (candidateOf hypot policy spatial classId now crossingEpoch))
  eligible : ∀ r c, candidateOf hypot policy spatial classId now crossingEpoch r = some c ↔
    Eligible hypot policy spatial classId now crossingEpoch r c
  /-- The order of the records does not matter, if no two of them tie. -/
  stable : Candidate.NoTies
      (records.filterMap (candidateOf hypot policy spatial classId now crossingEpoch)) →
    ∀ records' : List ObjectRecord, records'.Perm records →
      bindReentry hypot policy spatial classId now crossingEpoch records' = .ok d

variable {hypot policy spatial classId now crossingEpoch}

/-- The binder decides without a guess, under every policy that allows some distance and a gap
    that is a float in milliseconds. -/
theorem bindReentry_unguessed (hhypot : ∀ x y, (hypot x y).lt (.finite 0) = false)
    (husable : policy.Usable)
    (records : List ObjectRecord) :
    ∃ d, bindReentry hypot policy spatial classId now crossingEpoch records = .ok d ∧
      Unguessed hypot policy spatial classId now crossingEpoch records d := by
  refine ⟨_, bindReentry_eq_decide hhypot husable records, ?_⟩
  generalize hfind : candidateOf hypot policy spatial classId now crossingEpoch = find
  have heligible : ∀ r c, find r = some c ↔
      Eligible hypot policy spatial classId now crossingEpoch r c := fun r c => by
    rw [← hfind]
    exact candidateOf_eq_some hhypot husable r c
  have hunit : ∀ c ∈ records.filterMap find, c.score.inUnit = true := by
    intro c hc
    obtain ⟨r, -, hr⟩ := mem_filterMap.mp hc
    exact ((heligible r c).mp hr).score_inUnit hhypot husable
  obtain ⟨hcandidates, hmatched⟩ := @decideReentry_cases policy (records.filterMap find)
  refine ⟨fun c hc => ?_, fun _ => ?_, by rw [hfind]; exact heligible, ?_⟩
  · have hfirst := hmatched c hc
    have hmem : c ∈ records.filterMap find := @decideReentry_mem policy _ _ (.inl hc)
    obtain ⟨r, hr, hrc⟩ := mem_filterMap.mp hmem
    obtain ⟨before, after, hsplit⟩ := append_of_mem hr
    have hcs : records.filterMap find = before.filterMap find ++ c :: after.filterMap find := by
      rw [hsplit, filterMap_append, filterMap_cons_some hrc]
    refine ⟨before, r, after, hsplit, (heligible r c).mp hrc, fun other hother c' hc' => ?_⟩
    refine decideReentry_leads hunit hcs hfirst ?_
    rw [← filterMap_append]
    exact mem_filterMap.mpr ⟨other, hother, (heligible other c').mpr hc'⟩
  · rw [hcandidates, hfind]
    exact perm_insertionSort _ _
  · intro hties records' hperm
    rw [hfind] at hties
    rw [bindReentry_eq_decide hhypot husable, hfind]
    congr 1
    unfold decideReentry
    rw [insertionSort_eq_of_perm hunit hties (hperm.filterMap find)]

end Reentry

def dormantRecord (classId : ClassId) (spatial : SpatialInfo) : ObjectRecord where
  objectId := "object"
  cameraId := "north"
  tenantId := "tenant"
  siteId := "site"
  lifecycle := .dormant
  classId
  distribution := 0
  spatial
  firstSeen := ⟨0⟩
  lastSeen := ⟨0⟩
  lastConfirmed := ⟨0⟩
  identityConfidence := .finite 1

theorem leftSpatial_accepted : SpatialFields.postInit
    { frameOfReference := .normalized, bbox := some leftBox } = .ok () := rfl

def leftSpatial : SpatialInfo := ⟨_, leftSpatial_accepted⟩

def rightSpatial : SpatialInfo :=
  { frameOfReference := .normalized, bbox := some rightBox, accepted := rfl }

/-- A person who left and a person who comes in on the same spot, after a second. -/
theorem bindReentry_unguessed_person :
    ∃ d, bindReentry axisHypot (streetWiring patientPolicy).binding leftSpatial "person"
        ⟨1000000000⟩ false [dormantRecord "person" leftSpatial] = .ok d ∧
      Unguessed axisHypot (streetWiring patientPolicy).binding leftSpatial "person" ⟨1000000000⟩
        false [dormantRecord "person" leftSpatial] d :=
  bindReentry_unguessed (streetWiring patientPolicy).hypot_nonneg (streetWiring_usable _) _

def lenientPolicy : BindingPolicyFields :=
  { maxReentryDistance := .finite 1, ambiguityMargin := .finite 0,
    minBindingConfidence := .finite 0 }

def matchedDistance (policy : BindingPolicyFields) (accepted : policy.postInit = .ok ())
    (now : Instant) (records : List ObjectRecord) : Option PyFloat :=
  ((bindReentry axisHypot ⟨policy, accepted⟩ leftSpatial "person" now false records).toOption.bind
    (·.matched)).map (·.distance)

/-- A policy without the class filter matches a vehicle; one that allows no distance divides by
    zero; one that allows any gap raises for a gap that is no float in milliseconds; and of two
    records under one id that tie, whichever comes first is matched. -/
theorem bindReentry_guesses :
    (matchedDistance { classMustMatch := false } (by decide +kernel) ⟨0⟩
        [dormantRecord "vehicle" leftSpatial]).isSome = true ∧
      classCompatible "vehicle" "person" = false ∧
      (bindReentry axisHypot ⟨{ maxReentryDistance := .finite 0 }, by decide +kernel⟩ leftSpatial
        "person" ⟨0⟩ false [dormantRecord "person" leftSpatial]).isOk = false ∧
      (bindReentry axisHypot ⟨{ maxReentryGap := ⟨2 * 10 ^ 315⟩ }, by decide +kernel⟩ leftSpatial
        "person" ⟨10 ^ 315⟩ false [dormantRecord "person" leftSpatial]).isOk = false ∧
      matchedDistance lenientPolicy (by decide +kernel) ⟨30000000000⟩
          [dormantRecord "person" leftSpatial, dormantRecord "person" rightSpatial] ≠
        matchedDistance lenientPolicy (by decide +kernel) ⟨30000000000⟩
          [dormantRecord "person" rightSpatial, dormantRecord "person" leftSpatial] := by
  decide +kernel

end VisionOs.Registry
