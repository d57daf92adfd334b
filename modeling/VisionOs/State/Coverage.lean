/-
  Historical coverage.  `coverage_report` subtracts the lengths of the gap windows among the first
  10 000 records of a camera's log; what the platform could see at an instant is the most recent
  status in force there.  The report is a double, and so is what it is held against.
-/
import VisionOs.Core.Rounding
import VisionOs.State.Rebuild
import VisionOs.Lib.Timeline

namespace VisionOs.Core.PyFloat

theorem half_le_observableOf {part whole : Int} (hpart : 0 ≤ part) (hwhole : 0 < whole) :
    (finite (1 / 2)).le (observableOf part whole) = true ↔ (part : ℚ) / whole ≤ pastHalf := by
  have hnonneg : (0 : ℚ) ≤ (part : ℚ) / whole :=
    div_nonneg (by exact_mod_cast hpart) (by exact_mod_cast hwhole.le)
  have hsub : ∀ y : ℚ, (finite 1).sub (finite y) = round (1 - y) := fun y => by
    rw [sub_eq_add_neg]
    rfl
  unfold observableOf ofRatio
  constructor
  · intro hseen
    by_contra hmore
    rw [not_le] at hmore
    have hnext := nextHalf_le_nearest hmore
    rw [round_of_pos (lt_trans (by decide +kernel) hmore)] at hseen
    split at hseen
    · exact absurd hseen (by decide +kernel)
    · rw [hsub, half_le_clamp (round_ne_nan _)] at hseen
      have hless := round_le (q := 1 - nearest ((part : ℚ) / whole)) (d := 1 / 2 - 1 / 2 ^ 53)
        (by norm_num) (by linarith) (by decide +kernel)
      exact absurd (le_trans hseen hless) (by decide +kernel)
  · intro hle
    obtain ⟨y, hy, hhalf⟩ : ∃ y : ℚ, round ((part : ℚ) / whole) = .finite y ∧ y ≤ 1 / 2 := by
      rcases hnonneg.eq_or_lt with hzero | hpos
      · exact ⟨0, by rw [← hzero]; rfl, by norm_num⟩
      · have hmono := nearest_mono hpos hle
        rw [show nearest pastHalf = 1 / 2 by decide +kernel] at hmono
        refine ⟨_, ?_, hmono⟩
        rw [round_of_pos hpos, if_neg (not_le.mpr (hmono.trans_lt (by decide +kernel)))]
    rw [hy, hsub, half_le_clamp (round_ne_nan _)]
    exact le_round (by norm_num) (by linarith) (by decide +kernel)

end VisionOs.Core.PyFloat

namespace VisionOs.State

open Core Lib Synthesis Timeline Finset Manager List Dedup Batch

def declaredWindow (o : Observation) : Option CoverageWindow :=
  if o.observationType = .coverage then o.coverage else none

def coverageLimit : Nat := 10000

def Manager.coverageWindows (m : Manager) (cameraId : CameraId) : List CoverageWindow :=
  ((m.cells cameraId).log.read 0 none coverageLimit).filterMap declaredWindow

def Manager.coverageReport (m : Manager) (cameraId : CameraId) (since untilInstant : Instant) :
    CoverageReport :=
  let windows := m.coverageWindows cameraId
  { observableFraction := coverageGap windows since untilInstant
    gaps := (windows.filter (·.isGap)).map
      fun w => (w.since, w.untilInstant.getD untilInstant, w.reason, cameraId)
    effectiveRate := (windows.getLast?.map (·.effectiveRate)).getD (.finite 1)
    fraction_inUnit := PyFloat.clamp_inUnit _ }

/-- Whether the status that a window superseded is in force again once that window ends. -/
inductive Superseded where
  | returns
  | lapses
  deriving DecidableEq

def stretchOf (w : CoverageWindow) : Stretch where
  start := w.since.ns
  stop := w.untilInstant.map (·.ns)

def HasSay (superseded : Superseded) (t : Int) (w : CoverageWindow) : Prop :=
  match superseded with
  | .returns => (stretchOf w).Covers t
  | .lapses => w.since.ns ≤ t

instance (superseded : Superseded) (t : Int) (w : CoverageWindow) :
    Decidable (HasSay superseded t w) := by
  unfold HasSay
  cases superseded <;> infer_instance

/-- The most recent window declares another status than observing at the instant. -/
def isBlindAt (superseded : Superseded) (windows : List CoverageWindow) (t : Int) : Bool :=
  match (windows.filter (HasSay superseded t ·)).getLast? with
  | some w => w.isGap && (stretchOf w).Covers t
  | none => false

variable {superseded : Superseded}

theorem exists_gap_of_isBlindAt {windows : List CoverageWindow}
    {t : Int} (h : isBlindAt superseded windows t = true) :
    ∃ w ∈ windows, w.isGap = true ∧ (stretchOf w).Covers t := by
  unfold isBlindAt at h
  split at h
  · rename_i w hw
    have hmem := mem_of_getLast? hw
    rw [Bool.and_eq_true, decide_eq_true_eq] at h
    exact ⟨w, (mem_filter.mp hmem).1, h⟩
  · cases h

theorem observing_before (superseded : Superseded) (windows : List CoverageWindow) :
    ∃ u, ∀ t < u, isBlindAt superseded windows t = false := by
  obtain ⟨u, hbefore⟩ : ∃ u : Int, ∀ w ∈ windows, u ≤ w.since.ns := by
    induction windows with
    | nil => exact ⟨0, fun w hw => by cases hw⟩
    | cons w rest ih =>
      obtain ⟨u, hrest⟩ := ih
      refine ⟨min u w.since.ns, fun w' hw' => ?_⟩
      rcases mem_cons.mp hw' with rfl | hw'
      · exact min_le_right _ _
      · exact (min_le_left _ _).trans (hrest w' hw')
  refine ⟨u, fun t ht => ?_⟩
  rw [Bool.eq_false_iff]
  intro hblind
  obtain ⟨w, hw, -, hcovers⟩ := exists_gap_of_isBlindAt hblind
  exact absurd hcovers.1 (not_le.mpr (ht.trans_le (hbefore w hw)))

noncomputable def blindTime (superseded : Superseded) (windows : List CoverageWindow)
    (since untilInstant : Instant) : Nat :=
  dueCount (isBlindAt superseded windows) (Ico since.ns untilInstant.ns)

/-- The fraction of a query during which the most recent status in force was observing; an
    empty query counts as observed. -/
noncomputable def observedFraction (superseded : Superseded) (windows : List CoverageWindow)
    (since untilInstant : Instant) : PyFloat :=
  observableOf (blindTime superseded windows since untilInstant)
    (max 1 (untilInstant.ns - since.ns))

def gapsAt (windows : List CoverageWindow) (t : Int) : Nat :=
  coverCount ((windows.filter (·.isGap)).map stretchOf) t

theorem foldl_addBlind (windows : List CoverageWindow) (since untilInstant : Instant)
    (blind : Int) :
    windows.foldl (addBlind since untilInstant) blind =
      blind + (((windows.filter (·.isGap)).map stretchOf).map
        (·.within since.ns untilInstant.ns)).sum := by
  induction windows generalizing blind with
  | nil => simp
  | cons w rest ih =>
    rw [foldl_cons, ih]
    unfold addBlind
    by_cases hgap : w.isGap = true
    · have hwithin : (stretchOf w).within since.ns untilInstant.ns =
          max 0 (min (w.untilInstant.getD untilInstant).ns untilInstant.ns -
            max w.since.ns since.ns) := by
        unfold stretchOf Stretch.within
        cases w.untilInstant <;> rfl
      rw [if_pos hgap, List.filter_cons_of_pos hgap, List.map_cons, List.map_cons,
        List.sum_cons, hwithin, add_assoc]
    · rw [if_neg hgap, filter_cons_of_neg hgap]

theorem coverageBlind_eq_sum (windows : List CoverageWindow) (since untilInstant : Instant) :
    coverageBlind windows since untilInstant =
      (∑ t ∈ Ico since.ns untilInstant.ns, gapsAt windows t : Nat) := by
  unfold coverageBlind
  rw [foldl_addBlind, zero_add, sum_within, Nat.cast_sum]
  rfl

/-! ## The report of a camera's history -/

variable {cameraId : CameraId}

theorem AppendOnly.append_log (config : StateSection) {cell : Cell}
    (h : AppendOnly cameraId cell) {batch : List Observation}
    (hcamera : ∀ o ∈ batch, o.cameraId = cameraId) :
    (cell.appendPartition config {} cameraId batch).2.log = (cell.log.append batch).1 := by
  rcases appendPartition_quiet config h.inv h.pending h.isOpen hcamera with
    ⟨-, message, seen, -, heq⟩ | ⟨-, result, -, heq⟩
  · rw [heq]
  · rw [heq]
    rfl

def recordedOf {cameraId : CameraId} (batches : List (Batch cameraId)) : List Observation :=
  fresh (·.observationId) [] (lists batches).flatten

theorem recorded_run (config : StateSection) (batches : List (Batch cameraId)) :
    AppendOnly cameraId ((afterAppends config batches).cells cameraId) ∧
    ((afterAppends config batches).cells cameraId).log.records = recordedOf batches := by
  unfold afterAppends
  induction batches using reverseRecOn with
  | nil => exact ⟨AppendOnly.empty cameraId, rfl⟩
  | append_singleton batches batch ih =>
    obtain ⟨honly, hrecords⟩ := ih
    have hflatten : (lists (batches ++ [batch])).flatten =
        (lists batches).flatten ++ batch.1 := by
      unfold lists
      simp
    rw [Runs.run_append, Runs.run_cons, Runs.run_nil]
    refine ⟨honly.appendStep config batch, ?_⟩
    unfold recordedOf at hrecords ⊢
    rw [hflatten, fresh_append, append_nil]
    by_cases hne : batch.1 = []
    · unfold appendStep at hrecords ⊢
      rw [hne]
      simpa [fresh, append] using hrecords
    rw [appendStep_cell config _ hne, honly.append_log config batch.2,
      LogPartition.append_records, hrecords]
    -- The log knows the ids delivered so far, each once.
    have hids : ∀ id, id ∈ ((Runs.run (appendStep config cameraId) .new
        batches).cells cameraId).log.ids ↔
        id ∈ (lists batches).flatten.map (·.observationId) := by
      intro id
      rw [LogPartition.mem_ids, hrecords, mem_map_fresh]
      simp
    rw [fresh_congr hids]

/-- The windows a camera's history declares, and those of them that the report reads. -/
def declaredIn {cameraId : CameraId} (batches : List (Batch cameraId)) : List CoverageWindow :=
  (recordedOf batches).filterMap declaredWindow

def readIn {cameraId : CameraId} (batches : List (Batch cameraId)) : List CoverageWindow :=
  ((recordedOf batches).take coverageLimit).filterMap declaredWindow

theorem coverageWindows_afterAppends (config : StateSection) (batches : List (Batch cameraId)) :
    (afterAppends config batches).coverageWindows cameraId = readIn batches := by
  unfold coverageWindows readIn
  rw [LogPartition.read_prefix, (recorded_run config batches).2]

/-- After a run of appends, the report of a query gives the fraction during which the most
    recent status in force was observing. -/
def ReportsObserved (config : StateSection) {cameraId : CameraId}
    (batches : List (Batch cameraId)) (superseded : Superseded)
    (since untilInstant : Instant) : Prop :=
  ((afterAppends config batches).coverageReport cameraId since
      untilInstant).observableFraction =
    observedFraction superseded (declaredIn batches) since untilInstant

theorem reportsObserved_iff (config : StateSection)
    (batches : List (Batch cameraId)) (superseded : Superseded) (since untilInstant : Instant) :
    ReportsObserved config batches superseded since untilInstant ↔
      observableOf (∑ t ∈ Ico since.ns untilInstant.ns, gapsAt (readIn batches) t : Nat)
          (max 1 (untilInstant.ns - since.ns)) =
        observedFraction superseded (declaredIn batches) since untilInstant := by
  rw [← coverageBlind_eq_sum, ← coverageWindows_afterAppends config batches]
  rfl

/-- One gap window that the report reads covers the instant if it is blind, and none if it is
    not. -/
def CountedOnce (batches : List (Batch cameraId)) (superseded : Superseded) (t : Int) : Prop :=
  gapsAt (readIn batches) t = (isBlindAt superseded (declaredIn batches) t).toNat

variable {config : StateSection} {batches : List (Batch cameraId)}

theorem reportsObserved_of_countedOnce
    {since untilInstant : Instant}
    (h : ∀ t ∈ Ico since.ns untilInstant.ns, CountedOnce batches superseded t) :
    ReportsObserved config batches superseded since untilInstant := by
  rw [reportsObserved_iff, sum_congr rfl h]
  rfl

theorem countedOnce_of_reportsObserved
    (h : ∀ since untilInstant, ReportsObserved config batches superseded since untilInstant)
    (t : Int) : CountedOnce batches superseded t := by
  have hcounts : ∀ a b, observableOf (∑ t ∈ Ico a b, gapsAt (readIn batches) t : Nat)
      (max 1 (b - a)) = observableOf
        (dueCount (isBlindAt superseded (declaredIn batches)) (Ico a b) : Nat) (max 1 (b - a)) :=
    fun a b => (reportsObserved_iff config batches superseded ⟨a⟩ ⟨b⟩).mp (h ⟨a⟩ ⟨b⟩)
  -- a query of one instant misses nothing
  have hcounted : ∀ s, (isBlindAt superseded (declaredIn batches) s).toNat ≤
      gapsAt (readIn batches) s := by
    intro s
    have hone := hcounts s (s + 1)
    have hsingle : Ico s (s + 1) = {s} := by
      ext u
      rw [mem_Ico, Finset.mem_singleton]
      omega
    unfold dueCount at hone
    rw [hsingle, Finset.sum_singleton, Finset.sum_singleton, show max 1 (s + 1 - s) = 1 by omega] at hone
    cases hblind : isBlindAt superseded (declaredIn batches) s with
    | false => exact Nat.zero_le _
    | true =>
      by_contra hnone
      rw [hblind, Nat.lt_one_iff.mp (not_le.mp hnone)] at hone
      exact absurd hone (by decide +kernel)
  by_contra hnot
  have hoften := lt_of_le_of_ne (hcounted t) (Ne.symm hnot)
  -- some query counts blind instants past the middle of two doubles, and the blind ones are not
  obtain ⟨n, hpos, hfew, hmany⟩ := exists_parting (observing_before superseded _) hcounted hoften
    (c := PyFloat.pastHalf) (by decide +kernel) (by decide +kernel)
  have hsame := hcounts (t + 1 - n) (t + 1)
  rw [show max 1 (t + 1 - (t + 1 - n)) = (n : Int) by omega] at hsame
  have hn : (0 : Int) < n := by exact_mod_cast hpos
  have hlength : (0 : ℚ) < ((n : Int) : ℚ) := by exact_mod_cast hpos
  have hseen := (PyFloat.half_le_observableOf (Int.natCast_nonneg (dueCount
    (isBlindAt superseded (declaredIn batches)) (Ico (t + 1 - n) (t + 1)))) hn).mpr (by
      rw [div_le_iff₀ hlength]
      exact_mod_cast hfew)
  rw [← hsame, PyFloat.half_le_observableOf (Int.natCast_nonneg _) hn, div_le_iff₀ hlength]
    at hseen
  exact absurd hmany (not_lt.mpr (by exact_mod_cast hseen))

/-- After any run of appends to a camera: every query is answered right if and only if at every
    instant one gap window covers it when it is blind and none when it is not; and a query is if
    that holds of its own instants. -/
theorem coverage_report_right_iff (config : StateSection) {cameraId : CameraId}
    (batches : List (Batch cameraId)) (superseded : Superseded) :
    ((∀ since untilInstant, ReportsObserved config batches superseded since untilInstant) ↔
      ∀ t, CountedOnce batches superseded t) ∧
    ∀ since untilInstant : Instant,
      (∀ t ∈ Ico since.ns untilInstant.ns, CountedOnce batches superseded t) →
        ReportsObserved config batches superseded since untilInstant :=
  ⟨⟨countedOnce_of_reportsObserved,
    fun h _ _ => reportsObserved_of_countedOnce fun t _ => h t⟩,
    fun _ _ => reportsObserved_of_countedOnce⟩

def northSees : Observation :=
  { northBlind with
    observationId := "observation-2"
    coverage := some {
      status := .observing, reason := .normal, since := ⟨5⟩
      accepted := CoverageFields.postInit_eq_ok.mpr ⟨PyFloat.one_inUnit, by simp⟩ }
    accepted := ObservationFields.postInit_eq_ok.mpr
      ⟨by decide, rfl, le_refl 0, by constructor <;> simp [northBlind, blindnessReport],
        by simp [northBlind, blindnessReport], by simp [northBlind, blindnessReport]⟩ }

/-- The blindness and the recovery, each appended on its own. -/
def blindThenSees : List (Batch "north") :=
  [⟨[northBlind], by simp [northBlind, blindnessReport]⟩, ⟨[northSees], by decide +kernel⟩]

/-- The report still calls the whole query blind, half of which the camera saw. -/
theorem recovery_is_not_reported :
    ¬ ReportsObserved .defaults blindThenSees .returns ⟨0⟩ ⟨10⟩ ∧
    ¬ ReportsObserved .defaults blindThenSees .lapses ⟨0⟩ ⟨10⟩ := by
  unfold ReportsObserved
  decide +kernel

end VisionOs.State
