/-
  Objects that were saved and reloaded, beside the same objects in a registry that went on.  A
  record is rebuilt from what was published of it: its histories are bounded by their present
  length, and its class evidence is what the retained history adds up to.
-/
import VisionOs.Core.Rounding
import VisionOs.Registry.ObjectStores
import VisionOs.Registry.Splitting

namespace VisionOs.Registry

open Core Lib PyFloat List Option OrderedDict RegistryPartition ClassDistribution BoundedDeque
open ObjectRegistry
open FileObjectStore
open VisualObjectFields
open Bool
open SpatialFields

/-! ## Class evidence -/

/-- The smallest positive double. -/
def tiny : ℚ := pow2 (-1074)

/-- A sum of scores: no double is between zero and the smallest. -/
def IsWeight (w : PyFloat) : Prop := w = .posInf ∨ ∃ q, w = .finite q ∧ (q = 0 ∨ tiny ≤ q)

def positive (w : PyFloat) : Bool := (finite 0).lt w

theorem tiny_pos : 0 < tiny := pow2_pos _

theorem isWeight_zero : IsWeight (.finite 0) := .inr ⟨0, rfl, .inl rfl⟩

theorem isWeight_round {q : ℚ} (h : 0 ≤ q) : IsWeight (round q) := by
  rcases h.eq_or_lt with rfl | hpos
  · exact isWeight_zero
  rw [round_of_pos hpos]
  split
  · exact .inl rfl
  refine .inr ⟨_, rfl, ?_⟩
  have hstep := pow2_pos (ulpOf q)
  rcases (roundHalfEven_nonneg (div_nonneg h hstep.le)).eq_or_lt with hzero | hone
  · refine .inl ?_
    unfold nearest
    rw [← hzero]
    simp
  · -- No step is finer than the smallest double.
    have hulp : tiny ≤ pow2 (ulpOf q) := by
      unfold tiny
      rw [pow2_eq_zpow, pow2_eq_zpow]
      exact zpow_le_zpow_right₀ one_le_two (le_max_right _ _)
    have hk : (1 : ℚ) ≤ roundHalfEven (q / pow2 (ulpOf q)) := by exact_mod_cast hone
    exact .inr (hulp.trans (le_mul_of_one_le_left hstep.le hk))

theorem positive_round {q : ℚ} (h : tiny ≤ q) : positive (round q) = true := by
  have hreach : (finite tiny).le (round q) = true :=
    round_reaches tiny_pos.le h (by decide +kernel)
  revert hreach
  cases PyFloat.round q with
  | finite r =>
    intro hreach
    have hr : tiny ≤ r := by simpa [le, lt, eq, ← le_iff_lt_or_eq] using hreach
    exact decide_eq_true (tiny_pos.trans_le hr)
  | posInf => exact fun _ => rfl
  | negInf => exact fun h => h
  | nan => exact fun h => h

namespace IsWeight

variable {v w : PyFloat}

theorem add_score (h : IsWeight w) {q : ℚ} (hq : 0 ≤ q) : IsWeight (w.add (finite q)) := by
  rcases h with rfl | ⟨p, rfl, hp⟩
  · exact .inl rfl
  · refine isWeight_round (add_nonneg ?_ hq)
    rcases hp with rfl | hp
    · exact le_rfl
    · exact tiny_pos.le.trans hp

theorem add (hv : IsWeight v) (hw : IsWeight w) : IsWeight (v.add w) := by
  rcases hw with rfl | ⟨q, rfl, hq⟩
  · rcases hv with rfl | ⟨p, rfl, -⟩ <;> exact .inl rfl
  · refine hv.add_score ?_
    rcases hq with rfl | hq
    · exact le_rfl
    · exact tiny_pos.le.trans hq

theorem positive_add (hv : IsWeight v) (hw : IsWeight w) :
    positive (v.add w) = (positive v || positive w) := by
  have hpos : ∀ {q}, tiny ≤ q → positive (finite q) = true := fun h =>
    decide_eq_true (tiny_pos.trans_le h)
  rcases hv with rfl | ⟨p, rfl, rfl | hp⟩ <;> rcases hw with rfl | ⟨q, rfl, rfl | hq⟩
  · rfl
  · rfl
  · rfl
  · rfl
  · decide +kernel
  · rw [hpos hq, Bool.or_true]
    exact positive_round (by rw [zero_add]; exact hq)
  · exact (Bool.or_true _).symm
  · rw [hpos hp]
    exact positive_round (by rw [add_zero]; exact hp)
  · rw [hpos hp]
    exact positive_round (hp.trans (le_add_of_nonneg_right (tiny_pos.le.trans hq)))

theorem foldl_add {ws : List PyFloat} (hw : IsWeight w) (hws : ∀ v ∈ ws, IsWeight v) :
    IsWeight (ws.foldl PyFloat.add w) ∧
      positive (ws.foldl PyFloat.add w) = (positive w || ws.any positive) := by
  induction ws generalizing w with
  | nil => exact ⟨hw, (Bool.or_false _).symm⟩
  | cons v rest ih =>
    obtain ⟨hv, hrest⟩ := forall_mem_cons.mp hws
    obtain ⟨hsum, hpos⟩ := ih (hw.add hv) hrest
    refine ⟨hsum, ?_⟩
    rw [foldl_cons, hpos, hw.positive_add hv, any_cons, Bool.or_assoc]

theorem le_zero (h : IsWeight w) : w.le (finite 0) = !positive w := by
  rcases h with rfl | ⟨q, rfl, rfl | hq⟩
  · rfl
  · rfl
  · have hpos := tiny_pos.trans_le hq
    have hno : ¬ q < 0 ∧ q ≠ 0 := ⟨not_lt.mpr hpos.le, hpos.ne'⟩
    simp [positive, le, lt, eq, hpos, hno.1, hno.2]

end IsWeight

namespace ClassDistribution

variable {d d' : ClassDistribution}

def heavier (d : ClassDistribution) (b c : ClassId) : ClassId :=
  if (d.weight b).lt (d.weight c) then c else b

def matters (d : ClassDistribution) (c : ClassId) : Bool := positive (d.weight c)

/-- The classes that there is evidence of, by id. -/
def seen (d : ClassDistribution) : List ClassId :=
  (d.weights.keys.insertionSort (· ≤ ·)).filter d.matters

def heaviest (d : ClassDistribution) : List ClassId → Option ClassId
  | [] => none
  | first :: rest => some (rest.foldl d.heavier first)

variable {c : ClassId}

theorem weight_of_not_matters (h : ∀ c, IsWeight (d.weight c))
    (hc : d.matters c = false) : d.weight c = .finite 0 := by
  unfold matters at hc
  rcases h c with hinf | ⟨q, hq, rfl | htiny⟩
  · rw [hinf] at hc
    cases hc
  · exact hq
  · rw [hq] at hc
    exact absurd (tiny_pos.trans_le htiny) (of_decide_eq_false hc)

theorem foldl_heavier (h : ∀ c, IsWeight (d.weight c)) (classes : List ClassId) (b : ClassId) :
    classes.foldl d.heavier b =
      if d.matters b = true then
        (classes.filter d.matters).foldl d.heavier b
      else (d.heaviest (classes.filter d.matters)).getD b := by
  induction classes generalizing b with
  | nil => simp [heaviest]
  | cons c rest ih =>
    rw [foldl_cons, ih]
    by_cases hc : d.matters c = true
    · rw [filter_cons_of_pos hc]
      by_cases hb : d.matters b = true
      · have hnext : d.matters (d.heavier b c) = true := by
          unfold heavier
          split
          · exact hc
          · exact hb
        rw [if_pos hb, if_pos hnext, foldl_cons]
      · have hnext : d.heavier b c = c := by
          unfold heavier
          rw [weight_of_not_matters h (eq_false_iff.mpr hb)]
          exact if_pos hc
        rw [if_neg hb, hnext, if_pos hc]
        rfl
    · rw [filter_cons_of_neg hc]
      have hnext : d.heavier b c = b := by
        have hnot : ¬ (d.weight b).lt (.finite 0) = true := by
          rcases h b with hb | ⟨q, hb, rfl | htiny⟩ <;> rw [hb]
          · exact false_ne_true
          · decide
          · exact fun hlt => absurd (of_decide_eq_true hlt) (not_lt.mpr (tiny_pos.le.trans htiny))
        unfold heavier
        rw [weight_of_not_matters h (eq_false_iff.mpr hc)]
        exact if_neg hnot
      rw [hnext]

theorem get?_of_matters (h : d.matters c = true) : d.weights.get? c = some (d.weight c) := by
  unfold matters weight at *
  cases hget : d.weights.get? c with
  | some v => rfl
  | none =>
    rw [hget] at h
    cases h

theorem mem_seen : c ∈ d.seen ↔ d.matters c = true := by
  unfold seen
  rw [mem_filter, mem_insertionSort, and_iff_right_iff_imp]
  exact fun h => mem_keys_iff.mpr ⟨_, get?_of_matters h⟩

theorem best_eq (h : ∀ c, IsWeight (d.weight c)) : d.best = d.heaviest d.seen := by
  have hvalue : ∀ v ∈ d.weights.values, ∃ c, d.weight c = v := by
    intro v hv
    obtain ⟨c, hc⟩ := mem_values.mp hv
    refine ⟨c, ?_⟩
    unfold weight
    rw [hc]
    rfl
  obtain ⟨htotal, hpositive⟩ := IsWeight.foldl_add isWeight_zero
    (fun v hv => (hvalue v hv).elim fun c hc => hc ▸ h c)
  unfold best
  dsimp only
  rw [htotal.le_zero, hpositive]
  by_cases hany : d.weights.values.any positive = true
  · obtain ⟨v, hv, hpos⟩ := any_eq_true.mp hany
    obtain ⟨c, rfl⟩ := hvalue v hv
    have hseen : d.seen ≠ [] := ne_nil_of_mem (mem_seen.mpr hpos)
    rw [hany, if_neg (by simp)]
    unfold seen at hseen ⊢
    cases hkeys : d.weights.keys.insertionSort (· ≤ ·) with
    | nil =>
      rw [hkeys] at hseen
      exact absurd rfl hseen
    | cons first rest =>
      rw [hkeys] at hseen
      have hfold := foldl_heavier h rest first
      show some (rest.foldl d.heavier first) = _
      by_cases hfirst : d.matters first = true
      · rw [hfold, if_pos hfirst, filter_cons_of_pos hfirst]
        rfl
      · rw [filter_cons_of_neg hfirst] at hseen ⊢
        rw [hfold, if_neg hfirst]
        cases hrest : rest.filter d.matters with
        | nil => exact absurd hrest hseen
        | cons c rest => rfl
  · have hseen : d.seen = [] := by
      refine eq_nil_iff_forall_not_mem.mpr fun c hc => hany ?_
      have hpos := mem_seen.mp hc
      exact any_eq_true.mpr
        ⟨_, mem_values.mpr ⟨c, get?_of_matters hpos⟩, hpos⟩
    rw [eq_false_iff.mpr hany, hseen]
    rfl

theorem seen_congr (h : ∀ c, d.weight c = d'.weight c) : d.seen = d'.seen := by
  have hsorted : ∀ d : ClassDistribution, d.seen.Pairwise (· ≤ ·) := fun d =>
    (pairwise_insertionSort _ _).filter _
  have hnodup : ∀ d : ClassDistribution, d.seen.Nodup := fun d =>
    ((perm_insertionSort _ _).nodup_iff.mpr d.weights.nodupKeys).filter _
  refine List.Perm.eq_of_pairwise (fun _ _ _ _ => le_antisymm) (hsorted d) (hsorted d')
    ((perm_ext_iff_of_nodup (hnodup d) (hnodup d')).mpr fun c => ?_)
  rw [mem_seen, mem_seen]
  unfold matters
  rw [h]

theorem best_congr (h : ∀ c, d.weight c = d'.weight c) (hweights : ∀ c, IsWeight (d.weight c)) :
    d.best = d'.best := by
  have hheavier : d.heavier = d'.heavier := by
    funext b c
    unfold heavier
    rw [h, h]
  rw [best_eq hweights, best_eq fun c => h c ▸ hweights c, seen_congr h]
  unfold heaviest
  rw [hheavier]

theorem weight_observe (d : ClassDistribution) (classId c : ClassId) (confidence : PyFloat) :
    (d.observe classId confidence).weight c =
      if classId = c then (d.weight classId).add ((PyFloat.finite 0).pyMax confidence)
      else d.weight c := by
  show ((d.weights.set classId _).get? c).getD _ = _
  rw [get?_set]
  split <;> rfl

theorem isWeight_observe (hweights : ∀ c, IsWeight (d.weight c)) (classId : ClassId)
    (confidence : Confidence) (c : ClassId) :
    IsWeight ((d.observe classId confidence.value).weight c) := by
  rw [weight_observe]
  split
  · obtain ⟨q, hq, h0, -⟩ := inUnit_iff.mp (zero_max_inUnit confidence.value_inUnit)
    rw [hq]
    exact (hweights classId).add_score h0
  · exact hweights c

theorem isWeight_ofHistory (history : List ClassObservation) (c : ClassId) :
    IsWeight ((ofHistory history).weight c) := by
  unfold ofHistory
  induction history using List.reverseRecOn generalizing c with
  | nil => exact isWeight_zero
  | append_singleton history o ih =>
    rw [foldl_concat]
    exact isWeight_observe ih o.classId o.confidence c

end ClassDistribution

/-! ## Sightings -/

namespace RegistryPartition

abbrev Sightings := List (ObjectId × Sighting × Instant)

def observeAll (p : RegistryPartition) (sightings : Sightings) : RegistryPartition :=
  sightings.foldl (fun p x => p.observe x.1 (some x.2.1) x.2.2) p

/-- No two records share class evidence. -/
def Unshared (p : RegistryPartition) : Prop :=
  ∀ id id' r r', p.recordFor id = some r → p.recordFor id' = some r' →
    r.distribution = r'.distribution → id = id'

/-- Two records that publish the same and will go on doing so. -/
structure Alike (p q : RegistryPartition) (r r' : ObjectRecord) : Prop where
  classId : r.classId = r'.classId
  classHistory : r.classHistory = r'.classHistory
  spatialHistory : r.spatialHistory = r'.spatialHistory
  weights : ∀ c, (p.evidence r).weight c = (q.evidence r').weight c
  isWeight : ∀ c, IsWeight ((p.evidence r).weight c)

/-- Two partitions whose records are alike, id by id. -/
structure Mirrors (p q : RegistryPartition) : Prop where
  referenced : p.Referenced ∧ q.Referenced
  unshared : p.Unshared ∧ q.Unshared
  present : ∀ id, p.recordFor id = none ↔ q.recordFor id = none
  alike : ∀ id r r', p.recordFor id = some r → q.recordFor id = some r' → Alike p q r r'

variable {p q : RegistryPartition} {id : ObjectId} {r : ObjectRecord} {s : Sighting}
  {now : Instant}

theorem observe_of_none (h : p.recordFor id = none) (sighting : Option Sighting) :
    p.observe id sighting now = p := by
  have hupdate : ∀ f hf, p.update id f hf = p := by
    intro f hf
    have htable : p.table.modify id f = p.table :=
      modify_eq_self fun r hr => (by cases h.symm.trans hr)
    unfold update
    congr
  unfold observe
  rw [h]
  cases sighting <;> exact hupdate _ _

theorem recordFor_sighting (hr : p.recordFor id = some r) (k : ObjectId) :
    (p.observe id (some s) now).recordFor k =
      if id = k then
        some (r.seen s now ((p.evidence r).observe s.classId s.confidence.value).best)
      else p.recordFor k := by
  by_cases hk : id = k
  · rw [if_pos hk, ← hk]
    unfold observe
    rw [hr]
    exact recordFor_update_self hr
  · rw [if_neg hk]
    exact (recordFor_observe hr (some s) now).2 k (Ne.symm hk)

theorem evidence_sighting (href : p.Referenced) (hr : p.recordFor id = some r)
    (r' : ObjectRecord) :
    (p.observe id (some s) now).evidence r' =
      if r.distribution = r'.distribution then
        (p.evidence r).observe s.classId s.confidence.value
      else p.evidence r' := by
  unfold observe
  rw [hr]
  show (p.distributions.set r.distribution _).getD r'.distribution {} = _
  rw [getD_eq_getElem?_getD, getElem?_set]
  split
  · rw [if_pos (href id r hr)]
    rfl
  · rw [← getD_eq_getElem?_getD]
    rfl

theorem Unshared.observe (h : p.Unshared) (hr : p.recordFor id = some r) :
    (p.observe id (some s) now).Unshared := by
  have hkept : ∀ k r', (p.observe id (some s) now).recordFor k = some r' →
      ∃ r₀, p.recordFor k = some r₀ ∧ r₀.distribution = r'.distribution := by
    intro k r' hr'
    rw [recordFor_sighting hr] at hr'
    split at hr'
    · rename_i hk
      rw [← some.inj hr']
      exact ⟨r, hk ▸ hr, rfl⟩
    · exact ⟨r', hr', rfl⟩
  intro k k' r₁ r₂ hr₁ hr₂ hsame
  obtain ⟨r₁', hr₁', h₁⟩ := hkept k r₁ hr₁
  obtain ⟨r₂', hr₂', h₂⟩ := hkept k' r₂ hr₂
  exact h k k' r₁' r₂' hr₁' hr₂' (by rw [h₁, h₂, hsame])

theorem Mirrors.observe (h : Mirrors p q) (id : ObjectId) (s : Sighting) (now : Instant) :
    Mirrors (p.observe id (some s) now) (q.observe id (some s) now) := by
  cases hr : p.recordFor id with
  | none =>
    rw [observe_of_none hr, observe_of_none ((h.present id).mp hr)]
    exact h
  | some r =>
    obtain ⟨r', hr'⟩ : ∃ r', q.recordFor id = some r' := by
      by_contra hnone
      have habsent := (h.present id).mpr
        (eq_none_iff_forall_ne_some.mpr fun r' hr' => hnone ⟨r', hr'⟩)
      cases hr.symm.trans habsent
    have hlike := h.alike id r r' hr hr'
    have hweights : ∀ c, ((p.evidence r).observe s.classId s.confidence.value).weight c =
        ((q.evidence r').observe s.classId s.confidence.value).weight c := by
      intro c
      rw [weight_observe, weight_observe, hlike.weights,
        hlike.weights]
    have hisWeight := isWeight_observe hlike.isWeight s.classId s.confidence
    -- the same measurement weighs the same on evidence of the same weights
    refine ⟨⟨h.referenced.1.observe id _ now, h.referenced.2.observe id _ now⟩,
      ⟨h.unshared.1.observe hr, h.unshared.2.observe hr'⟩, fun k => ?_, fun k r₁ r₁' h₁ h₁' => ?_⟩
    · rw [recordFor_sighting hr, recordFor_sighting hr']
      split
      · simp
      · exact h.present k
    · rw [recordFor_sighting hr] at h₁
      rw [recordFor_sighting hr'] at h₁'
      by_cases hk : id = k
      · -- The object that was seen.
        rw [if_pos hk] at h₁ h₁'
        have hevidence : (p.observe id (some s) now).evidence r₁ = _ :=
          (evidence_sighting h.referenced.1 hr r₁).trans
            (if_pos (congrArg (·.distribution) (some.inj h₁)))
        have hevidence' : (q.observe id (some s) now).evidence r₁' = _ :=
          (evidence_sighting h.referenced.2 hr' r₁').trans
            (if_pos (congrArg (·.distribution) (some.inj h₁')))
        rw [← some.inj h₁] at hevidence ⊢
        rw [← some.inj h₁'] at hevidence' ⊢
        refine ⟨?_, ?_, ?_, ?_, ?_⟩
        · show (best _).getD _ = (best _).getD _
          rw [best_congr hweights hisWeight, hlike.classId]
        · show r.classHistory.push _ = r'.classHistory.push _
          rw [hlike.classHistory]
        · show r.spatialHistory.push _ = r'.spatialHistory.push _
          rw [hlike.spatialHistory]
        · rw [hevidence, hevidence']
          exact hweights
        · rw [hevidence]
          exact hisWeight
      · -- The evidence of the others is their own.
        rw [if_neg hk] at h₁ h₁'
        have hother := h.alike k r₁ r₁' h₁ h₁'
        have hevidence : (p.observe id (some s) now).evidence r₁ = p.evidence r₁ := by
          rw [evidence_sighting h.referenced.1 hr]
          exact if_neg fun hsame => hk (h.unshared.1 id k r r₁ hr h₁ hsame)
        have hevidence' : (q.observe id (some s) now).evidence r₁' = q.evidence r₁' := by
          rw [evidence_sighting h.referenced.2 hr']
          exact if_neg fun hsame => hk (h.unshared.2 id k r' r₁' hr' h₁' hsame)
        refine ⟨hother.classId, hother.classHistory, hother.spatialHistory, ?_, ?_⟩
        · rw [hevidence, hevidence']
          exact hother.weights
        · rw [hevidence]
          exact hother.isWeight

theorem Mirrors.observeAll (h : Mirrors p q) (sightings : Sightings) :
    Mirrors (p.observeAll sightings) (q.observeAll sightings) := by
  induction sightings generalizing p q with
  | nil => exact h
  | cons x rest ih => exact ih (h.observe x.1 x.2.1 x.2.2)

end RegistryPartition

open Core Synthesis Lib Effect

open RegistryPartition (Mirrors Alike Sightings)

/-! ## Reloading -/

variable {table : AlnumTable} {wiring : RegistryWiring} {store : FileObjectStore}
  {p q q' : RegistryPartition} {r : ObjectRecord} {shot : StoredSnapshot} {takenAt : Instant}
  {o o' : VisualObject} {rest objects : List VisualObject} {w : Work}

/-- What somebody who reads an object sees of its class and its past. -/
def published (p : RegistryPartition) (id : ObjectId) :
    Option (ClassId × List ClassObservation × List (Instant × SpatialInfo)) :=
  (p.recordFor id).map fun r => (r.classId, r.classHistory.items, r.spatialHistory.items)

def reloaded (table : AlnumTable) (wiring : RegistryWiring) (store : FileObjectStore)
    (shot : StoredSnapshot) : Option RegistryPartition :=
  match (store.save table shot none).2.load table shot.cameraId with
  | .ok (some loaded) =>
    match restore wiring loaded.toPartitionSnapshot {} with
    | (.ok _, registry) => some (registry.partitionOf wiring shot.cameraId)
    | (.error _, _) => none
  | _ => none

/-- Reloaded from a snapshot, the objects of a partition look the same after any further
    sightings. -/
def BehavesReloaded (table : AlnumTable) (wiring : RegistryWiring) (store : FileObjectStore)
    (p : RegistryPartition) (shot : StoredSnapshot) : Prop :=
  ∃ q, reloaded table wiring store shot = some q ∧ ∀ sightings id,
    published (p.observeAll sightings) id = published (q.observeAll sightings) id

/-- A record that loses nothing that decides its future: its bindings can be closed, its
    histories are full, the document holds all of them, and its evidence is what the retained
    history adds up to. -/
structure Reloadable (p : RegistryPartition) (takenAt : Instant) (r : ObjectRecord) : Prop where
  timely : ∀ b ∈ r.bindings, TrackBinding.isOpen b = true → b.boundFrom.ns ≤ takenAt.ns
  mergedInto : r.mergedInto ≠ some ""
  spatial : r.spatial.frameOfReference ≠ .normalized → r.spatial.calibrationId ≠ some ""
  classFull : r.classHistory.bound = max r.classHistory.items.length 1
  spatialFull : r.spatialHistory.bound = max r.spatialHistory.items.length 1
  classes : ∀ c ∈ r.classHistory.items, Uncalibrated .classification c.confidence
  positions : ∀ e ∈ r.spatialHistory.items, InImage e.2
  evidence : ∃ d, p.distributions[r.distribution]? = some d ∧
    ∀ c, d.weight c = (ofHistory r.classHistory.items).weight c

structure SavedAs (r : ObjectRecord) (o : VisualObject) : Prop where
  objectId : o.objectId = r.objectId
  classId : o.classId = r.classId
  classHistory : o.classHistory = r.classHistory.items
  spatialHistory : o.spatialHistory = r.spatialHistory.items
  trackBindings : o.trackBindings = r.bindings.map readBinding

theorem readSpatial_returns {s : SpatialInfo}
    (h : s.frameOfReference ≠ .normalized → s.calibrationId ≠ some "") :
    ∃ s', readSpatial s = .ok s' := by
  refine ⟨_, constructWith_eq_ok (postInit_eq_ok.mpr ⟨fun hframe => ?_, by simp⟩)⟩
  rw [emptyToNone_eq_self.mpr (h hframe)]
  exact (postInit_eq_ok.mp s.accepted).1 hframe

theorem savedAs_of_read (h : Reloadable p takenAt r) (hproject : p.project r = .ok o) :
    ∃ o', readObject o = .ok o' ∧ SavedAs r o' := by
  obtain ⟨c, -, hconstruct⟩ := bind_eq_ok.mp hproject
  have hfields := construct_eq_ok.mp hconstruct
  have hmerged : o.mergedInto = r.mergedInto := (congrArg (·.mergedInto) hfields).symm
  have hspatial : o.currentSpatial = r.spatial := (congrArg (·.currentSpatial) hfields).symm
  have hpast : o.spatialHistory = r.spatialHistory.items :=
    (congrArg (·.spatialHistory) hfields).symm
  have hclasses : o.classHistory = r.classHistory.items := (congrArg (·.classHistory) hfields).symm
  obtain ⟨s', hs'⟩ := readSpatial_returns (s := o.currentSpatial) (by rw [hspatial]; exact h.spatial)
  have haccepted := postInit_eq_ok.mp o.accepted
  have hkept := emptyToNone_eq_self.mpr (hmerged ▸ h.mergedInto)
  unfold readObject
  rw [hs', ok_bind, mapM_eq_self.mpr fun e he => readSample_eq_self.mpr
    (h.positions e (hpast ▸ he)), ok_bind, hkept]
  refine ⟨_, constructWith_eq_ok ?_, (congrArg (·.objectId) hfields).symm,
    (congrArg (·.classId) hfields).symm, ?_, hpast, ?_⟩
  · exact postInit_eq_ok.mpr ⟨rfl, haccepted.2⟩
  · rw [hclasses]
    exact map_eq_self.mpr fun c hc => readClassObservation_eq_self.mpr (h.classes c hc)
  · have hbindings : r.bindings = o.trackBindings := congrArg (·.trackBindings) hfields
    rw [hbindings]

/-! ## Restoring -/

theorem ofList_full {α : Type} {d : BoundedDeque α} (h : d.bound = max d.items.length 1) :
    ofList (max d.items.length 1) d.items = d := by
  have hall : d.items.length - max d.items.length 1 = 0 := by omega
  obtain ⟨bound, items, hle⟩ := d
  simp only [ofList, hall, drop_zero]
  exact BoundedDeque.mk.injEq .. ▸ ⟨h.symm, rfl⟩

variable {bindings : List TrackBinding}

theorem distributions_adoptSaved (h : q.adoptSaved o bindings = .ok q') :
    q'.distributions = q.distributions ++ [.ofHistory o.classHistory] := by
  unfold adoptSaved adopt at h
  split at h
  · cases h
  split at h
  · cases h
  rw [← Except.ok.inj h]
  rfl

/-- What holds while objects are restored: every object that is there is like the one that was
    saved. -/
structure Reloading (p : RegistryPartition) (q : RegistryPartition) : Prop where
  referenced : q.Referenced
  unshared : q.Unshared
  alike : ∀ id r', q.recordFor id = some r' → ∃ r, p.recordFor id = some r ∧ Alike p q r r'

theorem alike_recordFrom (h : Reloadable p takenAt r) (hsaved : SavedAs r o) {i : Nat}
    (hevidence : q.evidence (recordFrom o i bindings) = .ofHistory o.classHistory) :
    Alike p q r (recordFrom o i bindings) := by
  obtain ⟨d, hd, hweights⟩ := h.evidence
  have hown : p.evidence r = d := by
    unfold evidence
    rw [getD_eq_getElem?_getD, hd]
    rfl
  refine ⟨hsaved.classId.symm, ?_, ?_, ?_, ?_⟩
  · show _ = ofList (max o.classHistory.length 1) o.classHistory
    rw [hsaved.classHistory, ofList_full h.classFull]
  · show _ = ofList (max o.spatialHistory.length 1) o.spatialHistory
    rw [hsaved.spatialHistory, ofList_full h.spatialFull]
  · rw [hown, hevidence, hsaved.classHistory]
    exact hweights
  · rw [hown]
    exact fun c => hweights c ▸ isWeight_ofHistory _ c

theorem Reloading.adopted (h : Reloading p q)
    (hr : p.recordFor o.objectId = some r) (hreloadable : Reloadable p takenAt r)
    (hsaved : SavedAs r o) (hadopt : q.adoptSaved o bindings = .ok q') : Reloading p q' := by
  obtain ⟨hself, hothers⟩ := recordFor_adoptSaved hadopt
  have hdistributions := distributions_adoptSaved hadopt
  have hplace : ∀ id r', q'.recordFor id = some r' →
      (id = o.objectId ∧ r' = recordFrom o q.distributions.length bindings) ∨
      (id ≠ o.objectId ∧ q.recordFor id = some r') := by
    intro id r' hr'
    by_cases hid : id = o.objectId
    · rw [hid, hself] at hr'
      exact .inl ⟨hid, (some.inj hr').symm⟩
    · exact .inr ⟨hid, (hothers id hid).symm.trans hr'⟩
  refine ⟨h.referenced.adoptSaved hadopt, fun id id' r₁ r₂ h₁ h₂ hsame => ?_, fun id r' hr' => ?_⟩
  · -- The new record's evidence comes after all others.
    rcases hplace id r₁ h₁ with ⟨hid, hnew⟩ | ⟨hid, hold⟩ <;>
      rcases hplace id' r₂ h₂ with ⟨hid', hnew'⟩ | ⟨hid', hold'⟩
    · rw [hid, hid']
    · have hlt := h.referenced id' r₂ hold'
      rw [← hsame, hnew] at hlt
      exact absurd hlt (lt_irrefl _)
    · have hlt := h.referenced id r₁ hold
      rw [hsame, hnew'] at hlt
      exact absurd hlt (lt_irrefl _)
    · exact h.unshared id id' r₁ r₂ hold hold' hsame
  · rcases hplace id r' hr' with ⟨rfl, rfl⟩ | ⟨hid, hold⟩
    · refine ⟨r, hr, alike_recordFrom hreloadable hsaved ?_⟩
      show q'.distributions.getD q.distributions.length {} = _
      rw [hdistributions]
      simp
    · obtain ⟨r₀, hr₀, hlike⟩ := h.alike id r' hold
      have hevidence : q'.evidence r' = q.evidence r' := by
        unfold evidence
        rw [hdistributions, getD_eq_getElem?_getD, getD_eq_getElem?_getD,
          getElem?_append_left (h.referenced id r' hold)]
      refine ⟨r₀, hr₀, hlike.classId, hlike.classHistory, hlike.spatialHistory, ?_, hlike.isWeight⟩
      rw [hevidence]
      exact hlike.weights

theorem restoreObjects_reloading (htakes : w.partition.Takes takenAt objects)
    (hempty : Reloading p w.partition)
    (hobjects : ∀ o ∈ objects, ∃ r, p.recordFor o.objectId = some r ∧ Reloadable p takenAt r ∧
      SavedAs r o) :
    wp (restoreObjects takenAt objects)
      (fun _ w' => Reloading p w'.partition ∧
        ∀ o ∈ objects, w'.partition.recordFor o.objectId ≠ none)
      (fun _ _ => False) w := by
  refine wp_mono (fun _ w' h => ⟨h.1, fun o ho => (h.2.2.2 o ho).resolve_left not_mem_nil⟩)
    (fun _ _ h => h) (wp_restoreObjects (I := fun rest w' => Reloading p w'.partition ∧
      w'.partition.Takes takenAt rest ∧ rest ⊆ objects ∧
      ∀ o ∈ objects, o ∈ rest ∨ w'.partition.recordFor o.objectId ≠ none) ?_ ?_ ?_ ?_
    ⟨hempty, htakes, List.Subset.refl _, fun o ho => .inl ho⟩)
  · rintro o rest w₁ ⟨h, htakes, hsub, hrest⟩ ⟨r, hr⟩
    refine ⟨h, htakes.skip, fun _ h => hsub (mem_cons_of_mem _ h), fun o' ho' => ?_⟩
    rcases hrest o' ho' with hmem | hthere
    · rcases mem_cons.mp hmem with rfl | hmem
      · exact .inr (by rw [hr]; simp)
      · exact .inl hmem
    · exact .inr hthere
  · rintro o rest w₁ q' bindings ⟨h, htakes, hsub, hrest⟩ hnone - hadopt
    obtain ⟨r, hr, hreloadable, hsaved⟩ := hobjects o (hsub (mem_cons_self ..))
    obtain ⟨hself, hothers⟩ := recordFor_adoptSaved hadopt
    refine ⟨h.adopted hr hreloadable hsaved hadopt,
      htakes.adopt hnone hself hothers (size_adoptSaved hadopt),
      fun _ h => hsub (mem_cons_of_mem _ h), fun o' ho' => ?_⟩
    by_cases hid : o'.objectId = o.objectId
    · exact .inr (by rw [hid]; show q'.recordFor _ ≠ none; rw [hself]; simp)
    · rcases hrest o' ho' with hmem | hthere
      · exact .inl ((mem_cons.mp hmem).resolve_left fun heq => hid (by rw [heq]))
      · exact .inr (by show q'.recordFor _ ≠ none; rw [hothers _ hid]; exact hthere)
  · rintro o rest w₁ bindings exc ⟨-, htakes, -⟩ hnone hfull
    exact absurd hfull (htakes.not_full hnone)
  · rintro o rest w₁ exc ⟨-, htakes, -⟩ hnone hlate
    exact absurd hlate (htakes.not_late hnone)

/-- A partition whose objects lose nothing on their way through the store: no two records share
    their evidence, and each can be rebuilt. -/
structure Lossless (p : RegistryPartition) (takenAt : Instant) : Prop where
  unshared : p.Unshared
  records : ∀ id r, p.recordFor id = some r → Reloadable p takenAt r

theorem saved_objects (h : Lossless p takenAt) {saved : List VisualObject}
    (hobjects : p.objects = .ok saved) :
    ∃ objects, saved.mapM readObject = .ok objects ∧
      (∀ o ∈ objects, ∃ r, p.recordFor o.objectId = some r ∧ Reloadable p takenAt r ∧
        SavedAs r o) ∧
      ∀ id r, p.recordFor id = some r → id ∈ objects.map (·.objectId) := by
  have hread : ∀ o ∈ saved, ∃ o' r, readObject o = .ok o' ∧ p.recordFor o.objectId = some r ∧
      SavedAs r o' ∧ r.objectId = o.objectId := by
    intro o ho
    obtain ⟨r, hr, hproject⟩ := (mapM_ok hobjects).2 o ho
    have hrecord := mem_records.mp hr
    obtain ⟨o', ho', hsaved⟩ := savedAs_of_read (h.records _ r hrecord) hproject
    have hid := project_objectId hproject
    exact ⟨o', r, ho', hid ▸ hrecord, hsaved, hid.symm⟩
  obtain ⟨objects, hmapM, -⟩ := mapM_returns fun o ho =>
    (hread o ho).elim fun o' hr => hr.elim fun _ hr => ⟨o', hr.1⟩
  refine ⟨objects, hmapM, fun o' ho' => ?_, fun id r hr => ?_⟩
  · obtain ⟨o, ho, hone⟩ := (mapM_ok hmapM).2 o' ho'
    obtain ⟨o'', r, hone', hr, hsaved, hid⟩ := hread o ho
    cases hone.symm.trans hone'
    refine ⟨r, ?_, h.records _ r hr, hsaved⟩
    rw [hsaved.objectId, hid]
    exact hr
  · obtain ⟨o, ho, rfl⟩ := mem_map.mp
      ((mem_objects hobjects).mpr ⟨r, hr⟩)
    obtain ⟨o', ho', hone⟩ := (mapM_ok hmapM).1 o ho
    obtain ⟨o'', r', hone', -, hsaved, hid⟩ := hread o ho
    cases hone.symm.trans hone'
    exact mem_map.mpr ⟨o', ho', by rw [hsaved.objectId, hid]⟩

theorem takes_saved (hpolicy : q.policy = p.policy) (hempty : q.table.size = 0)
    (hobjects : ∀ o ∈ objects, ∃ r, p.recordFor o.objectId = some r ∧ Reloadable p takenAt r ∧
      SavedAs r o) : q.Takes takenAt objects := by
  constructor
  · have hsub : q.newIds objects ⊆ p.table.keys.toFinset := by
      intro id hid
      obtain ⟨o, ho, rfl⟩ := mem_map.mp (mem_newIds.mp hid).1
      obtain ⟨r, hr, -⟩ := hobjects o ho
      exact mem_toFinset.mpr (mem_keys_iff.mpr ⟨r, hr⟩)
    have hcard := (Finset.card_le_card hsub).trans (toFinset_card_le _)
    have hlength : p.table.keys.length = p.table.size := length_map ..
    have hbounded := p.bounded
    rw [hempty, hpolicy]
    omega
  · intro o ho _ b hb hopen
    obtain ⟨r, -, hreloadable, hsaved⟩ := hobjects o ho
    rw [hsaved.trackBindings] at hb
    obtain ⟨b', hb', rfl⟩ := mem_map.mp hb
    exact hreloadable.timely b' hb' hopen

/-- Objects that lose nothing in the store, in a snapshot that can be written out, behave on as
    if they had never left the registry. -/
theorem reloaded_behaves (table : AlnumTable) (store : FileObjectStore)
    (hpolicy : wiring.lifecycle = p.policy) (hcamera : shot.cameraId = p.cameraId)
    (hobjects : p.objects = .ok shot.objects) (h : Lossless p shot.takenAt)
    (hwritten : (encodeSnapshot shot).printable = true) :
    BehavesReloaded table wiring store p shot := by
  obtain ⟨objects, hmapM, hsaved, hthere⟩ := saved_objects h hobjects
  have hload : (store.save table shot none).2.load table shot.cameraId =
      .ok (some { shot with objects }) := by
    refine (load_of_get? (s := shot) ?_).mpr
      ⟨_, readSnapshot_eq_ok.mpr ⟨objects, hmapM, rfl⟩, rfl⟩
    rw [FileObjectStore.save_of_printable hwritten]
    exact OrderedDict.get?_set_self ..
  have href : p.Referenced := by
    intro id r hr
    obtain ⟨d, hd, -⟩ := (h.records id r hr).evidence
    exact (List.getElem?_eq_some_iff.mp hd).1
  have hempty : Reloading p (wiring.newPartition p.cameraId) :=
    ⟨fun _ _ hr => (by cases hr), fun _ _ _ _ hr => (by cases hr), fun _ _ hr => (by cases hr)⟩
  -- `Reloading` is kept by each restored object, and at the end it is `Mirrors`
  have hrestore : wp (restore wiring { shot with objects }.toPartitionSnapshot)
      (fun _ registry => Mirrors p (registry.partitionOf wiring p.cameraId))
      (fun _ _ => False) {} := by
    unfold restore
    rw [wp_bind, wp_read]
    rw [wp_bind, wp_within]
    have htakes := @takes_saved p (wiring.newPartition p.cameraId) shot.takenAt objects hpolicy rfl
      hsaved
    rw [hcamera]
    refine wp_mono (fun n w' hw' => ?_) (fun _ _ h => h)
      (restoreObjects_reloading (by exact htakes) (by exact hempty) hsaved)
    obtain ⟨hreloading, hpresent⟩ := hw'
    show Mirrors p ((keep _ _ w').partitionOf wiring p.cameraId)
    rw [partitionOf_keep, if_pos rfl]
    refine ⟨⟨href, hreloading.referenced⟩, ⟨h.unshared, hreloading.unshared⟩, fun id => ?_,
      fun id r r' hr hr' => ?_⟩
    · constructor
      · intro hnone
        by_contra hsome
        obtain ⟨r', hr'⟩ := ne_none_iff_exists'.mp hsome
        obtain ⟨r, hr, -⟩ := hreloading.alike id r' hr'
        cases hnone.symm.trans hr
      · intro hnone
        by_contra hsome
        obtain ⟨r, hr⟩ := ne_none_iff_exists'.mp hsome
        obtain ⟨o, ho, hid⟩ := List.mem_map.mp (hthere id r hr)
        exact hpresent o ho (hid ▸ hnone)
    · obtain ⟨r₀, hr₀, hlike⟩ := hreloading.alike id r' hr'
      cases hr.symm.trans hr₀
      exact hlike
  unfold wp at hrestore
  cases hresult : restore wiring { shot with objects }.toPartitionSnapshot {} with
  | mk result registry =>
    rw [hresult] at hrestore
    cases result with
    | error exc => exact hrestore.elim
    | ok n =>
      refine ⟨registry.partitionOf wiring p.cameraId, ?_, fun sightings id => ?_⟩
      · unfold reloaded
        rw [hload, ← hcamera]
        show (match restore wiring { shot with objects }.toPartitionSnapshot {} with
          | (.ok _, registry) => _
          | (.error _, _) => _) = _
        rw [hresult]
      -- from here on the two registries see the same sightings
      have hmirrors := RegistryPartition.Mirrors.observeAll hrestore sightings
      unfold published
      cases hr : (p.observeAll sightings).recordFor id with
      | none => rw [(hmirrors.present id).mp hr]
      | some r =>
        obtain ⟨r', hr'⟩ : ∃ r', ((registry.partitionOf wiring p.cameraId).observeAll
            sightings).recordFor id = some r' := by
          refine ne_none_iff_exists'.mp fun hnone => ?_
          cases hr.symm.trans ((hmirrors.present id).mpr hnone)
        have hlike := hmirrors.alike id r r' hr hr'
        rw [hr', map_some, map_some, hlike.classId, hlike.classHistory,
          hlike.spatialHistory]

theorem leftPlace_accepted :
    postInit { frameOfReference := .normalized, bbox := some leftBox } = .ok () := by
  rfl

def leftSighting : Sighting where
  classId := "person"
  confidence := Confidence.defaultIdentity
  spatial := { frameOfReference := .normalized, bbox := some leftBox
               accepted := leftPlace_accepted }

/-- A partition with somebody who was seen once, under these bounds of the histories. -/
def seenOnce (classHistory spatialHistory : Nat) : RegistryPartition :=
  match RegistryPartition.mint
    { (streetWiring promptPolicy).newPartition "north" with classHistory, spatialHistory }
    "A" leftSighting ⟨0⟩ with
  | .ok p => p
  | .error _ => (streetWiring promptPolicy).newPartition "north"

def shotOf (p : RegistryPartition) : StoredSnapshot where
  cameraId := p.cameraId
  takenAt := ⟨0⟩
  objects := match p.objects with
    | .ok objects => objects
    | .error _ => []
  siteId := "site"
  version := 1

theorem objects_shotOf (h : p.objects.isOk = true) :
    p.objects = .ok (shotOf p).objects := by
  unfold shotOf
  cases hobjects : p.objects with
  | ok objects => rfl
  | error exc =>
    rw [hobjects] at h
    cases h

theorem reloaded_behaves_once : BehavesReloaded .ofAscii (streetWiring promptPolicy) ∅
    (seenOnce 1 1) (shotOf (seenOnce 1 1)) := by
  have hrecord : ∀ id, (seenOnce 1 1).recordFor id = if "A" = id then some
      (RegistryPartition.newRecord { (streetWiring promptPolicy).newPartition "north" with
        classHistory := 1, spatialHistory := 1 } "A" leftSighting ⟨0⟩) else none := fun id =>
    get?_set ∅ "A" id _
  refine reloaded_behaves .ofAscii ∅ rfl rfl (objects_shotOf (by decide +kernel))
    ⟨fun id id' r r' hr hr' _ => ?_, fun id r hr => ?_⟩ (by decide +kernel)
  · rw [hrecord] at hr hr'
    split at hr
    · rename_i hid
      split at hr'
      · rename_i hid'
        rw [← hid, hid']
      · cases hr'
    · cases hr
  · rw [hrecord] at hr
    split at hr
    · rw [← some.inj hr]
      refine ⟨fun b hb => (by cases hb), (fun h => by cases h), fun h => absurd rfl h, rfl, rfl,
        fun c hc => ?_, fun e he => ?_, _, rfl, fun _ => rfl⟩
      · cases mem_singleton.mp hc
        exact ⟨rfl, rfl, rfl, rfl⟩
      · cases mem_singleton.mp he
        exact ⟨rfl, fun h => by cases h⟩
    · cases hr

/-- With the default bounds the reloaded history has room for one entry only. -/
theorem reloaded_forgets : ¬ ∀ table wiring store p shot, wiring.lifecycle = p.policy →
    shot.cameraId = p.cameraId → p.objects = .ok shot.objects →
    BehavesReloaded table wiring store p shot := by
  intro h
  obtain ⟨q, hq, hsame⟩ := h .ofAscii (streetWiring promptPolicy) ∅ (seenOnce 32 64)
    (shotOf (seenOnce 32 64)) rfl rfl (objects_shotOf (by decide +kernel))
  have hforgot : ((reloaded .ofAscii (streetWiring promptPolicy) ∅ (shotOf (seenOnce 32 64))).bind
      fun q => (published (q.observeAll [("A", leftSighting, ⟨1⟩)]) "A").map (·.2.1.length)) =
        some 1 := by decide +kernel
  rw [hq, bind_some, ← hsame] at hforgot
  have hkept : (published ((seenOnce 32 64).observeAll [("A", leftSighting, ⟨1⟩)]) "A").map
      (·.2.1.length) = some 2 := by decide +kernel
  cases hkept.symm.trans hforgot

end VisionOs.Registry
