/-
  What the matching of a frame decides, with a lawful associator.  The first stage's matches that
  are no near ties stay, and those of the second join them.
-/
import VisionOs.Tracking.Matching
import VisionOs.Tracking.Associators

namespace VisionOs.Tracking

open Core Lib List OrderedDict Option Prod List.Nodup Except

namespace CostMatrixBuilder

variable {m : CostMatrixBuilder} {predictions : List Prediction} {boxes : List Rect}
  {scores : List ℚ} {c : AssociationCandidate}

theorem candidate_eq_some {i j : Nat} {predicted box : Rect} {gate score : ℚ} :
    m.candidate i j predicted box gate score = some c ↔
      c.trackIndex = i ∧ c.detectionIndex = j ∧ c.cost ≤ m.policy.maxCost ∧
        m.candidate 0 0 predicted box gate score = some ⟨0, 0, c.cost⟩ := by
  obtain ⟨ci, cj, cost⟩ := c
  unfold candidate
  simp only
  split
  · simp
  · split
    · rename_i hcost
      simp only [some_inj, AssociationCandidate.mk.injEq, true_and]
      constructor
      · rintro ⟨rfl, rfl, rfl⟩
        exact ⟨rfl, rfl, hcost, rfl⟩
      · rintro ⟨rfl, rfl, -, rfl⟩
        exact ⟨rfl, rfl, rfl⟩
    · simp

/-- The detection in that place is gated for the prediction in that place, by these two alone. -/
theorem mem_build : c ∈ m.build predictions boxes scores ↔
    ∃ prediction box predicted, predictions[c.trackIndex]? = some prediction ∧
      boxes[c.detectionIndex]? = some box ∧ prediction.toRect.construct = .ok predicted ∧
        c.cost ≤ m.policy.maxCost ∧ m.candidate 0 0 predicted box
          (m.policy.gateMultiplier * prediction.uncertainty) (scores.getD c.detectionIndex 1) =
            some ⟨0, 0, c.cost⟩ := by
  unfold build
  rw [mem_insertionSort, mem_flatMap]
  constructor
  · rintro ⟨⟨prediction, i⟩, hprediction, hc⟩
    change c ∈ m.candidatesOf i prediction boxes scores at hc
    unfold candidatesOf at hc
    cases hrect : prediction.toRect.construct with
    | error e =>
      rw [hrect] at hc
      cases hc
    | ok predicted =>
      rw [hrect] at hc
      obtain ⟨⟨box, j⟩, hbox, hcandidate⟩ := mem_filterMap.mp hc
      obtain ⟨rfl, rfl, hcost, hthis⟩ := candidate_eq_some.mp hcandidate
      exact ⟨prediction, box, predicted, mem_zipIdx_iff_getElem?.mp hprediction,
        mem_zipIdx_iff_getElem?.mp hbox, hrect, hcost, hthis⟩
  · rintro ⟨prediction, box, predicted, hprediction, hbox, hrect, hcost, hcandidate⟩
    refine ⟨(prediction, c.trackIndex), mem_zipIdx_iff_getElem?.mpr hprediction, ?_⟩
    show c ∈ m.candidatesOf c.trackIndex prediction boxes scores
    unfold candidatesOf
    rw [hrect]
    exact mem_filterMap.mpr ⟨(box, c.detectionIndex), mem_zipIdx_iff_getElem?.mpr hbox,
      candidate_eq_some.mpr ⟨rfl, rfl, hcost, hcandidate⟩⟩

end CostMatrixBuilder

theorem mapM_getItem {α : Type} {xs : List α} {indices : List Nat}
    (h : ∀ i ∈ indices, i < xs.length) :
    ∃ ys, indices.mapM (getItem xs) = .ok ys ∧ ys.length = indices.length := by
  obtain ⟨ys, hys, hall⟩ := @mapM_returns _ _ (getItem xs) indices fun i hi =>
    ⟨_, getItem_eq_ok.mpr (getElem?_eq_getElem (h i hi))⟩
  exact ⟨ys, hys, hall.length_eq.symm⟩

/-! ## One stage -/

structure Stage where
  tracks : List Nat
  indices : List Nat
  candidates : List AssociationCandidate
  result : Resolved

structure Stage.Decided (stage : Stage) : Prop where
  within : ∀ c ∈ stage.candidates, c.trackIndex < stage.tracks.length ∧
    c.detectionIndex < stage.indices.length
  picks : ∀ i d, stage.result.matched.get? i = some d → ∃ c ∈ stage.candidates,
    c.trackIndex = i ∧ stage.indices[c.detectionIndex]? = some d ∧
      stage.result.costs.get? (i, d) = some c.cost
  least : ∀ i d, stage.result.matched.get? i = some d → ∀ c ∈ stage.candidates,
    c.trackIndex = i → stage.indices[c.detectionIndex]? ≠ some d →
      ∃ cost, stage.result.runnerUp.get? i = some cost ∧ cost ≤ c.cost
  attained : ∀ i d, stage.result.matched.get? i = some d → ∀ cost,
    stage.result.runnerUp.get? i = some cost → ∃ c ∈ stage.candidates, c.trackIndex = i ∧
      stage.indices[c.detectionIndex]? ≠ some d ∧ c.cost = cost

theorem resolve_spec {result : AssignmentResult} {indices : List Nat}
    (hin : ∀ q ∈ result.pairs, q.2 < indices.length) (honce : (result.pairs.map (·.1)).Nodup) :
    ∃ r, resolve result indices = .ok r ∧ r.runnerUp = result.runnerUp ∧
      ∀ i d, r.matched.get? i = some d → ∃ j, (i, j) ∈ result.pairs ∧ indices[j]? = some d ∧
        r.costs.get? (i, d) = some ((result.costs.get? (i, j)).getD 0) := by
  obtain ⟨bound, hbound, hall⟩ := @mapM_returns _ _
    (fun (q : Nat × Nat) => do
      let index ← getItem indices q.2
      (.ok ((q.1, index), (result.costs.get? q).getD 0) : Raises ((Nat × Nat) × ℚ)))
    result.pairs fun q hq => ⟨_, by
      rw [getItem_eq_ok.mpr (getElem?_eq_getElem (hin q hq)), ok_bind]⟩
  have hkeys : bound.map (·.1.1) = result.pairs.map (·.1) := by
    refine mapM_map_eq (fun q e he => ?_) hbound
    obtain ⟨index, -, he⟩ := bind_eq_ok.mp he
    rw [← ok.inj he]
  have hfst : (bound.map (·.1)).map fst = bound.map (·.1.1) := map_map
  have htracks : ((bound.map (·.1)).map fst).Nodup := by
    rw [hfst, hkeys]
    exact honce
  have hcells : (bound.map fst).Nodup := of_map fst htracks
  refine ⟨{ matched := ofPairs (bound.map (·.1))
            costs := ofPairs bound
            runnerUp := result.runnerUp }, ?_, rfl, fun i d hmatched => ?_⟩
  · show (result.pairs.mapM _ >>= fun bound => _) = _
    rw [hbound, ok_bind]
  · obtain ⟨e, he, heq⟩ := mem_map.mp (mem_of_get?_ofPairs hmatched)
    obtain ⟨q, hq, hitem⟩ := (mapM_ok hbound).2 e he
    obtain ⟨index, hindex, hitem⟩ := bind_eq_ok.mp hitem
    have hitem := ok.inj hitem
    rw [← hitem, Prod.mk.injEq] at heq
    obtain ⟨rfl, rfl⟩ := heq
    refine ⟨q.2, hq, getItem_eq_ok.mp hindex, ?_⟩
    rw [get?_eq_some_iff, entries_ofPairs hcells, hitem]
    exact he

namespace GeometricWiring

variable (w : GeometricWiring)

def stageOn (records : List TrackRecord) (predictions : List Prediction)
    (detections : List Detection) (tracks indices : List Nat) : Raises Stage := do
  let candidates ← w.stageCandidates records predictions detections indices
  let result ← w.associate records predictions detections indices
  .ok { tracks, indices, candidates, result }

variable {w}

theorem stageCandidates_spec (records : List TrackRecord) (predictions : List Prediction)
    {detections : List Detection} {indices : List Nat}
    (hin : ∀ i ∈ indices, i < detections.length) :
    ∃ candidates, w.stageCandidates records predictions detections indices = .ok candidates ∧
      ∀ c ∈ candidates, c.trackIndex < predictions.length ∧ c.detectionIndex < indices.length ∧
        c.cost ≤ w.association.maxCost := by
  obtain ⟨chosen, hchosen, hlength⟩ := mapM_getItem hin
  refine ⟨w.gatedCandidates records predictions (chosen.map (·.spatial.bbox))
    (chosen.map (·.confidence.value.exact)), ?_, fun c hc => ?_⟩
  · unfold stageCandidates
    rw [hchosen, ok_bind]
  · have hbuilt : c ∈ (CostMatrixBuilder.mk w.association w.lib).build predictions
        (((chosen.map (·.spatial.bbox)).filterMap id).map Rect.ofBox)
        (chosen.map (·.confidence.value.exact)) := by
      unfold gatedCandidates at hc
      simp only at hc
      split at hc
      · exact (mem_filter.mp hc).1
      · exact hc
    obtain ⟨prediction, box, predicted, htrack, hdetection, -, hcost, -⟩ :=
      CostMatrixBuilder.mem_build.mp hbuilt
    have hdetection := (List.getElem?_eq_some_iff.mp hdetection).1
    refine ⟨(List.getElem?_eq_some_iff.mp htrack).1, hdetection.trans_le ?_, hcost⟩
    rw [length_map, ← hlength]
    have hboxes := length_filterMap_le id (chosen.map (·.spatial.bbox))
    rw [length_map] at hboxes
    exact hboxes

theorem stageOn_spec (hlawful : w.associator.Lawful) (records : List TrackRecord)
    {predictions : List Prediction} {detections : List Detection} {tracks indices : List Nat}
    (hin : ∀ i ∈ indices, i < detections.length) (hnodup : indices.Nodup)
    (htracks : predictions.length = tracks.length) :
    ∃ stage, w.stageOn records predictions detections tracks indices = .ok stage ∧
      w.associate records predictions detections indices = .ok stage.result ∧
      stage.tracks = tracks ∧ stage.indices = indices ∧ stage.Decided := by
  obtain ⟨candidates, hcandidates, hwithin⟩ := @stageCandidates_spec w records predictions _ _ hin
  generalize hassigned : w.associator.assign records.length indices.length candidates
    w.association.maxCost = assigned
  have hpicks := hlawful.picks records.length indices.length candidates w.association.maxCost
  have honce := hlawful.once records.length indices.length candidates w.association.maxCost
  have hleast := hlawful.least records.length indices.length candidates w.association.maxCost
    fun c hc => (hwithin c hc).2.2
  have hattained := hlawful.attained records.length indices.length candidates
    w.association.maxCost
  rw [hassigned] at hpicks honce hleast hattained
  obtain ⟨result, hresult, hrunnerUp, hmatched⟩ := @resolve_spec assigned indices (by
    intro q hq
    obtain ⟨c, hc, -, hdetection, -⟩ := hpicks q hq
    rw [← hdetection]
    exact (hwithin c hc).2.1) honce
  have hassociate : w.associate records predictions detections indices = .ok result := by
    unfold associate
    rw [hcandidates, ok_bind, hassigned, hresult]
  -- a candidate's detection is another exactly when its place among the indices is
  have hother : ∀ {c : AssociationCandidate} {j d : Nat}, c ∈ candidates → indices[j]? = some d →
      (indices[c.detectionIndex]? ≠ some d ↔ c.detectionIndex ≠ j) := by
    intro c j d hc hj
    obtain ⟨hlt, hget⟩ := List.getElem?_eq_some_iff.mp hj
    rw [not_iff_not, getElem?_eq_getElem (hwithin c hc).2.1, some_inj, ← hget]
    exact getElem_inj_iff hnodup
  refine ⟨{ tracks, indices, candidates, result }, ?_, hassociate, rfl, rfl, ?_⟩
  · unfold stageOn
    rw [hcandidates, ok_bind, hassociate, ok_bind]
  · refine ⟨fun c hc => ?_, fun i d h => ?_, fun i d h c hc htrack hne => ?_,
      fun i d h cost hcost => ?_⟩
    · rw [← htracks]
      exact ⟨(hwithin c hc).1, (hwithin c hc).2.1⟩
    · obtain ⟨j, hj, hget, hcosts⟩ := hmatched i d h
      obtain ⟨c, hc, htrack, hdetection, hcost⟩ := hpicks _ hj
      refine ⟨c, hc, htrack, by rw [hdetection]; exact hget, ?_⟩
      rw [hcosts, hcost, getD_some]
    · obtain ⟨j, hj, hget, -⟩ := hmatched i d h
      rw [hrunnerUp]
      exact hleast _ hj c hc htrack ((hother hc hget).mp hne)
    · obtain ⟨j, hj, hget, -⟩ := hmatched i d h
      rw [hrunnerUp] at hcost
      obtain ⟨c, hc, htrack, hne, hthis⟩ := hattained _ hj cost hcost
      exact ⟨c, hc, htrack, (hother hc hget).mpr hne, hthis⟩

/-! ## Near ties -/

variable (w) in
def Ambiguous (result : Resolved) (track detection : Nat) : Prop :=
  0 < w.association.ambiguityMargin ∧ w.nearTie result track detection ≠ none

variable {records : List TrackRecord}

theorem filterAmbiguous_spec {result : Resolved}
    (hin : ∀ i d, result.matched.get? i = some d → i < records.length) :
    ∃ matched refused, w.filterAmbiguous result records = .ok (matched, refused) ∧
      (∀ i d, matched.get? i = some d ↔
        result.matched.get? i = some d ∧ ¬ w.Ambiguous result i d) ∧
      ∀ id, id ∈ refused.map (·.trackId) ↔ ∃ i d r, result.matched.get? i = some d ∧
        w.Ambiguous result i d ∧ records[i]? = some r ∧ r.trackId = id := by
  unfold filterAmbiguous
  by_cases hmargin : w.association.ambiguityMargin ≤ 0
  · rw [if_pos hmargin]
    refine ⟨_, _, rfl, fun i d => ⟨fun h => ⟨h, fun ha => ?_⟩, fun h => h.1⟩, fun id => ?_⟩
    · exact absurd ha.1 (not_lt.mpr hmargin)
    · refine ⟨fun h => absurd h not_mem_nil, ?_⟩
      rintro ⟨_, _, _, _, ha, -⟩
      exact absurd ha.1 (not_lt.mpr hmargin)
  rw [if_neg hmargin]
  have hpositive : 0 < w.association.ambiguityMargin := not_le.mp hmargin
  have hties : ∀ x ∈ result.matched.entries.filterMap (fun (e : Nat × Nat) =>
      (w.nearTie result e.1 e.2).map (e.1, ·)), x.1 < records.length := by
    intro x hx
    obtain ⟨⟨i, d⟩, hmem, htie⟩ := mem_filterMap.mp hx
    obtain ⟨costs, -, rfl⟩ := map_eq_some_iff.mp htie
    exact hin i d (get?_eq_some_iff.mpr hmem)
  -- the records of the near ties are all there, so naming them raises nothing
  obtain ⟨refused, hrefused, -⟩ := @mapM_returns _ _
    (fun (x : Nat × ℚ × ℚ) => do
      let record ← getItem records x.1
      (.ok { trackId := record.trackId, bestCost := x.2.1, runnerUpCost := x.2.2 } :
        Raises RefusedAssociation)) _ fun x hx => ⟨_, by
      rw [getItem_eq_ok.mpr (getElem?_eq_getElem (hties x hx)), ok_bind]⟩
  refine ⟨ofPairs (result.matched.entries.filter fun (e : Nat × Nat) =>
    (w.nearTie result e.1 e.2).isNone), refused, ?_, fun i d => ?_, fun id => ?_⟩
  · rw [hrefused, ok_bind]
  · have hkeys : ((result.matched.entries.filter fun (e : Nat × Nat) =>
        (w.nearTie result e.1 e.2).isNone).map fst).Nodup :=
      (filter_sublist.map _).nodup result.matched.nodupKeys
    rw [get?_eq_some_iff, entries_ofPairs hkeys, mem_filter,
      ← get?_eq_some_iff, isNone_iff_eq_none]
    unfold Ambiguous
    tauto
  · rw [List.mem_map]
    constructor
    · rintro ⟨x, hx, rfl⟩
      obtain ⟨y, hy, hitem⟩ := (mapM_ok hrefused).2 x hx
      obtain ⟨⟨i, d⟩, hmem, htie⟩ := mem_filterMap.mp hy
      obtain ⟨costs, hcosts, rfl⟩ := map_eq_some_iff.mp htie
      obtain ⟨r, hr, hitem⟩ := bind_eq_ok.mp hitem
      refine ⟨i, d, r, get?_eq_some_iff.mpr hmem, ⟨hpositive, ?_⟩,
        getItem_eq_ok.mp hr, ?_⟩
      · rw [hcosts]
        exact some_ne_none _
      · rw [← ok.inj hitem]
    · rintro ⟨i, d, r, hmatched, hambiguous, hr, rfl⟩
      obtain ⟨costs, hcosts⟩ := ne_none_iff_exists'.mp hambiguous.2
      have hmem : (i, costs) ∈ result.matched.entries.filterMap (fun (e : Nat × Nat) =>
          (w.nearTie result e.1 e.2).map (e.1, ·)) :=
        mem_filterMap.mpr ⟨(i, d), get?_eq_some_iff.mp hmatched, by
          rw [hcosts]
          rfl⟩
      obtain ⟨x, hx, hitem⟩ := (mapM_ok hrefused).1 _ hmem
      obtain ⟨r', hr', hitem⟩ := bind_eq_ok.mp hitem
      refine ⟨x, hx, ?_⟩
      have hsame := (getItem_eq_ok.mp hr').symm.trans hr
      rw [← ok.inj hitem, some.inj hsame]

/-! ## The second stage -/

theorem mem_leftover {matched : OrderedDict Nat Nat} {i : Nat} :
    i ∈ leftover records matched ↔ i < records.length ∧ matched.get? i = none := by
  unfold leftover
  rw [mem_filter, mem_range, isNone_iff_eq_none]

theorem nodup_leftover (records : List TrackRecord) (matched : OrderedDict Nat Nat) :
    (leftover records matched).Nodup :=
  nodup_range.filter _

variable (w) in
def secondStageOn (records : List TrackRecord) (predictions : List Prediction)
    (detections : List Detection) (low left : List Nat) : Raises Stage := do
  let subPredictions ← left.mapM (getItem predictions)
  let subRecords ← left.mapM (getItem records)
  w.stageOn subRecords subPredictions detections left low

/-- The second stage adds its matches to those of the first, at its own costs. -/
theorem secondStage_spec (hlawful : w.associator.Lawful) {records : List TrackRecord}
    {predictions : List Prediction} {detections : List Detection} {low : List Nat}
    {matched : OrderedDict Nat Nat} {result : Resolved}
    (hlength : predictions.length = records.length) (hin : ∀ i ∈ low, i < detections.length)
    (hnodup : low.Nodup) (hleft : leftover records matched ≠ []) :
    ∃ stage matched' result',
      w.secondStageOn records predictions detections low (leftover records matched) = .ok stage ∧
      w.secondStage records predictions detections low matched result = .ok (matched', result') ∧
      stage.tracks = leftover records matched ∧ stage.indices = low ∧ stage.Decided ∧
      (∀ i d, matched'.get? i = some d ↔ matched.get? i = some d ∨
        ∃ j, stage.tracks[j]? = some i ∧ stage.result.matched.get? j = some d) ∧
      (∀ i d, matched.get? i = some d → result'.costs.get? (i, d) = result.costs.get? (i, d)) ∧
      ∀ i j d, stage.tracks[j]? = some i → stage.result.matched.get? j = some d →
        result'.costs.get? (i, d) = stage.result.costs.get? (j, d) := by
  generalize hleftover : leftover records matched = left at hleft
  have hmem : ∀ {i}, i ∈ left ↔ i < records.length ∧ matched.get? i = none := by
    rw [← hleftover]
    exact mem_leftover
  have hleft_nodup : left.Nodup := hleftover ▸ nodup_leftover records matched
  obtain ⟨subRecords, hrecords, -⟩ := @mapM_getItem _ records _ fun i hi => (hmem.mp hi).1
  obtain ⟨subPredictions, hpredictions, hsub⟩ := @mapM_getItem _ predictions _ (by
    intro i hi
    rw [hlength]
    exact (hmem.mp hi).1)
  obtain ⟨stage, hstage, hassociate, htracks, hindices, hdecided⟩ :=
    stageOn_spec hlawful subRecords hin hnodup hsub
  -- a match of the stage, as a match of the frame
  have hlocal : ∀ e ∈ stage.result.matched.entries, e.1 < left.length := by
    intro e he
    obtain ⟨c, hc, htrack, -⟩ := hdecided.picks e.1 e.2 (get?_eq_some_iff.mpr he)
    rw [← htrack, ← htracks]
    exact (hdecided.within c hc).1
  obtain ⟨added, hadded, -⟩ := @mapM_returns _ _
    (fun (e : Nat × Nat) => do
      let track ← getItem left e.1
      (.ok ((track, e.2), (stage.result.costs.get? e).getD 0) : Raises ((Nat × Nat) × ℚ)))
    stage.result.matched.entries fun e he =>
      ⟨_, by
        rw [getItem_eq_ok.mpr (getElem?_eq_getElem (hlocal e he)), ok_bind]⟩
  have hadded_mem : ∀ i d cost, ((i, d), cost) ∈ added ↔ ∃ j, left[j]? = some i ∧
      stage.result.matched.get? j = some d ∧ cost = (stage.result.costs.get? (j, d)).getD 0 := by
    intro i d cost
    constructor
    · intro he
      obtain ⟨e, hmatched, hitem⟩ := (mapM_ok hadded).2 _ he
      obtain ⟨track, htrack, hitem⟩ := bind_eq_ok.mp hitem
      have hitem := ok.inj hitem
      rw [Prod.mk.injEq, Prod.mk.injEq] at hitem
      obtain ⟨⟨rfl, rfl⟩, rfl⟩ := hitem
      exact ⟨e.1, getItem_eq_ok.mp htrack, get?_eq_some_iff.mpr hmatched, rfl⟩
    · rintro ⟨j, hj, hmatched, rfl⟩
      obtain ⟨e, he, hitem⟩ := (mapM_ok hadded).1 (j, d) (get?_eq_some_iff.mp hmatched)
      obtain ⟨track, htrack, hitem⟩ := bind_eq_ok.mp hitem
      rw [getItem_eq_ok, hj] at htrack
      rw [some.inj htrack, ok.inj hitem]
      exact he
  have hkeys : (added.map (·.1.1)).Nodup := by
    have heq : added.map (·.1.1) = stage.result.matched.entries.map (left.getD ·.1 0) := by
      refine mapM_map_eq (fun e x hx => ?_) hadded
      obtain ⟨track, htrack, hx⟩ := bind_eq_ok.mp hx
      rw [← ok.inj hx, getD_eq_getElem?_getD, getItem_eq_ok.mp htrack]
      rfl
    rw [heq]
    refine (nodup_map_iff_inj_on
      (of_map fst stage.result.matched.nodupKeys)).mpr fun e he e' he' hsame => ?_
    have hlt := hlocal e he
    have hlt' := hlocal e' he'
    rw [getD_eq_getElem?_getD, getD_eq_getElem?_getD, getElem?_eq_getElem hlt,
      getElem?_eq_getElem hlt'] at hsame
    have hfst : e.1 = e'.1 := (getElem_inj_iff hleft_nodup).mp hsame
    exact inj_on_of_nodup_map stage.result.matched.nodupKeys he he' hfst
  have htracks_nodup : ((added.map (·.1)).map fst).Nodup := by
    rw [List.map_map]
    exact hkeys
  have hcells_nodup : (added.map fst).Nodup := of_map fst htracks_nodup
  -- the tracks the first stage matched are none of these
  have hapart : ∀ i d, matched.get? i = some d → ∀ d' cost, ((i, d'), cost) ∉ added := by
    intro i d h d' cost he
    obtain ⟨j, hj, -⟩ := (hadded_mem i d' cost).mp he
    rw [(hmem.mp (mem_of_getElem? hj)).2] at h
    cases h
  refine ⟨stage, added.foldl (fun d e => d.set e.1.1 e.1.2) matched,
    { matched := added.foldl (fun d e => d.set e.1.1 e.1.2) matched
      costs := added.foldl (fun d e => d.set e.1 e.2) result.costs
      runnerUp := result.runnerUp }, ?_, ?_, htracks, hindices, hdecided, fun i d => ?_,
    fun i d h => ?_, fun i j d hj h => ?_⟩
  · unfold secondStageOn
    rw [hpredictions, ok_bind, hrecords, ok_bind, hstage]
  · unfold secondStage
    rw [hleftover]
    simp only [if_neg hleft]
    unfold secondAssociate
    rw [hpredictions, ok_bind, hrecords, ok_bind, hassociate, ok_bind]
    rw [hadded, ok_bind]
  · have hfold : added.foldl (fun d e => d.set e.1.1 e.1.2) matched =
        (added.map (·.1)).foldl (fun d p => d.set p.1 p.2) matched := by rw [foldl_map]
    rw [hfold, get?_foldl_set htracks_nodup, htracks]
    constructor
    · rintro (he | ⟨-, h⟩)
      · obtain ⟨e, he, heq⟩ := mem_map.mp he
        obtain ⟨j, hj, hmatched, -⟩ := (hadded_mem i d e.2).mp (heq ▸ he)
        exact .inr ⟨j, hj, hmatched⟩
      · exact .inl h
    · rintro (h | ⟨j, hj, hmatched⟩)
      · refine .inr ⟨fun hkey => ?_, h⟩
        obtain ⟨q, hq, rfl⟩ := mem_map.mp hkey
        obtain ⟨e, he, rfl⟩ := mem_map.mp hq
        exact hapart _ _ h e.1.2 e.2 he
      · exact .inl (mem_map.mpr ⟨_, (hadded_mem i d _).mpr ⟨j, hj, hmatched, rfl⟩, rfl⟩)
  · have hnone : (i, d) ∉ added.map fst := by
      intro hkey
      obtain ⟨e, he, heq⟩ := mem_map.mp hkey
      exact hapart i d h d e.2 (heq ▸ he)
    obtain ⟨cost, hcost⟩ | hcost := (result.costs.get? (i, d)).eq_none_or_eq_some.symm
    · rw [hcost]
      exact (get?_foldl_set hcells_nodup _ _ _).mpr (.inr ⟨hnone, hcost⟩)
    · rw [hcost, eq_none_iff_forall_ne_some]
      intro cost h'
      rcases (get?_foldl_set hcells_nodup _ _ _).mp h' with he | ⟨-, h'⟩
      · exact hnone (mem_map.mpr ⟨_, he, rfl⟩)
      · rw [hcost] at h'
        cases h'
  · obtain ⟨c, -, -, -, hcost⟩ := hdecided.picks j d h
    have he : ((i, d), c.cost) ∈ added := by
      refine (hadded_mem i d c.cost).mpr ⟨j, htracks ▸ hj, h, ?_⟩
      rw [hcost, getD_some]
    rw [hcost]
    exact (get?_foldl_set hcells_nodup _ _ _).mpr (.inl he)

/-! ## The frame -/

theorem splitDetections_spec (detections : List Detection) :
    (∀ i ∈ (w.splitDetections detections).1, i < detections.length) ∧
      (w.splitDetections detections).1.Nodup ∧
      (∀ i ∈ (w.splitDetections detections).2, i < detections.length) ∧
      (w.splitDetections detections).2.Nodup ∧
      ∀ i ∈ (w.splitDetections detections).2, i ∉ (w.splitDetections detections).1 := by
  have hmem : ∀ (keep : Detection × Nat → Bool) (i : Nat),
      i ∈ (detections.zipIdx.filter keep).map (·.2) →
        ∃ d, detections[i]? = some d ∧ keep (d, i) = true := by
    intro keep i hi
    obtain ⟨⟨d, j⟩, he, rfl⟩ := mem_map.mp hi
    obtain ⟨he, hkeep⟩ := mem_filter.mp he
    exact ⟨d, mem_zipIdx_iff_getElem?.mp he, hkeep⟩
  have hnodup : ∀ keep : Detection × Nat → Bool,
      ((detections.zipIdx.filter keep).map (·.2)).Nodup := by
    intro keep
    have hsub : ((detections.zipIdx.filter keep).map (·.2)).Sublist
        (detections.zipIdx.map snd) := filter_sublist.map _
    rw [zipIdx_map_snd] at hsub
    exact hsub.nodup (nodup_range' 1)
  refine ⟨fun i hi => ?_, hnodup _, fun i hi => ?_, hnodup _, fun i hlow hhigh => ?_⟩
  · obtain ⟨d, hd, -⟩ := hmem _ i hi
    exact (List.getElem?_eq_some_iff.mp hd).1
  · obtain ⟨d, hd, -⟩ := hmem _ i hi
    exact (List.getElem?_eq_some_iff.mp hd).1
  · -- a weak detection is not a strong one
    obtain ⟨d, hd, hweak⟩ := hmem _ i hlow
    obtain ⟨d', hd', hstrong⟩ := hmem _ i hhigh
    rw [hd] at hd'
    cases hd'
    simp only [isLow, Bool.and_eq_true, Bool.not_eq_true'] at hweak
    rw [hstrong] at hweak
    exact Bool.noConfusion hweak.1.2

variable (w) in
/-- The stages of a frame: the second one runs for a tracker with two stages when there are weak
    detections and tracks left over. -/
def stages (records : List TrackRecord) (detections : List Detection) (elapsed : Duration) :
    Raises (Stage × Option Stage) := do
  let predictions := predictAll records elapsed
  let (high, low) := w.splitDetections detections
  let first ← w.stageOn records predictions detections (range records.length) high
  let (matched, _) ← w.filterAmbiguous first.result records
  if w.config.twoStage = true ∧ low ≠ [] ∧ leftover records matched ≠ [] then do
    let second ← w.secondStageOn records predictions detections low (leftover records matched)
    .ok (first, some second)
  else .ok (first, none)

variable (w) in
structure Paired (records : List TrackRecord) (detections : List Detection) (first : Stage)
    (second : Option Stage) (p : Pairing) : Prop where
  high : p.high = first.indices
  within : ∀ d ∈ first.indices, d < detections.length
  first_tracks : first.tracks = range records.length
  first_decided : first.Decided
  second_decided : ∀ s, second = some s → s.Decided ∧ s.tracks.Nodup ∧
    (∀ i ∈ s.tracks, i < records.length ∧
      ∀ d, first.result.matched.get? i = some d → w.Ambiguous first.result i d) ∧
    ∀ d ∈ s.indices, d < detections.length ∧ d ∉ first.indices
  refused : ∀ id, id ∈ p.refused.map (·.trackId) ↔ ∃ i d r,
    first.result.matched.get? i = some d ∧ w.Ambiguous first.result i d ∧
      records[i]? = some r ∧ r.trackId = id
  matched : ∀ i d, p.matched.get? i = some d ↔
    (first.result.matched.get? i = some d ∧ ¬ w.Ambiguous first.result i d) ∨
      ∃ s j, second = some s ∧ s.tracks[j]? = some i ∧ s.result.matched.get? j = some d
  first_costs : ∀ i d, first.result.matched.get? i = some d → ¬ w.Ambiguous first.result i d →
    p.result.costs.get? (i, d) = first.result.costs.get? (i, d)
  second_costs : ∀ s i j d, second = some s → s.tracks[j]? = some i →
    s.result.matched.get? j = some d →
      p.result.costs.get? (i, d) = s.result.costs.get? (j, d)

theorem length_predictAll (records : List TrackRecord) (elapsed : Duration) :
    (predictAll records elapsed).length = records.length := length_map _

/-- The matching of a frame returns. -/
theorem pair_spec (hlawful : w.associator.Lawful) (records : List TrackRecord)
    (detections : List Detection) (elapsed : Duration) :
    ∃ p first second, w.pair records detections elapsed = .ok p ∧
      w.stages records detections elapsed = .ok (first, second) ∧
      w.Paired records detections first second p := by
  obtain ⟨hhigh, hhigh_nodup, hlow, hlow_nodup, hapart⟩ := @splitDetections_spec w detections
  unfold pair stages
  rcases hsplit : w.splitDetections detections with ⟨high, low⟩
  rw [hsplit] at hhigh hhigh_nodup hlow hlow_nodup hapart
  simp only at hhigh hhigh_nodup hlow hlow_nodup hapart ⊢
  have hlength := length_predictAll records elapsed
  obtain ⟨first, hstage, hassociate, htracks, hindices, hdecided⟩ :=
    @stageOn_spec w hlawful records _ _ (range records.length) _ hhigh hhigh_nodup
      (hlength.trans length_range.symm)
  have hin : ∀ i d, first.result.matched.get? i = some d → i < records.length := by
    intro i d h
    obtain ⟨c, hc, rfl, -⟩ := hdecided.picks i d h
    have hlt := (hdecided.within c hc).1
    rw [htracks, length_range] at hlt
    exact hlt
  obtain ⟨matched, refused, hfilter, hmatched, hrefused⟩ := filterAmbiguous_spec hin
  rw [hassociate, ok_bind, hfilter, ok_bind, hstage, ok_bind, hfilter, ok_bind]
  -- without a second stage the filtered matches are the frame's
  have hone : w.Paired records detections first none
      { matched, refused, result := first.result, high } := by
    refine ⟨hindices.symm, fun d hd => hhigh d (hindices ▸ hd), htracks, hdecided,
      fun s hs => ?_, hrefused, fun i d => ?_, fun i d _ _ => rfl, fun s i j d hs => ?_⟩
    · cases hs
    · rw [hmatched]
      exact ⟨.inl, fun h => h.resolve_right fun ⟨s, _, hs, _⟩ => by cases hs⟩
    · cases hs
  by_cases hruns : w.config.twoStage = true ∧ low ≠ []
  · rw [if_pos hruns]
    by_cases hleft : leftover records matched = []
    · have hskipped : ¬ (w.config.twoStage = true ∧ low ≠ [] ∧ leftover records matched ≠ []) :=
        fun h => h.2.2 hleft
      have hsecond : w.secondStage records (predictAll records elapsed) detections low matched
          first.result = .ok (matched, first.result) := by
        exact if_pos hleft
      rw [if_neg hskipped, hsecond, ok_bind]
      exact ⟨_, first, none, rfl, rfl, hone⟩
    · rw [if_pos ⟨hruns.1, hruns.2, hleft⟩]
      obtain ⟨second, matched', result', hstage₂, hsecond, htracks₂, hindices₂, hdecided₂,
        hmatched', hfirst_costs, hsecond_costs⟩ := @secondStage_spec w hlawful records
          (predictAll records elapsed) detections low matched first.result hlength hlow hlow_nodup
          hleft
      rw [hsecond, ok_bind, hstage₂, ok_bind]
      refine ⟨_, first, some second, rfl, rfl, hindices.symm, fun d hd => hhigh d (hindices ▸ hd),
        htracks, hdecided, fun s hs => ?_, hrefused, fun i d => ?_, fun i d h hclear => ?_,
        fun s i j d hs hj h => ?_⟩
      · cases hs
        refine ⟨hdecided₂, htracks₂ ▸ nodup_leftover records matched, fun i hi => ?_,
          fun d hd => ?_⟩
        · rw [htracks₂, mem_leftover] at hi
          refine ⟨hi.1, fun d h => ?_⟩
          by_contra hclear
          have hkept := (hmatched i d).mpr ⟨h, hclear⟩
          rw [hi.2] at hkept
          cases hkept
        · rw [hindices₂] at hd
          rw [hindices]
          exact ⟨hlow d hd, hapart d hd⟩
      · rw [hmatched', hmatched]
        refine or_congr Iff.rfl ⟨fun ⟨j, h⟩ => ⟨second, j, rfl, h⟩, ?_⟩
        rintro ⟨s, j, hs, h⟩
        cases hs
        exact ⟨j, h⟩
      · exact hfirst_costs i d ((hmatched i d).mpr ⟨h, hclear⟩)
      · cases hs
        exact hsecond_costs i j d hj h
  · have hskipped : ¬ (w.config.twoStage = true ∧ low ≠ [] ∧ leftover records matched ≠ []) :=
      fun h => hruns ⟨h.1, h.2.1⟩
    rw [if_neg hruns, if_neg hskipped]
    exact ⟨_, first, none, rfl, rfl, hone⟩

theorem Paired.matched_within {detections : List Detection}
    {first : Stage} {second : Option Stage} {p : Pairing}
    (h : w.Paired records detections first second p) {i d : Nat}
    (hmatched : p.matched.get? i = some d) : d < detections.length := by
  rcases (h.matched i d).mp hmatched with ⟨hfirst, -⟩ | ⟨s, j, hs, -, hsecond⟩
  · obtain ⟨c, -, -, hget, -⟩ := h.first_decided.picks i d hfirst
    exact h.within d (mem_of_getElem? hget)
  · obtain ⟨hdecided, -, -, hin⟩ := h.second_decided s hs
    obtain ⟨c, -, -, hget, -⟩ := hdecided.picks j d hsecond
    exact (hin d (mem_of_getElem? hget)).1

end GeometricWiring

end VisionOs.Tracking
