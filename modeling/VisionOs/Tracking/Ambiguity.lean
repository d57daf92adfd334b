/-
  Whether an ambiguous match is ever asserted.  The first stage refuses its near ties; the second
  is not filtered, and may match a track that the first refused.
-/
import VisionOs.Tracking.Contract

namespace VisionOs.Tracking

open Core Lib List Option

/-- The stage has this track and detection as a candidate of this cost. -/
def Stage.Gates (stage : Stage) (records : List TrackRecord) (id : TrackId) (detection : Nat)
    (cost : ℚ) : Prop :=
  ∃ c ∈ stage.candidates, ∃ i r, stage.tracks[c.trackIndex]? = some i ∧ records[i]? = some r ∧
    r.trackId = id ∧ stage.indices[c.detectionIndex]? = some detection ∧ c.cost = cost

namespace GeometricWiring

variable (w : GeometricWiring)

/-- No ambiguous association is asserted: any other detection that the association's stage gates
    for the track costs more by the margin, and a refused track is in no association. -/
structure Unambiguous (records : List TrackRecord) (first : Stage) (second : Option Stage)
    (u : TrackUpdate) : Prop where
  clear : ∀ a ∈ u.associations, ∀ stage, stage = first ∨ second = some stage →
    a.detectionIndex ∈ stage.indices → ∀ d cost, stage.Gates records a.trackId d cost →
      d ≠ a.detectionIndex → a.cost + w.association.ambiguityMargin ≤ cost
  refused : ∀ x ∈ u.refused, ∀ a ∈ u.associations, a.trackId ≠ x.trackId

/-- The cost matrix gates the detection for the track, whatever else is in the frame. -/
def Reaches (elapsed : Duration) (r : TrackRecord) (d : Detection) : Prop :=
  w.gatedCandidates [r] (predictAll [r] elapsed) [d.spatial.bbox] [d.confidence.value.exact] ≠ []

/-- A track that a weak detection reaches is reached by no other weak one, and not by two strong
    ones. -/
def Uncontested (records : List TrackRecord) (detections : List Detection) (elapsed : Duration) :
    Prop :=
  let reaches := fun (r : TrackRecord) (i : Nat) =>
    ∃ d, detections[i]? = some d ∧ w.Reaches elapsed r d
  let (high, low) := w.splitDetections detections
  ∀ r ∈ records, ∀ i ∈ low, reaches r i →
    (∀ j ∈ low, reaches r j → j = i) ∧ ∀ j ∈ high, ∀ k ∈ high, reaches r j → reaches r k → j = k

/-- The second stage's matches would all pass the filter of the first stage's, and none is of a
    track that the first stage had matched and refused. -/
def SecondStageClear (first : Stage) (second : Option Stage) : Prop :=
  ∀ s, second = some s → ∀ i j d, s.tracks[j]? = some i → s.result.matched.get? j = some d →
    ¬ w.Ambiguous s.result j d ∧ first.result.matched.get? i = none

variable {w} {records : List TrackRecord} {detections : List Detection} {first : Stage}
  {second : Option Stage} {p : Pairing}

variable {stage : Stage} {c : AssociationCandidate}

theorem decided_beats (h : stage.Decided) {i d : Nat}
    (hmatched : stage.result.matched.get? i = some d) (hclear : ¬ w.Ambiguous stage.result i d)
    (hmargin : 0 < w.association.ambiguityMargin)
    (hc : c ∈ stage.candidates) (htrack : c.trackIndex = i)
    (hother : stage.indices[c.detectionIndex]? ≠ some d) :
    (stage.result.costs.get? (i, d)).getD 0 + w.association.ambiguityMargin ≤ c.cost := by
  obtain ⟨runnerUp, hrunnerUp, hle⟩ := h.least i d hmatched c hc htrack hother
  have htie : w.nearTie stage.result i d = none := by
    by_contra hsome
    exact hclear ⟨hmargin, hsome⟩
  unfold nearTie at htie
  rw [hrunnerUp] at htie
  simp only at htie
  split at htie
  · cases htie
  · rename_i hbeaten
    have hgap := not_lt.mp hbeaten
    linarith

theorem decided_rival (h : stage.Decided) {i d : Nat}
    (hmatched : stage.result.matched.get? i = some d) (htie : w.Ambiguous stage.result i d) :
    ∃ c ∈ stage.candidates, c.trackIndex = i ∧ stage.indices[c.detectionIndex]? ≠ some d ∧
      c.cost < (stage.result.costs.get? (i, d)).getD 0 + w.association.ambiguityMargin := by
  obtain ⟨-, htie⟩ := htie
  unfold nearTie at htie
  cases hrunnerUp : stage.result.runnerUp.get? i with
  | none =>
    rw [hrunnerUp] at htie
    exact absurd rfl htie
  | some runnerUp =>
    obtain ⟨c, hc, htrack, hother, hcost⟩ := h.attained i d hmatched runnerUp hrunnerUp
    refine ⟨c, hc, htrack, hother, ?_⟩
    rw [hrunnerUp] at htie
    simp only at htie
    split at htie
    · rw [hcost]
      linarith
    · exact absurd rfl htie

/-! ## What a weak detection reaches -/

theorem mem_gatedCandidates {predictions : List Prediction} {boxes : List (Option Box)}
    {scores : List ℚ} :
    c ∈ w.gatedCandidates records predictions boxes scores ↔
      c ∈ (CostMatrixBuilder.mk w.association w.lib).build predictions
          ((boxes.filterMap id).map Rect.ofBox) scores ∧
        c.cost ≤ w.ceiling records c.trackIndex := by
  unfold gatedCandidates
  simp only
  by_cases hany : records.any (fun r => (recoveryCostFactor r.state).isSome) = true
  · rw [if_pos hany, mem_filter, decide_eq_true_eq]
  · -- no track has a bar of its own, and the cost matrix keeps to the common one
    rw [if_neg hany]
    refine ⟨fun hc => ⟨hc, ?_⟩, And.left⟩
    obtain ⟨_, _, _, -, -, -, hcost, -⟩ := CostMatrixBuilder.mem_build.mp hc
    have hceiling : w.ceiling records c.trackIndex = w.association.maxCost := by
      unfold ceiling
      cases hr : records[c.trackIndex]? with
      | none => rfl
      | some r =>
        have hnone : recoveryCostFactor r.state = none := by
          by_contra hsome
          exact hany (any_eq_true.mpr ⟨r, mem_of_getElem? hr, isSome_iff_ne_none.mpr hsome⟩)
        simp only [hnone]
    rw [hceiling]
    exact hcost

theorem getElem?_boxes (chosen : List Detection) (k : Nat) :
    (((chosen.map (·.spatial.bbox)).filterMap id).map Rect.ofBox)[k]? =
      chosen[k]?.bind fun d => d.spatial.bbox.map Rect.ofBox := by
  induction chosen generalizing k with
  | nil => rfl
  | cons d rest ih =>
    obtain ⟨box, hbox, -⟩ := d.hasBox
    have hsome : id d.spatial.bbox = some box := hbox
    rw [map_cons, filterMap_cons_some hsome, map_cons]
    cases k with
    | zero =>
      show some (Rect.ofBox box) = d.spatial.bbox.map Rect.ofBox
      rw [hbox]
      rfl
    | succ k => exact ih k

theorem gated_reaches {chosen : List Detection} {elapsed : Duration}
    (hc : c ∈ w.gatedCandidates records (predictAll records elapsed)
      (chosen.map (·.spatial.bbox)) (chosen.map (·.confidence.value.exact))) :
    ∃ r d, records[c.trackIndex]? = some r ∧ chosen[c.detectionIndex]? = some d ∧
      w.Reaches elapsed r d := by
  obtain ⟨hbuilt, hceiling⟩ := mem_gatedCandidates.mp hc
  obtain ⟨prediction, rect, predicted, hprediction, hrect, hconstruct, hcost, hcandidate⟩ :=
    CostMatrixBuilder.mem_build.mp hbuilt
  unfold predictAll at hprediction
  rw [getElem?_map, map_eq_some_iff] at hprediction
  obtain ⟨r, hr, hpredicted⟩ := hprediction
  rw [getElem?_boxes, bind_eq_some_iff] at hrect
  obtain ⟨d, hd, hrect⟩ := hrect
  obtain ⟨box, hbox, hrect⟩ := map_eq_some_iff.mp hrect
  refine ⟨r, d, hr, hd, ne_nil_of_mem (a := ⟨0, 0, c.cost⟩) ?_⟩
  rw [mem_gatedCandidates]
  constructor
  · refine CostMatrixBuilder.mem_build.mpr
      ⟨prediction, rect, predicted, congrArg some hpredicted, ?_, hconstruct, hcost, ?_⟩
    · rw [hbox]
      exact congrArg some hrect
    · rw [getD_eq_getElem?_getD, getElem?_map, hd] at hcandidate
      exact hcandidate
  · unfold ceiling at hceiling ⊢
    rw [hr] at hceiling
    exact hceiling

theorem getItems {α : Type} {xs ys : List α} {indices : List Nat}
    (h : indices.mapM (getItem xs) = .ok ys) {k : Nat} {y : α} (hy : ys[k]? = some y) :
    ∃ i, indices[k]? = some i ∧ xs[i]? = some y := by
  induction indices generalizing ys k with
  | nil =>
    rw [← Except.ok.inj h] at hy
    cases hy
  | cons i rest ih =>
    rw [mapM_cons] at h
    obtain ⟨x, hx, h⟩ := bind_eq_ok.mp h
    obtain ⟨later, hlater, h⟩ := bind_eq_ok.mp h
    rw [← Except.ok.inj h] at hy
    cases k with
    | zero =>
      cases hy
      exact ⟨i, rfl, getItem_eq_ok.mp hx⟩
    | succ k => exact ih hlater hy

theorem stageOn_reaches {elapsed : Duration} {tracks indices : List Nat}
    (h : w.stageOn records (predictAll records elapsed) detections tracks indices = .ok stage)
    (hc : c ∈ stage.candidates) :
    stage.tracks = tracks ∧ ∃ r i d, records[c.trackIndex]? = some r ∧
      stage.indices[c.detectionIndex]? = some i ∧ i ∈ indices ∧ detections[i]? = some d ∧
        w.Reaches elapsed r d := by
  obtain ⟨candidates, hcandidates, h⟩ := bind_eq_ok.mp h
  obtain ⟨result, -, h⟩ := bind_eq_ok.mp h
  cases Except.ok.inj h
  obtain ⟨chosen, hchosen, hcandidates⟩ := bind_eq_ok.mp hcandidates
  cases Except.ok.inj hcandidates
  obtain ⟨r, d, hr, hd, hreaches⟩ := gated_reaches hc
  obtain ⟨i, hi, hdetection⟩ := getItems hchosen hd
  exact ⟨rfl, r, i, d, hr, hi, mem_of_getElem? hi, hdetection, hreaches⟩

theorem predictAll_getItems {elapsed : Duration} {left : List Nat} {subRecords : List TrackRecord}
    {subPredictions : List Prediction} (hrecords : left.mapM (getItem records) = .ok subRecords)
    (hpredictions : left.mapM (getItem (predictAll records elapsed)) = .ok subPredictions) :
    subPredictions = predictAll subRecords elapsed := by
  induction left generalizing subRecords subPredictions with
  | nil =>
    cases Except.ok.inj hrecords
    cases Except.ok.inj hpredictions
    rfl
  | cons i rest ih =>
    rw [mapM_cons] at hrecords hpredictions
    obtain ⟨r, hr, hrecords⟩ := bind_eq_ok.mp hrecords
    obtain ⟨records', hrecords', hrecords⟩ := bind_eq_ok.mp hrecords
    obtain ⟨prediction, hprediction, hpredictions⟩ := bind_eq_ok.mp hpredictions
    obtain ⟨predictions', hpredictions', hpredictions⟩ := bind_eq_ok.mp hpredictions
    cases Except.ok.inj hrecords
    cases Except.ok.inj hpredictions
    rw [getItem_eq_ok] at hr hprediction
    unfold predictAll at hprediction
    rw [getElem?_map, hr] at hprediction
    rw [ih hrecords' hpredictions', ← Option.some.inj hprediction]
    rfl

/-- Where no track is contested the second stage is clear: its matches have no runner-up, and
    neither had those of the first stage for these tracks. -/
theorem Uncontested.clear {elapsed : Duration} (h : w.Uncontested records detections elapsed)
    (hstages : w.stages records detections elapsed = .ok (first, second))
    (hpaired : w.Paired records detections first second p) : w.SecondStageClear first second := by
  rintro s rfl i j d hj hmatched
  obtain ⟨hdecided, -, hleft, -⟩ := hpaired.second_decided s rfl
  obtain ⟨first', hfirst, hstages⟩ := bind_eq_ok.mp hstages
  obtain ⟨filtered, -, hstages⟩ := bind_eq_ok.mp hstages
  simp only at hstages
  split at hstages
  swap
  · cases hstages
  obtain ⟨s', hs, hstages⟩ := bind_eq_ok.mp hstages
  cases Except.ok.inj hstages
  obtain ⟨subPredictions, hpredictions, hs⟩ := bind_eq_ok.mp hs
  obtain ⟨subRecords, hrecords, hs⟩ := bind_eq_ok.mp hs
  rw [predictAll_getItems hrecords hpredictions] at hs
  -- a detection that the second stage gates for the track
  have hweak : ∀ c ∈ s.candidates, c.trackIndex = j → ∃ r k d, records[i]? = some r ∧
      s.indices[c.detectionIndex]? = some k ∧ k ∈ (w.splitDetections detections).2 ∧
        detections[k]? = some d ∧ w.Reaches elapsed r d := by
    rintro c hc rfl
    obtain ⟨htracks, r, k, d, hr, hk, hlow, hd, hreaches⟩ := stageOn_reaches hs hc
    obtain ⟨i', hi', hr⟩ := getItems hrecords hr
    rw [htracks, hi'] at hj
    cases hj
    exact ⟨r, k, d, hr, hk, hlow, hd, hreaches⟩
  obtain ⟨c₀, hc₀, htrack₀, hplace₀, -⟩ := hdecided.picks j d hmatched
  obtain ⟨r, k, det, hr, hk, hlow, hdet, hreaches⟩ := hweak c₀ hc₀ htrack₀
  rw [hplace₀] at hk
  cases hk
  obtain ⟨honly, hstrong⟩ := h r (mem_of_getElem? hr) d hlow ⟨det, hdet, hreaches⟩
  constructor
  · intro htie
    obtain ⟨c, hc, htrack, hother, -⟩ := decided_rival hdecided hmatched htie
    obtain ⟨r', k, det', hr', hk, hlow', hdet', hreaches'⟩ := hweak c hc htrack
    rw [hr] at hr'
    cases hr'
    exact hother (hk.trans (congrArg some (honly k hlow' ⟨det', hdet', hreaches'⟩)))
  · rw [Option.eq_none_iff_forall_ne_some]
    intro d' hmatched'
    have htie := (hleft i (mem_of_getElem? hj)).2 d' hmatched'
    have hhigh : ∀ c ∈ first.candidates, c.trackIndex = i → ∃ k d,
        first.indices[c.detectionIndex]? = some k ∧ k ∈ (w.splitDetections detections).1 ∧
          detections[k]? = some d ∧ w.Reaches elapsed r d := by
      rintro c hc rfl
      obtain ⟨-, r', k, d, hr', hk, hin, hd, hreaches⟩ := stageOn_reaches hfirst hc
      rw [hr] at hr'
      cases hr'
      exact ⟨k, d, hk, hin, hd, hreaches⟩
    obtain ⟨c, hc, htrack, hplace, -⟩ := hpaired.first_decided.picks i d' hmatched'
    obtain ⟨c', hc', htrack', hother, -⟩ := decided_rival hpaired.first_decided hmatched' htie
    obtain ⟨k, dk, hk, hin, hdk, hreach⟩ := hhigh c hc htrack
    obtain ⟨k', dk', hk', hin', hdk', hreach'⟩ := hhigh c' hc' htrack'
    rw [hplace] at hk
    cases hk
    have hsame := hstrong k' hin' d' hin ⟨dk', hdk', hreach'⟩ ⟨dk, hdk, hreach⟩
    exact hother (hk'.trans (congrArg some hsame))

/-! ## The associations of an update -/

variable {request : TrackingRequest} {elapsed : Duration} {t t' t₁ : TrackTable}
  {u : TrackUpdate} {turns : List Turn} {made : List TrackRecord}

theorem Moved.associationCost {r r' : TrackRecord} {i d : Nat} {transition : Transition}
    (h : w.Moved request elapsed p r i transition r') (hmatched : p.matched.get? i = some d) :
    r'.associationCost = (p.result.costs.get? (i, d)).getD 0 := by
  cases h with
  | hit matched found boxed moved =>
    rw [hmatched] at matched
    cases matched
    obtain ⟨_, _, _, _, _, heq⟩ := w.hitRecord_eq r transition.current _ _ request elapsed
      p.result i d
    rw [heq]
    rfl
  | miss unmatched moved =>
    rw [hmatched] at unmatched
    cases unmatched

theorem associations_of_turns {entries : List (TrackRecord × Nat)}
    (h : List.Forall₂ (fun e v => ∃ transition r',
      w.Moved request elapsed p e.1 e.2 transition r' ∧ Reported p e.1 e.2 transition r' v)
      entries turns) :
    ∀ a ∈ turns.filterMap (·.association), ∃ e ∈ entries, a.trackId = e.1.trackId ∧
      p.matched.get? e.2 = some a.detectionIndex ∧
        a.cost = (p.result.costs.get? (e.2, a.detectionIndex)).getD 0 := by
  induction h with
  | nil => exact fun a ha => absurd ha not_mem_nil
  | @cons e v entries turns hfirst _ ih =>
    obtain ⟨transition, r', hmoved, hreported⟩ := hfirst
    have hlater : ∀ a ∈ turns.filterMap (·.association), ∃ e' ∈ e :: entries,
        a.trackId = e'.1.trackId ∧ p.matched.get? e'.2 = some a.detectionIndex ∧
          a.cost = (p.result.costs.get? (e'.2, a.detectionIndex)).getD 0 := by
      intro a ha
      obtain ⟨e', he', hthis⟩ := ih a ha
      exact ⟨e', mem_cons_of_mem _ he', hthis⟩
    rcases hreported.association with ⟨-, hnone⟩ | ⟨d, a, hmatched, hsome, hid, hd, hcost⟩
    · rw [filterMap_cons_none hnone]
      exact hlater
    · have hcost' := hcost.trans (hmoved.associationCost hmatched)
      rw [filterMap_cons_some hsome]
      intro a' ha'
      rcases mem_cons.mp ha' with rfl | ha'
      · exact ⟨e, mem_cons_self, hid, by rw [hd]; exact hmatched, by rw [hd]; exact hcost'⟩
      · exact hlater a' ha'

theorem index_unique (h : t.WellKept) {i i' : Nat} {r r' : TrackRecord}
    (hr : t.records[i]? = some r) (hr' : t.records[i']? = some r')
    (hid : r.trackId = r'.trackId) : i = i' := by
  obtain ⟨hi, rfl⟩ := List.getElem?_eq_some_iff.mp hr
  obtain ⟨hi', rfl⟩ := List.getElem?_eq_some_iff.mp hr'
  have hnodup := h.nodup_records
  have hlt : i < (t.records.map (·.trackId)).length := by rw [length_map]; exact hi
  have hlt' : i' < (t.records.map (·.trackId)).length := by rw [length_map]; exact hi'
  refine (@List.Nodup.getElem_inj_iff _ _ hnodup i hlt i' hlt').mp ?_
  rw [getElem_map, getElem_map]
  exact hid

theorem FrameDone.unambiguous (hkept : t.WellKept) (hmargin : 0 < w.association.ambiguityMargin)
    (hpaired : w.Paired t.records request.detections first second p)
    (hsecond : w.SecondStageClear first second)
    (h : FrameDone w request elapsed t u t' p turns t₁ made) :
    w.Unambiguous t.records first second u := by
  have hfrom := associations_of_turns h.turned.each
  rw [← h.associations] at hfrom
  have hrecord : ∀ {e : TrackRecord × Nat}, e ∈ t.records.zipIdx → t.records[e.2]? = some e.1 :=
    fun he => mem_zipIdx_iff_getElem?.mp he
  -- a candidate that a stage gates for a track is the stage's candidate for its index
  have hgated : ∀ {stage : Stage} {i r d cost}, t.records[i]? = some r →
      stage.Gates t.records r.trackId d cost → ∃ c ∈ stage.candidates,
        stage.tracks[c.trackIndex]? = some i ∧ stage.indices[c.detectionIndex]? = some d ∧
          c.cost = cost := by
    rintro stage i r d cost hr ⟨c, hc, i', r', htrack, hr', hid, hdetection, hcost⟩
    rw [index_unique hkept hr' hr hid] at htrack
    exact ⟨c, hc, htrack, hdetection, hcost⟩
  refine ⟨fun a ha stage hstage hin d cost hgates hne => ?_, fun x hx a ha heq => ?_⟩
  · obtain ⟨e, he, hid, hmatched, hcost⟩ := hfrom a ha
    rw [hid] at hgates
    obtain ⟨c, hc, htrack, hdetection, rfl⟩ := hgated (hrecord he) hgates
    have hother : stage.indices[c.detectionIndex]? ≠ some a.detectionIndex := by
      rw [hdetection]
      exact fun heq => hne (Option.some.inj heq)
    rcases (hpaired.matched _ _).mp hmatched with ⟨hfirst, hclear⟩ | ⟨s, j, hs, hj, hmatched'⟩
    · -- a match of the first stage, by one of its detections
      obtain ⟨c₀, -, -, hplace, -⟩ := hpaired.first_decided.picks _ _ hfirst
      rcases hstage with rfl | hstage
      · rw [hpaired.first_tracks] at htrack
        have hindex : c.trackIndex = e.2 := by
          obtain ⟨hlt, hget⟩ := List.getElem?_eq_some_iff.mp htrack
          rw [getElem_range] at hget
          exact hget
        rw [hcost, hpaired.first_costs _ _ hfirst hclear]
        exact decided_beats hpaired.first_decided hfirst hclear hmargin hc hindex hother
      · exact absurd (mem_of_getElem? hplace)
          ((hpaired.second_decided stage hstage).2.2.2 _ hin).2
    · -- a match of the second stage
      obtain ⟨hdecided, hnodup, -, hapart⟩ := hpaired.second_decided s hs
      obtain ⟨c₀, -, -, hplace, -⟩ := hdecided.picks _ _ hmatched'
      rcases hstage with rfl | hstage
      · exact absurd hin (hapart _ (mem_of_getElem? hplace)).2
      rw [hs] at hstage
      cases hstage
      have hindex : c.trackIndex = j := by
        obtain ⟨hlt, hget⟩ := List.getElem?_eq_some_iff.mp htrack
        obtain ⟨hlt', hget'⟩ := List.getElem?_eq_some_iff.mp hj
        exact (List.Nodup.getElem_inj_iff hnodup).mp (hget.trans hget'.symm)
      rw [hcost, hpaired.second_costs stage _ j _ hs hj hmatched']
      exact decided_beats hdecided hmatched' (hsecond stage hs _ j _ hj hmatched').1 hmargin hc
        hindex hother
  · rw [h.refused] at hx
    obtain ⟨i, d, r, hfirst, htie, hr, hid⟩ :=
      (hpaired.refused x.trackId).mp (mem_map.mpr ⟨x, hx, rfl⟩)
    obtain ⟨e, he, hida, hmatched, -⟩ := hfrom a ha
    have hindex : e.2 = i :=
      index_unique hkept (hrecord he) hr (hida.symm.trans (heq.trans hid.symm))
    rw [hindex] at hmatched
    rcases (hpaired.matched _ _).mp hmatched with ⟨hfirst', hclear⟩ | ⟨s, j, hs, hj, hmatched'⟩
    · rw [hfirst] at hfirst'
      cases hfirst'
      exact hclear htie
    · have hnone := (hsecond s hs i j _ hj hmatched').2
      rw [hfirst] at hnone
      cases hnone

end GeometricWiring

namespace GeometricTracker

/-- A tracker that ships, in any reachable state, with a positive margin: the update of a frame
    whose weak detections are uncontested asserts nothing ambiguous. -/
theorem asserts_nothing_ambiguous
    {factory : String × (PlatformMath → BuilderArguments → GeometricWiring)}
    (hfactory : factory ∈ trackerFactories) {lib : PlatformMath} {a : BuilderArguments}
    {s s' : GeometricTracker} (hreachable : Reachable (factory.2 lib a) s)
    (hmargin : 0 < (factory.2 lib a).association.ambiguityMargin) {request : TrackingRequest}
    {u : TrackUpdate} (haccepted : update (factory.2 lib a) request s = (.ok u, s'))
    (huncontested : (factory.2 lib a).Uncontested
      (s.tableAt (factory.2 lib a) request.cameraId).records request.detections
        (elapsedFor request s)) :
    let w := factory.2 lib a
    let records := (s.tableAt w request.cameraId).records
    ∃ first second,
      w.stages records request.detections (elapsedFor request s) = .ok (first, second) ∧
        w.Unambiguous records first second u := by
  intro w records
  have hsound : Sound w s := hreachable.sound
  obtain ⟨t', p, turns, t₁, made, -, hdone⟩ := (Effect.wp_ok haccepted (update_spec hsound request)).frame
  obtain ⟨p', first, second, hpair, hstages, hpaired⟩ :=
    GeometricWiring.pair_spec (trackerFactories_spec hfactory lib a).1 records request.detections
      (elapsedFor request s)
  have hsame : p' = p := Except.ok.inj (hpair.symm.trans hdone.paired)
  rw [hsame] at hpaired
  exact ⟨first, second, hstages, hdone.unambiguous (hsound.tableAt request.cameraId).1 hmargin
    hpaired (huncontested.clear hstages hpaired)⟩

/-! ## Two weak detections beside a track -/

/-- Two places a person may have gone to, a little to the left and a little to the right, each
    seen weakly. -/
def slightlyLeft : Detection :=
  personAt (1 / 5) (9 / 20) (3 / 10) (by decide +kernel) (by decide +kernel) (by decide +kernel)

def slightlyRight : Detection :=
  personAt (3 / 10) (11 / 20) (3 / 10) (by decide +kernel) (by decide +kernel) (by decide +kernel)

/-- The two-stage tracker after one frame with one person. -/
def afterOnePerson : GeometricTracker :=
  after (buildBytetrackTracker horizontalMath {}) {} (streetRequest 0 [leftPerson])

def eitherCost : ℚ := 14767135623730951 / 70710678118654755

def firstTrackId : TrackId where
  cameraId := "street"
  trackerEpoch := 0
  localId := 0
  accepted := rfl

/-- One strong detection, then two weak ones at the same cost: the second stage asserts the first
    of them. -/
theorem tie_asserted :
    let w := buildBytetrackTracker horizontalMath {}
    let records := (afterOnePerson.tableAt w "street").records
    let request := streetRequest 1 [slightlyLeft, slightlyRight]
    Reachable w afterOnePerson ∧ 0 < w.association.ambiguityMargin ∧
      ∃ u, (update w request afterOnePerson).1 = .ok u ∧ ∀ first second,
        w.stages records request.detections (elapsedFor request afterOnePerson) =
            .ok (first, second) →
          ¬ w.Unambiguous records first second u := by
  intro w records request
  refine ⟨⟨[("street", .update (streetRequest 0 [leftPerson]).frameRef
    (streetRequest 0 [leftPerson]).timestamp ⟨0⟩ [leftPerson])], rfl⟩, by decide +kernel, ?_⟩
  -- what is published, and what the second stage is given
  obtain ⟨u, hupdate, a, ha, hid, hd, hcost⟩ :
      ∃ u, (update w request afterOnePerson).1 = .ok u ∧ ∃ a ∈ u.associations,
        a.trackId = firstTrackId ∧ a.detectionIndex = 0 ∧ a.cost = eitherCost :=
    returns_of_any (by decide +kernel)
  obtain ⟨q, hstages, hgiven⟩ :
      ∃ q, w.stages records request.detections (elapsedFor request afterOnePerson) = .ok q ∧
        q.2.map (fun s => (s.tracks, s.indices, s.candidates)) =
          some ([0], [0, 1], [⟨0, 0, eitherCost⟩, ⟨0, 1, eitherCost⟩]) :=
    returns_of_any (by decide +kernel)
  have hfirst : (records.map (·.trackId))[0]? = some firstTrackId := by decide +kernel
  refine ⟨u, hupdate, fun first second hstages' hunambiguous => ?_⟩
  obtain rfl := Except.ok.inj (hstages.symm.trans hstages')
  obtain ⟨stage, rfl, hparts⟩ := map_eq_some_iff.mp hgiven
  rw [Prod.mk.injEq, Prod.mk.injEq] at hparts
  obtain ⟨htracks, hindices, hcandidates⟩ := hparts
  rw [getElem?_map, map_eq_some_iff] at hfirst
  obtain ⟨r, hr, hrid⟩ := hfirst
  -- the other place is gated at the same cost
  have hgates : stage.Gates records a.trackId 1 eitherCost :=
    ⟨⟨0, 1, eitherCost⟩, by rw [hcandidates]; simp, 0, r, by rw [htracks]; rfl, hr,
      hrid.trans hid.symm, by rw [hindices]; rfl, rfl⟩
  have hbeaten := hunambiguous.clear a ha stage (.inr rfl) (by rw [hindices, hd]; simp) 1
    eitherCost hgates (by rw [hd]; decide)
  rw [hcost] at hbeaten
  have hmargin : 0 < w.association.ambiguityMargin := by decide +kernel
  linarith

/-- With one of the two alone, the second stage goes on with the track, and nothing is
    ambiguous. -/
theorem one_weak_detection_asserted :
    let w := buildBytetrackTracker horizontalMath {}
    let records := (afterOnePerson.tableAt w "street").records
    let request := streetRequest 1 [slightlyLeft]
    ∃ u s', update w request afterOnePerson = (.ok u, s') ∧ u.associations.length = 1 ∧
      ∃ first second, w.stages records request.detections (elapsedFor request afterOnePerson) =
          .ok (first, second) ∧ w.Unambiguous records first second u := by
  intro w records request
  obtain ⟨u, hresult, hlength⟩ : ∃ u, (update w request afterOnePerson).1 = .ok u ∧
      u.associations.length = 1 := returns_of_any (by decide +kernel)
  refine ⟨u, _, Prod.ext hresult rfl, hlength,
    @asserts_nothing_ambiguous ("tracker.bytetrack", buildBytetrackTracker)
      (mem_cons_of_mem _ (mem_cons_of_mem _ mem_cons_self)) horizontalMath {}
      afterOnePerson _ ⟨[("street", .update (streetRequest 0 [leftPerson]).frameRef
        (streetRequest 0 [leftPerson]).timestamp ⟨0⟩ [leftPerson])], rfl⟩ (by decide +kernel)
      request u (Prod.ext hresult rfl) ?_⟩
  -- there is one weak detection, and no strong one
  have hsplit : w.splitDetections request.detections = ([], [0]) := by decide +kernel
  show w.Uncontested records request.detections _
  unfold GeometricWiring.Uncontested
  rw [hsplit]
  intro reaches r _ i hi _
  refine ⟨fun j hj _ => ?_, fun j hj => absurd hj not_mem_nil⟩
  exact (mem_singleton.mp hj).trans (mem_singleton.mp hi).symm

end GeometricTracker

end VisionOs.Tracking
