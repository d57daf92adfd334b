/-
  What both associators owe: they match candidates, a track at most once, and the
  runner-up of a matched track is the cheapest of its other candidates.
-/
import VisionOs.Tracking.Pricing

namespace VisionOs.Tracking

open Core Lib List OrderedDict Option Optimal Prod

/-- What every associator owes: a one-to-one choice of candidates. -/
structure AssociationPort.Lawful (port : AssociationPort) : Prop where
  /-- A match is a candidate, and its cost is the candidate's. -/
  picks : ∀ trackCount detectionCount candidates maxCost,
    ∀ q ∈ (port.assign trackCount detectionCount candidates maxCost).pairs,
      ∃ c ∈ candidates, c.trackIndex = q.1 ∧ c.detectionIndex = q.2 ∧
        (port.assign trackCount detectionCount candidates maxCost).costs.get? q = some c.cost
  /-- A track is matched once. -/
  once : ∀ trackCount detectionCount candidates maxCost,
    ((port.assign trackCount detectionCount candidates maxCost).pairs.map (·.1)).Nodup
  /-- The runner-up costs no more than any other candidate of the track. -/
  least : ∀ trackCount detectionCount candidates maxCost, (∀ c ∈ candidates, c.cost ≤ maxCost) →
    ∀ q ∈ (port.assign trackCount detectionCount candidates maxCost).pairs, ∀ c ∈ candidates,
      c.trackIndex = q.1 → c.detectionIndex ≠ q.2 → ∃ cost,
        (port.assign trackCount detectionCount candidates maxCost).runnerUp.get? q.1 = some cost ∧
          cost ≤ c.cost
  /-- The runner-up is another candidate of the track. -/
  attained : ∀ trackCount detectionCount candidates maxCost,
    ∀ q ∈ (port.assign trackCount detectionCount candidates maxCost).pairs, ∀ cost,
      (port.assign trackCount detectionCount candidates maxCost).runnerUp.get? q.1 = some cost →
        ∃ c ∈ candidates, c.trackIndex = q.1 ∧ c.detectionIndex ≠ q.2 ∧ c.cost = cost

theorem get?_lowerRunnerUp_of_ne {runnerUp : OrderedDict Nat ℚ} {track track' : Nat} (cost : ℚ)
    (h : track ≠ track') :
    (lowerRunnerUp runnerUp track cost).get? track' = runnerUp.get? track' := by
  unfold lowerRunnerUp
  split
  · rw [get?_set, if_neg h]
  · split
    · rw [get?_set, if_neg h]
    · rfl

theorem get?_lowerRunnerUp_self (runnerUp : OrderedDict Nat ℚ) (track : Nat) (cost : ℚ) :
    ∃ least, (lowerRunnerUp runnerUp track cost).get? track = some least ∧ least ≤ cost ∧
      (least = cost ∨ runnerUp.get? track = some least) ∧
      ∀ before, runnerUp.get? track = some before → least ≤ before := by
  unfold lowerRunnerUp
  cases hbefore : runnerUp.get? track with
  | none => exact ⟨cost, get?_set_self _ _ _, le_refl _, .inl rfl, fun _ h => by cases h⟩
  | some before =>
    by_cases hlower : cost < before
    · simp only [if_pos hlower]
      refine ⟨cost, get?_set_self _ _ _, le_refl _, .inl rfl, fun _ h => ?_⟩
      rw [← some.inj h]
      exact hlower.le
    · simp only [if_neg hlower]
      refine ⟨before, hbefore, not_lt.mp hlower, .inr rfl, fun _ h => ?_⟩
      rw [← some.inj h]

theorem lowerRunnerUp_le {runnerUp : OrderedDict Nat ℚ} {track track' : Nat} {cost before : ℚ}
    (h : runnerUp.get? track' = some before) :
    ∃ least, (lowerRunnerUp runnerUp track cost).get? track' = some least ∧ least ≤ before := by
  by_cases htrack : track = track'
  · subst htrack
    obtain ⟨least, hleast, -, -, hle⟩ := get?_lowerRunnerUp_self runnerUp track cost
    exact ⟨least, hleast, hle before h⟩
  · exact ⟨before, by rw [get?_lowerRunnerUp_of_ne cost htrack]; exact h, le_refl _⟩

/-! ## Greedy -/

namespace Greedy

structure Scan.Inv (candidates : List AssociationCandidate) (s : Scan) : Prop where
  picked : ∀ q ∈ s.pairs, ∃ c ∈ candidates, c.trackIndex = q.1 ∧ c.detectionIndex = q.2 ∧
    s.costs.get? q = some c.cost
  once : (s.pairs.map (·.1)).Nodup
  tracks : ∀ t, t ∈ s.takenTracks ↔ t ∈ s.pairs.map (·.1)
  detections : ∀ d, d ∈ s.takenDetections ↔ d ∈ s.pairs.map (·.2)
  costed : ∀ q cost, s.costs.get? q = some cost → q ∈ s.pairs
  lost : ∀ t cost, s.runnerUp.get? t = some cost → ∃ c ∈ candidates, c.trackIndex = t ∧
    c.cost = cost ∧ (t, c.detectionIndex) ∉ s.pairs

def Scan.LostDetection (candidates : List AssociationCandidate) (s : Scan) : Prop :=
  ∀ t cost, s.runnerUp.get? t = some cost → ∃ c ∈ candidates, c.trackIndex = t ∧
    c.cost = cost ∧ c.detectionIndex ∈ s.takenDetections ∧ (t, c.detectionIndex) ∉ s.pairs

variable {candidates : List AssociationCandidate} {s : Scan}

theorem Scan.Inv.start : Scan.Inv candidates {} where
  picked := fun _ hq => absurd hq not_mem_nil
  once := nodup_nil
  tracks := fun _ => Iff.rfl
  detections := fun _ => Iff.rfl
  costed := fun q cost h =>
    absurd (h.symm.trans (get?_empty q)) (some_ne_none cost)
  lost := fun t cost h =>
    absurd (h.symm.trans (get?_empty t)) (some_ne_none cost)

variable {c : AssociationCandidate}

theorem Scan.Inv.consider (h : s.Inv candidates) (hlost : s.LostDetection candidates)
    (hc : c ∈ candidates) :
    (s.consider c).Inv candidates ∧ (s.consider c).LostDetection candidates := by
  unfold Scan.consider
  by_cases htrack : c.trackIndex ∈ s.takenTracks
  · rw [if_pos htrack]
    exact ⟨h, hlost⟩
  rw [if_neg htrack]
  have hfree : ∀ d, (c.trackIndex, d) ∉ s.pairs := by
    intro d hd
    exact htrack ((h.tracks _).mpr (mem_map.mpr ⟨_, hd, rfl⟩))
  by_cases hdetection : c.detectionIndex ∈ s.takenDetections
  · rw [if_pos hdetection]
    split
    · -- the candidate is its track's first runner-up
      have hnew : ∀ t cost, (s.runnerUp.set c.trackIndex c.cost).get? t = some cost →
          ∃ c' ∈ candidates, c'.trackIndex = t ∧ c'.cost = cost ∧
            c'.detectionIndex ∈ s.takenDetections ∧ (t, c'.detectionIndex) ∉ s.pairs := by
        intro t cost hcost
        rcases get?_of_set hcost with ⟨heq, rfl⟩ | ⟨-, hcost⟩
        · exact ⟨c, hc, heq, rfl, hdetection, heq ▸ hfree _⟩
        · exact hlost t cost hcost
      refine ⟨⟨h.picked, h.once, h.tracks, h.detections, h.costed, fun t cost hcost => ?_⟩, hnew⟩
      obtain ⟨c', hc', htrack', hcost', -, hnot⟩ := hnew t cost hcost
      exact ⟨c', hc', htrack', hcost', hnot⟩
    · exact ⟨h, hlost⟩
  · rw [if_neg hdetection]
    -- the candidate is matched: its detection was free, so no runner-up has it
    have hnew : ∀ t cost, s.runnerUp.get? t = some cost →
        ∃ c' ∈ candidates, c'.trackIndex = t ∧ c'.cost = cost ∧
          c'.detectionIndex ∈ c.detectionIndex :: s.takenDetections ∧
          (t, c'.detectionIndex) ∉ s.pairs ++ [(c.trackIndex, c.detectionIndex)] := by
      intro t cost hcost
      obtain ⟨c', hc', htrack', hcost', htaken, hnot⟩ := hlost t cost hcost
      refine ⟨c', hc', htrack', hcost', mem_cons_of_mem _ htaken, fun hmem => ?_⟩
      rcases mem_append.mp hmem with hmem | hmem
      · exact hnot hmem
      · have heq := (Prod.mk.inj (mem_singleton.mp hmem)).2
        exact hdetection (heq ▸ htaken)
    refine ⟨⟨fun q hq => ?_, ?_, fun t => ?_, fun d => ?_, fun q cost hcost => ?_,
      fun t cost hcost => ?_⟩, hnew⟩
    · rcases mem_append.mp hq with hq | hq
      · obtain ⟨c', hc', ht, hd, hcost⟩ := h.picked q hq
        refine ⟨c', hc', ht, hd, ?_⟩
        rw [get?_set, if_neg ?_]
        · exact hcost
        · rintro rfl
          exact hfree _ hq
      · rw [mem_singleton.mp hq]
        exact ⟨c, hc, rfl, rfl, get?_set_self _ _ _⟩
    · rw [map_append, nodup_append]
      refine ⟨h.once, nodup_singleton _, ?_⟩
      rintro t ht t' ht' rfl
      rw [mem_singleton.mp ht'] at ht
      exact htrack ((h.tracks _).mpr ht)
    · rw [mem_cons, map_append, mem_append, h.tracks]
      exact ⟨fun hor => hor.symm.imp id fun heq => mem_singleton.mpr heq,
        fun hor => hor.symm.imp (fun hmem => mem_singleton.mp hmem) id⟩
    · rw [mem_cons, map_append, mem_append, h.detections]
      exact ⟨fun hor => hor.symm.imp id fun heq => mem_singleton.mpr heq,
        fun hor => hor.symm.imp (fun hmem => mem_singleton.mp hmem) id⟩
    · rcases get?_of_set hcost with ⟨heq, rfl⟩ | ⟨-, hcost⟩
      · exact mem_append_right _ (mem_singleton.mpr heq.symm)
      · exact mem_append_left _ (h.costed q cost hcost)
    · obtain ⟨c', hc', htrack', hcost', -, hnot⟩ := hnew t cost hcost
      exact ⟨c', hc', htrack', hcost', hnot⟩

variable {rest : List AssociationCandidate}

theorem Scan.Inv.first (maxCost : ℚ) (h : s.Inv candidates)
    (hlost : s.LostDetection candidates) (hrest : ∀ c ∈ rest, c ∈ candidates) :
    (Scan.first maxCost s rest).Inv candidates := by
  induction rest generalizing s with
  | nil => exact h
  | cons c rest ih =>
    unfold Scan.first
    split
    · exact h
    · obtain ⟨hnext, hlost'⟩ := h.consider hlost (hrest c mem_cons_self)
      exact ih hnext hlost' fun c' hc' => hrest c' (mem_cons_of_mem _ hc')

def Scan.Losing (s : Scan) (c : AssociationCandidate) : Prop :=
  c.trackIndex ∈ s.takenTracks ∧ (c.trackIndex, c.detectionIndex) ∉ s.pairs

theorem Scan.Inv.lose (h : s.Inv candidates) (hc : c ∈ candidates) :
    (s.lose c).Inv candidates ∧ (s.lose c).pairs = s.pairs ∧
      (s.lose c).takenTracks = s.takenTracks ∧
      (∀ t before, s.runnerUp.get? t = some before →
        ∃ cost, (s.lose c).runnerUp.get? t = some cost ∧ cost ≤ before) ∧
      (s.Losing c → ∃ cost, (s.lose c).runnerUp.get? c.trackIndex = some cost ∧
        cost ≤ c.cost) := by
  unfold Scan.lose
  by_cases htaken : c.trackIndex ∈ s.takenTracks
  · rw [if_pos htaken]
    cases hcost : s.costs.get? (c.trackIndex, c.detectionIndex) with
    | some won =>
      refine ⟨h, rfl, rfl, fun t before hbefore => ⟨before, hbefore, le_refl _⟩, fun hlosing => ?_⟩
      exact absurd (h.costed _ _ hcost) hlosing.2
    | none =>
      have hunmatched : (c.trackIndex, c.detectionIndex) ∉ s.pairs := by
        intro hmem
        obtain ⟨c', -, -, -, hcost'⟩ := h.picked _ hmem
        rw [hcost] at hcost'
        cases hcost'
      obtain ⟨least, hleast, hle, hwhich, -⟩ :=
        get?_lowerRunnerUp_self s.runnerUp c.trackIndex c.cost
      refine ⟨⟨h.picked, h.once, h.tracks, h.detections, h.costed, fun t cost hlower => ?_⟩, rfl,
        rfl, fun t before hbefore => lowerRunnerUp_le hbefore, fun _ => ⟨least, hleast, hle⟩⟩
      by_cases htrack : c.trackIndex = t
      · subst htrack
        rw [hleast] at hlower
        cases hlower
        rcases hwhich with rfl | hbefore
        · exact ⟨c, hc, rfl, rfl, hunmatched⟩
        · exact h.lost _ _ hbefore
      · rw [get?_lowerRunnerUp_of_ne _ htrack] at hlower
        exact h.lost t cost hlower
  · rw [if_neg htaken]
    exact ⟨h, rfl, rfl, fun t before hbefore => ⟨before, hbefore, le_refl _⟩,
      fun hlosing => absurd hlosing.1 htaken⟩

theorem Scan.Inv.foldl_lose (h : s.Inv candidates)
    (hrest : ∀ c ∈ rest, c ∈ candidates) :
    (rest.foldl Scan.lose s).Inv candidates ∧ (rest.foldl Scan.lose s).pairs = s.pairs ∧
      (∀ t before, s.runnerUp.get? t = some before →
        ∃ cost, (rest.foldl Scan.lose s).runnerUp.get? t = some cost ∧ cost ≤ before) ∧
      ∀ c ∈ rest, s.Losing c → ∃ cost,
        (rest.foldl Scan.lose s).runnerUp.get? c.trackIndex = some cost ∧ cost ≤ c.cost := by
  induction rest generalizing s with
  | nil =>
    exact ⟨h, rfl, fun t before hbefore => ⟨before, hbefore, le_refl _⟩,
      fun c hc => absurd hc not_mem_nil⟩
  | cons c rest ih =>
    obtain ⟨hnext, hpairs, htaken, hdown, hthis⟩ := h.lose (hrest c mem_cons_self)
    obtain ⟨hall, hpairs', hdown', hothers⟩ :=
      ih hnext fun c' hc' => hrest c' (mem_cons_of_mem _ hc')
    refine ⟨hall, hpairs'.trans hpairs, fun t before hbefore => ?_, fun c' hc' hlosing => ?_⟩
    · obtain ⟨cost, hcost, hle⟩ := hdown t before hbefore
      obtain ⟨cost', hcost', hle'⟩ := hdown' t cost hcost
      exact ⟨cost', hcost', hle'.trans hle⟩
    · rcases mem_cons.mp hc' with rfl | hc'
      · obtain ⟨cost, hcost, hle⟩ := hthis hlosing
        obtain ⟨cost', hcost', hle'⟩ := hdown' _ cost hcost
        exact ⟨cost', hcost', hle'.trans hle⟩
      · refine hothers c' hc' ⟨?_, ?_⟩
        · rw [htaken]
          exact hlosing.1
        · rw [hpairs]
          exact hlosing.2

end Greedy

theorem greedyAssociator_lawful : greedyAssociator.Lawful := by
  -- both loops, over the sorted candidates
  have hscan : ∀ (candidates : List AssociationCandidate) (maxCost : ℚ),
      let ordered := candidates.insertionSort (·.before ·)
      let first := Greedy.Scan.first maxCost {} ordered
      let s := ordered.foldl Greedy.Scan.lose first
      s.Inv candidates ∧ s.pairs = first.pairs ∧ first.Inv candidates ∧
        ∀ c ∈ candidates, first.Losing c → ∃ cost,
          s.runnerUp.get? c.trackIndex = some cost ∧ cost ≤ c.cost := by
    intro candidates maxCost ordered first s
    have hmem : ∀ c ∈ ordered, c ∈ candidates := fun c hc => (mem_insertionSort _).mp hc
    have hlost : Greedy.Scan.LostDetection candidates {} := fun t cost h =>
      absurd (h.symm.trans (get?_empty t)) (some_ne_none cost)
    have hfirst : first.Inv candidates := Greedy.Scan.Inv.start.first maxCost hlost hmem
    obtain ⟨hall, hpairs, -, hlosing⟩ := hfirst.foldl_lose hmem
    exact ⟨hall, hpairs, hfirst, fun c hc => hlosing c ((mem_insertionSort _).mpr hc)⟩
  refine ⟨fun _ _ candidates maxCost q hq => ?_, fun _ _ candidates maxCost => ?_,
    fun _ _ candidates maxCost _ q hq c hc htrack hne => ?_,
    fun _ _ candidates maxCost q hq cost hcost => ?_⟩
  · exact (hscan candidates maxCost).1.picked q hq
  · exact (hscan candidates maxCost).1.once
  · obtain ⟨hall, hpairs, hfirst, hlosing⟩ := hscan candidates maxCost
    rw [← htrack]
    refine hlosing c hc ⟨?_, fun hmem => ?_⟩
    · rw [hfirst.tracks, ← hpairs]
      exact mem_map.mpr ⟨q, hq, htrack.symm⟩
    · -- the track is matched once, with `q`
      rw [← hpairs] at hmem
      have heq := inj_on_of_nodup_map hall.once hmem hq htrack
      exact hne (congrArg snd heq)
  · obtain ⟨c, hc, htrack, hcost', hnot⟩ := (hscan candidates maxCost).1.lost _ cost hcost
    refine ⟨c, hc, htrack, fun heq => ?_, hcost'⟩
    rw [heq] at hnot
    exact hnot hq

/-! ## Optimal -/

namespace Optimal

theorem mem_sortedSet {xs : List Nat} {x : Nat} : x ∈ sortedSet xs ↔ x ∈ xs := by
  unfold sortedSet
  rw [mem_insertionSort, mem_dedup]

theorem nodup_sortedSet (xs : List Nat) : (sortedSet xs).Nodup :=
  (perm_insertionSort _ _).nodup_iff.mpr (nodup_dedup xs)

theorem foldl_cell (track detection : Nat) (feasible : List AssociationCandidate) (cell : ℚ) :
    let found := feasible.foldl (fun cell c =>
      if c.trackIndex = track ∧ c.detectionIndex = detection then c.cost else cell) cell
    found = cell ∨ ∃ c ∈ feasible, c.trackIndex = track ∧ c.detectionIndex = detection ∧
      c.cost = found := by
  induction feasible generalizing cell with
  | nil => exact .inl rfl
  | cons c rest ih =>
    simp only [foldl_cons]
    split
    · rename_i hthis
      rcases ih c.cost with hcost | ⟨c', hc', hfound⟩
      · exact .inr ⟨c, mem_cons_self, hthis.1, hthis.2, hcost.symm⟩
      · exact .inr ⟨c', mem_cons_of_mem _ hc', hfound⟩
    · rcases ih cell with hcell | ⟨c', hc', hfound⟩
      · exact .inl hcell
      · exact .inr ⟨c', mem_cons_of_mem _ hc', hfound⟩

variable {rows cols : List Nat} {feasible : List AssociationCandidate}
  {assignment : List (Nat × Nat)}

theorem entryAt_denseMatrix {row col : Nat} (hrow : row < rows.length) (hcol : col < cols.length) :
    entryAt (denseMatrix rows cols feasible) row col =
      feasible.foldl (fun cell c => if c.trackIndex = rows.getD row 0 ∧
        c.detectionIndex = cols.getD col 0 then c.cost else cell) infeasible := by
  unfold entryAt denseMatrix
  simp [getD_eq_getElem?_getD, hrow, hcol]

theorem entry_denseMatrix {row col : Nat} (hrow : row < rows.length) (hcol : col < cols.length)
    (hfeasible : entryAt (denseMatrix rows cols feasible) row col < infeasible) :
    ∃ c ∈ feasible, c.trackIndex = rows.getD row 0 ∧ c.detectionIndex = cols.getD col 0 ∧
      c.cost = entryAt (denseMatrix rows cols feasible) row col := by
  rw [entryAt_denseMatrix hrow hcol] at hfeasible ⊢
  rcases foldl_cell (rows.getD row 0) (cols.getD col 0) feasible infeasible with hnone | hfound
  · rw [hnone] at hfeasible
    exact absurd hfeasible (lt_irrefl _)
  · exact hfound

theorem mem_feasibleCells
    (hwithin : ∀ q ∈ assignment, q.1 < rows.length ∧ q.2 < cols.length) {e : (Nat × Nat) × ℚ}
    (he : e ∈ feasibleCells rows cols (denseMatrix rows cols feasible) assignment) :
    ∃ c ∈ feasible, c.trackIndex = e.1.1 ∧ c.detectionIndex = e.1.2 ∧ c.cost = e.2 := by
  obtain ⟨⟨row, col⟩, hq, hkept⟩ := mem_filterMap.mp he
  simp only at hkept
  split at hkept
  · cases hkept
  · rename_i hfeasible
    obtain rfl := some.inj hkept
    obtain ⟨hrow, hcol⟩ := hwithin _ hq
    exact entry_denseMatrix hrow hcol (not_le.mp hfeasible)

theorem map_fst_feasibleCells_sublist (rows cols : List Nat) (matrix : List (List ℚ))
    (assignment : List (Nat × Nat)) :
    ((feasibleCells rows cols matrix assignment).map (·.1)).Sublist
      (assignment.map fun q => (rows.getD q.1 0, cols.getD q.2 0)) := by
  induction assignment with
  | nil => exact List.Sublist.slnil
  | cons q rest ih =>
    unfold feasibleCells
    rw [filterMap_cons]
    simp only
    split
    · exact ih.cons _
    · rename_i e he
      split at he
      · cases he
      · obtain rfl := some.inj he
        exact ih.cons_cons _

theorem nodup_map_getD {xs used : List Nat} (hxs : xs.Nodup) (hused : used.Nodup)
    (hwithin : ∀ i ∈ used, i < xs.length) : (used.map (xs.getD · 0)).Nodup := by
  refine (nodup_map_iff_inj_on hused).mpr fun i hi j hj heq => ?_
  rw [getD_eq_getElem?_getD, getD_eq_getElem?_getD,
    getElem?_eq_getElem (hwithin i hi), getElem?_eq_getElem (hwithin j hj)] at heq
  exact (List.Nodup.getElem_inj_iff hxs).mp heq

theorem nodup_feasibleCells (hrows : rows.Nodup) (hcols : cols.Nodup) (matrix : List (List ℚ))
    (h : Hungarian.IsMatching rows.length cols.length assignment) :
    ((feasibleCells rows cols matrix assignment).map (·.1.1)).Nodup ∧
      ((feasibleCells rows cols matrix assignment).map (·.1.2)).Nodup := by
  have hsub := map_fst_feasibleCells_sublist rows cols matrix assignment
  constructor
  · have htracks := nodup_map_getD hrows h.rows_once fun i hi => by
      obtain ⟨q, hq, rfl⟩ := mem_map.mp hi
      exact (h.within q hq).1
    have hsub' := hsub.map fst
    rw [List.map_map, List.map_map] at hsub'
    rw [List.map_map] at htracks
    exact htracks.sublist hsub'
  · have hdetections := nodup_map_getD hcols h.cols_once fun i hi => by
      obtain ⟨q, hq, rfl⟩ := mem_map.mp hi
      exact (h.within q hq).2
    have hsub' := hsub.map snd
    rw [List.map_map, List.map_map] at hsub'
    rw [List.map_map] at hdetections
    exact hdetections.sublist hsub'

variable {costs : OrderedDict (Nat × Nat) ℚ} {runnerUp : OrderedDict Nat ℚ}

theorem foldl_consider (candidates : List AssociationCandidate) :
    let found := candidates.foldl (consider costs) runnerUp
    (∀ t cost, found.get? t = some cost → runnerUp.get? t = some cost ∨
      ∃ c ∈ candidates, c.trackIndex = t ∧ c.cost = cost ∧
        costs.get? (t, c.detectionIndex) = none) ∧
    (∀ t before, runnerUp.get? t = some before →
      ∃ cost, found.get? t = some cost ∧ cost ≤ before) ∧
    ∀ c ∈ candidates, costs.get? (c.trackIndex, c.detectionIndex) = none →
      ∃ cost, found.get? c.trackIndex = some cost ∧ cost ≤ c.cost := by
  induction candidates generalizing runnerUp with
  | nil =>
    exact ⟨fun t cost h => .inl h, fun t before h => ⟨before, h, le_refl _⟩,
      fun c hc => absurd hc not_mem_nil⟩
  | cons c rest ih =>
    obtain ⟨horigin, hdown, hleast⟩ := @ih (consider costs runnerUp c)
    simp only [foldl_cons]
    cases hcost : costs.get? (c.trackIndex, c.detectionIndex) with
    | some won =>
      -- a match is passed over
      have hsame : consider costs runnerUp c = runnerUp := by
        unfold consider
        rw [hcost]
      rw [hsame] at horigin hdown hleast ⊢
      refine ⟨fun t cost h => ?_, hdown, fun c' hc' hno => ?_⟩
      · refine (horigin t cost h).imp id ?_
        rintro ⟨c', hc', hthis⟩
        exact ⟨c', mem_cons_of_mem _ hc', hthis⟩
      · rcases mem_cons.mp hc' with rfl | hc'
        · rw [hcost] at hno
          cases hno
        · exact hleast c' hc' hno
    | none =>
      have hlower : consider costs runnerUp c = lowerRunnerUp runnerUp c.trackIndex c.cost := by
        unfold consider
        rw [hcost]
      rw [hlower] at horigin hdown hleast ⊢
      obtain ⟨least, hfound, hle, hwhich, -⟩ :=
        get?_lowerRunnerUp_self runnerUp c.trackIndex c.cost
      refine ⟨fun t cost h => ?_, fun t before h => ?_, fun c' hc' hno => ?_⟩
      · rcases horigin t cost h with hbefore | ⟨c', hc', hthis⟩
        · by_cases htrack : c.trackIndex = t
          · subst htrack
            rw [hfound] at hbefore
            cases hbefore
            rcases hwhich with rfl | hbefore
            · exact .inr ⟨c, mem_cons_self, rfl, rfl, hcost⟩
            · exact .inl hbefore
          · rw [get?_lowerRunnerUp_of_ne c.cost htrack] at hbefore
            exact .inl hbefore
        · exact .inr ⟨c', mem_cons_of_mem _ hc', hthis⟩
      · obtain ⟨cost, hafter, hcostle⟩ := @lowerRunnerUp_le runnerUp c.trackIndex t c.cost before h
        obtain ⟨cost', hlast, hle'⟩ := hdown t cost hafter
        exact ⟨cost', hlast, hle'.trans hcostle⟩
      · rcases mem_cons.mp hc' with rfl | hc'
        · obtain ⟨cost', hlast, hle'⟩ := hdown _ least hfound
          exact ⟨cost', hlast, hle'.trans hle⟩
        · exact hleast c' hc' hno

structure Assigned (candidates : List AssociationCandidate) (maxCost : ℚ)
    (cells : List ((Nat × Nat) × ℚ)) (result : AssignmentResult) : Prop where
  picked : ∀ e ∈ cells, ∃ c ∈ candidates, c.trackIndex = e.1.1 ∧ c.detectionIndex = e.1.2 ∧
    c.cost = e.2
  once : (cells.map (·.1.1)).Nodup
  pairs : result.pairs = (cells.map (·.1)).insertionSort pairLe
  costs : result.costs = ofPairs cells
  runnerUp : result.runnerUp = ((candidates.filter (·.cost ≤ maxCost)).insertionSort
    (·.beforeByTrack ·)).foldl (consider (ofPairs cells)) ∅

def madeOf (trackCount detectionCount : Nat) (feasible : List AssociationCandidate)
    (cells : List ((Nat × Nat) × ℚ)) : AssignmentResult :=
  let pairs := (cells.map (·.1)).insertionSort pairLe
  { pairs
    unmatchedTracks := (range trackCount).filter (· ∉ pairs.map (·.1))
    unmatchedDetections := (range detectionCount).filter (· ∉ pairs.map (·.2))
    costs := ofPairs cells
    runnerUp := (feasible.insertionSort (·.beforeByTrack ·)).foldl
      (consider (ofPairs cells)) ∅ }

def rowsOf (feasible : List AssociationCandidate) : List Nat :=
  sortedSet (feasible.map (·.trackIndex))

def colsOf (feasible : List AssociationCandidate) : List Nat :=
  sortedSet (feasible.map (·.detectionIndex))

def matrixOf (feasible : List AssociationCandidate) : List (List ℚ) :=
  denseMatrix (rowsOf feasible) (colsOf feasible) feasible

/-- Nothing is matched without feasible candidates; else the result is made of the feasible cells
    of a best matching of the dense matrix. -/
theorem assign_cases (trackCount detectionCount : Nat) (candidates : List AssociationCandidate)
    (maxCost : ℚ) :
    let feasible := candidates.filter (·.cost ≤ maxCost)
    ((feasible = [] ∨ trackCount = 0 ∨ detectionCount = 0) ∧
      assign trackCount detectionCount candidates maxCost =
        { unmatchedTracks := range trackCount
          unmatchedDetections := range detectionCount }) ∨
      ∃ assignment, Hungarian.IsOptimal (rowsOf feasible).length (colsOf feasible).length
          (entryAt (matrixOf feasible)) assignment ∧
        assign trackCount detectionCount candidates maxCost =
          madeOf trackCount detectionCount feasible
            (feasibleCells (rowsOf feasible) (colsOf feasible) (matrixOf feasible) assignment) := by
  intro feasible
  by_cases hnone : feasible = [] ∨ trackCount = 0 ∨ detectionCount = 0
  · exact .inl ⟨hnone, if_pos hnone⟩
  obtain ⟨assignment, hassignment, hoptimal⟩ := hungarian_spec (matrixOf feasible)
  have hlength : (matrixOf feasible).length = (rowsOf feasible).length := length_map _
  -- a candidate gives the matrix a row
  have hhead : ((matrixOf feasible).headD []).length = (colsOf feasible).length := by
    obtain ⟨c, hc⟩ := exists_mem_of_ne_nil _ fun h => hnone (.inl h)
    have hrow : c.trackIndex ∈ rowsOf feasible := mem_sortedSet.mpr (mem_map.mpr ⟨c, hc, rfl⟩)
    unfold matrixOf denseMatrix
    cases hrows : rowsOf feasible with
    | nil =>
      rw [hrows] at hrow
      exact absurd hrow not_mem_nil
    | cons track rest => exact length_map _
  rw [hlength, hhead] at hoptimal
  refine .inr ⟨assignment, hoptimal, (if_neg hnone).trans ?_⟩
  have hcells : (hungarian (matrixOf feasible)).getD [] = assignment := by
    rw [hassignment]
    rfl
  rw [← hcells]
  rfl

theorem assign_spec (trackCount detectionCount : Nat) (candidates : List AssociationCandidate)
    (maxCost : ℚ) :
    (assign trackCount detectionCount candidates maxCost).pairs = [] ∨
      ∃ cells, Assigned candidates maxCost cells
        (assign trackCount detectionCount candidates maxCost) := by
  rcases assign_cases trackCount detectionCount candidates maxCost with
    ⟨-, hempty⟩ | ⟨assignment, hoptimal, hmade⟩
  · rw [hempty]
    exact .inl rfl
  have hwithin := hoptimal.matching.within
  rw [hmade]
  refine .inr ⟨_, fun e he => ?_, ?_, rfl, rfl, rfl⟩
  · obtain ⟨c, hc, hfound⟩ := mem_feasibleCells hwithin he
    exact ⟨c, (mem_filter.mp hc).1, hfound⟩
  · exact (nodup_feasibleCells (nodup_sortedSet _) (nodup_sortedSet _) _ hoptimal.matching).1

variable {candidates : List AssociationCandidate} {maxCost : ℚ} {cells : List ((Nat × Nat) × ℚ)}
  {result : AssignmentResult}

theorem Assigned.mem_pairs (h : Assigned candidates maxCost cells result) {q : Nat × Nat} :
    q ∈ result.pairs ↔ ∃ e ∈ cells, e.1 = q := by
  rw [h.pairs, List.mem_insertionSort, List.mem_map]

theorem Assigned.get?_costs (h : Assigned candidates maxCost cells result) {q : Nat × Nat}
    {cost : ℚ} : result.costs.get? q = some cost ↔ (q, cost) ∈ cells := by
  have hkeys : (cells.map fst).Nodup := by
    refine List.Nodup.of_map fst ?_
    rw [List.map_map]
    exact h.once
  rw [h.costs, get?_eq_some_iff, entries_ofPairs hkeys]

end Optimal

theorem optimalAssociator_lawful : optimalAssociator.Lawful := by
  refine ⟨fun trackCount detectionCount candidates maxCost q hq => ?_,
    fun trackCount detectionCount candidates maxCost => ?_,
    fun trackCount detectionCount candidates maxCost hbound q hq c hc htrack hne => ?_,
    fun trackCount detectionCount candidates maxCost q hq cost hcost => ?_⟩
  all_goals
    rcases assign_spec trackCount detectionCount candidates maxCost with
      hempty | ⟨cells, hassigned⟩
  · exact absurd (hempty ▸ hq) not_mem_nil
  · obtain ⟨e, he, rfl⟩ := hassigned.mem_pairs.mp hq
    obtain ⟨c, hc, htrack, hdetection, hcost⟩ := hassigned.picked e he
    refine ⟨c, hc, htrack, hdetection, hassigned.get?_costs.mpr ?_⟩
    rw [hcost]
    exact he
  · show ((assign trackCount detectionCount candidates maxCost).pairs.map (·.1)).Nodup
    rw [hempty]
    exact nodup_nil
  · show ((assign trackCount detectionCount candidates maxCost).pairs.map (·.1)).Nodup
    rw [hassigned.pairs, ((List.perm_insertionSort pairLe _).map _).nodup_iff, List.map_map]
    exact hassigned.once
  · exact absurd (hempty ▸ hq) not_mem_nil
  · -- the candidate is no match, since its track is matched once
    obtain ⟨e, he, rfl⟩ := hassigned.mem_pairs.mp hq
    have hunmatched : (ofPairs cells).get? (c.trackIndex, c.detectionIndex) = none := by
      rw [Option.eq_none_iff_forall_ne_some]
      intro cost hcost
      rw [← hassigned.costs] at hcost
      have heq := inj_on_of_nodup_map hassigned.once (hassigned.get?_costs.mp hcost) he htrack
      exact hne (by rw [← heq])
    have hfeasible : c ∈ (candidates.filter (·.cost ≤ maxCost)).insertionSort
        (·.beforeByTrack ·) := by
      rw [mem_insertionSort, mem_filter]
      exact ⟨hc, decide_eq_true (hbound c hc)⟩
    obtain ⟨-, -, hleast⟩ := @Optimal.foldl_consider (ofPairs cells) ∅
      ((candidates.filter (·.cost ≤ maxCost)).insertionSort (·.beforeByTrack ·))
    show ∃ cost, (assign trackCount detectionCount candidates maxCost).runnerUp.get? e.1.1 =
      some cost ∧ cost ≤ c.cost
    rw [hassigned.runnerUp, ← htrack]
    exact hleast c hfeasible hunmatched
  · exact absurd (hempty ▸ hq) not_mem_nil
  · obtain ⟨e, he, rfl⟩ := hassigned.mem_pairs.mp hq
    change (assign trackCount detectionCount candidates maxCost).runnerUp.get? e.1.1 =
      some cost at hcost
    rw [hassigned.runnerUp] at hcost
    obtain ⟨horigin, -, -⟩ := @Optimal.foldl_consider (ofPairs cells) ∅
      ((candidates.filter (·.cost ≤ maxCost)).insertionSort (·.beforeByTrack ·))
    rcases horigin _ _ hcost with hnone | ⟨c, hc, htrack, hthis, hunmatched⟩
    · cases hnone
    · rw [mem_insertionSort] at hc
      refine ⟨c, (mem_filter.mp hc).1, htrack, fun hdetection => ?_, hthis⟩
      have hmatched := hassigned.get?_costs.mpr he
      rw [hassigned.costs] at hmatched
      rw [hdetection, hmatched] at hunmatched
      cases hunmatched

end VisionOs.Tracking
