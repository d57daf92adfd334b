/-
  The greedy scan chooses a candidate unless its track or its detection is taken by
  an earlier one, so its matching is stable for the order of the candidates: no
  candidate within the bound is better for both of its sides than what they got.
-/
import VisionOs.Lib.Selection
import VisionOs.Tracking.Associators

namespace VisionOs.Tracking

open Core Lib List Selection Greedy

/-- `<` of floats. -/
instance : LT PyFloat := ⟨fun x y => x.lt y = true⟩

instance : DecidableLT PyFloat := fun x y => inferInstanceAs (Decidable (x.lt y = true))

namespace AssociationCandidate

def pair {κ : Type} (c : AssociationCandidate κ) : Nat × Nat := (c.trackIndex, c.detectionIndex)

/-- Two candidates that cannot both be matched. -/
def clashes (a b : AssociationCandidate PyFloat) : Prop :=
  a.trackIndex = b.trackIndex ∨ a.detectionIndex = b.detectionIndex

instance : DecidableRel clashes := fun a b => by
  unfold clashes
  infer_instance

/-- Both sides of the candidate are unmatched, or matched at a strictly worse position in the
    order (cost, track, detection). -/
structure Blocks (matched : List (AssociationCandidate PyFloat))
    (c : AssociationCandidate PyFloat) : Prop where
  track : ∀ m ∈ matched, m.trackIndex = c.trackIndex → c.less m
  detection : ∀ m ∈ matched, m.detectionIndex = c.detectionIndex → c.less m

section Linear

variable {κ : Type} [LinearOrder κ] {a b c : AssociationCandidate κ}

theorem before_iff : a.before b ↔ a.less b ∨ a = b := by
  obtain ⟨track, detection, cost⟩ := a
  obtain ⟨track', detection', cost'⟩ := b
  simp only [before, less, AssociationCandidate.mk.injEq]
  rcases lt_trichotomy cost cost' with hcost | rfl | hcost
  · simp [hcost, hcost.not_gt, hcost.ne']
  · simp only [lt_irrefl, false_or, true_and, and_true]
    omega
  · simp [hcost, hcost.not_gt, hcost.ne']

theorem before_total (a b : AssociationCandidate κ) : a.before b ∨ b.before a := by
  rw [before_iff, before_iff]
  obtain ⟨track, detection, cost⟩ := a
  obtain ⟨track', detection', cost'⟩ := b
  simp only [less, AssociationCandidate.mk.injEq]
  rcases lt_trichotomy cost cost' with hcost | rfl | hcost
  · exact .inl (.inl (.inl hcost))
  · simp only [lt_irrefl, false_or, true_and, and_true]
    omega
  · exact .inr (.inl (.inl hcost))

theorem less_trans (hab : a.less b) (hbc : b.less c) : a.less c := by
  rcases hab with hab | ⟨hab, hind⟩
  · rcases hbc with hbc | ⟨hbc, -⟩
    · exact .inl (hab.trans hbc)
    · exact .inl (hab.trans_eq hbc)
  · rcases hbc with hbc | ⟨hbc, hind'⟩
    · exact .inl (hab.trans_lt hbc)
    · refine .inr ⟨hab.trans hbc, ?_⟩
      omega

theorem before_trans (hab : a.before b) (hbc : b.before c) : a.before c := by
  rw [before_iff] at hab hbc ⊢
  rcases hab with hab | rfl
  · rcases hbc with hbc | rfl
    · exact .inl (less_trans hab hbc)
    · exact .inl hab
  · exact hbc

theorem before_antisymm (hab : a.before b) (hba : b.before a) : a = b :=
  (before_iff.mp hab).resolve_left hba

instance : Std.Total (before (κ := κ)) := ⟨before_total⟩
instance : IsTrans (AssociationCandidate κ) before := ⟨fun _ _ _ => before_trans⟩

end Linear

/-! ## The order of floats -/

/-- The place of a float among the others; a nan has none, and is put anywhere. -/
def rank : PyFloat → WithBot (WithTop ℚ)
  | .negInf => ⊥
  | .finite q => ((q : WithTop ℚ) : WithBot (WithTop ℚ))
  | .posInf | .nan => ((⊤ : WithTop ℚ) : WithBot (WithTop ℚ))

variable {x y : PyFloat}

theorem rank_lt (hx : x ≠ .nan) (hy : y ≠ .nan) : rank x < rank y ↔ x < y := by
  show _ ↔ x.lt y = true
  cases x <;> cases y <;> simp_all [rank, PyFloat.lt]
  exact WithBot.coe_lt_coe.mpr (WithTop.coe_lt_top _)

theorem lt_self (x : PyFloat) : ¬ x < x := by
  show ¬ x.lt x = true
  cases x <;> simp [PyFloat.lt]

theorem rank_inj (hx : x ≠ .nan) (hy : y ≠ .nan) : rank x = rank y ↔ x = y := by
  cases x <;> cases y <;> simp_all [rank]

theorem le_iff (hx : x ≠ .nan) (hy : y ≠ .nan) : x.le y = true ↔ ¬ y < x := by
  show _ ↔ ¬ y.lt x = true
  cases x <;> cases y <;> simp_all [PyFloat.le, PyFloat.lt, PyFloat.eq, ← le_iff_lt_or_eq]

def ranked (c : AssociationCandidate PyFloat) : AssociationCandidate (WithBot (WithTop ℚ)) :=
  ⟨c.trackIndex, c.detectionIndex, rank c.cost⟩

variable {a b : AssociationCandidate PyFloat}

theorem ranked_less (ha : a.cost ≠ .nan) (hb : b.cost ≠ .nan) :
    (ranked a).less (ranked b) ↔ a.less b := by
  unfold less ranked
  rw [rank_lt ha hb, rank_inj ha hb]

theorem ranked_before (ha : a.cost ≠ .nan) (hb : b.cost ≠ .nan) :
    (ranked a).before (ranked b) ↔ a.before b :=
  not_congr (ranked_less hb ha)

theorem ranked_inj (ha : a.cost ≠ .nan) (hb : b.cost ≠ .nan) (h : ranked a = ranked b) :
    a = b := by
  obtain ⟨htrack, hdetection, hcost⟩ := AssociationCandidate.mk.inj h
  have hsame := (rank_inj ha hb).mp hcost
  cases a
  cases b
  exact AssociationCandidate.mk.injEq .. ▸ ⟨htrack, hdetection, hsame⟩

theorem before_antisymm_of_ne_nan (ha : a.cost ≠ .nan) (hb : b.cost ≠ .nan) (hab : a.before b)
    (hba : b.before a) : a = b :=
  ranked_inj ha hb (before_antisymm ((ranked_before ha hb).mpr hab) ((ranked_before hb ha).mpr hba))

variable {candidates supplied : List (AssociationCandidate PyFloat)}

/-- Sorted, the candidates are in the order of their keys. -/
theorem pairwise_sorted (hcosts : ∀ c ∈ candidates, c.cost ≠ .nan) :
    (candidates.insertionSort before).Pairwise before := by
  have hmap : (candidates.insertionSort before).map ranked =
      (candidates.map ranked).insertionSort before :=
    map_insertionSort before before ranked candidates
      fun a ha b hb => (ranked_before (hcosts a ha) (hcosts b hb)).symm
  have hpairwise : ((candidates.insertionSort before).map ranked).Pairwise before := by
    rw [hmap]
    exact pairwise_insertionSort _ _
  refine (pairwise_map.mp hpairwise).imp_of_mem fun ha hb hbefore => ?_
  rw [mem_insertionSort] at ha hb
  exact (ranked_before (hcosts _ ha) (hcosts _ hb)).mp hbefore

theorem insertionSort_eq_of_perm (hcosts : ∀ c ∈ candidates, c.cost ≠ .nan)
    (h : supplied.Perm candidates) :
    supplied.insertionSort before = candidates.insertionSort before := by
  have hperm : (supplied.insertionSort before).Perm (candidates.insertionSort before) :=
    ((perm_insertionSort _ supplied).trans h).trans (perm_insertionSort _ candidates).symm
  have hsupplied : ∀ c ∈ supplied, c.cost ≠ .nan := fun c hc => hcosts c (h.mem_iff.mp hc)
  refine hperm.eq_of_pairwise (fun a b ha hb => ?_) (pairwise_sorted hsupplied)
    (pairwise_sorted hcosts)
  rw [mem_insertionSort] at ha hb
  exact before_antisymm_of_ne_nan (hsupplied a ha) (hcosts b hb)

end AssociationCandidate

/-! ## The scan -/

namespace Greedy

open AssociationCandidate

/-- The scan has taken exactly what it chose. -/
structure Scan.Holds (s : Scan PyFloat) (chosen : List (AssociationCandidate PyFloat)) : Prop where
  pairs : s.pairs = chosen.map pair
  tracks : ∀ t, t ∈ s.takenTracks ↔ ∃ c ∈ chosen, c.trackIndex = t
  detections : ∀ d, d ∈ s.takenDetections ↔ ∃ c ∈ chosen, c.detectionIndex = d
  costs : ∀ c ∈ chosen, s.costs.get? c.pair = some c.cost

variable {s : Scan PyFloat} {chosen : List (AssociationCandidate PyFloat)}

theorem Scan.Holds.start : Scan.Holds ({} : Scan PyFloat) [] where
  pairs := rfl
  tracks := fun t => by simp
  detections := fun d => by simp
  costs := fun c hc => absurd hc not_mem_nil

theorem Scan.Holds.taken_iff (h : s.Holds chosen) (c : AssociationCandidate PyFloat) :
    (c.trackIndex ∈ s.takenTracks ∨ c.detectionIndex ∈ s.takenDetections) ↔
      ∃ y ∈ chosen, clashes y c := by
  rw [h.tracks, h.detections]
  constructor
  · rintro (⟨y, hy, htrack⟩ | ⟨y, hy, hdetection⟩)
    · exact ⟨y, hy, .inl htrack⟩
    · exact ⟨y, hy, .inr hdetection⟩
  · rintro ⟨y, hy, htrack | hdetection⟩
    · exact .inl ⟨y, hy, htrack⟩
    · exact .inr ⟨y, hy, hdetection⟩

theorem Scan.Holds.consider (h : s.Holds chosen) (c : AssociationCandidate PyFloat) :
    (s.consider c).Holds (if ∃ y ∈ chosen, clashes y c then chosen else chosen ++ [c]) := by
  have htaken := h.taken_iff c
  unfold Scan.consider
  by_cases htrack : c.trackIndex ∈ s.takenTracks
  · rw [if_pos htrack, if_pos (htaken.mp (.inl htrack))]
    exact h
  rw [if_neg htrack]
  by_cases hdetection : c.detectionIndex ∈ s.takenDetections
  · rw [if_pos hdetection, if_pos (htaken.mp (.inr hdetection))]
    split
    · exact ⟨h.pairs, h.tracks, h.detections, h.costs⟩
    · exact h
  · rw [if_neg hdetection, if_neg (fun hclash => (htaken.mpr hclash).elim htrack hdetection)]
    refine ⟨?_, fun t => ?_, fun d => ?_, fun y hy => ?_⟩
    · rw [map_append, h.pairs]
      rfl
    · rw [mem_cons, h.tracks]
      simp only [mem_append, mem_singleton, or_and_right, exists_or, exists_eq_left]
      rw [or_comm, eq_comm]
    · rw [mem_cons, h.detections]
      simp only [mem_append, mem_singleton, or_and_right, exists_or, exists_eq_left]
      rw [or_comm, eq_comm]
    · rcases mem_append.mp hy with hy | hy
      · -- the new pair is not the pair of an older choice, whose track is taken
        have hne : c.pair ≠ y.pair := by
          intro heq
          exact htrack ((h.tracks _).mpr ⟨y, hy, (congrArg Prod.fst heq).symm⟩)
        show (s.costs.set c.pair c.cost).get? y.pair = _
        rw [OrderedDict.get?_set, if_neg hne]
        exact h.costs y hy
      · rw [mem_singleton.mp hy]
        exact OrderedDict.get?_set_self _ _ _

theorem Scan.Holds.first (h : s.Holds chosen) (maxCost : PyFloat)
    (rest : List (AssociationCandidate PyFloat)) :
    (Scan.first maxCost s rest).Holds
      (choose clashes chosen (rest.takeWhile fun c => ¬ maxCost < c.cost)) := by
  induction rest generalizing s chosen with
  | nil => exact h
  | cons c rest ih =>
    unfold Scan.first
    by_cases hcost : c.cost > maxCost
    · rw [if_pos hcost, takeWhile_cons_of_neg (by simpa using hcost)]
      exact h
    rw [if_neg hcost, takeWhile_cons_of_pos (by simpa using hcost)]
    have hnext := h.consider c
    unfold Selection.choose
    by_cases hclash : ∃ y ∈ chosen, clashes y c
    · rw [if_pos hclash] at hnext ⊢
      exact ih hnext
    · rw [if_neg hclash] at hnext ⊢
      exact ih hnext

theorem Scan.Holds.foldl_lose (h : s.Holds chosen) (rest : List (AssociationCandidate PyFloat)) :
    (rest.foldl Scan.lose s).Holds chosen := by
  induction rest generalizing s with
  | nil => exact h
  | cons c rest ih =>
    apply ih
    unfold Scan.lose
    split
    · split
      · exact h
      · exact ⟨h.pairs, h.tracks, h.detections, h.costs⟩
    · exact h

variable {maxCost : PyFloat} {c : AssociationCandidate PyFloat}
  {candidates : List (AssociationCandidate PyFloat)}

theorem mem_takeWhile_iff {ordered : List (AssociationCandidate PyFloat)}
    (hbound : maxCost ≠ .nan) (hcosts : ∀ c ∈ ordered, c.cost ≠ .nan)
    (hsorted : ordered.Pairwise before) :
    c ∈ ordered.takeWhile (fun c => ¬ maxCost < c.cost) ↔ c ∈ ordered ∧ c.cost.le maxCost := by
  induction ordered with
  | nil => simp
  | cons x rest ih =>
    obtain ⟨hfirst, hrest⟩ := pairwise_cons.mp hsorted
    obtain ⟨hxcost, hothers⟩ := forall_mem_cons.mp hcosts
    by_cases hx : maxCost < x.cost
    · -- whatever follows costs no less
      rw [takeWhile_cons_of_neg (by simpa using hx)]
      refine ⟨fun hc => absurd hc not_mem_nil, fun ⟨hc, hcost⟩ => ?_⟩
      have hccost := hcosts c hc
      rw [le_iff hccost hbound, ← rank_lt hbound hccost] at hcost
      rw [← rank_lt hbound hxcost] at hx
      have hle : rank x.cost ≤ rank c.cost := by
        rcases mem_cons.mp hc with rfl | hc
        · exact le_rfl
        · have hbefore := (ranked_before hxcost hccost).mpr (hfirst c hc)
          rcases before_iff.mp hbefore with (hless | ⟨hsame, -⟩) | hsame
          · exact hless.le
          · exact hsame.le
          · exact (congrArg AssociationCandidate.cost hsame).le
      exact absurd (hx.trans_le hle) hcost
    · rw [takeWhile_cons_of_pos (by simpa using hx), mem_cons, ih hothers hrest, mem_cons]
      constructor
      · rintro (rfl | ⟨hc, hcost⟩)
        · exact ⟨.inl rfl, (le_iff hxcost hbound).mpr hx⟩
        · exact ⟨.inr hc, hcost⟩
      · rintro ⟨rfl | hc, hcost⟩
        · exact .inl rfl
        · exact .inr ⟨hc, hcost⟩

def chosenFrom (maxCost : PyFloat) (candidates : List (AssociationCandidate PyFloat)) :
    List (AssociationCandidate PyFloat) :=
  choose clashes [] ((candidates.insertionSort before).takeWhile fun c => ¬ maxCost < c.cost)

theorem mem_takeWhile_sorted (hbound : maxCost ≠ .nan)
    (hcosts : ∀ c ∈ candidates, c.cost ≠ .nan) :
    c ∈ (candidates.insertionSort before).takeWhile (fun c => ¬ maxCost < c.cost) ↔
      c ∈ candidates ∧ c.cost.le maxCost := by
  have hsorted : ∀ c ∈ candidates.insertionSort before, c.cost ≠ .nan :=
    fun c hc => hcosts c ((mem_insertionSort _).mp hc)
  rw [mem_takeWhile_iff hbound hsorted (pairwise_sorted hcosts), mem_insertionSort]

theorem mem_of_mem_chosenFrom (hbound : maxCost ≠ .nan)
    (hcosts : ∀ c ∈ candidates, c.cost ≠ .nan) (hc : c ∈ chosenFrom maxCost candidates) :
    c ∈ candidates ∧ c.cost.le maxCost := by
  rcases mem_of_mem_choose hc with hc | hc
  · exact absurd hc not_mem_nil
  · exact (mem_takeWhile_sorted hbound hcosts).mp hc

theorem pairwise_chosenFrom (maxCost : PyFloat) (candidates : List (AssociationCandidate PyFloat)) :
    (chosenFrom maxCost candidates).Pairwise fun a b => ¬ clashes a b :=
  pairwise_choose List.Pairwise.nil

theorem not_blocks_chosenFrom (hbound : maxCost ≠ .nan)
    (hcosts : ∀ c ∈ candidates, c.cost ≠ .nan) (hc : c ∈ candidates)
    (hcost : c.cost.le maxCost) : ¬ Blocks (chosenFrom maxCost candidates) c := by
  intro hblocks
  have hsorted : ((candidates.insertionSort before).takeWhile
      fun c => ¬ maxCost < c.cost).Pairwise before :=
    (pairwise_sorted hcosts).sublist (takeWhile_sublist _)
  have hrefl : ∀ c : AssociationCandidate PyFloat, c.before c := by
    rintro c (hcost | ⟨-, hind⟩)
    · exact lt_self _ hcost
    · omega
  obtain ⟨y, hy, hclash, hbefore⟩ := exists_choose_nil_le clashes hrefl hsorted
    ((mem_takeWhile_sorted hbound hcosts).mpr ⟨hc, hcost⟩)
  -- an earlier choice shares a side with the candidate, which is not worse off with it
  rcases hclash with rfl | htrack | hdetection
  · exact hrefl y (hblocks.track y hy rfl)
  · exact hbefore (hblocks.track y hy htrack)
  · exact hbefore (hblocks.detection y hy hdetection)

theorem assign_chosenFrom (trackCount detectionCount : Nat)
    (candidates : List (AssociationCandidate PyFloat)) (maxCost : PyFloat) :
    let result := assign trackCount detectionCount candidates maxCost
    result.pairs = (chosenFrom maxCost candidates).map pair ∧
      ∀ c ∈ chosenFrom maxCost candidates, result.costs.get? c.pair = some c.cost := by
  have hfirst := Scan.Holds.start.first maxCost (candidates.insertionSort before)
  have hlose := hfirst.foldl_lose (candidates.insertionSort before)
  exact ⟨hlose.pairs, hlose.costs⟩

/-- What a stable matching is: one-to-one, of candidates within the bound at their costs, and
    no other candidate within the bound is better for both of its sides. -/
structure Stable (candidates : List (AssociationCandidate PyFloat)) (maxCost : PyFloat)
    (result : AssignmentResult PyFloat) (matched : List (AssociationCandidate PyFloat)) : Prop where
  pairs : result.pairs = matched.map pair
  within : ∀ c ∈ matched, c ∈ candidates ∧ c.cost.le maxCost = true ∧
    result.costs.get? c.pair = some c.cost
  tracks : (matched.map (·.trackIndex)).Nodup
  detections : (matched.map (·.detectionIndex)).Nodup
  unblocked : ∀ c ∈ candidates, c.cost.le maxCost = true → ¬ Blocks matched c

/-- For a bound and costs that are numbers the matching is stable, whatever order the
    candidates are supplied in. -/
theorem assign_stable (trackCount detectionCount : Nat)
    {candidates : List (AssociationCandidate PyFloat)} {maxCost : PyFloat}
    (hbound : maxCost ≠ .nan) (hcosts : ∀ c ∈ candidates, c.cost ≠ .nan) :
    let result := assign trackCount detectionCount candidates maxCost
    (∃ matched, Stable candidates maxCost result matched) ∧
    ∀ supplied : List (AssociationCandidate PyFloat), supplied.Perm candidates →
      assign trackCount detectionCount supplied maxCost = result := by
  intro result
  obtain ⟨hpairs, hpriced⟩ := assign_chosenFrom trackCount detectionCount candidates maxCost
  have hapart := pairwise_chosenFrom maxCost candidates
  refine ⟨⟨chosenFrom maxCost candidates, hpairs, fun c hc => ?_, ?_, ?_,
    fun c hc hcost => not_blocks_chosenFrom hbound hcosts hc hcost⟩, fun supplied hperm => ?_⟩
  · obtain ⟨hmem, hcost⟩ := mem_of_mem_chosenFrom hbound hcosts hc
    exact ⟨hmem, hcost, hpriced c hc⟩
  · rw [List.Nodup, pairwise_map]
    exact hapart.imp fun hclash heq => hclash (.inl heq)
  · rw [List.Nodup, pairwise_map]
    exact hapart.imp fun hclash heq => hclash (.inr heq)
  · -- the candidates are sorted before anything else
    show assign trackCount detectionCount supplied maxCost = _
    unfold assign
    rw [insertionSort_eq_of_perm hcosts hperm]
    rfl

/-- Two candidates of one track. -/
def contested : List (AssociationCandidate PyFloat) :=
  [⟨0, 1, .finite (1 / 2)⟩, ⟨0, 0, .finite (1 / 4)⟩]

/-- The cheaper is matched. -/
theorem assign_stable_contested :
    (assign 1 2 contested (.finite 1)).pairs = [(0, 0)] ∧
      ∃ matched, Stable contested (.finite 1) (assign 1 2 contested (.finite 1)) matched :=
  ⟨by decide +kernel, (assign_stable 1 2 (by decide) (by decide)).1⟩

def unpriced : List (AssociationCandidate PyFloat) := [⟨0, 0, .nan⟩]

/-- A candidate of cost nan is matched, though its cost is not within the bound. -/
theorem nan_is_matched :
    ¬ ∃ matched, Stable unpriced (.finite 1) (assign 1 1 unpriced (.finite 1)) matched := by
  rintro ⟨matched, hstable⟩
  have hpairs : (assign 1 1 unpriced (.finite 1)).pairs = [(0, 0)] := by decide +kernel
  have hmem : (0, 0) ∈ matched.map pair := by
    rw [← hstable.pairs, hpairs]
    exact mem_singleton_self _
  obtain ⟨c, hc, -⟩ := mem_map.mp hmem
  obtain ⟨hunpriced, hcost, -⟩ := hstable.within c hc
  rw [mem_singleton.mp hunpriced] at hcost
  cases hcost

end Greedy

end VisionOs.Tracking
