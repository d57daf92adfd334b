/-
  The assignment by augmenting paths is optimal.  The potentials are prices: no cell costs less
  than those of its row and its column, and a matched cell costs exactly that.
-/
import VisionOs.Lib.Assignment
import VisionOs.Tracking.Augmenting

namespace VisionOs.Tracking

open Lib List Function Option Assignment Nat Hungarian

namespace Hungarian

variable {p : Problem} {row : Nat}

/-- The prices of the row and the column make up the cost of the cell. -/
def Problem.Meets (p : Problem) (u v : Nat → ℚ) (i c : Nat) : Prop := u i + v c = p.matrix i c

/-- The potentials price the matching. -/
structure Priced (p : Problem) (u v : Nat → ℚ) (m : Nat → Nat) : Prop where
  tight : ∀ c, c < p.cols → m c ≠ p.rows → p.Meets u v (m c) c
  nonpos : ∀ c, c < p.cols → v c ≤ 0
  free : ∀ c, c < p.cols → m c = p.rows → v c = 0

structure Rooted (p : Problem) (row : Nat) (m : Nat → Nat) : Prop where
  row_lt : row < p.rows
  start : m p.cols = row
  bounded : ∀ c, m c ≠ p.rows → m c < row ∨ m c = row
  apart : ∀ c c', m c ≠ p.rows → m c = m c' → c = c'

structure Search.Dual (p : Problem) (row : Nat) (s : Search) (marker : Nat) : Prop where
  rooted : Rooted p row s.matchCol
  priced : Priced p s.potentialRow s.potentialCol s.matchCol
  /-- The new row's cells join with the first turn. -/
  feasible : ∀ i c, i < row ∨ (i = row ∧ marker ≠ p.cols) → c < p.cols →
    s.potentialRow i + s.potentialCol c ≤ p.matrix i c
  begun : (marker = p.cols ∧ ∀ c, s.visited c = false) ∨
    (marker ≠ p.cols ∧ s.visited p.cols = true)
  visited_matched : ∀ c, s.visited c = true → c ≤ p.cols ∧ s.matchCol c ≠ p.rows
  reaches : ∀ b c, s.visited b = true → c < p.cols → s.visited c = false →
    ∃ least, s.minCost c = some least ∧ least ≤ s.reduced p b c
  attained : ∀ c least, c < p.cols → s.visited c = false → s.minCost c = some least →
    s.visited (s.previous c) = true ∧ least = s.reduced p (s.previous c) c
  /-- The cells along which the search went meet the prices. -/
  path : ∀ c, s.visited c = true ∨ c = marker → c ≠ p.cols →
    p.Meets s.potentialRow s.potentialCol (s.matchCol (s.previous c)) c

structure Search.Tree (p : Problem) (row : Nat) (s : Search) : Prop where
  rooted : Rooted p row s.matchCol
  priced : Priced p s.potentialRow s.potentialCol s.matchCol
  feasible : ∀ i c, i < row ∨ (i = row ∧ ∃ d, d < p.cols ∧ s.visited d = true) → c < p.cols →
    s.potentialRow i + s.potentialCol c ≤ p.matrix i c
  start_visited : s.visited p.cols = true
  visited_matched : ∀ c, s.visited c = true → c ≤ p.cols ∧ s.matchCol c ≠ p.rows
  reaches : ∀ b c, s.visited b = true → c < p.cols → s.visited c = false →
    ∃ least, s.minCost c = some least ∧ least ≤ s.reduced p b c
  attained : ∀ c least, c < p.cols → s.visited c = false → s.minCost c = some least →
    s.visited (s.previous c) = true ∧ least = s.reduced p (s.previous c) c
  path : ∀ c, s.visited c = true → c ≠ p.cols → s.visited (s.previous c) = true ∧
    p.Meets s.potentialRow s.potentialCol (s.matchCol (s.previous c)) c

/-! ## The first inner loop -/

def Search.relaxed (p : Problem) (s : Search) (marker : Nat) : Search :=
  { s with visited := update s.visited marker true }.relax p marker

variable {s : Search} {marker c : Nat}

theorem Search.relaxed_visited :
    (s.relaxed p marker).visited c = true ↔ c = marker ∨ s.visited c = true :=
  visit_eq_true

theorem Search.advance_eq_some {s' : Search} {next : Nat}
    (h : s.advance p marker = some (s', next)) :
    ∃ delta, (s.relaxed p marker).nearest p = some (delta, next) ∧
      s' = (s.relaxed p marker).shift p delta := by
  obtain ⟨⟨delta, next'⟩, hnearest, heq⟩ := map_eq_some_iff.mp h
  obtain ⟨rfl, rfl⟩ := Prod.mk.inj heq
  exact ⟨delta, hnearest, rfl⟩

theorem Search.relaxed_cost (hc : c < p.cols) (hnew : (s.relaxed p marker).visited c = false) :
    ((s.relaxed p marker).minCost c = some (s.reduced p marker c) ∧
        (s.relaxed p marker).previous c = marker ∧
        ∀ least, s.minCost c = some least → s.reduced p marker c ≤ least) ∨
      ((s.relaxed p marker).previous c = s.previous c ∧ ∃ least, s.minCost c = some least ∧
        (s.relaxed p marker).minCost c = some least ∧ least ≤ s.reduced p marker c) := by
  let visiting : Search := { s with visited := update s.visited marker true }
  have hunseen : visiting.visited c = false := hnew
  have hreduced : visiting.reduced p marker c = s.reduced p marker c := rfl
  by_cases himproves : visiting.improves p marker c = true
  · refine .inl ⟨?_, ?_, fun least hleast => ?_⟩
    · show (if visiting.improves p marker c then some _ else _) = _
      rw [if_pos himproves, hreduced]
    · show (if visiting.improves p marker c then marker else _) = _
      rw [if_pos himproves]
    · have hbelow : visiting.minCost c = some least := hleast
      simp only [improves, hbelow, hc, hunseen, decide_true, Bool.not_false, Bool.true_and,
        decide_eq_true_eq] at himproves
      exact himproves.le
  · refine .inr ⟨?_, ?_⟩
    · show (if visiting.improves p marker c then marker else _) = _
      rw [if_neg himproves]
    · cases hleast : s.minCost c with
      | none =>
        have hnone : visiting.minCost c = none := hleast
        simp [improves, hnone, hc, hunseen] at himproves
      | some least =>
        have hsome : visiting.minCost c = some least := hleast
        refine ⟨least, rfl, ?_, ?_⟩
        · show (if visiting.improves p marker c then _ else s.minCost c) = _
          rw [if_neg himproves, hleast]
        · simp only [improves, hsome, hc, hunseen, decide_true, Bool.not_false, Bool.true_and,
            decide_eq_true_eq] at himproves
          exact not_lt.mp himproves

variable {rank : Nat → Nat}

theorem Search.Dual.relaxed {fuel : Nat}
    (h : s.Dual p row marker) (hinv : s.Inv p (fuel + 1) rank marker) :
    (s.relaxed p marker).Tree p row := by
  -- whatever the first turn visits is the start
  have hcolumn : ∀ d, d < p.cols → (s.relaxed p marker).visited d = true → marker ≠ p.cols := by
    intro d hd hvisited hmarker
    rcases relaxed_visited.mp hvisited with rfl | hbefore
    · exact hd.ne hmarker
    · rcases h.begun with ⟨-, hnone⟩ | ⟨hne, -⟩
      · exact absurd (hbefore.symm.trans (hnone d)) Bool.noConfusion
      · exact hne hmarker
  have hunseen : ∀ c, (s.relaxed p marker).visited c = false → s.visited c = false := by
    intro c hc
    rw [Bool.eq_false_iff, ne_eq, relaxed_visited, not_or] at hc
    exact Bool.eq_false_iff.mpr hc.2
  refine ⟨h.rooted, h.priced, fun i c hi hc => ?_, ?_, fun c hc => ?_, fun b c hb hc hnew => ?_,
    fun c least hc hnew hleast => ?_, fun c hc hne => ?_⟩
  · refine h.feasible i c (hi.imp id ?_) hc
    rintro ⟨rfl, d, hd, hvisited⟩
    exact ⟨rfl, hcolumn d hd hvisited⟩
  · rw [relaxed_visited]
    rcases h.begun with ⟨rfl, -⟩ | ⟨-, hstart⟩
    · exact .inl rfl
    · exact .inr hstart
  · rcases relaxed_visited.mp hc with rfl | hbefore
    · refine ⟨hinv.marker_le, ?_⟩
      by_cases hstart : c = p.cols
      · rw [hstart]
        exact h.rooted.start.trans_lt h.rooted.row_lt |>.ne
      · exact hinv.marker_matched hstart
    · exact h.visited_matched c hbefore
  · -- the marker's own cost, or one from before
    have hbefore : s.visited b = true → ∃ least, s.minCost c = some least ∧
        least ≤ s.reduced p b c := fun hb => h.reaches b c hb hc (hunseen c hnew)
    rcases relaxed_cost hc hnew with ⟨hcost, -, hlower⟩ | ⟨-, least, hleast, hcost, hle⟩
    · refine ⟨_, hcost, ?_⟩
      rcases relaxed_visited.mp hb with rfl | hb
      · exact le_refl _
      · obtain ⟨least, hleast, hle⟩ := hbefore hb
        exact (hlower least hleast).trans hle
    · refine ⟨least, hcost, ?_⟩
      rcases relaxed_visited.mp hb with rfl | hb
      · exact hle
      · obtain ⟨least', hleast', hle'⟩ := hbefore hb
        rw [hleast] at hleast'
        cases hleast'
        exact hle'
  · rw [relaxed_visited]
    rcases relaxed_cost hc hnew with ⟨hcost, hprevious, -⟩ | ⟨hprevious, least', hold, hcost, -⟩
    · rw [hcost] at hleast
      rw [hprevious]
      exact ⟨.inl rfl, (some.inj hleast).symm⟩
    · rw [hcost] at hleast
      obtain rfl := some.inj hleast
      rw [hprevious]
      obtain ⟨hfrom, heq⟩ := h.attained c least' hc (hunseen c hnew) hold
      exact ⟨.inr hfrom, heq⟩
  · have hprevious : (s.relaxed p marker).previous c = s.previous c :=
      relax_previous _ marker hc
    rw [hprevious]
    refine ⟨relaxed_visited.mpr (.inr ?_), h.path c (relaxed_visited.mp hc).symm hne⟩
    rcases relaxed_visited.mp hc with rfl | hbefore
    · exact hinv.marker_reached.resolve_left hne
    · exact (hinv.back c hbefore hne).1

/-! ## The second inner loop -/

theorem foldl_raise {visited : Nat → Bool} {m : Nat → Nat} {delta : ℚ} {columns : List Nat}
    (hnodup : columns.Nodup)
    (hapart : ∀ c c', visited c = true → visited c' = true → m c = m c' → c = c')
    (potential : Nat → ℚ) (i : Nat) :
    (columns.foldl (fun potential col =>
      if visited col then update potential (m col) (potential (m col) + delta)
      else potential) potential) i =
      if ∃ c ∈ columns, visited c = true ∧ m c = i then potential i + delta else potential i := by
  induction columns generalizing potential with
  | nil => simp
  | cons col rest ih =>
    obtain ⟨hcol, hrest⟩ := nodup_cons.mp hnodup
    rw [foldl_cons, ih hrest]
    simp only [exists_mem_cons_iff]
    by_cases hvisited : visited col = true
    · rw [if_pos hvisited]
      by_cases hrow : m col = i
      · -- no later column has the row
        have hnone : ¬ ∃ c ∈ rest, visited c = true ∧ m c = i := by
          rintro ⟨c, hc, hseen, heq⟩
          exact hcol (hapart col c hvisited hseen (hrow.trans heq.symm) ▸ hc)
        rw [if_neg hnone, if_pos (.inl ⟨hvisited, hrow⟩), hrow, update_self]
      · rw [update_of_ne (Ne.symm hrow)]
        simp only [hrow, and_false, false_or]
    · have hnot : ¬ (visited col = true ∧ m col = i) := fun h => hvisited h.1
      rw [if_neg hvisited]
      simp only [hnot, false_or]

theorem Search.shift_potentialRow {r : Search} (h : r.Tree p row) (delta : ℚ) (i : Nat) :
    (∀ b, r.visited b = true → r.matchCol b = i →
      (r.shift p delta).potentialRow i = r.potentialRow i + delta) ∧
    ((∀ b, r.visited b = true → r.matchCol b ≠ i) →
      (r.shift p delta).potentialRow i = r.potentialRow i) := by
  have hapart : ∀ c c', r.visited c = true → r.visited c' = true →
      r.matchCol c = r.matchCol c' → c = c' :=
    fun c c' hc _ => h.rooted.apart c c' (h.visited_matched c hc).2
  have hraise := @foldl_raise r.visited r.matchCol delta _ (@nodup_range (p.cols + 1)) hapart
    r.potentialRow i
  constructor
  · intro b hb hrow
    have hmem := mem_range.mpr (lt_succ_of_le (h.visited_matched b hb).1)
    exact hraise.trans (if_pos ⟨b, hmem, hb, hrow⟩)
  · intro hnone
    refine hraise.trans (if_neg ?_)
    rintro ⟨b, -, hb, hrow⟩
    exact hnone b hb hrow

theorem Search.shift_potentialCol (r : Search) (delta : ℚ) (hc : c < p.cols) :
    (r.visited c = true → (r.shift p delta).potentialCol c = r.potentialCol c - delta) ∧
    (r.visited c = false → (r.shift p delta).potentialCol c = r.potentialCol c) := by
  refine ⟨fun hvisited => if_pos ⟨hc.le, hvisited⟩, fun hnew => if_neg ?_⟩
  rintro ⟨-, hvisited⟩
  exact absurd (hvisited.symm.trans hnew) Bool.noConfusion

variable {r : Search} {delta : ℚ} {next : Nat}

variable {b : Nat}

theorem Search.Tree.delta_le (h : r.Tree p row) (hnearest : r.nearest p = some (delta, next))
    (hb : r.visited b = true) (hc : c < p.cols) (hnew : r.visited c = false) :
    delta ≤ r.reduced p b c := by
  obtain ⟨least, hleast, hle⟩ := h.reaches b c hb hc hnew
  have hopen : r.Open p c := ⟨hc, hnew, by rw [hleast]; exact some_ne_none _⟩
  obtain ⟨delta', next', hsome, hlower⟩ := r.nearest_spec.least c least hc hopen hleast
  rw [hnearest] at hsome
  cases hsome
  exact hlower.trans hle

theorem Search.Tree.delta_eq (h : r.Tree p row) (hnearest : r.nearest p = some (delta, next)) :
    next < p.cols ∧ r.visited next = false ∧ r.visited (r.previous next) = true ∧
      delta = r.reduced p (r.previous next) next := by
  obtain ⟨⟨hnext, hnew, -⟩, hcost⟩ := r.nearest_spec.attained delta next hnearest
  obtain ⟨hfrom, heq⟩ := h.attained next delta hnext hnew hcost
  exact ⟨hnext, hnew, hfrom, heq⟩

theorem Search.Tree.delta_nonneg (h : r.Tree p row) (hnearest : r.nearest p = some (delta, next))
    (hcolumn : ∃ d, d < p.cols ∧ r.visited d = true) : 0 ≤ delta := by
  obtain ⟨hnext, -, hfrom, heq⟩ := h.delta_eq hnearest
  have hrow := h.rooted.bounded _ (h.visited_matched _ hfrom).2
  have hfeasible := h.feasible _ next (hrow.imp id fun hrow => ⟨hrow, hcolumn⟩) hnext
  rw [heq, reduced]
  linarith

theorem Search.Tree.apart_of_unvisited (h : r.Tree p row)
    (hmatched : r.matchCol c ≠ p.rows) (hnew : r.visited c = false) :
    ∀ b, r.visited b = true → r.matchCol b ≠ r.matchCol c := by
  intro b hb heq
  have hsame := h.rooted.apart c b hmatched heq.symm
  rw [← hsame, hnew] at hb
  cases hb

theorem Search.Tree.potentialCol_shift_le (h : r.Tree p row)
    (hnearest : r.nearest p = some (delta, next)) (hc : c < p.cols) :
    (r.shift p delta).potentialCol c ≤ r.potentialCol c := by
  cases hvisited : r.visited c with
  | true =>
    have hdelta := h.delta_nonneg hnearest ⟨c, hc, hvisited⟩
    rw [(r.shift_potentialCol delta hc).1 hvisited]
    linarith
  | false => rw [(r.shift_potentialCol delta hc).2 hvisited]

theorem Search.Tree.priced_shift (h : r.Tree p row) (hnearest : r.nearest p = some (delta, next)) :
    Priced p (r.shift p delta).potentialRow (r.shift p delta).potentialCol r.matchCol := by
  refine ⟨fun c hc hmatched => ?_, fun c hc => ?_, fun c hc hfree => ?_⟩
  · have htight := h.priced.tight c hc hmatched
    unfold Problem.Meets at htight ⊢
    cases hvisited : r.visited c with
    | true =>
      rw [(r.shift_potentialCol delta hc).1 hvisited,
        (shift_potentialRow h delta _).1 c hvisited rfl]
      linarith
    | false =>
      rw [(r.shift_potentialCol delta hc).2 hvisited,
        (shift_potentialRow h delta _).2 (h.apart_of_unvisited hmatched hvisited)]
      exact htight
  · exact (h.potentialCol_shift_le hnearest hc).trans (h.priced.nonpos c hc)
  · have hnew : r.visited c = false :=
      Bool.eq_false_iff.mpr fun hvisited => (h.visited_matched c hvisited).2 hfree
    rw [(r.shift_potentialCol delta hc).2 hnew]
    exact h.priced.free c hc hfree

theorem Search.Tree.feasible_shift (h : r.Tree p row)
    (hnearest : r.nearest p = some (delta, next)) {i : Nat} (hi : i ≤ row) (hc : c < p.cols) :
    (r.shift p delta).potentialRow i + (r.shift p delta).potentialCol c ≤ p.matrix i c := by
  have hold : r.visited c = true → r.potentialRow i + r.potentialCol c ≤ p.matrix i c := by
    intro hvisited
    exact h.feasible i c ((lt_or_eq_of_le hi).imp id fun hi => ⟨hi, c, hc, hvisited⟩) hc
  by_cases hraised : ∃ b, r.visited b = true ∧ r.matchCol b = i
  · obtain ⟨b, hb, hrow⟩ := hraised
    rw [(shift_potentialRow h delta i).1 b hb hrow]
    cases hvisited : r.visited c with
    | true =>
      rw [(r.shift_potentialCol delta hc).1 hvisited]
      linarith [hold hvisited]
    | false =>
      have hle := h.delta_le hnearest hb hc hvisited
      rw [reduced, hrow] at hle
      rw [(r.shift_potentialCol delta hc).2 hvisited]
      linarith
  · -- the new row is at the start, so this one was there before
    have hlt : i < row := by
      refine lt_of_le_of_ne hi ?_
      rintro rfl
      exact hraised ⟨p.cols, h.start_visited, h.rooted.start⟩
    have hfeasible := h.feasible i c (.inl hlt) hc
    rw [(shift_potentialRow h delta i).2 fun b hb hrow => hraised ⟨b, hb, hrow⟩]
    exact (add_le_add_right (h.potentialCol_shift_le hnearest hc) _).trans hfeasible

theorem Search.Tree.reduced_shift (h : r.Tree p row) (hb : r.visited b = true)
    (hc : c < p.cols) (hnew : r.visited c = false) :
    (r.shift p delta).reduced p b c = r.reduced p b c - delta := by
  show p.matrix (r.matchCol b) c - (r.shift p delta).potentialRow (r.matchCol b) -
    (r.shift p delta).potentialCol c = _
  rw [(shift_potentialRow h delta _).1 b hb rfl, (r.shift_potentialCol delta hc).2 hnew, reduced]
  ring

theorem Search.shift_minCost (r : Search) (delta : ℚ) (hnew : r.visited c = false) :
    (r.shift p delta).minCost c = (r.minCost c).map (· - delta) := by
  show (if r.visited c then _ else _) = _
  rw [hnew]
  rfl

theorem Search.Tree.shift (h : r.Tree p row) (hnearest : r.nearest p = some (delta, next)) :
    (r.shift p delta).Dual p row next := by
  obtain ⟨hnext, hnew, hfrom, hdelta⟩ := h.delta_eq hnearest
  refine ⟨h.rooted, h.priced_shift hnearest, fun i c hi hc => ?_, .inr ⟨hnext.ne, h.start_visited⟩,
    h.visited_matched, fun b c hb hc hfresh => ?_, fun c least hc hfresh hleast => ?_,
    fun c hc hne => ?_⟩
  · exact h.feasible_shift hnearest (hi.elim le_of_lt fun hi => hi.1.le) hc
  · obtain ⟨least, hleast, hle⟩ := h.reaches b c hb hc hfresh
    refine ⟨least - delta, ?_, ?_⟩
    · rw [r.shift_minCost delta hfresh, hleast]
      rfl
    · rw [h.reduced_shift hb hc hfresh]
      linarith
  · rw [r.shift_minCost delta hfresh, map_eq_some_iff] at hleast
    obtain ⟨before, hbefore, rfl⟩ := hleast
    obtain ⟨hreached, heq⟩ := h.attained c before hc hfresh hbefore
    refine ⟨hreached, ?_⟩
    show before - delta = (r.shift p delta).reduced p (r.previous c) c
    rw [h.reduced_shift hreached hc hfresh, heq]
  · show (r.shift p delta).potentialRow (r.matchCol (r.previous c)) +
      (r.shift p delta).potentialCol c = p.matrix (r.matchCol (r.previous c)) c
    rcases hc with hvisited | rfl
    · obtain ⟨hreached, hmeets⟩ := h.path c hvisited hne
      have hc : c < p.cols := lt_of_le_of_ne (h.visited_matched c hvisited).1 hne
      unfold Problem.Meets at hmeets
      rw [(shift_potentialRow h delta _).1 _ hreached rfl,
        (r.shift_potentialCol delta hc).1 hvisited]
      linarith
    · -- the nearest column's cell has come down to its prices
      rw [(shift_potentialRow h delta _).1 _ hfrom rfl, (r.shift_potentialCol delta hnext).2 hnew,
        hdelta, reduced]
      ring

theorem Search.Dual.turnKeeps : TurnKeeps p fun s marker => s.Dual p row marker := by
  intro fuel rank s marker s' next hinv hdual hadvance
  obtain ⟨delta, hnearest, rfl⟩ := advance_eq_some hadvance
  exact (hdual.relaxed hinv).shift hnearest

/-! ## The path back -/

structure Search.Moves (p : Problem) (row : Nat) (s : Search) (m : Nat → Nat) (hole : Nat) :
    Prop where
  matched : Matched p (row + 1) hole m
  tight : ∀ c, c < p.cols → c ≠ hole → m c ≠ p.rows →
    p.Meets s.potentialRow s.potentialCol (m c) c
  free : ∀ c, c < p.cols → c ≠ hole → m c = p.rows → s.potentialCol c = 0
  covers : ∀ i, i ≤ row → ∃ c, c ≤ p.cols ∧ c ≠ hole ∧ m c = i

theorem Search.Moves.move {m : Nat → Nat} {hole before : Nat}
    (h : s.Moves p row m hole) (hhole : hole < p.cols) (hne : before ≠ hole)
    (hmatched : m before ≠ p.rows)
    (hmeets : p.Meets s.potentialRow s.potentialCol (m before) hole) :
    s.Moves p row (update m hole (m before)) before := by
  refine ⟨h.matched.move before, fun c hc hcb hrow => ?_, fun c hc hcb hrow => ?_, fun i hi => ?_⟩
  · by_cases hch : c = hole
    · rw [hch, update_self]
      exact hmeets
    · rw [update_of_ne hch] at hrow ⊢
      exact h.tight c hc hch hrow
  · by_cases hch : c = hole
    · rw [hch, update_self] at hrow
      exact absurd hrow hmatched
    · rw [update_of_ne hch] at hrow
      exact h.free c hc hch hrow
  · obtain ⟨c, hc, hch, hrow⟩ := h.covers i hi
    by_cases hcb : c = before
    · refine ⟨hole, hhole.le, hne.symm, ?_⟩
      rw [update_self, ← hcb]
      exact hrow
    · refine ⟨c, hc, hcb, ?_⟩
      rw [update_of_ne hch]
      exact hrow

theorem Search.Dual.insertRow {v : Potentials} {next : Nat}
    (h : s.Dual p row next) (hended : s.Ended p rank next)
    (hsearch : search p (p.cols + 1) (v.start p row) p.cols = some (s, next))
    (hmoves : s.Moves p row s.matchCol next) :
    ∃ m', insertRow p v row =
        some { potentialRow := s.potentialRow, potentialCol := s.potentialCol, matchCol := m' } ∧
      s.Moves p row m' p.cols := by
  -- the end is free, so it was not visited
  have hend : ∀ c, s.visited c = true → c ≠ next := by
    rintro c hc rfl
    exact (h.visited_matched c hc).2 hended.free
  -- the columns between the hole and the start have not moved yet
  let Q : (Nat → Nat) → Nat → Prop := fun m hole => s.Moves p row m hole ∧
    ∀ c, s.visited c = true → rank c ≤ rank hole → m c = s.matchCol c
  have hstart : Q (update s.matchCol next (s.matchCol (s.previous next)))
      (s.previous next) := by
    refine ⟨hmoves.move hended.next_lt (hend _ hended.reached)
      (h.visited_matched _ hended.reached).2 (h.path next (.inr rfl) hended.next_lt.ne),
      fun c hc _ => ?_⟩
    rw [update_of_ne (hend c hc)]
  have hmove : ∀ m hole, Q m hole → s.visited hole = true → hole ≠ p.cols →
      Q (update m hole (m (s.previous hole))) (s.previous hole) := by
    rintro m hole ⟨hthis, hbehind⟩ hvisited hne
    obtain ⟨hbefore, hlt⟩ := hended.back hole hvisited hne
    have hsame := hbehind _ hbefore hlt.le
    have hother : ∀ c, rank c ≤ rank (s.previous hole) → c ≠ hole := by
      rintro c hrank rfl
      omega
    have hhole : hole < p.cols := lt_of_le_of_ne (h.visited_matched hole hvisited).1 hne
    refine ⟨hthis.move hhole (hother _ (le_refl _)) ?_ ?_, fun c hc hrank => ?_⟩
    · rw [hsame]
      exact (h.visited_matched _ hbefore).2
    · rw [hsame]
      exact h.path hole (.inl hvisited) hne
    · rw [update_of_ne (hother c hrank)]
      exact hbehind c hc (hrank.trans hlt.le)
  obtain ⟨m', hinsert, hdone, -⟩ := insertRow_of_search hsearch hended hstart hmove
  exact ⟨m', hinsert, hdone⟩

/-! ## Inserting rows -/

structure Potentials.Dual (p : Problem) (row : Nat) (v : Potentials) : Prop where
  matched : Matched p row p.cols v.matchCol
  priced : Priced p v.potentialRow v.potentialCol v.matchCol
  feasible : ∀ i c, i < row → c < p.cols →
    v.potentialRow i + v.potentialCol c ≤ p.matrix i c
  covers : ∀ i, i < row → ∃ c, c < p.cols ∧ v.matchCol c = i

theorem Potentials.Dual.empty : Potentials.Dual p 0 { matchCol := fun _ => p.rows } where
  matched := matched_start
  priced := ⟨fun _ _ h => absurd rfl h, fun _ _ => le_refl _, fun _ _ _ => rfl⟩
  feasible := fun i _ hi => absurd hi (not_lt_zero i)
  covers := fun i hi => absurd hi (not_lt_zero i)

variable {v : Potentials}

theorem Potentials.Dual.start (h : v.Dual p row) (hrow : row < p.rows) :
    (v.start p row).Dual p row p.cols := by
  have hsearched := h.matched.searched hrow
  have hnone : ∀ c, (v.start p row).visited c = true → False := fun _ => Bool.noConfusion
  refine ⟨⟨hrow, update_self _ _ _, fun c hc => ?_, fun c c' =>
      h.matched.put_start hrow⟩, ⟨fun c hc hmatched => ?_, h.priced.nonpos, fun c hc hfree => ?_⟩,
    fun i c hi hc => ?_, .inl ⟨rfl, fun _ => rfl⟩, fun c hc => (hnone c hc).elim,
    fun b _ hb => (hnone b hb).elim, fun _ _ _ _ hleast => absurd hleast.symm (some_ne_none _),
    fun c hc hne => ?_⟩
  · exact Nat.lt_succ_iff_lt_or_eq.mp (((hsearched p.cols).bounded c).resolve_left hc)
  · rw [v.start_matchCol row hc.ne] at hmatched ⊢
    exact h.priced.tight c hc hmatched
  · rw [v.start_matchCol row hc.ne] at hfree
    exact h.priced.free c hc hfree
  · rcases hi with hi | ⟨-, hne⟩
    · exact h.feasible i c hi hc
    · exact absurd rfl hne
  · rcases hc with hc | hc
    · exact (hnone c hc).elim
    · exact absurd hc hne

theorem Potentials.Dual.moves (h : v.Dual p row) (hrow : row < p.rows) {next : Nat}
    (hdual : s.Dual p row next) (hsame : s.matchCol = (v.start p row).matchCol)
    (hnext : next < p.cols) (hfree : s.matchCol next = p.rows) :
    s.Moves p row s.matchCol next := by
  have hmatched : Matched p (row + 1) next s.matchCol := by
    rw [hsame]
    exact h.matched.searched hrow next
  refine ⟨hmatched, fun c hc _ => hdual.priced.tight c hc, fun c hc _ => hdual.priced.free c hc,
    fun i hi => ?_⟩
  have hwhere : ∃ c, c ≤ p.cols ∧ s.matchCol c = i := by
    rcases lt_or_eq_of_le hi with hlt | rfl
    · obtain ⟨c, hc, hcovered⟩ := h.covers i hlt
      refine ⟨c, hc.le, ?_⟩
      rw [hsame, v.start_matchCol row hc.ne]
      exact hcovered
    · exact ⟨p.cols, le_refl _, hdual.rooted.start⟩
  obtain ⟨c, hc, hcovered⟩ := hwhere
  refine ⟨c, hc, ?_, hcovered⟩
  rintro rfl
  omega

theorem Potentials.Dual.insertRow (h : v.Dual p row) (hrow : row < p.rows)
    (hwide : p.rows ≤ p.cols) :
    ∃ v', insertRow p v row = some v' ∧ v'.Dual p (row + 1) := by
  obtain ⟨s, next, rank, hsearch, hsame, hdual, hended⟩ :=
    search_row Search.Dual.turnKeeps h.matched (hrow.trans_le hwide) (h.start hrow)
  have hmoves := h.moves hrow hdual hsame hended.next_lt hended.free
  obtain ⟨m', hinsert, hdone⟩ := hdual.insertRow hended hsearch hmoves
  refine ⟨_, hinsert, hdone.matched, ⟨fun c hc => hdone.tight c hc hc.ne, hdual.priced.nonpos,
    fun c hc => hdone.free c hc hc.ne⟩, fun i c hi hc => ?_, fun i hi => ?_⟩
  · have hi' : i < row ∨ (i = row ∧ next ≠ p.cols) :=
      (Nat.lt_succ_iff_lt_or_eq.mp hi).imp id fun hi => ⟨hi, hended.next_lt.ne⟩
    exact hdual.feasible i c hi' hc
  · obtain ⟨c, hc, hne, hcovered⟩ := hdone.covers i (Nat.lt_succ_iff.mp hi)
    exact ⟨c, lt_of_le_of_ne hc hne, hcovered⟩

theorem Potentials.Dual.insertRows {count : Nat} (h : v.Dual p row)
    (hrows : row + count = p.rows) (hwide : p.rows ≤ p.cols) :
    ∃ v', insertRows p v (range' row count) = some v' ∧ v'.Dual p p.rows := by
  induction count generalizing v row with
  | zero =>
    rw [add_zero] at hrows
    exact ⟨v, rfl, hrows ▸ h⟩
  | succ count ih =>
    obtain ⟨v', hinsert, hdual⟩ := h.insertRow (by omega) hwide
    obtain ⟨v'', hrest, hdone⟩ := ih hdual (by omega)
    refine ⟨v'', ?_, hdone⟩
    rw [range'_succ]
    unfold insertRows
    rw [hinsert]
    exact hrest

/-! ## The matching -/

/-- What a matching is: cells of the problem, no two in a row or in a column. -/
structure IsMatching (rows cols : Nat) (cells : List (Nat × Nat)) : Prop where
  within : ∀ q ∈ cells, q.1 < rows ∧ q.2 < cols
  rows_once : (cells.map (·.1)).Nodup
  cols_once : (cells.map (·.2)).Nodup

variable {rows cols : Nat} {cells : List (Nat × Nat)}

theorem IsMatching.swap (h : IsMatching rows cols cells) :
    IsMatching cols rows (cells.map fun (row, col) => (col, row)) where
  within := by
    intro q hq
    obtain ⟨q', hq', rfl⟩ := mem_map.mp hq
    exact (h.within q' hq').symm
  rows_once := by
    rw [List.map_map]
    exact h.cols_once
  cols_once := by
    rw [List.map_map]
    exact h.rows_once

theorem IsMatching.covers (h : IsMatching rows cols cells) (hlength : cells.length = rows) :
    Assignment.Covers (Finset.range rows) (Finset.range cols) cells where
  covered := by
    -- the cells' rows are as many as the rows there are
    have hsub : (cells.map Prod.fst).toFinset ⊆ Finset.range rows := by
      intro i hi
      obtain ⟨q, hq, rfl⟩ := mem_map.mp (mem_toFinset.mp hi)
      exact Finset.mem_range.mpr (h.within q hq).1
    have hcard : (Finset.range rows).card ≤ (cells.map Prod.fst).toFinset.card := by
      rw [toFinset_card_of_nodup h.rows_once, length_map, Finset.card_range, hlength]
    intro i
    rw [← List.mem_toFinset, Finset.eq_of_subset_of_card_le hsub hcard]
  within := by
    intro c hc
    obtain ⟨q, hq, rfl⟩ := mem_map.mp hc
    exact Finset.mem_range.mpr (h.within q hq).2
  rows_once := h.rows_once
  cols_once := h.cols_once

theorem Potentials.Dual.certificate (h : v.Dual p p.rows) :
    let cells := ((range p.cols).filter (v.matchCol · < p.rows)).map
      fun col => (v.matchCol col, col)
    IsMatching p.rows p.cols cells ∧ cells.length = p.rows ∧
      Assignment.Certificate (Finset.range p.rows) (Finset.range p.cols) p.matrix v.potentialRow
        v.potentialCol cells := by
  intro cells
  have hmem : ∀ q ∈ cells, q.2 < p.cols ∧ v.matchCol q.2 < p.rows ∧ q.1 = v.matchCol q.2 := by
    intro q hq
    obtain ⟨c, hc, rfl⟩ := mem_map.mp hq
    obtain ⟨hc, hrow⟩ := mem_filter.mp hc
    exact ⟨mem_range.mp hc, of_decide_eq_true hrow, rfl⟩
  have hkept : ∀ c, c < p.cols → v.matchCol c < p.rows → (v.matchCol c, c) ∈ cells := by
    intro c hc hrow
    exact mem_map.mpr ⟨c, mem_filter.mpr ⟨mem_range.mpr hc, decide_eq_true hrow⟩, rfl⟩
  have hnodup := (@List.nodup_range p.cols).filter (v.matchCol · < p.rows)
  have hmatching : IsMatching p.rows p.cols cells := by
    refine ⟨fun q hq => ?_, ?_, ?_⟩
    · obtain ⟨hcol, hrow, heq⟩ := hmem q hq
      exact ⟨heq ▸ hrow, hcol⟩
    · rw [List.map_map]
      refine (nodup_map_iff_inj_on hnodup).mpr fun c hc c' hc' heq => ?_
      obtain ⟨hlt, hrow⟩ := mem_filter.mp hc
      have hlt' := mem_range.mp (mem_filter.mp hc').1
      exact h.matched.apart c c' (mem_range.mp hlt).ne hlt'.ne (of_decide_eq_true hrow).ne heq
    · rw [List.map_map]
      have hid : (fun q : Nat × Nat => q.2) ∘ (fun col => (v.matchCol col, col)) = id := rfl
      rw [hid, List.map_id]
      exact hnodup
  refine ⟨hmatching, ?_, fun i hi c hc => h.feasible i c (Finset.mem_range.mp hi)
    (Finset.mem_range.mp hc), fun c hc => h.priced.nonpos c (Finset.mem_range.mp hc),
    fun c hc hnot => ?_, fun q hq => ?_⟩
  · -- every row is at a column
    have hrows : (cells.map Prod.fst).toFinset = Finset.range p.rows := by
      ext i
      rw [List.mem_toFinset, Finset.mem_range]
      constructor
      · intro hi
        obtain ⟨q, hq, rfl⟩ := mem_map.mp hi
        exact (hmatching.within q hq).1
      · intro hi
        obtain ⟨c, hc, hcovered⟩ := h.covers i hi
        exact mem_map.mpr ⟨_, hkept c hc (hcovered.trans_lt hi), hcovered⟩
    have hcard := toFinset_card_of_nodup hmatching.rows_once
    rw [length_map] at hcard
    rw [← hcard, hrows, Finset.card_range]
  · have hc := Finset.mem_range.mp hc
    refine h.priced.free c hc (((h.matched.bounded c).resolve_right fun hrow => ?_))
    exact hnot (mem_map.mpr ⟨_, hkept c hc hrow, rfl⟩)
  · obtain ⟨hcol, hrow, heq⟩ := hmem q hq
    rw [heq]
    exact h.priced.tight q.2 hcol hrow.ne

structure IsOptimal (rows cols : Nat) (cost : Nat → Nat → ℚ) (cells : List (Nat × Nat)) :
    Prop where
  matching : IsMatching rows cols cells
  length_eq : cells.length = min rows cols
  total_le : ∀ other, IsMatching rows cols other → other.length = min rows cols →
    total cost cells ≤ total cost other

theorem solve_spec (hwide : p.rows ≤ p.cols) :
    ∃ cells, solve p = some cells ∧ IsOptimal p.rows p.cols p.matrix cells := by
  obtain ⟨v, hinsert, hdual⟩ := Potentials.Dual.empty.insertRows (zero_add p.rows) hwide
  rw [← range_eq_range'] at hinsert
  obtain ⟨hmatching, hlength, hcertificate⟩ := hdual.certificate
  refine ⟨((range p.cols).filter (v.matchCol · < p.rows)).map fun col => (v.matchCol col, col),
    ?_, hmatching, ?_, fun other hother hother_length => ?_⟩
  · unfold solve
    rw [hinsert]
    rfl
  · rw [hlength, min_eq_left hwide]
  · rw [min_eq_left hwide] at hother_length
    exact hcertificate.total_le (hmatching.covers hlength) (hother.covers hother_length)

variable {cost : Nat → Nat → ℚ}

theorem IsOptimal.of_perm {sorted : List (Nat × Nat)}
    (h : IsOptimal rows cols cost cells) (hperm : sorted.Perm cells) :
    IsOptimal rows cols cost sorted where
  matching := ⟨fun q hq => h.matching.within q (hperm.mem_iff.mp hq),
    (hperm.map _).nodup_iff.mpr h.matching.rows_once,
    (hperm.map _).nodup_iff.mpr h.matching.cols_once⟩
  length_eq := hperm.length_eq.trans h.length_eq
  total_le := by
    intro other hother hlength
    rw [total_of_perm hperm]
    exact h.total_le other hother hlength

theorem IsOptimal.swap
    (h : IsOptimal cols rows (fun col row => cost row col) cells) :
    IsOptimal rows cols cost (cells.map fun (col, row) => (row, col)) where
  matching := h.matching.swap
  length_eq := by
    rw [length_map, h.length_eq, min_comm]
  total_le := by
    intro other hother hlength
    have hswapped := h.total_le _ hother.swap (by rw [length_map, hlength, min_comm])
    calc total cost (cells.map fun q => (q.2, q.1))
        = total (fun col row => cost row col) cells := total_swap cost cells
      _ ≤ total (fun col row => cost row col) (other.map fun q => (q.2, q.1)) := hswapped
      _ = total cost other := total_swap (fun col row => cost row col) other

end Hungarian

/-- `matrix[row][col]`. -/
def entryAt (matrix : List (List ℚ)) (row col : Nat) : ℚ := (matrix.getD row []).getD col 0

theorem hungarian_spec (matrix : List (List ℚ)) :
    ∃ cells, hungarian matrix = some cells ∧
      Hungarian.IsOptimal matrix.length (matrix.headD []).length (entryAt matrix) cells := by
  unfold hungarian
  simp only
  by_cases htall : matrix.length > (matrix.headD []).length
  · -- transposed
    rw [if_pos htall]
    obtain ⟨cells, hsolve, hoptimal⟩ := @Hungarian.solve_spec
      ⟨(matrix.headD []).length, matrix.length, fun row col => entryAt matrix col row⟩ htall.le
    change solve ⟨_, _, fun row col => (matrix.getD col []).getD row 0⟩ = _ at hsolve
    rw [hsolve]
    exact ⟨_, rfl, hoptimal.swap.of_perm (perm_insertionSort _ _)⟩
  · rw [if_neg htall]
    obtain ⟨cells, hsolve, hoptimal⟩ := @Hungarian.solve_spec
      ⟨matrix.length, (matrix.headD []).length, entryAt matrix⟩ (not_lt.mp htall)
    change solve ⟨_, _, fun row col => (matrix.getD row []).getD col 0⟩ = _ at hsolve
    rw [hsolve]
    exact ⟨_, rfl, hoptimal.of_perm (perm_insertionSort _ _)⟩

/-- A matrix with a row, whose rows are equally long. -/
structure RectMatrix where
  entries : List (List ℚ)
  nonempty : entries ≠ []
  rectangular : ∀ row ∈ entries, row.length = (entries.headD []).length

/-- The assignment of every rectangular matrix is found, and no matching of that size costs
    less. -/
theorem hungarian_optimal (m : RectMatrix) :
    ∃ cells, hungarian m.entries = some cells ∧
      Hungarian.IsMatching m.entries.length (m.entries.headD []).length cells ∧
      cells.length = min m.entries.length (m.entries.headD []).length ∧
      ∀ other, Hungarian.IsMatching m.entries.length (m.entries.headD []).length other →
        other.length = min m.entries.length (m.entries.headD []).length →
        total (entryAt m.entries) cells ≤ total (entryAt m.entries) other := by
  obtain ⟨cells, hfound, hoptimal⟩ := hungarian_spec m.entries
  exact ⟨cells, hfound, hoptimal.matching, hoptimal.length_eq, hoptimal.total_le⟩

end VisionOs.Tracking
