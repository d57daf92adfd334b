/-
  The assignment by augmenting paths comes to an end, with a matching.  A search visits a new
  column in each turn and stops at a free one, which there is while rows are left.
-/
import VisionOs.Tracking.Association

namespace VisionOs.Tracking

open Function Finset Nat Option

namespace Hungarian

variable {p : Problem}

structure Matched (p : Problem) (bound hole : Nat) (matchCol : Nat → Nat) : Prop where
  bounded : ∀ c, matchCol c = p.rows ∨ matchCol c < bound
  apart : ∀ c c', c ≠ hole → c' ≠ hole → matchCol c ≠ p.rows → matchCol c = matchCol c' → c = c'

variable {bound hole : Nat} {m : Nat → Nat}

theorem matched_start : Matched p 0 p.cols fun _ => p.rows where
  bounded := fun _ => .inl rfl
  apart := fun _ _ _ _ h => absurd rfl h

theorem Matched.exists_free (h : Matched p bound p.cols m) (hbound : bound < p.cols) :
    ∃ c, c < p.cols ∧ m c = p.rows := by
  by_contra hnone
  push Not at hnone
  -- else the columns go into the matched rows, one to one
  have hmaps : ∀ c ∈ range p.cols, m c ∈ range bound := by
    intro c hc
    rw [mem_range] at hc ⊢
    exact (h.bounded c).resolve_left (hnone c hc)
  have hinj : Set.InjOn m (range p.cols) := by
    intro c hc c' hc' heq
    have hlt := mem_range.mp (mem_coe.mp hc)
    have hlt' := mem_range.mp (mem_coe.mp hc')
    exact h.apart c c' hlt.ne hlt'.ne (hnone c hlt) heq
  have hcard := card_le_card_of_injOn m hmaps hinj
  rw [card_range, card_range] at hcard
  omega

variable {c : Nat}

theorem Matched.put_start (h : Matched p bound p.cols m) (hbound : bound < p.rows) {c' : Nat}
    (hmatched : update m p.cols bound c ≠ p.rows)
    (heq : update m p.cols bound c = update m p.cols bound c') : c = c' := by
  have hnew : ∀ c, c ≠ p.cols → m c ≠ bound := by
    intro c _ hc
    rcases h.bounded c with hfree | hlt <;> omega
  by_cases hc : c = p.cols
  · subst hc
    by_contra hne
    rw [update_self, update_of_ne (Ne.symm hne)] at heq
    exact hnew c' (Ne.symm hne) heq.symm
  · rw [update_of_ne hc] at hmatched heq
    by_cases hc' : c' = p.cols
    · rw [hc', update_self] at heq
      exact absurd heq (hnew c hc)
    · rw [update_of_ne hc'] at heq
      exact h.apart c c' hc hc' hmatched heq

theorem Matched.move (h : Matched p bound hole m) (before : Nat) :
    Matched p bound before (update m hole (m before)) := by
  refine ⟨fun c => ?_, fun c c' hc hc' hmatched heq => ?_⟩
  · by_cases hhole : c = hole
    · rw [hhole, update_self]
      exact h.bounded before
    · rw [update_of_ne hhole]
      exact h.bounded c
  by_cases hsame : before = hole
  · subst hsame
    rw [update_eq_self] at hmatched heq
    exact h.apart c c' hc hc' hmatched heq
  by_cases hhole : c = hole
  · by_contra hne
    have hhole' : c' ≠ hole := fun h => hne (hhole.trans h.symm)
    rw [hhole, update_self, update_of_ne hhole'] at heq
    rw [hhole, update_self] at hmatched
    exact hc' (h.apart before c' hsame hhole' hmatched heq).symm
  · rw [update_of_ne hhole] at hmatched heq
    by_cases hhole' : c' = hole
    · rw [hhole', update_self] at heq
      exact absurd (h.apart c before hhole hsame hmatched heq) hc
    · rw [update_of_ne hhole'] at heq
      exact h.apart c c' hhole hhole' hmatched heq

def LeadsBack (p : Problem) (previous rank : Nat → Nat) (visited : Nat → Bool) : Prop :=
  ∀ c, visited c = true → c ≠ p.cols → visited (previous c) = true ∧ rank (previous c) < rank c

variable {visited : Nat → Bool} {fuel : Nat} {rank : Nat → Nat} {Q : (Nat → Nat) → Nat → Prop}

/-- The matches move along a path that leads back, and what each move preserves holds at its
    end. -/
theorem augment_rule {previous : Nat → Nat}
    (hback : LeadsBack p previous rank visited)
    (hmove : ∀ m hole, Q m hole → visited hole = true → hole ≠ p.cols →
      Q (update m hole (m (previous hole))) (previous hole)) (hstart : Q m hole) (hvisited : visited hole = true) (hfuel : rank hole ≤ fuel) :
    ∃ m', augment p previous fuel m hole = some m' ∧ Q m' p.cols := by
  induction fuel generalizing m hole with
  | zero =>
    unfold augment
    by_cases hend : hole = p.cols
    · rw [if_pos hend]
      exact ⟨m, rfl, hend ▸ hstart⟩
    · have hlt := (hback hole hvisited hend).2
      omega
  | succ fuel ih =>
    unfold augment
    by_cases hend : hole = p.cols
    · rw [if_pos hend]
      exact ⟨m, rfl, hend ▸ hstart⟩
    · rw [if_neg hend]
      obtain ⟨hbefore, hlt⟩ := hback hole hvisited hend
      exact ih (hmove m hole hstart hvisited hend) hbefore (by omega)

/-! ## The search -/

def Search.Open (p : Problem) (s : Search) (c : Nat) : Prop :=
  c < p.cols ∧ s.visited c = false ∧ s.minCost c ≠ none

structure Search.Nearest (p : Problem) (s : Search) (seen : Nat) (best : Option (ℚ × Nat)) :
    Prop where
  attained : ∀ delta next, best = some (delta, next) →
    s.Open p next ∧ s.minCost next = some delta
  least : ∀ c least, c < seen → s.Open p c → s.minCost c = some least →
    ∃ delta next, best = some (delta, next) ∧ delta ≤ least

def Search.nearer (s : Search) (best : Option (ℚ × Nat)) (col : Nat) : Option (ℚ × Nat) :=
  if s.visited col then best
  else
    match s.minCost col, best with
    | none, _ => best
    | some least, none => some (least, col)
    | some least, some (delta, next) =>
      if least < delta then some (least, col) else some (delta, next)

variable {s : Search}

theorem Search.Nearest.nearer {col : Nat} {best : Option (ℚ × Nat)}
    (h : s.Nearest p col best) (hcol : col < p.cols) :
    s.Nearest p (col + 1) (s.nearer best col) := by
  -- a column that is not open changes nothing
  have hskip : ¬ s.Open p col → s.Nearest p (col + 1) best := by
    intro hclosed
    refine ⟨h.attained, fun c least hc hopen hleast => ?_⟩
    refine h.least c least (lt_of_le_of_ne (Nat.lt_succ_iff.mp hc) ?_) hopen hleast
    rintro rfl
    exact hclosed hopen
  unfold Search.nearer
  by_cases hvisited : s.visited col = true
  · rw [if_pos hvisited]
    exact hskip fun hopen => absurd (hvisited.symm.trans hopen.2.1) Bool.noConfusion
  rw [if_neg hvisited]
  cases hleast : s.minCost col with
  | none => exact hskip fun hopen => hopen.2.2 hleast
  | some least =>
    have hthis : s.Open p col :=
      ⟨hcol, Bool.eq_false_iff.mpr hvisited, by rw [hleast]; exact some_ne_none _⟩
    have hnew : ∀ {delta next}, some (least, col) = some (delta, next) →
        s.Open p next ∧ s.minCost next = some delta := by
      rintro _ _ ⟨⟩
      exact ⟨hthis, hleast⟩
    -- the column itself, and those seen before
    have hsplit : ∀ {c value}, c < col + 1 → s.minCost c = some value →
        c < col ∨ value = least := by
      intro c value hc hvalue
      rcases Nat.lt_succ_iff_lt_or_eq.mp hc with hlt | rfl
      · exact .inl hlt
      · exact .inr (some.inj (hvalue.symm.trans hleast))
    cases hbest : best with
    | none =>
      refine ⟨fun delta next => hnew, fun c value hc hopen hvalue => ?_⟩
      rcases hsplit hc hvalue with hlt | rfl
      · obtain ⟨delta, next, hsome, -⟩ := h.least c value hlt hopen hvalue
        rw [hbest] at hsome
        cases hsome
      · exact ⟨value, col, rfl, le_refl _⟩
    | some b =>
      obtain ⟨delta, next⟩ := b
      simp only
      split
      · rename_i hlower
        refine ⟨fun delta next => hnew, fun c value hc hopen hvalue => ?_⟩
        rcases hsplit hc hvalue with hlt | rfl
        · obtain ⟨delta', next', hsome, hle⟩ := h.least c value hlt hopen hvalue
          rw [hbest] at hsome
          cases hsome
          exact ⟨least, col, rfl, hlower.le.trans hle⟩
        · exact ⟨value, col, rfl, le_refl _⟩
      · rename_i hhigher
        refine ⟨fun delta' next' hsome => h.attained delta' next' (hbest.trans hsome),
          fun c value hc hopen hvalue => ?_⟩
        rcases hsplit hc hvalue with hlt | rfl
        · rw [← hbest]
          exact h.least c value hlt hopen hvalue
        · exact ⟨delta, next, rfl, not_lt.mp hhigher⟩

theorem Search.nearest_spec (s : Search) : s.Nearest p p.cols (s.nearest p) := by
  have hscan : ∀ seen, seen ≤ p.cols →
      s.Nearest p seen ((List.range seen).foldl s.nearer none) := by
    intro seen
    induction seen with
    | zero =>
      intro _
      refine ⟨fun delta next hnone => ?_, fun c least hc => absurd hc (not_lt_zero c)⟩
      cases hnone
    | succ seen ih =>
      intro hseen
      rw [List.range_succ, List.foldl_append]
      exact (ih (le_of_succ_le hseen)).nearer hseen
  exact hscan p.cols (le_refl _)

structure Search.Inv (p : Problem) (fuel : Nat) (rank : Nat → Nat) (s : Search) (marker : Nat) :
    Prop where
  marker_new : s.visited marker = false
  marker_le : marker ≤ p.cols
  marker_matched : marker ≠ p.cols → s.matchCol marker ≠ p.rows
  visited_matched : ∀ c, s.visited c = true → c ≤ p.cols ∧
    (c ≠ p.cols → s.matchCol c ≠ p.rows)
  back : LeadsBack p s.previous rank s.visited
  early : ∀ c, s.visited c = true → rank c + fuel ≤ p.cols
  reached : ∀ c, c < p.cols → s.visited c = false → s.minCost c ≠ none →
    s.visited (s.previous c) = true
  marker_reached : marker = p.cols ∨ s.visited (s.previous marker) = true
  room : ((range (p.cols + 1)).filter fun c => s.visited c = false).card ≤ fuel
  fuel_le : fuel ≤ p.cols + 1

variable {marker : Nat}

theorem visit_eq_true :
    update visited marker true c = true ↔ c = marker ∨ visited c = true := by
  by_cases hc : c = marker
  · rw [hc, update_self]
    exact iff_of_true rfl (.inl rfl)
  · rw [update_of_ne hc]
    exact ⟨.inr, fun h => h.resolve_left hc⟩

theorem card_unvisited_lt (hmarker : marker < bound) (hnew : visited marker = false) :
    ((range bound).filter fun c => update visited marker true c = false).card <
      ((range bound).filter fun c => visited c = false).card := by
  refine card_lt_card ((ssubset_iff_of_subset ?_).mpr ⟨marker, ?_, ?_⟩)
  · intro c hc
    rw [mem_filter, Bool.eq_false_iff, ne_eq, visit_eq_true, not_or] at hc
    exact mem_filter.mpr ⟨hc.1, Bool.eq_false_iff.mpr hc.2.2⟩
  · exact mem_filter.mpr ⟨mem_range.mpr hmarker, hnew⟩
  · rw [mem_filter, update_self]
    exact fun hc => Bool.noConfusion hc.2

theorem Search.relax_reached (s : Search) (marker : Nat) (hc : c < p.cols)
    (hnew : s.visited c = false) :
    (s.relax p marker).minCost c ≠ none ∧ ((s.relax p marker).previous c = marker ∨
      (s.minCost c ≠ none ∧ (s.relax p marker).previous c = s.previous c)) := by
  by_cases himproves : s.improves p marker c = true
  · show (if s.improves p marker c then some _ else _) ≠ none ∧
      ((if s.improves p marker c then marker else _) = marker ∨ _)
    rw [if_pos himproves, if_pos himproves]
    exact ⟨some_ne_none _, .inl rfl⟩
  · have hsome : s.minCost c ≠ none := by
      intro hnone
      apply himproves
      simp [Search.improves, hc, hnew, hnone]
    show (if s.improves p marker c then some _ else _) ≠ none ∧ (_ ∨
      (s.minCost c ≠ none ∧ (if s.improves p marker c then _ else s.previous c) = s.previous c))
    rw [if_neg himproves, if_neg himproves]
    exact ⟨hsome, .inr ⟨hsome, rfl⟩⟩

theorem Search.relax_previous (s : Search) (marker : Nat) (h : s.visited c = true) :
    (s.relax p marker).previous c = s.previous c := by
  unfold relax
  have hsettled : s.improves p marker c = false := by simp [Search.improves, h]
  simp only [hsettled]
  rfl

theorem Search.Inv.visit (h : s.Inv p (fuel + 1) rank marker) :
    LeadsBack p s.previous (update rank marker (p.cols - fuel))
      (update s.visited marker true) := by
  have hnew := h.marker_new
  -- the marker was not visited, so no visited column is it
  have hother : ∀ c, s.visited c = true → c ≠ marker := by
    rintro c hc rfl
    rw [hnew] at hc
    cases hc
  intro c hc hne
  rw [visit_eq_true] at hc ⊢
  rcases hc with rfl | hvisited
  · have hbefore := h.marker_reached.resolve_left hne
    have hearly := h.early _ hbefore
    refine ⟨.inr hbefore, ?_⟩
    rw [update_self, update_of_ne (hother _ hbefore)]
    omega
  · obtain ⟨hbefore, hlt⟩ := h.back c hvisited hne
    refine ⟨.inr hbefore, ?_⟩
    rw [update_of_ne (hother _ hvisited), update_of_ne (hother _ hbefore)]
    exact hlt

theorem Search.Inv.advance (h : s.Inv p (fuel + 1) rank marker)
    (hfree : ∃ c, c < p.cols ∧ s.matchCol c = p.rows) :
    ∃ s' next, s.advance p marker = some (s', next) ∧ s'.matchCol = s.matchCol ∧
      next < p.cols ∧ ∃ rank', (s'.matchCol next ≠ p.rows → s'.Inv p fuel rank' next) ∧
        LeadsBack p s'.previous rank' s'.visited ∧ s'.visited (s'.previous next) = true ∧
        rank' (s'.previous next) < p.cols := by
  let visiting : Search := { s with visited := update s.visited marker true }
  let r := visiting.relax p marker
  have hseen : ∀ c, r.visited c = true ↔ c = marker ∨ s.visited c = true := fun c => visit_eq_true
  have hreached : ∀ c, c < p.cols → r.visited c = false →
      r.minCost c ≠ none ∧ r.visited (r.previous c) = true := by
    intro c hc hunseen
    obtain ⟨hsome, hfrom⟩ := visiting.relax_reached marker hc hunseen
    refine ⟨hsome, (hseen _).mpr (hfrom.imp id ?_)⟩
    rintro ⟨hbefore, heq⟩
    have hunseen' : s.visited c = false := by
      rw [Bool.eq_false_iff, ne_eq, hseen, not_or] at hunseen
      exact Bool.eq_false_iff.mpr hunseen.2
    rw [heq]
    exact h.reached c hc hunseen' hbefore
  -- a free column is not visited, so one is nearest
  obtain ⟨c₀, hc₀, hfree₀⟩ := hfree
  have hunseen₀ : r.visited c₀ = false := by
    rw [Bool.eq_false_iff, ne_eq, hseen, not_or]
    refine ⟨?_, fun hvisited => (h.visited_matched c₀ hvisited).2 hc₀.ne hfree₀⟩
    rintro rfl
    exact h.marker_matched hc₀.ne hfree₀
  have hscanned : r.Nearest p p.cols (r.nearest p) := r.nearest_spec
  obtain ⟨least, hleast⟩ := ne_none_iff_exists'.mp (hreached c₀ hc₀ hunseen₀).1
  obtain ⟨delta, next, hnearest, -⟩ := hscanned.least c₀ least hc₀
    ⟨hc₀, hunseen₀, (hreached c₀ hc₀ hunseen₀).1⟩ hleast
  obtain ⟨⟨hnext, hnext_unseen, -⟩, -⟩ := hscanned.attained delta next hnearest
  have hadvance : s.advance p marker = some (r.shift p delta, next) := by
    show (r.nearest p).map _ = _
    rw [hnearest]
    rfl
  have hprevious_next : r.visited (r.previous next) = true := (hreached next hnext hnext_unseen).2
  have hback : LeadsBack p r.previous (update rank marker (p.cols - fuel)) r.visited := by
    intro c hc hne
    rw [visiting.relax_previous marker hc]
    exact h.visit c hc hne
  have hfuel := h.fuel_le
  have hcount : ((range (p.cols + 1)).filter fun c => r.visited c = false).card ≤ fuel := by
    have hlt := card_unvisited_lt (lt_succ_of_le h.marker_le) h.marker_new
    exact le_of_lt_succ (hlt.trans_le h.room)
  have hpositive : 1 ≤ fuel := by
    refine (card_pos.mpr ⟨next, mem_filter.mpr ⟨?_, hnext_unseen⟩⟩).trans_le hcount
    exact mem_range.mpr (lt_succ_of_lt hnext)
  have hearly : ∀ c, r.visited c = true →
      update rank marker (p.cols - fuel) c + fuel ≤ p.cols := by
    intro c hc
    by_cases hmarker : c = marker
    · rw [hmarker, update_self]
      omega
    · rw [update_of_ne hmarker]
      have hbefore := h.early c (((hseen c).mp hc).resolve_left hmarker)
      omega
  refine ⟨r.shift p delta, next, hadvance, rfl, hnext,
    update rank marker (p.cols - fuel), fun hmatched => ?_, hback, hprevious_next, ?_⟩
  · refine ⟨hnext_unseen, hnext.le, fun _ => hmatched, fun c hc => ?_, hback, hearly,
      fun c hc hunseen _ => (hreached c hc hunseen).2, .inr hprevious_next, hcount, by omega⟩
    rcases (hseen c).mp hc with rfl | hvisited
    · exact ⟨h.marker_le, h.marker_matched⟩
    · exact h.visited_matched c hvisited
  · have hthere := hearly _ hprevious_next
    show update rank marker (p.cols - fuel) (r.previous next) < p.cols
    omega

structure Search.Ended (p : Problem) (rank : Nat → Nat) (s : Search) (next : Nat) : Prop where
  next_lt : next < p.cols
  free : s.matchCol next = p.rows
  back : LeadsBack p s.previous rank s.visited
  reached : s.visited (s.previous next) = true
  rank_lt : rank (s.previous next) < p.cols

def TurnKeeps (p : Problem) (P : Search → Nat → Prop) : Prop :=
  ∀ {fuel rank s marker s' next}, s.Inv p (fuel + 1) rank marker → P s marker →
    s.advance p marker = some (s', next) → P s' next

variable {P : Search → Nat → Prop}

theorem search_rule (hturn : TurnKeeps p P)
    (h : s.Inv p fuel rank marker)
    (hstart : P s marker) (hfree : ∃ c, c < p.cols ∧ s.matchCol c = p.rows) :
    ∃ s' next, search p fuel s marker = some (s', next) ∧ s'.matchCol = s.matchCol ∧
      P s' next ∧ ∃ rank', s'.Ended p rank' next := by
  induction fuel generalizing s marker rank with
  | zero =>
    -- the marker is not visited, so there is fuel left
    have hmem : marker ∈ (range (p.cols + 1)).filter fun c => s.visited c = false := by
      rw [mem_filter, mem_range]
      exact ⟨lt_succ_of_le h.marker_le, h.marker_new⟩
    have hpos := card_pos.mpr ⟨marker, hmem⟩
    have hroom := h.room
    omega
  | succ fuel ih =>
    obtain ⟨s', next, hadvance, hsame, hnext, rank', hinv, hback, hreached, hrank⟩ :=
      h.advance hfree
    have hkept := hturn h hstart hadvance
    unfold search
    rw [hadvance]
    simp only
    by_cases hend : s'.matchCol next = p.rows
    · rw [if_pos hend]
      exact ⟨s', next, rfl, hsame, hkept, rank', hnext, hend, hback, hreached, hrank⟩
    · rw [if_neg hend]
      obtain ⟨s'', last, hsearch, hsame', hrest⟩ := ih (hinv hend) hkept (by rw [hsame]; exact hfree)
      exact ⟨s'', last, hsearch, hsame'.trans hsame, hrest⟩

variable {v : Potentials} {row : Nat}

theorem Potentials.start_matchCol (v : Potentials) (row : Nat) (hc : c ≠ p.cols) :
    (v.start p row).matchCol c = v.matchCol c :=
  update_of_ne hc _ _

theorem search_row (hturn : TurnKeeps p P)
    (h : Matched p row p.cols v.matchCol) (hrow : row < p.cols) (hstart : P (v.start p row) p.cols) :
    ∃ s next rank, search p (p.cols + 1) (v.start p row) p.cols = some (s, next) ∧
      s.matchCol = (v.start p row).matchCol ∧ P s next ∧ s.Ended p rank next := by
  have hfree : ∃ c, c < p.cols ∧ (v.start p row).matchCol c = p.rows := by
    obtain ⟨c, hc, hfree⟩ := h.exists_free hrow
    exact ⟨c, hc, (v.start_matchCol row hc.ne).trans hfree⟩
  have hinv : (v.start p row).Inv p (p.cols + 1) (fun _ => 0) p.cols := by
    refine ⟨rfl, le_refl _, fun h => absurd rfl h, fun c hc => absurd hc Bool.false_ne_true,
      fun c hc => absurd hc Bool.false_ne_true, fun c hc => absurd hc Bool.false_ne_true,
      fun c _ _ hnone => absurd rfl hnone, .inl rfl, ?_, le_refl _⟩
    refine (card_filter_le _ _).trans ?_
    rw [card_range]
  obtain ⟨s, next, hsearch, hsame, hkept, rank, hended⟩ := search_rule hturn hinv hstart hfree
  exact ⟨s, next, rank, hsearch, hsame, hkept, hended⟩

theorem Matched.searched (h : Matched p row p.cols v.matchCol) (hrow : row < p.rows) (hole : Nat) :
    Matched p (row + 1) hole (v.start p row).matchCol := by
  refine ⟨fun c => ?_, fun c c' _ _ => h.put_start hrow⟩
  by_cases hc : c = p.cols
  · rw [hc]
    exact .inr ((update_self p.cols row v.matchCol).trans_lt (lt_succ_self row))
  · rw [v.start_matchCol row hc]
    exact (h.bounded c).imp id lt_succ_of_lt

theorem insertRow_of_search {next : Nat}
    (hsearch : search p (p.cols + 1) (v.start p row) p.cols = some (s, next))
    (hended : s.Ended p rank next)
    (hstart : Q (update s.matchCol next (s.matchCol (s.previous next))) (s.previous next))
    (hmove : ∀ m hole, Q m hole → s.visited hole = true → hole ≠ p.cols →
      Q (update m hole (m (s.previous hole))) (s.previous hole)) :
    ∃ m', insertRow p v row =
        some { potentialRow := s.potentialRow, potentialCol := s.potentialCol, matchCol := m' } ∧
      Q m' p.cols := by
  obtain ⟨m', haugment, hdone⟩ :=
    augment_rule hended.back hmove hstart hended.reached hended.rank_lt.le
  have hpath : augment p s.previous (p.cols + 1) s.matchCol next = some m' := by
    unfold augment
    rw [if_neg hended.next_lt.ne]
    exact haugment
  refine ⟨m', ?_, hdone⟩
  unfold insertRow
  rw [hsearch]
  simp only
  rw [hpath]
  rfl

end Hungarian

end VisionOs.Tracking
