/-
  Greedy selection: an element is chosen unless it clashes with one that was chosen before it.
  The last of some elements in the order of a key, and rankings by keys of which no two agree.
-/
import Mathlib.Data.List.Sort

namespace VisionOs.Lib

open List

namespace Selection

variable {α : Type*} (clash : α → α → Prop) [DecidableRel clash]

def choose : List α → List α → List α
  | chosen, [] => chosen
  | chosen, x :: rest =>
    if ∃ y ∈ chosen, clash y x then choose chosen rest else choose (chosen ++ [x]) rest

variable {clash} {chosen xs : List α}

theorem subset_choose : chosen ⊆ choose clash chosen xs := by
  induction xs generalizing chosen with
  | nil => exact List.Subset.refl _
  | cons x rest ih =>
    unfold choose
    split
    · exact ih
    · exact List.Subset.trans (subset_append_left _ _) ih

theorem mem_of_mem_choose {x : α} (h : x ∈ choose clash chosen xs) : x ∈ chosen ∨ x ∈ xs := by
  induction xs generalizing chosen with
  | nil => exact .inl h
  | cons y rest ih =>
    unfold choose at h
    split at h
    · exact (ih h).imp id (mem_cons_of_mem _)
    · rcases ih h with hchosen | hrest
      · rcases mem_append.mp hchosen with hchosen | hnew
        · exact .inl hchosen
        · have hxy : x = y := mem_singleton.mp hnew
          exact .inr (hxy ▸ mem_cons_self)
      · exact .inr (mem_cons_of_mem _ hrest)

theorem pairwise_choose (h : chosen.Pairwise fun y x => ¬ clash y x) :
    (choose clash chosen xs).Pairwise fun y x => ¬ clash y x := by
  induction xs generalizing chosen with
  | nil => exact h
  | cons x rest ih =>
    unfold choose
    split
    · exact ih h
    · rename_i hfree
      apply ih
      rw [pairwise_append]
      refine ⟨h, pairwise_singleton _ _, fun y hy x' hx' hclash => ?_⟩
      rw [mem_singleton.mp hx'] at hclash
      exact hfree ⟨y, hy, hclash⟩

variable {le : α → α → Prop}

theorem exists_choose_le (hrefl : ∀ x, le x x)
    (hsorted : (chosen ++ xs).Pairwise le) :
    ∀ x ∈ xs, ∃ y ∈ choose clash chosen xs, (y = x ∨ clash y x) ∧ le y x := by
  induction xs generalizing chosen with
  | nil => exact fun x hx => absurd hx not_mem_nil
  | cons x rest ih =>
    have hbefore : ∀ y ∈ chosen, le y x := fun y hy =>
      (pairwise_append.mp hsorted).2.2 y hy x mem_cons_self
    intro z hz
    unfold choose
    split
    · rename_i htaken
      have hrest : (chosen ++ rest).Pairwise le :=
        hsorted.sublist ((sublist_cons_self x rest).append_left chosen)
      rcases mem_cons.mp hz with rfl | hz
      · -- the element that was passed over
        obtain ⟨y, hy, hclash⟩ := htaken
        exact ⟨y, subset_choose hy, .inr hclash, hbefore y hy⟩
      · exact ih hrest z hz
    · have hrest : ((chosen ++ [x]) ++ rest).Pairwise le := by
        rw [append_assoc]
        exact hsorted
      rcases mem_cons.mp hz with rfl | hz
      · have hnew : z ∈ chosen ++ [z] := mem_append_right _ (mem_singleton_self z)
        exact ⟨z, subset_choose hnew, .inl rfl, hrefl z⟩
      · exact ih hrest z hz

variable (clash) in
theorem exists_choose_nil_le (hrefl : ∀ x, le x x) (hsorted : xs.Pairwise le)
    {x : α} (hx : x ∈ xs) : ∃ y ∈ choose clash [] xs, (y = x ∨ clash y x) ∧ le y x := by
  have hall : ([] ++ xs).Pairwise le := hsorted
  exact exists_choose_le hrefl hall x hx

end Selection

namespace Latest

variable {α K : Type*} [LinearOrder K] (key : α → K)

/-- The `n` elements with the greatest keys, in their order; all of them where there are fewer. -/
structure IsLatest (n : Nat) (all found : List α) : Prop where
  ordered : found.Pairwise (key · ≤ key ·)
  length_eq : found.length = min n all.length
  latest : ∃ rest, (found ++ rest).Perm all ∧ ∀ x ∈ rest, ∀ y ∈ found, key x ≤ key y

def lastOf (n : Nat) (xs : List α) : List α :=
  let sorted := xs.insertionSort (key · ≤ key ·)
  sorted.drop (sorted.length - n)

variable {key} {n : Nat} {all all' found part rest : List α}

theorem IsLatest.of_perm (h : IsLatest key n all found) (hperm : all.Perm all') :
    IsLatest key n all' found where
  ordered := h.ordered
  length_eq := by
    rw [h.length_eq, hperm.length_eq]
  latest := by
    obtain ⟨rest, hsplit, hle⟩ := h.latest
    exact ⟨rest, hsplit.trans hperm, hle⟩

theorem isLatest_congr (hperm : all.Perm all') :
    IsLatest key n all found ↔ IsLatest key n all' found :=
  ⟨fun h => h.of_perm hperm, fun h => h.of_perm hperm.symm⟩

theorem exists_lastOf (key : α → K) (n : Nat) (part : List α) :
    ∃ before, (before ++ lastOf key n part).Perm part ∧
      (before ++ lastOf key n part).Pairwise (key · ≤ key ·) ∧
      (lastOf key n part).length = min n part.length := by
  let sorted := part.insertionSort (key · ≤ key ·)
  have hsplit : sorted.take (sorted.length - n) ++ lastOf key n part = sorted :=
    take_append_drop _ _
  have hlength : sorted.length = part.length := length_insertionSort _ _
  refine ⟨sorted.take (sorted.length - n), ?_, ?_, ?_⟩
  · rw [hsplit]
    exact perm_insertionSort _ _
  · rw [hsplit]
    exact pairwise_insertionSort _ _
  · show (sorted.drop (sorted.length - n)).length = _
    rw [length_drop, hlength]
    omega

theorem isLatest_lastOf_iff :
    IsLatest key n (part ++ rest) (lastOf key n part) ↔
      ∀ x ∈ rest, n ≤ part.countP (key x ≤ key ·) := by
  obtain ⟨before, hperm, hsorted, hlength⟩ := exists_lastOf key n part
  obtain ⟨-, hordered, hbefore⟩ := pairwise_append.mp hsorted
  have hcount : ∀ p : α → Bool,
      part.countP p = before.countP p + (lastOf key n part).countP p := by
    intro p
    rw [← hperm.countP_eq, countP_append]
  -- the elements of the part that are left out, and those outside it
  have hrest : (lastOf key n part ++ (before ++ rest)).Perm (part ++ rest) := by
    refine List.Perm.trans ?_ (hperm.append_right rest)
    rw [← append_assoc]
    exact perm_append_comm.append_right rest
  constructor
  · intro h x hx
    have hfull := h.length_eq
    rw [hlength, length_append] at hfull
    have hpos := length_pos_of_mem hx
    obtain ⟨others, hsplit, hle⟩ := h.latest
    have hothers : others.Perm (before ++ rest) :=
      (perm_append_left_iff _).mp (hsplit.trans hrest.symm)
    have hmem : x ∈ others := hothers.mem_iff.mpr (mem_append_right _ hx)
    have hall : (lastOf key n part).countP (key x ≤ key ·) = (lastOf key n part).length :=
      countP_eq_length.mpr fun y hy => decide_eq_true (hle x hmem y hy)
    have hpart := hcount (key x ≤ key ·)
    omega
  · intro h
    refine ⟨hordered, ?_, before ++ rest, hrest, fun x hx y hy => ?_⟩
    · rw [hlength, length_append]
      cases rest with
      | nil => rfl
      | cons x others =>
        have hmany := (h x mem_cons_self).trans countP_le_length
        rw [length_cons]
        omega
    · rcases mem_append.mp hx with hx | hx
      · exact hbefore x hx y hy
      by_contra hless
      -- nothing before `y` is as late as `x`, and `y` is not either
      have hnone : before.countP (key x ≤ key ·) = 0 := by
        refine countP_eq_zero.mpr fun z hz hle => ?_
        exact hless ((of_decide_eq_true hle).trans (hbefore z hz y hy))
      have hfew : (lastOf key n part).countP (key x ≤ key ·) < (lastOf key n part).length := by
        refine lt_of_le_of_ne countP_le_length fun hall => ?_
        exact hless (of_decide_eq_true (countP_eq_length.mp hall y hy))
      have hmany := h x hx
      have hpart := hcount (key x ≤ key ·)
      omega

end Latest

namespace Ranking

variable {α K : Type*} [LinearOrder K] {key : α → K} {xs ys : List α} {n : Nat} {x y : α}

variable (key) in
def rankedBy (xs : List α) : List α := xs.insertionSort (key · ≤ key ·)

theorem mem_rankedBy : x ∈ rankedBy key xs ↔ x ∈ xs := mem_insertionSort _

theorem pairwise_rankedBy : (rankedBy key xs).Pairwise (key · ≤ key ·) :=
  pairwise_insertionSort _ _

theorem eq_nil_of_rankedBy (h : rankedBy key xs = []) : xs = [] :=
  eq_nil_iff_forall_not_mem.mpr fun x hx => by
    have hmem : x ∈ rankedBy key xs := mem_rankedBy.mpr hx
    rw [h] at hmem
    cases hmem

theorem first_of_rankedBy {first : α} (h : rankedBy key xs = first :: ys) :
    first ∈ xs ∧ ∀ x ∈ xs, key first ≤ key x := by
  have hsorted : (rankedBy key xs).Pairwise (key · ≤ key ·) := pairwise_rankedBy
  rw [h] at hsorted
  refine ⟨mem_rankedBy.mp (h ▸ mem_cons_self), fun x hx => ?_⟩
  have hmem : x ∈ rankedBy key xs := mem_rankedBy.mpr hx
  rw [h] at hmem
  rcases mem_cons.mp hmem with rfl | hrest
  · exact le_rfl
  · exact (pairwise_cons.mp hsorted).1 x hrest

theorem rankedBy_perm (hkeys : (xs.map key).Nodup) (h : ys.Perm xs) :
    rankedBy key ys = rankedBy key xs := by
  refine List.Perm.eq_of_pairwise (fun a b ha hb hab hba => ?_) pairwise_rankedBy
    pairwise_rankedBy ((perm_insertionSort _ _).trans
      (h.trans (perm_insertionSort _ _).symm))
  exact inj_on_of_nodup_map hkeys (h.mem_iff.mp (mem_rankedBy.mp ha)) (mem_rankedBy.mp hb)
    (le_antisymm hab hba)

theorem strict_rankedBy (hkeys : (xs.map key).Nodup) :
    (rankedBy key xs).Pairwise (key · < key ·) := by
  have hdistinct : ((rankedBy key xs).map key).Nodup :=
    ((perm_insertionSort _ _).map key).nodup_iff.mpr hkeys
  exact (pairwise_rankedBy.and (pairwise_map.mp hdistinct)).imp fun h => lt_of_le_of_ne h.1 h.2

theorem mem_take_iff (h : xs.Pairwise (key · < key ·)) :
    x ∈ xs.take n ↔ x ∈ xs ∧ xs.countP (key · < key x) < n := by
  induction xs generalizing n with
  | nil => simp
  | cons first rest ih =>
    obtain ⟨hfirst, hrest⟩ := pairwise_cons.mp h
    cases n with
    | zero => simp
    | succ n =>
      rw [take_succ_cons, mem_cons, mem_cons, ih hrest, countP_cons]
      constructor
      · rintro (rfl | ⟨hx, hcount⟩)
        · have hnone : rest.countP (key · < key x) = 0 := by
            refine countP_eq_zero.mpr fun y hy => ?_
            simpa using (hfirst y hy).le
          simp [hnone]
        · refine ⟨.inr hx, ?_⟩
          rw [if_pos (decide_eq_true (hfirst x hx))]
          omega
      · rintro ⟨rfl | hx, hcount⟩
        · exact .inl rfl
        · rw [if_pos (decide_eq_true (hfirst x hx))] at hcount
          exact .inr ⟨hx, by omega⟩

variable {R : α → α → Prop}

/-- In a list that is ranked, what holds of its pairs holds of those that are ranked apart. -/
theorem pairwise_iff_of_strict (h : xs.Pairwise (key · < key ·)) :
    xs.Pairwise R ↔ ∀ x ∈ xs, ∀ y ∈ xs, key x < key y → R x y := by
  induction xs with
  | nil => simp
  | cons first rest ih =>
    obtain ⟨hfirst, hrest⟩ := pairwise_cons.mp h
    rw [pairwise_cons, ih hrest]
    constructor
    · rintro ⟨hhead, htail⟩ x hx y hy hlt
      rcases mem_cons.mp hy with rfl | hy'
      · rcases mem_cons.mp hx with rfl | hx'
        · exact absurd hlt (lt_irrefl _)
        · exact absurd hlt (hfirst x hx').not_gt
      · rcases mem_cons.mp hx with rfl | hx'
        · exact hhead y hy'
        · exact htail x hx' y hy' hlt
    · intro hall
      refine ⟨fun y hy => hall first mem_cons_self y (mem_cons_of_mem _ hy) (hfirst y hy),
        fun x hx y hy => hall x (mem_cons_of_mem _ hx) y (mem_cons_of_mem _ hy)⟩

/-- Among the first few of a ranking something is wrong exactly when it is wrong of two
    elements of which the later one has few enough before it. -/
theorem pairwise_take_rankedBy (hkeys : (xs.map key).Nodup) :
    ((rankedBy key xs).take n).Pairwise R ↔
      ∀ x ∈ xs, ∀ y ∈ xs, key x < key y → xs.countP (key · < key y) < n → R x y := by
  have hstrict := strict_rankedBy hkeys
  have hcount : ∀ z, (rankedBy key xs).countP (key · < key z) = xs.countP (key · < key z) :=
    fun z => (perm_insertionSort _ _).countP_eq _
  rw [pairwise_iff_of_strict (hstrict.sublist (take_sublist _ _))]
  constructor
  · intro h x hx y hy hlt hfew
    have hbelow : xs.countP (key · < key x) ≤ xs.countP (key · < key y) :=
      countP_mono_left fun z _ hz => decide_eq_true ((of_decide_eq_true hz).trans hlt)
    refine h x ((mem_take_iff hstrict).mpr ⟨mem_rankedBy.mpr hx, ?_⟩) y
      ((mem_take_iff hstrict).mpr ⟨mem_rankedBy.mpr hy, ?_⟩) hlt
    · rw [hcount]
      exact hbelow.trans_lt hfew
    · rw [hcount]
      exact hfew
  · intro h x hx y hy hlt
    obtain ⟨hx, -⟩ := (mem_take_iff hstrict).mp hx
    obtain ⟨hy, hfew⟩ := (mem_take_iff hstrict).mp hy
    exact h x (mem_rankedBy.mp hx) y (mem_rankedBy.mp hy) hlt (hcount y ▸ hfew)

end Ranking

end VisionOs.Lib
