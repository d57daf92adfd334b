/-
  The assignment problem: rows are matched with columns, each at most once, at the
  least total cost.  Prices for the rows and the columns that no cell undercuts,
  and that the cells of a matching meet exactly, show that the matching is optimal.
-/
import Mathlib.Algebra.Order.BigOperators.Group.Finset

namespace VisionOs.Lib

open List

namespace Assignment

variable {R C K : Type*}

def total [AddMonoid K] (cost : R → C → K) (cells : List (R × C)) : K :=
  (cells.map fun q => cost q.1 q.2).sum

theorem total_of_perm [AddCommMonoid K] {cost : R → C → K} {cells other : List (R × C)}
    (h : cells.Perm other) : total cost cells = total cost other :=
  (h.map _).sum_eq

theorem total_swap [AddMonoid K] (cost : R → C → K) (cells : List (C × R)) :
    total cost (cells.map fun q => (q.2, q.1)) = total (fun c r => cost r c) cells := by
  unfold total
  rw [map_map]
  rfl

/-- Every row has one cell, and no column has two. -/
structure Covers (rows : Finset R) (cols : Finset C) (cells : List (R × C)) : Prop where
  covered : ∀ i, i ∈ cells.map Prod.fst ↔ i ∈ rows
  within : ∀ c ∈ cells.map Prod.snd, c ∈ cols
  rows_once : (cells.map Prod.fst).Nodup
  cols_once : (cells.map Prod.snd).Nodup

variable [AddCommMonoid K] {rows : Finset R} {cols : Finset C} {cells other : List (R × C)}

theorem Covers.sum_rows (h : Covers rows cols cells) (u : R → K) :
    (cells.map fun q => u q.1).sum = ∑ i ∈ rows, u i := by
  classical
  have hrows : (cells.map Prod.fst).toFinset = rows := by
    ext i
    rw [mem_toFinset, h.covered]
  rw [← hrows, sum_toFinset u h.rows_once, map_map]
  rfl

theorem Covers.sum_cols (h : Covers rows cols cells) {v : C → K}
    (hfree : ∀ c ∈ cols, c ∉ cells.map Prod.snd → v c = 0) :
    (cells.map fun q => v q.2).sum = ∑ c ∈ cols, v c := by
  classical
  have hsub : (cells.map Prod.snd).toFinset ⊆ cols := fun c hc =>
    h.within c (mem_toFinset.mp hc)
  rw [← Finset.sum_subset hsub fun c hc hnot => hfree c hc fun hmem =>
    hnot (mem_toFinset.mpr hmem), sum_toFinset v h.cols_once, map_map]
  rfl

variable [PartialOrder K] [IsOrderedAddMonoid K] {cost : R → C → K} {u : R → K} {v : C → K}

theorem Covers.sum_cols_ge (h : Covers rows cols cells) (hnonpos : ∀ c ∈ cols, v c ≤ 0) :
    ∑ c ∈ cols, v c ≤ (cells.map fun q => v q.2).sum := by
  classical
  have hsub : (cells.map Prod.snd).toFinset ⊆ cols := fun c hc =>
    h.within c (mem_toFinset.mp hc)
  calc ∑ c ∈ cols, v c
      ≤ ∑ c ∈ (cells.map Prod.snd).toFinset, v c :=
        Finset.sum_le_sum_of_subset_of_nonpos' hsub fun c hc _ => hnonpos c hc
    _ = (cells.map fun q => v q.2).sum := by
        rw [sum_toFinset v h.cols_once, map_map]
        rfl

/-- Prices that show a matching to be optimal. -/
structure Certificate (rows : Finset R) (cols : Finset C) (cost : R → C → K) (u : R → K)
    (v : C → K) (cells : List (R × C)) : Prop where
  feasible : ∀ i ∈ rows, ∀ c ∈ cols, u i + v c ≤ cost i c
  nonpos : ∀ c ∈ cols, v c ≤ 0
  free : ∀ c ∈ cols, c ∉ cells.map Prod.snd → v c = 0
  tight : ∀ q ∈ cells, u q.1 + v q.2 = cost q.1 q.2

theorem Certificate.total_le (h : Certificate rows cols cost u v cells)
    (hcells : Covers rows cols cells) (hother : Covers rows cols other) :
    total cost cells ≤ total cost other := by
  have htight : total cost cells = (cells.map fun q => u q.1 + v q.2).sum :=
    congrArg List.sum (map_congr_left fun q hq => (h.tight q hq).symm)
  have hpriced : (other.map fun q => u q.1 + v q.2).sum ≤ total cost other := by
    refine sum_le_sum fun q hq => ?_
    exact h.feasible q.1 ((hother.covered _).mp (mem_map_of_mem hq)) q.2
      (hother.within _ (mem_map_of_mem hq))
  calc total cost cells
      = ∑ i ∈ rows, u i + ∑ c ∈ cols, v c := by
        rw [htight, sum_map_add, hcells.sum_rows, hcells.sum_cols h.free]
    _ ≤ ∑ i ∈ rows, u i + (other.map fun q => v q.2).sum := by
        gcongr
        exact hother.sum_cols_ge h.nonpos
    _ = (other.map fun q => u q.1 + v q.2).sum := by
        rw [sum_map_add, hother.sum_rows]
    _ ≤ total cost other := hpriced

end Assignment

end VisionOs.Lib
