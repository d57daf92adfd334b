/-
  Units that are reserved one at a time, each for a list of names, and are later
  given back or used.  `Owes` names the units that are still out; the tally
  balances, over all units and for each name, exactly when there are none.
-/
import Mathlib.Data.List.Count
import Mathlib.Data.List.Nodup
import Mathlib.Algebra.BigOperators.Group.List.Basic
import Mathlib.Algebra.Order.Ring.Int

namespace VisionOs.Lib

open List

structure Tally (κ : Type*) where
  reserved : List (List κ) := []
  refunded : List (List κ) := []
  used : List (List κ) := []
  deriving DecidableEq, Repr

namespace Tally

variable {κ : Type*}

def reserve (t : Tally κ) (names : List κ) : Tally κ :=
  { t with reserved := t.reserved ++ [names] }

def refund (t : Tally κ) (names : List κ) : Tally κ :=
  { t with refunded := t.refunded ++ [names] }

def use (t : Tally κ) (names : List κ) : Tally κ := { t with used := t.used ++ [names] }

def charges [DecidableEq κ] (units : List (List κ)) (k : κ) : Nat := (units.map (·.count k)).sum

/-- What was reserved and not given back was used, in all and for each name. -/
structure Balanced [DecidableEq κ] (t : Tally κ) : Prop where
  units : (t.reserved.length : Int) - t.refunded.length = t.used.length
  perName : ∀ k, (charges t.reserved k : Int) - charges t.refunded k =
    t.used.countP fun names => k ∈ names

structure Owes (t : Tally κ) (out : List (List κ)) : Prop where
  accounted : t.reserved.Perm (t.refunded ++ t.used ++ out)
  distinct : ∀ names ∈ t.reserved, names.Nodup

variable {t : Tally κ} {names : List κ} {out out' : List (List κ)}

theorem owes_empty : Owes ({} : Tally κ) [] := by
  refine ⟨List.Perm.refl _, ?_⟩
  intro names h
  cases h

theorem Owes.congr (h : t.Owes out) (hperm : out.Perm out') : t.Owes out' :=
  ⟨h.accounted.trans (hperm.append_left _), h.distinct⟩

theorem Owes.reserve (h : t.Owes out) (hnames : names.Nodup) :
    (t.reserve names).Owes (out ++ [names]) := by
  constructor
  · rw [← append_assoc]
    exact h.accounted.append_right _
  · intro names' hmem
    rcases mem_append.mp hmem with hmem | hmem
    · exact h.distinct names' hmem
    · rw [mem_singleton.mp hmem]
      exact hnames

theorem Owes.refund (h : t.Owes (names :: out)) : (t.refund names).Owes out := by
  refine ⟨?_, h.distinct⟩
  show t.reserved.Perm (t.refunded ++ [names] ++ t.used ++ out)
  refine h.accounted.trans ?_
  simp only [append_assoc]
  apply List.Perm.append_left
  exact perm_middle

theorem Owes.use (h : t.Owes (names :: out)) : (t.use names).Owes out := by
  refine ⟨?_, h.distinct⟩
  show t.reserved.Perm (t.refunded ++ (t.used ++ [names]) ++ out)
  refine h.accounted.trans ?_
  simp only [append_assoc, singleton_append]
  exact List.Perm.refl _

variable [DecidableEq κ]

theorem charges_append (units units' : List (List κ)) (k : κ) :
    charges (units ++ units') k = charges units k + charges units' k := by
  unfold charges
  rw [map_append, sum_append]

theorem charges_of_nodup {units : List (List κ)} (h : ∀ names ∈ units, names.Nodup) (k : κ) :
    charges units k = units.countP fun names => k ∈ names := by
  induction units with
  | nil => rfl
  | cons names rest ih =>
    have hrest := ih fun names' hmem => h names' (mem_cons_of_mem _ hmem)
    have hfirst : names.count k = if k ∈ names then 1 else 0 :=
      (h names mem_cons_self).count
    show names.count k + charges rest k = _
    rw [hrest, hfirst, countP_cons, add_comm]
    simp

theorem Owes.balanced_iff (h : t.Owes out) : t.Balanced ↔ out = [] := by
  have hlength := h.accounted.length_eq
  rw [length_append, length_append] at hlength
  constructor
  · intro hbalanced
    have hunits := hbalanced.units
    rw [← length_eq_zero_iff]
    omega
  · rintro rfl
    refine ⟨?_, fun k => ?_⟩
    · rw [length_nil] at hlength
      omega
    · -- what is used was reserved, so it names nothing twice either
      have hused : ∀ names ∈ t.used, names.Nodup := fun names hmem =>
        h.distinct names (h.accounted.mem_iff.mpr
          (mem_append_left _ (mem_append_right _ hmem)))
      have hsame : charges t.reserved k = charges (t.refunded ++ t.used ++ []) k :=
        (h.accounted.map _).sum_eq
      rw [append_nil, charges_append, charges_of_nodup hused] at hsame
      omega

end Tally

end VisionOs.Lib
