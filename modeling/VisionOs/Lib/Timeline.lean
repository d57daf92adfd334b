/-
  Stretches of time in whole ticks, and what their clipped lengths add up to inside a query.
  States that age along a chain, and where one has got to after some time.
-/
import Mathlib.Algebra.BigOperators.Ring.Finset
import Mathlib.Algebra.Order.BigOperators.Group.Finset
import Mathlib.Data.Int.ConditionallyCompleteOrder
import Mathlib.Data.Int.Interval
import Mathlib.Order.ConditionallyCompleteLattice.Basic
import Mathlib.Data.Rat.Floor
import Mathlib.Tactic.Linarith

namespace VisionOs.Lib.Timeline

open Finset Nat

structure Stretch where
  start : Int
  stop : Option Int

namespace Stretch

/-- The tick lies in the stretch; one without an end goes on. -/
def Covers (s : Stretch) (t : Int) : Prop := s.start ≤ t ∧ ∀ e ∈ s.stop, t < e

instance (s : Stretch) (t : Int) : Decidable (s.Covers t) :=
  inferInstanceAs (Decidable (_ ∧ _))

def within (s : Stretch) (a b : Int) : Int :=
  max 0 (min (s.stop.getD b) b - max s.start a)

theorem filter_covers (s : Stretch) (a b : Int) :
    (Ico a b).filter s.Covers = Ico (max s.start a) (min (s.stop.getD b) b) := by
  ext t
  rw [mem_filter, mem_Ico, mem_Ico]
  unfold Covers
  cases s.stop with
  | none =>
    simp
    omega
  | some e =>
    simp
    omega

theorem within_eq_card (s : Stretch) (a b : Int) :
    s.within a b = ((Ico a b).filter s.Covers).card := by
  rw [filter_covers, Int.card_Ico]
  unfold within
  omega

end Stretch

def coverCount (stretches : List Stretch) (t : Int) : Nat := stretches.countP (·.Covers t)

theorem sum_within (stretches : List Stretch) (a b : Int) :
    (stretches.map (·.within a b)).sum = ∑ t ∈ Ico a b, (coverCount stretches t : Int) := by
  induction stretches with
  | nil => simp [coverCount]
  | cons s rest ih =>
    have hcount : ∀ t, (coverCount (s :: rest) t : Int) =
        (if s.Covers t then 1 else 0) + coverCount rest t := by
      intro t
      unfold coverCount
      rw [List.countP_cons]
      by_cases h : s.Covers t <;> simp [h, add_comm]
    rw [List.map_cons, List.sum_cons, ih, s.within_eq_card, card_filter]
    simp only [hcount, sum_add_distrib, cast_sum, cast_ite, cast_one,
      cast_zero]

/-! ## Counting too often -/

section Parting

variable {due : Int → Bool} {count : Int → Nat}

/-- How many ticks of a set ought to be counted. -/
def dueCount (due : Int → Bool) (s : Finset Int) : Nat := ∑ t ∈ s, (due t).toNat

theorem dueCount_past {u : Int} (hpast : ∀ s < u, due s = false) (a b : Int) :
    dueCount due (Ico a b) ≤ (b - u).toNat := by
  calc ∑ s ∈ Ico a b, (due s).toNat ≤ ∑ s ∈ Ico u b, (due s).toNat := by
        refine sum_le_sum_of_ne_zero fun s hs hdue => ?_
        have hlow : ¬ s < u := fun hlt => hdue (by rw [hpast s hlt]; rfl)
        rw [mem_Ico] at hs ⊢
        omega
    _ ≤ ∑ _s ∈ Ico u b, 1 := sum_le_sum fun s _ => Bool.toNat_le (due s)
    _ = (b - u).toNat := by rw [← card_eq_sum_ones, Int.card_Ico]

/-- Where a tick is counted too often, none is missed and none was due long ago, some query up to
    that tick tells the two counts apart: `c` times its length is between them. -/
theorem exists_parting (hpast : ∃ u, ∀ s < u, due s = false)
    (hcounted : ∀ s, (due s).toNat ≤ count s) {t : Int} (hoften : (due t).toNat < count t) {c : ℚ}
    (hc : 0 < c) (hone : c < 1) :
    ∃ n : Nat, 0 < n ∧ (dueCount due (Ico (t + 1 - n) (t + 1)) : ℚ) ≤ c * n ∧
      c * n < (∑ s ∈ Ico (t + 1 - n) (t + 1), count s : Nat) := by
  obtain ⟨u, hu⟩ := hpast
  -- a long query is mostly past, and the shortest such query is the one
  have hlong : ∃ n : Nat, 0 < n ∧ (dueCount due (Ico (t + 1 - n) (t + 1)) : ℚ) ≤ c * n := by
    have hn := Nat.le_ceil (((t + 1 - u).toNat : ℚ) / c)
    generalize ⌈((t + 1 - u).toNat : ℚ) / c⌉₊ = n at hn
    refine ⟨n + 1, succ_pos n, ?_⟩
    rw [div_le_iff₀ hc] at hn
    calc (dueCount due (Ico (t + 1 - (n + 1 : Nat)) (t + 1)) : ℚ) ≤ ((t + 1 - u).toNat : ℚ) := by
          exact_mod_cast dueCount_past hu _ _
      _ ≤ n * c := hn
      _ ≤ c * (n + 1 : Nat) := by
          push_cast
          linarith
  classical
  obtain ⟨hpos, hfew⟩ := Nat.find_spec hlong
  have hshorter : ∀ m < Nat.find hlong, c * m ≤ (dueCount due (Ico (t + 1 - m) (t + 1)) : ℚ) := by
    intro m hm
    rcases m.eq_zero_or_pos with rfl | hmpos
    · simp
    · exact (not_le.mp fun hle => Nat.find_min hlong hm ⟨hmpos, hle⟩).le
  refine ⟨Nat.find hlong, hpos, hfew, ?_⟩
  generalize Nat.find hlong = n at hpos hshorter
  obtain ⟨m, rfl⟩ := Nat.exists_eq_succ_of_ne_zero hpos.ne'
  have hgrows : dueCount due (Ico (t + 1 - m) (t + 1)) ≤
      dueCount due (Ico (t + 1 - (m + 1 : Nat)) (t + 1)) :=
    sum_le_sum_of_subset (Ico_subset_Ico (by omega) le_rfl)
  have hmore : dueCount due (Ico (t + 1 - (m + 1 : Nat)) (t + 1)) + 1 ≤
      ∑ s ∈ Ico (t + 1 - (m + 1 : Nat)) (t + 1), count s :=
    sum_lt_sum (fun s _ => hcounted s) ⟨t, by rw [mem_Ico]; omega, hoften⟩
  have hless := hshorter m m.lt_succ_self
  calc c * (m + 1 : Nat) < c * m + 1 := by
        push_cast
        linarith
    _ ≤ (dueCount due (Ico (t + 1 - m) (t + 1)) + 1 : Nat) := by
        push_cast
        linarith
    _ ≤ _ := by exact_mod_cast (Nat.add_le_add_right hgrows 1).trans hmore

end Parting

end VisionOs.Lib.Timeline

namespace VisionOs.Lib

/-- The way on from each state and the time from which it is open.  No way leads back. -/
structure Horizons (α T : Type*) where
  next : α → Option (T × α)
  rank : α → Nat
  descends : ∀ a opens b, next a = some (opens, b) → rank b < rank a

namespace Horizons

variable {α T : Type*} [LinearOrder T] (horizons : Horizons α T)

def step (since : T) (a : α) : α :=
  match horizons.next a with
  | none => a
  | some (opens, b) => if opens ≤ since then b else a

def settle (since : T) (a : α) : α := (horizons.step since)^[horizons.rank a] a

variable {since earlier : T} {a : α}

theorem step_eq_or_rank_lt (since : T) (a : α) :
    horizons.step since a = a ∨ horizons.rank (horizons.step since a) < horizons.rank a := by
  unfold step
  cases hnext : horizons.next a with
  | none => exact .inl rfl
  | some way =>
    obtain ⟨opens, b⟩ := way
    by_cases hopen : opens ≤ since
    · simp only [if_pos hopen]
      exact .inr (horizons.descends a opens b hnext)
    · exact .inl (if_neg hopen)

theorem rank_step_le (since : T) (a : α) :
    horizons.rank (horizons.step since a) ≤ horizons.rank a := by
  rcases horizons.step_eq_or_rank_lt since a with hstays | hlt
  · exact le_of_eq (congrArg _ hstays)
  · exact le_of_lt hlt

theorem step_earlier (h : earlier ≤ since) (a : α) :
    horizons.step earlier a = a ∨ horizons.step earlier a = horizons.step since a := by
  unfold step
  cases horizons.next a with
  | none => exact .inl rfl
  | some way =>
    by_cases hopen : way.1 ≤ earlier
    · exact .inr ((if_pos hopen).trans (if_pos (hopen.trans h)).symm)
    · exact .inl (if_neg hopen)

variable {horizons}

theorem step_iterate {n : Nat} (h : horizons.rank a ≤ n) :
    horizons.step since ((horizons.step since)^[n] a) = (horizons.step since)^[n] a := by
  induction n generalizing a with
  | zero =>
    rcases horizons.step_eq_or_rank_lt since a with hstays | hlt
    · exact hstays
    · omega
  | succ n ih =>
    rw [Function.iterate_succ_apply]
    rcases horizons.step_eq_or_rank_lt since a with hstays | hlt
    · rw [hstays, Function.iterate_fixed hstays, hstays]
    · exact ih (by omega)

theorem iterate_eq_settle {n : Nat} (h : horizons.rank a ≤ n) :
    (horizons.step since)^[n] a = horizons.settle since a := by
  obtain ⟨more, rfl⟩ := Nat.exists_eq_add_of_le' h
  rw [Function.iterate_add_apply]
  exact Function.iterate_fixed (step_iterate (le_refl _)) more

theorem settle_of_step_eq (h : horizons.step since a = a) : horizons.settle since a = a :=
  Function.iterate_fixed h _

theorem settle_step (since : T) (a : α) :
    horizons.settle since (horizons.step since a) = horizons.settle since a := by
  rw [← iterate_eq_settle (horizons.rank_step_le since a), ← iterate_eq_settle (Nat.le_succ _)]
  exact (Function.iterate_succ_apply _ _ _).symm

theorem rank_settle_le (since : T) (a : α) :
    horizons.rank (horizons.settle since a) ≤ horizons.rank a := by
  have hall : ∀ n, horizons.rank ((horizons.step since)^[n] a) ≤ horizons.rank a := by
    intro n
    induction n with
    | zero => exact le_refl _
    | succ n ih =>
      rw [Function.iterate_succ_apply']
      exact le_trans (horizons.rank_step_le _ _) ih
  exact hall _

theorem settle_ne (h : horizons.step since a ≠ a) : horizons.settle since a ≠ a := by
  intro hsame
  have hlt := (horizons.step_eq_or_rank_lt since a).resolve_left h
  have hle : horizons.rank (horizons.settle since (horizons.step since a)) ≤ _ :=
    rank_settle_le since (horizons.step since a)
  rw [settle_step, hsame] at hle
  omega

theorem settle_step_of_le (h : earlier ≤ since) (a : α) :
    horizons.settle since (horizons.step earlier a) = horizons.settle since a := by
  rcases horizons.step_earlier h a with hstays | hsame
  · rw [hstays]
  · rw [hsame, settle_step]

theorem settle_settle (h : earlier ≤ since) (a : α) :
    horizons.settle since (horizons.settle earlier a) = horizons.settle since a := by
  have hall : ∀ n a, horizons.settle since ((horizons.step earlier)^[n] a) =
      horizons.settle since a := by
    intro n
    induction n with
    | zero => exact fun _ => rfl
    | succ n ih =>
      intro a
      rw [Function.iterate_succ_apply, ih, settle_step_of_le h]
  exact hall _ a

theorem settle_eq_self_of_le (h : earlier ≤ since) (hstays : horizons.settle since a = a) :
    horizons.settle earlier a = a := by
  by_contra hmoves
  have hstep : horizons.step earlier a ≠ a := fun hstep => hmoves (settle_of_step_eq hstep)
  rcases horizons.step_earlier h a with hsame | hsame
  · exact hstep hsame
  · rw [hsame] at hstep
    exact settle_ne hstep hstays

end Horizons

end VisionOs.Lib
