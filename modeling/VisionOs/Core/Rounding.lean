/-
  Rounding keeps the order of non-negative rationals.  Two numbers of one binade are
  scaled by the same step; of two binades, the power of two between them is a double.
-/
import VisionOs.Core.FloatArith
import Mathlib.Algebra.Order.Field.Power

namespace VisionOs.Core

open Nat

namespace PyFloat

theorem floor_le_roundHalfEven (q : ℚ) : q.floor ≤ roundHalfEven q := by
  unfold roundHalfEven
  dsimp only
  split_ifs <;> omega

theorem roundHalfEven_le_floor_succ (q : ℚ) : roundHalfEven q ≤ q.floor + 1 := by
  unfold roundHalfEven
  dsimp only
  split_ifs <;> omega

variable {q : ℚ}

theorem le_roundHalfEven {n : Int} (h : (n : ℚ) ≤ q) : n ≤ roundHalfEven q :=
  (Rat.le_floor_iff.mpr h).trans (floor_le_roundHalfEven q)

variable {p : ℚ}

theorem roundHalfEven_mono (h : p ≤ q) : roundHalfEven p ≤ roundHalfEven q := by
  have hfloor : p.floor ≤ q.floor := Rat.le_floor_iff.mpr ((Rat.floor_le p).trans h)
  rcases hfloor.lt_or_eq with hlt | heq
  · have hp := roundHalfEven_le_floor_succ p
    have hq := floor_le_roundHalfEven q
    omega
  -- Over one integer the parts above it are in order.
  have hrest : p - p.floor ≤ q - q.floor := by
    rw [heq]
    exact sub_le_sub_right h _
  unfold roundHalfEven
  dsimp only
  rw [← heq] at hrest ⊢
  split_ifs <;> first | omega | (exfalso; linarith)

theorem pow2_eq_zpow (e : Int) : pow2 e = (2 : ℚ) ^ e := by
  unfold pow2
  split_ifs with h
  · obtain ⟨n, rfl⟩ := Int.eq_ofNat_of_zero_le h
    rw [Int.toNat_natCast, zpow_natCast]
  · obtain ⟨n, hn⟩ := Int.eq_ofNat_of_zero_le (show 0 ≤ -e by omega)
    have he : e = -(n : Int) := by omega
    rw [he, neg_neg, Int.toNat_natCast, zpow_neg, zpow_natCast, one_div]

def exponentOf (a : ℚ) : Int :=
  let guess : Int := (log2 a.num.natAbs : Int) - (log2 a.den : Int)
  if a < pow2 guess then guess - 1 else guess

/-- The step between the doubles next to a positive number, as a power of two. -/
def ulpOf (a : ℚ) : Int := max (exponentOf a - 52) (-1074)

def nearest (a : ℚ) : ℚ := roundHalfEven (a / pow2 (ulpOf a)) * pow2 (ulpOf a)

theorem round_of_pos (h : 0 < q) :
    round q = if pow2 1024 ≤ nearest q then .posInf else .finite (nearest q) := by
  unfold round
  rw [if_neg h.ne']
  dsimp only
  rw [abs_of_pos h, if_neg (not_lt.mpr h.le), if_neg (not_lt.mpr h.le)]
  rfl

theorem exponentOf_spec {a : ℚ} (h : 0 < a) :
    (2 : ℚ) ^ exponentOf a ≤ a ∧ a < (2 : ℚ) ^ (exponentOf a + 1) := by
  have hnum : a.num.natAbs ≠ 0 := by
    have := Rat.num_pos.mpr h
    omega
  have hvalue : a = (a.num.natAbs : ℚ) / a.den := by
    have hpos : ((a.num.natAbs : Int) : ℚ) = (a.num : ℚ) := by
      rw [Int.natAbs_of_nonneg (Rat.num_pos.mpr h).le]
    rw [← Int.cast_natCast (R := ℚ) a.num.natAbs, hpos, Rat.num_div_den]
  have hden : (0 : ℚ) < a.den := by exact_mod_cast a.den_pos
  have hlow : (2 : ℚ) ^ a.num.natAbs.log2 ≤ a.num.natAbs := by
    exact_mod_cast (le_log2 hnum).mp le_rfl
  have hhigh : (a.num.natAbs : ℚ) < 2 ^ (a.num.natAbs.log2 + 1) := by
    exact_mod_cast (log2_lt hnum).mp (lt_succ_self _)
  have hlow' : (2 : ℚ) ^ a.den.log2 ≤ a.den := by
    exact_mod_cast (le_log2 a.den_pos.ne').mp le_rfl
  have hhigh' : (a.den : ℚ) < 2 ^ (a.den.log2 + 1) := by
    exact_mod_cast (log2_lt a.den_pos.ne').mp (lt_succ_self _)
  -- The guess is the exponent or the next one.
  have hbelow : (2 : ℚ) ^ ((a.num.natAbs.log2 : Int) - a.den.log2 - 1) ≤ a := by
    rw [hvalue, le_div_iff₀ hden, ← hvalue, zpow_sub₀ two_ne_zero, zpow_sub₀ two_ne_zero,
      zpow_natCast, zpow_natCast, zpow_one, div_div, ← pow_succ, div_mul_eq_mul_div,
      div_le_iff₀ (by positivity)]
    exact mul_le_mul hlow hhigh'.le hden.le (cast_nonneg _)
  have habove : a < (2 : ℚ) ^ ((a.num.natAbs.log2 : Int) - a.den.log2 + 1) := by
    rw [hvalue, div_lt_iff₀ hden, ← hvalue, zpow_add₀ two_ne_zero, zpow_sub₀ two_ne_zero,
      zpow_natCast, zpow_natCast, zpow_one, div_mul_eq_mul_div, ← pow_succ,
      div_mul_eq_mul_div, lt_div_iff₀ (by positivity)]
    exact mul_lt_mul hhigh hlow' (by positivity) (by positivity)
  unfold exponentOf
  dsimp only
  rw [pow2_eq_zpow]
  split_ifs with hguess
  · exact ⟨hbelow, by rw [sub_add_cancel]; exact hguess⟩
  · exact ⟨not_lt.mp hguess, habove⟩

theorem exponentOf_mono (hp : 0 < p) (hpq : p ≤ q) : exponentOf p ≤ exponentOf q := by
  have hlow := (exponentOf_spec hp).1
  have hhigh := (exponentOf_spec (hp.trans_le hpq)).2
  have := (zpow_lt_zpow_iff_right₀ (one_lt_two (α := ℚ))).mp (hlow.trans_lt (hpq.trans_lt hhigh))
  omega

/-! ## Order -/

theorem steps_of_le {ulp e : Int} (h : ulp ≤ e) :
    ((2 ^ (e - ulp).toNat : Int) : ℚ) * pow2 ulp = (2 : ℚ) ^ e := by
  have hcast : ((2 ^ (e - ulp).toNat : Int) : ℚ) = (2 : ℚ) ^ (e - ulp) := by
    push_cast
    rw [← zpow_natCast, Int.toNat_of_nonneg (by omega)]
  rw [hcast, pow2_eq_zpow, ← zpow_add₀ two_ne_zero, sub_add_cancel]

theorem nearest_le {e : Int} (hulp : ulpOf q ≤ e) (h : q ≤ (2 : ℚ) ^ e) :
    nearest q ≤ (2 : ℚ) ^ e := by
  have hpos := pow2_pos (ulpOf q)
  have hscaled : q / pow2 (ulpOf q) ≤ ((2 ^ (e - ulpOf q).toNat : Int) : ℚ) := by
    rw [div_le_iff₀ hpos, steps_of_le hulp]
    exact h
  have hk : (roundHalfEven (q / pow2 (ulpOf q)) : ℚ) ≤ ((2 ^ (e - ulpOf q).toNat : Int) : ℚ) := by
    exact_mod_cast roundHalfEven_le hscaled
  rw [← steps_of_le hulp]
  exact mul_le_mul_of_nonneg_right hk hpos.le

theorem le_nearest {e : Int} (hulp : ulpOf q ≤ e) (h : (2 : ℚ) ^ e ≤ q) :
    (2 : ℚ) ^ e ≤ nearest q := by
  have hpos := pow2_pos (ulpOf q)
  have hscaled : ((2 ^ (e - ulpOf q).toNat : Int) : ℚ) ≤ q / pow2 (ulpOf q) := by
    rw [le_div_iff₀ hpos, steps_of_le hulp]
    exact h
  have hk : ((2 ^ (e - ulpOf q).toNat : Int) : ℚ) ≤ roundHalfEven (q / pow2 (ulpOf q)) := by
    exact_mod_cast le_roundHalfEven hscaled
  rw [← steps_of_le hulp]
  exact mul_le_mul_of_nonneg_right hk hpos.le

theorem nearest_mono (hp : 0 < p) (hpq : p ≤ q) : nearest p ≤ nearest q := by
  have hexponent := exponentOf_mono hp hpq
  have hspec := exponentOf_spec hp
  have hspec' := exponentOf_spec (hp.trans_le hpq)
  by_cases hulp : ulpOf p = ulpOf q
  · have hpos := pow2_pos (ulpOf q)
    have hscaled : p / pow2 (ulpOf q) ≤ q / pow2 (ulpOf q) :=
      div_le_div_of_nonneg_right hpq hpos.le
    unfold nearest
    rw [hulp]
    exact mul_le_mul_of_nonneg_right (by exact_mod_cast roundHalfEven_mono hscaled) hpos.le
  · -- The power of two that starts the binade of `q` is between them.
    have hlt : exponentOf p + 1 ≤ exponentOf q ∧ ulpOf p ≤ exponentOf q ∧
        ulpOf q ≤ exponentOf q := by
      unfold ulpOf at hulp ⊢
      omega
    have hbetween : p ≤ (2 : ℚ) ^ exponentOf q :=
      hspec.2.le.trans (zpow_le_zpow_right₀ one_le_two hlt.1)
    exact (nearest_le hlt.2.1 hbetween).trans (le_nearest hlt.2.2 hspec'.1)

/-- What is between zero and a number that some double is near has a double near it. -/
theorem round_finite_of_le {r : ℚ} (hp : 0 ≤ p) (hpq : p ≤ q) (h : round q = .finite r) :
    ∃ s, round p = .finite s := by
  rcases hp.eq_or_lt with rfl | hpos
  · exact ⟨0, rfl⟩
  · rw [round_of_pos (hpos.trans_le hpq)] at h
    have hsmall : ¬ pow2 1024 ≤ nearest q := by
      intro hlarge
      rw [if_pos hlarge] at h
      cases h
    rw [round_of_pos hpos,
      if_neg (not_le.mpr ((nearest_mono hpos hpq).trans_lt (not_le.mp hsmall)))]
    exact ⟨_, rfl⟩

theorem round_reaches {m : ℚ} (hp : 0 ≤ p) (hpq : p ≤ q)
    (h : (round p).lt (finite m) = false) : (finite m).le (round q) = true := by
  have hfinite : ∀ r : ℚ, m ≤ r → (finite m).le (finite r) = true := fun r hr => by
    simpa [le, lt, eq, ← le_iff_lt_or_eq] using hr
  rcases hp.eq_or_lt with rfl | hpos
  · -- Nothing reaches no more than zero.
    have hzero : m ≤ 0 := not_lt.mp (of_decide_eq_false h)
    rcases hpq.eq_or_lt with rfl | hqpos
    · exact hfinite 0 hzero
    have hnonneg : (0 : ℚ) ≤ nearest q := mul_nonneg
      (by exact_mod_cast roundHalfEven_nonneg (div_nonneg hqpos.le (pow2_pos (ulpOf q)).le))
      (pow2_pos _).le
    rw [round_of_pos hqpos]
    split
    · rfl
    · exact hfinite _ (hzero.trans hnonneg)
  · have hmono := nearest_mono hpos hpq
    rw [round_of_pos (hpos.trans_le hpq)]
    split
    · rfl
    · rename_i hsmall
      rw [round_of_pos hpos, if_neg fun hbig => hsmall (hbig.trans hmono)] at h
      exact hfinite _ ((not_lt.mp (of_decide_eq_false h)).trans hmono)

/-! ## Between a half and the next double -/

theorem lt_roundHalfEven {n : Int} (h : (n : ℚ) + 1 / 2 < q) : n < roundHalfEven q := by
  have hfloor : n ≤ q.floor := Rat.le_floor_iff.mpr (by linarith)
  unfold roundHalfEven
  dsimp only
  rcases hfloor.lt_or_eq with hlt | rfl
  · split_ifs <;> omega
  · rw [if_neg (by linarith), if_pos (by linarith)]
    omega

theorem round_ne_nan (q : ℚ) : round q ≠ .nan := by
  unfold round
  dsimp only
  split_ifs <;> simp

theorem finite_le_finite : (finite p).le (finite q) = true ↔ p ≤ q := by
  simp [le, lt, eq, ← le_iff_lt_or_eq]

/-- Rounding does not pass a double. -/
theorem round_le {d : ℚ} (hd : 0 ≤ d) (h : q ≤ d) (hdouble : round d = .finite d) :
    (round q).le (finite d) = true := by
  rcases lt_trichotomy q 0 with hneg | rfl | hpos
  · have hnegative : ∀ e : Int,
        (finite (-(roundHalfEven (|q| / pow2 e) * pow2 e))).le (finite d) = true := by
      intro e
      have hpos := (pow2_pos e).le
      refine finite_le_finite.mpr ((neg_nonpos.mpr (mul_nonneg ?_ hpos)).trans hd)
      exact_mod_cast roundHalfEven_nonneg (div_nonneg (abs_nonneg q) hpos)
    unfold round
    rw [if_neg hneg.ne, if_pos hneg]
    extract_lets _ _ _ ulp
    rw [if_pos hneg]
    split
    · rfl
    · exact hnegative ulp
  · exact finite_le_finite.mpr hd
  · have hmono := nearest_mono hpos h
    rw [round_of_pos (hpos.trans_le h)] at hdouble
    split at hdouble
    · cases hdouble
    · rename_i hsmall
      have hnearest := finite.inj hdouble
      rw [round_of_pos hpos, if_neg fun hbig => hsmall (hbig.trans hmono)]
      exact finite_le_finite.mpr (hmono.trans hnearest.le)

theorem le_round {d : ℚ} (hd : 0 ≤ d) (h : d ≤ q) (hdouble : round d = .finite d) :
    (finite d).le (round q) = true := by
  refine round_reaches hd h ?_
  rw [hdouble]
  exact decide_eq_false (lt_irrefl d)

/-- What is between a half and one is kept by a clamp, and what is below a half stays there. -/
theorem half_le_clamp {x : PyFloat} (h : x ≠ .nan) :
    (finite (1 / 2)).le (pyMax (finite 0) (pyMin (finite 1) x)) = true ↔
      (finite (1 / 2)).le x = true := by
  cases x with
  | finite q =>
    rw [finite_le_finite]
    by_cases hone : q < 1
    · have hmin : pyMin (finite 1) (finite q) = finite q := if_pos (decide_eq_true hone)
      rw [hmin]
      by_cases hzero : 0 < q
      · have hmax : pyMax (finite 0) (finite q) = finite q := if_pos (decide_eq_true hzero)
        rw [hmax, finite_le_finite]
      · have hmax : pyMax (finite 0) (finite q) = finite 0 :=
          if_neg fun h => hzero (of_decide_eq_true h)
        rw [hmax, finite_le_finite]
        constructor <;> intro <;> linarith
    · have hmin : pyMin (finite 1) (finite q) = finite 1 :=
        if_neg fun h => hone (of_decide_eq_true h)
      rw [hmin]
      exact iff_of_true (by decide +kernel) (by linarith)
  | posInf | negInf => decide +kernel
  | nan => exact absurd rfl h

/-- The middle of a half and the next double. -/
def pastHalf : ℚ := 1 / 2 + 1 / 2 ^ 54

theorem nextHalf_le_nearest (h : pastHalf < q) : 1 / 2 + 1 / 2 ^ 53 ≤ nearest q := by
  have hhalf : (1 : ℚ) / 2 ≤ pastHalf := by decide +kernel
  -- up to three quarters the step is `2 ** -53`
  have hmin : pastHalf < min q (3 / 4) := lt_min h (by decide +kernel)
  have hpos : (0 : ℚ) < min q (3 / 4) := by linarith
  have hlow := exponentOf_mono (by norm_num) (hhalf.trans hmin.le)
  have hhigh := exponentOf_mono hpos (min_le_right q (3 / 4))
  rw [show exponentOf (1 / 2) = -1 by decide +kernel] at hlow
  rw [show exponentOf (3 / 4) = -1 by decide +kernel] at hhigh
  have hulp : ulpOf (min q (3 / 4)) = -53 := by
    unfold ulpOf
    omega
  have hscaled : (((2 : Int) ^ 52 : Int) : ℚ) + 1 / 2 < min q (3 / 4) / pow2 (-53) := by
    rw [lt_div_iff₀ (pow2_pos _)]
    refine lt_of_eq_of_lt ?_ hmin
    decide +kernel
  have hnext : (((2 : Int) ^ 52 + 1 : Int) : ℚ) ≤ roundHalfEven (min q (3 / 4) / pow2 (-53)) := by
    exact_mod_cast lt_roundHalfEven hscaled
  calc (1 : ℚ) / 2 + 1 / 2 ^ 53 = (((2 : Int) ^ 52 + 1 : Int) : ℚ) * pow2 (-53) := by decide +kernel
    _ ≤ nearest (min q (3 / 4)) := by
      unfold nearest
      rw [hulp]
      exact mul_le_mul_of_nonneg_right hnext (pow2_pos _).le
    _ ≤ nearest q := nearest_mono hpos (min_le_left q (3 / 4))

end PyFloat

end VisionOs.Core
