/-
  More arithmetic of Python floats, and what of it stays in [0,1].  `math.hypot` belongs to the
  platform's C library and is a parameter: it is never negative.
-/
import VisionOs.Core.Exceptions
import Mathlib.Data.Rat.Floor
import Mathlib.Tactic.Positivity

namespace VisionOs.Core

open Nat

namespace PyFloat

def neg : PyFloat → PyFloat
  | .finite q => .finite (-q)
  | .posInf => .negInf
  | .negInf => .posInf
  | .nan => .nan

def sub (x y : PyFloat) : PyFloat := x.add y.neg

def abs : PyFloat → PyFloat
  | .finite q => .finite |q|
  | .posInf | .negInf => .posInf
  | .nan => .nan

def mul : PyFloat → PyFloat → PyFloat
  | .finite p, .finite q => round (p * q)
  | .nan, _ | _, .nan => .nan
  | .finite p, .posInf | .posInf, .finite p =>
    if p = 0 then .nan else if 0 < p then .posInf else .negInf
  | .finite p, .negInf | .negInf, .finite p =>
    if p = 0 then .nan else if 0 < p then .negInf else .posInf
  | .posInf, .posInf | .negInf, .negInf => .posInf
  | .posInf, .negInf | .negInf, .posInf => .negInf

def quotient : PyFloat → PyFloat → PyFloat
  | .finite p, .finite q => round (p / q)
  | .nan, _ | _, .nan => .nan
  | .finite _, _ => .finite 0
  | .posInf, .finite q => if q < 0 then .negInf else .posInf
  | .negInf, .finite q => if q < 0 then .posInf else .negInf
  | _, _ => .nan

def div (x y : PyFloat) : Raises PyFloat :=
  if y.eq (.finite 0) then .error (.zeroDivisionError "float division by zero")
  else .ok (x.quotient y)

def pyMax (x y : PyFloat) : PyFloat := if x.lt y then y else x

def pyMin (x y : PyFloat) : PyFloat := if y.lt x then y else x

def ofRatio (m n : Int) : PyFloat := round ((m : ℚ) / n)

/-! ## Staying in [0,1] -/

variable {x : PyFloat}

theorem inUnit_iff : x.inUnit = true ↔ ∃ q : ℚ, x = .finite q ∧ 0 ≤ q ∧ q ≤ 1 := by
  cases x with
  | finite q =>
    simp only [inUnit, le, lt, eq, Bool.and_eq_true, Bool.or_eq_true, decide_eq_true_eq,
      ← le_iff_lt_or_eq, finite.injEq, exists_eq_left']
  | posInf => simp [inUnit, le, lt, eq]
  | negInf => simp [inUnit, le, lt, eq]
  | nan => simp [inUnit, le, lt, eq]

variable {q : ℚ}

theorem inUnit_finite (h0 : 0 ≤ q) (h1 : q ≤ 1) : (finite q).inUnit = true :=
  inUnit_iff.mpr ⟨q, rfl, h0, h1⟩

theorem roundHalfEven_nonneg (h : 0 ≤ q) : 0 ≤ roundHalfEven q := by
  have hfloor : 0 ≤ q.floor := Rat.le_floor_iff.mpr (by exact_mod_cast h)
  unfold roundHalfEven
  dsimp only
  split_ifs <;> omega

theorem roundHalfEven_le {n : Int} (h : q ≤ n) : roundHalfEven q ≤ n := by
  have hfloor : q.floor ≤ n := by
    have := Rat.floor_le q
    exact_mod_cast this.trans h
  unfold roundHalfEven
  dsimp only
  by_cases hn : q.floor = n
  · have hq : q = n := le_antisymm h (hn ▸ Rat.floor_le q)
    have hrest : q - q.floor < 1 / 2 := by
      rw [hn, hq]
      norm_num
    rw [if_pos hrest]
    exact hfloor
  · split_ifs <;> omega

theorem pow2_pos (e : Int) : 0 < pow2 e := by
  unfold pow2
  split_ifs <;> positivity

theorem pow2_of_nonpos {e : Int} (h : e ≤ 0) : pow2 e * 2 ^ (-e).toNat = 1 := by
  unfold pow2
  split_ifs with h0
  · have he : e = 0 := le_antisymm h h0
    rw [he]
    norm_num
  · field_simp

theorem round_inUnit (h0 : 0 ≤ q) (h1 : q ≤ 1) : (round q).inUnit = true := by
  unfold round
  by_cases hq : q = 0
  · rw [if_pos hq]
    exact inUnit_finite le_rfl zero_le_one
  rw [if_neg hq]
  dsimp only
  rw [abs_of_nonneg h0]
  -- The exponent of a number of [0,1] is not positive.
  have hguess : (log2 q.num.natAbs : Int) - (log2 q.den : Int) ≤ 0 := by
    have hle : q.num.natAbs ≤ q.den := by
      have hnum : q.num ≤ q.den := by
        have := Rat.num_div_den q
        rw [← this, div_le_one (by exact_mod_cast q.den_pos)] at h1
        exact_mod_cast h1
      have hpos : 0 ≤ q.num := Rat.num_nonneg.mpr h0
      omega
    have hnum : q.num.natAbs ≠ 0 := by simpa using hq
    have hpow : 2 ^ q.num.natAbs.log2 ≤ q.den :=
      Nat.le_trans ((Nat.le_log2 hnum).mp le_rfl) hle
    have hlog := (le_log2 q.den_pos.ne').mpr hpow
    omega
  generalize hexp : (if q < pow2 ((log2 q.num.natAbs : Int) - (log2 q.den : Int)) then
    (log2 q.num.natAbs : Int) - (log2 q.den : Int) - 1
    else (log2 q.num.natAbs : Int) - (log2 q.den : Int)) = exponent
  have hexponent : exponent ≤ 0 := by
    rw [← hexp]
    split_ifs <;> omega
  generalize hulp : max (exponent - 52) (-1074) = ulp
  have hulp0 : ulp ≤ 0 := by omega
  have hstep := pow2_of_nonpos hulp0
  have hpos := pow2_pos ulp
  have hscaled : q / pow2 ulp ≤ ((2 ^ (-ulp).toNat : Int) : ℚ) := by
    rw [div_le_iff₀ hpos, mul_comm]
    push_cast
    rw [hstep]
    exact h1
  have hk1 := roundHalfEven_le hscaled
  have hk0 := roundHalfEven_nonneg (div_nonneg h0 hpos.le)
  have hr0 : (0 : ℚ) ≤ roundHalfEven (q / pow2 ulp) * pow2 ulp :=
    mul_nonneg (by exact_mod_cast hk0) hpos.le
  have hr1 : (roundHalfEven (q / pow2 ulp) : ℚ) * pow2 ulp ≤ 1 := by
    have hk : (roundHalfEven (q / pow2 ulp) : ℚ) ≤ 2 ^ (-ulp).toNat := by exact_mod_cast hk1
    calc (roundHalfEven (q / pow2 ulp) : ℚ) * pow2 ulp
        ≤ 2 ^ (-ulp).toNat * pow2 ulp := mul_le_mul_of_nonneg_right hk hpos.le
      _ = 1 := by rw [mul_comm, hstep]
  have hbig : (1 : ℚ) < pow2 1024 := by decide +kernel
  rw [if_neg (by linarith), if_neg (by linarith)]
  exact inUnit_finite hr0 hr1

theorem mul_inUnit {y : PyFloat} (hx : x.inUnit = true) (hy : y.inUnit = true) :
    (x.mul y).inUnit = true := by
  obtain ⟨p, rfl, hp0, hp1⟩ := inUnit_iff.mp hx
  obtain ⟨q, rfl, hq0, hq1⟩ := inUnit_iff.mp hy
  exact round_inUnit (mul_nonneg hp0 hq0) (mul_le_one₀ hp1 hq0 hq1)

theorem one_sub_inUnit (hx : x.inUnit = true) : ((finite 1).sub x).inUnit = true := by
  obtain ⟨p, rfl, hp0, hp1⟩ := inUnit_iff.mp hx
  exact round_inUnit (by linarith) (by linarith)

theorem zero_max_inUnit (hx : x.inUnit = true) : (pyMax (finite 0) x).inUnit = true := by
  unfold pyMax
  split_ifs
  · exact hx
  · exact inUnit_finite le_rfl zero_le_one

theorem quotient_inUnit {p : ℚ} (hp : 0 ≤ p) (hpq : p ≤ q) (hq : 0 < q) :
    ((finite p).quotient (finite q)).inUnit = true :=
  round_inUnit (div_nonneg hp hq.le) ((div_le_one hq).mpr hpq)

theorem ofRatio_inUnit {m n : Int} (hm : 0 ≤ m) (hmn : m ≤ n) (hn : 0 < n) :
    (ofRatio m n).inUnit = true :=
  round_inUnit (div_nonneg (by exact_mod_cast hm) (by exact_mod_cast hn.le))
    ((div_le_one (by exact_mod_cast hn)).mpr (by exact_mod_cast hmn))

theorem round_nonneg (h : 0 ≤ q) : (round q).lt (finite 0) = false := by
  unfold round
  by_cases hq : q = 0
  · rw [if_pos hq]
    rfl
  rw [if_neg hq]
  dsimp only
  have hnot : ¬ q < 0 := not_lt.mpr h
  rw [if_neg hnot, if_neg hnot]
  -- Whatever the step is.
  generalize max ((_ : Int) - 52) (-1074) = ulp
  split
  · rfl
  · have hk := roundHalfEven_nonneg (div_nonneg (abs_nonneg q) (pow2_pos ulp).le)
    exact decide_eq_false (not_lt.mpr (mul_nonneg (by exact_mod_cast hk) (pow2_pos _).le))

/-- A double that is finite is below `2 ** 1024`. -/
theorem round_lt {r : ℚ} (h : round q = .finite r) : |r| < pow2 1024 := by
  unfold round at h
  by_cases hq : q = 0
  · rw [if_pos hq] at h
    cases h
    rw [abs_zero]
    exact pow2_pos _
  rw [if_neg hq] at h
  dsimp only at h
  generalize max ((_ : Int) - 52) (-1074) = ulp at h
  by_cases hlarge : pow2 1024 ≤ roundHalfEven (|q| / pow2 ulp) * pow2 ulp
  · rw [if_pos hlarge] at h
    by_cases hneg : q < 0 <;> simp [hneg] at h
  · rw [if_neg hlarge, PyFloat.finite.injEq] at h
    have hnonneg : 0 ≤ (roundHalfEven (|q| / pow2 ulp) : ℚ) * pow2 ulp :=
      mul_nonneg (Int.cast_nonneg (roundHalfEven_nonneg
        (div_nonneg (abs_nonneg q) (pow2_pos ulp).le))) (pow2_pos ulp).le
    rw [← h]
    by_cases hneg : q < 0
    · rw [if_pos hneg, abs_neg, abs_of_nonneg hnonneg]
      exact not_le.mp hlarge
    · rw [if_neg hneg, abs_of_nonneg hnonneg]
      exact not_le.mp hlarge

theorem quotient_nonneg (hx : x.lt (finite 0) = false) (hq : 0 < q) :
    (x.quotient (finite q)).lt (finite 0) = false := by
  cases x with
  | finite p => exact round_nonneg (div_nonneg (not_lt.mp (of_decide_eq_false hx)) hq.le)
  | posInf =>
    show (if q < 0 then negInf else posInf).lt (finite 0) = false
    rw [if_neg (not_lt.mpr hq.le)]
    rfl
  | negInf => cases hx
  | nan => rfl

theorem one_min_inUnit (hx : x.lt (finite 0) = false) : (pyMin (finite 1) x).inUnit = true := by
  unfold pyMin
  cases x with
  | finite q =>
    split_ifs with h
    · exact inUnit_finite (not_lt.mp (of_decide_eq_false hx)) (of_decide_eq_true h).le
    · exact inUnit_finite zero_le_one le_rfl
  | posInf => exact inUnit_finite zero_le_one le_rfl
  | negInf => cases hx
  | nan => exact inUnit_finite zero_le_one le_rfl

theorem clamp_inUnit (x : PyFloat) : (pyMax (finite 0) (pyMin (finite 1) x)).inUnit = true := by
  unfold pyMax pyMin
  cases x with
  | finite q =>
    by_cases h1 : q < 1
    · have hmin : (finite q).lt (finite 1) = true := decide_eq_true h1
      rw [if_pos hmin]
      by_cases h0 : 0 < q
      · have hmax : (finite 0).lt (finite q) = true := decide_eq_true h0
        rw [if_pos hmax]
        exact inUnit_finite h0.le h1.le
      · have hmax : ¬ (finite 0).lt (finite q) = true := fun h => h0 (of_decide_eq_true h)
        rw [if_neg hmax]
        exact inUnit_finite le_rfl zero_le_one
    · have hmin : ¬ (finite q).lt (finite 1) = true := fun h => h1 (of_decide_eq_true h)
      rw [if_neg hmin]
      decide +kernel
  | posInf => decide +kernel
  | negInf => decide +kernel
  | nan => decide +kernel

end PyFloat

end VisionOs.Core
