/-
  Python floats: IEEE doubles as Python code can tell them apart.  Arithmetic is
  the exact rational result rounded to the nearest double, ties to even; the two
  zeros compare equal and are one value here.
-/
import Mathlib.Algebra.Order.Ring.Rat

namespace VisionOs.Core

/-- An IEEE double: a finite value (every finite double is a rational), an infinity,
    or not a number. -/
inductive PyFloat where
  | finite (q : ℚ)
  | posInf
  | negInf
  | nan
  deriving DecidableEq, Repr, Inhabited

namespace PyFloat

/-- `x == y` on floats: nothing equals a nan, a nan included. -/
def eq : PyFloat → PyFloat → Bool
  | .finite p, .finite q => p = q
  | .posInf, .posInf => true
  | .negInf, .negInf => true
  | _, _ => false

/-- `x < y` on floats. -/
def lt : PyFloat → PyFloat → Bool
  | .finite p, .finite q => p < q
  | .finite _, .posInf => true
  | .negInf, .finite _ => true
  | .negInf, .posInf => true
  | _, _ => false

def le (x y : PyFloat) : Bool := x.lt y || x.eq y

def inUnit (x : PyFloat) : Bool := (finite 0).le x && x.le (finite 1)

theorem le_trans {x y z : PyFloat} (hxy : x.le y = true) (hyz : y.le z = true) : x.le z = true := by
  cases x <;> cases y <;> cases z <;> simp_all [le, lt, eq, ← le_iff_lt_or_eq]
  exact hxy.trans hyz

theorem one_inUnit : (finite 1).inUnit = true := by decide +kernel

def pow2 (e : Int) : ℚ := if 0 ≤ e then 2 ^ e.toNat else 1 / 2 ^ (-e).toNat

def roundHalfEven (q : ℚ) : Int :=
  let below := q.floor
  let rest := q - below
  if rest < 1 / 2 then below
  else if 1 / 2 < rest then below + 1
  else if below % 2 = 0 then below
  else below + 1

/-- The double nearest to a rational: 53 significant bits, no step finer than
    `2 ** -1074`, and an infinity from `2 ** 1024` on. -/
def round (q : ℚ) : PyFloat :=
  if q = 0 then .finite 0
  else
    let a := |q|
    let guess : Int := (Nat.log2 a.num.natAbs : Int) - (Nat.log2 a.den : Int)
    let exponent := if a < pow2 guess then guess - 1 else guess
    let ulp := max (exponent - 52) (-1074)
    let r : ℚ := roundHalfEven (a / pow2 ulp) * pow2 ulp
    if pow2 1024 ≤ r then (if q < 0 then .negInf else .posInf)
    else .finite (if q < 0 then -r else r)

def add : PyFloat → PyFloat → PyFloat
  | .finite p, .finite q => round (p + q)
  | .nan, _ | _, .nan => .nan
  | .posInf, .negInf | .negInf, .posInf => .nan
  | .posInf, _ | _, .posInf => .posInf
  | .negInf, _ | _, .negInf => .negInf

def half : PyFloat → PyFloat
  | .finite q => round (q / 2)
  | x => x

/-- `0.1 + 0.2 == 0.3` is false. -/
example : ((round (1 / 10)).add (round (2 / 10))).eq (round (3 / 10)) = false := by
  decide +kernel

end PyFloat

end VisionOs.Core
