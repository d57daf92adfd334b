/-
  Motion predictors.  Each track owns one: it is told the measured positions and
  extrapolates from the last, over elapsed time.
-/
import VisionOs.Tracking.Model

namespace VisionOs.Core

/-- The rational a finite float is.  Nothing that was checked to lie in [0,1] is another. -/
def PyFloat.exact : PyFloat → ℚ
  | .finite q => q
  | _ => 0

def Duration.seconds (d : Duration) : ℚ := d.ns / 1000000000

end VisionOs.Core

namespace VisionOs.Tracking

open Core

/-- The functions of the C library's that the tracker calls: `math.hypot(x, y)`, and
    `math.degrees(math.atan2(y, x))`. -/
structure PlatformMath where
  hypot : ℚ → ℚ → ℚ
  degreesAtan2 : ℚ → ℚ → ℚ

structure Rect where
  x1 : ℚ
  y1 : ℚ
  x2 : ℚ
  y2 : ℚ
  deriving DecidableEq

def Rect.ofBox (b : Box) : Rect := ⟨b.x1.exact, b.y1.exact, b.x2.exact, b.y2.exact⟩

structure PredictionFields extends Rect where
  uncertainty : ℚ := 0

def PredictionFields.postInit (p : PredictionFields) : Raises Unit :=
  require (¬ p.uncertainty < 0) (.valueError "uncertainty must be non-negative")

structure Prediction extends PredictionFields where
  accepted : toPredictionFields.postInit = .ok ()

/-- `Prediction(...)`. -/
def Prediction.construct : PredictionFields → Raises Prediction :=
  constructWith PredictionFields.postInit Prediction.mk

def Prediction.certain (r : Rect) : Prediction where
  toRect := r
  uncertainty := 0
  accepted := by
    unfold PredictionFields.postInit
    rw [require_eq_ok]
    exact lt_irrefl 0

structure MotionObservation extends Rect where
  elapsed : Duration

/-! ## The predictors -/

structure StationaryPredictor where
  box : Option Rect := none
  uncertaintyGrowth : ℚ := 5 / 100

structure LinearPredictor where
  smoothing : ℚ := 6 / 10
  uncertaintyGrowth : ℚ := 5 / 100
  box : Option Rect := none
  velocity : ℚ × ℚ := (0, 0)
  acceleration : Option (ℚ × ℚ) := none
  observations : Nat := 0

inductive MotionPredictor where
  | stationary (p : StationaryPredictor)
  | linear (p : LinearPredictor)

namespace LinearPredictor

def updateVelocity (p : LinearPredictor) (previous box : Rect) (seconds : ℚ) : LinearPredictor :=
  let previousCx := (previous.x1 + previous.x2) / 2
  let previousCy := (previous.y1 + previous.y2) / 2
  let cx := (box.x1 + box.x2) / 2
  let cy := (box.y1 + box.y2) / 2
  let instantaneous := ((cx - previousCx) / seconds, (cy - previousCy) / seconds)
  let alpha := p.smoothing
  let velocity :=
    (alpha * instantaneous.1 + (1 - alpha) * p.velocity.1,
      alpha * instantaneous.2 + (1 - alpha) * p.velocity.2)
  { p with
    velocity
    acceleration :=
      if p.observations ≥ 2 then
        some ((velocity.1 - p.velocity.1) / seconds, (velocity.2 - p.velocity.2) / seconds)
      else p.acceleration }

def observe (p : LinearPredictor) (o : MotionObservation) : LinearPredictor :=
  let updated :=
    match p.box with
    | none => p
    | some previous =>
      if o.elapsed.seconds > 0 then p.updateVelocity previous o.toRect o.elapsed.seconds else p
  { updated with box := some o.toRect, observations := p.observations + 1 }

end LinearPredictor

namespace MotionPredictor

def observe : MotionPredictor → MotionObservation → MotionPredictor
  | .stationary p, o => .stationary { p with box := some o.toRect }
  | .linear p, o => .linear (p.observe o)

def predict : MotionPredictor → Duration → Raises Prediction
  | .stationary p, elapsed =>
    match p.box with
    | none => .error (.valueError "predict() before any observation")
    | some box =>
      Prediction.construct { box with uncertainty := p.uncertaintyGrowth * elapsed.seconds }
  | .linear p, elapsed =>
    match p.box with
    | none => .error (.valueError "predict() before any observation")
    | some box =>
      let dx := p.velocity.1 * elapsed.seconds
      let dy := p.velocity.2 * elapsed.seconds
      Prediction.construct
        { x1 := box.x1 + dx, y1 := box.y1 + dy, x2 := box.x2 + dx, y2 := box.y2 + dy
          uncertainty := p.uncertaintyGrowth * elapsed.seconds }

def velocity : MotionPredictor → ℚ × ℚ
  | .stationary _ => (0, 0)
  | .linear p => p.velocity

def acceleration : MotionPredictor → Option (ℚ × ℚ)
  | .stationary _ => none
  | .linear p => p.acceleration

end MotionPredictor

def velocityNoiseFloor : ℚ := 1 / 10000

def PlatformMath.speedOf (lib : PlatformMath) (velocity : ℚ × ℚ) : ℚ :=
  lib.hypot velocity.1 velocity.2

def modTurn (degrees : ℚ) : ℚ := degrees - 360 * (degrees / 360).floor

def PlatformMath.headingOf (lib : PlatformMath) (velocity : ℚ × ℚ) : Option ℚ :=
  if lib.speedOf velocity < velocityNoiseFloor then none
  else some (modTurn (lib.degreesAtan2 velocity.2 velocity.1))

theorem modTurn_bounds (degrees : ℚ) : 0 ≤ modTurn degrees ∧ modTurn degrees < 360 := by
  unfold modTurn
  have hbelow : ((degrees / 360).floor : ℚ) ≤ degrees / 360 := Rat.floor_le _
  have habove : degrees / 360 < (degrees / 360).floor + 1 := by
    exact_mod_cast Rat.lt_floor_add_one (degrees / 360)
  constructor <;> linarith

end VisionOs.Tracking
