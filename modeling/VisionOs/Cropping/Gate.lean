/-
  The grades of an input, and `QualityGate`, which maps them to a verdict.  A
  grade that was not measured is `none` and rejects nothing.
-/
import VisionOs.Core.Observation
import VisionOs.Lib.OrderedDict

namespace VisionOs.Core.PyFloat

def fixed (digits : Nat) : PyFloat → String
  | .posInf => "inf"
  | .negInf => "-inf"
  | .nan => "nan"
  | .finite q =>
    let scaled := (roundHalfEven (|q| * 10 ^ digits)).toNat
    let rest := toString (scaled % 10 ^ digits)
    let fraction := String.ofList (List.replicate (digits - rest.length) '0') ++ rest
    (if q < 0 then "-" else "") ++ toString (scaled / 10 ^ digits) ++
      (if digits = 0 then "" else "." ++ fraction)

example : fixed 2 (.finite (-13 / 8)) = "-1.62" := by decide +kernel

end VisionOs.Core.PyFloat

namespace VisionOs.Cropping

open Core Lib

inductive ExposureLevel where
  | under | ok | over
  deriving DecidableEq, Repr

def ExposureLevel.value : ExposureLevel → String
  | under => "under"
  | ok => "ok"
  | «over» => "over"

def isUsable (level : QualityLevel) : Bool := level ≠ .insufficient

structure GradesFields extends QualityGrades where
  scalePixels : Option PyFloat := none
  truncation : Option PyFloat := none
  occlusion : Option PyFloat := none
  blur : Option PyFloat := none
  crowding : Option PyFloat := none
  exposure : Option ExposureLevel := none
  deriving DecidableEq, Repr

def checkFraction (name : String) (grade : Option PyFloat) : Raises Unit :=
  match grade with
  | none => .ok ()
  | some x => require (x.inUnit = true)
      (.valueError [.text s!"{name} must be in [0,1], got ", .float x])

def checkScale (scalePixels : Option PyFloat) : Raises Unit :=
  match scalePixels with
  | none => .ok ()
  | some x => require (x.lt (.finite 0) = false)
      (.valueError [.text "scale_pixels must be non-negative, got ", .float x])

def GradesFields.postInit (g : GradesFields) : Raises Unit := do
  checkFraction "truncation" g.truncation
  checkFraction "occlusion" g.occlusion
  checkFraction "blur" g.blur
  checkFraction "crowding" g.crowding
  checkScale g.scalePixels

structure Grades extends GradesFields where
  accepted : toGradesFields.postInit = .ok ()
  deriving DecidableEq

def Grades.unmeasured : Grades where
  accepted := rfl

/-! ## The gate -/

inductive GateRejection where
  | tooSmall | tooBlurry | tooOccluded | tooTruncated | exposureUnusable | degenerateGeometry
  deriving DecidableEq, Repr

def GateRejection.value : GateRejection → String
  | tooSmall => "too_small"
  | tooBlurry => "too_blurry"
  | tooOccluded => "too_occluded"
  | tooTruncated => "too_truncated"
  | exposureUnusable => "exposure_unusable"
  | degenerateGeometry => "degenerate_geometry"

inductive GateResult where
  | passed
  | rejected (reason : GateRejection) (detail : String)
  deriving DecidableEq, Repr

structure GateThresholds where
  minScalePixels : PyFloat := .finite 48
  maxTruncation : PyFloat := .round (1 / 2)
  maxOcclusion : PyFloat := .round (7 / 10)
  maxBlur : PyFloat := .round (85 / 100)
  maxCrowding : PyFloat := .round (9 / 10)
  rejectExtremeExposure : Bool := false
  deriving DecidableEq

structure QualityGate where
  thresholds : GateThresholds := {}
  perAttribute : OrderedDict String GateThresholds := ∅

def strictest (best : GateThresholds) : List GateThresholds → GateThresholds
  | [] => best
  | t :: rest => strictest (if best.minScalePixels.lt t.minScalePixels then t else best) rest

def QualityGate.thresholdsFor (gate : QualityGate) (attributes : List String) : GateThresholds :=
  match attributes.filterMap gate.perAttribute.get? with
  | [] => gate.thresholds
  | declared :: rest => strictest declared rest

def above (grade : Option PyFloat) (ceiling : PyFloat) : Option PyFloat :=
  grade.filter fun x => ceiling.lt x

def GateThresholds.rejections (t : GateThresholds) (grades : Grades) : List (Option GateResult) :=
  [ (grades.scalePixels.filter fun x => x.le (.finite 0)).map fun _ =>
      .rejected .degenerateGeometry "the region has no area in source pixels",
    (grades.scalePixels.filter fun x => x.lt t.minScalePixels).map fun x =>
      .rejected .tooSmall (x.fixed 1 ++ "px tall, floor is " ++ t.minScalePixels.fixed 1 ++ "px"),
    (above grades.truncation t.maxTruncation).map fun x =>
      .rejected .tooTruncated (x.fixed 2 ++ " of the object is outside the frame, ceiling is " ++
        t.maxTruncation.fixed 2),
    (above grades.occlusion t.maxOcclusion).map fun x =>
      .rejected .tooOccluded ("occlusion " ++ x.fixed 2 ++ " exceeds " ++ t.maxOcclusion.fixed 2),
    (above grades.crowding t.maxCrowding).map fun x =>
      .rejected .tooOccluded ("crowding " ++ x.fixed 2 ++ " exceeds " ++ t.maxCrowding.fixed 2),
    (above grades.blur t.maxBlur).map fun x =>
      .rejected .tooBlurry ("blur " ++ x.fixed 2 ++ " exceeds " ++ t.maxBlur.fixed 2),
    (grades.exposure.filter fun e => t.rejectExtremeExposure && e ≠ .ok).map fun e =>
      .rejected .exposureUnusable s!"exposure is {e.value}",
    -- the estimator's own verdict comes last, so that a measured axis is named before it
    (grades.overall.filter fun level => level = .insufficient).map fun _ =>
      .rejected (if grades.scalePixels.isNone then .tooSmall else .degenerateGeometry)
        "the estimator graded this input insufficient" ]

/-- `QualityGate.evaluate`: the first check that rejects. -/
def QualityGate.evaluate (gate : QualityGate) (grades : Grades) (attributes : List String) :
    GateResult :=
  (((gate.thresholdsFor attributes).rejections grades).findSome? id).getD .passed

end VisionOs.Cropping
