/-
  The times and the dimensions of a frame, and the estimate that its capture time is
  taken from.
-/
import VisionOs.Core.Observation

namespace VisionOs.Core

structure CaptureEstimate where
  tCapture : Instant
  uncertainty : Duration
  quality : ClockQuality
  deriving DecidableEq, Repr

structure FrameTimeFields where
  pts : Int
  tCapture : Instant
  tCaptureUncertainty : Duration
  tIngest : Instant
  tDecoded : Instant
  clockQuality : ClockQuality
  deriving DecidableEq, Repr

def FrameTimeFields.postInit (t : FrameTimeFields) : Raises Unit :=
  require (¬ t.tCaptureUncertainty.ns < 0)
    (.valueError "t_capture_uncertainty must be non-negative")

structure FrameTime extends FrameTimeFields where
  accepted : toFrameTimeFields.postInit = .ok ()
  deriving DecidableEq

/-- `FrameTime(...)`. -/
def FrameTime.construct : FrameTimeFields → Raises FrameTime :=
  constructWith FrameTimeFields.postInit FrameTime.mk

theorem FrameTimeFields.postInit_eq_ok {t : FrameTimeFields} :
    t.postInit = .ok () ↔ 0 ≤ t.tCaptureUncertainty.ns := by
  simp [postInit, require_eq_ok]

structure FrameDimensionsFields where
  width : Int
  height : Int
  colourSpace : String := "bgr24"
  deriving DecidableEq, Repr

def FrameDimensionsFields.postInit (d : FrameDimensionsFields) : Raises Unit :=
  require (¬ (d.width ≤ 0 ∨ d.height ≤ 0))
    (.valueError s!"invalid dimensions {d.width}x{d.height}")

structure FrameDimensions extends FrameDimensionsFields where
  accepted : toFrameDimensionsFields.postInit = .ok ()
  deriving DecidableEq

/-- `FrameDimensions(...)`. -/
def FrameDimensions.construct : FrameDimensionsFields → Raises FrameDimensions :=
  constructWith FrameDimensionsFields.postInit FrameDimensions.mk

theorem FrameDimensionsFields.postInit_eq_ok {d : FrameDimensionsFields} :
    d.postInit = .ok () ↔ 0 < d.width ∧ 0 < d.height := by
  simp [postInit, require_eq_ok]

end VisionOs.Core
