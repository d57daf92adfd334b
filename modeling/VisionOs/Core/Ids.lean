/-
  Identifiers, instants and frame references.  `NewType`s over `str` and `int` are strings and
  integers; instants and durations are integer nanoseconds.
-/
import VisionOs.Core.Exceptions

namespace VisionOs.Core

abbrev TenantId := String
abbrev SiteId := String
abbrev CameraId := String
abbrev ObjectId := String
abbrev ObservationId := String
abbrev ClassId := String
abbrev AttributeKey := String
abbrev RegionId := String
abbrev CalibrationId := String
abbrev EvidenceId := String
abbrev DemandId := String
abbrev RequestId := String
abbrev CropId := String

/-- A UTC instant, in integer nanoseconds since the Unix epoch. -/
@[ext] structure Instant where
  ns : Int
  deriving DecidableEq, Repr, Inhabited

/-- A signed duration, in integer nanoseconds. -/
@[ext] structure Duration where
  ns : Int
  deriving DecidableEq, Repr, Inhabited

/-- `millis`: a true division, which raises when no float is near the result. -/
def Duration.millis (d : Duration) : Raises PyFloat :=
  match PyFloat.round ((d.ns : ℚ) / 1000000) with
  | .finite q => .ok (.finite q)
  | _ => .error (.overflowError "integer division result too large for a float")

def crockford : List Char := "0123456789ABCDEFGHJKMNPQRSTVWXYZ".toList

def newUlid (nowMs : Int) (randomness : Fin (2 ^ 80)) : String :=
  let value := nowMs * 2 ^ 80 + randomness.val
  String.ofList ((List.range 26).map fun i =>
    crockford.getD ((value / 32 ^ (25 - i)) % 32).toNat '0')

structure FrameRefFields where
  cameraId : CameraId
  streamEpoch : Int
  frameSeq : Int
  deriving DecidableEq, Repr

def FrameRefFields.postInit (f : FrameRefFields) : Raises Unit := do
  require (¬ f.streamEpoch < 0)
    (.valueError s!"stream_epoch must be non-negative, got {f.streamEpoch}")
  require (¬ f.frameSeq < 0)
    (.valueError s!"frame_seq must be non-negative, got {f.frameSeq}")

structure FrameRef extends FrameRefFields where
  accepted : toFrameRefFields.postInit = .ok ()
  deriving DecidableEq

/-- `FrameRef(...)`. -/
def FrameRef.construct : FrameRefFields → Raises FrameRef :=
  constructWith FrameRefFields.postInit FrameRef.mk

def FrameRef.str (f : FrameRef) : String := s!"{f.cameraId}/e{f.streamEpoch}/f{f.frameSeq}"

theorem FrameRefFields.postInit_eq_ok {f : FrameRefFields} :
    f.postInit = .ok () ↔ 0 ≤ f.streamEpoch ∧ 0 ≤ f.frameSeq := by
  simp [postInit, check_bind_eq_ok, require_eq_ok]

end VisionOs.Core
