/-
  The published views a consumer reads.  Fields that no modelled function reads are left out.
-/
import VisionOs.Core.Ids
import VisionOs.Core.Values
import VisionOs.Lib.OrderedDict

namespace VisionOs.Core

open Lib

structure AttributeView where
  key : AttributeKey
  value : PyValue
  observedAt : Instant
  validUntil : Option Instant
  evidenceRef : Option EvidenceId

/-- Whether the platform has stopped vouching for the value. -/
def AttributeView.isStale (a : AttributeView) (now : Instant) : Bool :=
  match a.validUntil with
  | none => false
  | some validUntil => decide (now.ns > validUntil.ns)

structure ObjectView where
  objectId : ObjectId
  classId : ClassId
  cameraId : CameraId
  attributes : OrderedDict AttributeKey AttributeView

structure CoverageSummary where
  observableFraction : PyFloat
  unavailable : List (String × String)

def CoverageSummary.fullyObservable (c : CoverageSummary) : Bool :=
  (PyFloat.finite 1).le c.observableFraction && c.unavailable.isEmpty

theorem AttributeView.isStale_mono {a : AttributeView} {now later : Instant}
    (hle : now.ns ≤ later.ns) (h : a.isStale now = true) : a.isStale later = true := by
  unfold isStale at *
  cases hv : a.validUntil with
  | none => simp [hv] at h
  | some validUntil =>
    simp only [hv, decide_eq_true_eq] at h ⊢
    omega

end VisionOs.Core
