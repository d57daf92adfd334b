/-
  Points, boxes, regions and the spatial payload of anything positioned in the world.
-/
import VisionOs.Core.Ids
import VisionOs.Core.FloatArith

namespace VisionOs.Core

inductive FrameOfReference where
  | normalized | cameraGround | site | geo
  deriving DecidableEq, Repr

namespace FrameOfReference

def value : FrameOfReference → String
  | normalized => "normalized"
  | cameraGround => "camera_ground"
  | site => "site"
  | geo => "geo"

def members : List FrameOfReference := [normalized, cameraGround, site, geo]

end FrameOfReference

structure Point where
  x : PyFloat
  y : PyFloat
  deriving DecidableEq, Repr

structure BoxFields where
  x1 : PyFloat
  y1 : PyFloat
  x2 : PyFloat
  y2 : PyFloat
  deriving DecidableEq, Repr

/-- `Box.__post_init__`.  A nan passes: no comparison with it is true. -/
def BoxFields.postInit (b : BoxFields) : Raises Unit :=
  require (¬ (b.x2.le b.x1 = true ∨ b.y2.le b.y1 = true)) (.valueError
    [.text "degenerate box: (", .float b.x1, .text ",", .float b.y1, .text ")-(", .float b.x2,
      .text ",", .float b.y2, .text ")"])

structure Box extends BoxFields where
  accepted : toBoxFields.postInit = .ok ()
  deriving DecidableEq

/-- `Box(...)`. -/
def Box.construct : BoxFields → Raises Box := constructWith BoxFields.postInit Box.mk

/-- The usual proxy for an object's ground contact point. -/
def Box.bottomCentre (b : Box) : Point := ⟨(b.x1.add b.x2).half, b.y2⟩

structure Ellipse where
  semiMajor : PyFloat
  semiMinor : PyFloat
  rotationDegrees : PyFloat
  deriving DecidableEq, Repr

structure SpatialFields where
  frameOfReference : FrameOfReference
  bbox : Option Box := none
  calibrationId : Option CalibrationId := none
  groundPoint : Option Point := none
  groundUncertainty : Option Ellipse := none
  deriving DecidableEq

def SpatialFields.postInit (s : SpatialFields) : Raises Unit := do
  require (¬ (s.frameOfReference ≠ .normalized ∧ s.calibrationId = none))
    (.valueError s!"{s.frameOfReference.value} coordinates require a calibration_id")
  require (¬ (s.groundPoint ≠ none ∧ s.groundUncertainty = none))
    (.valueError "ground_point requires ground_uncertainty (02_VOM §6.2)")

structure SpatialInfo extends SpatialFields where
  accepted : toSpatialFields.postInit = .ok ()
  deriving DecidableEq

/-- `SpatialInfo(...)`. -/
def SpatialInfo.construct : SpatialFields → Raises SpatialInfo :=
  constructWith SpatialFields.postInit SpatialInfo.mk

theorem SpatialFields.postInit_eq_ok {s : SpatialFields} :
    s.postInit = .ok () ↔
      (s.frameOfReference ≠ .normalized → s.calibrationId ≠ none) ∧
      (s.groundPoint ≠ none → s.groundUncertainty ≠ none) := by
  unfold postInit
  rw [check_bind_eq_ok, require_eq_ok, require_eq_ok]
  tauto

inductive ContainmentMethod where
  | groundPoint | bboxBottomCentre | maskOverlap
  deriving DecidableEq, Repr

def Box.centre (b : Box) : Point := ⟨(b.x1.add b.x2).half, (b.y1.add b.y2).half⟩

def checkVertices (vertices : List Point) : Raises Unit :=
  require (¬ vertices.length < 3)
    (.valueError s!"polygon needs >= 3 vertices, got {vertices.length}")

structure Polygon where
  vertices : List Point
  accepted : checkVertices vertices = .ok ()
  deriving DecidableEq

namespace Polygon

/-- The edges, each from the vertex before to the vertex itself; the first comes from the
    last vertex. -/
def edges (p : Polygon) : List (Point × Point) :=
  (p.vertices.getLast?.toList ++ p.vertices.dropLast).zip p.vertices

def crosses (point vj vi : Point) : Bool :=
  if (point.y.lt vi.y) ≠ (point.y.lt vj.y) then
    -- The two ordinates differ, so nothing is divided by zero.
    let xAtY := (((vj.x.sub vi.x).mul (point.y.sub vi.y)).quotient (vj.y.sub vi.y)).add vi.x
    point.x.lt xAtY
  else false

/-- `contains`: an odd number of edges is crossed. -/
def contains (p : Polygon) (point : Point) : Bool :=
  p.edges.foldl (fun inside edge => if crosses point edge.1 edge.2 then !inside else inside) false

/-- `min(xs)` and `max(xs)` of a non-empty list: the first of several equal ones. -/
def extreme (pick : PyFloat → PyFloat → PyFloat) : List PyFloat → PyFloat
  | [] => .nan
  | x :: xs => xs.foldl pick x

def bounds (p : Polygon) : Raises Box :=
  let xs := p.vertices.map (·.x)
  let ys := p.vertices.map (·.y)
  Box.construct ⟨extreme .pyMin xs, extreme .pyMin ys, extreme .pyMax xs, extreme .pyMax ys⟩

end Polygon

structure Region where
  regionId : RegionId
  geometry : Polygon
  version : String := "1.0.0"
  deriving DecidableEq

end VisionOs.Core
