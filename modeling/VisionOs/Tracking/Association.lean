/-
  Which detection continues which track: the gated candidates with their costs, and two ways to
  resolve them, greedily and by shortest augmenting paths.  The arrays of the source are functions
  of the index, its infinity is `none`, and a loop that would not end returns `none`.
-/
import VisionOs.Tracking.Motion
import Mathlib.Data.List.Sort

namespace VisionOs.Tracking

open Core Lib List Function

namespace Rect

/-- `Box(...)` over exact rationals: a degenerate one is refused. -/
def construct (r : Rect) : Raises Rect := do
  require (¬ (r.x2 ≤ r.x1 ∨ r.y2 ≤ r.y1)) (.valueError
    [.text "degenerate box: (", .float (.finite r.x1), .text ",", .float (.finite r.y1),
      .text ")-(", .float (.finite r.x2), .text ",", .float (.finite r.y2), .text ")"])
  .ok r

def area (r : Rect) : ℚ := (r.x2 - r.x1) * (r.y2 - r.y1)

def centre (r : Rect) : ℚ × ℚ := ((r.x1 + r.x2) / 2, (r.y1 + r.y2) / 2)

end Rect

def iou (a b : Rect) : ℚ :=
  let left := max a.x1 b.x1
  let top := max a.y1 b.y1
  let right := min a.x2 b.x2
  let bottom := min a.y2 b.y2
  if right ≤ left ∨ bottom ≤ top then 0
  else
    let intersection := (right - left) * (bottom - top)
    let union := a.area + b.area - intersection
    if union > 0 then intersection / union else 0

def PlatformMath.centreDistance (lib : PlatformMath) (a b : Rect) : ℚ :=
  let separation := lib.hypot (a.centre.1 - b.centre.1) (a.centre.2 - b.centre.2)
  min 1 (separation / (14142135623730951 / 10000000000000000))

def scaleRatioPenalty (a b : Rect) : ℚ :=
  if a.area ≤ 0 ∨ b.area ≤ 0 then 1
  else 1 - min a.area b.area / max a.area b.area

structure AssociationPolicyFields where
  iouWeight : ℚ := 6 / 10
  distanceWeight : ℚ := 25 / 100
  scaleWeight : ℚ := 15 / 100
  confidenceWeight : ℚ := 0
  maxCost : ℚ := 7 / 10
  minIou : ℚ := 1 / 10
  gateMultiplier : ℚ := 3
  ambiguityMargin : ℚ := 5 / 100

namespace AssociationPolicyFields

def weightTotal (p : AssociationPolicyFields) : ℚ :=
  p.iouWeight + p.distanceWeight + p.scaleWeight + p.confidenceWeight

def checkWeight (name : String) (value : ℚ) : Raises Unit :=
  require (¬ value < 0) (.valueError
    [.text name, .text " must be non-negative, got ", .float (.finite value)])

def postInit (p : AssociationPolicyFields) : Raises Unit := do
  checkWeight "iou_weight" p.iouWeight
  checkWeight "distance_weight" p.distanceWeight
  checkWeight "scale_weight" p.scaleWeight
  checkWeight "confidence_weight" p.confidenceWeight
  require (¬ p.weightTotal ≤ 0)
    (.valueError "association weights must sum to a positive value")
  require (0 ≤ p.maxCost ∧ p.maxCost ≤ 1)
    (.valueError [.text "max_cost must be in [0,1], got ", .float (.finite p.maxCost)])
  require (0 ≤ p.minIou ∧ p.minIou ≤ 1)
    (.valueError [.text "min_iou must be in [0,1], got ", .float (.finite p.minIou)])
  require (¬ p.gateMultiplier < 0) (.valueError "gate_multiplier must be non-negative")
  require (¬ p.ambiguityMargin < 0) (.valueError "ambiguity_margin must be non-negative")

end AssociationPolicyFields

structure AssociationPolicy extends AssociationPolicyFields where
  accepted : toAssociationPolicyFields.postInit = .ok ()

/-- One (track, detection) pair the gate considered plausible.  The trackers' costs are taken
    as rationals; the greedy associator takes any floats it is given. -/
structure AssociationCandidate (κ : Type := ℚ) where
  trackIndex : Nat
  detectionIndex : Nat
  cost : κ
  deriving DecidableEq

namespace AssociationCandidate

section Key

variable {κ : Type} [LT κ] [DecidableLT κ] [DecidableEq κ]

/-- `<` on the sort keys (cost, track, detection). -/
def less (a b : AssociationCandidate κ) : Prop :=
  a.cost < b.cost ∨ (a.cost = b.cost ∧ (a.trackIndex < b.trackIndex ∨
    (a.trackIndex = b.trackIndex ∧ a.detectionIndex < b.detectionIndex)))

/-- Two candidates that a stable sort by the key leaves in this order. -/
def before (a b : AssociationCandidate κ) : Prop := ¬ b.less a

instance : DecidableRel (before (κ := κ)) := fun a b => by
  unfold before less
  infer_instance

end Key

def beforeByTrack (a b : AssociationCandidate) : Prop :=
  a.cost < b.cost ∨ (a.cost = b.cost ∧ a.trackIndex ≤ b.trackIndex)

instance : DecidableRel beforeByTrack := fun a b => by
  unfold beforeByTrack
  infer_instance

end AssociationCandidate

structure CostMatrixBuilder where
  policy : AssociationPolicy
  lib : PlatformMath

namespace CostMatrixBuilder

def cost (m : CostMatrixBuilder) (predicted box : Rect) (overlap separation score : ℚ) : ℚ :=
  let weighted :=
    m.policy.iouWeight * (1 - overlap) + m.policy.distanceWeight * separation
      + m.policy.scaleWeight * scaleRatioPenalty predicted box
      + m.policy.confidenceWeight * (1 - score)
  weighted / m.policy.weightTotal

def candidate (m : CostMatrixBuilder) (trackIndex detectionIndex : Nat) (predicted box : Rect)
    (gate score : ℚ) : Option AssociationCandidate :=
  let overlap := iou predicted box
  let separation := m.lib.centreDistance predicted box
  if overlap < m.policy.minIou ∧ separation > gate then none
  else
    let cost := m.cost predicted box overlap separation score
    if cost ≤ m.policy.maxCost then some ⟨trackIndex, detectionIndex, cost⟩ else none

/-- The pairs of one prediction.  A degenerate one gates nothing. -/
def candidatesOf (m : CostMatrixBuilder) (trackIndex : Nat) (prediction : Prediction)
    (boxes : List Rect) (scores : List ℚ) : List AssociationCandidate :=
  match prediction.toRect.construct with
  | .error _ => []
  | .ok predicted =>
    let gate := m.policy.gateMultiplier * prediction.uncertainty
    boxes.zipIdx.filterMap fun (box, detectionIndex) =>
      m.candidate trackIndex detectionIndex predicted box gate (scores.getD detectionIndex 1)

def build (m : CostMatrixBuilder) (predictions : List Prediction) (boxes : List Rect)
    (scores : List ℚ) : List AssociationCandidate :=
  (predictions.zipIdx.flatMap fun (prediction, trackIndex) =>
    m.candidatesOf trackIndex prediction boxes scores).insertionSort (·.before ·)

end CostMatrixBuilder

/-! ## Assignments -/

structure AssignmentResult (κ : Type := ℚ) where
  /-- `matches`: the pairs of a track and a detection. -/
  pairs : List (Nat × Nat) := []
  unmatchedTracks : List Nat := []
  unmatchedDetections : List Nat := []
  costs : OrderedDict (Nat × Nat) κ := ∅
  runnerUp : OrderedDict Nat κ := ∅

structure AssociationPort where
  methodId : String
  assign : Nat → Nat → List AssociationCandidate → ℚ → AssignmentResult

def lowerRunnerUp {κ : Type} [LT κ] [DecidableLT κ] (runnerUp : OrderedDict Nat κ) (track : Nat)
    (cost : κ) : OrderedDict Nat κ :=
  match runnerUp.get? track with
  | none => runnerUp.set track cost
  | some existing => if cost < existing then runnerUp.set track cost else runnerUp

namespace Greedy

structure Scan (κ : Type := ℚ) where
  /-- `matches`: the pairs of a track and a detection. -/
  pairs : List (Nat × Nat) := []
  costs : OrderedDict (Nat × Nat) κ := ∅
  runnerUp : OrderedDict Nat κ := ∅
  takenTracks : List Nat := []
  takenDetections : List Nat := []

variable {κ : Type} [LT κ] [DecidableLT κ] [DecidableEq κ]

def Scan.consider (s : Scan κ) (c : AssociationCandidate κ) : Scan κ :=
  if c.trackIndex ∈ s.takenTracks then s
  else if c.detectionIndex ∈ s.takenDetections then
    -- `setdefault`
    match s.runnerUp.get? c.trackIndex with
    | none => { s with runnerUp := s.runnerUp.set c.trackIndex c.cost }
    | some _ => s
  else
    { s with
      pairs := s.pairs ++ [(c.trackIndex, c.detectionIndex)]
      costs := s.costs.set (c.trackIndex, c.detectionIndex) c.cost
      takenTracks := c.trackIndex :: s.takenTracks
      takenDetections := c.detectionIndex :: s.takenDetections }

/-- The first loop: it breaks at the first candidate above the bound. -/
def Scan.first (maxCost : κ) : Scan κ → List (AssociationCandidate κ) → Scan κ
  | s, [] => s
  | s, c :: rest => if c.cost > maxCost then s else Scan.first maxCost (s.consider c) rest

def Scan.lose (s : Scan κ) (c : AssociationCandidate κ) : Scan κ :=
  if c.trackIndex ∈ s.takenTracks then
    match s.costs.get? (c.trackIndex, c.detectionIndex) with
    | some _ => s
    | none => { s with runnerUp := lowerRunnerUp s.runnerUp c.trackIndex c.cost }
  else s

def assign (trackCount detectionCount : Nat) (candidates : List (AssociationCandidate κ))
    (maxCost : κ) : AssignmentResult κ :=
  let ordered := candidates.insertionSort (·.before ·)
  let s := ordered.foldl Scan.lose (Scan.first maxCost {} ordered)
  { pairs := s.pairs
    unmatchedTracks := (range trackCount).filter (· ∉ s.takenTracks)
    unmatchedDetections := (range detectionCount).filter (· ∉ s.takenDetections)
    costs := s.costs
    runnerUp := s.runnerUp }

end Greedy

def greedyAssociator : AssociationPort where
  methodId := "association.greedy"
  assign := Greedy.assign

namespace Hungarian

structure Problem where
  rows : Nat
  cols : Nat
  matrix : Nat → Nat → ℚ

structure Search where
  potentialRow : Nat → ℚ
  potentialCol : Nat → ℚ
  matchCol : Nat → Nat
  minCost : Nat → Option ℚ
  previous : Nat → Nat
  visited : Nat → Bool

variable (p : Problem)

def Search.reduced (s : Search) (marker col : Nat) : ℚ :=
  p.matrix (s.matchCol marker) col - s.potentialRow (s.matchCol marker) - s.potentialCol col

def Search.improves (s : Search) (marker col : Nat) : Bool :=
  decide (col < p.cols) && !s.visited col &&
    match s.minCost col with
    | none => true
    | some least => decide (s.reduced p marker col < least)

def Search.relax (s : Search) (marker : Nat) : Search :=
  { s with
    minCost := fun col =>
      if s.improves p marker col then some (s.reduced p marker col) else s.minCost col
    previous := fun col => if s.improves p marker col then marker else s.previous col }

def Search.nearest (s : Search) : Option (ℚ × Nat) :=
  (range p.cols).foldl (fun best col =>
    if s.visited col then best
    else
      match s.minCost col, best with
      | none, _ => best
      | some least, none => some (least, col)
      | some least, some (delta, next) =>
        if least < delta then some (least, col) else some (delta, next)) none

def Search.shift (s : Search) (delta : ℚ) : Search :=
  { s with
    potentialRow := (range (p.cols + 1)).foldl (fun potential col =>
      if s.visited col then
        update potential (s.matchCol col) (potential (s.matchCol col) + delta)
      else potential) s.potentialRow
    potentialCol := fun col =>
      if col ≤ p.cols ∧ s.visited col = true then s.potentialCol col - delta
      else s.potentialCol col
    minCost := fun col =>
      if s.visited col then s.minCost col else (s.minCost col).map (· - delta) }

/-- One turn of `while True`: the marker is visited, and the search moves on to the nearest
    column.  When none is left the source goes round forever. -/
def Search.advance (s : Search) (marker : Nat) : Option (Search × Nat) :=
  let relaxed := { s with visited := update s.visited marker true }.relax p marker
  (relaxed.nearest p).map fun (delta, next) => (relaxed.shift p delta, next)

def search : Nat → Search → Nat → Option (Search × Nat)
  | 0, _, _ => none
  | fuel + 1, s, marker =>
    match s.advance p marker with
    | none => none
    | some (s', next) => if s'.matchCol next = p.rows then some (s', next) else search fuel s' next

def augment (previous : Nat → Nat) : Nat → (Nat → Nat) → Nat → Option (Nat → Nat)
  | 0, matchCol, marker => if marker = p.cols then some matchCol else none
  | fuel + 1, matchCol, marker =>
    if marker = p.cols then some matchCol
    else augment previous fuel (update matchCol marker (matchCol (previous marker)))
      (previous marker)

structure Potentials where
  potentialRow : Nat → ℚ := fun _ => 0
  potentialCol : Nat → ℚ := fun _ => 0
  /-- Column to row; the number of rows means unmatched. -/
  matchCol : Nat → Nat

def Potentials.start (v : Potentials) (row : Nat) : Search where
  potentialRow := v.potentialRow
  potentialCol := v.potentialCol
  matchCol := update v.matchCol p.cols row
  minCost := fun _ => none
  previous := fun _ => p.cols
  visited := fun _ => false

def insertRow (v : Potentials) (row : Nat) : Option Potentials :=
  match search p (p.cols + 1) (v.start p row) p.cols with
  | none => none
  | some (s, marker) =>
    (augment p s.previous (p.cols + 1) s.matchCol marker).map fun matchCol =>
      { potentialRow := s.potentialRow, potentialCol := s.potentialCol, matchCol }

def insertRows : Potentials → List Nat → Option Potentials
  | v, [] => some v
  | v, row :: rest =>
    match insertRow p v row with
    | none => none
    | some v' => insertRows v' rest

def solve : Option (List (Nat × Nat)) :=
  (insertRows p { matchCol := fun _ => p.rows } (range p.rows)).map fun v =>
    ((range p.cols).filter (v.matchCol · < p.rows)).map fun col => (v.matchCol col, col)

end Hungarian

def pairLe (a b : Nat × Nat) : Prop := a.1 < b.1 ∨ (a.1 = b.1 ∧ a.2 ≤ b.2)

instance : DecidableRel pairLe := fun a b => by
  unfold pairLe
  infer_instance

/-- `_hungarian`: a problem with more rows than columns is solved transposed. -/
def hungarian (matrix : List (List ℚ)) : Option (List (Nat × Nat)) :=
  let rows := matrix.length
  let cols := (matrix.headD []).length
  let entry (row col : Nat) : ℚ := (matrix.getD row []).getD col 0
  let found :=
    if rows > cols then
      ((Hungarian.solve ⟨cols, rows, fun row col => entry col row⟩)).map
        (·.map fun (row, col) => (col, row))
    else Hungarian.solve ⟨rows, cols, entry⟩
  found.map (·.insertionSort pairLe)

namespace Optimal

def infeasible : ℚ := 1000000

def sortedSet (xs : List Nat) : List Nat := xs.dedup.insertionSort (· ≤ ·)

def denseMatrix (rows cols : List Nat) (feasible : List AssociationCandidate) : List (List ℚ) :=
  rows.map fun track => cols.map fun detection =>
    feasible.foldl (fun cell c =>
      if c.trackIndex = track ∧ c.detectionIndex = detection then c.cost else cell) infeasible

def consider (costs : OrderedDict (Nat × Nat) ℚ) (runnerUp : OrderedDict Nat ℚ)
    (c : AssociationCandidate) : OrderedDict Nat ℚ :=
  match costs.get? (c.trackIndex, c.detectionIndex) with
  | some _ => runnerUp
  | none => lowerRunnerUp runnerUp c.trackIndex c.cost

def feasibleCells (rows cols : List Nat) (matrix : List (List ℚ))
    (assignment : List (Nat × Nat)) : List ((Nat × Nat) × ℚ) :=
  assignment.filterMap fun (row, col) =>
    let cost := (matrix.getD row []).getD col 0
    if cost ≥ infeasible then none else some ((rows.getD row 0, cols.getD col 0), cost)

def assign (trackCount detectionCount : Nat) (candidates : List AssociationCandidate)
    (maxCost : ℚ) : AssignmentResult :=
  let feasible := candidates.filter (·.cost ≤ maxCost)
  if feasible = [] ∨ trackCount = 0 ∨ detectionCount = 0 then
    { unmatchedTracks := range trackCount
      unmatchedDetections := range detectionCount }
  else
    let rows := sortedSet (feasible.map (·.trackIndex))
    let cols := sortedSet (feasible.map (·.detectionIndex))
    let matrix := denseMatrix rows cols feasible
    let cells := feasibleCells rows cols matrix ((hungarian matrix).getD [])
    let pairs := (cells.map (·.1)).insertionSort pairLe
    let costs := OrderedDict.ofPairs cells
    { pairs
      unmatchedTracks := (range trackCount).filter (· ∉ pairs.map (·.1))
      unmatchedDetections := (range detectionCount).filter (· ∉ pairs.map (·.2))
      costs
      runnerUp := (feasible.insertionSort (·.beforeByTrack ·)).foldl (consider costs) ∅ }

end Optimal

def optimalAssociator : AssociationPort where
  methodId := "association.optimal"
  assign := Optimal.assign

/-- A cheap pair leaves its row's other column to the row that needs it. -/
example : hungarian [[1 / 10, 2 / 10], [1 / 10, 9 / 10]] = some [(0, 1), (1, 0)] := by
  decide +kernel

example : hungarian [[3], [1], [2]] = some [(1, 0)] := by
  decide +kernel

end VisionOs.Tracking
