/-
  How the geometric tracker matches one frame: predictions, the association of
  the strong detections, the refusal of near ties, and a second stage for the
  weak detections.  Nothing here changes a record.
-/
import VisionOs.Tracking.Table
import VisionOs.Tracking.Association

namespace VisionOs.Tracking

open Core Lib OrderedDict

structure GeometricConfig where
  trackerId : String
  version : String := "1.0.0"
  useMotionModel : Bool := true
  twoStage : Bool := false
  lowConfidenceFloor : ℚ := 1 / 10
  highConfidenceFloor : ℚ := 5 / 10

/-- What a tracker is built from, with the platform's arithmetic. -/
structure GeometricWiring where
  config : GeometricConfig
  lifecycle : LifecyclePolicy
  association : AssociationPolicy
  associator : AssociationPort
  configRevision : String := "unset"
  historyLength : Int := 32
  lib : PlatformMath

def lostRecoveryCostFactor : ℚ := 5 / 10

def coastRecoveryCostFactor : ℚ := 60 / 100

def recoveryCostFactor : TrackState → Option ℚ
  | .coasting => some coastRecoveryCostFactor
  | .lost => some lostRecoveryCostFactor
  | _ => none

structure Resolved where
  /-- `matches`. -/
  matched : OrderedDict Nat Nat
  costs : OrderedDict (Nat × Nat) ℚ
  runnerUp : OrderedDict Nat ℚ

def resolve (result : AssignmentResult) (indices : List Nat) : Raises Resolved := do
  let bound ← result.pairs.mapM fun (track, detection) => do
    let index ← getItem indices detection
    .ok ((track, index), (result.costs.get? (track, detection)).getD 0)
  .ok { matched := ofPairs (bound.map (·.1))
        costs := ofPairs bound
        runnerUp := result.runnerUp }

namespace GeometricWiring

variable (w : GeometricWiring)

def isHigh (d : Detection) : Bool :=
  if w.config.twoStage then decide (d.confidence.value.exact ≥ w.config.highConfidenceFloor)
  else decide (d.confidence.value.exact ≥ w.config.lowConfidenceFloor)

def isLow (d : Detection) : Bool :=
  w.config.twoStage && !w.isHigh d &&
    decide (d.confidence.value.exact ≥ w.config.lowConfidenceFloor)

def splitDetections (detections : List Detection) : List Nat × List Nat :=
  ((detections.zipIdx.filter (w.isHigh ·.1)).map (·.2),
    (detections.zipIdx.filter (w.isLow ·.1)).map (·.2))

def predictAll (records : List TrackRecord) (elapsed : Duration) : List Prediction :=
  records.map fun r =>
    match r.predictor.predict ⟨r.sinceMeasurementNs + elapsed.ns⟩ with
    | .ok prediction => prediction
    | .error _ => Prediction.certain (Rect.ofBox r.box)

def ceiling (records : List TrackRecord) (index : Nat) : ℚ :=
  match records[index]? with
  | none => w.association.maxCost
  | some r =>
    match recoveryCostFactor r.state with
    | none => w.association.maxCost
    | some factor => w.association.maxCost * factor

/-- The candidates of a stage: an unmeasured track must clear a stricter bar than a live
    one. -/
def gatedCandidates (records : List TrackRecord) (predictions : List Prediction)
    (boxes : List (Option Box)) (scores : List ℚ) : List AssociationCandidate :=
  let candidates := (CostMatrixBuilder.mk w.association w.lib).build predictions
    ((boxes.filterMap id).map Rect.ofBox) scores
  if records.any fun r => (recoveryCostFactor r.state).isSome then
    candidates.filter fun c => c.cost ≤ w.ceiling records c.trackIndex
  else candidates

def stageCandidates (records : List TrackRecord) (predictions : List Prediction)
    (detections : List Detection) (indices : List Nat) : Raises (List AssociationCandidate) := do
  let chosen ← indices.mapM (getItem detections)
  .ok (w.gatedCandidates records predictions (chosen.map (·.spatial.bbox))
    (chosen.map (·.confidence.value.exact)))

def associate (records : List TrackRecord) (predictions : List Prediction)
    (detections : List Detection) (indices : List Nat) : Raises Resolved := do
  let candidates ← w.stageCandidates records predictions detections indices
  resolve (w.associator.assign records.length indices.length candidates w.association.maxCost)
    indices

def nearTie (result : Resolved) (track detection : Nat) : Option (ℚ × ℚ) :=
  match result.runnerUp.get? track with
  | none => none
  | some runnerUp =>
    let won := (result.costs.get? (track, detection)).getD 0
    if runnerUp - won < w.association.ambiguityMargin then some (won, runnerUp) else none

def filterAmbiguous (result : Resolved) (records : List TrackRecord) :
    Raises (OrderedDict Nat Nat × List RefusedAssociation) :=
  if w.association.ambiguityMargin ≤ 0 then .ok (result.matched, [])
  else do
    let refusals ← (result.matched.entries.filterMap fun (track, detection) =>
        (w.nearTie result track detection).map (track, ·)).mapM
      fun (track, won, runnerUp) => do
        let record ← getItem records track
        .ok { trackId := record.trackId, bestCost := won, runnerUpCost := runnerUp }
    .ok (ofPairs (result.matched.entries.filter fun (track, detection) =>
      (w.nearTie result track detection).isNone), refusals)

def leftover (records : List TrackRecord) (matched : OrderedDict Nat Nat) : List Nat :=
  (List.range records.length).filter fun i => (matched.get? i).isNone

def secondAssociate (records : List TrackRecord) (predictions : List Prediction)
    (detections : List Detection) (low leftover : List Nat) : Raises Resolved := do
  let subPredictions ← leftover.mapM (getItem predictions)
  let subRecords ← leftover.mapM (getItem records)
  w.associate subRecords subPredictions detections low

def secondStage (records : List TrackRecord) (predictions : List Prediction)
    (detections : List Detection) (low : List Nat) (matched : OrderedDict Nat Nat)
    (result : Resolved) : Raises (OrderedDict Nat Nat × Resolved) :=
  let leftover := leftover records matched
  if leftover = [] then .ok (matched, result)
  else do
    let second ← w.secondAssociate records predictions detections low leftover
    let added ← second.matched.entries.mapM fun (localIndex, detection) => do
      let track ← getItem leftover localIndex
      .ok ((track, detection), (second.costs.get? (localIndex, detection)).getD 0)
    let combined := added.foldl (fun d e => d.set e.1.1 e.1.2) matched
    .ok (combined,
      { matched := combined
        costs := added.foldl (fun d e => d.set e.1 e.2) result.costs
        runnerUp := result.runnerUp })

structure Pairing where
  matched : OrderedDict Nat Nat
  refused : List RefusedAssociation
  result : Resolved
  high : List Nat

/-- The part of `update` that matches the frame. -/
def pair (records : List TrackRecord) (detections : List Detection) (elapsed : Duration) :
    Raises Pairing := do
  let predictions := predictAll records elapsed
  let (high, low) := w.splitDetections detections
  let first ← w.associate records predictions detections high
  let (matched, refused) ← w.filterAmbiguous first records
  if w.config.twoStage = true ∧ low ≠ [] then do
    let (matched, result) ←
      w.secondStage records predictions detections low matched first
    .ok { matched, refused, result, high }
  else .ok { matched, refused, result := first, high }

end GeometricWiring

end VisionOs.Tracking
