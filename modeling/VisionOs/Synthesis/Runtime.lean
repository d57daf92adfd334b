/-
  `SynthesisRuntime`: registry updates and understanding results become observations, which are
  handed to the state.  An exception that leaves the assembly is caught by the seam, and nothing
  of that camera is handed over.  Sinks, statistics and health reports are left out.
-/
import VisionOs.Registry.Engine
import VisionOs.State.Manager
import VisionOs.Synthesis.Builder

namespace VisionOs.Synthesis

open Core Registry State Understanding Lib BuildContext

/-- One call of the builder, with its arguments. -/
inductive Job where
  | presence (obj : VisualObject) (basis : MeasurementBasis)
  | spatial (obj : VisualObject) (basis : MeasurementBasis)
  | lifecycle (obj : VisualObject) (transition : Core.LifecycleTransition)
  | attributes (obj : VisualObject) (result : AnsweredResult)

def ObservationBuilder.build (b : ObservationBuilder) (stamp : Stamp)
    (s : CameraSuppressionState) (c : BuildContext) :
    Job → Raises (Option Observation) × CameraSuppressionState
  | .presence obj basis => b.buildPresence stamp s obj c basis
  | .spatial obj basis => b.buildSpatial stamp s obj c basis
  | .lifecycle obj transition => b.buildLifecycle stamp s obj transition c
  | .attributes obj result => b.buildAttribute stamp s obj result c

/-- The variables of a pass over a camera's signals.  `minted` counts the stamps used. -/
structure Assembly where
  state : CameraSuppressionState := {}
  minted : Nat := 0
  built : List Observation := []

/-- The loops that call the builder through `_safely`: a refusal is a non-event, any other
    exception leaves the pass. -/
def ObservationBuilder.assemble (b : ObservationBuilder) (stamps : Nat → Stamp) :
    List (Raises (BuildContext × Job)) → Assembly → Assembly × Option PyException
  | [], a => (a, none)
  | .error exc :: _, a => (a, some exc)
  | .ok (c, job) :: rest, a =>
    match b.build (stamps a.minted) a.state c job with
    | (.ok published, state) =>
      b.assemble stamps rest
        { state, minted := a.minted + 1, built := a.built ++ published.toList }
    | (.error (.validationFailedError _), state) =>
      b.assemble stamps rest { a with state, minted := a.minted + 1 }
    | (.error exc, state) => ({ a with state, minted := a.minted + 1 }, some exc)

def basisOf (obj : VisualObject) : MeasurementBasis :=
  if obj.lastConfirmed.ns ≥ obj.lastSeen.ns then .measured else .predicted

def objectJobs (obj : VisualObject) : List Job :=
  [.presence obj (basisOf obj), .spatial obj (basisOf obj)]

def changeJob (objects : List VisualObject) :
    ObjectId × LifecycleState × LifecycleState → Option Job
  | (objectId, previous, current) =>
    match objects.find? (·.objectId = objectId) with
    | none => none
    | some obj =>
      if h : previous = current then none
      else some (.lifecycle obj
        { previous, current, accepted := require_eq_ok.mpr h })

def registryJobs (u : RegistryUpdate) : List Job :=
  u.objects.flatMap objectJobs ++ u.lifecycleChanges.filterMap (changeJob u.objects)

/-- The runtime: its builder and its settings. -/
structure SynthesisRuntime where
  builder : ObservationBuilder
  enabled : Bool := true
  started : Bool := true
  taxonomyVersion : String := ""

namespace SynthesisRuntime

def contextFor (rt : SynthesisRuntime) (now : Instant) (u : RegistryUpdate) : Raises BuildContext :=
  construct {
    cameraId := u.cameraId
    tenantId := u.objects.head?.elim "" (·.tenantId)
    siteId := u.objects.head?.elim "" (·.siteId)
    frameRef := u.frameRef
    tCapture := u.objects.head?.elim now (·.lastSeen)
    taxonomyVersion := rt.taxonomyVersion }

def buildFromRegistry (rt : SynthesisRuntime) (stamps : Nat → Stamp) (now : Instant)
    (u : RegistryUpdate) (a : Assembly) : Assembly × Option PyException :=
  match rt.contextFor now u with
  | .error exc => (a, some exc)
  | .ok c => rt.builder.assemble stamps ((registryJobs u).map fun job => .ok (c, job)) a

def captureOf (r : AnsweredResult) : Instant := r.attributes.head?.elim ⟨0⟩ (·.observedAt)

def noConfidence : Confidence where
  value := .finite 0
  semantics := .identity
  rawScore := some (.finite 0)
  accepted := ConfidenceFields.postInit_uncalibrated .identity (by decide +kernel)

def objectFor (r : AnsweredResult) : Option VisualObject :=
  r.objectId.map fun objectId =>
    { objectId
      tenantId := r.tenantId
      siteId := r.siteId
      cameraId := r.cameraId
      classId := r.classId
      confidence := noConfidence
      lifecycle := .active
      classHistory := []
      trackBindings := []
      currentSpatial := {
        frameOfReference := .normalized
        accepted := SpatialFields.postInit_eq_ok.mpr ⟨by simp, by simp⟩ }
      spatialHistory := []
      attributes := ∅
      firstSeen := captureOf r
      lastSeen := captureOf r
      lastConfirmed := captureOf r
      observationCount := 0
      provenance := r.provenance
      accepted := VisualObjectFields.postInit_eq_ok.mpr
        ⟨rfl, by simp, by simp, le_refl 0, le_refl _, le_refl _⟩ }

def contextOf (rt : SynthesisRuntime) (cameraId : CameraId) (r : AnsweredResult) :
    Raises BuildContext :=
  construct {
    cameraId
    tenantId := r.tenantId
    siteId := r.siteId
    frameRef := r.evidence.frameRef
    tCapture := captureOf r
    taxonomyVersion := rt.taxonomyVersion }

def resultJob (rt : SynthesisRuntime) (cameraId : CameraId) (r : AnsweredResult) :
    Option (Raises (BuildContext × Job)) :=
  (objectFor r).map fun obj => do
    let c ← rt.contextOf cameraId r
    return (c, .attributes obj r)

def buildFromUnderstanding (rt : SynthesisRuntime) (stamps : Nat → Stamp) (cameraId : CameraId)
    (results : List AnsweredResult) (a : Assembly) : Assembly × Option PyException :=
  rt.builder.assemble stamps (results.filterMap (rt.resultJob cameraId)) a

end SynthesisRuntime

/-- What a runtime and the state it writes to hold. -/
structure SynthesisState where
  suppression : CameraId → CameraSuppressionState := fun _ => {}
  minted : Nat := 0
  manager : Manager := Manager.new

namespace SynthesisState

/-- `_commit`: hand facts to the state; what it raises is counted and goes no further. -/
def commit (config : StateSection) (at_ : Manager.Circumstances)
    (observations : List Observation) (s : SynthesisState) : SynthesisState :=
  { s with manager := (s.manager.append config at_ observations).2 }

def afterPass (config : StateSection) (at_ : Manager.Circumstances) (cameraId : CameraId)
    (s : SynthesisState) : Assembly × Option PyException → SynthesisState
  | (a, raised) =>
    let s := { s with
      suppression := fun c => if c = cameraId then a.state else s.suppression c
      minted := a.minted }
    match raised with
    | some _ => s
    | none => s.commit config at_ a.built

def assembly (s : SynthesisState) (cameraId : CameraId) : Assembly :=
  { state := s.suppression cameraId, minted := s.minted }

def onRegistered (config : StateSection) (rt : SynthesisRuntime) (stamps : Nat → Stamp)
    (at_ : Manager.Circumstances) (now : Instant) (u : RegistryUpdate) (s : SynthesisState) :
    SynthesisState :=
  if ¬ (rt.started ∧ rt.enabled) ∨ u.failed then s
  else
    s.afterPass config at_ u.cameraId
      (rt.buildFromRegistry stamps now u (s.assembly u.cameraId))

end SynthesisState

end VisionOs.Synthesis
