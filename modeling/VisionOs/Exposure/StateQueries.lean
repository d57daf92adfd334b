/-
  Who may do what, on which scope, and what a principal is shown of the current state.  A query
  authorizes first, charges the principal's budget, and collects views partition by partition up
  to a limit.
-/
import VisionOs.Exposure.Messages
import VisionOs.State.Manager
import VisionOs.Core.Api
import VisionOs.Lib.Paging

namespace VisionOs.Exposure

open Core Lib

structure PrincipalFields where
  subject : String
  tenantId : TenantId
  deriving DecidableEq, Repr

def PrincipalFields.postInit (p : PrincipalFields) : Raises Unit := do
  require (p.subject ≠ "") (.valueError "a principal must have a subject")
  require (p.tenantId ≠ "") (.valueError "a principal must belong to a tenant")

structure Principal extends PrincipalFields where
  accepted : toPrincipalFields.postInit = .ok ()
  deriving DecidableEq

theorem PrincipalFields.postInit_eq_ok {p : PrincipalFields} :
    p.postInit = .ok () ↔ p.subject ≠ "" ∧ p.tenantId ≠ "" := by
  simp only [postInit, check_bind_eq_ok, require_eq_ok]

def Principal.wholeTenant (p : Principal) : Scope where
  tenantId := p.tenantId
  accepted := require_eq_ok.mpr (PrincipalFields.postInit_eq_ok.mp p.accepted).2

inductive Action where
  | readState | readObservations | readEvidence | subscribe | registerDemand | readCapability
  | readCoverage
  deriving DecidableEq, Repr

namespace Action

def value : Action → String
  | readState => "read_state"
  | readObservations => "read_observations"
  | readEvidence => "read_evidence"
  | subscribe => "subscribe"
  | registerDemand => "register_demand"
  | readCapability => "read_capability"
  | readCoverage => "read_coverage"

end Action

/-- Whether an action is permitted, and on what narrowed scope. -/
structure AuthorizationDecision where
  granted : Bool
  scope : Scope
  reason : String := ""

structure AttributePredicate where
  key : AttributeKey
  equals : PyValue := .none
  present : Bool := true

/-- What to include in a state query.  Its staleness bound is read by nothing. -/
structure StateFilter where
  classIds : List ClassId := []
  lifecycle : List LifecycleState := [.active, .occluded]
  minConfidence : Option PyFloat := none
  attributes : List AttributePredicate := []
  objectIds : List ObjectId := []

def StateFilter.matchesClass (f : StateFilter) (classId : ClassId) : Bool :=
  f.classIds.isEmpty || classMatchesAny (some classId) f.classIds

/-- The check of one attribute predicate in `_matches`. -/
def AttributePredicate.holds (py : Interpreter) (predicate : AttributePredicate)
    (held : ObjectState) : Bool :=
  match held.attributes.get? predicate.key with
  | none => !predicate.present
  | some value => predicate.equals.isNone || value.value.eq py predicate.equals

def StateFilter.accepts (py : Interpreter) (f : StateFilter) (held : ObjectState) : Bool :=
  f.matchesClass held.classId &&
    (f.lifecycle.isEmpty || f.lifecycle.contains held.lifecycle) &&
    (f.objectIds.isEmpty || f.objectIds.contains held.objectId) &&
    (match f.minConfidence with
      | none => true
      | some least =>
        held.classConfidence.calibrated && !held.classConfidence.value.lt least) &&
    f.attributes.all fun predicate => predicate.holds py held

/-- What a state result carries: the fields that reach a view modelled here. -/
structure QueryOptions where
  includeAttributes : Option (List AttributeKey) := none
  limit : Nat := 100
  limit_pos : 1 ≤ limit := by decide

def attributeViewOf (key : AttributeKey) (held : AttributeState) : AttributeView where
  key
  value := held.value
  observedAt := held.observedAt
  validUntil := held.validUntil
  evidenceRef := held.evidenceRef.map (·.evidenceId)

def objectViewOf (held : ObjectState) (camera : CameraId) (options : QueryOptions) :
    ObjectView where
  objectId := held.objectId
  classId := held.classId
  cameraId := camera
  attributes :=
    ⟨(held.attributes.entries.filter fun e =>
        options.includeAttributes.all fun wanted => wanted.contains e.1).map
      fun e => (e.1, attributeViewOf e.1 e.2), by
      rw [List.map_map]
      exact List.Nodup.sublist (List.filter_sublist.map Prod.fst) held.attributes.nodupKeys⟩

/-! ## The query -/

def allowReadsWithinTenant (principal : Principal) (action : Action) (scope : Scope) :
    AuthorizationDecision :=
  let deny (reason : String) : AuthorizationDecision :=
    { granted := false, scope := principal.wholeTenant, reason }
  if principal.tenantId ≠ scope.tenantId then deny "cross-tenant access is never permitted"
  else if action ∉ [.readState, .readObservations, .readCoverage, .readCapability, .subscribe] then
    deny (s!"'{action.value}' requires an explicit grant; this adapter covers ordinary reads " ++
      "only (12_SECURITY §5.3)")
  else { granted := true, scope }

/-- `ObservationApi`, as far as a state query reads it: the state, the authorizer, the camera
    manager where one is bound, the capability gaps, the query budget for a minute, and when
    each subject was charged for a query, in nanoseconds. -/
structure ObservationApi where
  state : State.Manager
  authorize : Principal → Action → Scope → AuthorizationDecision
  cameras : Option (TenantId → List CameraId) := none
  gaps : List (String × String) := []
  queriesPerMinute : Nat := 600
  charges : OrderedDict String (List Int) := ∅

structure StateResult where
  objects : List ObjectView
  coverage : CoverageSummary
  gaps : List (String × String)
  incomplete : List (CameraId × Core.Message)

def StateResult.complete (r : StateResult) : Bool :=
  r.coverage.fullyObservable && r.incomplete.isEmpty

def reasonText (reason : Core.Message) : String :=
  String.join (reason.map fun
    | .text s => s
    | .float _ => "")

namespace ObservationApi

variable (api : ObservationApi)

def narrowed (principal : Principal) (action : Action) (scope : Scope) : Raises Scope := do
  require (scope.tenantId = principal.tenantId) (.forbiddenError
    s!"principal in tenant '{principal.tenantId}' requested scope in '{scope.tenantId}'")
  let decision := api.authorize principal action scope
  require (decision.granted = true) (.forbiddenError
    s!"principal '{principal.subject}' may not {action.value}: {decision.reason}")
  return decision.scope

def recentCharges (subject : String) (now : Instant) : List Int :=
  ((api.charges.get? subject).getD []).filter fun t => t > now.ns - 60000000000

def charge (subject : String) (now : Instant) : Raises ObservationApi :=
  let recent := api.recentCharges subject now
  if api.queriesPerMinute ≤ recent.length then
    .error (.overloadedError
      s!"rate limit exhausted for 'query'; {api.queriesPerMinute}/minute")
  else .ok { api with charges := api.charges.set subject (recent ++ [now.ns]) }

def camerasIn (scope : Scope) : List CameraId :=
  if scope.cameraIds ≠ [] then scope.cameraIds
  else
    match api.cameras with
    | some list => list scope.tenantId
    | none => api.state.cameras

def orNone (cameras : List CameraId) : Option (List CameraId) :=
  if cameras.isEmpty then none else some cameras

def coverageSummary (cameras : List CameraId) (snapshot : State.Manager.StateSnapshot) :
    CoverageSummary :=
  let live := (api.state.coverage (orNone cameras)).values
  let observing := (live.filter (·.status = .observing)).length
  { observableFraction :=
      if live.length = 0 then .finite 0 else .ofRatio observing live.length
    unavailable := snapshot.incomplete.map fun e => (e.1, reasonText e.2) }

/-- The loop of `query_state` over the snapshot's partitions. -/
def collectViews (py : Interpreter) (filter : StateFilter) (options : QueryOptions)
    (permitted : List CameraId) (snapshot : State.Manager.StateSnapshot) : List ObjectView :=
  (snapshot.partitions.entries.filter (·.1 ∈ permitted)).foldl
    (fun objects e => Paging.scan options.limit (filter.accepts py)
      (fun held => objectViewOf held e.1 options) objects e.2.objects.values) []

def queryState (py : Interpreter) (principal : Principal) (scope : Scope) (filter : StateFilter)
    (options : QueryOptions) (now : Instant) : Raises (StateResult × ObservationApi) := do
  let narrowed ← api.narrowed principal .readState scope
  let api ← api.charge principal.subject now
  let cameras := api.camerasIn narrowed
  let snapshot := api.state.snapshot (orNone cameras)
  return (
    { objects := collectViews py filter options cameras snapshot
      coverage := api.coverageSummary cameras snapshot
      gaps := api.gaps
      incomplete := snapshot.incomplete }, api)

end ObservationApi

end VisionOs.Exposure
