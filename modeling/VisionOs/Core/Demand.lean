/-
  What a consumer asks the platform to compute, and its standing.  A demand's
  trigger hints and labels are read by no modelled function and are left out.
-/
import VisionOs.Core.Ids

namespace VisionOs.Core

inductive DemandStatus where
  | validated | active | throttled | unsatisfiable | expired | revoked | rejected
  deriving DecidableEq, Repr

namespace DemandStatus

def value : DemandStatus → String
  | validated => "validated"
  | active => "active"
  | throttled => "throttled"
  | unsatisfiable => "unsatisfiable"
  | expired => "expired"
  | revoked => "revoked"
  | rejected => "rejected"

def isServing (s : DemandStatus) : Bool := s = active || s = throttled

def isTerminal (s : DemandStatus) : Bool := s = expired || s = revoked || s = rejected

end DemandStatus

inductive AcknowledgementStatus where
  | accepted | partiallyAccepted | rejected
  deriving DecidableEq, Repr

inductive UnsatisfiableReason where
  | attributeNotRegistered | noCapableModel | classNotProducible | scopeNotObservable
  | budgetInsufficient
  deriving DecidableEq, Repr

/-! ## Terms -/

structure DemandScope where
  siteIds : List SiteId := []
  cameraIds : List CameraId := []
  regionIds : List RegionId := []
  deriving DecidableEq, Repr

def DemandScope.coversCamera (s : DemandScope) (camera : CameraId) : Bool :=
  s.cameraIds.isEmpty || s.cameraIds.contains camera

def DemandScope.coversRegion (s : DemandScope) (regions : List RegionId) : Bool :=
  s.regionIds.isEmpty || regions.any s.regionIds.contains

structure SubjectFilterFields where
  classIds : List ClassId := []
  lifecycle : List String := []
  minConfidence : Option PyFloat := none
  deriving DecidableEq, Repr

def SubjectFilterFields.postInit (f : SubjectFilterFields) : Raises Unit :=
  require (∀ c ∈ f.minConfidence, c.inUnit = true)
    (.valueError "min_confidence must be in [0,1]")

structure SubjectFilter extends SubjectFilterFields where
  accepted : toSubjectFilterFields.postInit = .ok ()
  deriving DecidableEq

def SubjectFilter.matchesClass (f : SubjectFilter) (classId : ClassId) : Bool :=
  f.classIds.isEmpty || f.classIds.any fun allowed =>
    classId = allowed || (allowed ++ ".").toList.isPrefixOf classId.toList

structure DemandBudgetFields where
  maxCallsPerHour : Option Int := none
  maxCostPerHour : Option PyFloat := none
  deriving DecidableEq, Repr

def DemandBudgetFields.postInit (b : DemandBudgetFields) : Raises Unit := do
  require (∀ n ∈ b.maxCallsPerHour, ¬ n < 0)
    (.valueError "max_calls_per_hour must be non-negative")
  require (∀ x ∈ b.maxCostPerHour, x.lt (.finite 0) = false)
    (.valueError "max_cost_per_hour must be non-negative")

structure DemandBudget extends DemandBudgetFields where
  accepted : toDemandBudgetFields.postInit = .ok ()
  deriving DecidableEq

def DemandBudget.unlimited : DemandBudget where
  accepted := rfl

structure DemandFields where
  demandId : DemandId
  subscriber : String
  scope : DemandScope
  subjectFilter : SubjectFilter
  requiredAttributes : List AttributeKey
  freshness : Duration
  priorityClass : String := ""
  budget : DemandBudget := .unlimited
  expiresAt : Option Instant := none
  registeredAt : Instant := ⟨0⟩
  deriving DecidableEq

def DemandFields.postInit (d : DemandFields) : Raises Unit := do
  require (d.requiredAttributes ≠ []) (.valueError
    "a demand must name at least one attribute; a demand for nothing schedules nothing and would sit in the registry forever")
  require (¬ d.freshness.ns ≤ 0) (.valueError "freshness must be positive")

structure Demand extends DemandFields where
  accepted : toDemandFields.postInit = .ok ()
  deriving DecidableEq

/-- `Demand(...)`. -/
def Demand.construct : DemandFields → Raises Demand := constructWith DemandFields.postInit Demand.mk

def Demand.isExpired (d : Demand) (now : Instant) : Bool :=
  d.expiresAt.any fun expiresAt => now.ns ≥ expiresAt.ns

def Demand.stored (d : Demand) (demandId : DemandId) (registeredAt : Instant) : Demand where
  toDemandFields := { d.toDemandFields with demandId, registeredAt }
  accepted := d.accepted

structure DemandAcknowledgement where
  demandId : DemandId
  status : AcknowledgementStatus
  satisfiable : List AttributeKey := []
  unsatisfiable : List (AttributeKey × UnsatisfiableReason) := []
  effectiveFreshness : Duration := ⟨0⟩
  detail : Message := []
  deriving DecidableEq, Repr

structure DemandState where
  demand : Demand
  status : DemandStatus
  acknowledgement : DemandAcknowledgement
  activatedAt : Instant
  lastServed : Option Instant := none
  callsServed : Int := 0
  effectiveFreshness : Duration := ⟨0⟩
  deriving DecidableEq

end VisionOs.Core
