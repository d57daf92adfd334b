/-
  `DemandIntake`: how consumers ask, and the durable record of it.  The tenant of a demand is kept
  under the id the consumer chose.  A call that raises keeps what it did before.
-/
import VisionOs.Cropping.Demands
import VisionOs.Exposure.StateQueries
import VisionOs.Core.FloatArith
import VisionOs.Lib.Effect
import VisionOs.Synthesis.Codec

namespace VisionOs.Exposure

open Core Lib Cropping Effect

/-! ## The durable record -/

structure DemandRecord where
  demandId : String
  subscriber : String
  tenantId : String
  siteIds : List String
  cameraIds : List String
  requiredAttributes : List String
  classIds : List String
  freshnessMs : Int
  registeredAtNs : Int
  expiresAtNs : Option Int := none
  deriving DecidableEq, Repr

namespace DemandRecord

open Synthesis

def toJson (r : DemandRecord) : PyValue :=
  let strings (xs : List String) : PyValue := .list (xs.map .str)
  .dict [
    ("demand_id", .str r.demandId),
    ("subscriber", .str r.subscriber),
    ("tenant_id", .str r.tenantId),
    ("site_ids", strings r.siteIds),
    ("camera_ids", strings r.cameraIds),
    ("required_attributes", strings r.requiredAttributes),
    ("class_ids", strings r.classIds),
    ("freshness_ms", .int r.freshnessMs),
    ("registered_at_ns", .int r.registeredAtNs),
    ("expires_at_ns", match r.expiresAtNs with | none => .none | some ns => .int ns)]

def asStrings : PyValue → Raises (List String)
  | .list items | .tuple items => items.mapM asStr
  | _ => .error (.typeError "object is not iterable")

/-- `from_json`.  The source takes each value as it stands; one of another type than a record
    holds is refused here, which no file that `save` wrote contains. -/
def fromJson (record : PyValue) : Raises DemandRecord := do
  let demandId ← asStr (← item record "demand_id")
  let subscriber ← asStr (← item record "subscriber")
  let tenantId ← asStr (← item record "tenant_id")
  let siteIds ← asStrings (← getOr record "site_ids" (.tuple []))
  let cameraIds ← asStrings (← getOr record "camera_ids" (.tuple []))
  let requiredAttributes ← asStrings (← getOr record "required_attributes" (.tuple []))
  let classIds ← asStrings (← getOr record "class_ids" (.tuple []))
  let freshnessMs ← asInt (← item record "freshness_ms")
  let registeredAtNs ← asInt (← item record "registered_at_ns")
  let expiresAtNs ← match ← getOr record "expires_at_ns" .none with
    | .none => .ok none
    | value => some <$> asInt value
  .ok { demandId, subscriber, tenantId, siteIds, cameraIds, requiredAttributes, classIds,
        freshnessMs, registeredAtNs, expiresAtNs }

end DemandRecord

/-- `DemandStore`: the file's content, where the store has a path and the file exists. -/
structure DemandStore where
  durable : Bool
  content : Option Synthesis.Json := none

/-- What the disk refuses of a save: the folder, or the new file and its renaming. -/
inductive SaveFault where
  | mkdir (message : Core.Message)
  | write (message : Core.Message)

namespace DemandStore

/-- `save(records)`.  The file is written beside the old one and then takes its place, so a
    save that raises leaves the old one.  A record nests three containers, which every
    interpreter goes. -/
def save (fault : Option SaveFault) (records : List DemandRecord) (store : DemandStore) :
    Raises DemandStore :=
  let payload : PyValue := .list (records.map DemandRecord.toJson)
  if store.durable then
    match fault with
    | some (.mkdir message) => .error (.osError message)
    | some (.write message) => do
      require (payload.printable = true) tooManyDigits
      .error (.osError message)
    | none => do
      require (payload.printable = true) tooManyDigits
      return { store with content := some (Synthesis.spelled payload) }
  else .ok store

def recordsOf : PyValue → List DemandRecord
  | .list entries => entries.filterMap fun entry => (DemandRecord.fromJson entry).toOption
  | _ => []

def load (store : DemandStore) : List DemandRecord :=
  if store.durable then
    match store.content with
    | none => []
    | some json => recordsOf (Synthesis.loads json)
  else []

end DemandStore

def intMillis (d : Duration) : Raises Int := do
  match ← d.millis with
  | .finite q => .ok (if 0 ≤ q then q.floor else q.ceil)
  | _ => .error (.overflowError "cannot convert float infinity to integer")

def fromMillis (ms : Int) : Duration := ⟨ms * 1000000⟩

def recordOf (state : DemandState) (tenantId : TenantId) : Raises DemandRecord := do
  let demand := state.demand
  let freshnessMs ← intMillis demand.freshness
  .ok {
    demandId := demand.demandId
    subscriber := demand.subscriber
    tenantId
    siteIds := demand.scope.siteIds
    cameraIds := demand.scope.cameraIds
    requiredAttributes := demand.requiredAttributes
    classIds := demand.subjectFilter.classIds
    freshnessMs
    registeredAtNs := state.activatedAt.ns
    expiresAtNs := demand.expiresAt.map Instant.ns }

def demandOf (record : DemandRecord) : Option Demand :=
  (Demand.construct {
    demandId := record.demandId
    subscriber := record.subscriber
    scope := { siteIds := record.siteIds, cameraIds := record.cameraIds }
    subjectFilter := { classIds := record.classIds, accepted := rfl }
    requiredAttributes := record.requiredAttributes
    freshness := fromMillis record.freshnessMs
    expiresAt := record.expiresAtNs.map Instant.mk }).toOption

/-! ## Intake -/

structure DemandIntake where
  registry : DemandRegistry
  owners : OrderedDict DemandId TenantId := ∅
  store : DemandStore

abbrev Intake (α : Type) := Effect PyException DemandIntake α

def scopeOf (principal : Principal) (demand : Demand) : Scope where
  tenantId := principal.tenantId
  siteIds := demand.scope.siteIds
  cameraIds := demand.scope.cameraIds
  accepted := principal.wholeTenant.accepted

/-- What a register or update call brings beside the demand: the clock, the id the registry's
    factory would make, what the budget can buy, and what the disk refuses of the save. -/
structure Circumstances where
  now : Instant
  minted : DemandId
  sustainable : Option Duration := none
  unsaved : Option SaveFault := none

structure DemandView where
  demandId : DemandId
  subscriber : String
  status : String
  requiredAttributes : List AttributeKey
  effectiveFreshness : Duration
  unsatisfiable : List (AttributeKey × UnsatisfiableReason)

def viewOf (state : DemandState) : DemandView where
  demandId := state.demand.demandId
  subscriber := state.demand.subscriber
  status := state.status.value
  requiredAttributes := state.demand.requiredAttributes
  effectiveFreshness := state.effectiveFreshness
  unsatisfiable := state.acknowledgement.unsatisfiable

namespace DemandIntake

/-- The demand is the principal's, by subject and by tenant. -/
def Owns (intake : DemandIntake) (principal : Principal) (demandId : DemandId) : Prop :=
  ∃ state, intake.registry.get demandId = some state ∧
    state.demand.subscriber = principal.subject ∧
    intake.owners.get? demandId = some principal.tenantId

/-- `_persist()`, and what the disk refuses of it. -/
def persist (fault : Option SaveFault) : Intake Unit := do
  let intake ← read
  if intake.store.durable then
    let records ← ofExcept (intake.registry.all.mapM fun state =>
      recordOf state ((intake.owners.get? state.demand.demandId).getD ""))
    let store ← ofExcept (intake.store.save fault records)
    modify fun intake => { intake with store }
  else pure ()

def requireOwner (principal : Principal) (demandId : DemandId) : Intake Unit := do
  let intake ← read
  let refusal : PyException := .forbiddenError s!"no demand '{demandId}' for this principal"
  match intake.registry.get demandId with
  | none => raise refusal
  | some state =>
    if state.demand.subscriber ≠ principal.subject ∨
        intake.owners.get? demandId ≠ some principal.tenantId then
      raise refusal
    else pure ()

section Authorized

-- `AuthorizationPort.authorize`.
variable (authorize : Principal → Action → Scope → AuthorizationDecision)

def mayRegister (principal : Principal) (demand : Demand) : Raises Unit := do
  require (demand.subscriber = principal.subject) (.forbiddenError
    s!"principal '{principal.subject}' may not register a demand for subscriber '{demand.subscriber}'")
  let decision := authorize principal .registerDemand (scopeOf principal demand)
  require (decision.granted = true) (.forbiddenError
    s!"principal '{principal.subject}' may not register demands: {decision.reason}")

def register (principal : Principal) (demand : Demand) (c : Circumstances) :
    Intake DemandAcknowledgement := do
  ofExcept (mayRegister authorize principal demand)
  let intake ← read
  let (registry, acknowledgement) ← ofExcept
    (intake.registry.register demand c.now c.minted c.sustainable)
  modify fun intake => { intake with
    registry
    owners := intake.owners.set demand.demandId principal.tenantId }
  persist c.unsaved
  pure acknowledgement

def revokeInRegistry (demandId : DemandId) : Intake Unit := do
  let intake ← read
  let registry ← ofExcept (intake.registry.revoke demandId)
  modify fun intake => { intake with registry }

/-- `update`: revoke, then register. -/
def update (principal : Principal) (demandId : DemandId) (demand : Demand) (c : Circumstances) :
    Intake DemandAcknowledgement := do
  requireOwner principal demandId
  revokeInRegistry demandId
  register authorize principal demand c

def revoke (principal : Principal) (demandId : DemandId) (fault : Option SaveFault) :
    Intake Unit := do
  requireOwner principal demandId
  revokeInRegistry demandId
  modify fun intake => { intake with owners := intake.owners.erase demandId }
  persist fault

def listFor (intake : DemandIntake) (principal : Principal) : List DemandView :=
  (intake.registry.all.filter fun state =>
    decide (intake.owners.get? state.demand.demandId = some principal.tenantId) &&
      decide (state.demand.subscriber = principal.subject)).map viewOf

def restoreOne (c : Circumstances) (record : DemandRecord) : Intake Unit :=
  match demandOf record with
  | none => pure ()
  | some demand =>
    tryCatch
      (do
        let intake ← read
        let (registry, _) ← ofExcept
          (intake.registry.register demand c.now c.minted none)
        modify fun intake => { intake with
          registry, owners := intake.owners.set demand.demandId record.tenantId })
      fun
        | .demandRejectedError _ => pure ()
        | exc => raise exc

def restore (c : Circumstances) : Intake Unit := do
  let intake ← read
  forEach (restoreOne c) intake.store.load

end Authorized

end DemandIntake

end VisionOs.Exposure
