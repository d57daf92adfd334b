/-
  `DemandRegistry`: what consumers asked for and its standing.  A call of the
  registry either raises and changes nothing or leaves the registry it returns.
-/
import VisionOs.Core.Demand
import VisionOs.Lib.OrderedDict
import Mathlib.Data.List.Sort

namespace VisionOs.Cropping

open Core Lib Except

/-! ## The lifecycle -/

def allowedTransitions : List (DemandStatus × DemandStatus) :=
  [(.validated, .active), (.validated, .rejected),
    (.active, .active), (.active, .throttled), (.active, .unsatisfiable), (.active, .expired),
    (.active, .revoked),
    (.throttled, .active), (.throttled, .throttled), (.throttled, .expired),
    (.throttled, .revoked), (.throttled, .unsatisfiable),
    (.unsatisfiable, .active), (.unsatisfiable, .unsatisfiable), (.unsatisfiable, .expired),
    (.unsatisfiable, .revoked)]

def checkTransition (previous current : DemandStatus) : Raises Unit :=
  require ((previous, current) ∈ allowedTransitions) (.demandRejectedError
    (s!"illegal demand transition {previous.value} -> {current.value}; the lifecycle is a " ++
      "closed machine (09_API_CONTRACTS section 4.4)"))

structure CapabilityView where
  registeredAttributes : List AttributeKey := []
  producibleAttributes : List AttributeKey := []

def CapabilityView.classifies (c : CapabilityView) (key : AttributeKey) :
    Option UnsatisfiableReason :=
  if key ∉ c.registeredAttributes then some .attributeNotRegistered
  else if key ∉ c.producibleAttributes then some .noCapableModel
  else none

structure DemandRegistry where
  demands : OrderedDict DemandId DemandState := ∅
  capabilities : CapabilityView := {}
  minFreshness : Duration := ⟨1000000000⟩

namespace DemandRegistry

def get (r : DemandRegistry) (demandId : DemandId) : Option DemandState := r.demands.get? demandId

def put (r : DemandRegistry) (demandId : DemandId) (state : DemandState) : DemandRegistry :=
  { r with demands := r.demands.set demandId state }

def sortedIds (r : DemandRegistry) : List DemandId := r.demands.keys.insertionSort (· ≤ ·)

/-- `all`: every state, in id order. -/
def all (r : DemandRegistry) : List DemandState := r.sortedIds.filterMap r.get

def effectiveFreshness (r : DemandRegistry) (requested : Duration)
    (sustainable : Option Duration) : Duration :=
  let floor := max r.minFreshness.ns requested.ns
  match sustainable with
  | none => ⟨floor⟩
  | some sustainable => ⟨max floor sustainable.ns⟩

def satisfiable (r : DemandRegistry) (demand : Demand) : List AttributeKey :=
  demand.requiredAttributes.filter fun a => (r.capabilities.classifies a).isNone

def unsatisfiable (r : DemandRegistry) (demand : Demand) :
    List (AttributeKey × UnsatisfiableReason) :=
  demand.requiredAttributes.filterMap fun a => (r.capabilities.classifies a).map (a, ·)

def unregistered (r : DemandRegistry) (demand : Demand) : List AttributeKey :=
  ((r.unsatisfiable demand).filter (·.2 = .attributeNotRegistered)).map Prod.fst

def freshnessDetail (requested effective : Duration) : Raises Message :=
  if effective.ns ≤ requested.ns then .ok []
  else do
    let asked ← requested.millis
    let sustained ← effective.millis
    .ok [.text "requested ", .float asked, .text "ms freshness; the budget sustains ",
      .float sustained, .text "ms"]

def acknowledge (r : DemandRegistry) (demand : Demand) (demandId : DemandId)
    (sustainable : Option Duration) : Raises DemandAcknowledgement := do
  let unregistered := r.unregistered demand
  let names := String.intercalate ", " unregistered
  require (¬ (unregistered ≠ [] ∧ unregistered.length = demand.requiredAttributes.length))
    (.demandRejectedError (s!"demand names only unregistered attributes ({names}). Attributes " ++
      "must pass the neutrality gate before they can be demanded (02_VOM section 9.1); " ++
      "register them first."))
  let effective := r.effectiveFreshness demand.freshness sustainable
  let detail ← freshnessDetail demand.freshness effective
  .ok {
    demandId
    status := if (r.unsatisfiable demand).isEmpty then .accepted else .partiallyAccepted
    satisfiable := r.satisfiable demand
    unsatisfiable := r.unsatisfiable demand
    effectiveFreshness := effective
    detail }

def requireDemand (r : DemandRegistry) (demandId : DemandId) : Raises DemandState :=
  match r.get demandId with
  | none => .error (.demandNotFoundError s!"demand '{demandId}' is not registered")
  | some state => .ok state

def markUnsatisfiable (r : DemandRegistry) (demandId : DemandId) (detail : Message) :
    Raises DemandRegistry := do
  let state ← r.requireDemand demandId
  checkTransition state.status .unsatisfiable
  .ok (r.put demandId { state with
    status := .unsatisfiable, acknowledgement := { state.acknowledgement with detail } })

/-- `register`.  `minted` is what the id factory makes for a demand that brings no id. -/
def register (r : DemandRegistry) (demand : Demand) (now : Instant) (minted : DemandId)
    (sustainable : Option Duration) : Raises (DemandRegistry × DemandAcknowledgement) := do
  let demandId := if demand.demandId = "" then minted else demand.demandId
  let acknowledgement ← r.acknowledge demand demandId sustainable
  checkTransition .validated .active
  let registered := r.put demandId {
    demand := demand.stored demandId now
    status := .active
    acknowledgement
    activatedAt := now
    effectiveFreshness := acknowledgement.effectiveFreshness }
  if acknowledgement.satisfiable.isEmpty then
    let marked ← registered.markUnsatisfiable demandId
      "no loaded model can currently produce any requested attribute"
    .ok (marked, acknowledgement)
  else .ok (registered, acknowledgement)

def revoke (r : DemandRegistry) (demandId : DemandId) : Raises DemandRegistry := do
  let state ← r.requireDemand demandId
  if state.status.isTerminal then .ok r
  else
    checkTransition state.status .revoked
    .ok (r.put demandId { state with status := .revoked })

def throttle (r : DemandRegistry) (demandId : DemandId) (effective : Duration) :
    Raises DemandRegistry := do
  let state ← r.requireDemand demandId
  checkTransition state.status .throttled
  .ok (r.put demandId { state with status := .throttled, effectiveFreshness := effective })

def restore (r : DemandRegistry) (demandId : DemandId) : Raises DemandRegistry := do
  let state ← r.requireDemand demandId
  checkTransition state.status .active
  .ok (r.put demandId { state with
    status := .active, effectiveFreshness := state.acknowledgement.effectiveFreshness })

def recordServed (r : DemandRegistry) (demandId : DemandId) (now : Instant) : DemandRegistry :=
  match r.get demandId with
  | none => r
  | some state => r.put demandId { state with
      lastServed := some now, callsServed := state.callsServed + 1 }

def expireOne (now : Instant) (r : DemandRegistry) (demandId : DemandId) : Raises DemandRegistry :=
  match r.get demandId with
  | none => .ok r
  | some state =>
    if state.status.isTerminal || !state.demand.isExpired now then .ok r
    else do
      checkTransition state.status .expired
      .ok (r.put demandId { state with status := .expired })

def expireDue (r : DemandRegistry) (now : Instant) : Raises DemandRegistry :=
  r.sortedIds.foldlM (expireOne now) r

/-! ## What a call leaves -/

variable {r r' : DemandRegistry} {demandId : DemandId}

theorem get_put (r : DemandRegistry) (demandId id : DemandId) (state : DemandState) :
    (r.put demandId state).get id = if demandId = id then some state else r.get id :=
  OrderedDict.get?_set r.demands demandId id state

theorem put_put (r : DemandRegistry) (demandId : DemandId) (state state' : DemandState) :
    (r.put demandId state).put demandId state' = r.put demandId state' :=
  congrArg (fun demands => { r with demands })
    (OrderedDict.set_set r.demands demandId state state')

def idFor (demand : Demand) (minted : DemandId) : DemandId :=
  if demand.demandId = "" then minted else demand.demandId

variable {demand : Demand} {sustainable : Option Duration} {ack : DemandAcknowledgement}

variable {minted : DemandId}

theorem register_eq_ok {now : Instant}
    (h : r.register demand now minted sustainable = .ok (r', ack)) :
    r.acknowledge demand (idFor demand minted) sustainable = .ok ack ∧
      ∃ state, r' = r.put (idFor demand minted) state ∧
        state.demand = demand.stored (idFor demand minted) now ∧
        state.activatedAt = now ∧
        state.status = (if ack.satisfiable.isEmpty then .unsatisfiable else .active) ∧
        state.acknowledgement.effectiveFreshness = ack.effectiveFreshness ∧
        state.effectiveFreshness = ack.effectiveFreshness := by
  obtain ⟨ack', hack, h⟩ := bind_eq_ok.mp h
  obtain ⟨-, h⟩ := check_bind_eq_ok.mp h
  simp only at h
  split at h
  · rename_i hempty
    obtain ⟨marked, hmarked, h⟩ := bind_eq_ok.mp h
    obtain ⟨rfl, rfl⟩ := Prod.mk.inj (ok.inj h)
    unfold markUnsatisfiable requireDemand at hmarked
    rw [get_put, if_pos rfl] at hmarked
    obtain ⟨state, hstate, hmarked⟩ := bind_eq_ok.mp hmarked
    obtain rfl := ok.inj hstate
    obtain ⟨-, hmarked⟩ := check_bind_eq_ok.mp hmarked
    rw [put_put] at hmarked
    exact ⟨hack, _, (ok.inj hmarked).symm, rfl, rfl, (if_pos hempty).symm, rfl, rfl⟩
  · rename_i hsome
    obtain ⟨rfl, rfl⟩ := Prod.mk.inj (ok.inj h)
    exact ⟨hack, _, rfl, rfl, rfl, (if_neg hsome).symm, rfl, rfl⟩

theorem register_of_acknowledge
    (h : r.acknowledge demand (idFor demand minted) sustainable = .ok ack) (now : Instant) :
    ∃ r', r.register demand now minted sustainable = .ok (r', ack) := by
  unfold idFor at h
  unfold register
  simp only [h, ok_bind]
  rw [show checkTransition .validated .active = .ok () from rfl, ok_bind]
  split
  · unfold markUnsatisfiable requireDemand
    rw [get_put, if_pos rfl]
    exact ⟨_, rfl⟩
  · exact ⟨_, rfl⟩

theorem acknowledge_eq_ok (h : r.acknowledge demand demandId sustainable = .ok ack) :
    ack.demandId = demandId ∧ ack.satisfiable = r.satisfiable demand ∧
      ack.effectiveFreshness = r.effectiveFreshness demand.freshness sustainable := by
  obtain ⟨-, h⟩ := check_bind_eq_ok.mp h
  obtain ⟨detail, -, h⟩ := bind_eq_ok.mp h
  rw [← ok.inj h]
  exact ⟨rfl, rfl, rfl⟩

theorem acknowledge_congr (hcapabilities : r'.capabilities = r.capabilities)
    (hfloor : r'.minFreshness = r.minFreshness) (demand : Demand) (demandId : DemandId)
    (sustainable : Option Duration) :
    r'.acknowledge demand demandId sustainable = r.acknowledge demand demandId sustainable := by
  unfold acknowledge unregistered unsatisfiable satisfiable effectiveFreshness
  rw [hcapabilities, hfloor]

structure Revoked (r r' : DemandRegistry) (demandId : DemandId) : Prop where
  found : ∃ state state', r.get demandId = some state ∧ r'.get demandId = some state' ∧
    state'.demand = state.demand ∧ state'.activatedAt = state.activatedAt ∧
    state'.status.isTerminal = true
  rest : ∀ id, id ≠ demandId → r'.get id = r.get id
  capabilities : r'.capabilities = r.capabilities
  minFreshness : r'.minFreshness = r.minFreshness

theorem revoke_of_terminal {state : DemandState} (h : r.get demandId = some state)
    (hterminal : state.status.isTerminal = true) : r.revoke demandId = .ok r := by
  unfold revoke requireDemand
  rw [h, ok_bind, if_pos hterminal]

theorem revoke_eq_ok (h : r.revoke demandId = .ok r') : Revoked r r' demandId := by
  unfold revoke requireDemand at h
  cases hstate : r.get demandId with
  | none =>
    rw [hstate] at h
    cases h
  | some state =>
    rw [hstate, ok_bind] at h
    split at h
    · rename_i hterminal
      obtain rfl := ok.inj h
      exact ⟨⟨state, state, hstate, hstate, rfl, rfl, hterminal⟩, fun _ _ => rfl, rfl, rfl⟩
    · obtain ⟨-, h⟩ := check_bind_eq_ok.mp h
      have hget := r.get_put demandId demandId { state with status := .revoked }
      rw [if_pos rfl] at hget
      rw [← ok.inj h]
      refine ⟨⟨state, _, hstate, hget, rfl, rfl, rfl⟩, fun id hid => ?_, rfl, rfl⟩
      rw [get_put, if_neg (Ne.symm hid)]

end DemandRegistry

end VisionOs.Cropping
