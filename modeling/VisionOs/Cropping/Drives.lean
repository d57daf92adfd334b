/-
  Which objects a demand drives work for, and at what rate.  `matching` does not ask about the
  sites, the lifecycles and the least confidence that a demand names.
-/
import VisionOs.Cropping.Triggers

namespace VisionOs.Cropping

open Core Lib OrderedDict List Except Runs

structure Subject where
  cameraId : CameraId
  siteId : SiteId
  classId : ClassId
  regionIds : List RegionId
  lifecycle : String
  confidence : PyFloat

def Subject.asked (o : Subject) (d : Demand) : Bool :=
  d.scope.coversCamera o.cameraId && d.scope.coversRegion o.regionIds &&
    d.subjectFilter.matchesClass o.classId

/-- They cover it in what `matching` does not ask. -/
def Subject.unasked (o : Subject) (d : Demand) : Bool :=
  (d.scope.siteIds.isEmpty || d.scope.siteIds.contains o.siteId) &&
    (d.subjectFilter.lifecycle.isEmpty || d.subjectFilter.lifecycle.contains o.lifecycle) &&
    d.subjectFilter.minConfidence.all fun least => least.le o.confidence

namespace DemandRegistry

/-! ## What is wanted -/

/-- What is wanted of an attribute: the least freshness, and the ids of all who ask. -/
def Sums (demands : Set DemandState) : Option Want → Prop
  | none => demands = ∅
  | some want =>
    IsLeast ((fun s => s.effectiveFreshness.ns) '' demands) want.freshness.ns ∧
      ∀ id, id ∈ want.demandIds ↔ ∃ s ∈ demands, s.demand.demandId = id

def asking (r : DemandRegistry) (o : Subject) (key : AttributeKey) : Set DemandState :=
  { s | ∃ id, r.get id = some s ∧ s.status.isServing = true ∧ o.asked s.demand = true ∧
    key ∈ s.acknowledgement.satisfiable }

/-- The serving demands whose whole scope and filter cover the object and that can deliver
    `key`. -/
def driving (r : DemandRegistry) (o : Subject) (key : AttributeKey) : Set DemandState :=
  { s ∈ r.asking o key | o.unasked s.demand = true }

/-- `required_attributes` sums up the demands that cover the object, attribute by attribute. -/
def Exact (r : DemandRegistry) (o : Subject) : Prop :=
  ∀ key, Sums (r.driving o key) ((r.requiredAttributes o.cameraId o.classId o.regionIds).get? key)

/-- Every serving demand that `matching` finds for the object, and that can deliver something,
    covers the object in its other parts too. -/
def Covered (r : DemandRegistry) (o : Subject) : Prop :=
  ∀ id s, r.get id = some s → s.status.isServing = true → o.asked s.demand = true →
    s.acknowledgement.satisfiable ≠ [] → o.unasked s.demand = true

variable {demands : Set DemandState}

variable {want : Option Want}

theorem Sums.congr {demands' : Set DemandState}
    (hsame : ∀ s, s ∈ demands ↔ s ∈ demands') (h : Sums demands' want) : Sums demands want := by
  rwa [Set.ext hsame]

variable {wanted : OrderedDict AttributeKey Want} {key : AttributeKey}

theorem sums_addWant (h : Sums demands (wanted.get? key)) (state : DemandState)
    (asked : AttributeKey) :
    Sums { s | s ∈ demands ∨ s = state ∧ key = asked }
      ((addWant state wanted asked).get? key) := by
  unfold addWant
  by_cases hkey : key = asked
  · subst hkey
    refine Sums.congr (fun s => (?_ : _ ↔ s ∈ insert state demands)) ?_
    · exact (or_congr_right (and_iff_left rfl)).trans or_comm
    cases hwant : wanted.get? key with
    | none =>
      rw [hwant] at h
      obtain rfl : demands = ∅ := h
      simp [Sums, eq_comm]
    | some want =>
      rw [hwant] at h
      obtain ⟨hleast, hids⟩ := h
      simp only [get?_set, if_pos]
      refine ⟨?_, fun id => ?_⟩
      · rw [Set.image_insert_eq, min_comm]
        exact hleast.insert _
      · rw [mem_append, hids, mem_singleton, Set.exists_mem_insert, or_comm, eq_comm]
  · refine Sums.congr (fun s => or_iff_left fun hs => hkey hs.2) ?_
    cases wanted.get? asked <;> simpa only [get?_set, if_neg (Ne.symm hkey)] using h

theorem sums_satisfiable (state : DemandState) (keys : List AttributeKey)
    (h : Sums demands (wanted.get? key)) :
    Sums { s | s ∈ demands ∨ s = state ∧ key ∈ keys }
      ((keys.foldl (addWant state) wanted).get? key) := by
  induction keys generalizing demands wanted with
  | nil => exact h.congr fun s => or_iff_left fun hs => not_mem_nil hs.2
  | cons asked rest ih =>
    refine (ih (sums_addWant h state asked)).congr fun s => ?_
    show s ∈ demands ∨ s = state ∧ key ∈ asked :: rest ↔
      (s ∈ demands ∨ s = state ∧ key = asked) ∨ s = state ∧ key ∈ rest
    rw [mem_cons, and_or_left, or_assoc]

theorem sums_states (states : List DemandState)
    (h : Sums demands (wanted.get? key)) :
    Sums { s | s ∈ demands ∨ s ∈ states ∧ key ∈ s.acknowledgement.satisfiable }
      ((states.foldl (fun wanted state =>
        state.acknowledgement.satisfiable.foldl (addWant state) wanted) wanted).get? key) := by
  induction states generalizing demands wanted with
  | nil => exact h.congr fun s => or_iff_left fun hs => not_mem_nil hs.1
  | cons state rest ih =>
    refine (ih (sums_satisfiable state state.acknowledgement.satisfiable h)).congr fun s => ?_
    show s ∈ demands ∨ s ∈ state :: rest ∧ key ∈ s.acknowledgement.satisfiable ↔
      (s ∈ demands ∨ s = state ∧ key ∈ state.acknowledgement.satisfiable) ∨
        s ∈ rest ∧ key ∈ s.acknowledgement.satisfiable
    rw [mem_cons, or_and_right, or_assoc]
    refine or_congr_right (or_congr_left (and_congr_right fun hs => ?_))
    rw [hs]

variable {s : DemandState}

variable {r : DemandRegistry}

theorem mem_matching {o : Subject} : s ∈ r.matching o.cameraId o.classId o.regionIds ↔
      ∃ id, r.get id = some s ∧ s.status.isServing = true ∧ o.asked s.demand = true := by
  unfold matching active all sortedIds Subject.asked
  simp only [mem_filter, mem_filterMap, mem_insertionSort, mem_keys_iff]
  constructor
  · rintro ⟨⟨⟨id, -, hget⟩, hserving⟩, hasked⟩
    exact ⟨id, hget, hserving, hasked⟩
  · rintro ⟨id, hget, hserving, hasked⟩
    exact ⟨⟨⟨id, ⟨s, hget⟩, hget⟩, hserving⟩, hasked⟩

theorem sums_required (r : DemandRegistry) (o : Subject) (key : AttributeKey) :
    Sums (r.asking o key)
      ((r.requiredAttributes o.cameraId o.classId o.regionIds).get? key) := by
  have hnone : Sums ∅ ((∅ : OrderedDict AttributeKey Want).get? key) := rfl
  refine (sums_states (r.matching o.cameraId o.classId o.regionIds) hnone).congr fun s => ?_
  constructor
  · rintro ⟨id, hget, hserving, hasked, hkey⟩
    exact .inr ⟨mem_matching.mpr ⟨id, hget, hserving, hasked⟩, hkey⟩
  · rintro (hs | ⟨hs, hkey⟩)
    · exact hs.elim
    · obtain ⟨id, hget, hserving, hasked⟩ := mem_matching.mp hs
      exact ⟨id, hget, hserving, hasked, hkey⟩

theorem mem_ids_of_sums (h : Sums demands want)
    (hs : s ∈ demands) : ∃ w ∈ want, s.demand.demandId ∈ w.demandIds := by
  cases want with
  | none =>
    rw [show demands = ∅ from h] at hs
    exact hs.elim
  | some want => exact ⟨want, rfl, (h.2 _).mpr ⟨s, hs, rfl⟩⟩

def floorOf (r : DemandRegistry) (d : Demand) : Int := max r.minFreshness.ns d.freshness.ns

structure Stands (r : DemandRegistry) (id : DemandId) (s : DemandState) : Prop where
  named : s.demand.demandId = id
  promised : r.floorOf s.demand ≤ s.acknowledgement.effectiveFreshness.ns
  served : s.status.isServing = true → r.floorOf s.demand ≤ s.effectiveFreshness.ns

def AllStand (r : DemandRegistry) : Prop := ∀ id s, r.get id = some s → r.Stands id s

/-- No serving demand's effective freshness is below its floor. -/
def AboveFloor (r : DemandRegistry) : Prop :=
  ∀ id s, r.get id = some s → s.status.isServing = true →
    r.floorOf s.demand ≤ s.effectiveFreshness.ns

theorem exact_iff_covered (h : r.AllStand) (o : Subject) : r.Exact o ↔ r.Covered o := by
  constructor
  · intro hexact id s hget hserving hasked hsome
    obtain ⟨key, hkey⟩ := exists_mem_of_ne_nil _ hsome
    obtain ⟨want, hwant, hid⟩ :=
      mem_ids_of_sums (r.sums_required o key) ⟨id, hget, hserving, hasked, hkey⟩
    have hsums := hexact key
    rw [hwant] at hsums
    obtain ⟨s', ⟨⟨id', hget', -⟩, hunasked⟩, hsame⟩ := (hsums.2 _).mp hid
    -- the ids name the demands, so it is the same one
    rw [(h id' s' hget').named, (h id s hget).named] at hsame
    rw [hsame, hget] at hget'
    rwa [Option.some.inj hget']
  · intro hcovered key
    refine (r.sums_required o key).congr fun s => and_iff_left_of_imp ?_
    rintro ⟨id, hget, hserving, hasked, hkey⟩
    exact hcovered id s hget hserving hasked (ne_nil_of_mem hkey)

theorem allStand_empty (capabilities : CapabilityView) (minFreshness : Duration) :
    AllStand { capabilities, minFreshness } := by
  intro id s hget
  rw [show get { capabilities, minFreshness } id = none from rfl] at hget
  cases hget

variable {id : DemandId}

theorem AllStand.put (h : r.AllStand) (hs : r.Stands id s) : (r.put id s).AllStand := by
  intro id' s' hget
  rw [get_put] at hget
  split at hget
  · rename_i hid
    rw [← hid, ← Option.some.inj hget]
    exact ⟨hs.named, hs.promised, hs.served⟩
  · exact ⟨(h id' s' hget).named, (h id' s' hget).promised, (h id' s' hget).served⟩

theorem requireDemand_eq_ok : r.requireDemand id = .ok s ↔ r.get id = some s := by
  unfold requireDemand
  cases r.get id <;> simp

theorem rewrite_eq_ok {r' : DemandRegistry} {status : DemandStatus}
    {rewritten : DemandState → DemandState} (h : (do
      let state ← r.requireDemand id
      checkTransition state.status status
      ok (r.put id (rewritten state))) = ok r') :
    ∃ s, r.get id = some s ∧ (s.status, status) ∈ allowedTransitions ∧
      r' = r.put id (rewritten s) := by
  obtain ⟨s, hs, h⟩ := bind_eq_ok.mp h
  obtain ⟨hallowed, h⟩ := check_bind_eq_ok.mp h
  exact ⟨s, requireDemand_eq_ok.mp hs, require_eq_ok.mp hallowed, (ok.inj h).symm⟩

/-! ## Runs -/

end DemandRegistry

inductive DemandCall where
  | register (demand : Demand) (now : Instant) (minted : DemandId) (sustainable : Option Duration)
  | revoke (demandId : DemandId)
  | throttle (demandId : DemandId) (effective : Duration)
  | restore (demandId : DemandId)
  | markUnsatisfiable (demandId : DemandId) (detail : Message)
  | expireDue (now : Instant)
  | recordServed (demandId : DemandId) (now : Instant)

namespace DemandRegistry

/-- What a call makes of the registry, unless it raises. -/
def apply (r : DemandRegistry) : DemandCall → Raises DemandRegistry
  | .register demand now minted sustainable =>
    Prod.fst <$> r.register demand now minted sustainable
  | .revoke id => r.revoke id
  | .throttle id effective => r.throttle id effective
  | .restore id => r.restore id
  | .markUnsatisfiable id detail => r.markUnsatisfiable id detail
  | .expireDue now => r.expireDue now
  | .recordServed id now => .ok (r.recordServed id now)

/-- The registry after a call: a call that raises leaves it as it was. -/
def step (r : DemandRegistry) (call : DemandCall) : DemandRegistry :=
  match r.apply call with
  | .ok r' => r'
  | .error _ => r

/-- The call is no throttling that the lifecycle admits to a freshness below the floor. -/
def KeepsFloor (r : DemandRegistry) : DemandCall → Prop
  | .throttle id effective => ∀ s, r.get id = some s →
      (s.status, DemandStatus.throttled) ∈ allowedTransitions →
      r.floorOf s.demand ≤ effective.ns
  | _ => True

variable {r r' : DemandRegistry}

variable {now : Instant}

theorem allStand_register (h : r.AllStand) {demand : Demand} {minted : DemandId}
    {sustainable : Option Duration} {ack : DemandAcknowledgement}
    (hregister : r.register demand now minted sustainable = .ok (r', ack)) : r'.AllStand := by
  obtain ⟨hack, s, rfl, hdemand, -, hstatus, hpromised, hserved⟩ := register_eq_ok hregister
  have hfloor : r.floorOf s.demand ≤ ack.effectiveFreshness.ns := by
    rw [hdemand, (acknowledge_eq_ok hack).2.2]
    cases sustainable with
    | none => exact le_rfl
    | some sustainable => exact le_max_left _ _
  refine h.put ⟨?_, ?_, fun _ => ?_⟩
  · rw [hdemand]
    rfl
  · rw [hpromised]
    exact hfloor
  · rw [hserved]
    exact hfloor

theorem allStand_expireOne (h : r.AllStand) {id : DemandId}
    (hexpire : expireOne now r id = .ok r') : r'.AllStand := by
  unfold expireOne at hexpire
  cases hget : r.get id with
  | none =>
    rw [hget] at hexpire
    rwa [← ok.inj hexpire]
  | some s =>
    simp only [hget] at hexpire
    split at hexpire
    · rwa [← ok.inj hexpire]
    · obtain ⟨-, hexpire⟩ := check_bind_eq_ok.mp hexpire
      rw [← ok.inj hexpire]
      exact h.put ⟨(h id s hget).named, (h id s hget).promised, nofun⟩

theorem allStand_expireDue (h : r.AllStand) (ids : List DemandId)
    (hexpire : ids.foldlM (expireOne now) r = .ok r') : r'.AllStand := by
  induction ids generalizing r with
  | nil =>
    rwa [← ok.inj hexpire]
  | cons id rest ih =>
    rw [foldlM_cons] at hexpire
    obtain ⟨between, hone, hrest⟩ := bind_eq_ok.mp hexpire
    exact ih (allStand_expireOne h hone) hrest

variable {call : DemandCall}

theorem allStand_step (h : r.AllStand) (hkeeps : r.KeepsFloor call) :
    (r.step call).AllStand := by
  unfold step
  cases happly : r.apply call with
  | error => exact h
  | ok r' =>
    cases call with
    | register demand now minted sustainable =>
      change Prod.fst <$> r.register demand now minted sustainable = .ok r' at happly
      cases hregister : r.register demand now minted sustainable with
      | error =>
        rw [hregister] at happly
        cases happly
      | ok registered =>
        rw [hregister] at happly
        rw [← ok.inj happly]
        exact allStand_register h hregister
    | revoke id =>
      change r.revoke id = .ok r' at happly
      obtain ⟨s, hs, happly⟩ := bind_eq_ok.mp happly
      have hstands := h id s (requireDemand_eq_ok.mp hs)
      split at happly
      · rwa [← ok.inj happly]
      · obtain ⟨-, happly⟩ := check_bind_eq_ok.mp happly
        rw [← ok.inj happly]
        exact h.put ⟨hstands.named, hstands.promised, nofun⟩
    | throttle id effective =>
      obtain ⟨s, hs, hallowed, rfl⟩ := rewrite_eq_ok happly
      exact h.put ⟨(h id s hs).named, (h id s hs).promised, fun _ => hkeeps s hs hallowed⟩
    | restore id =>
      obtain ⟨s, hs, -, rfl⟩ := rewrite_eq_ok happly
      exact h.put ⟨(h id s hs).named, (h id s hs).promised, fun _ => (h id s hs).promised⟩
    | markUnsatisfiable id detail =>
      obtain ⟨s, hs, -, rfl⟩ := rewrite_eq_ok happly
      exact h.put ⟨(h id s hs).named, (h id s hs).promised, nofun⟩
    | expireDue now => exact allStand_expireDue h _ happly
    | recordServed id now =>
      rw [← ok.inj happly]
      unfold recordServed
      cases hget : r.get id with
      | none => exact h
      | some s =>
        exact h.put ⟨(h id s hget).named, (h id s hget).promised, (h id s hget).served⟩

theorem not_aboveFloor_step (hbreaks : ¬ r.KeepsFloor call) :
    ¬ (r.step call).AboveFloor := by
  cases call with
  | throttle id effective =>
    simp only [KeepsFloor, not_forall, not_le] at hbreaks
    obtain ⟨s, hs, hallowed, hbelow⟩ := hbreaks
    intro habove
    have hthrottled : r.apply (.throttle id effective) = .ok (r.put id
        { s with status := .throttled, effectiveFreshness := effective }) := by
      show r.throttle id effective = _
      unfold throttle
      rw [requireDemand_eq_ok.mpr hs, ok_bind]
      unfold checkTransition
      rw [require_eq_ok.mpr hallowed, ok_bind]
    unfold step at habove
    rw [hthrottled] at habove
    have hget := r.get_put id id { s with status := .throttled, effectiveFreshness := effective }
    rw [if_pos rfl] at hget
    exact (habove id _ hget rfl).not_gt hbelow
  | register | revoke | restore | markUnsatisfiable | expireDue | recordServed =>
    exact (hbreaks trivial).elim

/-- In every run from an empty registry and for every object: what is required for the object
    sums up the serving demands that cover it, and no serving demand's freshness is below its
    floor, in every state reached, exactly when no throttling of the run goes below the floor
    and no state reached holds a demand that `matching` finds for the object although its
    sites, its lifecycles or its least confidence leave the object out. -/
theorem drives_where_it_applies_iff (capabilities : CapabilityView) (minFreshness : Duration)
    (calls : List DemandCall) (o : Subject) :
    (∀ before, before <+: calls →
      (run step { capabilities, minFreshness } before).Exact o ∧
      (run step { capabilities, minFreshness } before).AboveFloor) ↔
    Runs.Always step KeepsFloor { capabilities, minFreshness } calls ∧
      ∀ before, before <+: calls →
        (run step { capabilities, minFreshness } before).Covered o := by
  have hempty := allStand_empty capabilities minFreshness
  have habove : ∀ r : DemandRegistry, r.AllStand → r.AboveFloor :=
    fun _ h id s hget => (h id s hget).served
  have hkeep : ∀ (r : DemandRegistry) call, r.AllStand → r.KeepsFloor call →
      (r.step call).AllStand := fun _ _ h hkeeps => allStand_step h hkeeps
  have hbreak : ∀ (r : DemandRegistry) call, r.AllStand → ¬ r.KeepsFloor call →
      ¬ (r.step call).AboveFloor := fun _ _ _ => not_aboveFloor_step
  have hfloor := reached_iff_always habove hkeep hbreak hempty calls
  have hstand := fun halways before (hbefore : before <+: calls) =>
    reached_of_always hkeep hempty halways hbefore
  constructor
  · intro h
    have halways := hfloor.mp fun before hbefore => (h before hbefore).2
    exact ⟨halways, fun before hbefore =>
      (exact_iff_covered (hstand halways before hbefore) o).mp (h before hbefore).1⟩
  · rintro ⟨halways, hcovered⟩ before hbefore
    exact ⟨(exact_iff_covered (hstand halways before hbefore) o).mpr (hcovered before hbefore),
      hfloor.mpr halways before hbefore⟩

def siteDemand : Demand where
  demandId := "d-1"
  subscriber := "audit"
  scope := { siteIds := ["site-1"] }
  subjectFilter := { classIds := ["person"], accepted := rfl }
  requiredAttributes := ["headwear"]
  freshness := ⟨1000000000⟩
  accepted := rfl

/-- The demand registered, and throttled to a millisecond. -/
def hastened : List DemandCall :=
  [.register siteDemand ⟨0⟩ "" none, .throttle "d-1" ⟨1000000⟩]

def elsewhere : Subject where
  cameraId := "cam-9"
  siteId := "site-2"
  classId := "person"
  regionIds := []
  lifecycle := "confirmed"
  confidence := .finite 1

/-- The person elsewhere is driven work for, and faster than the second that the platform
    never goes below. -/
theorem drives_elsewhere_below_floor :
    ¬ (run step { capabilities := ⟨["headwear"], ["headwear"]⟩ } hastened).Exact elsewhere ∧
      ¬ (run step { capabilities := ⟨["headwear"], ["headwear"]⟩ } hastened).AboveFloor := by
  constructor
  · intro hexact
    have hwanted : (((run step { capabilities := ⟨["headwear"], ["headwear"]⟩ }
        hastened).requiredAttributes "cam-9" "person" []).get? "headwear").isSome = true := by
      decide +kernel
    have hout : ∀ e ∈ (run step { capabilities := ⟨["headwear"], ["headwear"]⟩ }
        hastened).demands.entries, elsewhere.unasked e.2.demand = false := by
      decide +kernel
    obtain ⟨want, hwant⟩ := Option.isSome_iff_exists.mp hwanted
    have hsums := hexact "headwear"
    rw [show (requiredAttributes _ elsewhere.cameraId elsewhere.classId elsewhere.regionIds).get?
      "headwear" = some want from hwant] at hsums
    obtain ⟨s, ⟨⟨id, hget, -⟩, hunasked⟩, -⟩ := hsums.1.1
    have hno := hout _ (get?_eq_some_iff.mp hget)
    rw [hunasked] at hno
    cases hno
  · intro habove
    have hbelow : ∃ e ∈ (run step { capabilities := ⟨["headwear"], ["headwear"]⟩ }
        hastened).demands.entries, e.2.status.isServing = true ∧
          e.2.effectiveFreshness.ns < max 1000000000 e.2.demand.freshness.ns := by
      decide +kernel
    obtain ⟨e, he, hserving, hlt⟩ := hbelow
    exact (habove e.1 e.2 (get?_eq_some_iff.mpr he) hserving).not_gt hlt

end DemandRegistry

end VisionOs.Cropping
