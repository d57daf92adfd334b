/-
  Whether demands survive a restart as they stood.  They do as long as none that can be
  served is revoked or expires, and each says only what the durable record holds.
-/
import VisionOs.Exposure.DemandOwners

namespace VisionOs.Exposure

open Core Lib Cropping DemandRegistry List OrderedDict Effect Option DemandRecord Except DemandStore

inductive ServiceCall where
  | intake (call : DemandCall)
  | expireDue (now : Instant)
  | throttle (demandId : DemandId) (effective : Duration)

structure Terms where
  owner : Option TenantId
  subscriber : String
  scope : DemandScope
  subjectFilter : SubjectFilter
  requiredAttributes : List AttributeKey
  freshness : Duration
  priorityClass : String
  budget : DemandBudget
  expiresAt : Option Instant
  deriving DecidableEq

def termsOf (owner : Option TenantId) (demand : Demand) : Terms where
  owner
  subscriber := demand.subscriber
  scope := demand.scope
  subjectFilter := demand.subjectFilter
  requiredAttributes := demand.requiredAttributes
  freshness := demand.freshness
  priorityClass := demand.priorityClass
  budget := demand.budget
  expiresAt := demand.expiresAt

namespace DemandIntake

/-- The terms of the demand under an id, if it is being served. -/
def serving (s : DemandIntake) (demandId : DemandId) : Option Terms :=
  match s.registry.get demandId with
  | none => none
  | some state =>
    if state.status.isServing then some (termsOf (s.owners.get? demandId) state.demand) else none

def onRegistry (s : DemandIntake) (call : DemandRegistry → Raises DemandRegistry) : DemandIntake :=
  match call s.registry with
  | .ok registry => { s with registry }
  | .error _ => s

def serve (authorize : Principal → Action → Scope → AuthorizationDecision) (s : DemandIntake) :
    ServiceCall → DemandIntake
  | .intake call => s.step authorize call
  | .expireDue now => s.onRegistry (·.expireDue now)
  | .throttle demandId effective => s.onRegistry (·.throttle demandId effective)

/-- A new intake over an empty registry with the same capabilities, and what is on disk. -/
def fresh (s : DemandIntake) : DemandIntake :=
  opened s.registry.capabilities s.registry.minFreshness s.store

def restarted (s : DemandIntake) (c : Circumstances) : DemandIntake := (restore c s.fresh).2

/-- The demand under an id stands in `t` as it does in `s`: it is served on the same terms or
    in neither, and one that is terminal is terminal or gone. -/
structure StandsIn (s t : DemandIntake) (demandId : DemandId) : Prop where
  serving : t.serving demandId = s.serving demandId
  terminal : s.Terminal demandId → t.registry.get demandId = none ∨ t.Terminal demandId

/-- After a restart, every demand stands as it did. -/
def Survives (s : DemandIntake) : Prop := ∀ c id, s.StandsIn (s.restarted c) id

/-- The demand names itself, and says only what its record holds. -/
structure InFull (demand : Demand) : Prop where
  demandId : demand.demandId ≠ ""
  regionIds : demand.scope.regionIds = []
  lifecycle : demand.subjectFilter.lifecycle = []
  minConfidence : demand.subjectFilter.minConfidence = none
  priorityClass : demand.priorityClass = ""
  budget : demand.budget = .unlimited
  freshness : (intMillis demand.freshness).map fromMillis = .ok demand.freshness

/-- The freshness can be recorded and told again, and what can be served is recorded in full. -/
structure Restorable (s : DemandIntake) (demand : Demand) : Prop where
  recorded : ∃ ms detail, intMillis demand.freshness = .ok ms ∧
    freshnessDetail (fromMillis ms)
      (s.registry.effectiveFreshness (fromMillis ms) none) = .ok detail
  inFull : s.registry.satisfiable demand ≠ [] → InFull demand

/-- The record of the demand is not read back: in whole milliseconds its freshness is none. -/
def Unread (demand : Demand) : Prop := ∀ ms, intMillis demand.freshness = .ok ms → ms ≤ 0

/-- The demand under an id, if there is one, may end: it asks for nothing that can be delivered,
    and its record is not read back. -/
def MayEnd (s : DemandIntake) (demandId : DemandId) : Prop :=
  ∀ state, s.registry.get demandId = some state →
    s.registry.satisfiable state.demand = [] ∧ Unread state.demand

/-- What is registered can be restored, and saved. -/
def RegistersRestorable (authorize : Principal → Action → Scope → AuthorizationDecision)
    (s : DemandIntake) (p : Principal) (demand : Demand) (c : Circumstances) : Prop :=
  s.Admissible authorize p demand c →
    idFor demand c.minted ≠ "" ∧ s.Restorable demand ∧ c.unsaved = none ∧ Writable demand c.now

/-- No demand is revoked or expires whose record is read back, and what is admitted can be
    restored and saved.  An update is admitted, under the same id, where the demand it revokes
    may not end. -/
def Keeping (authorize : Principal → Action → Scope → AuthorizationDecision)
    (s : DemandIntake) : ServiceCall → Prop
  | .intake (.register p demand c) => s.RegistersRestorable authorize p demand c
  | .intake (.update p demandId demand c) => s.Owns p demandId →
      s.RegistersRestorable authorize p demand c ∧
        (s.MayEnd demandId ∨ (s.Admissible authorize p demand c ∧ demand.demandId = demandId))
  | .intake (.revoke p demandId _) => s.Owns p demandId → s.MayEnd demandId
  | .intake (.listFor _) => True
  | .expireDue now => ∀ id state, s.registry.get id = some state →
      state.demand.isExpired now = true → s.MayEnd id
  | .throttle _ _ => True

end DemandIntake

/-! ## The record -/

namespace DemandRecord

open Synthesis

theorem fromJson_toJson (r : DemandRecord) : fromJson r.toJson = .ok r := by
  obtain ⟨demandId, subscriber, tenantId, siteIds, cameraIds, requiredAttributes, classIds,
    freshnessMs, registeredAtNs, expiresAtNs⟩ := r
  have hstrings : ∀ xs : List String, asStrings (.list (xs.map .str)) = .ok xs := mapM_asStr
  cases expiresAtNs with
  | none => simp [fromJson, toJson, item, getOr, lookup_cons, hstrings, ok_bind]
  | some ns => simp [fromJson, toJson, item, getOr, lookup_cons, hstrings, ok_bind]

theorem areJson_map_str (xs : List String) : areJson (xs.map .str) = true := by
  induction xs with
  | nil => rfl
  | cons x rest ih => simpa [areJson, isJson] using ih

theorem isJson_toJson (r : DemandRecord) : isJson r.toJson = true := by
  unfold toJson
  cases r.expiresAtNs <;> simp [isJson, entriesAreJson, areJson_map_str]

theorem load_save {store store' : DemandStore} (hdurable : store.durable = true)
    {records : List DemandRecord} (h : store.save none records = .ok store') :
    store'.durable = true ∧ store'.load = records := by
  have hjson : ∀ rs : List DemandRecord, areJson (rs.map toJson) = true := by
    intro rs
    induction rs with
    | nil => rfl
    | cons r rest ih => simpa [areJson, isJson_toJson r] using ih
  have hread : ∀ rs : List DemandRecord,
      (rs.map toJson).filterMap (fun entry => (fromJson entry).toOption) = rs := by
    intro rs
    induction rs with
    | nil => rfl
    | cons r rest ih =>
      rw [map_cons, filterMap_cons_some (b := r) (by rw [fromJson_toJson]; rfl), ih]
  unfold save at h
  rw [if_pos hdurable] at h
  obtain ⟨-, h⟩ := check_bind_eq_ok.mp h
  obtain rfl := ok.inj h
  refine ⟨hdurable, ?_⟩
  unfold load
  rw [if_pos hdurable]
  dsimp only
  rw [loads_spelled (by simpa [isJson] using hjson records)]
  exact hread records

end DemandRecord

namespace DemandIntake

variable {s s' : DemandIntake} {demand : Demand} {demandId : DemandId} {state : DemandState}
  {tenant : TenantId} {record : DemandRecord}

theorem recordOf_eq_ok (h : recordOf state tenant = .ok record) :
    ∃ ms, intMillis state.demand.freshness = .ok ms ∧ record = {
      demandId := state.demand.demandId
      subscriber := state.demand.subscriber
      tenantId := tenant
      siteIds := state.demand.scope.siteIds
      cameraIds := state.demand.scope.cameraIds
      requiredAttributes := state.demand.requiredAttributes
      classIds := state.demand.subjectFilter.classIds
      freshnessMs := ms
      registeredAtNs := state.activatedAt.ns
      expiresAtNs := state.demand.expiresAt.map Instant.ns } := by
  obtain ⟨ms, hms, h⟩ := bind_eq_ok.mp h
  exact ⟨ms, hms, (ok.inj h).symm⟩

variable {read : Demand}

theorem demandOf_eq_some (h : recordOf state tenant = .ok record)
    (hread : demandOf record = some read) :
    read.demandId = state.demand.demandId ∧
      read.requiredAttributes = state.demand.requiredAttributes ∧
      ∃ ms, intMillis state.demand.freshness = .ok ms ∧ read.freshness = fromMillis ms := by
  obtain ⟨ms, hms, rfl⟩ := recordOf_eq_ok h
  have hmade := ok_of_toOption hread
  obtain ⟨haccepted, rfl⟩ := constructWith_eq_ok_iff.mp hmade
  exact ⟨rfl, rfl, ms, hms, rfl⟩

theorem demandOf_of_inFull (hfull : InFull state.demand) (h : recordOf state tenant = .ok record) :
    demandOf record = some (state.demand.stored state.demand.demandId ⟨0⟩) := by
  obtain ⟨ms, hms, rfl⟩ := recordOf_eq_ok h
  obtain ⟨-, hregions, hlifecycle, hconfidence, hpriority, hbudget, hround⟩ := hfull
  rw [hms] at hround
  have hfreshness : fromMillis ms = state.demand.freshness := ok.inj hround
  have hscope : ({ siteIds := state.demand.scope.siteIds
                   cameraIds := state.demand.scope.cameraIds } : DemandScope) =
      state.demand.scope := by
    rcases hscope : state.demand.scope with ⟨sites, cameras, regions⟩
    rw [hscope] at hregions
    rw [show regions = [] from hregions]
  have hfilter : ({ classIds := state.demand.subjectFilter.classIds, accepted := rfl } :
      SubjectFilter) = state.demand.subjectFilter := by
    rcases hfilter : state.demand.subjectFilter with ⟨⟨classes, lifecycle, confidence⟩, accepted⟩
    rw [hfilter] at hlifecycle hconfidence
    subst hlifecycle hconfidence
    rfl
  have hexpires : (state.demand.expiresAt.map Instant.ns).map Instant.mk =
      state.demand.expiresAt := by
    cases state.demand.expiresAt <;> rfl
  have hfields : ({
      demandId := state.demand.demandId
      subscriber := state.demand.subscriber
      scope := { siteIds := state.demand.scope.siteIds
                 cameraIds := state.demand.scope.cameraIds }
      subjectFilter := { classIds := state.demand.subjectFilter.classIds, accepted := rfl }
      requiredAttributes := state.demand.requiredAttributes
      freshness := fromMillis ms
      expiresAt := (state.demand.expiresAt.map Instant.ns).map Instant.mk } : DemandFields) =
      (state.demand.stored state.demand.demandId ⟨0⟩).toDemandFields := by
    rw [hscope, hfilter, hexpires, hfreshness, ← hpriority, ← hbudget]
    rfl
  unfold demandOf Demand.construct
  simp only [hfields]
  rw [constructWith_eq_ok (state.demand.stored state.demand.demandId ⟨0⟩).accepted]
  rfl

/-! ## What is kept -/

/-- What holds of an entry that a restart brings back. -/
structure EntryKept (s : DemandIntake) (demandId : DemandId) (state : DemandState) : Prop where
  filed : state.demand.demandId = demandId
  named : demandId ≠ ""
  served : state.status.isServing = !(s.registry.satisfiable state.demand).isEmpty
  restorable : s.Restorable state.demand
  writable : Writable state.demand state.activatedAt
  owned : s.registry.satisfiable state.demand ≠ [] → ∃ tenant, s.owners.get? demandId = some tenant
  ended : state.status.isTerminal = true → Unread state.demand

/-- The store is durable, and every entry but the excepted ones is kept. -/
structure Held (E : DemandId → Prop) (s : DemandIntake) : Prop where
  durable : s.store.durable = true
  entries : ∀ id state, s.registry.get id = some state → ¬ E id → s.EntryKept id state

/-- The file holds exactly one true record of each entry. -/
structure Synced (s : DemandIntake) : Prop where
  nodup : (s.store.load.map DemandRecord.demandId).Nodup
  sound : ∀ r ∈ s.store.load, ∃ state, s.registry.get r.demandId = some state ∧
    recordOf state r.tenantId = .ok r ∧
    (s.registry.satisfiable state.demand ≠ [] → s.owners.get? r.demandId = some r.tenantId)
  complete : ∀ id state, s.registry.get id = some state → ∃ r ∈ s.store.load, r.demandId = id

/-- Every entry is kept, and what is on disk is what the registry holds. -/
structure Kept (s : DemandIntake) : Prop where
  held : s.Held fun _ => False
  synced : s.Synced

/-- The same demands are in force since the same instants, as many of them served; what has
    ended meanwhile is a demand whose record is not read back. -/
structure SameStanding (r r' : DemandRegistry) : Prop where
  capabilities : r'.capabilities = r.capabilities
  minFreshness : r'.minFreshness = r.minFreshness
  ended : ∀ id t t', r.get id = some t → r'.get id = some t' → t'.status.isTerminal = true →
    t.status.isTerminal = true ∨ Unread t.demand
  entries : ∀ id, (r'.get id).map (fun t => (t.demand, t.activatedAt, t.status.isServing)) =
    (r.get id).map (fun t => (t.demand, t.activatedAt, t.status.isServing))

theorem SameStanding.refl (r : DemandRegistry) : SameStanding r r := by
  refine ⟨rfl, rfl, fun id t t' ht ht' hterminal => .inl ?_, fun _ => rfl⟩
  rw [ht] at ht'
  rwa [some.inj ht']

variable {r r' : DemandRegistry}

theorem SameStanding.satisfiable (h : SameStanding r r')
    (demand : Demand) : r'.satisfiable demand = r.satisfiable demand := by
  unfold DemandRegistry.satisfiable
  rw [h.capabilities]

theorem SameStanding.get (h : SameStanding r r') (hstate : r'.get demandId = some state) :
    ∃ t, r.get demandId = some t ∧ state.demand = t.demand ∧ state.activatedAt = t.activatedAt ∧
      state.status.isServing = t.status.isServing := by
  have hentry := h.entries demandId
  rw [hstate] at hentry
  cases ht : r.get demandId with
  | none =>
    rw [ht] at hentry
    cases hentry
  | some t =>
    rw [ht] at hentry
    obtain ⟨hdemand, hrest⟩ := Prod.mk.inj (some.inj hentry)
    exact ⟨t, rfl, hdemand, (Prod.mk.inj hrest).1, (Prod.mk.inj hrest).2⟩

theorem SameStanding.get_of (h : SameStanding r r') {t : DemandState}
    (ht : r.get demandId = some t) :
    ∃ state, r'.get demandId = some state ∧ state.demand = t.demand ∧
      state.activatedAt = t.activatedAt ∧ state.status.isServing = t.status.isServing := by
  have hentry := h.entries demandId
  rw [ht] at hentry
  cases hstate : r'.get demandId with
  | none =>
    rw [hstate] at hentry
    cases hentry
  | some state =>
    obtain ⟨t', ht', hsame⟩ := h.get hstate
    rw [ht] at ht'
    exact ⟨state, rfl, (some.inj ht').symm ▸ hsame⟩

theorem SameStanding.trans {r₁ r₂ r₃ : DemandRegistry} (h : SameStanding r₁ r₂)
    (h' : SameStanding r₂ r₃) : SameStanding r₁ r₃ := by
  refine ⟨h'.capabilities.trans h.capabilities, h'.minFreshness.trans h.minFreshness,
    fun id t₁ t₃ ht₁ ht₃ hterminal => ?_, fun id => (h'.entries id).trans (h.entries id)⟩
  obtain ⟨t₂, ht₂, hdemand, -⟩ := h.get_of ht₁
  rcases h'.ended id t₂ t₃ ht₂ ht₃ hterminal with hterminal | hunread
  · exact h.ended id t₁ t₂ ht₁ ht₂ hterminal
  · exact .inr (hdemand ▸ hunread)

theorem sameStanding_put {t : DemandState} (ht : r.get demandId = some t)
    (hdemand : state.demand = t.demand) (hactivated : state.activatedAt = t.activatedAt)
    (hserving : state.status.isServing = t.status.isServing)
    (hended : state.status.isTerminal = true → t.status.isTerminal = true ∨ Unread t.demand) :
    SameStanding r (r.put demandId state) := by
  refine ⟨rfl, rfl, fun id t₁ t₂ ht₁ ht₂ hterminal => ?_, fun id => ?_⟩
  · rw [get_put] at ht₂
    split at ht₂
    · rename_i hid
      rw [← hid, ht] at ht₁
      rw [← some.inj ht₁]
      exact hended (some.inj ht₂ ▸ hterminal)
    · rw [ht₁] at ht₂
      exact .inl (some.inj ht₂ ▸ hterminal)
  · rw [get_put]
    split
    · rename_i hid
      rw [← hid, ht, map_some, map_some, hdemand, hactivated, hserving]
    · rfl

theorem sameStanding_revoke {t : DemandState}
    (ht : r.get demandId = some t) (hserving : t.status.isServing = false)
    (hunread : Unread t.demand) (h : r.revoke demandId = .ok r') : SameStanding r r' := by
  unfold DemandRegistry.revoke DemandRegistry.requireDemand at h
  rw [ht, ok_bind] at h
  split at h
  · rw [← ok.inj h]
    exact .refl r
  · obtain ⟨-, h⟩ := check_bind_eq_ok.mp h
    rw [← ok.inj h]
    exact sameStanding_put ht rfl rfl hserving.symm fun _ => .inr hunread

theorem sameStanding_throttle {effective : Duration}
    (h : r.throttle demandId effective = .ok r') : SameStanding r r' := by
  unfold throttle requireDemand at h
  cases ht : r.get demandId with
  | none =>
    rw [ht] at h
    cases h
  | some t =>
    rw [ht, ok_bind] at h
    obtain ⟨hallowed, h⟩ := check_bind_eq_ok.mp h
    rw [← ok.inj h]
    refine sameStanding_put ht rfl rfl ?_ fun hterminal => (by cases hterminal)
    show DemandStatus.throttled.isServing = t.status.isServing
    revert hallowed
    cases t.status <;> decide

theorem sameStanding_expireDue {now : Instant}
    (hdue : ∀ id t, r.get id = some t → t.demand.isExpired now = true →
      t.status.isServing = false ∧ Unread t.demand)
    (h : r.expireDue now = .ok r') : SameStanding r r' := by
  unfold expireDue at h
  generalize r.sortedIds = ids at h
  induction ids generalizing r with
  | nil =>
    rw [← ok.inj h]
    exact .refl r
  | cons id rest ih =>
    rw [foldlM_cons] at h
    obtain ⟨middle, hone, h⟩ := bind_eq_ok.mp h
    have hmiddle : SameStanding r middle := by
      unfold expireOne at hone
      split at hone
      · rw [← ok.inj hone]
        exact .refl r
      rename_i t ht
      split at hone
      · rw [← ok.inj hone]
        exact .refl r
      · rename_i hlive
        simp only [Bool.or_eq_true, Bool.not_eq_true', not_or, Bool.not_eq_false] at hlive
        obtain ⟨-, hone⟩ := check_bind_eq_ok.mp hone
        rw [← ok.inj hone]
        obtain ⟨hserving, hunread⟩ := hdue id t ht hlive.2
        exact sameStanding_put ht rfl rfl hserving.symm fun _ => .inr hunread
    refine hmiddle.trans (ih (fun id t ht hexpired => ?_) h)
    obtain ⟨u, hu, hdemand, -, hserving⟩ := hmiddle.get ht
    rw [hserving, hdemand]
    exact hdue id u hu (hdemand ▸ hexpired)

/-! ## Each call keeps every entry -/

theorem Restorable.congr (h : s.Restorable demand)
    (hcapabilities : s'.registry.capabilities = s.registry.capabilities)
    (hfloor : s'.registry.minFreshness = s.registry.minFreshness) : s'.Restorable demand := by
  obtain ⟨⟨ms, detail, hms, hdetail⟩, hfull⟩ := h
  refine ⟨⟨ms, detail, hms, ?_⟩, fun hsome => hfull ?_⟩
  · unfold effectiveFreshness at hdetail ⊢
    rw [hfloor]
    exact hdetail
  · unfold satisfiable at hsome ⊢
    rwa [hcapabilities] at hsome

theorem Held.congr {E : DemandId → Prop} (h : s.Held E)
    (hstanding : SameStanding s.registry s'.registry) (hdurable : s'.store.durable = true)
    (howners : ∀ id state, s.registry.get id = some state →
      s.registry.satisfiable state.demand ≠ [] → s'.owners.get? id = s.owners.get? id) :
    s'.Held E := by
  refine ⟨hdurable, fun id state hstate hE => ?_⟩
  obtain ⟨t, ht, hdemand, hactivated, hserving⟩ := hstanding.get hstate
  obtain ⟨hfiled, hnamed, hserved, hrestorable, hwritable, howned, hended⟩ :=
    h.entries id t ht hE
  refine ⟨?_, hnamed, ?_, ?_, ?_, fun hsome => ?_, fun hterminal => ?_⟩
  · rw [hdemand]
    exact hfiled
  · rw [hserving, hdemand, hstanding.satisfiable]
    exact hserved
  · rw [hdemand]
    exact hrestorable.congr hstanding.capabilities hstanding.minFreshness
  · rw [hdemand, hactivated]
    exact hwritable
  · rw [hdemand, hstanding.satisfiable] at hsome
    rw [howners id t ht hsome]
    exact howned hsome
  · rw [hdemand]
    exact (hstanding.ended id t state ht hstate hterminal).elim hended fun h => h

theorem Synced.congr (h : s.Synced) (hstanding : SameStanding s.registry s'.registry)
    (hstore : s'.store = s.store) (howners : ∀ id state, s.registry.get id = some state →
      s.registry.satisfiable state.demand ≠ [] → s'.owners.get? id = s.owners.get? id) :
    s'.Synced := by
  constructor
  · rw [hstore]
    exact h.nodup
  · intro r hr
    rw [hstore] at hr
    obtain ⟨t, ht, hrecord, howned⟩ := h.sound r hr
    obtain ⟨state, hstate, hdemand, hactivated, -⟩ := hstanding.get_of ht
    refine ⟨state, hstate, ?_, fun hsome => ?_⟩
    · rw [← hrecord]
      unfold recordOf
      rw [hdemand, hactivated]
    · rw [hdemand, hstanding.satisfiable] at hsome
      rw [howners r.demandId t ht hsome]
      exact howned hsome
  · intro id state hstate
    obtain ⟨t, ht, -⟩ := hstanding.get hstate
    rw [hstore]
    exact h.complete id t ht

theorem Kept.congr (h : s.Kept) (hstanding : SameStanding s.registry s'.registry)
    (hstore : s'.store = s.store) (howners : ∀ id state, s.registry.get id = some state →
      s.registry.satisfiable state.demand ≠ [] → s'.owners.get? id = s.owners.get? id) :
    s'.Kept := by
  refine ⟨h.held.congr hstanding ?_ howners, h.synced.congr hstanding hstore howners⟩
  rw [hstore]
  exact h.held.durable

theorem map_all (hfiled : s.Filed) :
    s.registry.all.map (fun state => state.demand.demandId) = s.registry.sortedIds := by
  have hread : ∀ ids : List DemandId,
      (∀ id ∈ ids, ∃ state, s.registry.get id = some state) →
        (ids.filterMap s.registry.get).map (fun state => state.demand.demandId) = ids := by
    intro ids hheld
    induction ids with
    | nil => rfl
    | cons id rest ih =>
      obtain ⟨⟨state, hstate⟩, hrest⟩ := forall_mem_cons.mp hheld
      rw [filterMap_cons_some hstate, map_cons, ih hrest, hfiled id state hstate]
  refine hread s.registry.sortedIds fun id hid => ?_
  unfold sortedIds at hid
  rw [mem_insertionSort] at hid
  exact mem_keys_iff.mp hid

theorem kept_persist (h : s.Held fun _ => False) : (persist none s).2.Kept := by
  have hentry : ∀ id state, s.registry.get id = some state → s.EntryKept id state :=
    fun id state hstate => h.entries id state hstate not_false
  have hfiled : s.Filed := fun id state hstate => (hentry id state hstate).filed
  obtain ⟨records, store, hrecords, hsave, hrun⟩ := persist_of_durable h.durable
    fun id state hget => (hentry id state hget).writable
  have hids : records.map DemandRecord.demandId = s.registry.sortedIds := by
    rw [← map_all hfiled]
    refine mapM_map_eq (fun state record hrecord => ?_) hrecords
    obtain ⟨ms, -, rfl⟩ := recordOf_eq_ok hrecord
    rfl
  obtain ⟨hdurable, hload⟩ := load_save h.durable hsave
  obtain ⟨-, hback⟩ := mapM_ok hrecords
  rw [hrun]
  refine ⟨h.congr (SameStanding.refl _) hdurable fun _ _ _ _ => rfl, ?_, fun r hr => ?_,
    fun id state hget => ?_⟩
  · rw [hload, hids]
    exact (perm_insertionSort _ _).nodup_iff.mpr s.registry.demands.nodupKeys
  · rw [hload] at hr
    obtain ⟨state, hstate, hrecord⟩ := hback r hr
    obtain ⟨id, -, hget⟩ := mem_filterMap.mp hstate
    have hkept := hentry id state hget
    rw [hkept.filed] at hrecord
    have hr := hrecord
    obtain ⟨ms, -, rfl⟩ := recordOf_eq_ok hr
    refine ⟨state, (congrArg s.registry.get hkept.filed).trans hget, hrecord, fun hsome => ?_⟩
    obtain ⟨tenant, howned⟩ := hkept.owned hsome
    rw [hkept.filed, howned]
    rfl
  · have hid : id ∈ records.map demandId := by
      rw [hids]
      unfold sortedIds
      rw [mem_insertionSort]
      exact mem_keys_iff.mpr ⟨state, hget⟩
    rw [hload]
    exact mem_map.mp hid

variable {authorize : Principal → Action → Scope → AuthorizationDecision} {p : Principal}
  {c : Circumstances}

theorem kept_register (hadmissible : s.Admissible authorize p demand c)
    (hid : idFor demand c.minted ≠ "") (hrestorable : s.Restorable demand)
    (hunsaved : c.unsaved = none) (hwritable : Writable demand c.now) (h : s.Held fun id => id = idFor demand c.minted) :
    (register authorize p demand c s).2.Kept := by
  obtain ⟨state, ack, hdemand, hactivated, hstatus, hack, hrun⟩ :=
    register_eq_persist hadmissible
  obtain ⟨-, hsatisfiable, -⟩ := acknowledge_eq_ok hack
  generalize hs' : ({ s with
    registry := s.registry.put (idFor demand c.minted) state
    owners := s.owners.set demand.demandId p.tenantId } : DemandIntake) = s' at hrun
  rw [hrun, (persist_then s' c.unsaved ack).1, hunsaved]
  refine kept_persist ?_
  rw [← hs']
  refine ⟨h.durable, fun id t ht _ => ?_⟩
  rw [get_put] at ht
  split at ht
  · -- the demand that is registered
    rename_i heq
    obtain rfl := some.inj ht
    refine ⟨?_, heq ▸ hid, ?_, ?_, ?_, fun hsome => ?_, fun hterminal => ?_⟩
    · rw [hdemand, ← heq]
      rfl
    · rw [hstatus, hsatisfiable, hdemand]
      show (if (s.registry.satisfiable demand).isEmpty = true then DemandStatus.unsatisfiable
        else DemandStatus.active).isServing = !(s.registry.satisfiable demand).isEmpty
      cases (s.registry.satisfiable demand).isEmpty <;> rfl
    · rw [hdemand]
      obtain ⟨hrecorded, hfull⟩ := hrestorable
      refine ⟨hrecorded, fun hsome => ?_⟩
      obtain ⟨-, hregions, hlifecycle, hconfidence, hpriority, hbudget, hround⟩ := hfull hsome
      exact ⟨hid, hregions, hlifecycle, hconfidence, hpriority, hbudget, hround⟩
    · rw [hdemand, hactivated]
      exact ⟨hwritable.freshness, hwritable.activated, hwritable.expires⟩
    · -- a demand that can be served brings its own id, under which its owner is written
      rw [hdemand] at hsome
      have hown : idFor demand c.minted = demand.demandId :=
        if_neg (hrestorable.inFull hsome).demandId
      refine ⟨p.tenantId, ?_⟩
      rw [← heq, hown, get?_set_self]
    · rw [hstatus] at hterminal
      split at hterminal <;> cases hterminal
  · rename_i hne
    obtain ⟨hfiled, hnamed, hserved, hrestored, hwritten, howned, hended⟩ :=
      h.entries id t ht (Ne.symm hne)
    refine ⟨hfiled, hnamed, hserved, hrestored.congr rfl rfl, hwritten, fun hsome => ?_, hended⟩
    rw [get?_set]
    split
    · exact ⟨_, rfl⟩
    · exact howned hsome

theorem Kept.not_serving_of_mayEnd (h : s.Kept) (hend : s.MayEnd demandId)
    (hstate : s.registry.get demandId = some state) : state.status.isServing = false := by
  rw [(h.held.entries demandId state hstate not_false).served, (hend state hstate).1]
  rfl

theorem kept_register_of_restorable (h : s.Kept)
    (hcall : s.RegistersRestorable authorize p demand c) :
    (register authorize p demand c s).2.Kept := by
  by_cases hadmissible : s.Admissible authorize p demand c
  · obtain ⟨hid, hrestorable, hunsaved, hwritable⟩ := hcall hadmissible
    exact kept_register hadmissible hid hrestorable hunsaved hwritable
      ⟨h.held.durable, fun id state hstate _ => h.held.entries id state hstate not_false⟩
  · obtain ⟨e, he⟩ := register_of_refused hadmissible
    rw [he]
    exact h

theorem admissible_congr (hcapabilities : s'.registry.capabilities = s.registry.capabilities)
    (hfloor : s'.registry.minFreshness = s.registry.minFreshness) :
    s'.Admissible authorize p demand c ↔ s.Admissible authorize p demand c := by
  unfold Admissible
  rw [acknowledge_congr hcapabilities hfloor]

theorem kept_update (h : s.Kept) (hcall : s.Owns p demandId →
      s.RegistersRestorable authorize p demand c ∧
        (s.MayEnd demandId ∨ (s.Admissible authorize p demand c ∧ demand.demandId = demandId))) :
    (update authorize p demandId demand c s).2.Kept := by
  rcases update_cases authorize s p demandId demand c with ⟨e, he⟩ | ⟨registry, howns, hrevoke, hrun⟩
  · rw [he]
    exact h
  rw [hrun]
  have hrevoked := revoke_eq_ok hrevoke
  obtain ⟨hregisters, hend | ⟨hadmissible, hsame⟩⟩ := hcall howns
  · -- what is revoked was not served, so the registry stands as it did
    obtain ⟨state, -, hstate, -⟩ := hrevoked.found
    have hstanding := sameStanding_revoke hstate (h.not_serving_of_mayEnd hend hstate)
      (hend state hstate).2 hrevoke
    refine kept_register_of_restorable (h.congr hstanding rfl fun _ _ _ _ => rfl)
      fun hadmissible => ?_
    obtain ⟨hid, hrestorable, hsaved⟩ := hregisters
      ((admissible_congr hrevoked.capabilities hrevoked.minFreshness).mp hadmissible)
    exact ⟨hid, hrestorable.congr hrevoked.capabilities hrevoked.minFreshness, hsaved⟩
  · -- what is revoked is registered again under the same id
    obtain ⟨hid, hrestorable, hunsaved, hwritable⟩ := hregisters hadmissible
    refine kept_register
      ((admissible_congr hrevoked.capabilities hrevoked.minFreshness).mpr hadmissible) hid
      (hrestorable.congr hrevoked.capabilities hrevoked.minFreshness) hunsaved hwritable
      ⟨h.held.durable, fun id state hstate hne => ?_⟩
    have hnamed : demand.demandId ≠ "" := by
      obtain ⟨state, -, hstate, -⟩ := hrevoked.found
      rw [hsame]
      exact (h.held.entries demandId state hstate not_false).named
    have hidFor : idFor demand c.minted = demandId := (if_neg hnamed).trans hsame
    rw [hrevoked.rest id (hidFor ▸ hne)] at hstate
    obtain ⟨hfiled, hnamed, hserved, hrestored, hwritten, howned, hended⟩ :=
      h.held.entries id state hstate not_false
    have hsatisfiable : registry.satisfiable state.demand = s.registry.satisfiable state.demand := by
      unfold satisfiable
      rw [hrevoked.capabilities]
    refine ⟨hfiled, hnamed, hserved.trans (by rw [← hsatisfiable]),
      hrestored.congr hrevoked.capabilities hrevoked.minFreshness, hwritten,
      fun hsome => howned ?_, hended⟩
    rw [← hsatisfiable]
    exact hsome

/-- A save that is refused leaves the intake, and the file, as they were. -/
theorem persist_refused (hdurable : s.store.durable = true) (fault : SaveFault) :
    (persist (some fault) s).2 = s := by
  have hrefused : ∀ records, ∃ e, s.store.save (some fault) records = .error e := by
    intro records
    unfold save
    rw [if_pos hdurable]
    cases fault with
    | mkdir message => exact ⟨_, rfl⟩
    | write message =>
      unfold require
      dsimp only
      split <;> exact ⟨_, rfl⟩
  have hrun : persist (some fault) s = (if s.store.durable then _ else _ : Intake Unit) s := rfl
  rw [hrun, if_pos hdurable]
  rcases hrecords : (s.registry.all.mapM fun state =>
      recordOf state ((s.owners.get? state.demand.demandId).getD "")) with e | records
  · rfl
  · obtain ⟨e, he⟩ := hrefused records
    show ((do
      let store ← Effect.ofExcept (s.store.save (some fault) records)
      Effect.modify fun intake => { intake with store } : Intake Unit) s).2 = s
    rw [he]
    rfl

theorem kept_revoke (h : s.Kept) (hcall : s.Owns p demandId → s.MayEnd demandId)
    (fault : Option SaveFault) : (revoke p demandId fault s).2.Kept := by
  rcases revoke_cases s p demandId fault with ⟨e, hrun⟩ | ⟨registry, howns, hrevoke, hrun⟩
  · rw [hrun]
    exact h
  have hend := hcall howns
  obtain ⟨state, hstate, -⟩ := howns
  have hstanding := sameStanding_revoke hstate (h.not_serving_of_mayEnd hend hstate)
    (hend state hstate).2 hrevoke
  have howners : ∀ id t, s.registry.get id = some t → s.registry.satisfiable t.demand ≠ [] →
      (s.owners.erase demandId).get? id = s.owners.get? id := by
    intro id t ht hsome
    rw [get?_erase, if_neg]
    -- the owner that is forgotten is of a demand that cannot be served
    rintro rfl
    exact hsome (hend t ht).1
  rw [hrun]
  generalize hs' : ({ s with registry, owners := s.owners.erase demandId } : DemandIntake) = s'
  have hheld : s'.Held fun _ => False := by
    rw [← hs']
    exact h.held.congr hstanding h.held.durable howners
  cases fault with
  | none => exact kept_persist hheld
  | some fault =>
    -- the save is refused, and the file still says what it said
    have hstore := persist_refused hheld.durable fault
    rw [hstore, ← hs']
    exact h.congr hstanding rfl howners

theorem kept_serve (h : s.Kept) {call : ServiceCall} (hcall : s.Keeping authorize call) :
    (s.serve authorize call).Kept := by
  cases call with
  | intake call =>
    cases call with
    | register p demand c => exact kept_register_of_restorable h hcall
    | update p demandId demand c => exact kept_update h hcall
    | revoke p demandId fault => exact kept_revoke h hcall fault
    | listFor p => exact h
  | expireDue now =>
    show (match s.registry.expireDue now with
      | .ok registry => { s with registry }
      | .error _ => s : DemandIntake).Kept
    cases hexpire : s.registry.expireDue now with
    | error e => exact h
    | ok registry =>
      have hdue : ∀ id t, s.registry.get id = some t → t.demand.isExpired now = true →
          t.status.isServing = false ∧ Unread t.demand := by
        intro id t ht hexpired
        have hend := hcall id t ht hexpired
        exact ⟨h.not_serving_of_mayEnd hend ht, (hend t ht).2⟩
      exact Kept.congr h (sameStanding_expireDue hdue hexpire) rfl fun _ _ _ _ => rfl
  | throttle demandId effective =>
    show (match s.registry.throttle demandId effective with
      | .ok registry => { s with registry }
      | .error _ => s : DemandIntake).Kept
    cases hthrottle : s.registry.throttle demandId effective with
    | error e => exact h
    | ok registry =>
      exact Kept.congr h (sameStanding_throttle hthrottle) rfl fun _ _ _ _ => rfl

/-! ## The restart -/

variable {t t' : DemandIntake}

theorem StandsIn.congr (h : s.StandsIn t demandId)
    (hget : t'.registry.get demandId = t.registry.get demandId)
    (howner : t'.owners.get? demandId = t.owners.get? demandId) : s.StandsIn t' demandId := by
  obtain ⟨hserving, hterminal⟩ := h
  unfold DemandIntake.serving DemandIntake.Terminal at *
  rw [← hget, ← howner] at hserving
  rw [← hget] at hterminal
  exact ⟨hserving, hterminal⟩

theorem unregistered_eq_filter (r : DemandRegistry) (demand : Demand) :
    r.unregistered demand = demand.requiredAttributes.filter fun a =>
      decide (r.capabilities.classifies a = some .attributeNotRegistered) := by
  unfold unregistered unsatisfiable
  induction demand.requiredAttributes with
  | nil => rfl
  | cons a rest ih =>
    cases hreason : r.capabilities.classifies a with
    | none => simp [hreason, ih]
    | some reason =>
      by_cases hnot : reason = .attributeNotRegistered <;>
        simp [hreason, hnot, ih]

theorem acknowledge_or_rejected {detail : Core.Message}
    (h : freshnessDetail demand.freshness
      (r.effectiveFreshness demand.freshness none) = .ok detail) (demandId : DemandId) :
    (∃ ack, r.acknowledge demand demandId none = .ok ack) ∨
      (r.satisfiable demand = [] ∧
        ∃ reason, r.acknowledge demand demandId none = .error (.demandRejectedError reason)) := by
  unfold acknowledge
  by_cases hall : r.unregistered demand ≠ [] ∧
      (r.unregistered demand).length = demand.requiredAttributes.length
  · refine .inr ⟨?_, ?_⟩
    · have hlength := hall.2
      rw [unregistered_eq_filter, length_filter_eq_length_iff] at hlength
      refine filter_eq_nil_iff.mpr fun a ha => ?_
      rw [of_decide_eq_true (hlength a ha)]
      exact Bool.false_ne_true
    · simp only [require, if_neg (not_not.mpr hall)]
      exact ⟨_, rfl⟩
  · refine .inl ?_
    simp only [require, if_pos hall, ok_bind, h]
    exact ⟨_, rfl⟩

/-- One record, read into a registry with the means of `s` that has nothing under its id,
    stands as in `s`, and nothing else changes. -/
def Restores (s : DemandIntake) (c : Circumstances) (record : DemandRecord) : Prop :=
  ∀ t : DemandIntake, t.registry.capabilities = s.registry.capabilities →
    t.registry.minFreshness = s.registry.minFreshness →
    t.registry.get record.demandId = none →
    ∃ t', restoreOne c record t = (.ok (), t') ∧
      t'.registry.capabilities = s.registry.capabilities ∧
      t'.registry.minFreshness = s.registry.minFreshness ∧
      (∀ id, id ≠ record.demandId → t'.registry.get id = t.registry.get id ∧
        t'.owners.get? id = t.owners.get? id) ∧
      s.StandsIn t' record.demandId

theorem restoreOne_of_none (h : demandOf record = none) (t : DemandIntake) :
    restoreOne c record t = (.ok (), t) := by
  unfold restoreOne
  rw [h]
  rfl

theorem restoreOne_of_acknowledged {ack : DemandAcknowledgement}
    (hread : demandOf record = some read)
    (hack : t.registry.acknowledge read (idFor read c.minted) none = .ok ack) :
    ∃ state, state.demand = read.stored (idFor read c.minted) c.now ∧
      state.status =
        (if (t.registry.satisfiable read).isEmpty then .unsatisfiable else .active) ∧
      restoreOne c record t = (.ok (), { t with
        registry := t.registry.put (idFor read c.minted) state
        owners := t.owners.set read.demandId record.tenantId }) := by
  obtain ⟨registry, hregister⟩ := register_of_acknowledge hack c.now
  obtain ⟨-, state, rfl, hdemand, -, hstatus, -⟩ := register_eq_ok hregister
  rw [(acknowledge_eq_ok hack).2.1] at hstatus
  refine ⟨state, hdemand, hstatus, ?_⟩
  unfold restoreOne
  rw [hread]
  exact tryCatch_of_ok ((bind_of_ok rfl).trans
    ((bind_of_ok (by rw [hregister]; rfl)).trans rfl))

theorem restoreOne_of_rejected {reason : Core.Message}
    (hread : demandOf record = some read)
    (hack : t.registry.acknowledge read (idFor read c.minted) none =
      .error (.demandRejectedError reason)) :
    restoreOne c record t = (.ok (), t) := by
  have hregister : t.registry.register read c.now c.minted none =
      .error (.demandRejectedError reason) := by
    unfold idFor at hack
    unfold DemandRegistry.register
    simp only [hack]
    rfl
  unfold restoreOne
  rw [hread]
  exact (tryCatch_of_error ((bind_of_ok rfl).trans
    (bind_of_error (by rw [hregister]; rfl)))).trans rfl

theorem Kept.restores (h : s.Kept) (c : Circumstances)
    (hrecord : record ∈ s.store.load) : s.Restores c record := by
  intro t hcapabilities hfloor hnone
  obtain ⟨state, hstate, hof, howned⟩ := h.synced.sound record hrecord
  obtain ⟨hfiled, hnamed, hserved, ⟨⟨ms, detail, hms, hdetail⟩, hfull⟩, -, -, hended⟩ :=
    h.held.entries record.demandId state hstate not_false
  have hsatisfiable : t.registry.satisfiable state.demand = s.registry.satisfiable state.demand := by
    unfold satisfiable
    rw [hcapabilities]
  have hbefore : t.serving record.demandId = none := by
    unfold serving
    rw [hnone]
  cases hread : demandOf record with
  | none =>
    -- only a record that leaves something out is not read back
    refine ⟨t, restoreOne_of_none hread t, hcapabilities, hfloor, fun _ _ => ⟨rfl, rfl⟩, ?_,
      fun _ => .inl hnone⟩
    have hidle : s.registry.satisfiable state.demand = [] := by
      by_contra hsome
      rw [demandOf_of_inFull (hfull hsome) hof] at hread
      cases hread
    rw [hbefore, serving, hstate]
    simp [hserved, hidle]
  | some read =>
    obtain ⟨hid, hattributes, ms', hms', hfreshness⟩ := demandOf_eq_some hof hread
    rw [hms] at hms'
    obtain rfl := ok.inj hms'
    -- a record is read back only with a freshness that is positive in milliseconds
    have hlives : ¬ s.Terminal record.demandId := by
      rintro ⟨state', hstate', hterminal⟩
      rw [hstate] at hstate'
      obtain rfl := some.inj hstate'
      have hnone := hended hterminal ms hms
      have hpositive := require_eq_ok.mp (check_bind_eq_ok.mp read.accepted).2
      rw [hfreshness] at hpositive
      unfold fromMillis at hpositive
      simp only at hpositive
      omega
    have hfor : idFor read c.minted = record.demandId := by
      rw [← hfiled, ← hid]
      exact if_neg (by rw [hid, hfiled]; exact hnamed)
    have hsame : t.registry.satisfiable read = s.registry.satisfiable state.demand := by
      rw [← hsatisfiable]
      unfold satisfiable
      rw [hattributes]
    have hdetail' : freshnessDetail read.freshness
        (t.registry.effectiveFreshness read.freshness none) = .ok detail := by
      unfold effectiveFreshness at hdetail ⊢
      rw [hfreshness, hfloor]
      exact hdetail
    rcases acknowledge_or_rejected hdetail' (idFor read c.minted) with
      ⟨ack, hack⟩ | ⟨hidle, reason, hrejected⟩
    · obtain ⟨state', hdemand', hstatus', hrun⟩ := restoreOne_of_acknowledged hread hack
      have hown : read.demandId = record.demandId := hid.trans hfiled
      rw [hfor, hown] at hrun
      rw [hfor] at hdemand'
      rw [hsame] at hstatus'
      refine ⟨_, hrun, hcapabilities, hfloor, fun id hne => ⟨?_, ?_⟩, ?_,
        fun hterminal => absurd hterminal hlives⟩
      · rw [get_put, if_neg (Ne.symm hne)]
      · rw [get?_set, if_neg (Ne.symm hne)]
      · have hget : (t.registry.put record.demandId state').get record.demandId = some state' := by
          rw [get_put, if_pos rfl]
        unfold serving
        simp only [hget, hstate, get?_set_self]
        rw [hserved, hstatus']
        by_cases hsome : s.registry.satisfiable state.demand = []
        · -- taken again, and again not served
          rw [hsome]
          rfl
        have hfalse : (s.registry.satisfiable state.demand).isEmpty = false := by
          rw [isEmpty_eq_false_iff]
          exact hsome
        have hterms : termsOf (some record.tenantId) state'.demand =
            termsOf (s.owners.get? record.demandId) state.demand := by
          rw [demandOf_of_inFull (hfull hsome) hof] at hread
          rw [hdemand', ← some.inj hread, howned hsome]
          rfl
        rw [hfalse, hterms]
        rfl
    · refine ⟨t, restoreOne_of_rejected hread hrejected, hcapabilities, hfloor,
        fun _ _ => ⟨rfl, rfl⟩, ?_, fun hterminal => absurd hterminal hlives⟩
      rw [hsame] at hidle
      rw [hbefore, serving, hstate]
      simp [hserved, hidle]

theorem restores_all {records : List DemandRecord} (hrecords : ∀ r ∈ records, s.Restores c r)
    (hnodup : (records.map DemandRecord.demandId).Nodup)
    (hcapabilities : t.registry.capabilities = s.registry.capabilities)
    (hfloor : t.registry.minFreshness = s.registry.minFreshness)
    (hnone : ∀ r ∈ records, t.registry.get r.demandId = none) :
    (∀ r ∈ records, s.StandsIn (forEach (restoreOne c) records t).2 r.demandId) ∧
    ∀ id ∉ records.map DemandRecord.demandId,
      (forEach (restoreOne c) records t).2.registry.get id = t.registry.get id ∧
        (forEach (restoreOne c) records t).2.owners.get? id = t.owners.get? id := by
  induction records generalizing t with
  | nil => exact ⟨fun r hr => (by cases hr), fun _ _ => ⟨rfl, rfl⟩⟩
  | cons r rest ih =>
    obtain ⟨hr, hrest⟩ := forall_mem_cons.mp hrecords
    obtain ⟨hnew, hnodup⟩ := nodup_cons.mp hnodup
    obtain ⟨hfirst, hlater⟩ := forall_mem_cons.mp hnone
    obtain ⟨t', hrun, hcapabilities', hfloor', hframe, hstands⟩ :=
      hr t hcapabilities hfloor hfirst
    have hloop : forEach (restoreOne c) (r :: rest) t =
        forEach (restoreOne c) rest t' := bind_of_ok hrun
    have hdiffer : ∀ r' ∈ rest, r'.demandId ≠ r.demandId := fun r' hr' heq =>
      hnew (heq ▸ mem_map_of_mem hr')
    obtain ⟨hserved, hkept⟩ := ih hrest hnodup hcapabilities' hfloor'
      fun r' hr' => ((hframe _ (hdiffer r' hr')).1).trans (hlater r' hr')
    rw [hloop]
    obtain ⟨hget, howner⟩ := hkept _ hnew
    refine ⟨forall_mem_cons.mpr ⟨hstands.congr hget howner, hserved⟩, fun id hid => ?_⟩
    rw [map_cons, mem_cons, not_or] at hid
    obtain ⟨hget, howner⟩ := hkept id hid.2
    exact ⟨hget.trans (hframe id hid.1).1, howner.trans (hframe id hid.1).2⟩

theorem Kept.survives (h : s.Kept) : s.Survives := by
  intro c id
  have hrun : s.restarted c = (forEach (restoreOne c) s.store.load s.fresh).2 := rfl
  obtain ⟨hserved, hrest⟩ := restores_all (t := s.fresh) (fun r hr => h.restores c hr)
    h.synced.nodup rfl rfl fun _ _ => rfl
  rw [hrun]
  by_cases hid : id ∈ s.store.load.map DemandRecord.demandId
  · obtain ⟨r, hr, rfl⟩ := mem_map.mp hid
    exact hserved r hr
  have hnone : s.registry.get id = none := by
    refine eq_none_iff_forall_ne_some.mpr fun state hstate => hid ?_
    obtain ⟨r, hr, hrid⟩ := h.synced.complete id state hstate
    exact mem_map.mpr ⟨r, hr, hrid⟩
  obtain ⟨hget, howner⟩ := hrest id hid
  refine StandsIn.congr ⟨?_, fun ⟨state, hstate, _⟩ => ?_⟩ hget howner
  · unfold serving
    rw [hnone]
    rfl
  · rw [hnone] at hstate
    cases hstate

/-- Demands survive a restart as they stood: in a run on a durable store whose calls all keep
    what can be served, every state reached survives. -/
theorem demands_survive (authorize : Principal → Action → Scope → AuthorizationDecision)
    (capabilities : CapabilityView) (minFreshness : Duration) {calls : List ServiceCall}
    (h : Runs.Always (serve authorize) (Keeping authorize)
      (opened capabilities minFreshness { durable := true }) calls) :
    ∀ before, before <+: calls → (Runs.run (serve authorize)
      (opened capabilities minFreshness { durable := true }) before).Survives := by
  intro before hbefore
  have hopened : (opened capabilities minFreshness { durable := true }).Kept := by
    refine ⟨⟨rfl, fun id state hstate => ?_⟩, ⟨nodup_nil, fun r hr => ?_,
      fun id state hstate => ?_⟩⟩
    · cases hstate
    · cases hr
    · cases hstate
  have hkeep : ∀ s call, Kept s → Keeping authorize s call → Kept (serve authorize s call) :=
    fun s call hkept hcall => kept_serve hkept hcall
  exact (Runs.reached_of_always hkeep hopened h hbefore).survives

/-- A demand registered, and then throttled to every two seconds. -/
theorem throttled_hullColour_survives :
    (Runs.run (serve open_) (opened harbourView ⟨1000000000⟩ { durable := true })
      [.intake (.register (harbourer "ada" (by decide)) (hullColour "demand-1" "ada")
          ⟨⟨1⟩, "minted", none, none⟩),
        .throttle "demand-1" ⟨2000000000⟩]).Survives := by
  have hrecorded : ∃ ms detail, intMillis (hullColour "demand-1" "ada").freshness = .ok ms ∧
      freshnessDetail (fromMillis ms)
        (effectiveFreshness { capabilities := harbourView } (fromMillis ms) none) =
          .ok detail :=
    ⟨1000, [], by decide +kernel, by decide +kernel⟩
  have hkeeping : Runs.Always (serve open_) (Keeping open_)
      (opened harbourView ⟨1000000000⟩ { durable := true })
      [.intake (.register (harbourer "ada" (by decide)) (hullColour "demand-1" "ada")
          ⟨⟨1⟩, "minted", none, none⟩),
        .throttle "demand-1" ⟨2000000000⟩] := by
    refine ⟨fun _ => ⟨by decide, ⟨hrecorded, fun _ => ?_⟩, rfl, ?_⟩, trivial, trivial⟩
    · exact ⟨by decide, rfl, rfl, rfl, rfl, rfl, by decide +kernel⟩
    · exact ⟨⟨1000, by decide +kernel⟩, by decide +kernel, fun _ h => (by cases h)⟩
  exact demands_survive open_ harbourView ⟨1000000000⟩ hkeeping _ prefix_rfl

/-- A demand that its owner revoked is served again after the restart. -/
theorem revoked_hullColour_returns :
    ¬ ∀ (authorize : Principal → Action → Scope → AuthorizationDecision)
      (capabilities : CapabilityView) (minFreshness : Duration) (calls : List ServiceCall),
      (Runs.run (serve authorize) (opened capabilities minFreshness { durable := true })
        calls).Survives := by
  intro hclaim
  have hstands := hclaim open_ harbourView ⟨1000000000⟩
    [.intake (.register (harbourer "ada" (by decide)) (hullColour "demand-1" "ada")
        ⟨⟨1⟩, "minted", none, none⟩),
      .intake (.revoke (harbourer "ada" (by decide)) "demand-1")]
    ⟨⟨2⟩, "minted", none, none⟩ "demand-1"
  have hserving := hstands.serving
  revert hserving
  decide +kernel

end DemandIntake

end VisionOs.Exposure
