/-
  Whether one principal can change another's demand.  It cannot as long as nobody
  registers under an id that another holds, or under none, and every update that gets
  past the ownership check registers.
-/
import VisionOs.Exposure.Demands

namespace VisionOs.Exposure

open Core Lib Cropping DemandRegistry Effect Option OrderedDict Runs

inductive DemandCall where
  | register (principal : Principal) (demand : Demand) (c : Circumstances)
  | update (principal : Principal) (demandId : DemandId) (demand : Demand) (c : Circumstances)
  | revoke (principal : Principal) (demandId : DemandId) (fault : Option SaveFault := none)
  | listFor (principal : Principal)

def DemandCall.principal : DemandCall → Principal
  | register p _ _ | update p _ _ _ | revoke p _ _ | listFor p => p

/-- What can be written out of a demand in force since an instant: a freshness in milliseconds,
    and instants of no more than 4300 digits. -/
structure Writable (demand : Demand) (activatedAt : Instant) : Prop where
  freshness : ∃ ms, intMillis demand.freshness = .ok ms
  activated : (PyValue.int activatedAt.ns).printable = true
  expires : ∀ t, demand.expiresAt = some t → (PyValue.int t.ns).printable = true

namespace DemandIntake

/-- The demand is there and has ended. -/
def Terminal (s : DemandIntake) (demandId : DemandId) : Prop :=
  ∃ state, s.registry.get demandId = some state ∧ state.status.isTerminal = true

/-- The principal sees the demand and may change it. -/
structure Commands (s : DemandIntake) (p : Principal) (demandId : DemandId) : Prop where
  listed : ∃ view ∈ listFor s p, view.demandId = demandId
  admitted : requireOwner p demandId s = (.ok (), s)

/-- Every demand is filed under its own id. -/
def Filed (s : DemandIntake) : Prop :=
  ∀ id state, s.registry.get id = some state → state.demand.demandId = id

section Calls

variable (authorize : Principal → Action → Scope → AuthorizationDecision)

def step (s : DemandIntake) : DemandCall → DemandIntake
  | .register p demand c => (register authorize p demand c s).2
  | .update p demandId demand c => (update authorize p demandId demand c s).2
  | .revoke p demandId fault => (revoke p demandId fault s).2
  | .listFor _ => s

def acknowledged (s : DemandIntake) : DemandCall → Option DemandAcknowledgement
  | .register p demand c => (register authorize p demand c s).1.toOption
  | .update p demandId demand c => (update authorize p demandId demand c s).1.toOption
  | .revoke _ _ _ | .listFor _ => none

/-- A call respects who holds what: other principals' demands stay as they are, its own stays
    its own until it is terminal, what it registers is its own, and an update that raises
    leaves the old demand. -/
structure Respects (s : DemandIntake) (call : DemandCall) : Prop where
  others : ∀ q id, q.subject ≠ call.principal.subject ∨ q.tenantId ≠ call.principal.tenantId →
    s.Owns q id → (s.step authorize call).registry.get id = s.registry.get id ∧
      (s.step authorize call).owners.get? id = s.owners.get? id
  own : ∀ id, s.Owns call.principal id →
    (s.step authorize call).Commands call.principal id ∨ (s.step authorize call).Terminal id
  registered : ∀ ack, s.acknowledged authorize call = some ack →
    (s.step authorize call).Commands call.principal ack.demandId
  failedUpdate : ∀ p id demand c, call = .update p id demand c →
    s.acknowledged authorize call = none →
      (s.step authorize call).registry.get id = s.registry.get id ∧
        (s.step authorize call).owners.get? id = s.owners.get? id

/-- The demand would be admitted: its checks pass, and one of its attributes is registered. -/
def Admissible (s : DemandIntake) (p : Principal) (demand : Demand) (c : Circumstances) : Prop :=
  mayRegister authorize p demand = .ok () ∧
    ∃ ack, s.registry.acknowledge demand (idFor demand c.minted) c.sustainable =
      .ok ack

/-- Nobody else holds the id. -/
def FreeFor (s : DemandIntake) (p : Principal) (demandId : DemandId) : Prop :=
  demandId ≠ "" ∧ ∀ q, q.subject ≠ p.subject ∨ q.tenantId ≠ p.tenantId → ¬ s.Owns q demandId

/-- With the demand added, the registry can be saved: the disk refuses nothing, and every
    demand can be written out. -/
def Recordable (s : DemandIntake) (demand : Demand) (c : Circumstances) : Prop :=
  s.store.durable = true → c.unsaved = none ∧ Writable demand c.now ∧
    ∀ id state, s.registry.get id = some state → Writable state.demand state.activatedAt

/-- A registration that is admitted brings an id that is free for the principal; an update of
    a demand the principal holds is admitted, under such an id, and recorded, unless the demand
    is terminal already. -/
def Careful (s : DemandIntake) : DemandCall → Prop
  | .register p demand c => s.Admissible authorize p demand c → s.FreeFor p demand.demandId
  | .update p demandId demand c => s.Owns p demandId →
      (s.Admissible authorize p demand c ∧ s.FreeFor p demand.demandId ∧ s.Recordable demand c) ∨
        (s.Terminal demandId ∧ ¬ s.Admissible authorize p demand c)
  | .revoke _ _ _ | .listFor _ => True

/-- The principal commands the demand in every state of a run, up to the first in which the
    demand is terminal. -/
def CommandsUntilTerminal (p : Principal) (demandId : DemandId) :
    DemandIntake → List DemandCall → Prop
  | s, [] => s.Commands p demandId
  | s, call :: rest => s.Commands p demandId ∧ ((s.step authorize call).Terminal demandId ∨
      CommandsUntilTerminal p demandId (s.step authorize call) rest)

end Calls

variable {authorize : Principal → Action → Scope → AuthorizationDecision} {s : DemandIntake}
  {p : Principal} {demand : Demand} {c : Circumstances} {demandId : DemandId}

/-! ## What each method leaves -/

theorem requireOwner_of_owns (h : s.Owns p demandId) : requireOwner p demandId s = (.ok (), s) := by
  obtain ⟨state, hstate, hsubject, howner⟩ := h
  refine (bind_of_ok rfl).trans ?_
  simp only [hstate]
  rw [if_neg (by simp [hsubject, howner])]
  rfl

theorem requireOwner_of_not_owns (h : ¬ s.Owns p demandId) :
    ∃ e, requireOwner p demandId s = (.error e, s) := by
  refine ⟨.forbiddenError s!"no demand '{demandId}' for this principal",
    (bind_of_ok rfl).trans ?_⟩
  cases hstate : s.registry.get demandId with
  | none =>
    rfl
  | some state =>
    simp only
    rw [if_pos]
    · rfl
    · by_contra hboth
      simp only [not_or, not_not] at hboth
      exact h ⟨state, hstate, hboth.1, hboth.2⟩

theorem Owns.commands (h : s.Owns p demandId) (hfiled : s.Filed) : s.Commands p demandId := by
  refine ⟨?_, requireOwner_of_owns h⟩
  obtain ⟨state, hstate, hsubject, howner⟩ := h
  have hid := hfiled demandId state hstate
  refine ⟨viewOf state, List.mem_map_of_mem (List.mem_filter.mpr ⟨?_, ?_⟩), hid⟩
  · unfold all sortedIds
    refine List.mem_filterMap.mpr ⟨demandId, ?_, hstate⟩
    rw [List.mem_insertionSort]
    exact mem_keys_iff.mpr ⟨state, hstate⟩
  · rw [hid]
    simp [howner, hsubject]

variable {fault : Option SaveFault}

theorem persist_frame (s : DemandIntake) (fault : Option SaveFault) :
    (persist fault s).2.registry = s.registry ∧ (persist fault s).2.owners = s.owners := by
  have hsaved : ∀ records, ∃ store, ((do
      let store ← Effect.ofExcept (s.store.save fault records)
      Effect.modify fun intake => { intake with store } : Intake Unit) s).2 =
        { s with store := store } := by
    intro records
    cases hsave : s.store.save fault records with
    | error e => exact ⟨s.store, rfl⟩
    | ok store => exact ⟨store, rfl⟩
  have hrun : persist fault s = (if s.store.durable then _ else _ : Intake Unit) s := rfl
  rw [hrun]
  split
  · rcases hrecords : (s.registry.all.mapM fun state =>
        recordOf state ((s.owners.get? state.demand.demandId).getD "")) with e | records
    · exact ⟨rfl, rfl⟩
    · obtain ⟨store, hstore⟩ := hsaved records
      exact ⟨Eq.trans (congrArg DemandIntake.registry hstore) rfl,
        Eq.trans (congrArg DemandIntake.owners hstore) rfl⟩
  · exact ⟨rfl, rfl⟩

/-- A freshness of any size has no more digits in milliseconds than a double has. -/
theorem printable_of_intMillis {d : Duration} {ms : Int} (h : intMillis d = .ok ms) :
    (PyValue.int ms).printable = true := by
  obtain ⟨x, hx, h⟩ := bind_eq_ok.mp h
  unfold Duration.millis at hx
  split at hx
  · rename_i q hq
    cases hx
    have hbound := abs_lt.mp (PyFloat.round_lt hq)
    have hpow : PyFloat.pow2 1024 = ((2 ^ 1024 : Nat) : ℚ) := by
      unfold PyFloat.pow2
      rw [if_pos (by decide), Nat.cast_pow]
      rfl
    rw [hpow] at hbound
    -- The whole milliseconds are within one of the double.
    have hms : |(ms : ℚ)| < ((2 ^ 1024 : Nat) : ℚ) + 1 := by
      generalize ((2 ^ 1024 : Nat) : ℚ) = bound at hbound ⊢
      obtain rfl := Except.ok.inj h
      rw [abs_lt]
      split
      · have hlow : ((q.floor : Int) : ℚ) ≤ q := Rat.floor_le q
        have hhigh : q < ((q.floor : Int) : ℚ) + 1 := by
          exact_mod_cast Rat.lt_floor_add_one q
        constructor <;> linarith
      · have hlow : q ≤ ((q.ceil : Int) : ℚ) := Rat.le_ceil
        have hhigh : ((q.ceil : Int) : ℚ) < q + 1 := Rat.ceil_lt
        constructor <;> linarith
    have hnat : ms.natAbs < 2 ^ 1024 + 1 := by
      generalize 2 ^ 1024 = bound at hms ⊢
      rw [← Int.cast_abs, Int.abs_eq_natAbs] at hms
      exact_mod_cast hms
    exact decide_eq_true (hnat.trans (by decide +kernel))
  · cases hx

variable {state : DemandState}

theorem recordOf_printable {tenant : TenantId} {record : DemandRecord}
    (hwritable : Writable state.demand state.activatedAt) (h : recordOf state tenant = .ok record) :
    record.toJson.printable = true := by
  obtain ⟨ms, hms, h⟩ := bind_eq_ok.mp h
  rw [← Except.ok.inj h]
  have hstrings : ∀ xs : List String, PyValue.arePrintable (xs.map .str) = true := by
    intro xs
    induction xs with
    | nil => rfl
    | cons x rest ih => simpa [PyValue.arePrintable, PyValue.printable] using ih
  have hfreshness := printable_of_intMillis hms
  have hactivated := hwritable.activated
  cases hexpiry : state.demand.expiresAt with
  | none =>
    simp only [DemandRecord.toJson, PyValue.printable, PyValue.entriesArePrintable, hstrings,
      Option.map_none, Bool.true_and, Bool.and_true] at hfreshness hactivated ⊢
    simp only [hfreshness, hactivated, Bool.true_and]
  | some t =>
    have hexpires := hwritable.expires t hexpiry
    simp only [DemandRecord.toJson, PyValue.printable, PyValue.entriesArePrintable, hstrings,
      Option.map_some, Bool.true_and, Bool.and_true] at hfreshness hactivated hexpires ⊢
    simp only [hfreshness, hactivated, hexpires, Bool.true_and]

theorem save_of_printable {store : DemandStore} {records : List DemandRecord}
    (hdurable : store.durable = true) (h : ∀ record ∈ records, record.toJson.printable = true) :
    store.save none records = .ok { store with
      content := some (Synthesis.spelled (.list (records.map DemandRecord.toJson))) } := by
  have hpayload : (PyValue.list (records.map DemandRecord.toJson)).printable = true := by
    induction records with
    | nil => rfl
    | cons record rest ih =>
      obtain ⟨hfirst, hrest⟩ := List.forall_mem_cons.mp h
      have := ih hrest
      simp only [List.map_cons, PyValue.printable, PyValue.arePrintable, Bool.and_eq_true]
        at this ⊢
      exact ⟨hfirst, this⟩
  unfold DemandStore.save
  rw [if_pos hdurable]
  simp only [require, hpayload, if_true, ok_bind]
  rfl

theorem persist_of_durable (hdurable : s.store.durable = true)
    (h : ∀ id state, s.registry.get id = some state → Writable state.demand state.activatedAt) :
    ∃ records store, (s.registry.all.mapM fun state =>
        recordOf state ((s.owners.get? state.demand.demandId).getD "")) = .ok records ∧
      s.store.save none records = .ok store ∧ persist none s = (.ok (), { s with store }) := by
  have hwritable : ∀ state ∈ s.registry.all, Writable state.demand state.activatedAt := by
    intro state hstate
    obtain ⟨id, -, hget⟩ := List.mem_filterMap.mp hstate
    exact h id state hget
  have hrecords : ∀ state ∈ s.registry.all, ∃ record,
      recordOf state ((s.owners.get? state.demand.demandId).getD "") = .ok record := by
    intro state hstate
    obtain ⟨ms, hms⟩ := (hwritable state hstate).freshness
    simp only [recordOf, hms, ok_bind]
    exact ⟨_, rfl⟩
  obtain ⟨records, hrecords, -⟩ := mapM_returns hrecords
  have hsave := save_of_printable hdurable (fun record hrecord => by
    obtain ⟨state, hstate, hof⟩ := (mapM_ok hrecords).2 record hrecord
    exact recordOf_printable (hwritable state hstate) hof)
  refine ⟨records, _, hrecords, hsave, ?_⟩
  have hrun : persist none s = (if s.store.durable then _ else _ : Intake Unit) s := rfl
  rw [hrun, if_pos hdurable]
  refine (bind_of_ok (congrArg (·, s) hrecords)).trans ?_
  exact (bind_of_ok (congrArg (·, s) hsave)).trans rfl

theorem persist_returns (h : s.store.durable = true → fault = none ∧
    ∀ id state, s.registry.get id = some state → Writable state.demand state.activatedAt) :
    (persist fault s).1 = .ok () := by
  by_cases hdurable : s.store.durable = true
  · obtain ⟨rfl, hwritable⟩ := h hdurable
    obtain ⟨records, store, -, -, hrun⟩ := persist_of_durable hdurable hwritable
    rw [hrun]
  · have hrun : persist fault s = (if s.store.durable then _ else _ : Intake Unit) s := rfl
    rw [hrun, if_neg hdurable]
    rfl

theorem register_of_refused (h : ¬ s.Admissible authorize p demand c) :
    ∃ e, register authorize p demand c s = (.error e, s) := by
  cases hmay : mayRegister authorize p demand with
  | error e =>
    refine ⟨e, bind_of_error ?_⟩
    rw [hmay]
    rfl
  | ok _ =>
    have hack : ∀ ack, s.registry.acknowledge demand
        (idFor demand c.minted) c.sustainable ≠ .ok ack :=
      fun ack hack => h ⟨hmay, ack, hack⟩
    cases hregister : s.registry.register demand c.now c.minted c.sustainable with
    | error e =>
      refine ⟨e, (bind_of_ok (by rw [hmay]; rfl)).trans
        ((bind_of_ok rfl).trans (bind_of_error ?_))⟩
      rw [hregister]
      rfl
    | ok registered =>
      obtain ⟨registry, ack⟩ := registered
      exact absurd (register_eq_ok hregister).1 (hack ack)

theorem register_eq_persist (h : s.Admissible authorize p demand c) :
    ∃ state ack, state.demand = demand.stored (idFor demand c.minted) c.now ∧
      state.activatedAt = c.now ∧
      state.status = (if ack.satisfiable.isEmpty then .unsatisfiable else .active) ∧
      s.registry.acknowledge demand (idFor demand c.minted) c.sustainable =
        .ok ack ∧
      register authorize p demand c s = (do persist c.unsaved; pure ack : Intake _)
        { s with
          registry := s.registry.put (idFor demand c.minted) state
          owners := s.owners.set demand.demandId p.tenantId } := by
  obtain ⟨hmay, ack, hack⟩ := h
  obtain ⟨registry, hregister⟩ := register_of_acknowledge hack c.now
  obtain ⟨-, state, rfl, hdemand, hactivated, hstatus, -⟩ := register_eq_ok hregister
  refine ⟨state, ack, hdemand, hactivated, hstatus, hack, ?_⟩
  exact (bind_of_ok (by rw [hmay]; rfl)).trans ((bind_of_ok rfl).trans
    ((bind_of_ok (by rw [hregister]; rfl)).trans (bind_of_ok rfl)))

theorem persist_then {α : Type} (s : DemandIntake) (fault : Option SaveFault) (a : α) :
    ((do persist fault; pure a : Intake α) s).2 = (persist fault s).2 ∧
      (∀ b, ((do persist fault; pure a : Intake α) s).1 = .ok b → b = a) ∧
      ((persist fault s).1 = .ok () → ((do persist fault; pure a : Intake α) s).1 = .ok a) := by
  rcases hpersist : persist fault s with ⟨result, s'⟩
  cases result with
  | ok _ =>
    rw [bind_of_ok hpersist]
    exact ⟨rfl, fun b hb => (Except.ok.inj hb).symm, fun _ => rfl⟩
  | error e =>
    rw [bind_of_error hpersist]
    exact ⟨rfl, fun b hb => (by cases hb), fun hb => (by cases hb)⟩

theorem register_of_admissible (h : s.Admissible authorize p demand c) :
    ∃ state ack, state.demand = demand.stored (idFor demand c.minted) c.now ∧
      ack.demandId = idFor demand c.minted ∧
      (register authorize p demand c s).2.registry =
        s.registry.put (idFor demand c.minted) state ∧
      (register authorize p demand c s).2.owners = s.owners.set demand.demandId p.tenantId ∧
      (∀ a, (register authorize p demand c s).1 = .ok a → a = ack) ∧
      (s.Recordable demand c → (register authorize p demand c s).1 = .ok ack) := by
  obtain ⟨state, ack, hdemand, hactivated, -, hack, hrun⟩ := register_eq_persist h
  obtain ⟨hid, -⟩ := acknowledge_eq_ok hack
  rw [hrun]
  generalize hs' : ({ s with
    registry := s.registry.put (idFor demand c.minted) state
    owners := s.owners.set demand.demandId p.tenantId } : DemandIntake) = s'
  obtain ⟨hleft, honly, hreturns⟩ := persist_then s' c.unsaved ack
  obtain ⟨hregistry, howners⟩ := persist_frame s' c.unsaved
  rw [hleft, hregistry, howners]
  refine ⟨state, ack, hdemand, hid, by rw [← hs'], by rw [← hs'], honly, fun hrecordable => ?_⟩
  refine hreturns (persist_returns fun hdurable => ?_)
  rw [← hs'] at hdurable
  obtain ⟨hsaved, hnew, hheld⟩ := hrecordable hdurable
  refine ⟨hsaved, fun id t ht => ?_⟩
  rw [← hs', get_put] at ht
  split at ht
  · obtain rfl := some.inj ht
    rw [hdemand, hactivated]
    exact ⟨hnew.freshness, hnew.activated, hnew.expires⟩
  · exact hheld id t ht

theorem revokeInRegistry_of_ok {registry : DemandRegistry}
    (h : s.registry.revoke demandId = .ok registry) :
    revokeInRegistry demandId s = (.ok (), { s with registry }) := by
  refine (bind_of_ok rfl).trans ?_
  rw [h]
  rfl

theorem revokeInRegistry_of_error {e : PyException} (h : s.registry.revoke demandId = .error e) :
    revokeInRegistry demandId s = (.error e, s) := by
  refine (bind_of_ok rfl).trans ?_
  rw [h]
  rfl

/-- A call that begins like this raises and changes nothing, or goes on after the revocation. -/
theorem afterRevoking {α : Type} (s : DemandIntake) (p : Principal) (demandId : DemandId)
    (next : Intake α) :
    (∃ e, (do requireOwner p demandId; revokeInRegistry demandId; next) s = (.error e, s)) ∨
      ∃ registry, s.Owns p demandId ∧ s.registry.revoke demandId = .ok registry ∧
        (do requireOwner p demandId; revokeInRegistry demandId; next) s =
          next { s with registry } := by
  by_cases howns : s.Owns p demandId
  · cases hrevoke : s.registry.revoke demandId with
    | error e =>
      exact .inl ⟨e, (bind_of_ok (requireOwner_of_owns howns)).trans
        (bind_of_error (revokeInRegistry_of_error hrevoke))⟩
    | ok registry =>
      exact .inr ⟨registry, howns, rfl, (bind_of_ok (requireOwner_of_owns howns)).trans
        (bind_of_ok (revokeInRegistry_of_ok hrevoke))⟩
  · obtain ⟨e, he⟩ := requireOwner_of_not_owns howns
    exact .inl ⟨e, bind_of_error he⟩

theorem update_cases (authorize : Principal → Action → Scope → AuthorizationDecision)
    (s : DemandIntake) (p : Principal) (demandId : DemandId) (demand : Demand) (c : Circumstances) :
    (∃ e, update authorize p demandId demand c s = (.error e, s)) ∨
      ∃ registry, s.Owns p demandId ∧ s.registry.revoke demandId = .ok registry ∧
        update authorize p demandId demand c s =
          register authorize p demand c { s with registry } :=
  afterRevoking s p demandId (register authorize p demand c)

theorem revoke_cases (s : DemandIntake) (p : Principal) (demandId : DemandId)
    (fault : Option SaveFault) : (∃ e, revoke p demandId fault s = (.error e, s)) ∨
      ∃ registry, s.Owns p demandId ∧ s.registry.revoke demandId = .ok registry ∧
        revoke p demandId fault s =
          persist fault { s with registry, owners := s.owners.erase demandId } :=
  afterRevoking s p demandId _

variable {s' : DemandIntake} {q : Principal} {registry : DemandRegistry} {id : DemandId}

theorem Owns.congr (h : s.Owns p id)
    (hentry : s'.registry.get id = s.registry.get id)
    (howner : s'.owners.get? id = s.owners.get? id) : s'.Owns p id := by
  obtain ⟨state, hstate, hsubject, hown⟩ := h
  exact ⟨state, hentry.trans hstate, hsubject, howner.trans hown⟩

theorem Owns.unique (h : s.Owns p id) (h' : s.Owns q id) :
    q.subject = p.subject ∧ q.tenantId = p.tenantId := by
  obtain ⟨state, hstate, hsubject, howner⟩ := h
  obtain ⟨state', hstate', hsubject', howner'⟩ := h'
  rw [hstate] at hstate'
  obtain rfl := some.inj hstate'
  rw [howner] at howner'
  exact ⟨hsubject'.symm.trans hsubject, (some.inj howner').symm⟩

theorem demand_of_revoked (h : DemandRegistry.Revoked s.registry registry demandId)
    (hstate : registry.get id = some state) :
    ∃ t, s.registry.get id = some t ∧ state.demand = t.demand ∧
      state.activatedAt = t.activatedAt := by
  by_cases hid : id = demandId
  · subst hid
    obtain ⟨t, t', ht, ht', hdemand, hactivated, -⟩ := h.found
    rw [ht'] at hstate
    obtain rfl := some.inj hstate
    exact ⟨t, ht, hdemand, hactivated⟩
  · exact ⟨state, (h.rest id hid).symm.trans hstate, rfl, rfl⟩

theorem filed_revoked (h : DemandRegistry.Revoked s.registry registry demandId)
    (hfiled : s.Filed) : DemandIntake.Filed { s with registry } := by
  intro id state hstate
  obtain ⟨t, ht, hdemand, -⟩ := demand_of_revoked h hstate
  rw [hdemand]
  exact hfiled id t ht

theorem filed_register (authorize : Principal → Action → Scope → AuthorizationDecision)
    (hfiled : s.Filed) (p : Principal) (demand : Demand) (c : Circumstances) :
    (register authorize p demand c s).2.Filed := by
  by_cases hadmissible : s.Admissible authorize p demand c
  · obtain ⟨state, ack, hdemand, -, hregistry, -⟩ := register_of_admissible hadmissible
    intro id t ht
    rw [hregistry, get_put] at ht
    split at ht
    · rename_i hid
      obtain rfl := some.inj ht
      rw [hdemand, ← hid]
      rfl
    · exact hfiled id t ht
  · obtain ⟨e, he⟩ := register_of_refused hadmissible
    rw [he]
    exact hfiled

/-- Every call leaves the demands filed under their own ids. -/
theorem filed_step (authorize : Principal → Action → Scope → AuthorizationDecision)
    (s : DemandIntake) (call : DemandCall) (hfiled : s.Filed) :
    (s.step authorize call).Filed := by
  cases call with
  | register p demand c => exact filed_register authorize hfiled p demand c
  | update p demandId demand c =>
    show ((update authorize p demandId demand c s).2).Filed
    rcases update_cases authorize s p demandId demand c with ⟨e, he⟩ | ⟨registry, -, hrevoke, hrun⟩
    · rw [he]
      exact hfiled
    · rw [hrun]
      exact filed_register authorize
        (filed_revoked (revoke_eq_ok hrevoke) hfiled) p demand c
  | revoke p demandId fault =>
    show ((revoke p demandId fault s).2).Filed
    rcases revoke_cases s p demandId fault with ⟨e, hrun⟩ | ⟨registry, -, hrevoke, hrun⟩
    · rw [hrun]
      exact hfiled
    · have hrevoked := filed_revoked (revoke_eq_ok hrevoke) hfiled
      intro id state hstate
      rw [hrun, (persist_frame _ _).1] at hstate
      exact hrevoked id state hstate
  | listFor p => exact hfiled

/-! ## One call -/

structure Registered (s s' : DemandIntake) (p : Principal) (demandId : DemandId) : Prop where
  owns : s'.Owns p demandId
  rest : ∀ id, id ≠ demandId → s'.registry.get id = s.registry.get id ∧
    s'.owners.get? id = s.owners.get? id

theorem registered_of_admissible (h : s.Admissible authorize p demand c)
    (hid : demand.demandId ≠ "") :
    Registered s (register authorize p demand c s).2 p demand.demandId ∧
      ∃ ack, ack.demandId = demand.demandId ∧
        (∀ a, (register authorize p demand c s).1 = .ok a → a = ack) ∧
        (s.Recordable demand c → (register authorize p demand c s).1 = .ok ack) := by
  obtain ⟨state, ack, hdemand, hack, hregistry, howners, honly, hreturns⟩ :=
    register_of_admissible h
  have hkept : idFor demand c.minted = demand.demandId := if_neg hid
  have hsubscriber : demand.subscriber = p.subject :=
    require_eq_ok.mp (check_bind_eq_ok.mp h.1).1
  rw [hkept] at hdemand hack hregistry
  refine ⟨⟨⟨state, ?_, ?_, ?_⟩, fun id hne => ⟨?_, ?_⟩⟩, ack, hack, honly, hreturns⟩
  · rw [hregistry, get_put, if_pos rfl]
  · rw [hdemand]
    exact hsubscriber
  · rw [howners, get?_set_self]
  · rw [hregistry, get_put, if_neg (Ne.symm hne)]
  · rw [howners, get?_set, if_neg (Ne.symm hne)]

variable {call : DemandCall}

theorem respects_of_unchanged (hfiled : s.Filed)
    (hstep : s.step authorize call = s) (hnone : s.acknowledged authorize call = none) :
    s.Respects authorize call where
  others := by
    intro q id _ _
    rw [hstep]
    exact ⟨rfl, rfl⟩
  own := by
    intro id howns
    rw [hstep]
    exact .inl (howns.commands hfiled)
  registered := by
    intro ack hack
    rw [hnone] at hack
    cases hack
  failedUpdate := by
    intro p id demand c _ _
    rw [hstep]
    exact ⟨rfl, rfl⟩

theorem ne_of_freeFor (hfree : s.FreeFor p demandId)
    (hother : q.subject ≠ p.subject ∨ q.tenantId ≠ p.tenantId)
    (howns : s.Owns q id) : id ≠ demandId := by
  rintro rfl
  exact hfree.2 q hother howns

theorem respects_register (hfiled : s.Filed)
    (h : s.Admissible authorize p demand c → s.FreeFor p demand.demandId) :
    s.Respects authorize (.register p demand c) := by
  by_cases hadmissible : s.Admissible authorize p demand c
  · have hfree := h hadmissible
    have hfiled' := filed_register authorize hfiled p demand c
    obtain ⟨hregistered, ack, hack, honly, -⟩ := registered_of_admissible hadmissible hfree.1
    refine ⟨fun q id hother howns => ?_, fun id howns => ?_, fun a ha => ?_, ?_⟩
    · exact hregistered.rest id (ne_of_freeFor hfree hother howns)
    · by_cases hid : id = demand.demandId
      · exact .inl (hid ▸ hregistered.owns.commands hfiled')
      · obtain ⟨hentry, howner⟩ := hregistered.rest id hid
        exact .inl ((howns.congr hentry howner).commands hfiled')
    · rw [honly a (ok_of_toOption ha), hack]
      exact hregistered.owns.commands hfiled'
    · intro p' id demand' c' heq
      cases heq
  · obtain ⟨e, he⟩ := register_of_refused hadmissible
    exact respects_of_unchanged hfiled (congrArg Prod.snd he)
      (congrArg (fun result => result.1.toOption) he)

theorem admissible_revoked (hrevoked : DemandRegistry.Revoked s.registry registry demandId)
    (h : s.Admissible authorize p demand c) :
    DemandIntake.Admissible authorize { s with registry } p demand c := by
  obtain ⟨hmay, ack, hack⟩ := h
  refine ⟨hmay, ack, ?_⟩
  rw [← hack]
  exact acknowledge_congr hrevoked.capabilities hrevoked.minFreshness _ _ _

theorem recordable_revoked (hrevoked : DemandRegistry.Revoked s.registry registry demandId)
    (h : s.Recordable demand c) : DemandIntake.Recordable { s with registry } demand c := by
  intro hdurable
  obtain ⟨hsaved, hnew, hheld⟩ := h hdurable
  refine ⟨hsaved, hnew, fun id state hstate => ?_⟩
  obtain ⟨t, ht, hdemand, hactivated⟩ := demand_of_revoked hrevoked hstate
  rw [hdemand, hactivated]
  exact hheld id t ht

theorem respects_update (hfiled : s.Filed) (h : s.Owns p demandId →
      (s.Admissible authorize p demand c ∧ s.FreeFor p demand.demandId ∧ s.Recordable demand c) ∨
        (s.Terminal demandId ∧ ¬ s.Admissible authorize p demand c)) :
    s.Respects authorize (.update p demandId demand c) := by
  rcases update_cases authorize s p demandId demand c with
    ⟨e, he⟩ | ⟨registry, howned, hrevoke, hrun⟩
  · exact respects_of_unchanged hfiled (congrArg Prod.snd he)
      (congrArg (fun result => result.1.toOption) he)
  rcases h howned with
    ⟨hadmissible, hfree, hrecordable⟩ | ⟨⟨state, hstate, hterminal⟩, hrefused⟩
  swap
  · -- nothing is revoked, and nothing registered
    rw [revoke_of_terminal hstate hterminal] at hrevoke
    obtain rfl := Except.ok.inj hrevoke
    obtain ⟨e, he⟩ := register_of_refused hrefused
    have hunchanged := hrun.trans he
    exact respects_of_unchanged hfiled (congrArg Prod.snd hunchanged)
      (congrArg (fun result => result.1.toOption) hunchanged)
  have hrevoked := revoke_eq_ok hrevoke
  have hfiled' := filed_step authorize s (.update p demandId demand c) hfiled
  obtain ⟨hregistered, ack, hack, honly, hreturns⟩ :=
    registered_of_admissible (admissible_revoked hrevoked hadmissible) hfree.1
  have hreturned := hreturns (recordable_revoked hrevoked hrecordable)
  have hstep : s.step authorize (.update p demandId demand c) =
      (register authorize p demand c { s with registry }).2 := congrArg Prod.snd hrun
  have hacknowledged : s.acknowledged authorize (.update p demandId demand c) = some ack :=
    (congrArg (fun result => result.1.toOption) hrun).trans
      (congrArg Except.toOption hreturned)
  rw [← hstep] at hregistered
  refine ⟨fun q id hother howns => ?_, fun id howns => ?_, fun a ha => ?_, ?_⟩
  · -- neither the revoked demand nor the new one is the other principal's
    have hne : id ≠ demandId := by
      rintro rfl
      obtain ⟨hsubject, htenant⟩ := howned.unique howns
      exact hother.elim (fun hne => hne hsubject) fun hne => hne htenant
    obtain ⟨hentry, howner⟩ := hregistered.rest id (ne_of_freeFor hfree hother howns)
    exact ⟨hentry.trans (hrevoked.rest id hne), howner⟩
  · by_cases hnew : id = demand.demandId
    · exact .inl (hnew ▸ hregistered.owns.commands hfiled')
    · obtain ⟨hentry, howner⟩ := hregistered.rest id hnew
      by_cases hid : id = demandId
      · obtain ⟨state, state', -, hstate', -, -, hterminal⟩ := hrevoked.found
        exact .inr ⟨state', hentry.trans (hid ▸ hstate'), hterminal⟩
      · exact .inl ((howns.congr (hentry.trans (hrevoked.rest id hid)) howner).commands
          hfiled')
  · rw [hacknowledged] at ha
    rw [← some.inj ha, hack]
    exact hregistered.owns.commands hfiled'
  · intro p' id demand' c' _ hnone
    rw [hacknowledged] at hnone
    cases hnone

theorem respects_revoke (hfiled : s.Filed) : s.Respects authorize (.revoke p demandId fault) := by
  rcases revoke_cases s p demandId fault with ⟨e, hrun⟩ | ⟨registry, howned, hrevoke, hrun⟩
  · exact respects_of_unchanged hfiled (congrArg Prod.snd hrun) rfl
  obtain ⟨hregistry, howners⟩ := hrun ▸
    persist_frame { s with registry, owners := s.owners.erase demandId } fault
  have hrevoked := revoke_eq_ok hrevoke
  have hfiled' := filed_step authorize s (.revoke p demandId fault) hfiled
  have hrest : ∀ id, id ≠ demandId →
      (s.step authorize (.revoke p demandId fault)).registry.get id = s.registry.get id ∧
        (s.step authorize (.revoke p demandId fault)).owners.get? id = s.owners.get? id := by
    intro id hid
    show (revoke p demandId fault s).2.registry.get id = _ ∧
      (revoke p demandId fault s).2.owners.get? id = _
    rw [hregistry, howners, get?_erase, if_neg hid]
    exact ⟨hrevoked.rest id hid, rfl⟩
  refine ⟨fun q id hother howns => hrest id ?_, fun id howns => ?_, fun a ha => (by cases ha),
    fun p' id demand' c' heq => (by cases heq)⟩
  · rintro rfl
    obtain ⟨hsubject, htenant⟩ := howned.unique howns
    exact hother.elim (fun hne => hne hsubject) fun hne => hne htenant
  · by_cases hid : id = demandId
    · obtain ⟨state, state', -, hstate', -, -, hterminal⟩ := hrevoked.found
      refine .inr ⟨state', ?_, hterminal⟩
      show (revoke p demandId fault s).2.registry.get id = _
      rw [hregistry, hid]
      exact hstate'
    · obtain ⟨hentry, howner⟩ := hrest id hid
      exact .inl ((howns.congr hentry howner).commands hfiled')

theorem respects_of_careful (hfiled : s.Filed)
    (h : s.Careful authorize call) : s.Respects authorize call := by
  cases call with
  | register p demand c => exact respects_register hfiled h
  | update p demandId demand c => exact respects_update hfiled h
  | revoke p demandId fault => exact respects_revoke hfiled
  | listFor p => exact respects_of_unchanged hfiled rfl rfl

/-! ## Runs -/

/-- An intake over an empty registry, with nothing restored. -/
def opened (capabilities : CapabilityView) (minFreshness : Duration) (store : DemandStore) :
    DemandIntake where
  registry := { capabilities, minFreshness }
  store := store

theorem filed_opened (capabilities : CapabilityView) (minFreshness : Duration)
    (store : DemandStore) : (opened capabilities minFreshness store).Filed := by
  intro id state hstate
  cases hstate

theorem Commands.owns (h : s.Commands p demandId) : s.Owns p demandId := by
  by_contra howns
  obtain ⟨e, he⟩ := requireOwner_of_not_owns howns
  rw [h.admitted] at he
  cases he

theorem commandsUntilTerminal_of_respects (hfiled : s.Filed) {calls : List DemandCall}
    (h : Runs.Always (step authorize) (Respects authorize) s calls) (howns : s.Owns p demandId) :
    CommandsUntilTerminal authorize p demandId s calls := by
  induction calls generalizing s with
  | nil => exact howns.commands hfiled
  | cons call rest ih =>
    obtain ⟨hrespects, hrest⟩ := h
    have hfiled' := filed_step authorize s call hfiled
    refine ⟨howns.commands hfiled, ?_⟩
    by_cases hself : p.subject = call.principal.subject ∧ p.tenantId = call.principal.tenantId
    · obtain ⟨hsubject, htenant⟩ := hself
      have howned : s.Owns call.principal demandId := by
        obtain ⟨state, hstate, hsub, hown⟩ := howns
        exact ⟨state, hstate, hsub.trans hsubject, htenant ▸ hown⟩
      rcases hrespects.own demandId howned with hcommands | hterminal
      · obtain ⟨state, hstate, hsub, hown⟩ := hcommands.owns
        exact .inr (ih hfiled' hrest
          ⟨state, hstate, hsub.trans hsubject.symm, by rw [htenant]; exact hown⟩)
      · exact .inl hterminal
    · have hother : p.subject ≠ call.principal.subject ∨
          p.tenantId ≠ call.principal.tenantId := not_and_or.mp hself
      obtain ⟨hentry, howner⟩ := hrespects.others p demandId hother howns
      exact .inr (ih hfiled' hrest (howns.congr hentry howner))

/-- Nobody changes another principal's demand: in a run whose calls are all careful, each call
    respects who holds what, and whoever registered a demand lists, updates and revokes it
    until it is terminal. -/
theorem nobody_changes_anothers (authorize : Principal → Action → Scope → AuthorizationDecision)
    (capabilities : CapabilityView) (minFreshness : Duration) (store : DemandStore)
    {calls : List DemandCall} (h : Runs.Always (step authorize) (Careful authorize)
      (opened capabilities minFreshness store) calls) :
    Runs.Always (step authorize) (Respects authorize)
        (opened capabilities minFreshness store) calls ∧
      ∀ before call after, calls = before ++ call :: after →
        ∀ ack, acknowledged authorize
          (run (step authorize) (opened capabilities minFreshness store) before) call =
            some ack →
          CommandsUntilTerminal authorize call.principal ack.demandId
            (run (step authorize) (opened capabilities minFreshness store)
              (before ++ [call])) after := by
  have hfiled := filed_opened capabilities minFreshness store
  generalize opened capabilities minFreshness store = s at h hfiled
  have hrespects : Runs.Always (step authorize) (Respects authorize) s calls :=
    always_mono_of_kept (fun s call hfiled _ => filed_step authorize s call hfiled)
      (fun _ _ hfiled hcareful => respects_of_careful hfiled hcareful) hfiled h
  refine ⟨hrespects, fun before call after hsplit ack hack => ?_⟩
  rw [hsplit, always_append] at hrespects
  obtain ⟨-, hcall, hafter⟩ := hrespects
  rw [run_append]
  have hfiled' : (run (step authorize) s before).Filed :=
    run_invariant (fun s call => filed_step authorize s call) hfiled before
  exact commandsUntilTerminal_of_respects (filed_step authorize _ call hfiled') hafter
    (hcall.registered ack hack).owns

def open_ (_ : Principal) (_ : Action) (scope : Scope) : AuthorizationDecision :=
  { granted := true, scope }

def harbourer (subject : String) (h : subject ≠ "") : Principal where
  subject
  tenantId := "harbour"
  accepted := PrincipalFields.postInit_eq_ok.mpr
    ⟨h, show ("harbour" : String) ≠ "" from (by decide)⟩

def hullColour (demandId : DemandId) (subscriber : String) : Demand where
  demandId
  subscriber
  scope := {}
  subjectFilter := { accepted := by decide }
  requiredAttributes := ["hull_colour"]
  freshness := ⟨1000000000⟩
  accepted := rfl

def harbourView : CapabilityView where
  registeredAttributes := ["hull_colour"]
  producibleAttributes := ["hull_colour"]

/-- Ada registers a demand, Bob tries to revoke it, Ada updates it, and Bob registers his own. -/
def twoPrincipals : List DemandCall :=
  [.register (harbourer "ada" (by decide)) (hullColour "demand-1" "ada") ⟨⟨1⟩, "minted", none, none⟩,
    .revoke (harbourer "bob" (by decide)) "demand-1",
    .update (harbourer "ada" (by decide)) "demand-1" (hullColour "demand-1" "ada")
      ⟨⟨2⟩, "minted", none, none⟩,
    .register (harbourer "bob" (by decide)) (hullColour "demand-2" "bob") ⟨⟨3⟩, "minted", none, none⟩]

theorem ada_commands_her_demand :
    Runs.Always (step open_) (Respects open_)
      (opened harbourView ⟨1000000000⟩ { durable := false }) twoPrincipals := by
  have hcareful : Runs.Always (step open_) (Careful open_)
      (opened harbourView ⟨1000000000⟩ { durable := false }) twoPrincipals := by
    refine ⟨fun _ => ⟨show ("demand-1" : String) ≠ "" from (by decide), ?_⟩, trivial,
      fun howns => .inl ⟨⟨rfl, _, rfl⟩, ⟨show ("demand-1" : String) ≠ "" from (by decide), ?_⟩,
        fun hdurable => (by cases hdurable)⟩,
      fun _ => ⟨show ("demand-2" : String) ≠ "" from (by decide), ?_⟩, trivial⟩
    · rintro q - ⟨state, hstate, -⟩
      cases hstate
    · -- Bob's attempt was refused: the demand is Ada's
      intro q hother hq
      obtain ⟨hsubject, htenant⟩ := howns.unique hq
      exact hother.elim (· hsubject) (· htenant)
    · rintro q - ⟨state, hstate, -⟩
      cases hstate
  exact (nobody_changes_anothers open_ harbourView ⟨1000000000⟩ { durable := false } hcareful).1

/-- A second registration under an id in use takes the demand from whoever held it. -/
theorem bob_takes_adas_demand :
    ¬ ∀ (authorize : Principal → Action → Scope → AuthorizationDecision)
      (capabilities : CapabilityView) (calls : List DemandCall),
      Runs.Always (step authorize) (Respects authorize)
        (opened capabilities ⟨1000000000⟩ { durable := false }) calls := by
  intro hclaim
  have hrespects := hclaim open_ harbourView
    [.register (harbourer "ada" (by decide)) (hullColour "demand-1" "ada") ⟨⟨1⟩, "minted", none, none⟩,
      .register (harbourer "bob" (by decide)) (hullColour "demand-1" "bob") ⟨⟨2⟩, "minted", none, none⟩]
  obtain ⟨hentry, -⟩ := hrespects.2.1.others (harbourer "ada" (by decide)) "demand-1"
    (.inl (by decide)) ⟨_, rfl, rfl, rfl⟩
  have hsubscriber := congrArg (Option.map fun state => state.demand.subscriber) hentry
  revert hsubscriber
  decide

end DemandIntake

end VisionOs.Exposure
