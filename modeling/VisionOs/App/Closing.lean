/-
  The vision state, the incident table, and the passes and operators at work on both.  A pass
  reads and judges the state in one go, and moves the queue one statement at a time; what the
  readings, violations and findings were is recorded beside them.
-/
import VisionOs.App.Interleavings
import VisionOs.App.LaterReadings
import VisionOs.App.Recorded

namespace VisionOs.App

open Core Compliance Exposure State Lib List IncidentSession IncidentService IncidentSystem
open OrderedDict

/-- What surrounds a reading: the platform and its capability gaps, the queries it was asked
    before, the enabled cameras, and the clock as the pass reads and as it judges. -/
structure Reading where
  exposed : Bool := true
  gaps : List (String × String) := []
  charges : OrderedDict String (List Int) := ∅
  cameras : OrderedDict CameraId (Option String)
  now : Instant
  now' : Instant

def ComplianceDriver.reading (driver : ComplianceDriver) (state : Manager) (r : Reading) :
    ComplianceDriver :=
  { driver with state, exposed := r.exposed, gaps := r.gaps, charges := r.charges }

structure Judged where
  reading : Nat
  finding : Finding

structure PassAtWork where
  findings : List Judged := []
  selected : Option Judged := none
  raised : List (IncidentId × Judged) := []
  closed : List (IncidentId × Judged) := []

def findingsOf (id : IncidentId) (entries : List (IncidentId × Judged)) : List Judged :=
  (entries.filter (·.1 = id)).map Prod.snd

variable {id : IncidentId}

theorem mem_findingsOf {entries : List (IncidentId × Judged)} {j : Judged} :
    j ∈ findingsOf id entries ↔ (id, j) ∈ entries := by
  unfold findingsOf
  rw [mem_map]
  constructor
  · rintro ⟨e, he, rfl⟩
    obtain ⟨hmem, hid⟩ := mem_filter.mp he
    rw [← of_decide_eq_true hid]
    exact hmem
  · exact fun h => ⟨(id, j), mem_filter.mpr ⟨h, decide_eq_true rfl⟩, rfl⟩

structure ComplianceSystem where
  vision : Manager
  readings : Nat
  read : Nat → Manager
  db : IncidentSystem
  passes : Nat → PassAtWork
  keys : IncidentId → Option IncidentKey
  raised : IncidentId → List Judged
  closedBy : IncidentId → Option Judged

/-- An observation batch, a step of a pass, or a step of an operator. -/
inductive ComplianceEvent where
  | observes (at_ : Manager.Circumstances) (observations : List Observation)
  | judges (worker : Nat) (reading : Reading)
  | applies (worker : Nat) (ctx : DriverContext)
  | givesUp (worker : Nat)
  | closes (worker : Nat) (now : Instant)
  | acknowledges (worker : Nat) (organizationId : String) (id : IncidentId) (actor : String)
      (now : Instant)
  | resolves (worker : Nat) (organizationId : String) (id : IncidentId) (actor note : String)
      (now : Instant)
  | commits (worker : Nat)
  | rollsBack (worker : Nat)

def IncidentSession.closesNow (s : IncidentSession) (committed : Incidents)
    (organizationId : String) (id : IncidentId) : Bool :=
  match get s committed organizationId id with
  | .ok incident => incident.status ≠ .resolved
  | .error _ => false

/-! ## What a session's calls leave of its resolutions -/

structure ClosesOnly (ids : IncidentId → Prop) (s s' : IncidentSession) : Prop where
  added : ∀ id row', s'.added.get? id = some row' → ∃ row, s.added.get? id = some row ∧
    row'.key = row.key ∧ (row'.resolutionKind = some "observation" →
      row.resolutionKind = some "observation" ∨ ids id)
  changed : ∀ id, (s'.changesTo id).resolutionKind = some "observation" →
    (s.changesTo id).resolutionKind = some "observation" ∨ ids id

theorem ClosesOnly.refl (ids : IncidentId → Prop) (s : IncidentSession) : ClosesOnly ids s s where
  added := fun _ row h => ⟨row, h, rfl, .inl⟩
  changed := fun _ => .inl

theorem ClosesOnly.mono {ids ids' : IncidentId → Prop} {s s' : IncidentSession}
    (h : ClosesOnly ids s s') (himp : ∀ id, ids id → ids' id) : ClosesOnly ids' s s' where
  added := by
    intro id row' hget
    obtain ⟨row, hrow, hkey, hkind⟩ := h.added id row' hget
    exact ⟨row, hrow, hkey, fun hsome => (hkind hsome).imp_right (himp id)⟩
  changed := fun id hsome => (h.changed id hsome).imp_right (himp id)

theorem ClosesOnly.load (ids : IncidentId → Prop) (s : IncidentSession) (id : IncidentId)
    (row : Incident) : ClosesOnly ids s (s.load id row) := by
  have hchanges : ∀ id', (s.load id row).changesTo id' = s.changesTo id' := by
    intro id'
    unfold IncidentSession.load
    split <;> rfl
  refine ⟨fun id' row' h => ?_, fun id' h => ?_⟩
  · rw [added_load] at h
    exact ⟨row', h, rfl, .inl⟩
  · rw [hchanges] at h
    exact .inl h

variable {ids : IncidentId → Prop}

theorem ClosesOnly.assign (s : IncidentSession) (id : IncidentId)
    (row : Incident) {changes : IncidentChanges}
    (h : changes.resolutionKind = some "observation" → ids id) :
    ClosesOnly ids s (s.assign id row changes) := by
  have hkind : ∀ kind : Option String,
      (changes.resolutionKind <|> kind) = some "observation" →
        kind = some "observation" ∨ ids id := by
    intro kind hsome
    cases hc : changes.resolutionKind with
    | none =>
      rw [hc] at hsome
      exact .inl hsome
    | some k =>
      rw [hc] at hsome
      exact .inr (h (hc.trans hsome))
  refine ⟨fun id' row' hget => ?_, fun id' hchanged => ?_⟩
  · rw [added_assign, Option.map_eq_some_iff] at hget
    obtain ⟨own, hown, heq⟩ := hget
    by_cases hid : id = id'
    · rw [if_pos hid] at heq
      subst hid heq
      exact ⟨own, hown, rfl, hkind own.resolutionKind⟩
    · rw [if_neg hid] at heq
      subst heq
      exact ⟨own, hown, rfl, .inl⟩
  · unfold IncidentSession.assign at hchanged
    split at hchanged
    · exact .inl hchanged
    unfold changesTo at hchanged ⊢
    rw [get?_set] at hchanged
    split at hchanged
    · rename_i hid
      subst hid
      exact hkind ((s.changed.get? id).getD {}).resolutionKind hchanged
    · exact .inl hchanged

variable {s s' : IncidentSession} {organizationId actor : String} {now : Instant}

variable {committed : Incidents}

theorem closesOnly_acknowledge
    (h : acknowledge s committed organizationId id actor now = .ok s') :
    ClosesOnly ids s s' := by
  obtain ⟨row, -, hrest⟩ := bind_eq_ok.mp h
  obtain ⟨-, hrest⟩ := check_bind_eq_ok.mp hrest
  split at hrest
  · cases hrest
    exact ClosesOnly.load ids s id row
  · cases hrest
    exact ClosesOnly.assign s id row fun hkind => by cases hkind

theorem closesOnly_resolve {kind note : String}
    (h : resolve s committed organizationId id actor kind note now = .ok s') :
    ClosesOnly (fun id' => id' = id ∧ kind = "observation" ∧
      s.closesNow committed organizationId id = true) s s' := by
  obtain ⟨-, h⟩ := check_bind_eq_ok.mp h
  obtain ⟨-, h⟩ := check_bind_eq_ok.mp h
  obtain ⟨row, hget, hrest⟩ := bind_eq_ok.mp h
  split at hrest
  · cases hrest
    exact ClosesOnly.load _ s id row
  · rename_i hopen
    cases hrest
    refine ClosesOnly.assign s id row fun hkind => ⟨rfl, Option.some.inj hkind, ?_⟩
    unfold closesNow
    rw [hget]
    exact decide_eq_true hopen

theorem openIncident_spec (s : IncidentSession) (committed : Incidents) (drawn : IncidentId)
    (request : OpenRequest) :
    (∃ seen, (s.view committed).get?
          (openIncident s committed drawn request).2.1 = some seen ∧
        seen.key = request.key ∧
        ClosesOnly (fun _ => False) s (openIncident s committed drawn request).1) ∨
      ((openIncident s committed drawn request).2.1 = drawn ∧
        (openIncident s committed drawn request).1 =
          { s with added := s.added.set drawn request.incident }) := by
  unfold openIncident
  cases hopen : openFor s committed request.key with
  | some found =>
    left
    obtain ⟨id, existing⟩ := found
    obtain ⟨seen, hseen, htest, -⟩ := selectFirst_eq_some hopen
    refine ⟨seen, hseen, (of_decide_eq_true htest).1, ?_⟩
    exact ClosesOnly.assign s id existing fun hkind => by cases hkind
  | none => exact .inr ⟨rfl, rfl⟩

namespace ComplianceSystem

def initial : ComplianceSystem where
  vision := Manager.new
  readings := 0
  read := fun _ => Manager.new
  db := IncidentSystem.initial
  passes := fun _ => {}
  keys := fun _ => none
  raised := fun _ => []
  closedBy := fun _ => none

def setPass (s : ComplianceSystem) (worker : Nat) (p : PassAtWork) : ComplianceSystem :=
  { s with passes := fun k => if k = worker then p else s.passes k }

def drawn (keys : IncidentId → Option IncidentKey) (supply : IncidentId) (key : IncidentKey) :
    IncidentId → Option IncidentKey :=
  fun id => if id = supply then some key else keys id

def applyViolation (s : ComplianceSystem) (worker : Nat) (request : OpenRequest) (judged : Judged)
    (rest : List Judged) : ComplianceSystem :=
  let p := s.passes worker
  let opened := openIncident (s.db.workers worker).session s.db.committed
    s.db.supply request
  { s.setPass worker
      { p with findings := rest, raised := p.raised ++ [(opened.2.1, judged)] } with
    db := s.db.step (.violationFinding worker request)
    keys := drawn s.keys s.db.supply request.key }

def applyCompliant (s : ComplianceSystem) (worker : Nat) (key : IncidentKey) (judged : Judged)
    (rest : List Judged) : ComplianceSystem :=
  { s.setPass worker { s.passes worker with findings := rest, selected := some judged } with
    db := s.db.step (.compliantFinding worker key) }

def applyNext (s : ComplianceSystem) (worker : Nat) (ctx : DriverContext) : ComplianceSystem :=
  match (s.db.workers worker).closing, (s.passes worker).findings with
  | none, judged :: rest =>
    if judged.finding.severity ∉ raisesIncidents then
      s.setPass worker { s.passes worker with findings := rest }
    else
      match judged.finding.state with
      | .violation =>
        match ctx.openRequest judged.finding with
        | .error _ => s.setPass worker { s.passes worker with findings := rest }
        | .ok (request, wire) =>
          -- a new incident whose finding cannot be written out is not added
          if openFor (s.db.workers worker).session s.db.committed request.key = none ∧
              (findingSnapshot ctx.capture.py wire).isOk = false then
            s.setPass worker { s.passes worker with findings := rest }
          else s.applyViolation worker request judged rest
      | .compliant => s.applyCompliant worker (ctx.keyOf judged.finding) judged rest
      | .unknown | .notApplicable => s.setPass worker { s.passes worker with findings := rest }
  | _, _ => s

def giveUp (s : ComplianceSystem) (worker : Nat) : ComplianceSystem :=
  match (s.db.workers worker).closing with
  | some _ => { s with db := s.db.setWorker worker { s.db.workers worker with closing := none } }
  | none =>
    s.setPass worker { s.passes worker with findings := (s.passes worker).findings.drop 1 }

def closingNow (s : ComplianceSystem) (worker : Nat) : List (IncidentId × Judged) :=
  match (s.db.workers worker).closing, (s.passes worker).selected with
  | some (organizationId, id), some judged =>
    if (s.db.workers worker).session.closesNow s.db.committed organizationId id = true then
      [(id, judged)]
    else []
  | _, _ => []

def closing (s : ComplianceSystem) (worker : Nat) (id : IncidentId) : Option Judged :=
  (findingsOf id (s.passes worker).closed).getLast? <|> s.closedBy id

def violations (s : ComplianceSystem) (worker : Nat) (id : IncidentId) : List Judged :=
  s.raised id ++ findingsOf id (s.passes worker).raised

variable (driver : ComplianceDriver) (config : StateSection)

def step (s : ComplianceSystem) : ComplianceEvent → ComplianceSystem
  | .observes at_ observations => { s with vision := (s.vision.append config at_ observations).2 }
  | .judges worker r =>
    match (driver.reading s.vision r).judge r.cameras.keys r.now r.now' with
    | .error _ => s
    | .ok findings =>
      { s.setPass worker { s.passes worker with findings := findings.map (⟨s.readings, ·⟩) } with
        readings := s.readings + 1
        read := fun i => if i = s.readings then s.vision else s.read i }
  | .applies worker ctx => s.applyNext worker ctx
  | .givesUp worker => s.giveUp worker
  | .closes worker now =>
    { s.setPass worker
        { s.passes worker with closed := (s.passes worker).closed ++ s.closingNow worker } with
      db := s.db.step (.closeSelected worker now) }
  | .acknowledges worker organizationId id actor now =>
    { s with db := s.db.step (.acknowledge worker organizationId id actor now) }
  | .resolves worker organizationId id actor note now =>
    { s with db := s.db.step (.resolve worker organizationId id actor "operator" note now) }
  | .commits worker =>
    { s.setPass worker {} with
      db := s.db.step (.commit worker)
      raised := s.violations worker
      closedBy := s.closing worker }
  | .rollsBack worker => { s.setPass worker {} with db := s.db.step (.rollback worker) }

/-- Whatever is resolved by observation was closed by a compliant finding that rests on later
    values than every violation that opened or updated it. -/
def ClosesLater (s : ComplianceSystem) : Prop :=
  ∀ id row, s.db.committed.get? id = some row → row.status = .resolved →
    row.resolutionKind = some "observation" →
      ∃ closing, s.closedBy id = some closing ∧
        ∀ violation ∈ s.raised id, RestsOnLater closing.finding violation.finding

/-- What is appended fits the partitions, and says of an attribute at an instant what all the
    observations say. -/
def Consistent (values : CameraValues) (s : ComplianceSystem) : ComplianceEvent → Prop
  | .observes _ observations => s.vision.Fits config observations ∧
      ∀ o ∈ observations, Agrees (values o.cameraId) o
  | _ => True

/-- A session that commits leaves no incident resolved by a finding judged on a reading no later
    than that of a violation which opened or updated the incident. -/
def InOrder (s : ComplianceSystem) : ComplianceEvent → Prop
  | .commits worker =>
    ∀ id row, ((s.db.workers worker).session.view s.db.committed).get? id = some row →
      row.status = .resolved → row.resolutionKind = some "observation" →
        ∀ closing, s.closing worker id = some closing →
          ∀ violation ∈ s.violations worker id, violation.reading < closing.reading
  | _ => True


/-! ## What is known of the findings recorded -/

def WasJudged (s : ComplianceSystem) (j : Judged) : Prop :=
  j.reading < s.readings ∧ driver.JudgedOn (s.read j.reading) j.finding

structure RecordedFor (keys : IncidentId → Option IncidentKey) (judged : Judged → Prop)
    (state : ComplianceState) (id : IncidentId) (j : Judged) : Prop where
  judged : judged j
  state : j.finding.state = state
  about : ∃ key, keys id = some key ∧ key.cameraKey = j.finding.subject.cameraId ∧
    key.objectId = j.finding.subject.objectId ∧ key.ruleId = j.finding.ruleId

structure TableTracked (keys : IncidentId → Option IncidentKey) (judged : Judged → Prop)
    (committed : Incidents) (supply : IncidentId) (raised : IncidentId → List Judged)
    (closedBy : IncidentId → Option Judged) : Prop where
  fresh : ∀ id, supply ≤ id → keys id = none
  key : ∀ id row, committed.get? id = some row → keys id = some row.key
  closed : ∀ id row, committed.get? id = some row →
    row.resolutionKind = some "observation" → (closedBy id).isSome = true
  raised : ∀ id, ∀ j ∈ raised id, RecordedFor keys judged .violation id j
  closedBy : ∀ id j, closedBy id = some j → RecordedFor keys judged .compliant id j

structure WorkerTracked (keys : IncidentId → Option IncidentKey) (judged : Judged → Prop)
    (w : Worker) (p : PassAtWork) : Prop where
  key : ∀ id row, w.session.added.get? id = some row → keys id = some row.key
  added : ∀ id row, w.session.added.get? id = some row →
    row.resolutionKind = some "observation" → ∃ j, (id, j) ∈ p.closed
  changed : ∀ id, (w.session.changesTo id).resolutionKind = some "observation" →
    ∃ j, (id, j) ∈ p.closed
  selected : ∀ organizationId id, w.closing = some (organizationId, id) →
    ∃ j, p.selected = some j ∧ RecordedFor keys judged .compliant id j
  findings : ∀ j ∈ p.findings, judged j
  raised : ∀ e ∈ p.raised, RecordedFor keys judged .violation e.1 e.2
  closed : ∀ e ∈ p.closed, RecordedFor keys judged .compliant e.1 e.2

def Tracked (s : ComplianceSystem) : Prop :=
  TableTracked s.keys (WasJudged driver s) s.db.committed s.db.supply s.raised s.closedBy ∧
    ∀ k, WorkerTracked s.keys (WasJudged driver s) (s.db.workers k) (s.passes k)

section Tracking

variable {keys keys' : IncidentId → Option IncidentKey} {judged judged' : Judged → Prop}
  {w : Worker} {p : PassAtWork} {id : IncidentId} {j : Judged} {state : ComplianceState}

theorem RecordedFor.mono (h : RecordedFor keys judged state id j)
    (hkeys : ∀ id key, keys id = some key → keys' id = some key)
    (hjudged : ∀ j, judged j → judged' j) : RecordedFor keys' judged' state id j := by
  obtain ⟨key, hkey, hcamera, hobject, hrule⟩ := h.about
  exact ⟨hjudged j h.judged, h.state, key, hkeys id key hkey, hcamera, hobject, hrule⟩

theorem WorkerTracked.mono (h : WorkerTracked keys judged w p)
    (hkeys : ∀ id key, keys id = some key → keys' id = some key)
    (hjudged : ∀ j, judged j → judged' j) : WorkerTracked keys' judged' w p where
  key := fun id row hget => hkeys id row.key (h.key id row hget)
  added := h.added
  changed := h.changed
  selected := by
    intro organizationId id hclosing
    obtain ⟨j, hj, hrecorded⟩ := h.selected organizationId id hclosing
    exact ⟨j, hj, hrecorded.mono hkeys hjudged⟩
  findings := fun j hj => hjudged j (h.findings j hj)
  raised := fun e he => (h.raised e he).mono hkeys hjudged
  closed := fun e he => (h.closed e he).mono hkeys hjudged

theorem WorkerTracked.idle (keys : IncidentId → Option IncidentKey) (judged : Judged → Prop) :
    WorkerTracked keys judged {} {} where
  key := fun _ _ h => by cases h
  added := fun _ _ h => by cases h
  changed := fun _ h => by cases h
  selected := fun _ _ h => by cases h
  findings := fun _ h => by cases h
  raised := fun _ h => by cases h
  closed := fun _ h => by cases h

variable {ids : IncidentId → Prop}

theorem WorkerTracked.call (h : WorkerTracked keys judged w p)
    {session : IncidentSession} (hcall : ClosesOnly ids w.session session)
    {closing : Option (String × IncidentId)} {p' : PassAtWork}
    (hclosed : ∀ id j, (id, j) ∈ p.closed → (id, j) ∈ p'.closed)
    (hids : ∀ id, ids id → ∃ j, (id, j) ∈ p'.closed)
    (hselected : ∀ organizationId id, closing = some (organizationId, id) →
      ∃ j, p'.selected = some j ∧ RecordedFor keys judged .compliant id j)
    (hfindings : ∀ j ∈ p'.findings, judged j)
    (hraised : ∀ e ∈ p'.raised, RecordedFor keys judged .violation e.1 e.2)
    (hnew : ∀ e ∈ p'.closed, RecordedFor keys judged .compliant e.1 e.2) :
    WorkerTracked keys judged { session, closing } p' where
  key := by
    intro id row hget
    obtain ⟨before, hbefore, hkey, -⟩ := hcall.added id row hget
    rw [hkey]
    exact h.key id before hbefore
  added := by
    intro id row hget hkind
    obtain ⟨before, hbefore, -, hclosing⟩ := hcall.added id row hget
    rcases hclosing hkind with hwas | hid
    · obtain ⟨j, hj⟩ := h.added id before hbefore hwas
      exact ⟨j, hclosed id j hj⟩
    · exact hids id hid
  changed := by
    intro id hkind
    rcases hcall.changed id hkind with hwas | hid
    · obtain ⟨j, hj⟩ := h.changed id hwas
      exact ⟨j, hclosed id j hj⟩
    · exact hids id hid
  selected := hselected
  findings := hfindings
  raised := hraised
  closed := hnew

theorem WorkerTracked.afterCall (h : WorkerTracked keys judged w p)
    {result : Raises IncidentSession}
    (hcall : ∀ session, result = .ok session → ClosesOnly ids w.session session)
    {closed : List (IncidentId × Judged)} (hids : ∀ id, ids id → ∃ j, (id, j) ∈ p.closed ++ closed)
    (hnew : ∀ e ∈ closed, RecordedFor keys judged .compliant e.1 e.2)
    {closing : Option (String × IncidentId)} (hclosing : closing = none ∨ closing = w.closing) :
    WorkerTracked keys judged (afterCall { w with closing } result)
      { p with closed := p.closed ++ closed } := by
  have hany : ∀ session, ClosesOnly ids w.session session →
      WorkerTracked keys judged { session, closing } { p with closed := p.closed ++ closed } := by
    intro session hsession
    refine h.call hsession (fun id j hj => mem_append_left _ hj) hids ?_ h.findings h.raised ?_
    · intro organizationId id hsome
      rcases hclosing with hnone | hsame
      · rw [hnone] at hsome
        cases hsome
      · exact h.selected organizationId id (hsame ▸ hsome)
    · intro e he
      rcases mem_append.mp he with he | he
      · exact h.closed e he
      · exact hnew e he
  cases result with
  | error exc => exact hany w.session (ClosesOnly.refl ids w.session)
  | ok session => exact hany session (hcall session rfl)

theorem workers_put {db : IncidentSystem} {passes : Nat → PassAtWork}
    (h : ∀ k, WorkerTracked keys judged (db.workers k) (passes k)) {worker : Nat}
    (hw : WorkerTracked keys judged w p) (k : Nat) :
    WorkerTracked keys judged ((db.setWorker worker w).workers k)
      (if k = worker then p else passes k) := by
  unfold setWorker
  dsimp only
  by_cases hk : k = worker
  · rw [if_pos hk, if_pos hk]
    exact hw
  · rw [if_neg hk, if_neg hk]
    exact h k

theorem TableTracked.key_of_view {supply : IncidentId}
    {raised : IncidentId → List Judged} {closedBy : IncidentId → Option Judged}
    (ht : TableTracked keys judged committed supply raised closedBy)
    (hw : WorkerTracked keys judged w p) {row : Incident}
    (h : (w.session.view committed).get? id = some row) : keys id = some row.key := by
  rcases (get?_view _ _ _ _).mp h with hadded | ⟨-, before, hbefore, rfl⟩
  · exact hw.key id row hadded
  · exact ht.key id before hbefore

end Tracking

/-! ## Every step keeps track -/

section Steps

variable {driver config} {s : ComplianceSystem}

variable {worker : Nat}

variable {w : Worker} {p : PassAtWork}

theorem Tracked.put (h : s.Tracked driver) (hw : WorkerTracked s.keys (WasJudged driver s) w p) :
    Tracked driver { s.setPass worker p with db := s.db.setWorker worker w } :=
  ⟨h.1, fun k => workers_put h.2 hw k⟩

theorem Tracked.putPass (h : s.Tracked driver)
    (hw : WorkerTracked s.keys (WasJudged driver s) (s.db.workers worker) p) :
    Tracked driver (s.setPass worker p) := by
  refine ⟨h.1, fun k => ?_⟩
  unfold setPass
  dsimp only
  by_cases hk : k = worker
  · rw [if_pos hk, hk]
    exact hw
  · rw [if_neg hk]
    exact h.2 k

variable {judged : Judged → Prop} {keys : IncidentId → Option IncidentKey}

theorem WorkerTracked.rest
    (h : WorkerTracked keys judged w p) {rest : List Judged}
    (hrest : rest ⊆ p.findings) : WorkerTracked keys judged w { p with findings := rest } :=
  ⟨h.key, h.added, h.changed, h.selected, fun j hj => h.findings j (hrest hj), h.raised, h.closed⟩

variable {j : Judged}

theorem recordedFor_of_key
    (ctx : DriverContext) (hjudged : judged j)
    (hkey : keys id = some (ctx.keyOf j.finding)) :
    RecordedFor keys judged j.finding.state id j :=
  ⟨hjudged, rfl, ctx.keyOf j.finding, hkey, rfl, rfl, rfl⟩

theorem Tracked.applyViolation (h : s.Tracked driver) (ctx : DriverContext) {rest : List Judged}
    {request : OpenRequest} (hrequest : request.key = ctx.keyOf j.finding)
    (hfindings : (s.passes worker).findings = j :: rest)
    (hstate : j.finding.state = .violation) :
    Tracked driver (s.applyViolation worker request j rest) := by
  obtain ⟨ht, hworkers⟩ := h
  have hw := hworkers worker
  have hj : WasJudged driver s j := hw.findings j (hfindings ▸ mem_cons_self)
  have hext : ∀ id key, s.keys id = some key →
      drawn s.keys s.db.supply request.key id = some key := by
    intro id key hkey
    unfold drawn
    rw [if_neg, hkey]
    rintro rfl
    rw [ht.fresh _ (le_refl _)] at hkey
    cases hkey
  have hrest : rest ⊆ (s.passes worker).findings := by
    rw [hfindings]
    exact subset_cons_self j rest
  constructor
  · constructor
    · intro id hid
      have hnew : s.db.supply < id := hid
      show drawn s.keys s.db.supply _ id = none
      unfold drawn
      rw [if_neg (Nat.ne_of_gt hnew)]
      exact ht.fresh id hnew.le
    · exact fun id row hget => hext id row.key (ht.key id row hget)
    · exact ht.closed
    · exact fun id j hmem => (ht.raised id j hmem).mono hext fun _ hj => hj
    · exact fun id j hsome => (ht.closedBy id j hsome).mono hext fun _ hj => hj
  · have hopened := openIncident_spec (s.db.workers worker).session s.db.committed s.db.supply
      request
    -- the finding is recorded for an incident that is about its key
    have hentry : RecordedFor (drawn s.keys s.db.supply request.key)
        (WasJudged driver s) .violation
        (openIncident (s.db.workers worker).session s.db.committed s.db.supply
          request).2.1 j := by
      rw [← hstate]
      refine recordedFor_of_key ctx hj ?_
      rcases hopened with ⟨seen, hseen, hkey, -⟩ | ⟨hdrawn, -⟩
      · refine hext _ _ ?_
        rw [ht.key_of_view hw hseen, hkey, hrequest]
      · rw [hdrawn, ← hrequest]
        exact if_pos rfl
    have hraised : ∀ e ∈ (s.passes worker).raised ++
        [((openIncident (s.db.workers worker).session s.db.committed s.db.supply
          request).2.1, j)],
        RecordedFor (drawn s.keys s.db.supply request.key)
          (WasJudged driver s) .violation e.1 e.2 := by
      intro e he
      rcases mem_append.mp he with he | he
      · exact (hw.raised e he).mono hext fun _ hj => hj
      · rw [mem_singleton.mp he]
        exact hentry
    have hmono := (hw.rest hrest).mono hext fun _ hj => hj
    refine fun k => workers_put (fun k => (hworkers k).mono hext fun _ hj => hj) ?_ k
    rcases hopened with ⟨-, -, -, hcall⟩ | ⟨-, hsession⟩
    · exact hmono.call hcall (fun _ _ hj => hj) (fun _ hno => hno.elim) hmono.selected
        hmono.findings hraised hmono.closed
    rw [hsession]
    refine ⟨fun id row hget => ?_, fun id row hget hkind => ?_, hmono.changed, hmono.selected,
      hmono.findings, hraised, hmono.closed⟩
    · rcases get?_of_set hget with ⟨hid, rfl⟩ | ⟨-, hget⟩
      · exact if_pos hid.symm
      · exact hmono.key id row hget
    · rcases get?_of_set hget with ⟨-, rfl⟩ | ⟨-, hget⟩
      · cases hkind
      · exact hmono.added id row hget hkind

theorem Tracked.applyCompliant (h : s.Tracked driver) (ctx : DriverContext) {rest : List Judged}
    (hfindings : (s.passes worker).findings = j :: rest)
    (hnone : (s.db.workers worker).closing = none) (hstate : j.finding.state = .compliant) :
    Tracked driver (s.applyCompliant worker (ctx.keyOf j.finding) j rest) := by
  have hw := h.2 worker
  have hj : WasJudged driver s j := hw.findings j (hfindings ▸ mem_cons_self)
  have hrest : rest ⊆ (s.passes worker).findings := by
    rw [hfindings]
    exact subset_cons_self j rest
  unfold ComplianceSystem.applyCompliant
  cases hopen : openFor (s.db.workers worker).session s.db.committed
      (ctx.keyOf j.finding) with
  | none =>
    have hsame : s.db.step (.compliantFinding worker (ctx.keyOf j.finding)) = s.db := by
      unfold IncidentSystem.step
      dsimp only
      rw [hopen]
    rw [hsame]
    refine h.putPass ⟨hw.key, hw.added, hw.changed, fun organizationId id hsome => ?_,
      fun j hj => hw.findings j (hrest hj), hw.raised, hw.closed⟩
    rw [hnone] at hsome
    cases hsome
  | some found =>
    obtain ⟨id, incident⟩ := found
    have hstep : s.db.step (.compliantFinding worker (ctx.keyOf j.finding)) =
        s.db.setWorker worker
          { session := (s.db.workers worker).session.load id incident,
            closing := some ((ctx.keyOf j.finding).organizationId, id) } := by
      unfold IncidentSystem.step
      dsimp only
      rw [hopen]
    obtain ⟨seen, hseen, htest, -⟩ := selectFirst_eq_some hopen
    have hkey : s.keys id = some (ctx.keyOf j.finding) := by
      rw [h.1.key_of_view hw hseen, (of_decide_eq_true htest).1]
    rw [hstep]
    refine h.put (hw.call (ClosesOnly.load (fun _ => False) _ id incident) (fun _ _ hj => hj)
      (fun _ hno => hno.elim) (fun organizationId id' hsome => ?_)
      (fun j hj => hw.findings j (hrest hj)) hw.raised hw.closed)
    cases hsome
    refine ⟨j, rfl, ?_⟩
    rw [← hstate]
    exact recordedFor_of_key ctx hj hkey

theorem Tracked.applyNext (h : s.Tracked driver) (worker : Nat) (ctx : DriverContext) :
    Tracked driver (s.applyNext worker ctx) := by
  unfold ComplianceSystem.applyNext
  split
  · rename_i j rest hnone hfindings
    have hrest : rest ⊆ (s.passes worker).findings := by
      rw [hfindings]
      exact subset_cons_self j rest
    split
    · exact h.putPass ((h.2 worker).rest hrest)
    · cases hstate : j.finding.state with
      | violation =>
        rcases hrequest : ctx.openRequest j.finding with exc | ⟨request, wire⟩
        · exact h.putPass ((h.2 worker).rest hrest)
        · dsimp only
          split
          · exact h.putPass ((h.2 worker).rest hrest)
          · exact h.applyViolation ctx (DriverContext.key_of_openRequest hrequest) hfindings hstate
      | compliant => exact h.applyCompliant ctx hfindings hnone hstate
      | unknown => exact h.putPass ((h.2 worker).rest hrest)
      | notApplicable => exact h.putPass ((h.2 worker).rest hrest)
  · exact h

theorem Tracked.putSession (h : s.Tracked driver)
    (hw : WorkerTracked s.keys (WasJudged driver s) w (s.passes worker)) :
    Tracked driver { s with db := s.db.setWorker worker w } := by
  refine ⟨h.1, fun k => ?_⟩
  have hk : WorkerTracked s.keys (WasJudged driver s) ((s.db.setWorker worker w).workers k)
      (if k = worker then s.passes worker else s.passes k) := workers_put h.2 hw k
  split at hk
  · rename_i heq
    rw [heq] at hk ⊢
    exact hk
  · exact hk

theorem Tracked.giveUp (h : s.Tracked driver) (worker : Nat) :
    Tracked driver (s.giveUp worker) := by
  have hw := h.2 worker
  unfold ComplianceSystem.giveUp
  split
  · exact h.putSession ⟨hw.key, hw.added, hw.changed, (fun _ _ hsome => by cases hsome),
      hw.findings, hw.raised, hw.closed⟩
  · exact h.putPass (hw.rest (drop_subset 1 _))

theorem Tracked.closes (h : s.Tracked driver) (worker : Nat) (now : Instant) :
    Tracked driver (s.step driver config (.closes worker now)) := by
  have hw := h.2 worker
  cases hclosing : (s.db.workers worker).closing with
  | none =>
    have hstep : s.step driver config (.closes worker now) =
        s.setPass worker { s.passes worker with closed := (s.passes worker).closed ++ [] } := by
      unfold step IncidentSystem.step closingNow
      dsimp only
      rw [hclosing]
      rfl
    rw [hstep, append_nil]
    exact h.putPass hw
  | some selected =>
    obtain ⟨organizationId, id⟩ := selected
    obtain ⟨j, hj, hrecorded⟩ := hw.selected organizationId id hclosing
    have hstep : s.step driver config (.closes worker now) =
        { s.setPass worker
            { s.passes worker with closed := (s.passes worker).closed ++ s.closingNow worker } with
          db := s.db.setWorker worker (afterCall
            { s.db.workers worker with closing := none }
            (resolve (s.db.workers worker).session s.db.committed organizationId id
              "vision-os" "observation" observedNote now)) } := by
      unfold step IncidentSystem.step
      dsimp only
      rw [hclosing]
    have hnow : s.closingNow worker =
        if (s.db.workers worker).session.closesNow s.db.committed organizationId id = true then
          [(id, j)] else [] := by
      unfold closingNow
      rw [hclosing, hj]
    rw [hstep]
    refine h.put (hw.afterCall (fun session hok => closesOnly_resolve hok) ?_ ?_ (.inl rfl))
    · rintro id' ⟨rfl, -, hcloses⟩
      refine ⟨j, mem_append_right _ ?_⟩
      rw [hnow, if_pos hcloses]
      exact mem_singleton.mpr rfl
    · intro e he
      rw [hnow] at he
      split at he
      · rw [mem_singleton.mp he]
        exact hrecorded
      · cases he

theorem Tracked.operator (h : s.Tracked driver) {result : Raises IncidentSession}
    (hcall : ∀ session, result = .ok session →
      ClosesOnly (fun _ => False) (s.db.workers worker).session session) :
    Tracked driver { s with
      db := s.db.setWorker worker (afterCall (s.db.workers worker) result) } := by
  refine h.putSession ?_
  have hafter : WorkerTracked s.keys (WasJudged driver s)
      (afterCall (s.db.workers worker) result)
      { s.passes worker with closed := (s.passes worker).closed ++ [] } :=
    (h.2 worker).afterCall hcall (fun _ hno => hno.elim) (fun _ he => by cases he) (.inr rfl)
  rw [append_nil] at hafter
  exact hafter

theorem Tracked.commits (h : s.Tracked driver) (worker : Nat) :
    Tracked driver (s.step driver config (.commits worker)) := by
  obtain ⟨ht, hworkers⟩ := h
  have hw := hworkers worker
  refine ⟨⟨ht.fresh, fun id row hget => ht.key_of_view hw hget, fun id row hget hkind => ?_,
    fun id j hj => ?_, fun id j hj => ?_⟩, workers_put hworkers (WorkerTracked.idle _ _)⟩
  · have hlast : ∀ j, (id, j) ∈ (s.passes worker).closed →
        (s.closing worker id).isSome = true := by
      intro j hj
      have hne : findingsOf id (s.passes worker).closed ≠ [] :=
        ne_nil_of_mem (mem_findingsOf.mpr hj)
      unfold closing
      rw [getLast?_eq_some_getLast hne]
      rfl
    show (s.closing worker id).isSome = true
    rcases (get?_view _ _ id row).mp hget with hadded | ⟨-, before, hbefore, rfl⟩
    · obtain ⟨j, hj⟩ := hw.added id row hadded hkind
      exact hlast j hj
    -- the resolution is the session's, or it was committed
    have hkind' : (((s.db.workers worker).session.changesTo id).resolutionKind <|>
        before.resolutionKind) = some "observation" := hkind
    cases hchanged : ((s.db.workers worker).session.changesTo id).resolutionKind with
    | some kind =>
      rw [hchanged] at hkind'
      obtain ⟨j, hj⟩ := hw.changed id (hchanged.trans hkind')
      exact hlast j hj
    | none =>
      rw [hchanged] at hkind'
      have hwas := ht.closed id before hbefore hkind'
      unfold closing
      cases (findingsOf id (s.passes worker).closed).getLast? with
      | some j => rfl
      | none => exact hwas
  · rcases mem_append.mp hj with hj | hj
    · exact ht.raised id j hj
    · exact hw.raised (id, j) (mem_findingsOf.mp hj)
  · have hj' : s.closing worker id = some j := hj
    unfold closing at hj'
    cases hlast : (findingsOf id (s.passes worker).closed).getLast? with
    | some last =>
      rw [hlast] at hj'
      cases hj'
      exact hw.closed (id, j) (mem_findingsOf.mp (mem_of_getLast? hlast))
    | none =>
      rw [hlast] at hj'
      exact ht.closedBy id j hj'

theorem Tracked.judges (h : s.Tracked driver) (hinv : ManagerInv s.vision) (worker : Nat)
    (r : Reading) : Tracked driver (s.step driver config (.judges worker r)) := by
  unfold step
  dsimp only
  split
  · exact h
  rename_i findings hjudge
  have hjudged : ∀ j, WasJudged driver s j → WasJudged driver
      { s.setPass worker { s.passes worker with findings := findings.map (⟨s.readings, ·⟩) } with
        readings := s.readings + 1
        read := fun i => if i = s.readings then s.vision else s.read i } j := by
    rintro j ⟨hlt, hon⟩
    refine ⟨Nat.lt_succ_of_lt hlt, ?_⟩
    show driver.JudgedOn (if j.reading = s.readings then s.vision else s.read j.reading) j.finding
    rw [if_neg (Nat.ne_of_lt hlt)]
    exact hon
  obtain ⟨ht, hworkers⟩ := h
  refine ⟨⟨ht.fresh, ht.key, ht.closed,
    fun id j hj => (ht.raised id j hj).mono (fun _ _ hkey => hkey) hjudged,
    fun id j hj => (ht.closedBy id j hj).mono (fun _ _ hkey => hkey) hjudged⟩, fun k => ?_⟩
  have hk := (hworkers k).mono (fun _ _ hkey => hkey) hjudged
  unfold setPass
  dsimp only
  by_cases heq : k = worker
  · rw [if_pos heq]
    subst heq
    refine ⟨hk.key, hk.added, hk.changed, hk.selected, fun j hj => ?_, hk.raised, hk.closed⟩
    -- the findings of this reading
    obtain ⟨f, hf, rfl⟩ := mem_map.mp hj
    refine ⟨Nat.lt_succ_self _, ?_⟩
    show driver.JudgedOn (if s.readings = s.readings then s.vision else s.read s.readings) f
    rw [if_pos rfl]
    have hon : (driver.reading s.vision r).JudgedOn s.vision f :=
      ComplianceDriver.judgedOn_of_judge hinv r.cameras.nodupKeys hjudge hf
    exact hon
  · rw [if_neg heq]
    exact hk

theorem Tracked.step (h : s.Tracked driver) (hinv : ManagerInv s.vision) (event : ComplianceEvent) :
    Tracked driver (s.step driver config event) := by
  cases event with
  | observes at_ observations => exact h
  | judges worker r => exact h.judges hinv worker r
  | applies worker ctx => exact h.applyNext worker ctx
  | givesUp worker => exact h.giveUp worker
  | closes worker now => exact h.closes worker now
  | acknowledges worker organizationId id actor now =>
    exact h.operator fun session hok => closesOnly_acknowledge hok
  | resolves worker organizationId id actor note now =>
    refine h.operator fun session hok => (closesOnly_resolve hok).mono fun _ hno => ?_
    exact absurd hno.2.1 (by decide)
  | commits worker => exact h.commits worker
  | rollsBack worker =>
    exact ⟨h.1, workers_put h.2 (WorkerTracked.idle _ _)⟩

end Steps

end ComplianceSystem

end VisionOs.App
