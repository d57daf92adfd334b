/-
  `IncidentService` over one database session.  A row it has loaded keeps the attributes it was
  loaded with, whatever other sessions commit; its changes reach the table at its commit, column
  by column.
-/
import VisionOs.Core.Ids
import VisionOs.Lib.OrderedDict

namespace VisionOs.App

open Core Lib OrderedDict Option List

inductive IncidentStatus where
  | active | acknowledged | resolved
  deriving DecidableEq, Repr

/-- `uuid4().hex`: the ids that are drawn never repeat, so they are numbered. -/
abbrev IncidentId := Nat

structure IncidentKey where
  organizationId : String
  cameraKey : CameraId
  objectId : ObjectId
  ruleId : String
  deriving DecidableEq, Repr

/-- A row of `incidents`.  The columns that nothing here reads (the frozen finding, the zone,
    the creation time) are left out. -/
structure Incident where
  key : IncidentKey
  restaurantId : Option String
  trackId : ObjectId
  rulesetVersion : String
  severity : String
  summary : String
  status : IncidentStatus
  observedAt : Instant
  acknowledgedAt : Option Instant := none
  acknowledgedBy : Option String := none
  resolvedAt : Option Instant := none
  resolvedBy : Option String := none
  resolutionKind : Option String := none
  resolutionNote : Option String := none
  evidenceRefs : String := ""
  deriving DecidableEq

def Incident.isOpen (i : Incident) : Bool := i.status ≠ .resolved

abbrev Incidents := OrderedDict IncidentId Incident

/-- The attributes of a loaded row that were assigned: the columns of its `UPDATE`. -/
structure IncidentChanges where
  status : Option IncidentStatus := none
  observedAt : Option Instant := none
  acknowledgedAt : Option Instant := none
  acknowledgedBy : Option String := none
  resolvedAt : Option Instant := none
  resolvedBy : Option String := none
  resolutionKind : Option String := none
  resolutionNote : Option String := none
  evidenceRefs : Option String := none
  deriving DecidableEq

namespace IncidentChanges

def apply (c : IncidentChanges) (i : Incident) : Incident :=
  { i with
    status := c.status.getD i.status
    observedAt := c.observedAt.getD i.observedAt
    acknowledgedAt := c.acknowledgedAt <|> i.acknowledgedAt
    acknowledgedBy := c.acknowledgedBy <|> i.acknowledgedBy
    resolvedAt := c.resolvedAt <|> i.resolvedAt
    resolvedBy := c.resolvedBy <|> i.resolvedBy
    resolutionKind := c.resolutionKind <|> i.resolutionKind
    resolutionNote := c.resolutionNote <|> i.resolutionNote
    evidenceRefs := c.evidenceRefs.getD i.evidenceRefs }

def «over» (later earlier : IncidentChanges) : IncidentChanges where
  status := later.status <|> earlier.status
  observedAt := later.observedAt <|> earlier.observedAt
  acknowledgedAt := later.acknowledgedAt <|> earlier.acknowledgedAt
  acknowledgedBy := later.acknowledgedBy <|> earlier.acknowledgedBy
  resolvedAt := later.resolvedAt <|> earlier.resolvedAt
  resolvedBy := later.resolvedBy <|> earlier.resolvedBy
  resolutionKind := later.resolutionKind <|> earlier.resolutionKind
  resolutionNote := later.resolutionNote <|> earlier.resolutionNote
  evidenceRefs := later.evidenceRefs <|> earlier.evidenceRefs

@[simp] theorem apply_status (c : IncidentChanges) (i : Incident) :
    (c.apply i).status = c.status.getD i.status := rfl

end IncidentChanges

structure IncidentSession where
  added : Incidents := ∅
  loaded : Incidents := ∅
  changed : OrderedDict IncidentId IncidentChanges := ∅

namespace IncidentSession

def changesTo (s : IncidentSession) (id : IncidentId) : IncidentChanges :=
  (s.changed.get? id).getD {}

def view (s : IncidentSession) (committed : Incidents) : Incidents :=
  s.added.entries.foldl (fun rows e => rows.set e.1 e.2)
    ⟨committed.entries.map fun e => (e.1, (s.changesTo e.1).apply e.2), by
      rw [List.map_map]
      exact committed.nodupKeys⟩

/-- A row as the session holds it in memory, once a statement has returned it. -/
def held (s : IncidentSession) (id : IncidentId) (row : Incident) : Incident :=
  (s.added.get? id <|> s.loaded.get? id).getD row

/-- Assigning attributes of a row that a statement has returned. -/
def assign (s : IncidentSession) (id : IncidentId) (row : Incident) (changes : IncidentChanges) :
    IncidentSession :=
  if (s.added.get? id).isSome then
    { s with added := s.added.set id (changes.apply (s.held id row)) }
  else
    { s with
      loaded := s.loaded.set id (changes.apply (s.held id row))
      changed := s.changed.set id (changes.over (s.changesTo id)) }

def load (s : IncidentSession) (id : IncidentId) (row : Incident) : IncidentSession :=
  if (s.added.get? id).isSome then s
  else { s with loaded := s.loaded.set id (s.held id row) }

def selectFirst (s : IncidentSession) (committed : Incidents)
    (test : IncidentId → Incident → Bool) :
    Option (IncidentId × Incident) :=
  ((s.view committed).entries.find? fun e => test e.1 e.2).map fun e => (e.1, s.held e.1 e.2)

/-! ### What a statement sees and what an assignment leaves -/

theorem get?_view (s : IncidentSession) (committed : Incidents) (id : IncidentId) (row : Incident) :
    (s.view committed).get? id = some row ↔
      s.added.get? id = some row ∨
        (s.added.get? id = none ∧
          ∃ before, committed.get? id = some before ∧ row = (s.changesTo id).apply before) := by
  unfold view
  rw [get?_foldl_set s.added.nodupKeys, ← get?_eq_some_iff]
  have hmapped : ∀ row, OrderedDict.get? (⟨committed.entries.map fun e =>
      (e.1, (s.changesTo e.1).apply e.2), by
        rw [List.map_map]
        exact committed.nodupKeys⟩ : Incidents) id = some row ↔
      ∃ before, committed.get? id = some before ∧ row = (s.changesTo id).apply before := by
    intro row
    rw [get?_eq_some_iff]
    constructor
    · intro hmem
      obtain ⟨e, he, heq⟩ := mem_map.mp hmem
      obtain ⟨hid, hrow⟩ := Prod.mk.inj heq
      subst hid
      exact ⟨e.2, get?_eq_some_iff.mpr he, hrow.symm⟩
    · rintro ⟨before, hbefore, rfl⟩
      exact mem_map.mpr ⟨(id, before), get?_eq_some_iff.mp hbefore, rfl⟩
  rw [hmapped row, get?_eq_none_iff]
  exact Iff.rfl

variable {s : IncidentSession} {id : IncidentId} {row : Incident}

variable {committed : Incidents} {test : IncidentId → Incident → Bool}

theorem selectFirst_eq_some
    (h : s.selectFirst committed test = some (id, row)) :
    ∃ seen, (s.view committed).get? id = some seen ∧ test id seen = true ∧ row = s.held id seen := by
  obtain ⟨e, hfind, heq⟩ := map_eq_some_iff.mp h
  obtain ⟨hid, hrow⟩ := Prod.mk.inj heq
  subst hid
  refine ⟨e.2, get?_eq_some_iff.mpr (mem_of_find?_eq_some hfind), ?_, hrow.symm⟩
  exact find?_some (p := fun e : IncidentId × Incident => test e.1 e.2) hfind

theorem selectFirst_eq_none
    (h : s.selectFirst committed test = none) (hrow : (s.view committed).get? id = some row) :
    test id row = false := by
  unfold selectFirst at h
  rw [map_eq_none_iff, find?_eq_none] at h
  exact Bool.eq_false_iff.mpr (h (id, row) (get?_eq_some_iff.mp hrow))

theorem held_of_added {row' : Incident} (h : s.added.get? id = some row) :
    s.held id row' = row := by
  unfold held
  rw [h]
  rfl

theorem added_assign (s : IncidentSession) (id id' : IncidentId) (row : Incident)
    (changes : IncidentChanges) : (s.assign id row changes).added.get? id' =
      (s.added.get? id').map fun r => if id = id' then changes.apply r else r := by
  unfold assign
  cases hadded : s.added.get? id with
  | none =>
    rw [if_neg (by simp)]
    cases h' : s.added.get? id' with
    | none => rfl
    | some r =>
      have hne : id ≠ id' := by
        intro heq
        rw [heq, h'] at hadded
        cases hadded
      rw [map_some, if_neg hne]
  | some r =>
    rw [if_pos (by rfl)]
    rw [get?_set, held_of_added hadded]
    by_cases heq : id = id'
    · rw [if_pos heq, ← heq, hadded, map_some, if_pos rfl]
    · rw [if_neg heq]
      cases s.added.get? id' with
      | none => rfl
      | some r' => rw [map_some, if_neg heq]

@[simp] theorem added_load (s : IncidentSession) (id : IncidentId) (row : Incident) :
    (s.load id row).added = s.added := by
  unfold load
  split <;> rfl

end IncidentSession

structure OpenRequest where
  key : IncidentKey
  observedAt : Instant
  severity : String := "medium"
  summary : String := ""
  rulesetVersion : String := ""
  restaurantId : Option String := none
  trackId : ObjectId := ""

def OpenRequest.incident (r : OpenRequest) : Incident where
  key := r.key
  restaurantId := r.restaurantId
  trackId := r.trackId
  rulesetVersion := r.rulesetVersion
  severity := r.severity
  summary := r.summary
  status := .active
  observedAt := r.observedAt

namespace IncidentService

open IncidentSession

def openFor (s : IncidentSession) (committed : Incidents) (key : IncidentKey) :
    Option (IncidentId × Incident) :=
  s.selectFirst committed fun _ i => i.key = key ∧ i.isOpen = true

/-- `get`: another organization's incident is not found. -/
def get (s : IncidentSession) (committed : Incidents) (organizationId : String)
    (id : IncidentId) : Raises Incident :=
  match s.selectFirst committed fun id' i =>
      id' = id ∧ i.key.organizationId = organizationId with
  | none => .error (.notFoundError "no such incident")
  | some (_, incident) => .ok incident

/-- `max(_aware(existing), _aware(observed))`. -/
def laterOf (a b : Instant) : Instant := if a.ns < b.ns then b else a

def openIncident (s : IncidentSession) (committed : Incidents) (drawn : IncidentId)
    (request : OpenRequest) : IncidentSession × IncidentId × Bool :=
  match openFor s committed request.key with
  | some (id, existing) =>
    (s.assign id existing
      { observedAt := some (laterOf existing.observedAt request.observedAt) }, id, false)
  | none => ({ s with added := s.added.set drawn request.incident }, drawn, true)

def acknowledge (s : IncidentSession) (committed : Incidents) (organizationId : String)
    (id : IncidentId) (actor : String) (now : Instant) : Raises IncidentSession := do
  let incident ← get s committed organizationId id
  require (incident.status ≠ .resolved)
    (.conflictError "a resolved incident cannot be acknowledged")
  if incident.status = .acknowledged then return s.load id incident
  return s.assign id incident
    { status := some .acknowledged, acknowledgedAt := some now, acknowledgedBy := some actor }

def close (s : IncidentSession) (committed : Incidents) (organizationId : String)
    (id : IncidentId) (actor kind note : String) (now : Instant) : Raises IncidentSession := do
  let incident ← get s committed organizationId id
  if incident.status = .resolved then return s.load id incident
  return s.assign id incident
    { status := some .resolved, resolvedAt := some now, resolvedBy := some actor,
      resolutionKind := some kind,
      resolutionNote := if note = "" then none else some (String.ofList (note.toList.take 2000)) }

/-- `resolve`: by observation or by an operator with a reason, and never otherwise. -/
def resolve (s : IncidentSession) (committed : Incidents) (organizationId : String)
    (id : IncidentId) (actor kind note : String) (now : Instant) : Raises IncidentSession := do
  require (kind = "observation" ∨ kind = "operator") (.validationError
    "an incident is resolved by a later grounded observation or by an authorised operator; nothing else closes one")
  require (¬ (kind = "operator" ∧ note.toList.all (·.isWhitespace) = true))
    (.validationError "an operator resolution must carry a reason")
  close s committed organizationId id actor kind note now

def observedNote : String := "a later observation showed the rule satisfied"

end IncidentService

end VisionOs.App
