/-
  `ComplianceDriver.apply`: one pass in one session and one transaction.  A row that is refused
  fails the next statement, every later one and the commit.
-/
import VisionOs.App.Capture
import VisionOs.App.FrozenFinding

namespace VisionOs.App

open Core Compliance Lib IncidentService

def raisesIncidents : List String := ["low", "medium", "high", "critical"]

structure CompliancePass where
  incidentsOpened : Nat := 0
  incidentsUpdated : Nat := 0
  incidentsResolved : Nat := 0
  errors : Nat := 0
  evidenceCaptured : Nat := 0
  notificationsSent : Nat := 0
  notificationsFailed : Nat := 0
  deriving DecidableEq, Repr

inductive Delivery where
  | delivered | refused | raised
  deriving DecidableEq, Repr

/-- `NotificationAudit`, and how many notices the channel was given. -/
structure NotificationAudit where
  sent : Nat := 0
  failed : Nat := 0
  suppressed : Nat := 0
  deriving DecidableEq, Repr

def NotificationAudit.notices (a : NotificationAudit) : Nat := a.sent + a.failed + a.suppressed

/-- What the application's tables and files hold.  Ids of incidents are drawn once. -/
structure Database where
  incidents : Incidents
  supply : IncidentId
  evidence : EvidenceStore
  drawn : ∀ id row, incidents.get? id = some row → id < supply

/-- The driver: what a capture meets, the restaurants of the cameras, how a finding reads (where
    its values can be printed), and the notification channel where there is a notifier: what it
    makes of each notice in turn. -/
structure DriverContext where
  capture : CaptureContext
  cameras : OrderedDict CameraId (Option String)
  describe : Finding → Raises String
  channel : Option (Nat → Delivery)

inductive FindingOutcome where
  | ignored
  | opened (id : IncidentId) (created : Bool)
  | openFailed (exc : PyException)
  | closed (id : Option IncidentId)
  | closeFailed (exc : PyException)

structure PassState where
  session : IncidentSession := {}
  supply : IncidentId
  files : Files
  added : List PutRequest := []
  poisoned : Bool := false
  run : CompliancePass := {}
  audit : NotificationAudit
  announced : List (IncidentId × IncidentKey) := []
  missed : List IncidentId := []

def observedAtOf (now : Instant) (finding : Finding) : Instant :=
  if 0 < finding.evaluatedAt.ns then
    match fromTimestamp finding.evaluatedAt.ns with
    | .ok at' => at'
    | .error _ => now
  else now

namespace DriverContext

variable (ctx : DriverContext)

def keyOf (finding : Finding) : IncidentKey where
  organizationId := ctx.capture.settings.defaultTenantId
  cameraKey := finding.subject.cameraId
  objectId := finding.subject.objectId
  ruleId := finding.ruleId

/-- The arguments of `service.open`: the row it asks for, and the finding to be frozen. -/
def openRequest (finding : Finding) : Raises (OpenRequest × List (String × PyValue)) := do
  let summary ← ctx.describe finding
  let wire ← findingWire ctx.capture.py finding
  return ({
    key := ctx.keyOf finding
    observedAt := observedAtOf ctx.capture.now finding
    severity := finding.severity
    summary
    rulesetVersion := finding.rulesetVersion
    restaurantId := (ctx.cameras.get? finding.subject.cameraId).join
    trackId := finding.subject.objectId }, wire)

def flush (db : Database) (st : PassState) : Raises Unit × PassState :=
  if st.poisoned = true then (.error (.pendingRollbackError ""), st)
  else if (st.added.map (·.key)).Nodup ∧
      ∀ r ∈ st.added, db.evidence.records.get? r.key = none then (.ok (), st)
  else (.error (.integrityError "uq_evidence_ref"), { st with poisoned := true })

def givenUp (st : PassState) : PassState :=
  { st with run := { st.run with errors := st.run.errors + 1 } }

def notify (finding : Finding) (id : IncidentId) (st : PassState) : PassState :=
  match ctx.channel with
  | none => st
  | some channel =>
    match channel st.audit.notices with
    | .delivered =>
      { st with
        run := { st.run with notificationsSent := st.run.notificationsSent + 1 }
        audit := { st.audit with sent := st.audit.sent + 1 }
        announced := st.announced ++ [(id, ctx.keyOf finding)] }
    | .refused =>
      { st with
        audit := { st.audit with suppressed := st.audit.suppressed + 1 }
        missed := st.missed ++ [id] }
    | .raised =>
      { st with
        audit := { st.audit with failed := st.audit.failed + 1 }
        missed := st.missed ++ [id] }

def citeEvidence (id : IncidentId) (incident : Incident) (captured : Captured) (st : PassState) :
    PassState :=
  let st := { st with files := captured.files, added := st.added ++ captured.added }
  if captured.ref = "" then st
  else
    { st with
      session := st.session.assign id incident { evidenceRefs := some captured.ref }
      run := { st.run with evidenceCaptured := st.run.evidenceCaptured + 1 } }

/-- What follows where `open` has made a new incident: the capture, and the notice. -/
def raiseNew (finding : Finding) (incident : Incident) (id : IncidentId) (st : PassState) :
    PassState :=
  match ctx.capture.captureEvidence st.files finding with
  | .error _ => givenUp st
  | .ok captured => ctx.notify finding id (citeEvidence id incident captured st)

/-- A violation: the arguments of `open` are made first, its statement comes next, and a new
    incident is added once the finding's text is written. -/
def applyViolation (db : Database) (finding : Finding) (st : PassState) :
    PassState × FindingOutcome :=
  match ctx.openRequest finding with
  | .error exc => (givenUp st, .openFailed exc)
  | .ok (request, wire) =>
    match flush db st with
    | (.error exc, st) => (givenUp st, .openFailed exc)
    | (.ok (), st) =>
      match openIncident st.session db.incidents st.supply request with
      | (session, id, true) =>
        match findingSnapshot ctx.capture.py wire with
        | .error exc => (givenUp st, .openFailed exc)
        | .ok _ =>
          let st := { st with
            session, supply := st.supply + 1
            run := { st.run with incidentsOpened := st.run.incidentsOpened + 1 } }
          (ctx.raiseNew finding request.incident id st, .opened id true)
      | (session, id, false) =>
        ({ st with
          session
          run := { st.run with incidentsUpdated := st.run.incidentsUpdated + 1 } },
          .opened id false)

def applyCompliant (db : Database) (finding : Finding) (st : PassState) :
    PassState × FindingOutcome :=
  match flush db st with
  | (.error exc, st) => (givenUp st, .closeFailed exc)
  | (.ok (), st) =>
    match openFor st.session db.incidents (ctx.keyOf finding) with
    | none => (st, .closed none)
    | some (id, incident) =>
      match resolve (st.session.load id incident) db.incidents
          ctx.capture.settings.defaultTenantId id "vision-os" "observation"
          observedNote ctx.capture.now with
      | .error exc => (givenUp st, .closeFailed exc)
      | .ok session =>
        ({ st with
          session
          run := { st.run with incidentsResolved := st.run.incidentsResolved + 1 } },
          .closed (some id))

def applyFinding (db : Database) (finding : Finding) (st : PassState) :
    PassState × FindingOutcome :=
  if finding.severity ∉ raisesIncidents then (st, .ignored)
  else
    match finding.state with
    | .violation => ctx.applyViolation db finding st
    | .compliant => ctx.applyCompliant db finding st
    | .unknown | .notApplicable => (st, .ignored)

def applyAll (db : Database) :
    List Finding → PassState → PassState × List (Finding × FindingOutcome)
  | [], st => (st, [])
  | finding :: rest, st =>
    let turn := ctx.applyFinding db finding st
    let others := applyAll db rest turn.1
    (others.1, (finding, turn.2) :: others.2)

def begin (db : Database) (audit : NotificationAudit) : PassState where
  supply := db.supply
  files := db.evidence.files
  audit

end DriverContext

/-- What a pass leaves: the database after its commit or rollback, what `apply` returns or
    raises, what became of each finding, and what was announced and missed. -/
structure PassResult where
  incidents : Incidents
  supply : IncidentId
  evidence : EvidenceStore
  result : Raises CompliancePass
  outcomes : List (Finding × FindingOutcome)
  audit : NotificationAudit
  announced : List (IncidentId × IncidentKey)
  missed : List IncidentId

namespace DriverContext

variable (ctx : DriverContext)

def endScope (db : Database) (commitFails : Bool) (st : PassState)
    (outcomes : List (Finding × FindingOutcome)) : PassResult :=
  match flush db st, commitFails with
  | (.ok (), st), false =>
    { incidents := st.session.view db.incidents
      supply := st.supply
      evidence :=
        { records := st.added.foldl (fun rows r =>
            rows.set r.key (retainedRecord ctx.capture.hash ctx.capture.now r)) db.evidence.records
          files := st.files }
      result := .ok st.run
      outcomes, audit := st.audit, announced := st.announced, missed := st.missed }
  | (outcome, st), _ =>
    { incidents := db.incidents
      supply := st.supply
      evidence := { db.evidence with files := st.files }
      result := match outcome with
        | .error exc => .error exc
        | .ok () => .error (.osError "")
      outcomes, audit := st.audit, announced := st.announced, missed := st.missed }

/-- `apply`, where the database may refuse the commit.  Without findings there is no session. -/
def apply (db : Database) (audit : NotificationAudit) (findings : List Finding)
    (commitFails : Bool) : PassResult :=
  if findings.isEmpty then
    { incidents := db.incidents, supply := db.supply, evidence := db.evidence, result := .ok {}
      outcomes := [], audit, announced := [], missed := [] }
  else
    let pass := ctx.applyAll db findings (begin db audit)
    ctx.endScope db commitFails pass.1 pass.2

end DriverContext

end VisionOs.App
