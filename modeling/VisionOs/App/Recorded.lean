/-
  Which violations a pass leaves on record.  Its findings share one transaction, so an evidence
  handle that is taken twice costs every incident of the pass.
-/
import VisionOs.App.Driver
import VisionOs.App.Sessions

namespace VisionOs.App

open Core Compliance Lib List IncidentSession IncidentService Function Option DriverContext Finset
open OrderedDict
/-- The finding is one that an incident is opened for. -/
def Opens (finding : Finding) : Prop :=
  finding.severity ∈ raisesIncidents ∧ finding.state = .violation

/-- A pass without its rows: how many incidents are open under a key, the files, the evidence
    it added, how many incidents it opened, and for how many of them it captured. -/
structure Tally where
  standing : IncidentKey → Nat
  files : Files
  added : List PutRequest := []
  opened : Nat := 0
  noticed : Nat := 0

namespace Tally

variable (ctx : DriverContext) (db : Database)

def start : Tally where
  standing key := (openIds db.incidents key).card
  files := db.evidence.files

/-- The evidence handles the pass takes are new, and each is taken once. -/
def HandlesFree (t : Tally) : Prop :=
  (t.added.map (·.key)).Nodup ∧ ∀ r ∈ t.added, db.evidence.records.get? r.key = none

instance (t : Tally) : Decidable (t.HandlesFree db) := inferInstanceAs (Decidable (_ ∧ _))

def capture (finding : Finding) (t : Tally) : Tally :=
  match ctx.capture.captureEvidence t.files finding with
  | .error _ => t
  | .ok captured =>
    { t with
      files := captured.files
      added := t.added ++ captured.added
      noticed := t.noticed + 1 }

/-- The finding can be frozen: its sentence, its wire form and the text of it are made. -/
def Freezable (finding : Finding) : Prop :=
  ∃ request wire text, ctx.openRequest finding = .ok (request, wire) ∧
    findingSnapshot ctx.capture.py wire = .ok text

/-- The call of `open` for a violation returns, where no statement before it failed: its
    arguments are made and, where it makes a new incident, the finding can be frozen. -/
def OpenReturns (t : Tally) (finding : Finding) : Prop :=
  (∃ arguments, ctx.openRequest finding = .ok arguments) ∧
    (t.standing (ctx.keyOf finding) = 0 → Freezable ctx finding)

instance (finding : Finding) : Decidable (Freezable ctx finding) :=
  match h : ctx.openRequest finding with
  | .error _ => isFalse fun ⟨_, _, _, hrequest, _⟩ => by rw [h] at hrequest; cases hrequest
  | .ok (request, wire) =>
    match htext : findingSnapshot ctx.capture.py wire with
    | .ok text => isTrue ⟨request, wire, text, h, htext⟩
    | .error _ => isFalse fun ⟨_, _, _, hrequest, hsnapshot⟩ => by
        rw [h] at hrequest
        cases hrequest
        rw [htext] at hsnapshot
        cases hsnapshot

/-- A violation leaves one incident open at least (unless it cannot be frozen), a compliant
    finding one less, and after two handles clash nothing is done. -/
def after (t : Tally) (finding : Finding) : Tally :=
  if finding.severity ∉ raisesIncidents ∨ ¬ t.HandlesFree db then t
  else
    match finding.state with
    | .violation =>
      if t.standing (ctx.keyOf finding) ≠ 0 ∨ ¬ Freezable ctx finding then t
      else capture ctx finding
        { t with
          standing := update t.standing (ctx.keyOf finding) 1
          opened := t.opened + 1 }
    | .compliant =>
      { t with
        standing := update t.standing (ctx.keyOf finding)
          (t.standing (ctx.keyOf finding) - 1) }
    | .unknown | .notApplicable => t

def of (findings : List Finding) : Tally := findings.foldl (after ctx db) (start db)

end Tally

namespace DriverContext

variable (ctx : DriverContext)

/-- Every violation of a severity that raises incidents has an incident on record that is not
    resolved, unless its own call of `open` failed. -/
def RecordsViolations (r : PassResult) : Prop :=
  ∀ finding outcome, (finding, outcome) ∈ r.outcomes → Opens finding →
    (∃ exc, outcome = .openFailed exc) ∨
      ∃ id row, r.incidents.get? id = some row ∧ row.key = ctx.keyOf finding ∧ row.isOpen = true

/-- For each violation that comes before any handle is taken twice, and whose call of `open`
    returns:
    - where no handle of the pass is, its incident is still open after the last finding;
    - where one is, an incident of its key was open before the pass. -/
def NothingLost (db : Database) (findings : List Finding) : Prop :=
  ∀ before finding, before ++ [finding] <+: findings → Opens finding →
    (Tally.of ctx db before).HandlesFree db →
    (Tally.of ctx db before).OpenReturns ctx finding →
    ((Tally.of ctx db findings).HandlesFree db →
      (Tally.of ctx db findings).standing (ctx.keyOf finding) ≠ 0) ∧
    (¬ (Tally.of ctx db findings).HandlesFree db →
      (Tally.start db).standing (ctx.keyOf finding) ≠ 0)

end DriverContext

/-! ## The tally follows the pass -/

/-- The tally says what the session and the database hold. -/
structure Mirrors (db : Database) (st : PassState) (t : Tally) : Prop where
  alone : st.session.Alone db.incidents st.supply
  standing : ∀ key, (openIds (st.session.view db.incidents) key).card = t.standing key
  files : st.files = t.files
  added : st.added = t.added
  supply : st.supply = db.supply + t.opened
  own : ∀ id, id < db.supply → st.session.added.get? id = none
  healthy : st.poisoned = false

variable {db : Database} {st : PassState} {t : Tally}

theorem Mirrors.congr {st' : PassState} (h : Mirrors db st t)
    (hsession : st'.session = st.session) (hsupply : st'.supply = st.supply)
    (hfiles : st'.files = st.files) (hadded : st'.added = st.added)
    (hpoisoned : st'.poisoned = st.poisoned) : Mirrors db st' t where
  alone := by rw [hsession, hsupply]; exact h.alone
  standing := by rw [hsession]; exact h.standing
  files := hfiles.trans h.files
  added := hadded.trans h.added
  supply := hsupply.trans h.supply
  own := by rw [hsession]; exact h.own
  healthy := hpoisoned.trans h.healthy

def Tracks (db : Database) (st : PassState) (t : Tally) : Prop :=
  Mirrors db st t ∨
    (st.poisoned = true ∧ ¬ t.HandlesFree db ∧ st.supply = db.supply + t.opened)

theorem Tracks.mirrors (h : Tracks db st t) (hfree : t.HandlesFree db) : Mirrors db st t :=
  h.resolve_right fun hpoisoned => hpoisoned.2.1 hfree

theorem Tracks.supply (h : Tracks db st t) : st.supply = db.supply + t.opened := by
  rcases h with hmirrors | ⟨-, -, hsupply⟩
  · exact hmirrors.supply
  · exact hsupply

/-- A step that opens no incident and announces none. -/
structure Quiet (db : Database) (st st' : PassState) (t t' : Tally) : Prop where
  mirrors : Mirrors db st' t'
  keys : KeysKept (st.session.view db.incidents) (st'.session.view db.incidents)
  announced : st'.announced = st.announced
  missed : st'.missed = st.missed
  audit : st'.audit = st.audit
  opened : t'.opened = t.opened
  noticed : t'.noticed = t.noticed

theorem Quiet.refl (h : Mirrors db st t) : Quiet db st st t t :=
  ⟨h, KeysKept.refl _, rfl, rfl, rfl, rfl, rfl⟩

namespace DriverContext

variable {ctx : DriverContext} {db : Database} {st : PassState} {t : Tally}

theorem mirrors_begin (db : Database) (audit : NotificationAudit) :
    Mirrors db (begin db audit) (Tally.start db) where
  alone := alone_fresh db.drawn
  standing key := by
    have hsame : openIds (IncidentSession.view {} db.incidents) key = openIds db.incidents key := by
      ext id
      rw [mem_openIds, mem_openIds, get?_view_fresh]
    exact congrArg card hsame
  files := rfl
  added := rfl
  supply := rfl
  own := fun _ _ => rfl
  healthy := rfl

theorem flush_ok (h : Mirrors db st t) (hfree : t.HandlesFree db) : flush db st = (.ok (), st) := by
  have hkeys : (t.added.map (·.key)).Nodup ∧
      ∀ r ∈ t.added, db.evidence.records.get? r.key = none := hfree
  unfold flush
  rw [if_neg (by rw [h.healthy]; exact Bool.false_ne_true), h.added, if_pos hkeys]

theorem flush_error (h : Tracks db st t) (hclash : ¬ t.HandlesFree db) :
    ∃ exc, flush db st = (.error exc, { st with poisoned := true }) := by
  have hkeys : ¬ ((t.added.map (·.key)).Nodup ∧
      ∀ r ∈ t.added, db.evidence.records.get? r.key = none) := hclash
  unfold flush
  rcases h with hmirrors | ⟨hpoisoned, -⟩
  · rw [if_neg (by rw [hmirrors.healthy]; exact Bool.false_ne_true), hmirrors.added, if_neg hkeys]
    exact ⟨_, rfl⟩
  · rw [if_pos hpoisoned]
    refine ⟨.pendingRollbackError "", ?_⟩
    rw [← hpoisoned]

theorem mirrors_notify (h : Mirrors db st t) (finding : Finding) (id : IncidentId) :
    Mirrors db (ctx.notify finding id st) t := by
  unfold notify
  split
  · exact h
  · split
    · exact h.congr rfl rfl rfl rfl rfl
    · exact h.congr rfl rfl rfl rfl rfl
    · exact h.congr rfl rfl rfl rfl rfl

variable {id : IncidentId} {incident : Incident}

theorem mirrors_citeEvidence (h : Mirrors db st t)
    (hget : (st.session.view db.incidents).get? id = some incident) (captured : Captured) :
    Mirrors db (citeEvidence id incident captured st)
        { t with
          files := captured.files
          added := t.added ++ captured.added
          noticed := t.noticed + 1 } ∧
      KeysKept (st.session.view db.incidents)
        ((citeEvidence id incident captured st).session.view db.incidents) := by
  unfold citeEvidence
  split
  · exact ⟨⟨h.alone, h.standing, rfl, by rw [h.added], h.supply, h.own, h.healthy⟩,
      KeysKept.refl _⟩
  · refine ⟨⟨h.alone.assign hget _, fun key => ?_, rfl, by rw [h.added], h.supply,
      fun id' hid => ?_, h.healthy⟩, keysKept_assign hget _⟩
    · rw [openIds_assign_open hget rfl key]
      exact h.standing key
    · rw [added_assign, h.own id' hid]
      rfl

variable {finding : Finding}

theorem mirrors_raiseNew (h : Mirrors db st t)
    (hget : (st.session.view db.incidents).get? id = some incident) :
    Mirrors db (ctx.raiseNew finding incident id st) (t.capture ctx finding) := by
  unfold raiseNew Tally.capture
  rw [h.files]
  cases ctx.capture.captureEvidence t.files finding with
  | error exc => exact h.congr rfl rfl rfl rfl rfl
  | ok captured => exact mirrors_notify (mirrors_citeEvidence h hget captured).1 finding id

def raised (ctx : DriverContext) (finding : Finding) (t : Tally) : Tally :=
  { t with
    standing := update t.standing (ctx.keyOf finding) 1
    opened := t.opened + 1 }

/-- The call of `open` returns where it can, and fails where it cannot. -/
def Answers (ctx : DriverContext) (t : Tally) (finding : Finding) (outcome : FindingOutcome) :
    Prop :=
  (t.OpenReturns ctx finding → ∃ id created, outcome = .opened id created) ∧
    (¬ t.OpenReturns ctx finding → ∃ exc, outcome = .openFailed exc)

theorem key_of_openRequest {request : OpenRequest}
    {wire : List (String × PyValue)} (h : ctx.openRequest finding = .ok (request, wire)) :
    request.key = ctx.keyOf finding := by
  obtain ⟨summary, -, h⟩ := bind_eq_ok.mp h
  obtain ⟨wire', -, h⟩ := bind_eq_ok.mp h
  cases h
  rfl

theorem quiet_givenUp (h : Mirrors db st t) : Quiet db st (givenUp st) t t :=
  ⟨h.congr rfl rfl rfl rfl rfl, KeysKept.refl _, rfl, rfl, rfl, rfl, rfl⟩

/-- A violation changes no incident but one, or adds one and captures for it. -/
theorem applyViolation_cases (h : Mirrors db st t) (hfree : t.HandlesFree db)
    (hopens : Opens finding) :
    (Quiet db st (ctx.applyViolation db finding st).1 t (t.after ctx db finding) ∧
      Answers ctx t finding (ctx.applyViolation db finding st).2) ∨
    ∃ session run incident, ctx.applyViolation db finding st =
        (ctx.raiseNew finding incident st.supply { st with session, supply := st.supply + 1, run },
          .opened st.supply true) ∧
      incident.key = ctx.keyOf finding ∧ t.OpenReturns ctx finding ∧
      t.after ctx db finding = (ctx.raised finding t).capture ctx finding ∧
      Mirrors db { st with session, supply := st.supply + 1, run } (ctx.raised finding t) ∧
      KeysKept (st.session.view db.incidents) (session.view db.incidents) ∧
      (session.view db.incidents).get? st.supply = some incident := by
  obtain ⟨hseverity, hstate⟩ := hopens
  unfold applyViolation Tally.after
  rw [if_neg (not_or_intro (not_not_intro hseverity) (not_not_intro hfree)), hstate]
  rcases hrequest : ctx.openRequest finding with exc | ⟨request, wire⟩
  · -- the arguments of `open` cannot be made
    have hno : ¬ Tally.Freezable ctx finding := by
      rintro ⟨request, wire, text, hmade, -⟩
      rw [hrequest] at hmade
      cases hmade
    rw [if_pos (.inr hno)]
    refine .inl ⟨quiet_givenUp h, fun hreturns => ?_, fun _ => ⟨exc, rfl⟩⟩
    obtain ⟨⟨arguments, hmade⟩, -⟩ := hreturns
    rw [hrequest] at hmade
    cases hmade
  have hkey := key_of_openRequest hrequest
  dsimp only
  rw [flush_ok h hfree]
  dsimp only
  -- an incident of the key stands open, or one is added under the next id
  rcases openIncident_spec h.alone request with
    ⟨hsome, session, id, hcall, halone, hkeys, hown, hsame⟩ |
    ⟨hnone, session, hcall, halone, hkeys, hown, hget, hopen⟩
  · left
    rw [hkey] at hsome
    have hstanding : t.standing (ctx.keyOf finding) ≠ 0 := by
      rw [← h.standing]
      exact fun hzero => hsome (card_eq_zero.mp hzero)
    rw [hcall, if_pos (.inl hstanding)]
    have hreturns : t.OpenReturns ctx finding :=
      ⟨⟨(request, wire), hrequest⟩, fun hzero => absurd hzero hstanding⟩
    refine ⟨⟨⟨halone, fun key => ?_, h.files, h.added, h.supply, fun id' hid => ?_, h.healthy⟩,
      hkeys, rfl, rfl, rfl, rfl, rfl⟩, fun _ => ⟨id, false, rfl⟩, fun hno => absurd hreturns hno⟩
    · rw [hsame key]
      exact h.standing key
    · exact (hown id').mpr (h.own id' hid)
  rw [hkey] at hnone
  have hstanding : t.standing (ctx.keyOf finding) = 0 := by
    rw [← h.standing]
    exact card_eq_zero.mpr hnone
  rw [hcall]
  dsimp only
  rcases htext : findingSnapshot ctx.capture.py wire with exc | text
  · -- the finding cannot be frozen, and no incident is added
    left
    have hno : ¬ Tally.Freezable ctx finding := by
      rintro ⟨request', wire', text, hmade, hwritten⟩
      rw [hrequest] at hmade
      cases hmade
      rw [htext] at hwritten
      cases hwritten
    rw [if_pos (.inr hno)]
    exact ⟨quiet_givenUp h, fun hreturns => absurd (hreturns.2 hstanding) hno, fun _ => ⟨exc, rfl⟩⟩
  · right
    have hfreezable : Tally.Freezable ctx finding := ⟨request, wire, text, hrequest, htext⟩
    rw [if_neg (not_or_intro (not_not_intro hstanding) (not_not_intro hfreezable))]
    refine ⟨session, _, request.incident, rfl, hkey, ⟨⟨_, hrequest⟩, fun _ => hfreezable⟩, rfl, ?_,
      hkeys, hget⟩
    refine ⟨halone, fun key => ?_, h.files, h.added, ?_, fun id hid => ?_, h.healthy⟩
    · dsimp only [raised]
      rw [hopen key, hkey]
      by_cases hsame : ctx.keyOf finding = key
      · subst hsame
        rw [update_self]
        exact if_pos rfl ▸ card_singleton _
      · rw [update_of_ne (Ne.symm hsame), if_neg hsame]
        exact h.standing key
    · show st.supply + 1 = db.supply + (t.opened + 1)
      rw [h.supply, Nat.add_assoc]
    · refine (hown id).mpr ⟨h.own id hid, ?_⟩
      apply Nat.ne_of_lt
      rw [h.supply]
      exact Nat.lt_add_right _ hid

theorem quiet_applyCompliant (h : Mirrors db st t) (hfree : t.HandlesFree db)
    (hseverity : finding.severity ∈ raisesIncidents)
    (hstate : finding.state = .compliant) :
    Quiet db st (ctx.applyCompliant db finding st).1 t (t.after ctx db finding) := by
  unfold applyCompliant Tally.after
  rw [flush_ok h hfree, if_neg (not_or_intro (not_not_intro hseverity) (not_not_intro hfree)),
    hstate]
  dsimp only
  cases hfound : IncidentService.openFor st.session db.incidents (ctx.keyOf finding) with
  | none =>
    have hzero : t.standing (ctx.keyOf finding) = 0 := by
      rw [← h.standing, openFor_eq_none hfound]
      rfl
    have hsame : update t.standing (ctx.keyOf finding)
        (t.standing (ctx.keyOf finding) - 1) = t.standing := by
      rw [show t.standing (ctx.keyOf finding) - 1 = t.standing (ctx.keyOf finding) by omega]
      exact update_eq_self _ _
    rw [hsame]
    exact Quiet.refl h
  | some found =>
    obtain ⟨id, row⟩ := found
    obtain ⟨session, hresolve, halone, hkeys, hown, hmem, herase⟩ :=
      resolve_spec h.alone hfound ctx.capture.now
    have hkeyOf : (ctx.keyOf finding).organizationId = ctx.capture.settings.defaultTenantId := rfl
    rw [hkeyOf] at hresolve
    dsimp only
    rw [hresolve]
    refine ⟨⟨halone, fun key => ?_, h.files, h.added, h.supply, fun id' hid => ?_, h.healthy⟩,
      hkeys, rfl, rfl, rfl, rfl, rfl⟩
    · dsimp only
      rw [herase key]
      by_cases hkey : key = ctx.keyOf finding
      · subst hkey
        rw [update_self, card_erase_of_mem hmem, h.standing]
      -- an incident of another key is not touched
      rw [update_of_ne hkey, ← h.standing]
      apply congrArg card
      apply erase_eq_of_notMem
      intro hother
      obtain ⟨row', hget', hkey', -⟩ := mem_openIds.mp hother
      obtain ⟨row'', hget'', hkey'', -⟩ := mem_openIds.mp hmem
      rw [hget'] at hget''
      cases hget''
      exact hkey (hkey'.symm.trans hkey'')
    · exact (hown id').mpr (h.own id' hid)

/-- A finding changes nothing that the tally counts, or raises a new incident. -/
theorem applyFinding_cases (h : Mirrors db st t) (hfree : t.HandlesFree db) (finding : Finding) :
    (Quiet db st (ctx.applyFinding db finding st).1 t (t.after ctx db finding) ∧
      (Opens finding → Answers ctx t finding (ctx.applyFinding db finding st).2)) ∨
    ∃ session run incident, ctx.applyFinding db finding st =
        (ctx.raiseNew finding incident st.supply { st with session, supply := st.supply + 1, run },
          .opened st.supply true) ∧
      incident.key = ctx.keyOf finding ∧ t.OpenReturns ctx finding ∧
      t.after ctx db finding = (ctx.raised finding t).capture ctx finding ∧
      Mirrors db { st with session, supply := st.supply + 1, run } (ctx.raised finding t) ∧
      KeysKept (st.session.view db.incidents) (session.view db.incidents) ∧
      (session.view db.incidents).get? st.supply = some incident := by
  by_cases hseverity : finding.severity ∈ raisesIncidents
  · cases hstate : finding.state with
    | violation =>
      have hturn : ctx.applyFinding db finding st = ctx.applyViolation db finding st := by
        unfold applyFinding
        rw [if_neg (not_not_intro hseverity), hstate]
      rw [hturn]
      refine (applyViolation_cases h hfree ⟨hseverity, hstate⟩).imp_left fun hquiet => ?_
      exact ⟨hquiet.1, fun _ => hquiet.2⟩
    | compliant =>
      have hturn : ctx.applyFinding db finding st = ctx.applyCompliant db finding st := by
        unfold applyFinding
        rw [if_neg (not_not_intro hseverity), hstate]
      rw [hturn]
      refine .inl ⟨quiet_applyCompliant h hfree hseverity hstate, fun hopens => ?_⟩
      rw [hopens.2] at hstate
      cases hstate
    | unknown =>
      refine .inl ⟨?_, fun hopens => by rw [hopens.2] at hstate; cases hstate⟩
      unfold applyFinding Tally.after
      rw [if_neg (not_not_intro hseverity),
        if_neg (not_or_intro (not_not_intro hseverity) (not_not_intro hfree)), hstate]
      exact Quiet.refl h
    | notApplicable =>
      refine .inl ⟨?_, fun hopens => by rw [hopens.2] at hstate; cases hstate⟩
      unfold applyFinding Tally.after
      rw [if_neg (not_not_intro hseverity),
        if_neg (not_or_intro (not_not_intro hseverity) (not_not_intro hfree)), hstate]
      exact Quiet.refl h
  · -- a finding that raises nothing is not looked at
    refine .inl ⟨?_, fun hopens => absurd hopens.1 hseverity⟩
    unfold applyFinding Tally.after
    rw [if_pos hseverity, if_pos (.inl hseverity)]
    exact Quiet.refl h

theorem Tracks.givenUp (h : Tracks db st t) : Tracks db (givenUp st) t :=
  h.imp (fun hmirrors => hmirrors.congr rfl rfl rfl rfl rfl) id

theorem applyFinding_of_clash (ctx : DriverContext) (h : Tracks db st t)
    (hclash : ¬ t.HandlesFree db)
    (finding : Finding) :
    Tracks db (ctx.applyFinding db finding st).1 t ∧ t.after ctx db finding = t ∧
      (ctx.applyFinding db finding st).1.announced = st.announced ∧
      (ctx.applyFinding db finding st).1.audit = st.audit ∧
      (Opens finding → ∃ exc, (ctx.applyFinding db finding st).2 = .openFailed exc) := by
  have hafter : t.after ctx db finding = t := by
    exact if_pos (.inr hclash)
  obtain ⟨exc, hflush⟩ := flush_error h hclash
  by_cases hseverity : finding.severity ∈ raisesIncidents
  · unfold applyFinding
    rw [if_neg (not_not_intro hseverity)]
    cases hstate : finding.state with
    | violation =>
      unfold applyViolation
      rcases ctx.openRequest finding with exc' | arguments
      · exact ⟨Tracks.givenUp h, hafter, rfl, rfl, fun _ => ⟨exc', rfl⟩⟩
      · dsimp only
        rw [hflush]
        exact ⟨.inr ⟨rfl, hclash, h.supply⟩, hafter, rfl, rfl, fun _ => ⟨exc, rfl⟩⟩
    | compliant =>
      unfold applyCompliant
      rw [hflush]
      refine ⟨.inr ⟨rfl, hclash, h.supply⟩, hafter, rfl, rfl, fun hopens => ?_⟩
      rw [hopens.2] at hstate
      cases hstate
    | unknown =>
      exact ⟨h, hafter, rfl, rfl, fun hopens => by rw [hopens.2] at hstate; cases hstate⟩
    | notApplicable =>
      exact ⟨h, hafter, rfl, rfl, fun hopens => by rw [hopens.2] at hstate; cases hstate⟩
  · unfold applyFinding
    rw [if_pos hseverity]
    exact ⟨h, hafter, rfl, rfl, fun hopens => absurd hopens.1 hseverity⟩

/-- One turn of the loop: the tally follows it, and a violation's call of `open` returns exactly
    when no handle was taken twice before it and it could itself. -/
theorem tracks_applyFinding (h : Tracks db st t) (finding : Finding) :
    Tracks db (ctx.applyFinding db finding st).1 (t.after ctx db finding) ∧
      (Opens finding →
        (t.HandlesFree db ∧ t.OpenReturns ctx finding → ∃ id created,
          (ctx.applyFinding db finding st).2 = .opened id created) ∧
        (¬ (t.HandlesFree db ∧ t.OpenReturns ctx finding) →
          ∃ exc, (ctx.applyFinding db finding st).2 = .openFailed exc)) := by
  by_cases hfree : t.HandlesFree db
  · have hmirrors := Tracks.mirrors h hfree
    rcases applyFinding_cases hmirrors hfree finding with
      ⟨hquiet, hanswers⟩ | ⟨session, run, incident, hturn, -, hreturns, hafter, hnew, -, hget⟩
    · refine ⟨.inl hquiet.mirrors, fun hopens => ?_⟩
      obtain ⟨hopened, hfailed⟩ := hanswers hopens
      exact ⟨fun hboth => hopened hboth.2, fun hno => hfailed fun hreturns => hno ⟨hfree, hreturns⟩⟩
    · rw [hturn, hafter]
      refine ⟨.inl (mirrors_raiseNew hnew hget), fun _ => ⟨fun _ => ?_, fun hno => ?_⟩⟩
      · exact ⟨st.supply, true, rfl⟩
      · exact absurd ⟨hfree, hreturns⟩ hno
  · obtain ⟨htracks, hafter, -, -, hfailed⟩ := applyFinding_of_clash ctx h hfree finding
    rw [hafter]
    exact ⟨htracks, fun hopens => ⟨fun hboth => absurd hboth.1 hfree, fun _ => hfailed hopens⟩⟩

/-- The whole loop: the tally follows it, and what holds of every violation whose call of `open`
    did not fail is what holds of every violation before a handle is taken twice whose call
    could return. -/
theorem tracks_applyAll (findings : List Finding) {R : Finding → Prop} (h : Tracks db st t) :
    Tracks db (ctx.applyAll db findings st).1 (findings.foldl (Tally.after ctx db) t) ∧
      ((∀ finding outcome, (finding, outcome) ∈ (ctx.applyAll db findings st).2 →
          Opens finding → (∃ exc, outcome = .openFailed exc) ∨ R finding) ↔
        ∀ before finding, before ++ [finding] <+: findings → Opens finding →
          (before.foldl (Tally.after ctx db) t).HandlesFree db →
          (before.foldl (Tally.after ctx db) t).OpenReturns ctx finding → R finding) := by
  induction findings generalizing st t with
  | nil =>
    refine ⟨h, fun _ before finding hprefix => ?_, fun _ finding outcome hmem => by cases hmem⟩
    have hnil := prefix_nil.mp hprefix
    exact absurd hnil (append_ne_nil_of_right_ne_nil _ (cons_ne_nil _ _))
  | cons first rest ih =>
    have hturn : Tracks db (ctx.applyFinding db first st).1 (t.after ctx db first) ∧ _ :=
      tracks_applyFinding h first
    obtain ⟨hnext, houtcome⟩ := hturn
    obtain ⟨htracks, hrest⟩ := ih hnext
    refine ⟨htracks, ?_, ?_⟩
    · intro hall before finding hprefix hopens hfree hreturns
      cases before with
      | nil =>
        obtain ⟨rfl, -⟩ := cons_prefix_cons.mp hprefix
        obtain ⟨id, created, hopened⟩ := (houtcome hopens).1 ⟨hfree, hreturns⟩
        rcases hall _ _ mem_cons_self hopens with ⟨exc, hfailed⟩ | hR
        · rw [hopened] at hfailed
          cases hfailed
        · exact hR
      | cons first' before =>
        obtain ⟨rfl, hprefix'⟩ := cons_prefix_cons.mp hprefix
        refine hrest.mp (fun finding' outcome hmem => ?_) before finding hprefix' hopens hfree
          hreturns
        exact hall finding' outcome (mem_cons_of_mem _ hmem)
    · intro hall finding outcome hmem hopens
      rcases mem_cons.mp hmem with hfirst | hlater
      · obtain ⟨rfl, rfl⟩ := Prod.mk.inj hfirst
        by_cases hboth : t.HandlesFree db ∧ t.OpenReturns ctx finding
        · exact .inr (hall [] finding ⟨rest, rfl⟩ hopens hboth.1 hboth.2)
        · exact .inl ((houtcome hopens).2 hboth)
      · refine hrest.mpr (fun before finding' hprefix hopens' hfree hreturns => ?_) finding outcome
          hlater hopens
        exact hall (first :: before) finding' ((prefix_cons_inj first).mpr hprefix) hopens' hfree
          hreturns

theorem outcomes_applyAll (findings : List Finding) (st : PassState) :
    (ctx.applyAll db findings st).2.map Prod.fst = findings := by
  induction findings generalizing st with
  | nil => rfl
  | cons finding rest ih =>
    show finding :: (ctx.applyAll db rest _).2.map Prod.fst = _
    rw [ih]

theorem openIds_apply (audit : NotificationAudit) {findings : List Finding}
    (hnonempty : findings.isEmpty = false) (key : IncidentKey) :
    ((Tally.of ctx db findings).HandlesFree db →
      (openIds (ctx.apply db audit findings false).incidents key).card =
        (Tally.of ctx db findings).standing key) ∧
    (¬ (Tally.of ctx db findings).HandlesFree db →
      (openIds (ctx.apply db audit findings false).incidents key).card =
        (Tally.start db).standing key) := by
  have htracks : Tracks db (ctx.applyAll db findings (begin db audit)).1 (Tally.of ctx db findings) :=
    (tracks_applyAll findings (R := fun _ => True) (.inl (mirrors_begin db audit))).1
  unfold apply
  rw [hnonempty]
  show (_ → (openIds (ctx.endScope db false (ctx.applyAll db findings (begin db audit)).1 _).incidents
      key).card = _) ∧ (_ → (openIds (ctx.endScope db false _ _).incidents key).card = _)
  unfold endScope
  constructor
  · intro hfree
    have hmirrors := Tracks.mirrors htracks hfree
    rw [flush_ok hmirrors hfree]
    exact hmirrors.standing key
  · intro hclash
    obtain ⟨exc, hflush⟩ := flush_error htracks hclash
    rw [hflush]
    rfl

/-- No finding costs another its incident exactly when nothing is lost. -/
theorem apply_recordsViolations_iff (audit : NotificationAudit) (findings : List Finding) :
    ctx.RecordsViolations (ctx.apply db audit findings false) ↔
      ctx.NothingLost db findings := by
  cases hempty : findings.isEmpty with
  | true =>
    rw [List.isEmpty_iff] at hempty
    subst hempty
    refine ⟨fun _ before finding hprefix => ?_, fun _ finding outcome hmem => by cases hmem⟩
    exact absurd (List.prefix_nil.mp hprefix)
      (List.append_ne_nil_of_right_ne_nil _ (List.cons_ne_nil _ _))
  | false =>
    have houtcomes : (ctx.apply db audit findings false).outcomes =
        (ctx.applyAll db findings (begin db audit)).2 := by
      unfold apply
      rw [hempty]
      show (ctx.endScope db false _ _).outcomes = _
      unfold endScope
      split <;> rfl
    unfold RecordsViolations
    rw [houtcomes, (tracks_applyAll findings (.inl (mirrors_begin db audit))).2]
    refine forall_congr' fun before => forall_congr' fun finding => imp_congr_right fun _ =>
      imp_congr_right fun _ => imp_congr_right fun _ => imp_congr_right fun _ => ?_
    rw [← card_openIds_ne_zero]
    obtain ⟨hkept, hlost⟩ := openIds_apply audit hempty (ctx.keyOf finding)
    by_cases hfree : (Tally.of ctx db findings).HandlesFree db
    · rw [hkept hfree]
      exact ⟨fun h => ⟨fun _ => h, fun hclash => absurd hfree hclash⟩, fun h => h.1 hfree⟩
    · rw [hlost hfree]
      exact ⟨fun h => ⟨fun hno => absurd hno hfree, fun _ => h⟩, fun h => h.2 hfree⟩

end DriverContext

/-! ### Two rules over one attribute -/

/-- The bareheaded subject, with the handle of the observation. -/
def handledBareheaded : Situation where
  view := {
    objectId := "object"
    classId := "person"
    cameraId := "camera"
    attributes := empty.set "head_covering" {
      key := "head_covering"
      value := .str "none"
      observedAt := ⟨100000000000⟩
      validUntil := none
      evidenceRef := some "evidence-1" } }
  now := ⟨100000000005⟩
  coverage := none
  capabilityGaps := []

/-- Two rules over the same attribute, whose violations raise incidents. -/
def severeRule : Rule := { hairnetRule with severity := "high", accepted := rfl }

def kitchenRule : Rule := { severeRule with ruleId := "kitchen-headwear", accepted := rfl }

def FindingOutcome.isOpened : FindingOutcome → Bool
  | .opened _ _ => true
  | _ => false

def emptyDatabase : Database where
  incidents := ∅
  supply := 0
  evidence := { records := ∅, files := ∅ }
  drawn := fun _ _ h => by cases h

def capturingDriver : DriverContext where
  capture := capturingContext
  cameras := empty.set "camera" (some "restaurant")
  describe := fun finding => .ok finding.ruleId
  channel := none

/-- The incidents of both rules are opened, their evidence has one handle, and the commit that
    fails over it takes both. -/
theorem shared_handle_loses_incidents :
    ∃ first second,
      sampleEvaluator.evaluateIn samplePython severeRule handledBareheaded "" = .ok first ∧
      sampleEvaluator.evaluateIn samplePython kitchenRule handledBareheaded "" = .ok second ∧
      ¬ capturingDriver.RecordsViolations
        (capturingDriver.apply emptyDatabase {} [first, second] false) := by
  obtain ⟨first, hfirst, hseverity, hstate, hboth⟩ :
      ∃ first, sampleEvaluator.evaluateIn samplePython severeRule handledBareheaded "" = .ok first ∧
        first.severity ∈ raisesIncidents ∧ first.state = .violation ∧
        (sampleEvaluator.evaluateIn samplePython kitchenRule handledBareheaded
          "").toOption.any (fun second =>
            let result := capturingDriver.apply emptyDatabase {} [first, second] false
            decide (result.outcomes.map (·.2.isOpened) = [true, true] ∧
              result.incidents.keys = [])) = true := returns_of_any (by decide +kernel)
  obtain ⟨second, hsecond, houtcomes, hrows⟩ := returns_of_any hboth
  refine ⟨first, second, hfirst, hsecond, fun hrecords => ?_⟩
  have hfindings : (capturingDriver.apply emptyDatabase {} [first, second] false).outcomes.map
      Prod.fst = [first, second] := by
    show (capturingDriver.endScope emptyDatabase false _ _).outcomes.map Prod.fst = _
    unfold endScope
    split <;> exact outcomes_applyAll [first, second] _
  cases hlist : (capturingDriver.apply emptyDatabase {} [first, second] false).outcomes with
  | nil =>
    rw [hlist] at hfindings
    cases hfindings
  | cons entry rest =>
    rw [hlist] at houtcomes hfindings
    obtain ⟨finding, outcome⟩ := entry
    have hfinding : finding = first := (List.cons.inj hfindings).1
    subst hfinding
    rcases hrecords finding outcome (hlist ▸ mem_cons_self)
        ⟨hseverity, hstate⟩ with ⟨exc, hfailed⟩ | hrow
    · rw [hfailed] at houtcomes
      cases houtcomes
    · obtain ⟨id, row, hget, -⟩ := hrow
      have hmem := mem_keys_iff.mpr ⟨row, hget⟩
      rw [hrows] at hmem
      cases hmem

end VisionOs.App
