/-
  Runs of the driver's passes.  A new incident is announced when it is opened, in the middle
  of a transaction whose commit comes after the last finding.
-/
import VisionOs.App.Recorded
import Mathlib.Order.Interval.Finset.Nat

namespace VisionOs.App

open Core Compliance Lib List Tally Nat Prod NotificationAudit OrderedDict Runs

/-- One pass: what it meets, its findings, and whether the database refuses its commit. -/
structure DriverPass where
  ctx : DriverContext
  findings : List Finding
  commitFails : Bool

/-- What is left of the passes so far: the database, the notifier's counts, the keys under which
    an incident was successfully announced, and those under which one was committed. -/
structure Deployment where
  db : Database
  audit : NotificationAudit := {}
  announced : List IncidentKey := []
  committed : List IncidentKey := []

def newRows (before after : Incidents) : List (IncidentId × Incident) :=
  after.entries.filter fun e => (before.get? e.1).isNone

/-- The books of the announcements of a pass, held against its tally. -/
structure Accounts (ctx : DriverContext) (db : Database) (audit : NotificationAudit)
    (st : PassState) (t : Tally) : Prop where
  apart : (st.announced.map fst ++ st.missed).Nodup
  drawn : ∀ id ∈ st.announced.map fst ++ st.missed, db.supply ≤ id ∧ id < db.supply + t.opened
  named : ∀ a ∈ st.announced,
    ∃ row, (st.session.view db.incidents).get? a.1 = some row ∧ row.key = a.2
  counted : st.audit.failed + st.audit.suppressed =
    audit.failed + audit.suppressed + st.missed.length
  shared : ctx.channel.isSome = true → st.announced.length + st.missed.length = t.noticed

structure Silent (ctx : DriverContext) (audit : NotificationAudit) (st : PassState) (t : Tally) :
    Prop where
  given : ctx.channel.isSome = true → st.audit.notices = audit.notices + t.noticed
  silent : (∀ channel, ctx.channel = some channel →
      ∀ i, i < t.noticed → channel (audit.notices + i) ≠ .delivered) → st.announced = []
  grown : audit.failed + audit.suppressed ≤ st.audit.failed + st.audit.suppressed

open DriverContext

variable {ctx : DriverContext} {db : Database} {audit : NotificationAudit} {st : PassState}
  {t : Tally}

/-! ## What a pass announces -/

variable {t' : Tally}

theorem Accounts.quiet {st' : PassState} (h : Accounts ctx db audit st t)
    (hquiet : Quiet db st st' t t') : Accounts ctx db audit st' t' where
  apart := by rw [hquiet.announced, hquiet.missed]; exact h.apart
  drawn := by rw [hquiet.announced, hquiet.missed, hquiet.opened]; exact h.drawn
  named := by
    rw [hquiet.announced]
    intro a ha
    obtain ⟨row, hget, hkey⟩ := h.named a ha
    obtain ⟨row', hget', hkey'⟩ := hquiet.keys a.1 row hget
    exact ⟨row', hget', hkey'.trans hkey⟩
  counted := by rw [hquiet.audit, hquiet.missed]; exact h.counted
  shared := by rw [hquiet.announced, hquiet.missed, hquiet.noticed]; exact h.shared

variable {session : IncidentSession} {supply : IncidentId} {finding : Finding}

theorem Accounts.drawn_more (h : Accounts ctx db audit st t)
    {run : CompliancePass}
    (hkeys : KeysKept (st.session.view db.incidents) (session.view db.incidents)) :
    Accounts ctx db audit { st with session, supply, run } (ctx.raised finding t) where
  apart := h.apart
  drawn := by
    intro id hid
    obtain ⟨hlow, hhigh⟩ := h.drawn id hid
    exact ⟨hlow, lt_succ_of_lt hhigh⟩
  named := by
    intro a ha
    obtain ⟨row, hget, hkey⟩ := h.named a ha
    obtain ⟨row', hget', hkey'⟩ := hkeys a.1 row hget
    exact ⟨row', hget', hkey'.trans hkey⟩
  counted := h.counted
  shared := h.shared

variable {id : IncidentId} {row : Incident}

theorem Accounts.notify (h : Accounts ctx db audit st t)
    (hopened : t'.opened = t.opened) (hnoticed : t'.noticed = t.noticed + 1)
    (hfresh : id ∉ st.announced.map fst ++ st.missed)
    (hrange : db.supply ≤ id ∧ id < db.supply + t.opened)
    (hget : (st.session.view db.incidents).get? id = some row)
    (hkey : row.key = ctx.keyOf finding) :
    Accounts ctx db audit (ctx.notify finding id st) t' := by
  unfold DriverContext.notify
  cases hchannel : ctx.channel with
  | none =>
    refine ⟨h.apart, ?_, h.named, h.counted, fun hsome => by rw [hchannel] at hsome; cases hsome⟩
    rw [hopened]
    exact h.drawn
  | some channel =>
    have hshared := h.shared (by rw [hchannel]; rfl)
    -- The new id is put among those announced, or among those missed.
    have hperm : (((st.announced ++ [(id, ctx.keyOf finding)]).map fst) ++ st.missed).Perm
        (id :: (st.announced.map fst ++ st.missed)) := by
      rw [map_append, append_assoc]
      exact perm_middle
    have hperm' : (st.announced.map fst ++ (st.missed ++ [id])).Perm
        (id :: (st.announced.map fst ++ st.missed)) := by
      rw [← append_assoc]
      exact perm_append_singleton _ _
    have hnodup : (id :: (st.announced.map fst ++ st.missed)).Nodup :=
      nodup_cons.mpr ⟨hfresh, h.apart⟩
    have hdrawn : ∀ id' ∈ id :: (st.announced.map fst ++ st.missed),
        db.supply ≤ id' ∧ id' < db.supply + t'.opened := by
      rw [hopened]
      intro id' hmem
      rcases mem_cons.mp hmem with rfl | hmem
      · exact hrange
      · exact h.drawn id' hmem
    have hmissed : ∀ counts : NotificationAudit,
        counts.failed + counts.suppressed = st.audit.failed + st.audit.suppressed + 1 →
        Accounts ctx db audit { st with audit := counts, missed := st.missed ++ [id] } t' := by
      intro counts hcounts
      refine ⟨hperm'.nodup_iff.mpr hnodup, fun id' hmem => hdrawn id' (hperm'.mem_iff.mp hmem),
        h.named, ?_, fun _ => ?_⟩
      · rw [hcounts, h.counted, length_append, length_singleton, add_assoc]
      · rw [length_append, length_singleton, ← add_assoc, hshared, hnoticed]
    dsimp only
    split
    · refine ⟨hperm.nodup_iff.mpr hnodup, fun id' hmem => hdrawn id' (hperm.mem_iff.mp hmem),
        fun a ha => ?_, h.counted, fun _ => ?_⟩
      · rcases mem_append.mp ha with ha | ha
        · exact h.named a ha
        · rw [mem_singleton.mp ha]
          exact ⟨row, hget, hkey⟩
      · dsimp only
        rw [length_append, length_singleton, hnoticed]
        omega
    · exact hmissed _ (add_assoc _ _ _).symm
    · exact hmissed _ (add_right_comm _ _ _)

theorem Accounts.raiseNew (h : Accounts ctx db audit st t) (hmirrors : Mirrors db st t)
    {run : CompliancePass} {incident : Incident}
    (hincident : incident.key = ctx.keyOf finding)
    (hkeys : KeysKept (st.session.view db.incidents) (session.view db.incidents))
    (hnew : Mirrors db { st with session, supply := st.supply + 1, run } (ctx.raised finding t))
    (hget : (session.view db.incidents).get? st.supply = some incident) :
    Accounts ctx db audit
      (ctx.raiseNew finding incident st.supply { st with session, supply := st.supply + 1, run })
      ((ctx.raised finding t).capture ctx finding) := by
  have hmore : Accounts ctx db audit { st with session, supply := st.supply + 1, run }
      (ctx.raised finding t) := h.drawn_more hkeys
  have hfresh : st.supply ∉ st.announced.map fst ++ st.missed := by
    intro hmem
    have hlt := (h.drawn _ hmem).2
    rw [hmirrors.supply] at hlt
    exact absurd hlt (lt_irrefl _)
  have hrange : db.supply ≤ st.supply ∧ st.supply < db.supply + (ctx.raised finding t).opened := by
    rw [hmirrors.supply]
    exact ⟨le_add_right _ _, lt_succ_self _⟩
  unfold DriverContext.raiseNew Tally.capture
  rw [hnew.files]
  cases ctx.capture.captureEvidence (ctx.raised finding t).files finding with
  | error exc => exact ⟨hmore.apart, hmore.drawn, hmore.named, hmore.counted, hmore.shared⟩
  | ok captured =>
    obtain ⟨-, hcited⟩ := mirrors_citeEvidence hnew hget captured
    obtain ⟨row, hrow, hkey⟩ := hcited _ _ hget
    -- citing the evidence announces nothing
    have hafter : Accounts ctx db audit (citeEvidence st.supply incident
        captured { st with session, supply := st.supply + 1, run }) (ctx.raised finding t) := by
      have hnamed : ∀ a ∈ st.announced, ∃ row, ((citeEvidence st.supply incident captured
          { st with session, supply := st.supply + 1, run }).session.view db.incidents).get? a.1 =
            some row ∧ row.key = a.2 := by
        intro a ha
        obtain ⟨row, hget', hkey'⟩ := hmore.named a ha
        obtain ⟨row', hget'', hkey''⟩ := hcited a.1 row hget'
        exact ⟨row', hget'', hkey''.trans hkey'⟩
      unfold citeEvidence at hnamed ⊢
      split
      · rename_i hempty
        rw [if_pos hempty] at hnamed
        exact ⟨hmore.apart, hmore.drawn, hnamed, hmore.counted, hmore.shared⟩
      · rename_i hempty
        rw [if_neg hempty] at hnamed
        exact ⟨hmore.apart, hmore.drawn, hnamed, hmore.counted, hmore.shared⟩
    refine hafter.notify ?_ ?_ ?_ hrange hrow (hkey.trans hincident)
    · rfl
    · rfl
    · unfold citeEvidence
      split
      · exact hfresh
      · exact hfresh

theorem Silent.notify (h : Silent ctx audit st t)
    (hnoticed : t'.noticed = t.noticed + 1) (finding : Finding) (id : IncidentId) :
    Silent ctx audit (ctx.notify finding id st) t' := by
  unfold DriverContext.notify
  cases hchannel : ctx.channel with
  | none =>
    refine ⟨fun hsome => ?_, fun _ => h.silent fun channel hsome => ?_, h.grown⟩
    · rw [hchannel] at hsome
      cases hsome
    · rw [hchannel] at hsome
      cases hsome
  | some channel =>
    have hgiven := h.given (by rw [hchannel]; rfl)
    have hbefore : (∀ channel', ctx.channel = some channel' →
        ∀ i, i < t'.noticed → channel' (audit.notices + i) ≠ .delivered) → st.announced = [] := by
      intro hnone
      refine h.silent fun channel' hsome i hi => hnone channel' hsome i ?_
      omega
    have hgrown := h.grown
    dsimp only
    split
    · rename_i hdelivered
      refine ⟨fun _ => ?_, fun hnone => ?_, hgrown⟩
      · unfold notices at hgiven ⊢
        dsimp only
        omega
      · -- the notice that was delivered is one of the pass
        rw [hgiven] at hdelivered
        exact absurd hdelivered (hnone channel hchannel t.noticed (by omega))
    · refine ⟨fun _ => ?_, hbefore, hgrown.trans (Nat.add_le_add_left (Nat.le_succ _) _)⟩
      unfold notices at hgiven ⊢
      dsimp only
      omega
    · refine ⟨fun _ => ?_, hbefore, hgrown.trans (Nat.add_le_add_right (Nat.le_succ _) _)⟩
      unfold notices at hgiven ⊢
      dsimp only
      omega

theorem Silent.raiseNew (h : Silent ctx audit st t) (hfiles : st.files = t.files)
    {run : CompliancePass} (finding : Finding) (incident : Incident)
    (id : IncidentId) :
    Silent ctx audit (ctx.raiseNew finding incident id { st with session, supply, run })
      ((ctx.raised finding t).capture ctx finding) := by
  unfold DriverContext.raiseNew Tally.capture
  rw [show (ctx.raised finding t).files = st.files from hfiles.symm]
  cases ctx.capture.captureEvidence st.files finding with
  | error exc => exact ⟨h.given, h.silent, h.grown⟩
  | ok captured =>
    have hcited : Silent ctx audit (citeEvidence id incident captured
        { st with session, supply, run }) t := by
      unfold citeEvidence
      split
      · exact ⟨h.given, h.silent, h.grown⟩
      · exact ⟨h.given, h.silent, h.grown⟩
    exact hcited.notify rfl finding id

/-- The loop, turn by turn. -/
theorem applyAll_accounts (findings : List Finding) (htracks : Tracks db st t)
    (hsilent : Silent ctx audit st t) (haccounts : t.HandlesFree db → Accounts ctx db audit st t) :
    Silent ctx audit (ctx.applyAll db findings st).1 (findings.foldl (after ctx db) t) ∧
      ((findings.foldl (after ctx db) t).HandlesFree db →
        Accounts ctx db audit (ctx.applyAll db findings st).1
          (findings.foldl (after ctx db) t)) := by
  induction findings generalizing st t with
  | nil => exact ⟨hsilent, haccounts⟩
  | cons finding rest ih =>
    have hnext : Tracks db (ctx.applyFinding db finding st).1 (t.after ctx db finding) :=
      (tracks_applyFinding htracks finding).1
    by_cases hfree : t.HandlesFree db
    · have hmirrors := htracks.mirrors hfree
      have hbefore := haccounts hfree
      rcases applyFinding_cases hmirrors hfree finding with
        ⟨hquiet, -⟩ | ⟨session, run, incident, hturn, hincident, -, hafter, hnew, hkeys, hget⟩
      · apply ih hnext
        · refine ⟨?_, ?_, ?_⟩
          · rw [hquiet.audit, hquiet.noticed]
            exact hsilent.given
          · rw [hquiet.announced, hquiet.noticed]
            exact hsilent.silent
          · rw [hquiet.audit]
            exact hsilent.grown
        · exact fun _ => hbefore.quiet hquiet
      · apply ih hnext
        · rw [hturn, hafter]
          exact hsilent.raiseNew hmirrors.files finding incident st.supply
        · rw [hturn, hafter]
          exact fun _ => hbefore.raiseNew hmirrors hincident hkeys hnew hget
    · obtain ⟨-, hafter, hannounced, haudit, -⟩ :=
        applyFinding_of_clash ctx htracks hfree finding
      apply ih hnext
      · rw [hafter]
        refine ⟨?_, ?_, ?_⟩
        · rw [haudit]
          exact hsilent.given
        · rw [hannounced]
          exact hsilent.silent
        · rw [haudit]
          exact hsilent.grown
      · rw [hafter]
        exact fun hno => absurd hno hfree

/-! ## What a pass commits -/

theorem mem_newRows {before after : Incidents} :
    (id, row) ∈ newRows before after ↔ after.get? id = some row ∧ before.get? id = none := by
  unfold newRows
  rw [mem_filter, ← get?_eq_some_iff, Option.isNone_iff_eq_none]

theorem Mirrors.drawn_of_new (h : Mirrors db st t)
    (hget : (st.session.view db.incidents).get? id = some row)
    (hnew : db.incidents.get? id = none) : db.supply ≤ id ∧ id < db.supply + t.opened := by
  constructor
  · by_contra hlow
    have hown := h.own id (Nat.lt_of_not_le hlow)
    rw [IncidentSession.get?_view_eq, hown, hnew] at hget
    cases hget
  · rw [← h.supply]
    exact h.alone.drawn id row hget

theorem Accounts.count_le (h : Accounts ctx db audit st t) (key : IncidentKey) :
    (st.announced.map snd).count key ≤
      ((newRows db.incidents (st.session.view db.incidents)).map (·.2.key)).count key := by
  have hnodup : st.announced.Nodup := (List.Nodup.of_append_left h.apart).of_map _
  have hsubset : st.announced ⊆
      (newRows db.incidents (st.session.view db.incidents)).map fun e => (e.1, e.2.key) := by
    intro a ha
    obtain ⟨row, hget, hkey⟩ := h.named a ha
    have hid := (h.drawn a.1 (mem_append_left _ (mem_map_of_mem ha))).1
    have hnone : db.incidents.get? a.1 = none := by
      cases hbefore : db.incidents.get? a.1 with
      | none => rfl
      | some before => exact absurd (db.drawn a.1 before hbefore) (not_lt.mpr hid)
    exact mem_map.mpr ⟨(a.1, row), mem_newRows.mpr ⟨hget, hnone⟩, Prod.ext rfl hkey⟩
  have hcount := (hnodup.subperm hsubset).countP_le (fun a => a.2 == key)
  rw [countP_map] at hcount
  unfold List.count
  rw [countP_map, countP_map]
  exact hcount

theorem Accounts.told (h : Accounts ctx db audit st t) (hmirrors : Mirrors db st t)
    (hnotices : t.opened = 0 ∨ (t.noticed = t.opened ∧ ctx.channel.isSome = true))
    (hnew : (id, row) ∈ newRows db.incidents (st.session.view db.incidents)) :
    (id, row.key) ∈ st.announced ∨ id ∈ st.missed := by
  obtain ⟨hget, hnone⟩ := mem_newRows.mp hnew
  obtain ⟨hlow, hhigh⟩ := hmirrors.drawn_of_new hget hnone
  rcases hnotices with hzero | ⟨hall, hchannel⟩
  · rw [hzero] at hhigh
    exact absurd hlow (not_le.mpr hhigh)
  -- as many ids as were drawn are announced or missed, no id twice: they are all of them
  have hsub : (st.announced.map fst ++ st.missed).toFinset ⊆
      Finset.Ico db.supply (db.supply + t.opened) := by
    intro id' hmem
    exact Finset.mem_Ico.mpr (h.drawn id' (mem_toFinset.mp hmem))
  have hcard : (Finset.Ico db.supply (db.supply + t.opened)).card ≤
      (st.announced.map fst ++ st.missed).toFinset.card := by
    rw [toFinset_card_of_nodup h.apart, card_Ico, length_append, length_map,
      h.shared hchannel, hall]
    omega
  have hsame := Finset.eq_of_subset_of_card_le hsub hcard
  have hmem : id ∈ st.announced.map fst ++ st.missed := by
    rw [← mem_toFinset, hsame]
    exact Finset.mem_Ico.mpr ⟨hlow, hhigh⟩
  rcases mem_append.mp hmem with hannounced | hmissed
  · obtain ⟨a, ha, rfl⟩ := mem_map.mp hannounced
    obtain ⟨row', hget', hkey⟩ := h.named a ha
    rw [hget] at hget'
    cases hget'
    rw [hkey]
    exact .inl ha
  · exact .inr hmissed

theorem accounts_begin (ctx : DriverContext) (db : Database) (audit : NotificationAudit) :
    Accounts ctx db audit (begin db audit) (start db) where
  apart := nodup_nil
  drawn := fun _ h => by cases h
  named := fun _ h => by cases h
  counted := rfl
  shared := fun _ => rfl

theorem silent_begin (ctx : DriverContext) (db : Database) (audit : NotificationAudit) :
    Silent ctx audit (begin db audit) (start db) :=
  ⟨fun _ => rfl, fun _ => rfl, le_refl _⟩

variable {findings : List Finding}

theorem apply_of_commit (ctx : DriverContext) (audit : NotificationAudit)
    (hfree : (of ctx db findings).HandlesFree db) :
    ∃ st, Mirrors db st (of ctx db findings) ∧
      Accounts ctx db audit st (of ctx db findings) ∧
      (ctx.apply db audit findings false).incidents = st.session.view db.incidents ∧
      (ctx.apply db audit findings false).supply = st.supply ∧
      (ctx.apply db audit findings false).announced = st.announced ∧
      (ctx.apply db audit findings false).audit = st.audit := by
  cases findings with
  | nil =>
    refine ⟨begin db audit, mirrors_begin db audit, accounts_begin ctx db audit, ?_, rfl, rfl, rfl⟩
    apply ext
    exact (map_id _).symm
  | cons finding rest =>
    have htracks : Tracks db (ctx.applyAll db (finding :: rest) (begin db audit)).1
        (of ctx db (finding :: rest)) :=
      (tracks_applyAll (finding :: rest) (R := fun _ => True) (.inl (mirrors_begin db audit))).1
    obtain ⟨-, haccounts⟩ := applyAll_accounts (finding :: rest) (.inl (mirrors_begin db audit))
      (silent_begin ctx db audit) fun _ => accounts_begin ctx db audit
    have hmirrors := htracks.mirrors hfree
    have happly : ctx.apply db audit (finding :: rest) false =
        ctx.endScope db false (ctx.applyAll db (finding :: rest) (begin db audit)).1
          (ctx.applyAll db (finding :: rest) (begin db audit)).2 := rfl
    refine ⟨_, hmirrors, haccounts hfree, ?_⟩
    rw [happly]
    unfold endScope
    rw [flush_ok hmirrors hfree]
    exact ⟨rfl, rfl, rfl, rfl⟩

theorem apply_of_rollback (ctx : DriverContext) (audit : NotificationAudit)
    {commitFails : Bool}
    (hcommit : ¬ (commitFails = false ∧ (of ctx db findings).HandlesFree db)) :
    (ctx.apply db audit findings commitFails).incidents = db.incidents ∧
      db.supply ≤ (ctx.apply db audit findings commitFails).supply ∧
      audit.failed + audit.suppressed ≤ (ctx.apply db audit findings commitFails).audit.failed +
        (ctx.apply db audit findings commitFails).audit.suppressed ∧
      ((∀ channel, ctx.channel = some channel →
          ∀ i, i < (of ctx db findings).noticed →
            channel (audit.notices + i) ≠ .delivered) →
        (ctx.apply db audit findings commitFails).announced = []) := by
  cases findings with
  | nil => exact ⟨rfl, le_refl _, le_refl _, fun _ => rfl⟩
  | cons finding rest =>
    have htracks : Tracks db (ctx.applyAll db (finding :: rest) (begin db audit)).1
        (of ctx db (finding :: rest)) :=
      (tracks_applyAll (finding :: rest) (R := fun _ => True) (.inl (mirrors_begin db audit))).1
    obtain ⟨hsilent, -⟩ := applyAll_accounts (finding :: rest) (.inl (mirrors_begin db audit))
      (silent_begin ctx db audit) fun _ => accounts_begin ctx db audit
    have hsupply : db.supply ≤ (ctx.applyAll db (finding :: rest) (begin db audit)).1.supply := by
      rw [htracks.supply]
      exact le_add_right _ _
    have happly : ctx.apply db audit (finding :: rest) commitFails =
        ctx.endScope db commitFails (ctx.applyAll db (finding :: rest) (begin db audit)).1
          (ctx.applyAll db (finding :: rest) (begin db audit)).2 := rfl
    rw [happly]
    unfold endScope
    by_cases hfree : (of ctx db (finding :: rest)).HandlesFree db
    · have hfails : commitFails = true := by
        cases commitFails with
        | true => rfl
        | false => exact absurd ⟨rfl, hfree⟩ hcommit
      rw [flush_ok (htracks.mirrors hfree) hfree, hfails]
      exact ⟨rfl, hsupply, hsilent.grown, hsilent.silent⟩
    · obtain ⟨exc, hflush⟩ := flush_error htracks hfree
      rw [hflush]
      exact ⟨rfl, hsupply, hsilent.grown, hsilent.silent⟩

theorem drawn_apply (ctx : DriverContext) (db : Database) (audit : NotificationAudit)
    (findings : List Finding) (commitFails : Bool) (id : IncidentId) (row : Incident)
    (hget : (ctx.apply db audit findings commitFails).incidents.get? id = some row) :
    id < (ctx.apply db audit findings commitFails).supply := by
  by_cases hcommit : commitFails = false ∧ (of ctx db findings).HandlesFree db
  · obtain ⟨hfails, hfree⟩ := hcommit
    rw [hfails] at hget ⊢
    obtain ⟨st, hmirrors, -, hincidents, hsupply, -, -⟩ :=
      apply_of_commit ctx audit hfree
    rw [hincidents] at hget
    rw [hsupply]
    exact hmirrors.alone.drawn id row hget
  · obtain ⟨hincidents, hsupply, -, -⟩ := apply_of_rollback ctx audit hcommit
    rw [hincidents] at hget
    exact lt_of_lt_of_le (db.drawn id row hget) hsupply

namespace Deployment

/-- `run_once`, from its findings on. -/
def result (s : Deployment) (p : DriverPass) : PassResult :=
  p.ctx.apply s.db s.audit p.findings p.commitFails

def step (s : Deployment) (p : DriverPass) : Deployment where
  db :=
    { incidents := (s.result p).incidents
      supply := (s.result p).supply
      evidence := (s.result p).evidence
      drawn := drawn_apply p.ctx s.db s.audit p.findings p.commitFails }
  audit := (s.result p).audit
  announced := s.announced ++ (s.result p).announced.map snd
  committed := s.committed ++ (newRows s.db.incidents (s.result p).incidents).map (·.2.key)

/-- Under no key more incidents were announced than committed. -/
def AnnouncedRecorded (s : Deployment) : Prop :=
  ∀ key, s.announced.count key ≤ s.committed.count key

/-- Of the incidents that the pass commits, those that are not announced are no more than the
    notices that it counts as failed or refused. -/
def MissesCounted (s : Deployment) (p : DriverPass) : Prop :=
  ((newRows s.db.incidents (s.result p).incidents).filter fun e =>
      (e.1, e.2.key) ∉ (s.result p).announced).length + (s.audit.failed + s.audit.suppressed) ≤
    (s.result p).audit.failed + (s.result p).audit.suppressed

/-- The pass commits, and each incident it opens has its evidence captured and a notifier that
    is given its notice; or it does not commit, and none of its notices is delivered. -/
def Settled (s : Deployment) (p : DriverPass) : Prop :=
  let t := of p.ctx s.db p.findings
  (p.commitFails = false ∧ t.HandlesFree s.db →
    t.opened = 0 ∨ (t.noticed = t.opened ∧ p.ctx.channel.isSome = true)) ∧
  (¬ (p.commitFails = false ∧ t.HandlesFree s.db) →
    ∀ channel, p.ctx.channel = some channel →
      ∀ i, i < t.noticed → channel (s.audit.notices + i) ≠ .delivered)

theorem pass_of_settled {s : Deployment} {p : DriverPass} (h : s.Settled p) :
    (∀ key, ((s.result p).announced.map snd).count key ≤
      ((newRows s.db.incidents (s.result p).incidents).map (·.2.key)).count key) ∧
    s.MissesCounted p := by
  obtain ⟨hnotices, hsilent⟩ := h
  unfold MissesCounted result
  by_cases hcommit : p.commitFails = false ∧ (of p.ctx s.db p.findings).HandlesFree s.db
  · obtain ⟨st, hmirrors, haccounts, hincidents, -, hannounced, haudit⟩ :=
      apply_of_commit p.ctx s.audit hcommit.2
    rw [hcommit.1, hincidents, hannounced, haudit]
    refine ⟨haccounts.count_le, ?_⟩
    -- the new rows that are not announced have ids that were missed
    have hids : ((newRows s.db.incidents (st.session.view s.db.incidents)).filter fun e =>
        (e.1, e.2.key) ∉ st.announced).map fst ⊆ st.missed := by
      intro id hid
      obtain ⟨⟨id', row⟩, he, rfl⟩ := mem_map.mp hid
      obtain ⟨hnew, hnot⟩ := mem_filter.mp he
      exact (haccounts.told hmirrors (hnotices hcommit) hnew).resolve_left (of_decide_eq_true hnot)
    have hnodup : (((newRows s.db.incidents (st.session.view s.db.incidents)).filter fun e =>
        (e.1, e.2.key) ∉ st.announced).map fst).Nodup := by
      apply List.Nodup.sublist _ (st.session.view s.db.incidents).nodupKeys
      exact (filter_sublist.trans filter_sublist).map _
    have hlength := (hnodup.subperm hids).length_le
    rw [length_map] at hlength
    rw [haccounts.counted]
    omega
  · obtain ⟨hincidents, -, hgrown, hannounced⟩ := apply_of_rollback p.ctx s.audit hcommit
    have hnone : newRows s.db.incidents s.db.incidents = [] := by
      apply filter_eq_nil_iff.mpr
      intro e he
      rw [get?_eq_some_iff.mpr he]
      exact Bool.false_ne_true
    rw [hincidents, hannounced (hsilent hcommit), hnone]
    exact ⟨fun _ => le_refl _, (zero_add _).trans_le hgrown⟩

def initial (db : Database) (audit : NotificationAudit) : Deployment := { db, audit }

/-- Over a run whose passes are all settled, nothing is announced that is not on record, and
    every committed incident that was not announced was counted. -/
theorem announced_recorded_of_settled (db : Database) (audit : NotificationAudit)
    {passes : List DriverPass} (hsettled : Runs.Always step Settled (initial db audit) passes) :
    (∀ before, before <+: passes →
      (run step (initial db audit) before).AnnouncedRecorded) ∧
      Runs.Always step MissesCounted (initial db audit) passes := by
  have hstart : (initial db audit).AnnouncedRecorded := fun _ => le_refl _
  have hkeep : ∀ (s : Deployment) (p : DriverPass), s.AnnouncedRecorded → s.Settled p →
      (s.step p).AnnouncedRecorded := by
    intro s p hrecorded hp key
    show (s.announced ++ _).count key ≤ (s.committed ++ _).count key
    rw [count_append, count_append]
    exact Nat.add_le_add (hrecorded key) ((pass_of_settled hp).1 key)
  constructor
  · intro before hbefore
    exact reached_of_always hkeep hstart hsettled hbefore
  · exact always_mono_of_kept hkeep (fun _ _ _ hp => (pass_of_settled hp).2) hstart hsettled

end Deployment

def bareheadedFinding : Finding where
  findingId := "headwear@1:object:100000000005"
  ruleId := "headwear"
  ruleVersion := "1"
  rulesetVersion := ""
  state := .violation
  subject := { objectId := "object", classId := "person", cameraId := "camera" }
  evaluatedAt := ⟨100000000005⟩
  conditions := [{
    attributeKey := "head_covering"
    operator := "eq"
    expected := .str "hairnet"
    observed := .str "none"
    satisfied := some false
    observedAt := some ⟨100000000000⟩
    accepted := rfl }]
  severity := "high"
  accepted := rfl

def announcingDriver : DriverContext := { capturingDriver with channel := some fun _ => .delivered }

def announcingPass (commitFails : Bool) : DriverPass where
  ctx := announcingDriver
  findings := [bareheadedFinding]
  commitFails

theorem announced_recorded_of_one_pass :
    (∀ before, before <+: [announcingPass false] →
      (run Deployment.step (.initial emptyDatabase {}) before).AnnouncedRecorded) ∧
      Runs.Always Deployment.step Deployment.MissesCounted (.initial emptyDatabase {})
        [announcingPass false] := by
  have hcommits : (announcingPass false).commitFails = false ∧
      (of announcingDriver emptyDatabase [bareheadedFinding]).HandlesFree emptyDatabase := by
    decide +kernel
  have hnotices :
      (of announcingDriver emptyDatabase [bareheadedFinding]).opened = 0 ∨
      ((of announcingDriver emptyDatabase [bareheadedFinding]).noticed =
          (of announcingDriver emptyDatabase [bareheadedFinding]).opened ∧
        announcingDriver.channel.isSome = true) := by decide +kernel
  exact Deployment.announced_recorded_of_settled emptyDatabase {}
    ⟨⟨fun _ => hnotices, fun hno => absurd hcommits hno⟩, trivial⟩

/-- The first pass announces the incident and its commit is refused; the next one announces it
    again and commits it. -/
theorem retried_pass_announces_twice :
    ¬ (run Deployment.step (.initial emptyDatabase {})
      [announcingPass true, announcingPass false]).AnnouncedRecorded := by
  intro hrecorded
  have hannounced : (run Deployment.step (.initial emptyDatabase {})
      [announcingPass true, announcingPass false]).announced.count
        (announcingDriver.keyOf bareheadedFinding) = 2 := by decide +kernel
  have hcommitted : (run Deployment.step (.initial emptyDatabase {})
      [announcingPass true, announcingPass false]).committed.count
        (announcingDriver.keyOf bareheadedFinding) = 1 := by decide +kernel
  have hle := hrecorded (announcingDriver.keyOf bareheadedFinding)
  rw [hannounced, hcommitted] at hle
  exact absurd hle (by decide)

end VisionOs.App
