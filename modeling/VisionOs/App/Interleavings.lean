/-
  Compliance passes and operators at work on one table, each in a session of its own: what any
  interleaving of their statements and commits leaves committed.
-/
import VisionOs.App.Incidents
import VisionOs.Lib.Runs

namespace VisionOs.App

open Core Lib IncidentSession IncidentService Runs IncidentChanges Option Nat

structure Worker where
  session : IncidentSession := {}
  closing : Option (String × IncidentId) := none

structure IncidentSystem where
  committed : Incidents
  supply : IncidentId
  workers : Nat → Worker

/-- One statement of a session with the assignments that follow it, or its end. -/
inductive DbEvent where
  | violationFinding (worker : Nat) (request : OpenRequest)
  | compliantFinding (worker : Nat) (key : IncidentKey)
  | closeSelected (worker : Nat) (now : Instant)
  | acknowledge (worker : Nat) (organizationId : String) (id : IncidentId) (actor : String)
      (now : Instant)
  | resolve (worker : Nat) (organizationId : String) (id : IncidentId)
      (actor kind note : String) (now : Instant)
  | commit (worker : Nat)
  | rollback (worker : Nat)

namespace IncidentSystem

def initial : IncidentSystem := ⟨∅, 0, fun _ => {}⟩

def setWorker (s : IncidentSystem) (worker : Nat) (w : Worker) : IncidentSystem :=
  { s with workers := fun k => if k = worker then w else s.workers k }

def afterCall (w : Worker) : Raises IncidentSession → Worker
  | .ok session => { w with session }
  | .error _ => w

def step (s : IncidentSystem) : DbEvent → IncidentSystem
  | .violationFinding worker request =>
    let w := s.workers worker
    let opened := openIncident w.session s.committed s.supply request
    { s.setWorker worker { w with session := opened.1 } with supply := s.supply + 1 }
  | .compliantFinding worker key =>
    let w := s.workers worker
    match openFor w.session s.committed key with
    | none => s
    | some (id, incident) =>
      s.setWorker worker
        { session := w.session.load id incident, closing := some (key.organizationId, id) }
  | .closeSelected worker now =>
    let w := s.workers worker
    match w.closing with
    | none => s
    | some (organizationId, id) =>
      s.setWorker worker (afterCall { w with closing := none }
        (resolve w.session s.committed organizationId id "vision-os" "observation"
          observedNote now))
  | .acknowledge worker organizationId id actor now =>
    let w := s.workers worker
    s.setWorker worker (afterCall w
      (acknowledge w.session s.committed organizationId id actor now))
  | .resolve worker organizationId id actor kind note now =>
    let w := s.workers worker
    s.setWorker worker (afterCall w
      (resolve w.session s.committed organizationId id actor kind note now))
  | .commit worker =>
    { s.setWorker worker {} with committed := (s.workers worker).session.view s.committed }
  | .rollback worker => s.setWorker worker {}

/-- No two committed incidents that are not resolved have one key. -/
def OneOpen (rows : Incidents) : Prop :=
  ∀ id id' row row', rows.get? id = some row → rows.get? id' = some row' →
    row.isOpen = true → row'.isOpen = true → row.key = row'.key → id = id'

/-- The ids of the committed incidents that are resolved. -/
def resolvedIds (s : IncidentSystem) : Set IncidentId :=
  { id | ∃ row, s.committed.get? id = some row ∧ row.status = .resolved }

/-- The commit neither adds a second open incident under a key nor reopens a resolved one. -/
def StillCurrent (session : IncidentSession) (committed : Incidents) : Prop :=
  (∀ id row, session.added.get? id = some row → row.isOpen = true →
    ∀ id' row', committed.get? id' = some row' → row'.isOpen = true → row'.key = row.key →
      (session.changesTo id').status = some .resolved) ∧
  ∀ id row, committed.get? id = some row → row.status = .resolved →
    (session.changesTo id).status = none ∨ (session.changesTo id).status = some .resolved

/-- A commit comes while what its session read is current. -/
def Current (s : IncidentSystem) : DbEvent → Prop
  | .commit worker => StillCurrent (s.workers worker).session s.committed
  | _ => True

/-! ## What a session's calls do to the rows it added -/

/-- The second session has no rows of its own but those of the first, under the same keys, and
    none of them is open again. -/
def Follows (s s' : IncidentSession) : Prop :=
  ∀ id row', s'.added.get? id = some row' → ∃ row, s.added.get? id = some row ∧
    row'.key = row.key ∧ (row'.isOpen = true → row.isOpen = true)

theorem Follows.refl (s : IncidentSession) : Follows s s :=
  fun _ row h => ⟨row, h, rfl, id⟩

variable {s' : IncidentSession}

variable {s : IncidentSession}

theorem Follows.of_added_eq (h : s'.added = s.added) : Follows s s' := by
  intro id row hget
  rw [h] at hget
  exact ⟨row, hget, rfl, fun hopen => hopen⟩

theorem Follows.assign (s : IncidentSession) (id : IncidentId) (row : Incident)
    (changes : IncidentChanges)
    (hopen : ∀ own, s.added.get? id = some own → (changes.apply own).isOpen = true →
      own.isOpen = true) : Follows s (s.assign id row changes) := by
  intro id' row' hget
  rw [added_assign, map_eq_some_iff] at hget
  obtain ⟨own, hown, heq⟩ := hget
  by_cases hid : id = id'
  · rw [if_pos hid] at heq
    subst hid heq
    exact ⟨own, hown, rfl, hopen own hown⟩
  · rw [if_neg hid] at heq
    subst heq
    exact ⟨own, hown, rfl, fun h => h⟩

variable {organizationId : String} {id : IncidentId} {row : Incident} {committed : Incidents}

theorem get_eq_ok
    (h : get s committed organizationId id = .ok row) :
    ∀ own, s.added.get? id = some own → row = own := by
  unfold IncidentService.get at h
  intro own hown
  split at h
  · cases h
  · rename_i id' incident hselect
    cases h
    obtain ⟨seen, -, htest, hheld⟩ := selectFirst_eq_some hselect
    obtain ⟨rfl, -⟩ := of_decide_eq_true htest
    rw [hheld, held_of_added hown]

variable {actor : String} {now : Instant}

theorem follows_acknowledge
    (h : acknowledge s committed organizationId id actor now = .ok s') :
    Follows s s' := by
  obtain ⟨row, hget, hrest⟩ := bind_eq_ok.mp h
  obtain ⟨hrequire, hrest⟩ := check_bind_eq_ok.mp hrest
  have hnot := require_eq_ok.mp hrequire
  split at hrest
  · cases hrest
    exact Follows.of_added_eq (added_load s id row)
  · cases hrest
    refine Follows.assign s id row _ fun own hown _ => ?_
    -- a resolved row of its own would have been refused
    rw [← get_eq_ok hget own hown]
    exact decide_eq_true hnot

theorem follows_resolve {kind note : String}
    (h : resolve s committed organizationId id actor kind note now = .ok s') :
    Follows s s' := by
  obtain ⟨-, h⟩ := check_bind_eq_ok.mp h
  obtain ⟨-, h⟩ := check_bind_eq_ok.mp h
  obtain ⟨row, -, hrest⟩ := bind_eq_ok.mp h
  split at hrest
  · cases hrest
    exact Follows.of_added_eq (added_load s id row)
  · cases hrest
    refine Follows.assign s id row _ fun own _ hopen => ?_
    simp [Incident.isOpen] at hopen

theorem openIncident_cases (s : IncidentSession) (committed : Incidents) (drawn : IncidentId)
    (request : OpenRequest) :
    Follows s (openIncident s committed drawn request).1 ∨
      ((openIncident s committed drawn request).1.added =
          s.added.set drawn request.incident ∧
        ∀ id row, s.added.get? id = some row → row.isOpen = true → row.key ≠ request.key) := by
  unfold openIncident
  cases hopen : openFor s committed request.key with
  | some found =>
    left
    exact Follows.assign s found.1 found.2 _ fun own _ h => h
  | none =>
    refine .inr ⟨rfl, fun id row hadded hisOpen hkey => ?_⟩
    have hview := (get?_view s committed id row).mpr (.inl hadded)
    have hno := selectFirst_eq_none hopen hview
    exact of_decide_eq_false hno ⟨hkey, hisOpen⟩

/-! ## What every event keeps -/

theorem OneOpen.of_follows (h : Follows s s') (hone : OneOpen s.added) : OneOpen s'.added := by
  intro id id' row row' hget hget' hopen hopen' hkey
  obtain ⟨before, hbefore, hsame, hwas⟩ := h id row hget
  obtain ⟨before', hbefore', hsame', hwas'⟩ := h id' row' hget'
  refine hone id id' before before' hbefore hbefore' (hwas hopen) (hwas' hopen') ?_
  rw [← hsame, ← hsame', hkey]

/-- What holds between the committed rows and the sessions at work on them. -/
structure Sound (s : IncidentSystem) : Prop where
  drawn : ∀ id row, s.committed.get? id = some row → id < s.supply
  ownDrawn : ∀ worker id row, (s.workers worker).session.added.get? id = some row → id < s.supply
  apart : ∀ worker id row, (s.workers worker).session.added.get? id = some row →
    s.committed.get? id = none
  alone : ∀ worker worker' id row row', (s.workers worker).session.added.get? id = some row →
    (s.workers worker').session.added.get? id = some row' → worker = worker'
  own : ∀ worker, OneOpen (s.workers worker).session.added
  oneOpen : OneOpen s.committed

theorem sound_initial : initial.Sound where
  drawn := fun _ _ h => by cases h
  ownDrawn := fun _ _ _ h => by cases h
  apart := fun _ _ _ h => by cases h
  alone := fun _ _ _ _ _ h => by cases h
  own := fun _ _ _ _ _ h => by cases h
  oneOpen := fun _ _ _ _ h => by cases h

variable {s : IncidentSystem}

variable {worker : Nat}

theorem Sound.setWorker (h : s.Sound) {w : Worker}
    (hfollows : Follows (s.workers worker).session w.session) : (s.setWorker worker w).Sound := by
  have hback : ∀ k id row, ((s.setWorker worker w).workers k).session.added.get? id = some row →
      ∃ before, (s.workers k).session.added.get? id = some before := by
    intro k id row hget
    unfold IncidentSystem.setWorker at hget
    dsimp only at hget
    split at hget
    · rename_i hk
      subst hk
      obtain ⟨before, hbefore, -⟩ := hfollows id row hget
      exact ⟨before, hbefore⟩
    · exact ⟨row, hget⟩
  refine ⟨h.drawn, fun k id row hget => ?_, fun k id row hget => ?_,
    fun k k' id row row' hget hget' => ?_, fun k => ?_, h.oneOpen⟩
  · obtain ⟨before, hbefore⟩ := hback k id row hget
    exact h.ownDrawn k id before hbefore
  · obtain ⟨before, hbefore⟩ := hback k id row hget
    exact h.apart k id before hbefore
  · obtain ⟨before, hbefore⟩ := hback k id row hget
    obtain ⟨before', hbefore'⟩ := hback k' id row' hget'
    exact h.alone k k' id before before' hbefore hbefore'
  · unfold IncidentSystem.setWorker
    dsimp only
    split
    · exact (h.own worker).of_follows hfollows
    · exact h.own k

theorem Sound.draw (h : s.Sound) : Sound { s with supply := s.supply + 1 } where
  drawn := fun id row hget => lt_succ_of_lt (h.drawn id row hget)
  ownDrawn := fun k id row hget => lt_succ_of_lt (h.ownDrawn k id row hget)
  apart := h.apart
  alone := h.alone
  own := h.own
  oneOpen := h.oneOpen

variable {session : IncidentSession}

theorem Sound.add (h : s.Sound) {closing : Option (String × IncidentId)}
    (hadded : session.added = (s.workers worker).session.added.set s.supply row)
    (hnone : ∀ id own, (s.workers worker).session.added.get? id = some own → own.isOpen = true →
      own.key ≠ row.key) :
    Sound { s.setWorker worker ⟨session, closing⟩ with supply := s.supply + 1 } := by
  have hback : ∀ k id row', ((s.setWorker worker ⟨session, closing⟩).workers k).session.added.get?
      id = some row' → (k = worker ∧ id = s.supply ∧ row' = row) ∨
        (id < s.supply ∧ (s.workers k).session.added.get? id = some row') := by
    intro k id row' hget
    unfold IncidentSystem.setWorker at hget
    dsimp only at hget
    split at hget
    · rename_i hk
      subst hk
      rw [hadded, OrderedDict.get?_set] at hget
      split at hget
      · rename_i hid
        exact .inl ⟨rfl, hid.symm, (some.inj hget).symm⟩
      · exact .inr ⟨h.ownDrawn k id row' hget, hget⟩
    · exact .inr ⟨h.ownDrawn k id row' hget, hget⟩
  refine ⟨h.draw.drawn, fun k id row' hget => ?_, fun k id row' hget => ?_,
    fun k k' id row' row'' hget hget' => ?_, fun k => ?_, h.oneOpen⟩
  · rcases hback k id row' hget with ⟨-, rfl, -⟩ | ⟨hlt, -⟩
    · exact lt_succ_self _
    · exact lt_succ_of_lt hlt
  · rcases hback k id row' hget with ⟨-, rfl, -⟩ | ⟨-, hold⟩
    · -- the next id is not committed
      cases hcommitted : s.committed.get? s.supply with
      | none => exact hcommitted
      | some before => exact absurd (h.drawn _ _ hcommitted) (lt_irrefl _)
    · exact h.apart k id row' hold
  · rcases hback k id row' hget with ⟨rfl, rfl, -⟩ | ⟨hlt, hold⟩
    · rcases hback k' s.supply row'' hget' with ⟨rfl, -, -⟩ | ⟨hlt, -⟩
      · rfl
      · exact absurd hlt (lt_irrefl _)
    · rcases hback k' id row'' hget' with ⟨-, rfl, -⟩ | ⟨-, hold'⟩
      · exact absurd hlt (lt_irrefl _)
      · exact h.alone k k' id row' row'' hold hold'
  · intro id id' row' row'' hget hget' hopen hopen' hkey
    rcases hback k id row' hget with ⟨rfl, rfl, rfl⟩ | ⟨-, hold⟩
    · rcases hback k id' row'' hget' with ⟨-, rfl, -⟩ | ⟨-, hold'⟩
      · rfl
      · exact absurd hkey.symm (hnone id' row'' hold' hopen')
    · rcases hback k id' row'' hget' with ⟨rfl, rfl, rfl⟩ | ⟨-, hold'⟩
      · exact absurd hkey (hnone id row' hold hopen)
      · exact h.own k id id' row' row'' hold hold' hopen hopen' hkey

theorem Sound.committed_cases (h : s.Sound)
    (hget : ((s.workers worker).session.view s.committed).get? id = some row) :
    (s.workers worker).session.added.get? id = some row ∨
      ∃ before, s.committed.get? id = some before ∧ row.key = before.key ∧
        row.status = ((s.workers worker).session.changesTo id).status.getD before.status := by
  rcases (get?_view _ _ id row).mp hget with hadded | ⟨-, before, hbefore, rfl⟩
  · exact .inl hadded
  · exact .inr ⟨before, hbefore, rfl, rfl⟩

theorem StillCurrent.isOpen_before
    (hcurrent : StillCurrent session committed) {before : Incident}
    (hbefore : committed.get? id = some before)
    (hstatus : row.status = (session.changesTo id).status.getD before.status)
    (hopen : row.isOpen = true) : before.isOpen = true := by
  by_contra hclosed
  have hresolved : before.status = .resolved := by
    simpa [Incident.isOpen] using hclosed
  have hnot : row.status ≠ .resolved := of_decide_eq_true hopen
  rcases hcurrent.2 id before hbefore hresolved with hnone | hagain
  · rw [hnone] at hstatus
    exact hnot (hstatus.trans hresolved)
  · rw [hagain] at hstatus
    exact hnot hstatus

theorem Sound.commit (h : s.Sound)
    (hcurrent : StillCurrent (s.workers worker).session s.committed) :
    (s.step (.commit worker)).Sound := by
  have hempty : ∀ k id row, ((s.setWorker worker {}).workers k).session.added.get? id =
      some row → k ≠ worker ∧ (s.workers k).session.added.get? id = some row := by
    intro k id row hget
    unfold IncidentSystem.setWorker at hget
    dsimp only at hget
    split at hget
    · cases hget
    · rename_i hk
      exact ⟨hk, hget⟩
  refine ⟨fun id row hget => ?_, fun k id row hget => ?_, fun k id row hget => ?_,
    fun k k' id row row' hget hget' => ?_, fun k => ?_,
    fun id id' row row' hget hget' hopen hopen' hkey => ?_⟩
  · rcases h.committed_cases hget with hadded | ⟨before, hbefore, -⟩
    · exact h.ownDrawn worker id row hadded
    · exact h.drawn id before hbefore
  · exact h.ownDrawn k id row (hempty k id row hget).2
  · obtain ⟨hk, hold⟩ := hempty k id row hget
    cases hview : ((s.workers worker).session.view s.committed).get? id with
    | none => exact hview
    | some row' =>
      rcases h.committed_cases hview with hadded | ⟨before, hbefore, -⟩
      · exact absurd (h.alone k worker id row row' hold hadded) hk
      · rw [h.apart k id row hold] at hbefore
        cases hbefore
  · exact h.alone k k' id row row' (hempty k id row hget).2 (hempty k' id row' hget').2
  · intro id id' row row' hget hget' hopen hopen' hkey
    exact h.own k id id' row row' (hempty k id row hget).2 (hempty k id' row' hget').2 hopen
      hopen' hkey
  · -- An own row and a committed one of its key would not be current.
    have hmixed : ∀ (id id' : IncidentId) (row row' : Incident), (s.workers worker).session.added.get? id = some row →
        (∃ before, s.committed.get? id' = some before ∧ row'.key = before.key ∧
          row'.status =
            ((s.workers worker).session.changesTo id').status.getD before.status) →
        row.isOpen = true → row'.isOpen = true → row.key ≠ row'.key := by
      rintro id id' row row' hadded ⟨before, hbefore, hsame, hstatus⟩ hopen hopen' hkey
      have hwas := hcurrent.isOpen_before hbefore hstatus hopen'
      have hclosed := hcurrent.1 id row hadded hopen id' before hbefore hwas
        (hsame.symm.trans hkey.symm)
      rw [hclosed] at hstatus
      exact of_decide_eq_true hopen' hstatus
    rcases h.committed_cases hget with hadded | hold
    · rcases h.committed_cases hget' with hadded' | hold'
      · exact h.own worker id id' row row' hadded hadded' hopen hopen' hkey
      · exact absurd hkey (hmixed id id' row row' hadded hold' hopen hopen')
    rcases h.committed_cases hget' with hadded' | hold'
    · exact absurd hkey.symm (hmixed id' id row' row hadded' hold hopen' hopen)
    · obtain ⟨before, hbefore, hsame, hstatus⟩ := hold
      obtain ⟨before', hbefore', hsame', hstatus'⟩ := hold'
      refine h.oneOpen id id' before before' hbefore hbefore'
        (hcurrent.isOpen_before hbefore hstatus hopen)
        (hcurrent.isOpen_before hbefore' hstatus' hopen') ?_
      rw [← hsame, ← hsame', hkey]

variable {event : DbEvent}

/-- Every statement and every commit that is still current keeps the table sound. -/
theorem Sound.step (h : s.Sound) (hcurrent : s.Current event) : (s.step event).Sound := by
  have hcall : ∀ (w : Worker) (result : Raises IncidentSession),
      (∀ session, result = .ok session → Follows w.session session) →
      Follows w.session (afterCall w result).session := by
    intro w result hfollows
    cases result with
    | error exc => exact Follows.refl _
    | ok session => exact hfollows session rfl
  cases event with
  | violationFinding worker request =>
    rcases openIncident_cases (s.workers worker).session s.committed s.supply request with
      hfollows | ⟨hadded, hnone⟩
    · exact (h.setWorker (w := { s.workers worker with session := _ }) hfollows).draw
    · exact h.add hadded hnone
  | compliantFinding worker key =>
    unfold IncidentSystem.step
    dsimp only
    split
    · exact h
    · exact h.setWorker (Follows.of_added_eq (added_load _ _ _))
  | closeSelected worker now =>
    unfold IncidentSystem.step
    dsimp only
    split
    · exact h
    · exact h.setWorker (hcall { s.workers worker with closing := none } _
        fun session hok => follows_resolve hok)
  | acknowledge worker organizationId id actor now =>
    exact h.setWorker (hcall (s.workers worker) _ fun session hok => follows_acknowledge hok)
  | resolve worker organizationId id actor kind note now =>
    exact h.setWorker (hcall (s.workers worker) _ fun session hok => follows_resolve hok)
  | commit worker => exact h.commit hcurrent
  | rollback worker =>
    refine h.setWorker fun id row hget => ?_
    cases hget

theorem Sound.resolvedIds_commit (h : s.Sound)
    (hcurrent : StillCurrent (s.workers worker).session s.committed) :
    s.resolvedIds ⊆ (s.step (.commit worker)).resolvedIds := by
  rintro id ⟨row, hget, hresolved⟩
  have hnotAdded : (s.workers worker).session.added.get? id = none := by
    cases hadded : (s.workers worker).session.added.get? id with
    | none => rfl
    | some own =>
      rw [h.apart worker id own hadded] at hget
      cases hget
  refine ⟨((s.workers worker).session.changesTo id).apply row,
    (get?_view _ _ _ _).mpr (.inr ⟨hnotAdded, row, hget, rfl⟩), ?_⟩
  rw [apply_status]
  rcases hcurrent.2 id row hget hresolved with hnone | hagain
  · rw [hnone]
    exact hresolved
  · rw [hagain]
    rfl

theorem Sound.broken (h : s.Sound) (hnot : ¬ StillCurrent (s.workers worker).session s.committed) :
    ¬ (OneOpen (s.step (.commit worker)).committed ∧
      s.resolvedIds ⊆ (s.step (.commit worker)).resolvedIds) := by
  rintro ⟨hone, hresolved⟩
  refine hnot ⟨fun id row hadded hopen id' row' hget hopen' hkey => ?_,
    fun id row hget hwas => ?_⟩
  · by_contra hkept
    have hnotAdded : (s.workers worker).session.added.get? id' = none := by
      cases hadded' : (s.workers worker).session.added.get? id' with
      | none => rfl
      | some own =>
        rw [h.apart worker id' own hadded'] at hget
        cases hget
    have hview := (get?_view _ s.committed id row).mpr (.inl hadded)
    have hview' := (get?_view _ s.committed id' _).mpr
      (.inr ⟨hnotAdded, row', hget, rfl⟩)
    have hstill : (((s.workers worker).session.changesTo id').apply row').isOpen = true := by
      refine decide_eq_true ?_
      rw [apply_status]
      cases hstatus : ((s.workers worker).session.changesTo id').status with
      | none => exact of_decide_eq_true hopen'
      | some status =>
        rintro rfl
        exact hkept hstatus
    have hsame := hone id id' row _ hview hview' hopen hstill hkey.symm
    rw [hsame, hnotAdded] at hadded
    cases hadded
  · obtain ⟨after, hafter, hafterResolved⟩ := hresolved ⟨row, hget, hwas⟩
    rcases (get?_view _ _ id after).mp hafter with
      hadded | ⟨-, before, hbefore, rfl⟩
    · rw [h.apart worker id after hadded] at hget
      cases hget
    · rw [apply_status] at hafterResolved
      cases hstatus : ((s.workers worker).session.changesTo id).status with
      | none => exact .inl rfl
      | some status =>
        rw [hstatus] at hafterResolved
        exact .inr (congrArg some hafterResolved)

theorem committed_step (h : ∀ worker, event ≠ .commit worker) :
    (s.step event).committed = s.committed := by
  cases event with
  | violationFinding worker request => rfl
  | compliantFinding worker key =>
    unfold IncidentSystem.step
    dsimp only
    split <;> rfl
  | closeSelected worker now =>
    unfold IncidentSystem.step
    dsimp only
    split <;> rfl
  | acknowledge worker organizationId id actor now => rfl
  | resolve worker organizationId id actor kind note now => rfl
  | commit worker => exact absurd rfl (h worker)
  | rollback worker => rfl

/-- Under every interleaving, the committed incidents have one open incident for a subject and
    a rule, and what is resolved stays resolved, exactly when every session commits while what
    it read is still current. -/
theorem one_open_and_stays_resolved_iff (events : List DbEvent) :
    ((∀ before, before <+: events → OneOpen (run step initial before).committed) ∧
      ∀ earlier later, earlier <+: later → later <+: events →
        (run step initial earlier).resolvedIds ⊆
          (run step initial later).resolvedIds) ↔
      Runs.Always step Current initial events := by
  have hone : (∀ before, before <+: events →
      OneOpen (run step initial before).committed) ↔
      OneOpen initial.committed ∧
        Runs.Always step (fun s event => OneOpen (s.step event).committed) initial events :=
    reached_iff (R := fun s : IncidentSystem => OneOpen s.committed)
  have hmono : (∀ earlier later, earlier <+: later → later <+: events →
        (run step initial earlier).resolvedIds ⊆
          (run step initial later).resolvedIds) ↔
      Runs.Always step (fun s event => s.resolvedIds ⊆ (s.step event).resolvedIds) initial
        events := monotone_iff_always resolvedIds
  rw [hone, hmono, and_assoc, ← always_and, and_iff_right sound_initial.oneOpen]
  have hkeep : ∀ (s : IncidentSystem) event, s.Sound → s.Current event → (s.step event).Sound :=
    fun s event h hcurrent => h.step hcurrent
  refine always_iff_of_kept hkeep (fun s event h => ⟨fun hholds => ?_, fun hcurrent => ?_⟩)
    sound_initial events
  · cases event with
    | commit worker =>
      by_contra hnot
      exact h.broken hnot hholds
    | _ => trivial
  · refine ⟨(h.step hcurrent).oneOpen, ?_⟩
    cases event with
    | commit worker => exact h.resolvedIds_commit hcurrent
    | _ =>
      rintro id ⟨row, hget, hresolved⟩
      exact ⟨row, (by rw [committed_step (by rintro worker ⟨⟩)]; exact hget), hresolved⟩

def bareheadKey : IncidentKey := ⟨"org", "cam-13", "object", "headwear"⟩

def bareheadRequest : OpenRequest := { key := bareheadKey, observedAt := ⟨0⟩ }

/-- The timer's pass and the route's pass select before either commits. -/
def overlappingPasses : List DbEvent :=
  [.violationFinding 0 bareheadRequest, .violationFinding 1 bareheadRequest, .commit 0, .commit 1]

/-- An acknowledgement selects the incident, which is resolved before it commits. -/
def lateAcknowledgement : List DbEvent :=
  [.violationFinding 0 bareheadRequest, .commit 0, .acknowledge 1 "org" 0 "first" ⟨1⟩,
    .resolve 2 "org" 0 "second" "operator" "hairnet put on" ⟨2⟩, .commit 2, .commit 1]

/-- Two overlapping passes leave two open incidents of one subject and rule; an acknowledgement
    that commits after a resolution takes it back. -/
theorem overlapping_sessions_break :
    ¬ OneOpen (run step initial overlappingPasses).committed ∧
    0 ∈ (run step initial (lateAcknowledgement.take 5)).resolvedIds ∧
    0 ∉ (run step initial lateAcknowledgement).resolvedIds := by
  refine ⟨fun hone => ?_, ?_, ?_⟩
  · have hfirst : (run step initial overlappingPasses).committed.get? 0 =
        some bareheadRequest.incident := by decide +kernel
    have hsecond : (run step initial overlappingPasses).committed.get? 1 =
        some bareheadRequest.incident := by decide +kernel
    exact absurd (hone 0 1 _ _ hfirst hsecond (by decide) (by decide) rfl) (by decide)
  · have hstatus : ((run step initial (lateAcknowledgement.take 5)).committed.get? 0).map
        (·.status) = some .resolved := by decide +kernel
    obtain ⟨row, hget, hresolved⟩ := map_eq_some_iff.mp hstatus
    exact ⟨row, hget, hresolved⟩
  · have hstatus : ((run step initial lateAcknowledgement).committed.get? 0).map
        (·.status) = some .acknowledged := by decide +kernel
    rintro ⟨row, hget, hresolved⟩
    rw [hget, map_some, hresolved] at hstatus
    cases hstatus

end IncidentSystem

end VisionOs.App
