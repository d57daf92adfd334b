/-
  When a resolved incident was closed on later evidence than every violation of it: where every
  session commits in the order of the readings.
-/
import VisionOs.App.Closing

namespace VisionOs.App

open Core Compliance Exposure State Lib List ComplianceSystem Synthesis Option Manager.Advances Runs
open ComplianceDriver

namespace ComplianceSystem

variable (driver : ComplianceDriver) (config : StateSection)

/-! ## The readings -/

/-- Every reading holds what was observed, and each takes back nothing of those before it; the
    state takes back nothing of any. -/
structure ReadingsAdvance (values : CameraValues) (s : ComplianceSystem) : Prop where
  inv : ManagerInv s.vision
  observed : s.vision.Observed values
  readObserved : ∀ i, i < s.readings → (s.read i).Observed values
  reads : ∀ i j, i ≤ j → j < s.readings → (s.read i).Advances (s.read j)
  now : ∀ i, i < s.readings → (s.read i).Advances s.vision

def Ordered (s : ComplianceSystem) : Prop :=
  ∀ id row, s.db.committed.get? id = some row → row.status = .resolved →
    row.resolutionKind = some "observation" →
      ∀ closing, s.closedBy id = some closing →
        ∀ violation ∈ s.raised id, violation.reading < closing.reading

section Runs

variable {driver config} {values : CameraValues} {s : ComplianceSystem}

theorem ReadingsAdvance.initial (values : CameraValues) :
    ReadingsAdvance values initial where
  inv := managerInv_new
  observed := fun camera => Cell.Observed.empty (values camera)
  readObserved := fun _ h => absurd h (Nat.not_lt_zero _)
  reads := fun _ _ _ h => absurd h (Nat.not_lt_zero _)
  now := fun _ h => absurd h (Nat.not_lt_zero _)

variable {s' : ComplianceSystem}

theorem ReadingsAdvance.of_eq (h : ReadingsAdvance values s)
    (hvision : s'.vision = s.vision) (hreadings : s'.readings = s.readings)
    (hread : s'.read = s.read) : ReadingsAdvance values s' := by
  constructor
  · rw [hvision]
    exact h.inv
  · rw [hvision]
    exact h.observed
  · rw [hreadings, hread]
    exact h.readObserved
  · rw [hreadings, hread]
    exact h.reads
  · rw [hreadings, hread, hvision]
    exact h.now

theorem ReadingsAdvance.read (h : ReadingsAdvance values s)
    (hvision : s'.vision = s.vision) (hreadings : s'.readings = s.readings + 1)
    (hread : s'.read = fun i => if i = s.readings then s.vision else s.read i) :
    ReadingsAdvance values s' := by
  have hcases : ∀ i, i < s.readings + 1 → (s'.read i = s.vision ∨
      (i < s.readings ∧ s'.read i = s.read i)) := by
    intro i hi
    rw [hread]
    by_cases heq : i = s.readings
    · exact .inl (if_pos heq)
    · exact .inr ⟨by omega, if_neg heq⟩
  constructor
  · rw [hvision]
    exact h.inv
  · rw [hvision]
    exact h.observed
  · intro i hi
    rw [hreadings] at hi
    rcases hcases i hi with hnew | ⟨hlt, hold⟩
    · rw [hnew]
      exact h.observed
    · rw [hold]
      exact h.readObserved i hlt
  · intro i j hij hj
    rw [hreadings] at hj
    rcases hcases j hj with hnew | ⟨hlt, hold⟩
    · rw [hnew]
      rcases hcases i (by omega) with hnew' | ⟨hlt', hold'⟩
      · rw [hnew']
        exact refl s.vision
      · rw [hold']
        exact h.now i hlt'
    · have hi : s'.read i = s.read i := by
        rcases hcases i (by omega) with hnew' | ⟨-, hold'⟩
        · rw [hread]
          exact if_neg (by omega)
        · exact hold'
      rw [hold, hi]
      exact h.reads i j hij hlt
  · intro i hi
    rw [hreadings] at hi
    rw [hvision]
    rcases hcases i hi with hnew | ⟨hlt, hold⟩
    · rw [hnew]
      exact refl s.vision
    · rw [hold]
      exact h.now i hlt

theorem ReadingsAdvance.step (h : ReadingsAdvance values s) {event : ComplianceEvent}
    (hconsistent : Consistent config values s event) :
    ReadingsAdvance values (s.step driver config event) := by
  cases event with
  | observes at_ observations =>
    obtain ⟨hfits, hagrees⟩ := hconsistent
    obtain ⟨hadvances, hobserved⟩ := append_advances config at_ h.inv hfits
    exact ⟨h.inv.append config at_ observations, hobserved values h.observed hagrees,
      h.readObserved, h.reads, fun i hi => (h.now i hi).trans hadvances⟩
  | judges worker r =>
    unfold ComplianceSystem.step
    dsimp only
    split
    · exact h
    · exact h.read rfl rfl rfl
  | applies worker ctx =>
    show ReadingsAdvance values (s.applyNext worker ctx)
    unfold applyNext
    split
    · split
      · exact h.of_eq rfl rfl rfl
      split
      · split
        · exact h.of_eq rfl rfl rfl
        · split <;> exact h.of_eq rfl rfl rfl
      all_goals exact h.of_eq rfl rfl rfl
    · exact h
  | givesUp worker =>
    show ReadingsAdvance values (s.giveUp worker)
    unfold giveUp
    split <;> exact h.of_eq rfl rfl rfl
  | closes worker now => exact h.of_eq rfl rfl rfl
  | acknowledges worker organizationId id actor now => exact h.of_eq rfl rfl rfl
  | resolves worker organizationId id actor note now => exact h.of_eq rfl rfl rfl
  | commits worker => exact h.of_eq rfl rfl rfl
  | rollsBack worker => exact h.of_eq rfl rfl rfl

/-! ## When a closing rests on later evidence -/

variable {keys : IncidentId → Option IncidentKey} {id : IncidentId}

theorem sameMatter_of_recorded {judged : Judged → Prop}
    {state state' : ComplianceState} {j j' : Judged}
    (h : RecordedFor keys judged state id j) (h' : RecordedFor keys judged state' id j') :
    ComplianceDriver.SameMatter j.finding j'.finding := by
  obtain ⟨key, hkey, hcamera, hobject, hrule⟩ := h.about
  obtain ⟨key', hkey', hcamera', hobject', hrule'⟩ := h'.about
  rw [hkey] at hkey'
  cases hkey'
  exact ⟨hcamera.symm.trans hcamera', hobject.symm.trans hobject', hrule.symm.trans hrule'⟩

theorem restsOnLater_iff (hreadings : ReadingsAdvance values s)
    {violation closing : Judged}
    (hV : RecordedFor keys (WasJudged driver s) .violation id violation)
    (hF : RecordedFor keys (WasJudged driver s) .compliant id closing) :
    RestsOnLater closing.finding violation.finding ↔ violation.reading < closing.reading := by
  have hsame := sameMatter_of_recorded hV hF
  obtain ⟨hltV, honV⟩ := hV.judged
  obtain ⟨hltF, honF⟩ := hF.judged
  constructor
  · intro hrests
    by_contra hnot
    exact not_restsOnLater_of_advances honF honV hsame hV.state hF.state
      (hreadings.reads _ _ (Nat.le_of_not_lt hnot) hltV) hrests
  · intro hlt
    exact restsOnLater_of_advances honV honF hsame hV.state hF.state
      (hreadings.reads _ _ hlt.le hltF) (hreadings.readObserved _ hltV)
      (hreadings.readObserved _ hltF)

theorem closesLater_iff_ordered (hreadings : ReadingsAdvance values s)
    (htracked : s.Tracked driver) :
    s.ClosesLater ↔ s.Ordered := by
  obtain ⟨ht, -⟩ := htracked
  constructor
  · intro h id row hget hresolved hkind closing hclosing violation hviolation
    obtain ⟨closing', hclosing', hrests⟩ := h id row hget hresolved hkind
    rw [hclosing] at hclosing'
    cases hclosing'
    exact (restsOnLater_iff hreadings (ht.raised id violation hviolation)
      (ht.closedBy id closing hclosing)).mp (hrests violation hviolation)
  · intro h id row hget hresolved hkind
    obtain ⟨closing, hclosing⟩ := isSome_iff_exists.mp (ht.closed id row hget hkind)
    refine ⟨closing, hclosing, fun violation hviolation => ?_⟩
    exact (restsOnLater_iff hreadings (ht.raised id violation hviolation)
      (ht.closedBy id closing hclosing)).mpr
        (h id row hget hresolved hkind closing hclosing violation hviolation)

/-- One step keeps the order exactly when its commits are in the order of the readings. -/
theorem ordered_step_iff (h : s.Ordered) (event : ComplianceEvent) :
    (s.step driver config event).Ordered ↔ s.InOrder event := by
  have hquiet : ∀ s' : ComplianceSystem, s'.db.committed = s.db.committed → s'.raised = s.raised →
      s'.closedBy = s.closedBy → (s'.Ordered ↔ True) := by
    intro s' hcommitted hraised hclosedBy
    unfold Ordered
    rw [hcommitted, hraised, hclosedBy]
    exact iff_true_intro h
  have hdb : ∀ event : DbEvent, (∀ worker, event ≠ .commit worker) →
      (s.db.step event).committed = s.db.committed := fun event hno =>
    IncidentSystem.committed_step hno
  cases event with
  | observes at_ observations => exact hquiet _ rfl rfl rfl
  | judges worker r =>
    unfold step
    dsimp only
    split
    · exact hquiet _ rfl rfl rfl
    · exact hquiet _ rfl rfl rfl
  | applies worker ctx =>
    show (s.applyNext worker ctx).Ordered ↔ True
    unfold applyNext
    split
    · split
      · exact hquiet _ rfl rfl rfl
      · split
        · split
          · exact hquiet _ rfl rfl rfl
          · split <;> exact hquiet _ rfl rfl rfl
        · exact hquiet _ (hdb (.compliantFinding worker _) (by rintro _ ⟨⟩)) rfl rfl
        · exact hquiet _ rfl rfl rfl
        · exact hquiet _ rfl rfl rfl
    · exact hquiet _ rfl rfl rfl
  | givesUp worker =>
    show (s.giveUp worker).Ordered ↔ True
    unfold giveUp
    split
    · exact hquiet _ rfl rfl rfl
    · exact hquiet _ rfl rfl rfl
  | closes worker now =>
    exact hquiet _ (hdb (.closeSelected worker now) (by rintro _ ⟨⟩)) rfl rfl
  | acknowledges worker organizationId id actor now => exact hquiet _ rfl rfl rfl
  | resolves worker organizationId id actor note now => exact hquiet _ rfl rfl rfl
  | commits worker => exact Iff.rfl
  | rollsBack worker => exact hquiet _ rfl rfl rfl

/-- Over any run whose observations are consistent, whatever is resolved by observation was
    closed on later evidence than every violation of it, in every state reached, exactly when
    every session commits in the order of the readings. -/
theorem closes_on_later_evidence_iff {events : List ComplianceEvent}
    (hconsistent : Runs.Always (step driver config) (Consistent config values) initial events) :
    (∀ before, before <+: events →
        (run (step driver config) initial before).ClosesLater) ↔
      Runs.Always (step driver config) InOrder initial events := by
  have hordered : initial.Ordered := fun _ _ h => by cases h
  have htracked : initial.Tracked driver := by
    refine ⟨⟨fun _ _ => rfl, fun _ _ h => (by cases h), fun _ _ h => (by cases h),
      fun _ _ h => (by cases h), fun _ _ h => (by cases h)⟩, fun k => ?_⟩
    exact WorkerTracked.idle _ _
  have hinitial := ReadingsAdvance.initial values
  rw [reached_iff, and_iff_right ((closesLater_iff_ordered hinitial htracked).mpr hordered)]
  -- the order of the readings is part of the invariant, so both sides carry it along
  have hkeep : ∀ (s : ComplianceSystem) event,
      (ReadingsAdvance values s ∧ s.Tracked driver ∧ s.Ordered) →
        (s.InOrder event ∧ s.Consistent config values event) →
          ReadingsAdvance values (s.step driver config event) ∧
            (s.step driver config event).Tracked driver ∧ (s.step driver config event).Ordered :=
    fun s event h hQ => ⟨h.1.step hQ.2, h.2.1.step h.1.inv event,
      (ordered_step_iff h.2.2 event).mpr hQ.1⟩
  have hiff : ∀ (s : ComplianceSystem) event,
      (ReadingsAdvance values s ∧ s.Tracked driver ∧ s.Ordered) →
        (((s.step driver config event).ClosesLater ∧ s.Consistent config values event) ↔
          (s.InOrder event ∧ s.Consistent config values event)) := by
    intro s event h
    refine and_congr_left fun hC => ?_
    rw [closesLater_iff_ordered (h.1.step hC) (h.2.1.step h.1.inv event)]
    exact ordered_step_iff h.2.2 event
  have hruns := always_iff_of_kept hkeep hiff ⟨hinitial, htracked, hordered⟩ events
  rw [always_and, always_and, and_iff_left hconsistent,
    and_iff_left hconsistent] at hruns
  exact hruns

end Runs

instance (s : ComplianceSystem) : (event : ComplianceEvent) → Decidable (s.InOrder event)
  | .commits worker =>
    decidable_of_iff (∀ e ∈ ((s.db.workers worker).session.view s.db.committed).entries,
        e.2.status = .resolved → e.2.resolutionKind = some "observation" →
          ∀ closing ∈ (s.closing worker e.1).toList, ∀ violation ∈ s.violations worker e.1,
            violation.reading < closing.reading)
      ⟨fun h id row hget hresolved hkind closing hclosing => h (id, row)
        (OrderedDict.get?_eq_some_iff.mp hget) hresolved hkind closing
          (mem_toList.mpr hclosing),
        fun h e he hresolved hkind closing hclosing => h e.1 e.2
          (OrderedDict.get?_eq_some_iff.mpr he) hresolved hkind closing
            (mem_toList.mp hclosing)⟩
  | .observes _ _ | .judges _ _ | .applies _ _ | .givesUp _ | .closes _ _ | .acknowledges _ _ _ _ _
  | .resolves _ _ _ _ _ _ | .rollsBack _ => instDecidableTrue

end ComplianceSystem

/-! ### A hairnet before, after, and at the same time -/

def headCovering (value : String) (observedAt : Instant) : Core.Attribute where
  key := "head_covering"
  schemaVersion := "1.0.0"
  value := .str value
  confidence := postureAttribute.confidence
  observedAt
  producer := plainProvenance
  accepted := rfl

def headSeen (value : String) (observedAt : Instant) (hvalue : value ≠ "") : Observation where
  toObservationFields :=
    { personFields .attributes [headCovering value observedAt] none with
      observationId := value
      classId := some "person"
      lifecycleState := some .active }
  accepted := ObservationFields.postInit_eq_ok.mpr
    ⟨hvalue, rfl, le_refl 0, by constructor <;> simp [personFields],
      by simp [personFields], by simp [personFields]⟩

def bareAt (t : Instant) : ComplianceEvent :=
  .observes (fun _ => {}) [headSeen "none" t (by decide)]

def hairnetAt (t : Instant) : ComplianceEvent :=
  .observes (fun _ => {}) [headSeen "hairnet" t (by decide)]

theorem kitchen_tenant_ne_empty : "tenant" ≠ "" := by decide

def kitchenDriver : ComplianceDriver where
  py := samplePython
  tenant := "tenant"
  tenant_ne_empty := kitchen_tenant_ne_empty
  rules := { rules := [severeRule], distinct := by decide }
  exposed := true
  state := Manager.new
  gaps := []
  queriesPerMinute := 600
  charges := ∅

def judgesNorth (worker : Nat) : ComplianceEvent :=
  .judges worker { cameras := northOnly, now := ⟨3⟩, now' := ⟨3⟩ }

def raising (worker : Nat) : List ComplianceEvent :=
  [.applies worker capturingDriver, .commits worker]

def closing (worker : Nat) : List ComplianceEvent :=
  [.applies worker capturingDriver, .closes worker ⟨4⟩, .commits worker]

/-- The second pass reads later than the first and is done before it. -/
def overtakenPass : List ComplianceEvent :=
  [hairnetAt ⟨1⟩, judgesNorth 0, bareAt ⟨2⟩, judgesNorth 1] ++ raising 1 ++ closing 0

/-- One pass after the other; the hairnet is of the same instant as what was there before. -/
def sameInstant : List ComplianceEvent :=
  [bareAt ⟨1⟩, judgesNorth 0] ++ raising 0 ++ [hairnetAt ⟨1⟩, judgesNorth 0] ++ closing 0

/-- One pass after the other; the hairnet is put on later. -/
def putOnLater : List ComplianceEvent :=
  [bareAt ⟨1⟩, judgesNorth 0] ++ raising 0 ++ [hairnetAt ⟨2⟩, judgesNorth 0] ++ closing 0

def kitchenAfter (events : List ComplianceEvent) : ComplianceSystem :=
  run (step kitchenDriver .defaults) .initial events

/-- What the conditions of a finding say, and when each was observed. -/
def Judged.evidence (j : Judged) : List (String × Option Bool × Option Instant) :=
  j.finding.conditions.map fun c => (c.attributeKey, c.satisfied, c.observedAt)

theorem not_closesLater {s : ComplianceSystem} {t t' : Instant} (hle : t'.ns ≤ t.ns)
    (hrow : (s.db.committed.get? 0).map (fun row => (row.status, row.resolutionKind)) =
      some (.resolved, some "observation"))
    (hraised : (s.raised 0).map Judged.evidence = [[("head_covering", some false, some t)]])
    (hclosed : (s.closedBy 0).map Judged.evidence = some [("head_covering", some true, some t')]) :
    ¬ s.ClosesLater := by
  obtain ⟨row, hget, hrow⟩ := map_eq_some_iff.mp hrow
  obtain ⟨hresolved, hkind⟩ := Prod.mk.inj hrow
  obtain ⟨closing, hclosing, hevidence⟩ := map_eq_some_iff.mp hclosed
  intro hlater
  obtain ⟨closing', hclosing', hrests⟩ := hlater 0 row hget hresolved hkind
  rw [hclosing] at hclosing'
  cases hclosing'
  obtain ⟨violation, hviolation, hfailed⟩ :=
    mem_map.mp (hraised ▸ mem_singleton.mpr rfl :
      [("head_covering", some false, some t)] ∈ (s.raised 0).map Judged.evidence)
  -- the one condition of each
  obtain ⟨c, hc, hcfields⟩ := mem_map.mp (hfailed ▸ mem_singleton.mpr rfl :
    ("head_covering", some false, some t) ∈ violation.evidence)
  obtain ⟨c', hc', hcfields'⟩ := mem_map.mp (hevidence ▸ mem_singleton.mpr rfl :
    ("head_covering", some true, some t') ∈ closing.evidence)
  obtain ⟨hkey, hc1⟩ := Prod.mk.inj hcfields
  obtain ⟨hfalse, hat⟩ := Prod.mk.inj hc1
  obtain ⟨hkey', hc2⟩ := Prod.mk.inj hcfields'
  obtain ⟨-, hat'⟩ := Prod.mk.inj hc2
  obtain ⟨t'', ht'', hlt⟩ := (hrests violation hviolation).later c hc (decide_eq_true hfalse) t hat
    c' hc' (hkey'.trans hkey.symm)
  rw [hat'] at ht''
  cases ht''
  omega

/-- A pass that read the hairnet closes what a later reading opened, when it is overtaken; and a
    hairnet observed at the very instant of the bare head closes, with one pass after the
    other. -/
theorem closed_on_earlier_evidence :
    ¬ (kitchenAfter overtakenPass).ClosesLater ∧ ¬ (kitchenAfter sameInstant).ClosesLater := by
  constructor
  · exact @not_closesLater _ ⟨2⟩ ⟨1⟩ (by decide) (by decide +kernel) (by decide +kernel)
      (by decide +kernel)
  · exact @not_closesLater _ ⟨1⟩ ⟨1⟩ (by decide) (by decide +kernel) (by decide +kernel)
      (by decide +kernel)

def headValues : CameraValues :=
  fun _ _ _ t => if t = ⟨1⟩ then .str "none" else .str "hairnet"

theorem agrees_headSeen {value : String} {t : Instant} (hvalue : value ≠ "")
    (h : (if t = ⟨1⟩ then PyValue.str "none" else .str "hairnet") = .str value) :
    ∀ o ∈ [headSeen value t hvalue], Agrees (headValues o.cameraId) o := by
  intro o ho id _ _ a ha
  rw [mem_singleton.mp ho] at ha ⊢
  rw [mem_singleton.mp ha]
  exact h.symm

theorem closed_on_later_evidence :
    ((kitchenAfter putOnLater).db.committed.get? 0).map (fun row => (row.status, row.resolutionKind)) =
        some (.resolved, some "observation") ∧
      ∀ before, before <+: putOnLater → (kitchenAfter before).ClosesLater := by
  refine ⟨by decide +kernel, ?_⟩
  have hconsistent : Runs.Always (step kitchenDriver .defaults)
      (ComplianceSystem.Consistent .defaults headValues) .initial putOnLater :=
    ⟨⟨by decide +kernel, agrees_headSeen (by decide) rfl⟩, trivial, trivial, trivial,
      ⟨by decide +kernel, agrees_headSeen (by decide) rfl⟩, trivial, trivial, trivial, trivial,
      trivial⟩
  have horder : Runs.Always (step kitchenDriver .defaults)
      ComplianceSystem.InOrder .initial putOnLater :=
    ⟨trivial, trivial, trivial, by decide +kernel, trivial, trivial, trivial, trivial,
      by decide +kernel, trivial⟩
  exact (closes_on_later_evidence_iff hconsistent).mpr horder

end VisionOs.App
