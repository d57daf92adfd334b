/-
  The reading half of `ComplianceDriver`: one query for the enabled cameras of the tenant,
  and the findings of every rule over the views that it returned.
-/
import VisionOs.Exposure.StateQueries
import VisionOs.Compliance.Judging
import VisionOs.State.Reachable
import VisionOs.Synthesis.RoundTrip

namespace VisionOs.App

open Core Compliance Exposure State Lib List Paging Option ObservationApi OrderedDict StateFilter
open PyFloat
open Nat
open Prod
open Manager

structure ComplianceDriver where
  py : Interpreter
  tenant : TenantId
  tenant_ne_empty : tenant ≠ ""
  rules : LoadedRules
  exposed : Bool
  state : Manager
  gaps : List (String × String)
  queriesPerMinute : Nat
  charges : OrderedDict String (List Int)

structure ObservationSnapshot where
  objects : List ObjectView
  coverage : CoverageSummary
  gaps : List (String × String)
  complete : Bool

namespace ComplianceDriver

variable (driver : ComplianceDriver)

def api : ObservationApi where
  state := driver.state
  authorize := allowReadsWithinTenant
  gaps := driver.gaps
  queriesPerMinute := driver.queriesPerMinute
  charges := driver.charges

/-- `Principal(subject="compliance", ...)`. -/
def principal : Principal where
  subject := "compliance"
  tenantId := driver.tenant
  accepted := by
    refine PrincipalFields.postInit_eq_ok.mpr ⟨?_, driver.tenant_ne_empty⟩
    show "compliance" ≠ ""
    decide

def scopeOf (cameras : List CameraId) : Scope where
  tenantId := driver.tenant
  cameraIds := cameras
  accepted := require_eq_ok.mpr driver.tenant_ne_empty

def read (scope : Scope) (now : Instant) : Raises ObservationSnapshot := do
  let (result, _) ← driver.api.queryState driver.py driver.principal scope {} {} now
  return { objects := result.objects, coverage := result.coverage, gaps := result.gaps
           complete := result.complete }

def snapshot (cameras : List CameraId) (now : Instant) : Raises (Option ObservationSnapshot) :=
  if driver.exposed = false ∨ cameras = [] then .ok none
  else some <$> driver.read (driver.scopeOf cameras) now

def evaluator : ComplianceEvaluator where
  rules := driver.rules.toRuleSet
  idFactory := deterministicId

/-- `evaluate`, at the time it reads. -/
def evaluate (snapshot : Option ObservationSnapshot) (now : Instant) : Raises (List Finding) :=
  match snapshot with
  | none => .ok []
  | some s =>
    if s.objects.isEmpty then .ok []
    else driver.evaluator.evaluate driver.py s.objects now (some s.coverage) (s.gaps.map fst)

def judge (cameras : List CameraId) (now now' : Instant) : Raises (List Finding) := do
  let snapshot ← driver.snapshot cameras now
  driver.evaluate snapshot now'

def admitted (camera : CameraId) : List ObjectState :=
  match (driver.state.cells camera).partition with
  | none => []
  | some p => p.objects.values.filter (accepts driver.py {})

def isServing (camera : CameraId) : Bool :=
  (driver.state.cells camera).partition.any fun p => !p.isDegraded

def served (camera : CameraId) : List (CameraId × ObjectState) :=
  if driver.isServing camera = true then (driver.admitted camera).map (camera, ·) else []

def Answered (now : Instant) : Prop :=
  driver.exposed = true ∧
    (driver.api.recentCharges "compliance" now).length < driver.queriesPerMinute

instance (now : Instant) : Decidable (driver.Answered now) := inferInstanceAs (Decidable (_ ∧ _))

/-- The present objects that a pass does not see:
    - every one, where the query is not answered;
    - those of the partitions that are degraded;
    - those for which the page of a hundred has no room. -/
def unseen (cameras : List CameraId) (now : Instant) : List (CameraId × ObjectState) :=
  if driver.Answered now then
    (cameras.filter (driver.isServing · = false)).flatMap (fun camera =>
      (driver.admitted camera).map (camera, ·)) ++
    withheld 100 0 (cameras.map driver.served)
  else cameras.flatMap fun camera => (driver.admitted camera).map (camera, ·)

/-- Every present object of the cameras has, for each rule that covers it, exactly one finding. -/
def JudgesEveryone (cameras : List CameraId) (now now' : Instant) : Prop :=
  ∀ camera ∈ cameras, ∀ held ∈ driver.admitted camera, ∀ rule ∈ driver.rules.rules,
    rule.coversClass held.classId = true → rule.scope.coversCamera camera = true →
      ∃ findings, driver.judge cameras now now' = .ok findings ∧
        (findings.filter (·.name = (camera, held.objectId, rule.ruleId))).length = 1

/-- No rule covers an object that the pass does not see. -/
def UnseenUncovered (cameras : List CameraId) (now : Instant) : Prop :=
  ∀ e ∈ driver.unseen cameras now, ∀ rule ∈ driver.rules.rules,
    ¬ (rule.coversClass e.2.classId = true ∧ rule.scope.coversCamera e.1 = true)

/-- What the rules are asked of a subject of the pass. -/
def situationOf (cameras : List CameraId) (now' : Instant) (e : CameraId × ObjectState) :
    Situation where
  view := objectViewOf e.2 e.1 {}
  now := now'
  coverage := some (driver.api.coverageSummary cameras (driver.state.snapshot (some cameras)))
  capabilityGaps := driver.gaps.map fst

/-- Every rule that covers an object that the pass sees can be answered for it. -/
def SeenAnswerable (cameras : List CameraId) (now now' : Instant) : Prop :=
  ∀ camera ∈ cameras, ∀ held ∈ driver.admitted camera,
    (camera, held) ∉ driver.unseen cameras now → ∀ rule ∈ driver.rules.rules,
      rule.coversClass held.classId = true → rule.scope.coversCamera camera = true →
        Answerable driver.py rule (driver.situationOf cameras now' (camera, held))

/-! ## What the query returns -/

variable {cameras : List CameraId}

theorem entries_snapshot (hdistinct : cameras.Nodup) (m : Manager) :
    (m.snapshot (some cameras)).partitions.entries =
      cameras.filterMap fun camera =>
        (m.cells camera).partition.bind fun p =>
          if p.isDegraded then none else some (camera, p) := by
  have hfold : ∀ (cameras : List CameraId) (start : Manager.StateSnapshot), cameras.Nodup →
      (∀ camera ∈ cameras, start.partitions.get? camera = none) →
      (cameras.foldl m.snapshotCamera start).partitions.entries =
        start.partitions.entries ++ cameras.filterMap fun camera =>
          (m.cells camera).partition.bind fun p =>
            if p.isDegraded then none else some (camera, p) := by
    intro cameras
    -- over the cameras, from any snapshot that has none of them yet
    induction cameras with
    | nil =>
      intro start _ _
      exact (append_nil _).symm
    | cons camera rest ih =>
      intro start hnodup hfresh
      obtain ⟨hnot, hrest⟩ := nodup_cons.mp hnodup
      have hlater : ∀ camera' ∈ rest, start.partitions.get? camera' = none :=
        fun camera' h => hfresh camera' (mem_cons_of_mem _ h)
      rw [foldl_cons, filterMap_cons]
      cases hpartition : (m.cells camera).partition with
      | none =>
        rw [ih _ hrest]
        · unfold snapshotCamera
          rw [hpartition]
          rfl
        · unfold snapshotCamera
          rw [hpartition]
          exact hlater
      | some p =>
        cases hdegraded : p.isDegraded with
        | true =>
          rw [ih _ hrest]
          · unfold snapshotCamera
            rw [hpartition]
            dsimp only
            rw [if_pos hdegraded]
            simp [hdegraded]
          · unfold snapshotCamera
            rw [hpartition]
            dsimp only
            rw [if_pos hdegraded]
            exact hlater
        | false =>
          rw [ih _ hrest]
          · unfold snapshotCamera
            rw [hpartition]
            dsimp only
            rw [if_neg (by rw [hdegraded]; exact Bool.false_ne_true)]
            rw [entries_set_of_get?_none (hfresh camera mem_cons_self)]
            simp [hdegraded]
          · unfold snapshotCamera
            rw [hpartition]
            dsimp only
            rw [if_neg (by rw [hdegraded]; exact Bool.false_ne_true)]
            intro camera' hmem
            rw [get?_set, if_neg (fun heq : camera = camera' => hnot (heq ▸ hmem))]
            exact hlater camera' hmem
  rw [Manager.snapshot, getD_some, hfold cameras ⟨empty, []⟩ hdistinct fun _ _ => rfl]
  rfl

def viewOf (e : CameraId × ObjectState) : ObjectView := objectViewOf e.2 e.1 {}

theorem collectViews_eq (hdistinct : cameras.Nodup) :
    collectViews driver.py {} {} cameras (driver.state.snapshot (some cameras)) =
      (given 100 0 (cameras.map driver.served)).map viewOf := by
  have hpermitted : (driver.state.snapshot (some cameras)).partitions.entries.filter
      (·.1 ∈ cameras) = (driver.state.snapshot (some cameras)).partitions.entries := by
    rw [List.filter_eq_self]
    intro e he
    rw [entries_snapshot hdistinct] at he
    obtain ⟨camera, hcamera, hsome⟩ := mem_filterMap.mp he
    obtain ⟨p, -, hp⟩ := Option.bind_eq_some_iff.mp hsome
    split at hp
    · cases hp
    · cases hp
      exact decide_eq_true hcamera
  have hfold : ∀ entries : List (CameraId × CameraPartition),
      entries.foldl (fun objects e => scan 100 (accepts driver.py {})
        (fun held => objectViewOf held e.1 {}) objects e.2.objects.values) [] =
      given 100 0 (entries.map fun e =>
        (e.2.objects.values.filter (accepts driver.py {})).map fun held =>
          objectViewOf held e.1 {}) := by
    intro entries
    have hscan := foldl_scan 100 (fun _ => accepts driver.py {})
      (fun camera held => objectViewOf held camera {})
      (entries.map fun e => (e.1, e.2.objects.values)) []
    rw [List.foldl_map, List.map_map] at hscan
    exact hscan
  unfold collectViews
  rw [hpermitted]
  refine (hfold _).trans ?_
  rw [entries_snapshot hdistinct, ← given_map, List.map_map]
  clear hpermitted hfold hdistinct
  -- a camera that is not served gives nothing
  generalize 0 = n
  induction cameras generalizing n with
  | nil => rfl
  | cons camera rest ih =>
    rw [filterMap_cons, map_cons]
    unfold Function.comp
    have hserved : ∀ p, (driver.state.cells camera).partition = some p →
        (driver.served camera).map viewOf =
          if p.isDegraded = true then []
          else (p.objects.values.filter (accepts driver.py {})).map fun held =>
            objectViewOf held camera {} := by
      intro p hp
      unfold served isServing admitted
      rw [hp]
      cases hdegraded : p.isDegraded with
      | true => simp [hdegraded]
      | false =>
        simp only [Option.any_some, hdegraded, Bool.not_false, if_true, Bool.false_eq_true, if_false]
        rw [List.map_map]
        rfl
    cases hpartition : (driver.state.cells camera).partition with
    | none =>
      have hnone : (driver.served camera).map viewOf = [] := by
        unfold served isServing
        rw [hpartition]
        rfl
      rw [hnone, given_nil_cons]
      exact ih n
    | some p =>
      rw [hserved p hpartition, Option.bind_some]
      cases hdegraded : p.isDegraded with
      | true =>
        rw [if_pos rfl, if_pos rfl, given_nil_cons]
        exact ih n
      | false =>
        rw [if_neg Bool.false_ne_true, if_neg Bool.false_ne_true]
        rw [map_cons, given, given, ih]
        rfl

theorem coverageInUnit (cameras : List CameraId) (snapshot : Manager.StateSnapshot) :
    CoverageInUnit (some (driver.api.coverageSummary cameras snapshot)) := by
  intro c hc
  cases hc
  unfold coverageSummary
  dsimp only
  split
  · decide +kernel
  rename_i hlength
  exact ofRatio_inUnit (Int.natCast_nonneg _) (Int.ofNat_le.mpr (length_filter_le _ _))
    (Int.natCast_pos.mpr (pos_of_ne_zero hlength))

variable {now : Instant}

theorem read_of_answered (hcameras : cameras ≠ [])
    (hanswered : driver.Answered now) :
    driver.read (driver.scopeOf cameras) now = .ok {
      objects := collectViews driver.py {} {} cameras
        (driver.state.snapshot (some cameras))
      coverage := driver.api.coverageSummary cameras (driver.state.snapshot (some cameras))
      gaps := driver.gaps
      complete := (driver.api.coverageSummary cameras
          (driver.state.snapshot (some cameras))).fullyObservable &&
        (driver.state.snapshot (some cameras)).incomplete.isEmpty } := by
  have hnarrowed : driver.api.narrowed driver.principal .readState (driver.scopeOf cameras) =
      .ok (driver.scopeOf cameras) := by
    have hdecision : driver.api.authorize driver.principal .readState (driver.scopeOf cameras) =
        { granted := true, scope := driver.scopeOf cameras } := by
      show allowReadsWithinTenant _ _ _ = _
      have hsame : ¬ driver.principal.tenantId ≠ (driver.scopeOf cameras).tenantId :=
        not_not_intro rfl
      unfold allowReadsWithinTenant
      rw [if_neg hsame, if_neg (by decide)]
    unfold narrowed
    rw [hdecision]
    exact check_bind_eq_ok.mpr ⟨require_eq_ok.mpr rfl, check_bind_eq_ok.mpr
      ⟨require_eq_ok.mpr rfl, rfl⟩⟩
  have hcharge : ∃ charges, driver.api.charge "compliance" now =
      .ok { driver.api with charges } := by
    have hbudget : ¬ driver.api.queriesPerMinute ≤
        (driver.api.recentCharges "compliance" now).length := not_le.mpr hanswered.2
    unfold charge
    rw [if_neg hbudget]
    exact ⟨_, rfl⟩
  obtain ⟨charges, hcharge⟩ := hcharge
  have hcameras' : camerasIn { driver.api with charges } (driver.scopeOf cameras) =
      cameras := by
    exact if_pos hcameras
  have hnone : orNone cameras = some cameras := by
    unfold orNone
    rw [if_neg (by rw [List.isEmpty_iff]; exact hcameras)]
  unfold read queryState
  rw [hnarrowed]
  show ((driver.api.charge "compliance" now).bind _).bind _ = _
  rw [hcharge]
  show Except.ok _ = _
  rw [hcameras', hnone]
  rfl

theorem judge_of_answered (hdistinct : cameras.Nodup)
    (hcameras : cameras ≠ []) (hanswered : driver.Answered now) (now' : Instant) :
    driver.judge cameras now now' =
      driver.evaluator.evaluate driver.py ((given 100 0 (cameras.map driver.served)).map viewOf)
        now' (some (driver.api.coverageSummary cameras (driver.state.snapshot (some cameras))))
        (driver.gaps.map fst) := by
  have hsnapshot : driver.snapshot cameras now = some <$> driver.read (driver.scopeOf cameras) now := by
    unfold snapshot
    rw [if_neg]
    rintro (hhidden | hnone)
    · rw [hanswered.1] at hhidden
      cases hhidden
    · exact hcameras hnone
  unfold judge
  rw [hsnapshot, driver.read_of_answered hcameras hanswered]
  show driver.evaluate (some _) now' = _
  unfold evaluate
  dsimp only
  rw [driver.collectViews_eq hdistinct]
  split
  · rename_i hempty
    rw [isEmpty_iff.mp hempty]
    rfl
  · rfl

theorem judge_returns (hdistinct : cameras.Nodup)
    (hcameras : cameras ≠ []) (hanswered : driver.Answered now) (now' : Instant) :
    (∃ findings, driver.judge cameras now now' = .ok findings) ↔
      ∀ e ∈ given 100 0 (cameras.map driver.served), ∀ rule ∈ driver.rules.rules,
        rule.coversClass e.2.classId = true → rule.scope.coversCamera e.1 = true →
          Answerable driver.py rule (driver.situationOf cameras now' e) := by
  rw [driver.judge_of_answered hdistinct hcameras hanswered,
    ComplianceEvaluator.evaluate_returns (driver.coverageInUnit _ _), List.forall_mem_map]
  refine forall₂_congr fun e _ => ⟨fun h rule hrule hclass hscope => ?_, fun h rule hrule => ?_⟩
  · exact h rule (RuleSet.mem_judging.mpr ⟨hrule, hclass, hscope⟩)
  · obtain ⟨hmem, hclass, hscope⟩ := RuleSet.mem_judging.mp hrule
    exact h rule hmem hclass hscope

theorem judge_of_unanswered
    (hunanswered : ¬ driver.Answered now) (now' : Instant) {findings : List Finding}
    (h : driver.judge cameras now now' = .ok findings) : findings = [] := by
  obtain ⟨snapshot, hsnapshot, hevaluate⟩ := bind_eq_ok.mp h
  unfold ComplianceDriver.snapshot at hsnapshot
  split at hsnapshot
  · cases hsnapshot
    cases hevaluate
    rfl
  rename_i hopen
  -- the platform exposes its state, so the budget is used up
  exfalso
  apply hunanswered
  refine ⟨by simpa using fun h => hopen (.inl h), ?_⟩
  cases hread : driver.read (driver.scopeOf cameras) now with
  | error exc =>
    rw [hread] at hsnapshot
    cases hsnapshot
  | ok result =>
    obtain ⟨answer, hquery, -⟩ := bind_eq_ok.mp hread
    obtain ⟨scope, -, hrest⟩ := bind_eq_ok.mp hquery
    obtain ⟨charged, hcharge, -⟩ := bind_eq_ok.mp hrest
    unfold charge at hcharge
    dsimp only at hcharge
    split at hcharge
    · cases hcharge
    · rename_i hbudget
      exact Nat.lt_of_not_le hbudget

def subjectKey (e : CameraId × ObjectState) : CameraId × ObjectId := (e.1, e.2.objectId)

variable {driver : ComplianceDriver}

variable {camera : CameraId} {held : ObjectState}

theorem mem_admitted :
    held ∈ driver.admitted camera ↔ ∃ p, (driver.state.cells camera).partition = some p ∧
      held ∈ p.objects.values ∧ accepts driver.py {} held = true := by
  unfold admitted
  cases (driver.state.cells camera).partition with
  | none =>
    constructor
    · intro h
      cases h
    · rintro ⟨p, hp, -⟩
      cases hp
  | some p =>
    rw [mem_filter]
    constructor
    · exact fun h => ⟨p, rfl, h⟩
    · rintro ⟨p', hp', h⟩
      cases hp'
      exact h

variable {config : StateSection}

theorem nodup_admitted (hreach : Reachable config driver.state)
    (camera : CameraId) : ((driver.admitted camera).map (·.objectId)).Nodup := by
  unfold admitted
  cases hpartition : (driver.state.cells camera).partition with
  | none => exact nodup_nil
  | some p =>
    have hkeyed := ((hreach.inv camera).partition p hpartition).keyed
    have hids : p.objects.values.map (·.objectId) = p.objects.keys := by
      unfold values OrderedDict.keys
      rw [List.map_map]
      apply map_congr_left
      intro e he
      exact hkeyed e.1 e.2 (get?_eq_some_iff.mpr he)
    refine List.Nodup.sublist (filter_sublist.map _) ?_
    rw [hids]
    exact p.objects.nodupKeys

variable {e : CameraId × ObjectState}

theorem mem_served : e ∈ driver.served camera ↔
      e.1 = camera ∧ driver.isServing camera = true ∧ e.2 ∈ driver.admitted camera := by
  unfold served
  split
  · rename_i hserving
    rw [List.mem_map]
    constructor
    · rintro ⟨held, hheld, rfl⟩
      exact ⟨rfl, hserving, hheld⟩
    · rintro ⟨rfl, -, hheld⟩
      exact ⟨e.2, hheld, rfl⟩
  · rename_i hserving
    exact iff_of_false not_mem_nil fun h => hserving h.2.1

theorem nodup_served (hreach : Reachable config driver.state)
    (hdistinct : cameras.Nodup) :
    ((cameras.map driver.served).flatten.map subjectKey).Nodup := by
  induction cameras with
  | nil => exact nodup_nil
  | cons camera rest ih =>
    obtain ⟨hnot, hrest⟩ := nodup_cons.mp hdistinct
    rw [map_cons, flatten_cons, map_append, nodup_append']
    refine ⟨?_, ih hrest, fun key hfirst hlater => ?_⟩
    · unfold served
      split
      · rw [List.map_map]
        apply List.Nodup.of_map snd
        rw [List.map_map]
        exact nodup_admitted hreach camera
      · exact nodup_nil
    · obtain ⟨e, he, rfl⟩ := mem_map.mp hfirst
      obtain ⟨e', he', heq⟩ := mem_map.mp hlater
      obtain ⟨part, hpart, hmem⟩ := mem_flatten.mp he'
      obtain ⟨camera', hcamera', rfl⟩ := mem_map.mp hpart
      have hcamera : camera' = camera := by
        rw [← (mem_served.mp hmem).1, ← (mem_served.mp he).1]
        exact (Prod.mk.inj heq).1
      exact hnot (hcamera ▸ hcamera')

/-! ## Which subjects are judged -/

theorem mem_names {objectId : ObjectId} {rule : Rule} {given : List (CameraId × ObjectState)}
    (hname : (camera, objectId, rule.ruleId) ∈
      (given.map viewOf).flatMap driver.rules.toRuleSet.namesOf) :
    ∃ e ∈ given, subjectKey e = (camera, objectId) := by
  obtain ⟨view, hview, hmem⟩ := mem_flatMap.mp hname
  obtain ⟨e, he, rfl⟩ := mem_map.mp hview
  obtain ⟨rule', -, heq⟩ := mem_map.mp hmem
  obtain ⟨hcamera, hrest⟩ := Prod.mk.inj heq
  exact ⟨e, he, Prod.ext hcamera (Prod.mk.inj hrest).1⟩

theorem not_given_of_unseen (hreach : Reachable config driver.state)
    (hdistinct : cameras.Nodup)
    (hanswered : driver.Answered now) {e' : CameraId × ObjectState}
    (hunseen : e ∈ driver.unseen cameras now)
    (hgiven : e' ∈ given 100 0 (cameras.map driver.served)) :
    subjectKey e' ≠ subjectKey e := by
  intro hkey
  have hnodup := nodup_served hreach hdistinct
  have hserved : e' ∈ (cameras.map driver.served).flatten :=
    (given_sublist 0 (cameras.map driver.served)).subset hgiven
  unfold unseen at hunseen
  rw [if_pos hanswered] at hunseen
  rcases mem_append.mp hunseen with hdegraded | hwithheld
  · obtain ⟨camera, hcamera, hmem⟩ := mem_flatMap.mp hdegraded
    obtain ⟨held, -, rfl⟩ := mem_map.mp hmem
    obtain ⟨part, hpart, hmem'⟩ := mem_flatten.mp hserved
    obtain ⟨camera', -, rfl⟩ := mem_map.mp hpart
    obtain ⟨hcamera', hserving, -⟩ := mem_served.mp hmem'
    have hsame : camera' = camera := hcamera'.symm.trans (Prod.mk.inj hkey).1
    have hnot := of_decide_eq_true (mem_filter.mp hcamera).2
    rw [← hsame, hserving] at hnot
    cases hnot
  · have hin : e ∈ (cameras.map driver.served).flatten := by
      obtain ⟨part, hpart, hmem⟩ := mem_given_or_withheld.mpr (.inr hwithheld)
      exact mem_flatten.mpr ⟨part, hpart, hmem⟩
    have hsame := inj_on_of_nodup_map hnodup hserved hin hkey
    subst hsame
    exact disjoint_given_withheld (List.Nodup.of_map _ hnodup) hgiven hwithheld

theorem mem_of_unseen
    (h : e ∈ driver.unseen cameras now) : e.1 ∈ cameras ∧ e.2 ∈ driver.admitted e.1 := by
  have hall : ∀ {among : List CameraId}, among ⊆ cameras →
      e ∈ among.flatMap (fun camera => (driver.admitted camera).map (camera, ·)) →
      e.1 ∈ cameras ∧ e.2 ∈ driver.admitted e.1 := by
    intro among hamong hmem
    obtain ⟨camera, hcamera, hmem⟩ := mem_flatMap.mp hmem
    obtain ⟨held, hheld, rfl⟩ := mem_map.mp hmem
    exact ⟨hamong hcamera, hheld⟩
  unfold unseen at h
  split at h
  · rcases mem_append.mp h with hdegraded | hwithheld
    · exact hall (filter_subset_self _) hdegraded
    · obtain ⟨part, hpart, hmem⟩ := mem_given_or_withheld.mpr (.inr hwithheld)
      obtain ⟨camera, hcamera, rfl⟩ := mem_map.mp hpart
      obtain ⟨heq, -, hheld⟩ := mem_served.mp hmem
      rw [heq]
      exact ⟨hcamera, hheld⟩
  · exact hall (List.Subset.refl _) h

theorem given_of_seen
    (hcamera : camera ∈ cameras) (hheld : held ∈ driver.admitted camera)
    (hseen : (camera, held) ∉ driver.unseen cameras now) :
    driver.Answered now ∧ (camera, held) ∈ given 100 0 (cameras.map driver.served) := by
  unfold unseen at hseen
  split at hseen
  · rename_i hanswered
    refine ⟨hanswered, ?_⟩
    rw [mem_append, not_or] at hseen
    obtain ⟨hnot, hwithheld⟩ := hseen
    have hserving : driver.isServing camera = true := by
      by_contra hno
      apply hnot
      refine mem_flatMap.mpr ⟨camera, mem_filter.mpr ⟨hcamera, ?_⟩,
        mem_map_of_mem hheld⟩
      exact decide_eq_true (Bool.eq_false_of_not_eq_true hno)
    have hpart : ∃ part ∈ cameras.map driver.served, (camera, held) ∈ part :=
      ⟨_, mem_map_of_mem hcamera, mem_served.mpr ⟨rfl, hserving, hheld⟩⟩
    exact (mem_given_or_withheld.mp hpart).resolve_right hwithheld
  · exact absurd (mem_flatMap.mpr ⟨camera, hcamera, mem_map_of_mem hheld⟩) hseen

/-- Every present subject is judged by every rule that covers it exactly when no rule covers one
    that the pass does not see, and each can be answered for those that it sees. -/
theorem judgesEveryone_iff {config : StateSection} (hreach : Reachable config driver.state)
    (cameras : OrderedDict CameraId (Option String)) (now now' : Instant) :
    driver.JudgesEveryone cameras.keys now now' ↔
      driver.UnseenUncovered cameras.keys now ∧ driver.SeenAnswerable cameras.keys now now' := by
  have hdistinct : cameras.keys.Nodup := cameras.nodupKeys
  constructor
  · intro hjudges
    refine ⟨?_, fun camera hcamera held hheld hseen rule hrule hclass hscope => ?_⟩
    · -- a finding about an unseen subject would need a view that was not given
      rintro ⟨camera, held⟩ hunseen rule hrule ⟨hclass, hscope⟩
      obtain ⟨hcamera, hheld⟩ := mem_of_unseen hunseen
      obtain ⟨findings, hfindings, hone⟩ :=
        hjudges camera hcamera held hheld rule hrule hclass hscope
      have hname : (camera, held.objectId, rule.ruleId) ∈ findings.map (·.name) := by
        obtain ⟨f, hf⟩ := exists_mem_of_length_pos (lt_of_lt_of_eq zero_lt_one hone.symm)
        obtain ⟨hmem, heq⟩ := mem_filter.mp hf
        exact mem_map.mpr ⟨f, hmem, of_decide_eq_true heq⟩
      by_cases hanswered : driver.Answered now
      · rw [driver.judge_of_answered hdistinct (ne_nil_of_mem hcamera) hanswered] at hfindings
        rw [ComplianceEvaluator.names_of_evaluate hfindings] at hname
        obtain ⟨e, he, hkey⟩ := mem_names hname
        exact not_given_of_unseen hreach hdistinct hanswered hunseen he hkey
      · rw [driver.judge_of_unanswered hanswered now' hfindings] at hname
        cases hname
    · obtain ⟨hanswered, hgiven⟩ := given_of_seen hcamera hheld hseen
      obtain ⟨findings, hfindings, -⟩ := hjudges camera hcamera held hheld rule hrule hclass hscope
      exact (driver.judge_returns hdistinct (ne_nil_of_mem hcamera) hanswered now').mp
        ⟨findings, hfindings⟩ _ hgiven rule hrule hclass hscope
  · rintro ⟨huncovered, hanswerable⟩ camera hcamera held hheld rule hrule hclass hscope
    have hseen : (camera, held) ∉ driver.unseen cameras.keys now :=
      fun h => huncovered _ h rule hrule ⟨hclass, hscope⟩
    obtain ⟨hanswered, hgiven⟩ := given_of_seen hcamera hheld hseen
    obtain ⟨findings, hfindings⟩ := (driver.judge_returns hdistinct (ne_nil_of_mem hcamera)
        hanswered now').mpr fun e he rule hrule hclass hscope => by
      have hserved := (given_sublist 0 (cameras.keys.map driver.served)).subset he
      obtain ⟨part, hpart, hmem⟩ := mem_flatten.mp hserved
      obtain ⟨camera', hcamera', rfl⟩ := mem_map.mp hpart
      obtain ⟨rfl, -, hadmitted⟩ := mem_served.mp hmem
      exact hanswerable e.1 hcamera' e.2 hadmitted
        (fun hunseen => not_given_of_unseen hreach hdistinct hanswered hunseen he rfl)
        rule hrule hclass hscope
    refine ⟨findings, hfindings, ?_⟩
    rw [driver.judge_of_answered hdistinct (ne_nil_of_mem hcamera) hanswered] at hfindings
    have hnames := ComplianceEvaluator.names_of_evaluate hfindings
    have hmem : (camera, held.objectId, rule.ruleId) ∈ findings.map (·.name) := by
      rw [hnames]
      refine mem_flatMap.mpr ⟨viewOf (camera, held), mem_map_of_mem hgiven, ?_⟩
      exact mem_map.mpr ⟨rule, RuleSet.mem_judging.mpr ⟨hrule, hclass, hscope⟩, rfl⟩
    have hnodup : (findings.map (·.name)).Nodup := by
      rw [hnames]
      apply nodup_names
      rw [List.map_map]
      exact List.Nodup.sublist ((given_sublist 0 _).map subjectKey)
        (nodup_served hreach hdistinct)
    -- findings have names of their own, so one that is there is there once
    have hcount := count_eq_one_of_mem hnodup hmem
    rw [List.count, countP_map, countP_eq_length_filter] at hcount
    refine Eq.trans (congrArg length (filter_congr fun f _ => ?_)) hcount
    exact (beq_eq_decide _ _).symm

end ComplianceDriver

/-! ### A hundred and one guests -/

def guestName (i : Nat) : String := String.singleton (Char.ofNat (1000 + i))

theorem guestName_ne_empty (i : Nat) : guestName i ≠ "" := by
  intro h
  have hlist := congrArg String.toList h
  simp [guestName] at hlist

def guest (i : Nat) : Observation where
  toObservationFields :=
    { Synthesis.personFields .attributes [Synthesis.postureAttribute] none with
      observationId := guestName i
      objectId := some (guestName i)
      classId := some "person"
      lifecycleState := some .active }
  accepted := ObservationFields.postInit_eq_ok.mpr
    ⟨guestName_ne_empty i, rfl, le_refl 0,
      by constructor <;> simp [Synthesis.personFields],
      by simp [Synthesis.personFields], by simp [Synthesis.personFields]⟩

def guestsState (count : Nat) : Manager :=
  (new.append .defaults (fun _ => {}) ((range count).map guest)).2

/-- A driver with one rule, over the state of so many guests. -/
def guestsDriver (count : Nat) : ComplianceDriver where
  py := samplePython
  tenant := "tenant"
  tenant_ne_empty := by decide
  rules := { rules := [hairnetRule], distinct := by decide }
  exposed := true
  state := guestsState count
  gaps := []
  queriesPerMinute := 600
  charges := ∅

theorem reachable_guests (count : Nat) : Reachable .defaults (guestsDriver count).state :=
  ⟨[.append (fun _ => {}) ((range count).map guest)], rfl⟩

def northOnly : OrderedDict CameraId (Option String) := empty.set "north" none

theorem judgesEveryone_of_two_guests :
    (guestsDriver 2).UnseenUncovered northOnly.keys ⟨0⟩ ∧
      (guestsDriver 2).JudgesEveryone northOnly.keys ⟨0⟩ ⟨1⟩ := by
  have huncovered : (guestsDriver 2).UnseenUncovered northOnly.keys ⟨0⟩ := by
    have hnone : (guestsDriver 2).unseen northOnly.keys ⟨0⟩ = [] := by
      have hempty : ((guestsDriver 2).unseen northOnly.keys ⟨0⟩).isEmpty = true := by
        decide +kernel
      exact isEmpty_iff.mp hempty
    intro e he
    rw [hnone] at he
    cases he
  have hanswerable : (guestsDriver 2).SeenAnswerable northOnly.keys ⟨0⟩ ⟨1⟩ := by
    intro camera hcamera held hheld _ rule hrule _ _
    obtain rfl := mem_singleton.mp hcamera
    obtain rfl := mem_singleton.mp hrule
    have hall : ((guestsDriver 2).admitted "north").all (fun held =>
        (sampleEvaluator.evaluateIn samplePython hairnetRule
          ((guestsDriver 2).situationOf northOnly.keys ⟨1⟩ ("north", held)) "").isOk) = true := by
      decide +kernel
    obtain ⟨f, hf⟩ := returns_of_isOk (all_eq_true.mp hall held hheld)
    exact answerable_of_evaluateIn hf
  refine ⟨huncovered, ?_⟩
  exact (ComplianceDriver.judgesEveryone_iff (reachable_guests 2) northOnly ⟨0⟩ ⟨1⟩).mpr
    ⟨huncovered, hanswerable⟩

/-- The rule covers the last of a hundred and one guests, and no finding is about them. -/
theorem last_guest_not_judged :
    Reachable .defaults (guestsDriver 101).state ∧
      ¬ (guestsDriver 101).JudgesEveryone northOnly.keys ⟨0⟩ ⟨1⟩ := by
  refine ⟨reachable_guests 101, fun hjudges => ?_⟩
  -- evaluated together, as the state of all the guests is what takes the time
  obtain ⟨⟨held, hheld, hid, hclass⟩, hany⟩ :
      (∃ held ∈ (guestsDriver 101).admitted "north",
        held.objectId = guestName 100 ∧ hairnetRule.coversClass held.classId = true) ∧
      ((guestsDriver 101).judge northOnly.keys ⟨0⟩ ⟨1⟩).toOption.any (fun findings =>
        decide (∀ f ∈ findings, f.subject.objectId ≠ guestName 100)) = true := by
    decide +kernel
  obtain ⟨findings', hjudge', hnone⟩ := returns_of_any hany
  have hcamera : "north" ∈ northOnly.keys := mem_singleton.mpr rfl
  have hrule : hairnetRule ∈ (guestsDriver 101).rules.rules := mem_singleton.mpr rfl
  have hscope : hairnetRule.scope.coversCamera "north" = true := rfl
  obtain ⟨findings, hjudge, hone⟩ :=
    hjudges "north" hcamera held hheld hairnetRule hrule hclass hscope
  obtain rfl := Except.ok.inj (hjudge.symm.trans hjudge')
  obtain ⟨f, hf⟩ := exists_mem_of_length_pos (lt_of_lt_of_eq zero_lt_one hone.symm)
  obtain ⟨hmem, heq⟩ := mem_filter.mp hf
  refine hnone f hmem ?_
  have hparts := of_decide_eq_true heq
  rw [← hid]
  exact (mk.inj (mk.inj hparts).2).1

end VisionOs.App
