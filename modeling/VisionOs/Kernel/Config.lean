/-
  `ConfigurationManager`.  Each of `load`, `reload`, `override` and `clear_override` changes the
  layers or the overrides before it resolves them, and only `reload` puts anything back.  What the
  sources answer is an input; secrets and watchers are left out.
-/
import VisionOs.Kernel.Schema
import VisionOs.Lib.Effect
import VisionOs.Lib.Runs

namespace VisionOs.Kernel

open Core Lib Option Runs

/-! ## The manager -/

structure Override where
  value : PyValue
  expiresAt : Int
  actor : String

structure ConfigurationManager (D : Type) where
  layers : List LayerDocument
  merged : Document := []
  effective : Option (EffectiveConfig D) := none
  revision : String := "cfg-uninitialised"
  origins : OrderedDict String ValueOrigin := ∅
  overrides : OrderedDict String Override := ∅
  history : List (String × Int) := []

structure ConfigSetup (D : Type) where
  schema : ConfigSchema D
  sources : ConfigLayer → Option String
  py : Interpreter

structure ReloadResult where
  revision : String
  changedPaths : List String
  requiresRestart : List String

structure OverrideHandle where
  path : String
  expiresAt : Int
  actor : String

def nonReloadableSections : List String := ["platform", "buffer", "runtime"]

def nonReloadableKeys : List String :=
  ["metrics.max_label_cardinality", "detection.queue_capacity", "detection.max_batch_size",
    "models.artifact_cache_dir", "models.allow_cpu_fallback"]

def unexpired (now : Int) (overrides : OrderedDict String Override) : OrderedDict String Override :=
  overrides.filterKeys fun path => (overrides.get? path).any fun o => now < o.expiresAt

def applyOverrides (overrides : OrderedDict String Override) (m : Merged) : Merged :=
  overrides.entries.foldl (fun m entry =>
    { document := setPath m.document entry.1 entry.2.value
      origins := m.origins.set entry.1
        ⟨entry.1, .override, s!"override:{entry.2.actor}", entry.2.value⟩ }) m

namespace ConfigurationManager

variable {D : Type} (setup : ConfigSetup D)

/-- `ConfigurationManager(...)`. -/
def start (defaults : Document) : ConfigurationManager D where
  layers :=
    if defaults = [] then []
    else [{ layer := .defaults, sourceId := "builtin-defaults", document := .dict defaults }]

def readSource (layer : ConfigLayer) (sourceId : String) (answer : Raises PyValue) :
    Raises LayerDocument :=
  match answer with
  | .ok raw => .ok ⟨layer, sourceId, if Synthesis.truthy raw then raw else .dict []⟩
  | .error exc =>
    if isConfigurationError exc then .error exc
    else .error (.configurationError
      ([.text s!"config source '{sourceId}' failed to load: "] ++ exc.text))

def readSources (answers : ConfigLayer → Raises PyValue) : Raises (List LayerDocument) :=
  (ConfigLayer.all.filterMap fun layer => (setup.sources layer).map (layer, ·)).mapM
    fun (layer, sourceId) => readSource layer sourceId (answers layer)

def loadedLayers (documents : List LayerDocument) (m : ConfigurationManager D) :
    List LayerDocument :=
  (m.layers.filter fun d => d.layer = .defaults) ++ documents

/-- The end of `_resolve_locked`. -/
def commit (merged : Merged) (effective : EffectiveConfig D) (revision : String) (now : Int)
    (m : ConfigurationManager D) : ConfigurationManager D :=
  let history := m.history ++ [(revision, now)]
  { m with
    merged := merged.document
    origins := merged.origins
    effective := some effective
    revision
    history := history.drop (history.length - 128) }

/-- `_resolve_locked`, after the overrides are set. -/
def settle (merged : Merged) (now : Int) :
    Effect PyException (ConfigurationManager D) String := fun m =>
  match setup.schema.settled merged.document with
  | .error exc => (.error exc, m)
  | .ok (effective, revision) => (.ok revision, m.commit merged effective revision now)

/-- `_resolve_locked`. -/
def resolveLocked (now : Int) : Effect PyException (ConfigurationManager D) String := fun m =>
  match mergeLayers m.layers with
  | .error exc => (.error exc, m)
  | .ok merged =>
    settle setup (applyOverrides (unexpired now m.overrides) merged) now
      { m with overrides := unexpired now m.overrides }

def load (answers : ConfigLayer → Raises PyValue) (now : Int) :
    Effect PyException (ConfigurationManager D) String := fun m =>
  match readSources setup answers with
  | .error exc => (.error exc, m)
  | .ok documents => resolveLocked setup now { m with layers := m.loadedLayers documents }

def changedPaths (before after : Document) : List String :=
  let flatBefore := flatten setup.schema.dumps "" before ∅
  let flatAfter := flatten setup.schema.dumps "" after ∅
  let same (path : String) : Bool :=
    match flatBefore.get? path, flatAfter.get? path with
    | some v, some w => v.eq setup.py w
    | none, some w => w.isNone
    | some v, none => v.isNone
    | none, none => true
  sortedNames ((flatBefore.keys ++ flatAfter.keys.filter (· ∉ flatBefore.keys)).filter (! same ·))

def reload (answers : ConfigLayer → Raises PyValue) (now : Int) :
    Effect PyException (ConfigurationManager D) ReloadResult := fun m =>
  match load setup answers now m with
  | (.ok revision, m') =>
    let changed := changedPaths setup m.merged m'.merged
    (.ok
      { revision
        changedPaths := changed
        requiresRestart := changed.filter fun path =>
          (pySplit path '.').head? ∈ nonReloadableSections.map some ∨ path ∈ nonReloadableKeys },
      m')
  | (.error exc, m') =>
    if isConfigurationError exc then
      (.error exc, { m' with layers := m.layers, merged := m.merged, revision := m.revision })
    else (.error exc, m')

/-- `override`, with the time at which it resolves. -/
def override (path : String) (value : PyValue) (ttl : Int) (actor : String) (now later : Int) :
    Effect PyException (ConfigurationManager D) OverrideHandle := fun m =>
  let registered : Override := { value, expiresAt := now + ttl, actor }
  match resolveLocked setup later { m with overrides := m.overrides.set path registered } with
  | (.ok _, m') => (.ok { path, expiresAt := now + ttl, actor }, m')
  | (.error exc, m') => (.error exc, m')

def clearOverride (path : String) (now : Int) :
    Effect PyException (ConfigurationManager D) Unit := fun m =>
  match resolveLocked setup now { m with overrides := m.overrides.erase path } with
  | (.ok _, m') => (.ok (), m')
  | (.error exc, m') => (.error exc, m')

end ConfigurationManager

/-- A call of the manager, with what its sources answer and what its clock says. -/
inductive ConfigCall where
  | load (answers : ConfigLayer → Raises PyValue) (now : Int)
  | reload (answers : ConfigLayer → Raises PyValue) (now : Int)
  | override (path : String) (value : PyValue) (ttl : Int) (actor : String) (now later : Int)
  | clearOverride (path : String) (now : Int)

namespace ConfigurationManager

variable {D : Type} (setup : ConfigSetup D)

/-- A call: what it raises, and the manager after it. -/
def perform (m : ConfigurationManager D) : ConfigCall → Raises Unit × ConfigurationManager D
  | .load answers now => ((load setup answers now m).1.map fun _ => (), (load setup answers now m).2)
  | .reload answers now =>
    ((reload setup answers now m).1.map fun _ => (), (reload setup answers now m).2)
  | .override path value ttl actor now later =>
    ((override setup path value ttl actor now later m).1.map fun _ => (),
      (override setup path value ttl actor now later m).2)
  | .clearOverride path now => clearOverride setup path now m

def step (m : ConfigurationManager D) (call : ConfigCall) : ConfigurationManager D :=
  (m.perform setup call).2

/-- A call that raises leaves the manager as it was. -/
def Unchanged (m : ConfigurationManager D) (call : ConfigCall) : Prop :=
  ∀ exc, (m.perform setup call).1 = .error exc → m.step setup call = m

def returning (m : ConfigurationManager D) : List ConfigCall → List ConfigCall
  | [] => []
  | call :: rest =>
    if (m.perform setup call).1.isOk then call :: returning (m.step setup call) rest
    else returning (m.step setup call) rest

structure Attempt where
  layers : List LayerDocument
  overrides : OrderedDict String Override
  now : Int

def attempt? (m : ConfigurationManager D) : ConfigCall → Option Attempt
  | .load answers now | .reload answers now =>
    match readSources setup answers with
    | .error _ => none
    | .ok documents => some ⟨m.loadedLayers documents, m.overrides, now⟩
  | .override path value ttl actor now later =>
    some ⟨m.layers, m.overrides.set path { value, expiresAt := now + ttl, actor }, later⟩
  | .clearOverride path now => some ⟨m.layers, m.overrides.erase path, now⟩

def Attempt.merged? (a : Attempt) : Option Merged :=
  match mergeLayers a.layers with
  | .ok merged => some (applyOverrides (unexpired a.now a.overrides) merged)
  | .error _ => none

/-- What was read merges into a document that the schema accepts. -/
def Attempt.Resolves (a : Attempt) : Prop :=
  ∃ merged ∈ a.merged?, setup.schema.Accepts merged.document

instance (a : Attempt) : Decidable (a.Resolves setup) :=
  inferInstanceAs (Decidable (∃ merged ∈ a.merged?, setup.schema.Accepts merged.document))

/-- What was read merges into a document that the schema refuses. -/
def Attempt.Refused (a : Attempt) : Prop :=
  ∃ merged ∈ a.merged?, setup.schema.Refuses merged.document

instance (a : Attempt) : Decidable (a.Refused setup) :=
  inferInstanceAs (Decidable (∃ merged ∈ a.merged?, setup.schema.Refuses merged.document))

/-- The overrides that are left where they do not make one. -/
def Attempt.left (a : Attempt) : OrderedDict String Override :=
  if a.merged? = none then a.overrides else unexpired a.now a.overrides

/-- Whether a call that is refused puts the layers back. -/
def restores : ConfigCall → Bool
  | .reload .. => true
  | _ => false

/-- No override that is registered has run out. -/
def Lasting (m : ConfigurationManager D) (now : Int) : Prop :=
  ∀ entry ∈ m.overrides.entries, now < entry.2.expiresAt

/-- Where the call finds the overrides as it would leave them: none has run out (they are only
    looked at where the layers merge); an override repeats the one at its path, or is over
    before it resolves and has none there; and none is there to be cleared. -/
def Spares (m : ConfigurationManager D) (merges : Bool) : ConfigCall → Prop
  | .load _ now | .reload _ now => merges = true → m.Lasting now
  | .override path value ttl actor now later =>
    (m.overrides.get? path = some { value, expiresAt := now + ttl, actor } ∨
      merges = true ∧ m.overrides.get? path = none ∧ now + ttl ≤ later) ∧
      (merges = true → m.Lasting later)
  | .clearOverride path now => m.overrides.get? path = none ∧ (merges = true → m.Lasting now)

/-- The call resolves; or it finds the overrides as it leaves them, and reads the layers there
    were or, a `reload`, is refused with a `ConfigurationError`. -/
def Clean (m : ConfigurationManager D) (call : ConfigCall) : Prop :=
  ∀ a ∈ m.attempt? setup call,
    a.Resolves setup ∨
      m.Spares a.merged?.isSome call ∧
        (a.layers = m.layers ∨ restores call = true ∧ a.Refused setup)

/-- The path lies below another, at which there is a dictionary. -/
def Below (above : String) (value : PyValue) (path : String) : Prop :=
  (∃ entries, value = .dict entries) ∧ pySplit above '.' <+: pySplit path '.' ∧ above ≠ path

/-- An override lies below no registered dictionary, and no registered override below it. -/
def Apart (m : ConfigurationManager D) : ConfigCall → Prop
  | .override path value .. => ∀ entry ∈ m.overrides.entries,
      ¬ Below entry.1 entry.2.value path ∧ ¬ Below path value entry.1
  | _ => True

/-- The call takes no way on which a failure would leave something behind. -/
structure Harmless (m : ConfigurationManager D) (call : ConfigCall) : Prop where
  apart : m.Apart call
  clean : m.Clean setup call

/-! ## One call -/

section OneCall

variable {setup} {m : ConfigurationManager D} {call : ConfigCall} {a : Attempt}

theorem isConfigurationError_of_mergeLayers {layers : List LayerDocument} {exc : PyException}
    (h : mergeLayers layers = .error exc) : isConfigurationError exc = false := by
  have hfold : ∀ (docs : List LayerDocument) (m : Merged),
      docs.foldlM mergeLayer m = .error exc → isConfigurationError exc = false := by
    intro docs
    induction docs with
    | nil => exact fun m hm => by cases hm
    | cons doc rest ih =>
      intro m hm
      rw [List.foldlM_cons] at hm
      cases hdoc : mergeLayer m doc with
      | ok m' =>
        rw [hdoc] at hm
        exact ih m' hm
      | error exc' =>
        rw [hdoc] at hm
        obtain rfl := Except.error.inj hm
        unfold mergeLayer at hdoc
        split at hdoc
        · cases hdoc
        · rw [← Except.error.inj hdoc]
          rfl
  exact hfold _ _ h

/-- What `_resolve_locked` is about to resolve. -/
def pending (m : ConfigurationManager D) (now : Int) : Attempt := ⟨m.layers, m.overrides, now⟩

variable {now : Int}

theorem resolveLocked_of_resolves (h : (m.pending now).Resolves setup) :
    (resolveLocked setup now m).1.isOk = true := by
  obtain ⟨merged, hmerged, haccepts⟩ := h
  unfold Attempt.merged? pending at hmerged
  unfold resolveLocked
  cases hlayers : mergeLayers m.layers with
  | error exc =>
    rw [hlayers] at hmerged
    cases hmerged
  | ok layered =>
    rw [hlayers] at hmerged
    obtain rfl := some.inj hmerged
    unfold ConfigSchema.Accepts at haccepts
    dsimp only [settle]
    rcases hsettled : setup.schema.settled
      (applyOverrides (unexpired now m.overrides) layered).document with exc | settled
    · rw [hsettled] at haccepts
      cases haccepts
    · rfl

theorem resolveLocked_of_not_resolves (h : ¬ (m.pending now).Resolves setup) :
    ∃ exc, resolveLocked setup now m = (.error exc, { m with overrides := (m.pending now).left }) ∧
      (isConfigurationError exc = true ↔ (m.pending now).Refused setup) := by
  cases hlayers : mergeLayers m.layers with
  | error exc =>
    have hnone : (m.pending now).merged? = none := by
      unfold Attempt.merged? pending
      rw [hlayers]
    refine ⟨exc, ?_, ?_⟩
    · unfold resolveLocked Attempt.left
      rw [if_pos hnone, hlayers]
      rfl
    · unfold Attempt.Refused
      rw [hnone, isConfigurationError_of_mergeLayers hlayers]
      simp
  | ok layered =>
    have hsome : (m.pending now).merged? =
        some (applyOverrides (unexpired now m.overrides) layered) := by
      unfold Attempt.merged? pending
      rw [hlayers]
    have hleft : (m.pending now).left = unexpired now m.overrides := by
      unfold Attempt.left
      rw [if_neg (by rw [hsome]; simp)]
      rfl
    have hresolve : resolveLocked setup now m =
        settle setup (applyOverrides (unexpired now m.overrides) layered) now
          { m with overrides := unexpired now m.overrides } := by
      unfold resolveLocked
      rw [hlayers]
    have hrefused : (m.pending now).Refused setup ↔ setup.schema.Refuses
        (applyOverrides (unexpired now m.overrides) layered).document := by
      unfold Attempt.Refused
      rw [hsome]
      simp
    have hnot : ¬ setup.schema.Accepts
        (applyOverrides (unexpired now m.overrides) layered).document :=
      fun haccepts => h ⟨_, hsome, haccepts⟩
    rw [hresolve, hrefused, hleft]
    generalize applyOverrides (unexpired now m.overrides) layered = merged at hnot ⊢
    unfold settle ConfigSchema.Refuses
    unfold ConfigSchema.Accepts at hnot
    rcases hsettled : setup.schema.settled merged.document with exc | settled
    · exact ⟨exc, rfl, Iff.rfl⟩
    · rw [hsettled] at hnot
      exact absurd rfl hnot

theorem perform_of_attempt?_none (h : m.attempt? setup call = none) :
    ∃ exc, m.perform setup call = (.error exc, m) := by
  cases call with
  | load answers now =>
    cases hread : readSources setup answers with
    | error exc =>
      refine ⟨exc, ?_⟩
      dsimp only [perform, load]
      rw [hread]
      rfl
    | ok documents =>
      simp only [attempt?, hread] at h
      cases h
  | reload answers now =>
    cases hread : readSources setup answers with
    | error exc =>
      refine ⟨exc, ?_⟩
      dsimp only [perform, reload, load]
      rw [hread]
      dsimp only
      split <;> rfl
    | ok documents =>
      simp only [attempt?, hread] at h
      cases h
  | override => cases h
  | clearOverride => cases h

def afterResolve (m : ConfigurationManager D) (call : ConfigCall) :
    Raises String × ConfigurationManager D → Raises Unit × ConfigurationManager D
  | (.ok _, m') => (.ok (), m')
  | (.error exc, m') =>
    (.error exc,
      if restores call = true ∧ isConfigurationError exc = true then
        { m' with layers := m.layers, merged := m.merged, revision := m.revision }
      else m')

theorem perform_of_attempt? (h : m.attempt? setup call = some a) :
    m.perform setup call = m.afterResolve call
      (resolveLocked setup a.now { m with layers := a.layers, overrides := a.overrides }) := by
  cases call with
  | load answers now =>
    cases hread : readSources setup answers with
    | error exc =>
      simp only [attempt?, hread] at h
      cases h
    | ok documents =>
      simp only [attempt?, hread] at h
      obtain rfl := some.inj h
      dsimp only [perform, load]
      rw [hread]
      dsimp only
      rcases resolveLocked setup now { m with layers := m.loadedLayers documents } with ⟨_ | _, m'⟩
      · rfl
      · rfl
  | reload answers now =>
    cases hread : readSources setup answers with
    | error exc =>
      simp only [attempt?, hread] at h
      cases h
    | ok documents =>
      simp only [attempt?, hread] at h
      obtain rfl := some.inj h
      dsimp only [perform, reload, load]
      rw [hread]
      dsimp only
      rcases resolveLocked setup now { m with layers := m.loadedLayers documents } with
        ⟨exc | revision, m'⟩
      · have hrestores : restores (.reload answers now) = true := rfl
        dsimp only [afterResolve]
        by_cases hexc : isConfigurationError exc = true
        · rw [if_pos hexc, if_pos ⟨hrestores, hexc⟩]
          rfl
        · rw [if_neg hexc, if_neg fun h => hexc h.2]
          rfl
      · rfl
  | override path value ttl actor now later =>
    obtain rfl := some.inj h
    dsimp only [perform, override]
    rcases resolveLocked setup later
      { m with overrides := m.overrides.set path { value, expiresAt := now + ttl, actor } } with
      ⟨_ | _, m'⟩
    · rfl
    · rfl
  | clearOverride path now =>
    obtain rfl := some.inj h
    dsimp only [perform, clearOverride]
    rcases resolveLocked setup now { m with overrides := m.overrides.erase path } with ⟨_ | _, m'⟩
    · rfl
    · rfl

theorem perform_of_resolves (h : m.attempt? setup call = some a) (hresolves : a.Resolves setup) :
    (m.perform setup call).1 = .ok () := by
  rw [perform_of_attempt? h]
  have hok : (resolveLocked setup a.now
      { m with layers := a.layers, overrides := a.overrides }).1.isOk = true :=
    resolveLocked_of_resolves hresolves
  rcases hres : resolveLocked setup a.now
    { m with layers := a.layers, overrides := a.overrides } with ⟨exc | revision, m'⟩
  · rw [hres] at hok
    cases hok
  · rfl

theorem perform_of_not_resolves (h : m.attempt? setup call = some a)
    (hresolves : ¬ a.Resolves setup) :
    (∃ exc, (m.perform setup call).1 = .error exc) ∧
      (restores call = true ∧ a.Refused setup →
        m.step setup call = { m with overrides := a.left }) ∧
      (¬ (restores call = true ∧ a.Refused setup) →
        m.step setup call = { m with layers := a.layers, overrides := a.left }) := by
  let attempted : ConfigurationManager D :=
    { m with layers := a.layers, overrides := a.overrides }
  have hattempted : ¬ (attempted.pending a.now).Resolves setup := hresolves
  obtain ⟨exc, hres, hrefused⟩ := resolveLocked_of_not_resolves hattempted
  have hperform := perform_of_attempt? h
  rw [hres] at hperform
  change _ ↔ a.Refused setup at hrefused
  rw [← hrefused]
  unfold step
  rw [hperform]
  dsimp only [afterResolve]
  refine ⟨⟨exc, rfl⟩, fun hback => ?_, fun hback => ?_⟩
  · rw [if_pos hback]
    rfl
  · rw [if_neg hback]
    rfl

/-- What is left of the overrides is those that have not run out. -/
theorem entries_unexpired (now : Int) (overrides : OrderedDict String Override) :
    (unexpired now overrides).entries = overrides.entries.filter fun e => now < e.2.expiresAt := by
  unfold unexpired OrderedDict.filterKeys
  refine List.filter_congr fun e he => ?_
  dsimp only
  rw [OrderedDict.get?_eq_some_iff.mpr he]
  rfl

theorem unexpired_eq_iff : unexpired now m.overrides = m.overrides ↔ m.Lasting now := by
  constructor
  · intro h entry hentry
    have hentries := congrArg OrderedDict.entries h
    rw [entries_unexpired] at hentries
    exact of_decide_eq_true (List.filter_eq_self.mp hentries entry hentry)
  · intro h
    apply OrderedDict.ext
    rw [entries_unexpired]
    exact List.filter_eq_self.mpr fun entry hentry => decide_eq_true (h entry hentry)

variable {path : String}

/-- An override that is registered and then looked at leaves what there was. -/
theorem unexpired_set_eq_iff {o : Override} {later : Int} :
    unexpired later (m.overrides.set path o) = m.overrides ↔
      (m.overrides.get? path = some o ∨ m.overrides.get? path = none ∧ o.expiresAt ≤ later) ∧
        m.Lasting later := by
  constructor
  · intro h
    have hlasting : m.Lasting later := by
      intro entry hentry
      rw [← h, entries_unexpired] at hentry
      exact of_decide_eq_true (List.mem_filter.mp hentry).2
    refine ⟨?_, hlasting⟩
    have hthere : m.overrides.get? path = if later < o.expiresAt then some o else none := by
      conv_lhs => rw [← h]
      unfold unexpired
      rw [OrderedDict.get?_filterKeys, OrderedDict.get?_set_self]
      simp
    by_cases hover : later < o.expiresAt
    · rw [if_pos hover] at hthere
      exact .inl hthere
    · rw [if_neg hover] at hthere
      exact .inr ⟨hthere, not_lt.mp hover⟩
  · rintro ⟨hthere | ⟨hnone, hover⟩, hlasting⟩
    · rw [OrderedDict.set_of_get? hthere]
      exact unexpired_eq_iff.mpr hlasting
    · apply OrderedDict.ext
      have hentries := congrArg OrderedDict.entries (unexpired_eq_iff.mpr hlasting)
      rw [entries_unexpired] at hentries ⊢
      rw [OrderedDict.entries_set_of_get?_none hnone, List.filter_append, hentries]
      simp [not_lt.mpr hover]

theorem set_eq_self_iff {o : Override} :
    m.overrides.set path o = m.overrides ↔ m.overrides.get? path = some o := by
  refine ⟨fun h => ?_, OrderedDict.set_of_get?⟩
  rw [← h]
  exact OrderedDict.get?_set_self _ _ _

theorem erase_eq_self_iff :
    m.overrides.erase path = m.overrides ↔ m.overrides.get? path = none := by
  refine ⟨fun h => ?_, OrderedDict.erase_of_get?_none⟩
  rw [← h, OrderedDict.get?_erase, if_pos rfl]

theorem unexpired_erase_eq_iff :
    unexpired now (m.overrides.erase path) = m.overrides ↔
      m.overrides.get? path = none ∧ m.Lasting now := by
  constructor
  · intro h
    have hnone : m.overrides.get? path = none := by
      conv_lhs => rw [← h]
      unfold unexpired
      rw [OrderedDict.get?_filterKeys, OrderedDict.get?_erase, if_pos rfl]
      simp
    rw [OrderedDict.erase_of_get?_none hnone] at h
    exact ⟨hnone, unexpired_eq_iff.mp h⟩
  · rintro ⟨hnone, hlasting⟩
    rw [OrderedDict.erase_of_get?_none hnone]
    exact unexpired_eq_iff.mpr hlasting

/-- A failing call leaves the overrides there were exactly where it spares them. -/
theorem left_eq_iff_spares (h : m.attempt? setup call = some a) :
    a.left = m.overrides ↔ m.Spares a.merged?.isSome call := by
  have hload : ∀ now layers, a = ⟨layers, m.overrides, now⟩ →
      (a.left = m.overrides ↔ (a.merged?.isSome = true → m.Lasting now)) := by
    rintro now layers rfl
    unfold Attempt.left
    rcases (Attempt.merged? ⟨layers, m.overrides, now⟩) with _ | merged
    · simp
    · simpa using unexpired_eq_iff
  cases call with
  | load answers now =>
    cases hread : readSources setup answers with
    | error exc =>
      simp only [attempt?, hread] at h
      cases h
    | ok documents =>
      simp only [attempt?, hread] at h
      exact hload now _ (some.inj h).symm
  | reload answers now =>
    cases hread : readSources setup answers with
    | error exc =>
      simp only [attempt?, hread] at h
      cases h
    | ok documents =>
      simp only [attempt?, hread] at h
      exact hload now _ (some.inj h).symm
  | override path value ttl actor now later =>
    obtain rfl := some.inj h
    unfold Attempt.left Spares
    rcases (Attempt.merged? _) with _ | merged
    · simpa using set_eq_self_iff
    · simpa using unexpired_set_eq_iff
  | clearOverride path now =>
    obtain rfl := some.inj h
    unfold Attempt.left Spares
    rcases (Attempt.merged? _) with _ | merged
    · simpa using erase_eq_self_iff
    · simpa using unexpired_erase_eq_iff

theorem unchanged_iff_clean : m.Unchanged setup call ↔ m.Clean setup call := by
  cases hattempt : m.attempt? setup call with
  | none =>
    obtain ⟨exc, hperform⟩ := perform_of_attempt?_none hattempt
    constructor
    · intro _ a ha
      rw [hattempt] at ha
      cases ha
    · intro _ exc' _
      unfold step
      rw [hperform]
  | some a =>
    by_cases hresolves : a.Resolves setup
    · constructor
      · intro _ a' ha'
        rw [hattempt] at ha'
        obtain rfl := some.inj ha'
        exact .inl hresolves
      · intro _ exc hexc
        rw [perform_of_resolves hattempt hresolves] at hexc
        cases hexc
    · obtain ⟨⟨exc, hexc⟩, hback, hkept⟩ := perform_of_not_resolves hattempt hresolves
      constructor
      · intro hunchanged a' ha'
        rw [hattempt] at ha'
        obtain rfl := some.inj ha'
        have hstep := hunchanged exc hexc
        right
        by_cases hrefused : restores call = true ∧ a.Refused setup
        · rw [hback hrefused] at hstep
          exact ⟨(left_eq_iff_spares hattempt).mp (congrArg overrides hstep), .inr hrefused⟩
        · rw [hkept hrefused] at hstep
          exact ⟨(left_eq_iff_spares hattempt).mp (congrArg overrides hstep),
            .inl (congrArg layers hstep)⟩
      · intro hclean _ _
        obtain hclean | ⟨hspares, hlayers⟩ := hclean a hattempt
        · exact absurd hclean hresolves
        · have hleft := (left_eq_iff_spares hattempt).mpr hspares
          by_cases hrefused : restores call = true ∧ a.Refused setup
          · rw [hback hrefused, hleft]
          · rw [hkept hrefused, hleft, hlayers.resolve_right hrefused]

theorem clean_of_resolves (h : ∀ a ∈ m.attempt? setup call, a.Resolves setup) :
    m.Clean setup call :=
  fun a ha => .inl (h a ha)

end OneCall

theorem run_returning {calls : List ConfigCall} {m : ConfigurationManager D}
    (h : Runs.Always (step setup) (Unchanged setup) m calls) :
    run (step setup) m calls = run (step setup) m (m.returning setup calls) := by
  induction calls generalizing m with
  | nil => rfl
  | cons call rest ih =>
    obtain ⟨hcall, hrest⟩ := h
    unfold returning
    cases hperform : (m.perform setup call).1 with
    | ok _ => exact ih hrest
    | error exc =>
      have hstep : m.step setup call = m := hcall exc hperform
      rw [hstep] at hrest
      rw [run_cons, hstep]
      exact ih hrest

def node : ConfigSetup Unit where
  schema := .platformAndSource
  sources layer := if layer = .site then some "site.yaml" else none
  py := { str := fun _ => "", same := fun _ _ => false, room := 900 }

/-- A document of the site that sets the watchdog of the sources. -/
def site (watchdog : PyValue) : ConfigLayer → Raises PyValue := fun _ =>
  .ok (.dict [("source", .dict [("stall_watchdog_ms", watchdog)])])

/-- A source that cannot be read, a document that is refused, an override of a dictionary and one
    that is taken back. -/
def nodeCalls : List ConfigCall :=
  [.load (site (.int 2000)) 0,
    .override "source" (.dict [("stall_watchdog_ms", .int 4000)]) 60 "oncall" 1 1,
    .reload (fun _ => .error (.osError "site.yaml")) 2,
    .reload (fun _ => .ok (.dict [("sauce", .dict [])])) 3,
    .clearOverride "source" 4,
    .override "source.stall_watchdog_ms" (.int 500) 60 "oncall" 5 5,
    .load (site (.int 3000)) 6]

def watchdogs (m : ConfigurationManager Unit) : List (Option PyFloat) :=
  m.layers.map fun d =>
    match d.document with
    | .dict entries =>
      (OrderedDict.lookupIn "stall_watchdog_ms" (below "source" entries)).bind PyValue.asNumber
    | _ => none

end ConfigurationManager

end VisionOs.Kernel
