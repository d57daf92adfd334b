/-
  Change suppression: the policies, and what was last published of each subject and type.  How a
  value is printed and SHA-256 are parameters; `suppressed` lists the candidates the source only
  counts.
-/
import VisionOs.Core.VisualObject

namespace VisionOs.Core

def QualityLevel.value : QualityLevel → String
  | .excellent => "excellent"
  | .good => "good"
  | .marginal => "marginal"
  | .insufficient => "insufficient"

end VisionOs.Core

namespace VisionOs.Synthesis

open Core Lib OrderedDict

/-- What a digest is made with: SHA-256 in hexadecimal, `f"{x:.{places}f}"`, and the `repr` of a
    value that has one, by an interpreter that goes `room` containers deep. -/
structure DigestTools where
  sha256 : String → String
  fixed : PyFloat → Nat → String
  repr : PyValue → String
  room : Nat

/-- `EXACT_POSITION_PRECISION`. -/
def exactPositionPrecision : Nat := 3

/-- The text that `_digest` feeds to the hash, piece by piece. -/
def digestText (tools : DigestTools) (precision : Nat) (o : Observation) : String :=
  o.observationType.value ++
  o.objectId.getD "" ++
  o.classId.getD "" ++
  (o.lifecycleState.map (·.value)).getD "" ++
  o.measurementBasis.value ++
  (match o.spatial.bind (·.bbox) with
    | some box =>
      tools.fixed box.x1 precision ++ "," ++ tools.fixed box.y1 precision ++ "," ++
        tools.fixed box.x2 precision ++ "," ++ tools.fixed box.y2 precision
    | none => "") ++
  String.join (o.attributes.map fun a => a.key ++ "=" ++ tools.repr a.value) ++
  (match o.coverage with
    | some window => window.status.value ++ window.reason.value
    | none => "") ++
  (match o.lifecycleTransition with
    | some transition => transition.previous.value ++ transition.current.value
    | none => "") ++
  ((o.quality.bind (·.overall)).map (·.value)).getD ""

/-- `_digest`: the `repr` of an attribute's value may raise. -/
def digest (tools : DigestTools) (precision : Nat) (o : Observation) : Raises String := do
  o.attributes.forM fun a => a.value.written tools.room
  return tools.sha256 (digestText tools precision o)

/-- Every attribute value has a `repr`. -/
def Printable (tools : DigestTools) (o : Observation) : Prop :=
  ∀ a ∈ o.attributes, a.value.depth ≤ tools.room ∧ a.value.printable = true

theorem digest_eq_ok {tools : DigestTools} {precision : Nat} {o : Observation} {text : String} :
    digest tools precision o = .ok text ↔
      Printable tools o ∧ tools.sha256 (digestText tools precision o) = text := by
  unfold digest
  rw [check_bind_eq_ok, forM_eq_ok]
  simp only [PyValue.written_eq_ok]
  exact and_congr_right fun _ => ⟨Except.ok.inj, congrArg _⟩

/-! ## Policies -/

/-- The policies that ship.  The threshold policy's precision is the number of decimal
    places its threshold implies. -/
inductive SuppressionPolicy where
  | exact
  | threshold (precision : Nat)
  | always
  deriving DecidableEq, Repr

/-- Whether to publish, and why. -/
structure SuppressionDecision where
  publish : Bool
  reason : String
  deriving DecidableEq, Repr

/-- `ALWAYS_PUBLISH`. -/
def alwaysPublish : List ObservationType := [.coverage, .lifecycle, .identity]

/-- `_mandatory`: the reason this must publish regardless of content, or `None`. -/
def mandatory (candidate : Observation) (previous : Option String) : Option String :=
  if previous = none then some "first observation for this subject"
  else if candidate.observationType ∈ alwaysPublish then
    some s!"{candidate.observationType.value} is never suppressed"
  else if candidate.supersedes ≠ none then
    some "correction; a correction nobody receives is not a correction"
  else none

namespace SuppressionPolicy

/-- `signature`. -/
def signature (tools : DigestTools) : SuppressionPolicy → Observation → Raises String
  | threshold precision, o => digest tools precision o
  | _, o => digest tools exactPositionPrecision o

/-- What the two policies that compare do; they differ in their signatures and texts.  The
    signature is taken only where nothing before it decides. -/
def compare (signature : Raises String) (changed unchanged : String) (candidate : Observation)
    (previousSignature : Option String) (elapsed heartbeat : Duration) :
    Raises SuppressionDecision :=
  match mandatory candidate previousSignature with
  | some reason => .ok ⟨true, reason⟩
  | none =>
    if elapsed.ns ≥ heartbeat.ns then .ok ⟨true, "heartbeat cadence reached"⟩
    else do
      let signature ← signature
      return if previousSignature ≠ some signature then ⟨true, changed⟩ else ⟨false, unchanged⟩

/-- `should_publish`. -/
def shouldPublish (tools : DigestTools) (policy : SuppressionPolicy) (candidate : Observation)
    (previousSignature : Option String) (elapsed heartbeat : Duration) :
    Raises SuppressionDecision :=
  match policy with
  | exact =>
    compare (policy.signature tools candidate) "content changed"
      "identical to the last published observation" candidate previousSignature elapsed heartbeat
  | threshold _ =>
    compare (policy.signature tools candidate) "content changed beyond threshold"
      "unchanged within the configured threshold" candidate previousSignature elapsed heartbeat
  | always => .ok ⟨true, "forensic mode: never suppress"⟩

variable {tools : DigestTools} {policy : SuppressionPolicy} {o : Observation}

/-- A signature is made exactly where every attribute value has a `repr`. -/
theorem signature_returns_iff : (∃ s, policy.signature tools o = .ok s) ↔ Printable tools o := by
  cases policy <;> simp only [signature, digest_eq_ok, exists_and_left, exists_eq', and_true]

variable {previousSignature : Option String}

/-- Where a signature is made, a decision is; and what is held back was said last, of a type
    that may be, less than a heartbeat ago. -/
theorem compare_of_ok {s changed unchanged : String}
    {elapsed heartbeat : Duration} :
    ∃ d, compare (.ok s) changed unchanged o previousSignature elapsed heartbeat = .ok d ∧
      (d.publish = false → previousSignature = some s ∧ o.observationType ∉ alwaysPublish ∧
        elapsed.ns < heartbeat.ns) := by
  unfold compare
  split
  · exact ⟨_, rfl, fun h => by cases h⟩
  rename_i hmandatory
  have htype : o.observationType ∉ alwaysPublish := by
    unfold mandatory at hmandatory
    intro hmem
    simp [hmem] at hmandatory
    split at hmandatory <;> cases hmandatory
  split
  · exact ⟨_, rfl, fun h => by cases h⟩
  rename_i hearly
  refine ⟨_, rfl, ?_⟩
  split
  · exact fun h => by cases h
  · rename_i hsame
    exact fun _ => ⟨not_not.mp hsame, htype, not_le.mp hearly⟩

theorem shouldPublish_of_signature {s : String} (h : policy.signature tools o = .ok s)
    (previousSignature : Option String) (elapsed heartbeat : Duration) :
    ∃ d, policy.shouldPublish tools o previousSignature elapsed heartbeat = .ok d ∧
      (d.publish = false → previousSignature = some s ∧ o.observationType ∉ alwaysPublish ∧
        elapsed.ns < heartbeat.ns) := by
  cases policy with
  | exact =>
    unfold shouldPublish
    dsimp only
    rw [h]
    exact compare_of_ok
  | threshold precision =>
    unfold shouldPublish
    dsimp only
    rw [h]
    exact compare_of_ok
  | always => exact ⟨_, rfl, fun h => by cases h⟩

/-- Without a signature nothing is held back. -/
theorem publishes_of_unsigned {exc : PyException} (h : policy.signature tools o = .error exc)
    {elapsed heartbeat : Duration} {d : SuppressionDecision}
    (hd : policy.shouldPublish tools o previousSignature elapsed heartbeat = .ok d) :
    d.publish = true := by
  have hcompare : ∀ changed unchanged, compare (.error exc) changed unchanged o
      previousSignature elapsed heartbeat = .ok d → d.publish = true := by
    intro changed unchanged hd
    unfold compare at hd
    split at hd
    · cases hd
      rfl
    split at hd
    · cases hd
      rfl
    · cases hd
  cases policy with
  | always =>
    cases hd
    rfl
  | exact =>
    unfold shouldPublish at hd
    dsimp only at hd
    rw [h] at hd
    exact hcompare _ _ hd
  | threshold precision =>
    unfold shouldPublish at hd
    dsimp only at hd
    rw [h] at hd
    exact hcompare _ _ hd

end SuppressionPolicy

/-! ## What was last published -/

abbrev SubjectKey := Option ObjectId × ObservationType

def subjectKey (o : Observation) : SubjectKey := (o.objectId, o.observationType)

structure PublishedSignature where
  signature : String
  observationId : ObservationId
  publishedAt : Instant
  sequence : Nat := 0
  deriving DecidableEq

structure CameraSuppressionState where
  published : OrderedDict SubjectKey PublishedSignature := ∅
  suppressed : List Observation := []

namespace CameraSuppressionState

def last (s : CameraSuppressionState) (key : SubjectKey) : Option PublishedSignature :=
  s.published.get? key

def oldest : List (SubjectKey × PublishedSignature) → Option (SubjectKey × PublishedSignature)
  | [] => none
  | x :: rest =>
    match oldest rest with
    | some y => if y.2.publishedAt.ns < x.2.publishedAt.ns then some y else some x
    | none => some x

def evictLoop (capacity : Nat) : Nat → OrderedDict SubjectKey PublishedSignature →
    OrderedDict SubjectKey PublishedSignature
  | 0, published => published
  | passes + 1, published =>
    if published.size ≤ capacity then published
    else
      match oldest published.entries with
      | none => published
      | some (key, _) => evictLoop capacity passes (published.erase key)

/-- `record`: note a publication. -/
def record (capacity : Nat) (s : CameraSuppressionState) (key : SubjectKey) (signature : String)
    (o : Observation) : CameraSuppressionState :=
  let published := s.published.set key {
    signature
    observationId := o.observationId
    publishedAt := o.tCapture
    sequence := (s.last key).elim 1 (·.sequence + 1) }
  { s with published := evictLoop capacity published.size published }

/-- `forget`: drop a departed object's signatures, and how many they were. -/
def forget (s : CameraSuppressionState) (objectId : ObjectId) : CameraSuppressionState × Nat :=
  ({ s with published := s.published.filterKeys fun key => decide (key.1 ≠ some objectId) },
    s.published.keys.countP fun key => decide (key.1 = some objectId))

variable {capacity : Nat} {p : PublishedSignature}

variable {published : OrderedDict SubjectKey PublishedSignature} {key : SubjectKey}

theorem get?_of_evictLoop {passes : Nat}
    (h : (evictLoop capacity passes published).get? key = some p) :
    published.get? key = some p := by
  induction passes generalizing published with
  | zero => exact h
  | succ passes ih =>
    unfold evictLoop at h
    split at h
    · exact h
    · split at h
      · exact h
      · have hkept := ih h
        exact (get?_of_erase hkept).2

variable {s : CameraSuppressionState} {signature : String} {o : Observation} {key' : SubjectKey}

theorem last_of_record_cases
    (h : (s.record capacity key signature o).last key' = some p) :
    (key' = key ∧ p.signature = signature ∧ p.publishedAt = o.tCapture) ∨
      (key' ≠ key ∧ s.last key' = some p) := by
  have hset := get?_of_evictLoop h
  rcases get?_of_set hset with ⟨hkey, rfl⟩ | ⟨hkey, hset⟩
  · exact .inl ⟨hkey.symm, rfl, rfl⟩
  · exact .inr ⟨Ne.symm hkey, hset⟩

theorem last_of_record
    (h : (s.record capacity key signature o).last key' = some p) :
    (key' = key ∧ p.signature = signature) ∨ s.last key' = some p := by
  rcases last_of_record_cases h with ⟨hkey, hsignature, -⟩ | ⟨-, hold⟩
  · exact .inl ⟨hkey, hsignature⟩
  · exact .inr hold

variable {entries : List (SubjectKey × PublishedSignature)}

theorem oldest_ne_none (h : entries ≠ []) :
    oldest entries ≠ none := by
  cases entries with
  | nil => exact absurd rfl h
  | cons x rest =>
    unfold oldest
    split
    · split <;> simp
    · simp

theorem mem_of_oldest
    {e : SubjectKey × PublishedSignature} (h : oldest entries = some e) : e ∈ entries := by
  induction entries with
  | nil => cases h
  | cons x rest ih =>
    unfold oldest at h
    split at h
    · rename_i y hy
      split at h
      · cases h
        exact List.mem_cons_of_mem _ (ih hy)
      · cases h
        exact List.mem_cons_self
    · cases h
      exact List.mem_cons_self

theorem size_evictLoop_le {passes : Nat}
    (h : published.size ≤ capacity + passes) :
    (evictLoop capacity passes published).size ≤ capacity := by
  induction passes generalizing published with
  | zero => exact h
  | succ passes ih =>
    unfold evictLoop
    split
    · assumption
    split
    · rename_i hnone
      -- something is remembered, so there is an oldest key
      have hempty : published.entries = [] := by
        by_contra hne
        exact oldest_ne_none hne hnone
      have hsize : published.size = 0 := congrArg List.length hempty
      omega
    · rename_i key p holdest
      have hget : published.get? key = some p :=
        get?_eq_some_iff.mpr (mem_of_oldest holdest)
      have hsize := size_erase_of_get? hget
      apply ih
      omega

theorem size_record_le (capacity : Nat) (s : CameraSuppressionState) (key : SubjectKey)
    (signature : String) (o : Observation) :
    (s.record capacity key signature o).published.size ≤ capacity :=
  size_evictLoop_le (Nat.le_add_left _ _)

theorem last_of_forget {objectId : ObjectId}
    (h : (s.forget objectId).1.last key = some p) :
    s.last key = some p := by
  have hkept := h
  unfold forget last at hkept
  rw [get?_filterKeys] at hkept
  split at hkept
  · exact hkept
  · cases hkept

theorem size_forget_le (s : CameraSuppressionState) (objectId : ObjectId) :
    (s.forget objectId).1.published.size ≤ s.published.size :=
  List.length_filter_le _ _

end CameraSuppressionState

end VisionOs.Synthesis
