/-
  The heartbeat under suppression.  Whatever the bounded memory lost, what it still holds of a
  subject is what was published of it last, less than a heartbeat ago.  A candidate with a value
  that has no `repr` raises, and is lost.
-/
import VisionOs.Synthesis.Enrichment

namespace VisionOs.Synthesis

open Core Lib Registry List Option CameraSuppressionState CeilingGate

inductive BuilderCall where
  /-- A candidate is offered. -/
  | finish (c : Candidate)
  /-- `forget_camera`. -/
  | forgetCamera (cameraId : CameraId)
  /-- `forget_object`. -/
  | forgetObject (cameraId : CameraId) (objectId : ObjectId)

def BuilderCall.candidate : BuilderCall → Option Candidate
  | finish c => some c
  | _ => none

structure BuilderState where
  suppression : CameraId → CameraSuppressionState := fun _ => {}
  published : List Observation := []

/-- Nothing was captured before what the same camera was offered earlier. -/
def InCaptureOrder (calls : List BuilderCall) : Prop :=
  (calls.filterMap (·.candidate)).Pairwise fun c c' =>
    c.cameraId = c'.cameraId → c.tCapture.ns ≤ c'.tCapture.ns

def subjectOf (o : Observation) : CameraId × SubjectKey := (o.cameraId, subjectKey o)

namespace BuilderState

def setCamera (st : BuilderState) (cameraId : CameraId) (s : CameraSuppressionState) :
    BuilderState :=
  { st with suppression := fun other => if other = cameraId then s else st.suppression other }

/-- What is remembered of a subject: a signature that was made, and when. -/
def memory (st : BuilderState) (subject : CameraId × SubjectKey) :
    Option (Raises String × Int) :=
  ((st.suppression subject.1).last subject.2).map fun p => (.ok p.signature, p.publishedAt.ns)

end BuilderState

namespace ObservationBuilder

def step (b : ObservationBuilder) (st : BuilderState) : BuilderCall → BuilderState
  | .finish c =>
    let (answer, s) := b.finish (st.suppression c.cameraId) c
    let st := st.setCamera c.cameraId s
    match answer with
    | .ok (some o) => { st with published := st.published ++ [o] }
    | _ => st
  | .forgetCamera cameraId => st.setCamera cameraId {}
  | .forgetObject cameraId objectId =>
    st.setCamera cameraId ((st.suppression cameraId).forget objectId).1

def run (b : ObservationBuilder) (calls : List BuilderCall) : BuilderState :=
  Runs.run b.step {} calls

/-- The last publication of the subject said the same, less than a heartbeat before. -/
def SaidBefore (b : ObservationBuilder) (published : List Observation) (o : Observation) : Prop :=
  Silence.Covered subjectOf (b.policy.signature b.tools) (fun o => o.tCapture.ns)
    (b.heartbeatMs * 1000000) published o

/-- What a builder's memory is at any time: of what was published last, and within bounds. -/
structure Truthful (b : ObservationBuilder) (st : BuilderState) : Prop where
  remembers : Silence.Remembers subjectOf (b.policy.signature b.tools) (fun o => o.tCapture.ns)
    st.published st.memory
  bounded : ∀ cameraId, (st.suppression cameraId).published.size ≤ b.suppressionCapacity

/-! ## One call -/

/-- A step forgets at most, or publishes what the gate let through. -/
theorem step_cases (b : ObservationBuilder) (st : BuilderState) (call : BuilderCall) :
    (∃ cameraId s, b.step st call = st.setCamera cameraId s ∧
      (∀ key p, s.last key = some p → (st.suppression cameraId).last key = some p) ∧
      s.published.size ≤ (st.suppression cameraId).published.size) ∨
    ∃ c o signature, call = .finish c ∧ CeilingGate.Narrowed c.toObservation o ∧
      b.policy.signature b.tools o = .ok signature ∧
      b.step st call = { st.setCamera c.cameraId
        ((st.suppression c.cameraId).record b.suppressionCapacity (subjectKey o) signature o)
        with published := st.published ++ [o] } := by
  cases call with
  | forgetCamera cameraId =>
    exact .inl ⟨cameraId, {}, rfl, (fun _ _ h => by cases h), Nat.zero_le _⟩
  | forgetObject cameraId objectId =>
    exact .inl ⟨cameraId, _, rfl, fun _ _ h => last_of_forget h,
      size_forget_le _ _⟩
  | finish c =>
    unfold step
    rcases b.finish_cases (st.suppression c.cameraId) c with
      ⟨answer, hanswer, hnone⟩ |
      ⟨o, signature, hnarrowed, hsignature, publish, s', hadmission, hfinish⟩
    · -- turned down: the memory is as it was
      left
      refine ⟨c.cameraId, st.suppression c.cameraId, ?_, fun _ _ h => h, le_refl _⟩
      dsimp only
      rw [hanswer]
      split
      · exact absurd ‹_› (hnone _)
      · rfl
    · cases hadmission with
      | held last htype hlast hsame hearly =>
        -- held back: only the count of what was suppressed grows
        left
        refine ⟨c.cameraId, { st.suppression c.cameraId with
          suppressed := (st.suppression c.cameraId).suppressed ++ [o] }, ?_, fun _ _ h => h,
          le_refl _⟩
        dsimp only
        rw [hfinish]
        rfl
      | noted =>
        right
        refine ⟨c, o, signature, rfl, hnarrowed, hsignature, ?_⟩
        dsimp only
        rw [hfinish]
        rfl

theorem truthful_new (b : ObservationBuilder) : b.Truthful {} where
  remembers := Silence.remembers_nothing _
  bounded := fun _ => Nat.zero_le _

variable {b : ObservationBuilder} {st : BuilderState}

/-- Whatever a call forgets or notes, the memory stays one of last publications. -/
theorem Truthful.step (h : b.Truthful st) (call : BuilderCall) : b.Truthful (b.step st call) := by
  rcases b.step_cases st call with ⟨cameraId, s, hstep, hless, hsize⟩ |
    ⟨c, o, signature, -, ⟨kept, hfields⟩, hsigned, hstep⟩
  · rw [hstep]
    constructor
    · refine h.remembers.mono fun subject kept hkept => ?_
      obtain ⟨p, hlast, hp⟩ := map_eq_some_iff.mp hkept
      refine map_eq_some_iff.mpr ⟨p, ?_, hp⟩
      unfold BuilderState.setCamera at hlast
      dsimp only at hlast
      split at hlast
      · rename_i hcamera
        rw [hcamera]
        exact hless _ _ hlast
      · exact hlast
    · intro other
      unfold BuilderState.setCamera
      dsimp only
      split
      · exact hsize.trans (h.bounded cameraId)
      · exact h.bounded other
  · have hcamera : o.cameraId = c.cameraId := by rw [hfields]
    rw [hstep]
    constructor
    · refine h.remembers.publish fun subject kept' hkept => ?_
      obtain ⟨p, hlast, hp⟩ := map_eq_some_iff.mp hkept
      unfold BuilderState.setCamera at hlast
      dsimp only at hlast
      split at hlast
      · rename_i hsame
        rcases last_of_record_cases hlast with
          ⟨hkey, hsignature, htime⟩ | ⟨hkey, hold⟩
        · left
          refine ⟨Prod.ext (hsame.trans hcamera.symm) hkey, ?_⟩
          rw [← hp, hsignature, htime, hsigned]
        · right
          refine ⟨fun heq => hkey (congrArg Prod.snd heq), ?_⟩
          exact map_eq_some_iff.mpr ⟨p, hsame ▸ hold, hp⟩
      · rename_i hother
        right
        refine ⟨fun heq => hother ((congrArg Prod.fst heq).trans hcamera), ?_⟩
        exact map_eq_some_iff.mpr ⟨p, hlast, hp⟩
    · intro other
      unfold BuilderState.setCamera
      dsimp only
      split
      · exact size_record_le _ _ _ _ _
      · exact h.bounded other

variable {o : Observation}

/-- What a candidate that passed the gate is: published, or covered by its subject's last
    publication; where one of its values has no `repr` it is neither. -/
theorem Truthful.kept_iff (h : b.Truthful st)
    {c : Candidate} {r : ValidationResult} (hgate : b.gate.validate c = .ok r)
    (henvelope : r.envelopeViolations = []) (ho : r.observation = some o)
    (hlater : ∀ o' ∈ st.published, o'.cameraId = o.cameraId → o'.tCapture.ns ≤ o.tCapture.ns)
    (hsigned : ∀ o' ∈ st.published, Printable b.tools o') :
    (b.finish (st.suppression c.cameraId) c).1 = .ok (some o) ∨ b.SaidBefore st.published o ↔
      Printable b.tools o := by
  rw [← @SuppressionPolicy.signature_returns_iff b.tools b.policy o]
  constructor
  · rintro (hpublished | ⟨before, y, after, hlog, -, hsame, -⟩)
    · by_contra hnone
      rcases hsignature : b.policy.signature b.tools o with exc | signature
      · obtain ⟨exc', hlost⟩ := finish_unsigned (st.suppression c.cameraId) hgate henvelope ho
          hsignature
        rw [hlost] at hpublished
        cases hpublished
      · exact hnone ⟨signature, hsignature⟩
    · -- Its signature is one that was published.
      rw [← hsame, SuppressionPolicy.signature_returns_iff]
      exact hsigned y (hlog ▸ mem_append_right before mem_cons_self)
  · rintro ⟨signature, hsignature⟩
    obtain ⟨kept, hfields⟩ := narrowed_of_validate hgate ho
    have hcamera : o.cameraId = c.cameraId := by rw [hfields]
    obtain ⟨publish, s', hadmission, hfinish⟩ :=
      finish_signed (st.suppression c.cameraId) hgate henvelope ho hsignature
    rw [hfinish]
    cases hadmission with
    | noted => exact .inl rfl
    | held last htype hlast hsame hearly =>
      right
      have hkept : st.memory (subjectOf o) = some (.ok last.signature, last.publishedAt.ns) := by
        refine map_eq_some_iff.mpr ⟨last, ?_, rfl⟩
        show (st.suppression o.cameraId).last (subjectKey o) = some last
        rw [hcamera]
        exact hlast
      refine h.remembers.covered hkept ?_ hearly fun o' ho' hsubject =>
        hlater o' ho' (congrArg Prod.fst hsubject)
      rw [hsame, hsignature]

/-! ## Whole runs -/

theorem truthful_run (b : ObservationBuilder) (calls : List BuilderCall) :
    b.Truthful (b.run calls) :=
  @Runs.run_invariant _ _ b.step b.Truthful (fun _ call h => h.step call) _ b.truthful_new calls

/-- What was published was offered, and could be signed. -/
theorem exists_offered {calls : List BuilderCall} (h : o ∈ (b.run calls).published) :
    Printable b.tools o ∧
    ∃ c ∈ calls.filterMap (·.candidate), c.cameraId = o.cameraId ∧ c.tCapture = o.tCapture := by
  induction calls using List.reverseRecOn with
  | nil => cases h
  | append_singleton calls call ih =>
    have hearlier : o ∈ (b.run calls).published → Printable b.tools o ∧
        ∃ c ∈ (calls ++ [call]).filterMap (·.candidate),
          c.cameraId = o.cameraId ∧ c.tCapture = o.tCapture := by
      intro hold
      obtain ⟨hprintable, c, hc, hfields⟩ := ih hold
      refine ⟨hprintable, c, ?_, hfields⟩
      rw [filterMap_append]
      exact mem_append_left _ hc
    have hrun : b.run (calls ++ [call]) = b.step (b.run calls) call := Runs.run_append _ _ _ _
    rw [hrun] at h
    rcases b.step_cases (b.run calls) call with ⟨cameraId, s, hstep, -⟩ |
      ⟨c, o', signature, rfl, ⟨kept, hfields⟩, hsigned, hstep⟩
    · rw [hstep] at h
      exact hearlier h
    rw [hstep] at h
    rcases mem_append.mp h with hold | hnew
    · exact hearlier hold
    · rw [mem_singleton.mp hnew]
      refine ⟨SuppressionPolicy.signature_returns_iff.mp ⟨signature, hsigned⟩, c, ?_,
        by rw [hfields], by rw [hfields]⟩
      rw [filterMap_append]
      exact mem_append_right _ (mem_singleton.mpr rfl)

/-- Whatever a camera is offered in the order of capture is published, or its subject's last
    publication said the same less than a heartbeat before, if and only if each of its
    attribute values has a `repr`; and the capacity bounds every camera's memory. -/
theorem heartbeat_is_kept (b : ObservationBuilder) (calls : List BuilderCall)
    (hordered : InCaptureOrder calls) :
    (∀ past c later r o, calls = past ++ .finish c :: later → b.gate.validate c = .ok r →
      r.envelopeViolations = [] → r.observation = some o →
      ((b.finish ((b.run past).suppression c.cameraId) c).1 = .ok (some o) ∨
        b.SaidBefore (b.run past).published o ↔ Printable b.tools o)) ∧
    ∀ cameraId, ((b.run calls).suppression cameraId).published.size ≤ b.suppressionCapacity := by
  refine ⟨?_, (b.truthful_run calls).bounded⟩
  rintro past c later r o rfl hgate henvelope ho
  obtain ⟨kept, hfields⟩ := narrowed_of_validate hgate ho
  refine (b.truthful_run past).kept_iff hgate henvelope ho ?_ fun o' ho' => (exists_offered ho').1
  intro o' ho' hcamera
  obtain ⟨-, c', hc', hcamera', htime⟩ := exists_offered ho'
  unfold InCaptureOrder at hordered
  rw [filterMap_append, filterMap_cons] at hordered
  have hle := (pairwise_append.mp hordered).2.2 c' hc' c mem_cons_self
  rw [← htime, hfields]
  apply hle
  rw [hcamera', hcamera, hfields]

/-- A quality observation of the person, captured at this moment. -/
def gradedAt (t : Instant) : Candidate where
  toObservationFields := { personFields .quality [] (some {}) with tCapture := t }
  accepted := rfl
  totalMs := .round (1 / 100)

/-- A builder that hashes what that observation says. -/
def gradingBuilder : ObservationBuilder :=
  { postureRuntime.builder with
    tools := { postureRuntime.builder.tools with
      sha256 := fun _ => "593cff2c14c0f958c20a789dc143fca28e956e03e415313f920f7bc56f8a8329" } }

/-- The second observation is held back behind the first. -/
theorem stays_was_said_before :
    gradingBuilder.SaidBefore (gradingBuilder.run [.finish (gradedAt ⟨7⟩)]).published
      (gradedAt ⟨8⟩).toObservation := by
  have hordered : InCaptureOrder [.finish (gradedAt ⟨7⟩), .finish (gradedAt ⟨8⟩)] := by
    simp [InCaptureOrder, BuilderCall.candidate, gradedAt]
  have hgate : gradingBuilder.gate.validate (gradedAt ⟨8⟩) =
      .ok { observation := some (gradedAt ⟨8⟩).toObservation } :=
    validate_plain rfl (by decide)
  have hheld : (gradingBuilder.finish
      ((gradingBuilder.run [.finish (gradedAt ⟨7⟩)]).suppression "north")
      (gradedAt ⟨8⟩)).1.toOption.any Option.isNone = true := by
    decide +kernel
  obtain ⟨hkept, -⟩ := heartbeat_is_kept gradingBuilder _ hordered
  rcases (hkept [.finish (gradedAt ⟨7⟩)] _ [] _ _ rfl hgate rfl rfl).mpr
    (fun a ha => by cases ha) with hpublished | hsaid
  · have hcamera : (gradedAt ⟨8⟩).cameraId = "north" := rfl
    rw [hcamera] at hpublished
    rw [hpublished] at hheld
    cases hheld
  · exact hsaid

/-! ### A vector too long to print -/

/-- An attribute whose values are vectors. -/
def embeddingSchema : AttributeSchema where
  key := "embedding"
  valueType := .vector
  accepted := rfl

def embeddingBuilder : ObservationBuilder :=
  { gradingBuilder with
    gate := { gradingBuilder.gate with
      registry := { schemas := .ofPairs [("embedding", embeddingSchema)] } } }

/-- The vector `[10 ** 4300]`, which the schema accepts. -/
def longVector : Attribute :=
  { postureAttribute with
    key := "embedding", value := .list [.int (10 ^ PyValue.maxStrDigits)], accepted := rfl }

/-- What an answer with that vector is built into. -/
def longCandidate : Candidate where
  toObservationFields :=
    { personFields .attributes [longVector] none with
      evidenceRef := some { evidenceId := "evidence", status := "stored", accepted := rfl } }
  accepted := rfl
  totalMs := .finite 40

/-- The first observation of a subject is neither published nor said before. -/
theorem long_vector_is_lost :
    ¬ ∀ (b : ObservationBuilder) calls, InCaptureOrder calls →
      ∀ past c later r o, calls = past ++ .finish c :: later → b.gate.validate c = .ok r →
        r.envelopeViolations = [] → r.observation = some o →
        (b.finish ((b.run past).suppression c.cameraId) c).1 = .ok (some o) ∨
          b.SaidBefore (b.run past).published o := by
  intro h
  have hgate : embeddingBuilder.gate.validate longCandidate =
      .ok { observation := some longCandidate.toObservation } := rfl
  have hordered : InCaptureOrder [.finish longCandidate] := by
    simp [InCaptureOrder, BuilderCall.candidate]
  have hsaid := h embeddingBuilder _ hordered [] longCandidate [] _ _ rfl hgate rfl rfl
  rw [(embeddingBuilder.truthful_run []).kept_iff hgate rfl rfl (fun _ h => by cases h)
    (fun _ h => by cases h)] at hsaid
  obtain ⟨-, hprintable⟩ := hsaid longVector mem_cons_self
  simp [longVector, PyValue.printable, PyValue.arePrintable] at hprintable

end ObservationBuilder

end VisionOs.Synthesis
