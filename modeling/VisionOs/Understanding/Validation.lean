/-
  The schema gate: every field a model produced is accepted as a registered attribute or refused
  with a reason, in the order of the field names.
-/
import VisionOs.Registry.Attributes
import VisionOs.Understanding.Model
import Mathlib.Data.List.Sort

namespace VisionOs.Understanding

open Core Lib Registry List AttributeSchema PyFloat OrderedDict Except

/-- What the gate takes from the interpreter besides a schema's own checks; `room` is how
    many containers deep `str` goes before it raises. -/
structure GateTools extends TextTools where
  str : PyValue → String
  lower : String → String
  room : Nat

def maxRejectedValueChars : Nat := 256

def defaultSelfReportedConfidence : PyFloat := .finite (1 / 2)

structure OutputSchemaFields where
  fields : List AttributeKey
  strict : Bool := true
  deriving DecidableEq

def OutputSchemaFields.postInit (s : OutputSchemaFields) : Raises Unit := do
  require (s.fields ≠ []) (.valueError ("an output schema with no fields would accept nothing " ++
    "and cost a model call to discover it"))
  require s.fields.Nodup (.valueError "an output schema must not declare a field twice")

structure OutputSchema extends OutputSchemaFields where
  accepted : toOutputSchemaFields.postInit = .ok ()
  deriving DecidableEq

def OutputSchema.declares (s : OutputSchema) (key : AttributeKey) : Bool := key ∈ s.fields

def clampUnit (value : PyFloat) : PyFloat :=
  let capped := if value.lt (.finite 1) then value else .finite 1
  if (finite 0).lt capped then capped else .finite 0

theorem inUnit_clampUnit (value : PyFloat) : (clampUnit value).inUnit = true := by
  have hle : ∀ x : PyFloat, (finite 0).lt x = true → x.le (.finite 1) = true →
      x.inUnit = true := by
    intro x hpos hone
    simp only [inUnit, le, hpos, Bool.true_or, Bool.true_and]
    exact hone
  unfold clampUnit
  by_cases hlt : value.lt (.finite 1) = true
  · simp only [hlt, if_true]
    split
    · rename_i hpos
      exact hle value hpos (by rw [le, hlt, Bool.true_or])
    · decide +kernel
  · simp only [hlt, if_false, Bool.false_eq_true]
    decide +kernel

def selfReported (value : PyFloat) : Confidence where
  value := clampUnit value
  semantics := .selfReported
  rawScore := if value.inUnit then some value else none
  accepted := by
    unfold ConfidenceFields.postInit
    have hunit := inUnit_clampUnit value
    by_cases hraw : value.inUnit = true <;>
      simp [hunit, hraw, check_bind_eq_ok, require_eq_ok]

/-! ## The gate, one field at a time -/

def GateTools.textOf (tools : GateTools) (problem : Message) : String :=
  String.join (problem.map fun
    | .text s => s
    | .float x => tools.str (.float x))

def occursIn (needle text : String) : Bool := decide (needle.toList <:+: text.toList)

def valueReason (tools : GateTools) (problem : Message) : RejectionReason :=
  let lowered := tools.lower (tools.textOf problem)
  if occursIn "outside the declared domain" lowered ||
      occursIn "outside the declared range" lowered then .outOfDomain
  else if occursIn "sequence" lowered then .cardinalityViolation
  else if "expected".toList.isPrefixOf lowered.toList then .wrongType
  else .unparseableValue

def bounded (tools : GateTools) (value : PyValue) : Raises String := do
  value.written tools.room
  let text := tools.str value
  return if text.length ≤ maxRejectedValueChars then text
    else String.ofList (text.toList.take (maxRejectedValueChars - 1)) ++ "…"

def validUntil (observedAt : Instant) : Option Duration → Option Instant
  | none => none
  | some validity => some ⟨observedAt.ns + validity.ns⟩

structure AttributeValidator where
  registry : AttributeRegistry
  tools : GateTools

structure GateContext where
  schema : OutputSchema
  classId : ClassId
  observedAt : Instant
  producer : Provenance
  evidenceRef : Option String := none
  fieldConfidence : Option (OrderedDict String PyFloat) := none

/-- The result of putting one model response through the gate. -/
structure ValidationOutcome where
  accepted : List Attribute := []
  rejected : List RejectedField := []

namespace AttributeValidator

def rejectReason (v : AttributeValidator) (schema : OutputSchema) (classId : ClassId)
    (fieldName : String) (value : PyValue) : Raises (Option (RejectionReason × Message)) :=
  match v.registry.get fieldName with
  | none => .ok (some (.unregisteredKey,
      ↑("not in the Attribute Schema Registry; a key the registry does " ++
      "not hold has not passed the neutrality gate")))
  | some registered =>
    if registered.status ≠ .active then
      .ok (some (.deprecatedKey,
        s!"attribute '{fieldName}' is deprecated and no longer accepted"))
    else if schema.strict && !schema.declares fieldName then
      .ok (some (.notInOutputSchema,
        s!"the prompt did not declare '{fieldName}'; the model volunteered it"))
    else if !v.registry.applies fieldName classId then
      .ok (some (.classNotApplicable,
        s!"'{fieldName}' does not apply to class '{classId}'"))
    else do
      match ← registered.accepts v.tools.toTextTools value with
      | some problem => return some (valueReason v.tools problem, problem)
      | none => return none

def confidenceFor (fieldName : String) (confidences : Option (OrderedDict String PyFloat)) :
    Confidence :=
  match confidences.bind (·.get? fieldName) with
  | none => selfReported defaultSelfReportedConfidence
  | some raw => selfReported raw

def attributeOf (c : GateContext) (schema : AttributeSchema) (fieldName : String)
    (value : PyValue) : Attribute where
  key := fieldName
  schemaVersion := schema.version
  value
  confidence := confidenceFor fieldName c.fieldConfidence
  observedAt := c.observedAt
  producer := c.producer
  validUntil := validUntil c.observedAt schema.validity
  evidenceRef := c.evidenceRef
  accepted := by
    refine require_eq_ok.mpr ?_
    unfold confidenceFor
    split <;> rfl

def gate (v : AttributeValidator) (c : GateContext) :
    List (String × PyValue) → Raises ValidationOutcome
  | [] => .ok {}
  | (fieldName, value) :: rest => do
    match ← v.rejectReason c.schema c.classId fieldName value with
    | some (reason, detail) =>
      let rawValue ← bounded v.tools value
      let refused ← RejectedField.construct { fieldName, reason, rawValue, detail }
      let others ← v.gate c rest
      return { others with rejected := refused :: others.rejected }
    | none =>
      let schema ← v.registry.require fieldName
      let others ← v.gate c rest
      return { others with accepted := attributeOf c schema fieldName value :: others.accepted }

/-- `validate`: the fields in the order of their names. -/
def validate (v : AttributeValidator) (structured : OrderedDict String PyValue)
    (c : GateContext) : Raises ValidationOutcome :=
  v.gate c (structured.entries.insertionSort fun a b => a.1 ≤ b.1)

/-! ## What passes -/

structure Passed (v : AttributeValidator) (c : GateContext) (a : Attribute) : Prop where
  registered : ∃ schema, v.registry.require a.key = .ok schema
  applies : v.registry.applies a.key c.classId = true
  observedAt : a.observedAt = c.observedAt

variable {v : AttributeValidator}

variable {fieldName : String}

/-- The gate comes to judge a field's value, by this schema. -/
structure Judged (v : AttributeValidator) (output : OutputSchema) (classId : ClassId)
    (fieldName : String) (registered : AttributeSchema) : Prop where
  held : v.registry.get fieldName = some registered
  active : registered.status = .active
  declared : output.strict = true → output.declares fieldName = true
  applies : v.registry.applies fieldName classId = true

variable {schema : OutputSchema} {classId : ClassId} {value : PyValue}
  {registered : AttributeSchema}

theorem Judged.require (h : v.Judged schema classId fieldName registered) :
    v.registry.require fieldName = .ok registered := by
  unfold AttributeRegistry.require
  rw [h.held]
  exact if_pos h.active

theorem Judged.rejectReason (h : v.Judged schema classId fieldName registered) :
    v.rejectReason schema classId fieldName value =
      (registered.accepts v.tools.toTextTools value >>= fun problem =>
        pure (problem.map fun text => (valueReason v.tools text, text))) := by
  have hdeclared : ¬ (schema.strict && !schema.declares fieldName) = true := by
    cases hstrict : schema.strict <;> simp [h.declared, hstrict]
  unfold AttributeValidator.rejectReason
  simp only [h.held, h.active, ne_eq, not_true_eq_false, if_false, hdeclared, h.applies,
    Bool.not_true, Bool.false_eq_true]
  exact bind_congr fun problem => by cases problem <;> rfl

theorem rejectReason_of_not_judged
    (h : ¬ ∃ registered, v.Judged schema classId fieldName registered) :
    ∃ refusal, v.rejectReason schema classId fieldName value = .ok (some refusal) := by
  unfold AttributeValidator.rejectReason
  cases hget : v.registry.get fieldName with
  | none => exact ⟨_, rfl⟩
  | some registered =>
    dsimp only
    split_ifs with hactive hdeclared happlies
    · exact ⟨_, rfl⟩
    · exact ⟨_, rfl⟩
    · exact ⟨_, rfl⟩
    · refine absurd ⟨registered, hget, not_not.mp hactive, fun hstrict => ?_,
        by simpa using happlies⟩ h
      simpa [hstrict] using hdeclared

theorem judged_of_rejectReason_none (h : v.rejectReason schema classId fieldName value = .ok none) :
    ∃ registered, v.Judged schema classId fieldName registered ∧
      registered.accepts v.tools.toTextTools value = .ok none := by
  by_cases hjudged : ∃ registered, v.Judged schema classId fieldName registered
  · obtain ⟨registered, hjudged⟩ := hjudged
    rw [hjudged.rejectReason] at h
    obtain ⟨problem, haccepts, h⟩ := bind_eq_ok.mp h
    cases problem with
    | none => exact ⟨registered, hjudged, haccepts⟩
    | some text => cases h
  · obtain ⟨refusal, hrefused⟩ := @rejectReason_of_not_judged v _ _ _ value hjudged
    rw [hrefused] at h
    cases h

theorem of_rejectReason_none (h : v.rejectReason schema classId fieldName value = .ok none) :
    (∃ registered, v.registry.require fieldName = .ok registered) ∧
      v.registry.applies fieldName classId = true := by
  obtain ⟨registered, hjudged, -⟩ := judged_of_rejectReason_none h
  exact ⟨⟨registered, hjudged.require⟩, hjudged.applies⟩

variable {c : GateContext} {o : ValidationOutcome} {rest : List (String × PyValue)}

theorem gate_cons
    (h : v.gate c ((fieldName, value) :: rest) = .ok o) :
    ∃ others, v.gate c rest = .ok others ∧
      ((∃ refused : RejectedField, refused.fieldName = fieldName ∧
          o = { others with rejected := refused :: others.rejected }) ∨
        ∃ schema, v.rejectReason c.schema c.classId fieldName value = .ok none ∧
          v.registry.require fieldName = .ok schema ∧
          o = { others with
            accepted := attributeOf c schema fieldName value :: others.accepted }) := by
  rw [gate, bind_eq_ok] at h
  obtain ⟨verdict, hverdict, h⟩ := h
  cases verdict with
  | some refusal =>
    obtain ⟨reason, detail⟩ := refusal
    obtain ⟨rawValue, -, h⟩ := bind_eq_ok.mp h
    obtain ⟨refused, hrefused, h⟩ := bind_eq_ok.mp h
    obtain ⟨others, hothers, h⟩ := bind_eq_ok.mp h
    obtain ⟨_, hfields⟩ := constructWith_eq_ok_iff.mp hrefused
    refine ⟨others, hothers, .inl ⟨refused, ?_, (ok.inj h).symm⟩⟩
    rw [← hfields]
  | none =>
    obtain ⟨schema, hschema, h⟩ := bind_eq_ok.mp h
    obtain ⟨others, hothers, h⟩ := bind_eq_ok.mp h
    exact ⟨others, hothers, .inr ⟨schema, hverdict, hschema, (ok.inj h).symm⟩⟩

variable {fields : List (String × PyValue)}

theorem gate_accepted (h : v.gate c fields = .ok o) : ∀ a ∈ o.accepted,
    (a.key, a.value) ∈ fields ∧ v.rejectReason c.schema c.classId a.key a.value = .ok none ∧
      a.observedAt = c.observedAt := by
  induction fields generalizing o with
  | nil =>
    rw [← ok.inj h]
    intro a ha
    cases ha
  | cons field rest ih =>
    obtain ⟨others, hothers, ⟨refused, -, rfl⟩ | ⟨schema, hnone, -, rfl⟩⟩ := gate_cons h
    · intro a ha
      exact (ih hothers a ha).imp_left (mem_cons_of_mem _)
    · intro a ha
      rcases mem_cons.mp ha with rfl | ha
      · exact ⟨mem_cons_self, hnone, rfl⟩
      · exact (ih hothers a ha).imp_left (mem_cons_of_mem _)

theorem gate_passed (h : v.gate c fields = .ok o) : ∀ a ∈ o.accepted, v.Passed c a := by
  intro a ha
  obtain ⟨-, hnone, hinstant⟩ := gate_accepted h a ha
  obtain ⟨hregistered, happlies⟩ := of_rejectReason_none hnone
  exact ⟨hregistered, happlies, hinstant⟩

theorem gate_accounts (h : v.gate c fields = .ok o) :
    (o.accepted.map (·.key) ++ o.rejected.map (·.fieldName)).Perm (fields.map Prod.fst) := by
  induction fields generalizing o with
  | nil =>
    rw [← ok.inj h]
    exact List.Perm.nil
  | cons field rest ih =>
    obtain ⟨others, hothers, ⟨refused, hname, rfl⟩ | ⟨schema, -, -, rfl⟩⟩ := gate_cons h
    · rw [map_cons, map_cons, hname]
      exact perm_middle.trans ((ih hothers).cons _)
    · exact (ih hothers).cons _

variable {structured : OrderedDict String PyValue}

theorem validate_passed (h : v.validate structured c = .ok o) :
    ∀ a ∈ o.accepted, v.Passed c a := gate_passed h

theorem validate_accounts (h : v.validate structured c = .ok o) :
    (o.accepted.map (·.key) ++ o.rejected.map (·.fieldName)).Perm structured.keys :=
  (gate_accounts h).trans ((perm_insertionSort _ structured.entries).map Prod.fst)

/-! ## Everything is accounted for -/

/-- Every field once: accepted with all that this takes, or rejected with a reason. -/
structure Accounted (v : AttributeValidator) (c : GateContext)
    (structured : OrderedDict String PyValue) (o : ValidationOutcome) : Prop where
  once : (o.accepted.map (·.key) ++ o.rejected.map (·.fieldName)).Perm structured.keys
  sound : ∀ a ∈ o.accepted, structured.get? a.key = some a.value ∧
    ∃ registered, v.Judged c.schema c.classId a.key registered ∧
      registered.Conforms v.tools.toTextTools a.value

/-- Nothing raises over a field: no check of its value does, and where it is refused, it has a
    name and its value can be written. -/
def Checkable (v : AttributeValidator) (c : GateContext) (fieldName : String) (value : PyValue) :
    Prop :=
  (∀ registered, v.Judged c.schema c.classId fieldName registered →
    ¬ registered.RaisesOn v.tools.toTextTools value) ∧
  ((∀ registered, v.Judged c.schema c.classId fieldName registered →
      registered.accepts v.tools.toTextTools value ≠ .ok none) →
    (value.depth ≤ v.tools.room ∧ value.printable = true) ∧ fieldName ≠ "")

theorem bounded_returns {tools : GateTools} :
    (∃ text, bounded tools value = .ok text) ↔
      value.depth ≤ tools.room ∧ value.printable = true := by
  unfold bounded
  simp only [check_bind_eq_ok, PyValue.written_eq_ok]
  exact ⟨fun ⟨_, h, _⟩ => h, fun h => ⟨_, h, rfl⟩⟩

theorem bind_returns {α β : Type} {x : Raises α} {f : α → Raises β} :
    (∃ b, (x >>= f) = .ok b) ↔ ∃ a, x = .ok a ∧ ∃ b, f a = .ok b := by
  simp only [bind_eq_ok]
  exact ⟨fun ⟨b, a, h, hb⟩ => ⟨a, h, b, hb⟩, fun ⟨a, h, b, hb⟩ => ⟨b, a, h, hb⟩⟩

theorem checkable_iff : v.Checkable c fieldName value ↔
    ∃ verdict, v.rejectReason c.schema c.classId fieldName value = .ok verdict ∧
      (verdict ≠ none →
        (value.depth ≤ v.tools.room ∧ value.printable = true) ∧ fieldName ≠ "") := by
  constructor
  · rintro ⟨hraises, hrefused⟩
    by_cases hjudged : ∃ registered, v.Judged c.schema c.classId fieldName registered
    · obtain ⟨registered, hjudged⟩ := hjudged
      obtain ⟨problem, haccepts⟩ := accepts_returns.mpr (hraises _ hjudged)
      refine ⟨_, by rw [hjudged.rejectReason, haccepts]; rfl, fun hsome => hrefused ?_⟩
      intro other hother hnone
      cases Option.some.inj (hjudged.held.symm.trans hother.held)
      rw [haccepts] at hnone
      cases hnone
      exact hsome rfl
    · obtain ⟨refusal, hrefusal⟩ := @rejectReason_of_not_judged v _ _ _ value hjudged
      exact ⟨_, hrefusal, fun _ => hrefused fun _ h => absurd ⟨_, h⟩ hjudged⟩
  · rintro ⟨verdict, hverdict, hwritten⟩
    refine ⟨fun registered hjudged => ?_, fun hrefused => hwritten ?_⟩
    · rw [hjudged.rejectReason] at hverdict
      obtain ⟨problem, haccepts, -⟩ := bind_eq_ok.mp hverdict
      exact accepts_returns.mp ⟨problem, haccepts⟩
    · rintro rfl
      obtain ⟨registered, hjudged, haccepts⟩ := judged_of_rejectReason_none hverdict
      exact hrefused registered hjudged haccepts

theorem gate_cons_returns :
    (∃ o, v.gate c ((fieldName, value) :: rest) = .ok o) ↔
      v.Checkable c fieldName value ∧ ∃ o, v.gate c rest = .ok o := by
  rw [gate, bind_returns, checkable_iff, exists_and_right.symm]
  refine exists_congr fun verdict => ?_
  rw [and_assoc]
  refine and_congr_right fun hverdict => ?_
  cases verdict with
  | none =>
    obtain ⟨registered, hjudged, -⟩ := judged_of_rejectReason_none hverdict
    simp only [hjudged.require, ok_bind, bind_returns]
    exact ⟨fun ⟨o, ho, _⟩ => ⟨nofun, o, ho⟩, fun ⟨_, o, ho⟩ => ⟨o, ho, _, rfl⟩⟩
  | some refusal =>
    simp only [bind_returns]
    constructor
    · rintro ⟨text, htext, refused, hrefused, o, ho, -⟩
      obtain ⟨hname, -⟩ := constructWith_eq_ok_iff.mp hrefused
      exact ⟨fun _ => ⟨bounded_returns.mp ⟨text, htext⟩, require_eq_ok.mp hname⟩, o, ho⟩
    · rintro ⟨hwritten, o, ho⟩
      obtain ⟨hprintable, hname⟩ := hwritten (Option.some_ne_none _)
      obtain ⟨text, htext⟩ := bounded_returns.mpr hprintable
      have hrefused : RejectedFieldFields.postInit ⟨fieldName, refusal.1, text, refusal.2⟩ = .ok () :=
        require_eq_ok.mpr hname
      exact ⟨text, htext, _, constructWith_eq_ok hrefused, o, ho, _, rfl⟩

theorem gate_returns :
    (∃ o, v.gate c fields = .ok o) ↔ ∀ field ∈ fields, v.Checkable c field.1 field.2 := by
  induction fields with
  | nil => exact ⟨nofun, fun _ => ⟨_, rfl⟩⟩
  | cons field rest ih => rw [gate_cons_returns, ih, forall_mem_cons]

/-- A response is accounted for exactly when nothing raises over a field of it. -/
theorem validate_accounts_iff :
    (∃ o, v.validate structured c = .ok o ∧ v.Accounted c structured o) ↔
    ∀ fieldName value, structured.get? fieldName = some value → v.Checkable c fieldName value := by
  have hfields : ∀ field, field ∈ structured.entries.insertionSort (fun a b => a.1 ≤ b.1) ↔
      structured.get? field.1 = some field.2 := fun field =>
    (mem_insertionSort _).trans get?_eq_some_iff.symm
  have hreturns : (∃ o, v.validate structured c = .ok o) ↔ _ := gate_returns
  constructor
  · rintro ⟨o, ho, -⟩ fieldName value hvalue
    exact hreturns.mp ⟨o, ho⟩ (fieldName, value) ((hfields _).mpr hvalue)
  · intro h
    obtain ⟨o, ho⟩ := hreturns.mpr fun field hfield => h _ _ ((hfields field).mp hfield)
    refine ⟨o, ho, validate_accounts ho, fun a ha => ?_⟩
    obtain ⟨hmem, hnone, -⟩ := gate_accepted ho a ha
    obtain ⟨registered, hjudged, haccepts⟩ := judged_of_rejectReason_none hnone
    exact ⟨(hfields _).mp hmem, registered, hjudged, conforms_of_accepts haccepts⟩

def nothingRegistered : AttributeValidator where
  registry := {}
  tools := ⟨⟨fun _ => none, fun _ => "[]"⟩, fun _ => "standing", id, 900⟩

def postureAsked : GateContext where
  schema := { fields := ["posture"], accepted := rfl }
  classId := "person"
  observedAt := ⟨0⟩
  producer := { producerModule := "M9", producerVersion := "1", configRevision := "r1", accepted := rfl }

theorem empty_key_loses_response : ¬ ∀ v structured c,
    ∃ o, validate v structured c = .ok o ∧ Accounted v c structured o := by
  intro h
  obtain ⟨o, ho, -⟩ := h nothingRegistered (ofPairs [("", .str "standing")]) postureAsked
  have hraised : nothingRegistered.validate (ofPairs [("", .str "standing")])
      postureAsked = .error (.valueError "a rejection must name the field it refused") := rfl
  rw [hraised] at ho
  cases ho

end AttributeValidator

end VisionOs.Understanding
