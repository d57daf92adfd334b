/-
  The attribute vocabulary of a deployment, and which values a registered attribute accepts.
  Reading a float and printing a list of strings are parameters; the neutrality gate, which only
  registration consults, is left out.
-/
import VisionOs.Core.Values
import VisionOs.Core.Ids
import VisionOs.Lib.OrderedDict

namespace VisionOs.Registry

open Core Lib

structure TextTools where
  readFloat : String → Option PyFloat
  showList : List String → String

inductive AttributeValueType where
  | enum | bool | scalar | vector | text | relation | count
  deriving DecidableEq, Repr

inductive Cardinality where
  | single | multi
  deriving DecidableEq, Repr

inductive SchemaStatus where
  | active | deprecated
  deriving DecidableEq, Repr

structure AttributeSchemaFields where
  key : AttributeKey
  valueType : AttributeValueType
  appliesTo : List ClassId := []
  domain : List String := []
  cardinality : Cardinality := .single
  validity : Option Duration := none
  version : String := "1.0.0"
  status : SchemaStatus := .active

def AttributeSchemaFields.postInit (s : AttributeSchemaFields) : Raises Unit := do
  require (s.key ≠ "") (.valueError "an attribute schema requires a key")
  require (¬ (s.valueType = .enum ∧ s.domain.isEmpty)) (.valueError
    s!"attribute '{s.key}' is an enum but declares no domain; an unconstrained enum is a text field wearing a type")

structure AttributeSchema extends AttributeSchemaFields where
  accepted : toAttributeSchemaFields.postInit = .ok ()

def floatOfInt (i : Int) : Raises PyFloat :=
  match PyFloat.round i with
  | .finite q => .ok (.finite q)
  | _ => .error (.overflowError "int too large to convert to float")

namespace AttributeSchema

def withinRange (tools : TextTools) (s : AttributeSchema) (value : PyFloat) : Option Message :=
  match s.domain with
  | [entry] =>
    let (lowText, rest) := entry.toList.span (· ≠ ':')
    match rest with
    | [] => none
    | _ :: highText =>
      match tools.readFloat (String.ofList lowText), tools.readFloat (String.ofList highText) with
      | some low, some high =>
        if low.le value ∧ value.le high then none
        else some [.float value, .text " is outside the declared range [", .float low,
          .text ", ", .float high, .text "]"]
      | _, _ => none
  | _ => none

def acceptsOne (tools : TextTools) (s : AttributeSchema) (value : PyValue) :
    Raises (Option Message) :=
  match s.valueType with
  | .bool => .ok (if value.isBool then none else some "expected a boolean")
  | .enum =>
    match value with
    | .str text =>
      if text ∈ s.domain then .ok none
      else
        let domain := tools.showList s.domain
        .ok (some s!"'{text}' is outside the declared domain {domain}")
    | _ => .ok (some "expected a string for an enum attribute")
  | .scalar =>
    match value with
    | .int i => do
      let x ← floatOfInt i
      return s.withinRange tools x
    | .float x => .ok (s.withinRange tools x)
    | _ => .ok (some "expected a number")
  | .count =>
    match value with
    | .int i =>
      if i < 0 then do
        require ((PyValue.int i).printable = true) tooManyDigits
        return some s!"count must be non-negative, got {i}"
      else do
        let x ← floatOfInt i
        return s.withinRange tools x
    | _ => .ok (some "expected an integer count")
  | .text =>
    match value with
    | .str _ => .ok none
    | _ => .ok (some "expected text")
  | .relation =>
    match value with
    | .str text =>
      if text = "" then .ok (some "expected a referent identifier")
      else if s.domain ≠ [] ∧ text ∉ s.domain then
        let domain := tools.showList s.domain
        .ok (some s!"'{text}' is outside the declared domain {domain} of referent classes")
      else .ok none
    | _ => .ok (some "expected a referent identifier")
  | .vector =>
    match value with
    | .list items | .tuple items =>
      if items = [] then .ok (some "expected a non-empty numeric vector")
      else if items.all isNumber then .ok none
      else .ok (some "vector components must be numbers")
    | _ => .ok (some "expected a non-empty numeric vector")
where
  /-- An int or a float, and no bool. -/
  isNumber : PyValue → Bool
    | .int _ | .float _ => true
    | _ => false

def firstReason (tools : TextTools) (s : AttributeSchema) : List PyValue → Raises (Option Message)
  | [] => .ok none
  | item :: rest => do
    match ← s.acceptsOne tools item with
    | some reason => return some reason
    | none => s.firstReason tools rest

def accepts (tools : TextTools) (s : AttributeSchema) (value : PyValue) : Raises (Option Message) :=
  if s.valueType = .vector then
    -- A single vector is itself a sequence, so its cardinality cannot be read off it.
    match s.cardinality, value with
    | .multi, .list items | .multi, .tuple items =>
      if items.all PyValue.isSequence then s.firstReason tools items
      else .ok (some "expected a sequence of vectors")
    | .multi, _ => .ok (some "expected a sequence of vectors")
    | .single, _ => s.acceptsOne tools value
  else
    match s.cardinality, value with
    | .multi, .list items | .multi, .tuple items => s.firstReason tools items
    | .multi, _ => .ok (some "expected a sequence for a multi-valued attribute")
    | .single, .list _ | .single, .tuple _ =>
      .ok (some "expected a single value, got a sequence")
    | .single, _ => s.acceptsOne tools value

/-! ## What is accepted, and what cannot be checked -/

/-- One value has the type of the attribute and lies in its domain. -/
def ConformsOne (tools : TextTools) (s : AttributeSchema) (value : PyValue) : Prop :=
  match s.valueType, value with
  | .bool, .bool _ => True
  | .enum, .str text => text ∈ s.domain
  | .scalar, .int i => ∃ x, floatOfInt i = .ok x ∧ s.withinRange tools x = none
  | .scalar, .float x => s.withinRange tools x = none
  | .count, .int i => 0 ≤ i ∧ ∃ x, floatOfInt i = .ok x ∧ s.withinRange tools x = none
  | .text, .str _ => True
  | .relation, .str text => text ≠ "" ∧ (s.domain = [] ∨ text ∈ s.domain)
  | .vector, .list items | .vector, .tuple items =>
    items ≠ [] ∧ items.all acceptsOne.isNumber = true
  | _, _ => False

/-- What the schema accepts. -/
def Conforms (tools : TextTools) (s : AttributeSchema) (value : PyValue) : Prop :=
  match s.cardinality, value with
  | .multi, .list items | .multi, .tuple items => ∀ item ∈ items, s.ConformsOne tools item
  | .multi, _ => False
  | .single, _ => (s.valueType = .vector ∨ value.isSequence = false) ∧ s.ConformsOne tools value

/-- Checking one value raises: an integer is too large for a float, or a negative count too
    long to be written. -/
def raisesOne (s : AttributeSchema) (value : PyValue) : Bool :=
  match s.valueType, value with
  | .scalar, .int i => !(floatOfInt i).toBool
  | .count, .int i => if i < 0 then !(PyValue.int i).printable else !(floatOfInt i).toBool
  | _, _ => false

/-- Of several values, the first that is not accepted decides. -/
def RaisesAny (tools : TextTools) (s : AttributeSchema) : List PyValue → Prop
  | [] => False
  | item :: rest => s.raisesOne item = true ∨ (s.ConformsOne tools item ∧ RaisesAny tools s rest)

/-- Where checking a value raises. -/
def RaisesOn (tools : TextTools) (s : AttributeSchema) (value : PyValue) : Prop :=
  match s.cardinality, value with
  | .multi, .list items | .multi, .tuple items => s.RaisesAny tools items
  | .multi, _ => False
  | .single, _ => s.raisesOne value = true

variable {tools : TextTools} {s : AttributeSchema} {value : PyValue}

theorem acceptsOne_eq_none : s.acceptsOne tools value = .ok none ↔ s.ConformsOne tools value := by
  cases hkind : s.valueType <;> cases value <;>
    simp [acceptsOne, ConformsOne, hkind, PyValue.isBool]
  case scalar.int i => cases floatOfInt i <;> simp
  case count.int i =>
    by_cases hneg : i < 0
    · by_cases hshort : (PyValue.int i).printable = true <;> simp [hneg, hshort, require]
    · cases floatOfInt i <;> simp [hneg, not_lt.mp hneg]
  case relation.str text =>
    split_ifs with hempty hout
    · simp [hempty]
    · simp [hout]
    · simpa [hempty, or_iff_not_imp_left] using hout
  all_goals split_ifs <;> simp_all

theorem acceptsOne_returns :
    (∃ reason, s.acceptsOne tools value = .ok reason) ↔ s.raisesOne value = false := by
  cases hkind : s.valueType <;> cases value <;>
    simp [acceptsOne, raisesOne, hkind, PyValue.isBool]
  case scalar.int i => cases floatOfInt i <;> simp [Except.toBool]
  case count.int i =>
    by_cases hneg : i < 0
    · by_cases hshort : (PyValue.int i).printable = true <;> simp [hneg, hshort, require]
    · cases floatOfInt i <;> simp [hneg, Except.toBool]
  all_goals split_ifs <;> exact ⟨_, rfl⟩

variable {items : List PyValue}

theorem firstReason_returns :
    (∃ reason, s.firstReason tools items = .ok reason) ↔ ¬ s.RaisesAny tools items := by
  induction items with
  | nil => exact ⟨fun _ h => h, fun _ => ⟨_, rfl⟩⟩
  | cons item rest ih =>
    have hone := @acceptsOne_returns tools s item
    rw [RaisesAny, ← acceptsOne_eq_none, firstReason]
    cases hfirst : s.acceptsOne tools item with
    | error e => simp_all [Bind.bind, Except.bind]
    | ok reason =>
      rw [hfirst] at hone
      rw [hone.mp ⟨_, rfl⟩, ok_bind]
      cases reason with
      | none => simpa using ih
      | some text => simpa using ⟨some text, rfl⟩

theorem firstReason_eq_none (h : s.firstReason tools items = .ok none) :
    ∀ item ∈ items, s.ConformsOne tools item := by
  induction items with
  | nil => simp
  | cons item rest ih =>
    rw [firstReason] at h
    obtain ⟨reason, hfirst, h⟩ := bind_eq_ok.mp h
    cases reason with
    | some text => cases h
    | none => exact List.forall_mem_cons.mpr ⟨acceptsOne_eq_none.mp hfirst, ih h⟩

theorem raisesOne_of_vector (h : s.valueType = .vector) : s.raisesOne value = false := by
  cases value <;> simp [raisesOne, h]

theorem not_raisesAny_of_vector (h : s.valueType = .vector) : ¬ s.RaisesAny tools items := by
  induction items with
  | nil => exact id
  | cons item rest ih => simp [RaisesAny, raisesOne_of_vector h, ih]

theorem accepts_returns :
    (∃ reason, s.accepts tools value = .ok reason) ↔ ¬ s.RaisesOn tools value := by
  unfold accepts RaisesOn
  by_cases hvector : s.valueType = .vector
  · cases s.cardinality <;> cases value <;>
      simp [hvector, acceptsOne_returns, raisesOne_of_vector, not_raisesAny_of_vector]
    all_goals split_ifs <;> simp [firstReason_returns, not_raisesAny_of_vector, hvector]
  · cases s.cardinality <;> cases value <;>
      simp [hvector, acceptsOne_returns, firstReason_returns, raisesOne]

theorem conforms_of_accepts : s.accepts tools value = .ok none → s.Conforms tools value := by
  unfold accepts Conforms
  by_cases hvector : s.valueType = .vector
  · cases s.cardinality <;> cases value <;> simp [hvector, acceptsOne_eq_none]
    all_goals
      split_ifs
      · exact firstReason_eq_none
      · simp
  · cases s.cardinality <;> cases value <;>
      simp [hvector, acceptsOne_eq_none, PyValue.isSequence]
    all_goals exact firstReason_eq_none

end AttributeSchema

structure AttributeRegistry where
  schemas : OrderedDict AttributeKey AttributeSchema := ∅

def classMatches (classId allowed : ClassId) : Bool :=
  classId = allowed || (allowed ++ ".").toList.isPrefixOf classId.toList

namespace AttributeRegistry

def get (r : AttributeRegistry) (key : AttributeKey) : Option AttributeSchema :=
  r.schemas.get? key

/-- `require`: the schema of an attribute that is registered and active. -/
def require (r : AttributeRegistry) (key : AttributeKey) : Raises AttributeSchema :=
  match r.get key with
  | none => .error (.attributeRejectedError
      s!"attribute '{key}' is not registered; the registry holds only attributes that have passed the neutrality gate")
  | some schema =>
    if schema.status = .active then .ok schema
    else .error (.attributeRejectedError
      s!"attribute '{key}' is deprecated and no longer accepted")

def applies (r : AttributeRegistry) (key : AttributeKey) (classId : ClassId) : Bool :=
  match r.get key with
  | none => false
  | some schema => schema.appliesTo.isEmpty || schema.appliesTo.any (classMatches classId)

end AttributeRegistry

end VisionOs.Registry
