/-
  The finding that an incident is opened with, frozen as JSON text in a column and read back for
  the API.  The text is cut at 8000 characters, and a longer one is read as an empty record.
-/
import VisionOs.App.Incidents
import VisionOs.Compliance.Document
import VisionOs.Synthesis.Codec

namespace VisionOs.App

open Core Compliance Synthesis List

/-- The characters that `json.dumps` writes for one, with `ensure_ascii`. -/
def escapedLength (c : Char) : Nat :=
  -- The quotation mark, the backslash and the controls with an escape of their own.
  if c.toNat ∈ [0x22, 0x5c, 0x0a, 0x0d, 0x09, 0x08, 0x0c] then 2
  else if 0x20 ≤ c.toNat ∧ c.toNat ≤ 0x7e then 1
  else if c.toNat < 0x10000 then 6
  else 12

def stringLength (s : String) : Nat := 2 + (s.toList.map escapedLength).sum

def digitsLength (n : Nat) : Raises Nat :=
  if (Nat.toDigits 10 n).length ≤ 4300 then .ok (Nat.toDigits 10 n).length
  else .error tooManyDigits

def floatLength (py : Interpreter) : PyFloat → Nat
  | .nan => "NaN".length
  | .posInf => "Infinity".length
  | .negInf => "-Infinity".length
  | x => (py.str (.float x)).length

def separatorLength {α : Type} (rest : List α) : Nat := if rest.isEmpty then 0 else ", ".length

mutual

def textLength (py : Interpreter) : Json → Raises Nat
  | .null => .ok "null".length
  | .bool b => .ok (if b then "true" else "false").length
  | .int i => return (if i < 0 then 1 else 0) + (← digitsLength i.natAbs)
  | .float x => .ok (floatLength py x)
  | .string s => .ok (stringLength s)
  | .array items => return 2 + (← itemsLength py items)
  | .object members => return 2 + (← membersLength py members)

def itemsLength (py : Interpreter) : List Json → Raises Nat
  | [] => .ok 0
  | j :: rest => return (← textLength py j) + (separatorLength rest + (← itemsLength py rest))

def membersLength (py : Interpreter) : List (String × Json) → Raises Nat
  | [] => .ok 0
  | (k, j) :: rest =>
    return stringLength k + (": ".length + (← textLength py j)) +
      (separatorLength rest + (← membersLength py rest))

end

def stateValue : ComplianceState → String
  | .compliant => "compliant"
  | .violation => "violation"
  | .unknown => "unknown"
  | .notApplicable => "not_applicable"

def reasonValue : UnknownReason → String
  | .attributeAbsent => "attribute_absent"
  | .attributeStale => "attribute_stale"
  | .evidenceUnverified => "evidence_unverified"
  | .notObservable => "not_observable"
  | .coverageGap => "coverage_gap"
  | .capabilityGap => "capability_gap"
  | .subjectNotObserved => "subject_not_observed"
  | .valueUnparseable => "value_unparseable"

/-- `_plain`: a container is written as its `str()`, which may raise. -/
def plain (py : Interpreter) : PyValue → Raises PyValue
  | .list items => return .str (← (PyValue.list items).text py)
  | .tuple items => return .str (← (PyValue.tuple items).text py)
  | .dict entries => return .str (← (PyValue.dict entries).text py)
  | scalar => .ok scalar

def outcomeWord : Option Bool → String
  | some true => "held"
  | some false => "failed"
  | none => "unresolved"

/-- One condition of `_finding_wire`. -/
def conditionWire (py : Interpreter) (c : ConditionOutcome) : Raises PyValue := do
  let expected ← plain py c.expected
  let observed ← plain py c.observed
  return .dict [
    ("attribute", .str c.attributeKey),
    ("operator", .str c.operator),
    ("expected", expected),
    ("observed", observed),
    ("outcome", .str (outcomeWord c.satisfied)),
    ("unknown_reason", orNone (fun reason => .str (reasonValue reason)) c.unknownReason),
    ("observed_at_ns", orNone (fun t => .int t.ns) c.observedAt),
    ("evidence_ref", orNone .str c.evidenceRef),
    ("message", .str c.message)]

/-- `_finding_wire`: the finding as the incident keeps it. -/
def findingWire (py : Interpreter) (f : Finding) : Raises (List (String × PyValue)) := do
  let conditions ← f.conditions.mapM (conditionWire py)
  return [
    ("finding_id", .str f.findingId),
    ("rule_id", .str f.ruleId),
    ("rule_version", .str f.ruleVersion),
    ("ruleset_version", .str f.rulesetVersion),
    ("schema_version", .str f.schemaVersion),
    ("state", .str (stateValue f.state)),
    ("severity", .str f.severity),
    ("object_id", .str f.subject.objectId),
    ("camera_id", .str f.subject.cameraId),
    ("class_id", .str f.subject.classId),
    ("evaluated_at_ns", .int f.evaluatedAt.ns),
    ("coverage_fraction", .float f.coverageFraction),
    ("conditions", .list conditions)]

/-! ## The frozen column -/

/-- The text of `finding_snapshot`: all of the document, or its first 8000 characters. -/
inductive SnapshotText where
  | whole (members : List (String × Json))
  | cut (members : List (String × Json))

/-- `json.dumps(finding or {}, default=str)[:8000]`. -/
def findingSnapshot (py : Interpreter) (finding : List (String × PyValue)) :
    Raises SnapshotText := do
  let members := spelledEntries finding
  let length ← textLength py (.object members)
  return if length ≤ 8000 then .whole members else .cut members

/-- `json.loads` of the column, and `{}` where that raises `JSONDecodeError`. -/
def SnapshotText.finding : SnapshotText → PyValue
  | .whole members => loads (.object members)
  | .cut _ => .dict []

/-- An incident with its frozen finding. -/
structure FrozenIncident where
  incident : Incident
  findingSnapshot : SnapshotText

/-- What `IncidentService.open` stores of a new incident. -/
def OpenRequest.frozen (py : Interpreter) (r : OpenRequest) (finding : List (String × PyValue)) :
    Raises FrozenIncident :=
  return { incident := r.incident, findingSnapshot := ← findingSnapshot py finding }

/-- The `finding` field of `to_wire(incident)`. -/
def FrozenIncident.toWire (i : FrozenIncident) : PyValue := i.findingSnapshot.finding

/-- The API answers with the finding that the incident was opened with. -/
def Survives (py : Interpreter) (r : OpenRequest) (f : Finding) : Prop :=
  ∃ wire, findingWire py f = .ok wire ∧
    ∃ i, r.frozen py wire = .ok i ∧ i.toWire = .dict wire

variable {py : Interpreter} {r : OpenRequest} {f : Finding}

theorem isJson_plain {v w : PyValue} (h : plain py v = .ok w) : isJson w = true := by
  cases v
  case list => obtain ⟨s, -, h⟩ := bind_eq_ok.mp h; cases h; simp [isJson]
  case tuple => obtain ⟨s, -, h⟩ := bind_eq_ok.mp h; cases h; simp [isJson]
  case dict => obtain ⟨s, -, h⟩ := bind_eq_ok.mp h; cases h; simp [isJson]
  all_goals
    cases h
    simp [isJson]

theorem isJson_orNone {α : Type} {g : α → PyValue} (h : ∀ a, isJson (g a) = true) (o : Option α) :
    isJson (orNone g o) = true := by
  cases o with
  | none => simp [orNone, isJson]
  | some a => exact h a

variable {c : ConditionOutcome}

/-- What one condition is written as: a document, with the message as the condition has it. -/
theorem conditionWire_spec {w : PyValue} (h : conditionWire py c = .ok w) :
    isJson w = true ∧ ∃ entries, w = .dict entries ∧ ("message", .str c.message) ∈ entries := by
  obtain ⟨expected, hexpected, h⟩ := bind_eq_ok.mp h
  obtain ⟨observed, hobserved, h⟩ := bind_eq_ok.mp h
  cases h
  have hreason := isJson_orNone (g := fun reason => .str (reasonValue reason))
    (fun _ => by simp [isJson]) c.unknownReason
  have hinstant := isJson_orNone (g := fun t : Instant => .int t.ns) (fun _ => by simp [isJson])
    c.observedAt
  have hevidence := isJson_orNone (g := PyValue.str) (fun _ => by simp [isJson]) c.evidenceRef
  refine ⟨?_, _, rfl, by simp⟩
  simp [isJson, entriesAreJson, isJson_plain hexpected, isJson_plain hobserved, hreason, hinstant,
    hevidence]

theorem areJson_of_forall {ws : List PyValue} (h : ∀ w ∈ ws, isJson w = true) :
    areJson ws = true := by
  induction ws with
  | nil => simp [areJson]
  | cons w rest ih =>
    simp [areJson, h w mem_cons_self, ih fun v hv => h v (mem_cons_of_mem w hv)]

theorem findingWire_spec {wire : List (String × PyValue)} (h : findingWire py f = .ok wire) :
    entriesAreJson wire = true ∧ ∃ ws, f.conditions.mapM (conditionWire py) = .ok ws ∧
      ("conditions", .list ws) ∈ wire := by
  obtain ⟨ws, hws, h⟩ := bind_eq_ok.mp h
  cases h
  refine ⟨?_, ws, hws, by simp⟩
  have hjson : areJson ws = true := areJson_of_forall fun w hw => by
    obtain ⟨c, -, hc⟩ := (mapM_ok hws).2 w hw
    exact (conditionWire_spec hc).1
  simp [entriesAreJson, isJson, hjson]

theorem mem_spelledEntries {k : String} {v : PyValue} {entries : List (String × PyValue)}
    (h : (k, v) ∈ entries) : (k, spelled v) ∈ spelledEntries entries := by
  induction entries with
  | nil => cases h
  | cons first rest ih =>
    rcases mem_cons.mp h with rfl | h
    · exact mem_cons_self
    · exact mem_cons_of_mem _ (ih h)

theorem length_le_stringLength (s : String) : s.length ≤ stringLength s := by
  have hone : ∀ n ∈ s.toList.map escapedLength, 1 ≤ n := by
    intro n hn
    obtain ⟨c, -, rfl⟩ := mem_map.mp hn
    unfold escapedLength
    repeat' split
    all_goals omega
  have hsum := length_le_sum_of_one_le _ hone
  rw [length_map, String.length_toList] at hsum
  unfold stringLength
  omega

theorem spelledItems_eq_map (items : List PyValue) : spelledItems items = items.map spelled := by
  induction items with
  | nil => simp [spelledItems]
  | cons v rest ih => simp [spelledItems, ih]

theorem le_itemsLength {j : Json} {items : List Json} (hj : j ∈ items) {n : Nat}
    (h : itemsLength py items = .ok n) : ∃ m ≤ n, textLength py j = .ok m := by
  induction items generalizing n with
  | nil => cases hj
  | cons first rest ih =>
    rw [itemsLength] at h
    obtain ⟨m, hm, h⟩ := bind_eq_ok.mp h
    obtain ⟨k, hk, h⟩ := bind_eq_ok.mp h
    cases h
    rcases mem_cons.mp hj with rfl | hrest
    · exact ⟨m, by omega, hm⟩
    · obtain ⟨m', hle, hm'⟩ := ih hrest hk
      exact ⟨m', by omega, hm'⟩

theorem le_membersLength {k : String} {j : Json} {members : List (String × Json)}
    (hj : (k, j) ∈ members) {n : Nat} (h : membersLength py members = .ok n) :
    ∃ m ≤ n, textLength py j = .ok m := by
  induction members generalizing n with
  | nil => cases hj
  | cons first rest ih =>
    rw [membersLength] at h
    obtain ⟨m, hm, h⟩ := bind_eq_ok.mp h
    obtain ⟨l, hl, h⟩ := bind_eq_ok.mp h
    cases h
    rcases mem_cons.mp hj with heq | hrest
    · cases heq
      exact ⟨m, by omega, hm⟩
    · obtain ⟨m', hle, hm'⟩ := ih hrest hl
      exact ⟨m', by omega, hm'⟩

theorem frozen_eq_ok {finding : List (String × PyValue)} {i : FrozenIncident} :
    r.frozen py finding = .ok i ↔ ∃ n, textLength py (.object (spelledEntries finding)) = .ok n ∧
      i = ⟨r.incident, if n ≤ 8000 then .whole (spelledEntries finding)
        else .cut (spelledEntries finding)⟩ := by
  unfold OpenRequest.frozen findingSnapshot
  simp only [bind_eq_ok, bind_assoc]
  exact exists_congr fun n => and_congr_right fun _ => by simp [pure, Except.pure, eq_comm]

/-- The finding can be written out, in at most as many characters as the column keeps. -/
def FitsColumn (py : Interpreter) (f : Finding) : Prop :=
  ∃ wire, findingWire py f = .ok wire ∧
    ∃ n ≤ 8000, textLength py (.object (spelledEntries wire)) = .ok n

theorem Survives.fits (h : Survives py r f) : FitsColumn py f := by
  obtain ⟨wire, hw, i, hi, hwire⟩ := h
  obtain ⟨n, hn, rfl⟩ := frozen_eq_ok.mp hi
  refine ⟨wire, hw, n, ?_, hn⟩
  by_contra hlong
  rw [if_neg hlong] at hwire
  -- A cut text is read as `{}`, which is no finding.
  obtain ⟨-, ws, -, hmem⟩ := findingWire_spec hw
  obtain rfl : [] = wire := PyValue.dict.inj hwire
  cases hmem

theorem FitsColumn.survives (h : FitsColumn py f) : Survives py r f := by
  obtain ⟨wire, hw, n, hshort, hn⟩ := h
  refine ⟨wire, hw, _, frozen_eq_ok.mpr ⟨n, hn, rfl⟩, ?_⟩
  rw [if_pos hshort]
  change loads (.object _) = _
  rw [loads, loadsMembers_spelledEntries (findingWire_spec hw).1]

/-- An incident's finding is read back as it was exactly when its text fits the column. -/
theorem survives_iff_fits : Survives py r f ↔ FitsColumn py f :=
  ⟨Survives.fits, FitsColumn.survives⟩

/-- One message as long as the column is enough to lose the record. -/
theorem not_survives_of_message (hc : c ∈ f.conditions)
    (hlong : 8000 ≤ c.message.length) : ¬ Survives py r f := by
  intro h
  obtain ⟨wire, hwire, n, hshort, hn⟩ := h.fits
  obtain ⟨-, ws, hws, hmem⟩ := findingWire_spec hwire
  obtain ⟨w, hw, hcw⟩ := (mapM_ok hws).1 c hc
  obtain ⟨-, entries, rfl, hmessage⟩ := conditionWire_spec hcw
  rw [textLength] at hn
  obtain ⟨m, hm, hn⟩ := bind_eq_ok.mp hn
  cases hn
  -- Down the document: the conditions, this condition, its message.
  obtain ⟨m₁, hle₁, hm₁⟩ := le_membersLength (mem_spelledEntries hmem) hm
  rw [spelled, textLength] at hm₁
  obtain ⟨m₂, hm₂, hm₁⟩ := bind_eq_ok.mp hm₁
  cases hm₁
  obtain ⟨m₃, hle₃, hm₃⟩ := le_itemsLength
    (by rw [spelledItems_eq_map]; exact mem_map_of_mem hw) hm₂
  rw [spelled, textLength] at hm₃
  obtain ⟨m₄, hm₄, hm₃⟩ := bind_eq_ok.mp hm₃
  cases hm₃
  obtain ⟨m₅, hle₅, hm₅⟩ := le_membersLength (mem_spelledEntries hmessage) hm₄
  rw [spelled, textLength] at hm₅
  cases hm₅
  have hlength := length_le_stringLength c.message
  omega

def quietPython : Interpreter := ⟨fun _ => "1.0", fun _ _ => false, 900⟩

def doorMessage : String := String.ofList (List.replicate 8000 'a')

def doorOpen : ConditionOutcome where
  attributeKey := "door"
  operator := "equals"
  expected := .str "closed"
  observed := .str "open"
  satisfied := some false
  message := doorMessage
  accepted := rfl

def doorFinding : Finding where
  findingId := "f-1"
  ruleId := "door"
  ruleVersion := "1"
  rulesetVersion := "1"
  state := .violation
  subject := { objectId := "A", classId := "door", cameraId := "dock" }
  evaluatedAt := ⟨0⟩
  conditions := [doorOpen]
  accepted := rfl

def doorIncident : OpenRequest where
  key := ⟨"acme", "dock", "A", "door"⟩
  observedAt := ⟨0⟩

theorem long_message_lost : ¬ ∀ py r f, Survives py r f := by
  intro h
  have hlength : doorMessage.length = 8000 :=
    String.length_ofList.trans length_replicate
  have hmem : doorOpen ∈ doorFinding.conditions := mem_cons_self
  exact not_survives_of_message hmem (le_of_eq hlength.symm) (h quietPython doorIncident doorFinding)

end VisionOs.App
