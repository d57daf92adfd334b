/-
  Configuration documents, and the typed configuration made of one.  A dictionary is its entries
  in their order, and a value is a tree: none is held in two places.  The tables of the schema,
  with what checks and builds a declaration, `repr`, `json.dumps` and the digest are parameters.
-/
import VisionOs.Synthesis.Codec
import VisionOs.Lib.OrderedDict
import Mathlib.Data.List.Sort

namespace VisionOs.Kernel

open Core Lib OrderedDict

/-! ## Documents -/

abbrev Document := List (String × PyValue)

def below (key : String) (document : Document) : Document :=
  match lookupIn key document with
  | some (.dict entries) => entries
  | _ => []

inductive ConfigLayer where
  | defaults
  | deployment
  | tenant
  | site
  | camera
  | override
  deriving DecidableEq, Repr

def ConfigLayer.all : List ConfigLayer :=
  [.defaults, .deployment, .tenant, .site, .camera, .override]

structure LayerDocument where
  layer : ConfigLayer
  sourceId : String
  document : PyValue

structure ValueOrigin where
  path : String
  layer : ConfigLayer
  sourceId : String
  value : PyValue

/-- A merged document, with the origin of each of its values. -/
structure Merged where
  document : Document := []
  origins : OrderedDict String ValueOrigin := ∅

mutual

def mergeEntry (layer : ConfigLayer) (sourceId path key : String) : PyValue → Merged → Merged
  | .dict entries, m =>
    -- a dictionary that is not there yet is put there empty
    let inner := mergeEntries layer sourceId s!"{path}{key}." entries
      { m with document := below key m.document }
    { inner with document := setIn key (.dict inner.document) m.document }
  | value, m =>
    { document := setIn key value m.document
      origins := m.origins.set s!"{path}{key}" ⟨s!"{path}{key}", layer, sourceId, value⟩ }

def mergeEntries (layer : ConfigLayer) (sourceId path : String) : Document → Merged → Merged
  | [], m => m
  | (key, value) :: rest, m =>
    mergeEntries layer sourceId path rest (mergeEntry layer sourceId path key value m)

end

def typeName : PyValue → String
  | .none => "NoneType"
  | .bool _ => "bool"
  | .int _ => "int"
  | .float _ => "float"
  | .str _ => "str"
  | .list _ => "list"
  | .tuple _ => "tuple"
  | .dict _ => "dict"

def mergeLayer (m : Merged) (layer : LayerDocument) : Raises Merged :=
  match layer.document with
  | .dict entries => .ok (mergeEntries layer.layer layer.sourceId "" entries m)
  | value => .error (.attributeError s!"'{typeName value}' object has no attribute 'items'")

def sortedLayers (layers : List LayerDocument) : List LayerDocument :=
  ConfigLayer.all.flatMap fun layer => layers.filter fun d => d.layer = layer

def mergeLayers (layers : List LayerDocument) : Raises Merged :=
  (sortedLayers layers).foldlM mergeLayer {}

def setParts (value : PyValue) : List String → Document → Document
  | [], document => document
  | [last], document => setIn last value document
  | part :: rest, document =>
    setIn part (.dict (setParts value rest (below part document))) document

def setPath (document : Document) (path : String) (value : PyValue) : Document :=
  setParts value (pySplit path '.') document

mutual

def flattenValue (dumps : PyValue → String) (path : String) :
    PyValue → OrderedDict String PyValue → OrderedDict String PyValue
  | .dict entries, flat => flatten dumps s!"{path}." entries flat
  | .list items, flat => flat.set path (.str (dumps (.list items)))
  | value, flat => flat.set path value

def flatten (dumps : PyValue → String) (path : String) :
    Document → OrderedDict String PyValue → OrderedDict String PyValue
  | [], flat => flat
  | (key, value) :: rest, flat =>
    flatten dumps path rest (flattenValue dumps s!"{path}{key}" value flat)

end

def isConfigurationError : PyException → Bool
  | .configurationError _ | .validationError _ => true
  | _ => false

/-! ## Sections -/

inductive ConfigEnum where
  | deploymentProfile
  | clockMode
  deriving DecidableEq, Repr

def ConfigEnum.members : ConfigEnum → List String
  | .deploymentProfile => ["embedded", "edge", "node", "cluster"]
  | .clockMode => ["system", "virtual", "scaled"]

def ConfigEnum.name : ConfigEnum → String
  | .deploymentProfile => "DeploymentProfile"
  | .clockMode => "ClockMode"

def ConfigEnum.valid (kind : ConfigEnum) : PyValue → Bool
  | .str s => s ∈ kind.members
  | _ => false

inductive FieldValue where
  | plain (value : PyValue)
  | member (kind : ConfigEnum) (value : String)

structure FieldInfo where
  name : String
  kind : Option ConfigEnum := none
  default : FieldValue

abbrev Section := List (String × FieldValue)

structure SectionType where
  fields : List FieldInfo
  postInit : Section → Raises Unit := fun _ => .ok ()

def enumFields : List ((String × String) × ConfigEnum) :=
  [(("platform", "deployment_profile"), .deploymentProfile),
    (("platform", "clock_mode"), .clockMode)]

structure EffectiveConfig (D : Type) where
  sections : List (String × Section)
  declared : List (String × List D)

structure ConfigSchema (D : Type) where
  /-- `SECTION_TYPES`. -/
  sections : List (String × SectionType)
  /-- `LIST_SECTIONS`, each with what builds one of its declarations. -/
  declared : List (String × (PyValue → Raises D)) := []
  /-- `_validate_cameras`, `_validate_taxonomy` and `_validate_detectors`. -/
  checkDeclared : Document → Raises (List String) := fun _ => .ok []
  /-- `repr`, which raises for an integer of more than 4300 digits. -/
  repr : PyValue → Raises String := fun _ => .ok ""
  /-- `json.dumps(value, default=str)` of a value that lies in a document with a digest. -/
  dumps : PyValue → String := fun _ => ""
  /-- The digest of `json.dumps(document, sort_keys=True, default=str)`, which raises for such
      an integer and for a dictionary whose keys cannot be compared. -/
  digest : Document → Raises String := fun _ => .ok ""

def listOf (names : List String) : String :=
  "[" ++ ", ".intercalate (names.map fun name => s!"'{name}'") ++ "]"

def sortedNames (names : List String) : List String := names.insertionSort (· ≤ ·)

namespace ConfigSchema

variable {D : Type} (schema : ConfigSchema D)

def allowedTopLevel : List String :=
  schema.sections.map Prod.fst ++ schema.declared.map Prod.fst

/-- A value of an enumeration, in a section. -/
def checkEntry (name : String) (entry : String × PyValue) : Raises (List String) :=
  match enumFields.lookup (name, entry.1) with
  | some kind =>
    if kind.valid entry.2 then .ok []
    else do
      let got ← schema.repr entry.2
      return [s!"'{name}.{entry.1}' must be one of {listOf (sortedNames kind.members)}, " ++
        s!"got {got}"]
  | none => .ok []

/-- One section of `validate`. -/
def checkSection (document : Document) : String × SectionType → Raises (List String)
  | (name, sectionType) =>
    match lookupIn name document with
    | none | some .none => .ok []
    | some (.dict entries) => do
      let permitted := sectionType.fields.map FieldInfo.name
      let checked ← entries.mapM (schema.checkEntry name)
      return (entries.filter fun entry => entry.1 ∉ permitted).map (fun entry =>
        s!"unknown key '{name}.{entry.1}'. The schema is closed (V2); " ++
          s!"allowed keys: {listOf (sortedNames permitted)}") ++ checked.flatten
    | some value => .ok [s!"section '{name}' must be a mapping, got {typeName value}"]

def checkList (document : Document) (name : String) : List String :=
  match lookupIn name document with
  | none | some .none | some (.list _) => []
  | some value => [s!"section '{name}' must be a list, got {typeName value}"]

/-- `validate`: what is wrong with a merged document. -/
def validate (document : Document) : Raises (List String) := do
  let unknown := (document.filter fun entry => entry.1 ∉ schema.allowedTopLevel).map fun entry =>
    s!"unknown configuration section '{entry.1}'. The schema is closed (V2); " ++
      s!"allowed sections: {listOf (sortedNames schema.allowedTopLevel)}"
  let sections ← schema.sections.mapM (schema.checkSection document)
  let declared ← schema.checkDeclared document
  pure (unknown ++ sections.flatten ++
    (schema.declared.map Prod.fst).flatMap (checkList document) ++ declared)

/-- One field of `_build_section`; an enumeration refuses what it does not have. -/
def readField (raw : Document) (field : FieldInfo) : Raises (String × FieldValue) :=
  let refused (value : PyValue) (kind : ConfigEnum) : Raises (String × FieldValue) := do
    let got ← schema.repr value
    .error (.valueError s!"{got} is not a valid {kind.name}")
  match lookupIn field.name raw, field.kind with
  | none, _ => .ok (field.name, field.default)
  | some value, none => .ok (field.name, .plain value)
  | some (.str s), some kind =>
    if s ∈ kind.members then .ok (field.name, .member kind s) else refused (.str s) kind
  | some value, some kind => refused value kind

def buildSection (sectionType : SectionType) (raw : Document) : Raises Section := do
  let fields ← sectionType.fields.mapM (schema.readField raw)
  sectionType.postInit fields
  pure fields

def items (name : String) (document : Document) : List PyValue :=
  match lookupIn name document with
  | some (.list items) => items
  | _ => []

def buildEffective (document : Document) : Raises (EffectiveConfig D) := do
  let sections ← schema.sections.mapM fun (name, sectionType) => do
    pure (name, ← schema.buildSection sectionType (below name document))
  let declared ← schema.declared.mapM fun (name, build) => do
    pure (name, ← (items name document).mapM build)
  pure { sections, declared }

/-- `_compute_revision`. -/
def computeRevision (document : Document) : Raises String := do
  let digest ← schema.digest document
  return s!"cfg-{digest}"

/-- What `_resolve_locked` makes of a merged document: the typed configuration and its
    revision. -/
def settled (document : Document) : Raises (EffectiveConfig D × String) := do
  let violations ← schema.validate document
  if violations ≠ [] then
    .error (.validationError s!"configuration invalid: {violations.length} violation(s)")
  let effective ← schema.buildEffective document
  let revision ← schema.computeRevision document
  return (effective, revision)

/-- The document passes the check, its typed construction and the writing of its revision. -/
def Accepts (document : Document) : Prop := (schema.settled document).isOk = true

instance (document : Document) : Decidable (schema.Accepts document) :=
  inferInstanceAs (Decidable (_ = _))

/-- The document is refused with a `ConfigurationError`, a `ValidationError` included. -/
def Refuses (document : Document) : Prop :=
  match schema.settled document with
  | .error exc => isConfigurationError exc = true
  | .ok _ => False

instance (document : Document) : Decidable (schema.Refuses document) := by
  unfold Refuses
  split <;> infer_instance

end ConfigSchema

/-- The value of a field that is not of an enumeration. -/
def held (name : String) (fields : Section) : PyValue :=
  match fields.lookup name with
  | some (.plain value) => value
  | _ => .none

def lessThan (x y : PyValue) : Raises Bool :=
  match x.asNumber, y.asNumber with
  | some p, some q => .ok (p.lt q)
  | _, _ =>
    .error (.typeError
      s!"'<' not supported between instances of '{typeName x}' and '{typeName y}'")

def platformSection : SectionType where
  fields :=
    [{ name := "deployment_profile"
       kind := some .deploymentProfile
       default := .member .deploymentProfile "embedded" },
      { name := "clock_mode", kind := some .clockMode, default := .member .clockMode "system" },
      { name := "clock_scale_factor", default := .plain (.float (.finite 60)) },
      { name := "deterministic", default := .plain (.bool false) }]

def sourceSection : SectionType where
  fields :=
    [{ name := "reconnect_backoff_initial_ms", default := .plain (.int 500) },
      { name := "reconnect_backoff_max_ms", default := .plain (.int 30000) },
      { name := "reconnect_backoff_jitter", default := .plain (.float (.round (1 / 5))) },
      { name := "stall_watchdog_ms", default := .plain (.int 10000) },
      { name := "max_consecutive_decode_errors", default := .plain (.int 30) },
      { name := "max_connect_attempts", default := .plain (.int 0) }]
  postInit fields := do
    let initial := held "reconnect_backoff_initial_ms" fields
    require ((← lessThan initial (.int 1)) = false)
      (.validationError "source.reconnect_backoff_initial_ms must be >= 1")
    require ((← lessThan (held "reconnect_backoff_max_ms" fields) initial) = false)
      (.validationError "source.reconnect_backoff_max_ms must be >= initial")
    require ((← lessThan (held "stall_watchdog_ms" fields) (.int 1)) = false)
      (.validationError "source.stall_watchdog_ms must be >= 1")

def ConfigSchema.platformAndSource : ConfigSchema Unit where
  sections := [("platform", platformSection), ("source", sourceSection)]

/-- A document without entries is accepted: the defaults pass their own checks. -/
example : ConfigSchema.platformAndSource.Accepts [] := by decide +kernel

end VisionOs.Kernel
