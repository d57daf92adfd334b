/-
  The exceptions the modelled code raises, and the text they carry.  A text is
  kept as the pieces of its f-string: a float in it stays a value, since how an
  interpreter prints a float plays no part in any result.
-/
import VisionOs.Core.PyFloat
import Mathlib.Data.List.Forall2

namespace VisionOs.Core

open List Except

inductive MessagePart where
  | text (s : String)
  | float (x : PyFloat)
  deriving DecidableEq, Repr

abbrev Message := List MessagePart

instance : Coe String Message := ⟨fun s => [.text s]⟩

/-- The exceptions raised by the modelled code, under their class names. -/
inductive PyException where
  | valueError (message : Message)
  | typeError (message : Message)
  | keyError (key : String)
  | attributeError (message : Message)
  | osError (message : Message)
  | ruleDocumentError (message : Message)
  | commitFailedError (message : Message)
  | logUnavailableError (message : Message)
  | projectionError (message : Message)
  | partitionDegradedError (message : Message)
  | validationFailedError (message : Message)
  | overflowError (message : Message)
  | recursionError (message : Message)
  | illegalTransitionError (message : Message)
  | identityConflictError (message : Message)
  | objectNotFoundError (message : Message)
  | registryCapacityError (message : Message)
  | attributeRejectedError (message : Message)
  | zeroDivisionError (message : Message)
  | objectStoreError (message : Message)
  | indexError (message : Message)
  | outOfOrderFrameError (message : Message)
  | trackerCapacityError (message : Message)
  | trackerContractError (message : Message)
  | demandRejectedError (message : Message)
  | demandNotFoundError (message : Message)
  | forbiddenError (message : Message)
  | invalidScopeError (message : Message)
  | windowTooLargeError (message : Message)
  | overloadedError (message : Message)
  | unsupportedVersionError (message : Message)
  | frameUnavailableError (message : Message)
  | poolExhaustedError (message : Message)
  | configurationError (message : Message)
  | integrityError (message : Message)
  | pendingRollbackError (message : Message)
  | notFoundError (message : Message)
  | evidenceForbiddenError (message : Message)
  | conflictError (message : Message)
  | validationError (message : Message)
  | connectFailedError (message : Message)
  | streamLostError (message : Message)
  | decodeError (message : Message)
  | unsupportedCodecError (message : Message)
  | privacyMaskError (message : Message)
  | licenceViolationError (message : Message)
  | modelUnavailableError (message : Message)
  | modelLoadError (message : Message)
  | artifactIntegrityError (message : Message)
  | artifactUnavailableError (message : Message)
  | deviceUnavailableError (message : Message)
  | deviceOutOfMemoryError (message : Message)
  | detectionFailedError (message : Message)
  | detectionTimeoutError (message : Message)
  | detectionQueueFullError (message : Message)
  | detectorContractError (message : Message)
  deriving DecidableEq, Repr

namespace PyException

def typeName : PyException → String
  | .valueError _ => "ValueError"
  | .typeError _ => "TypeError"
  | .keyError _ => "KeyError"
  | .attributeError _ => "AttributeError"
  | .osError _ => "OSError"
  | .ruleDocumentError _ => "RuleDocumentError"
  | .commitFailedError _ => "CommitFailedError"
  | .logUnavailableError _ => "LogUnavailableError"
  | .projectionError _ => "ProjectionError"
  | .partitionDegradedError _ => "PartitionDegradedError"
  | .validationFailedError _ => "ValidationFailedError"
  | .overflowError _ => "OverflowError"
  | .recursionError _ => "RecursionError"
  | .illegalTransitionError _ => "IllegalTransitionError"
  | .identityConflictError _ => "IdentityConflictError"
  | .objectNotFoundError _ => "ObjectNotFoundError"
  | .registryCapacityError _ => "RegistryCapacityError"
  | .attributeRejectedError _ => "AttributeRejectedError"
  | .zeroDivisionError _ => "ZeroDivisionError"
  | .objectStoreError _ => "ObjectStoreError"
  | .indexError _ => "IndexError"
  | .outOfOrderFrameError _ => "OutOfOrderFrameError"
  | .trackerCapacityError _ => "TrackerCapacityError"
  | .trackerContractError _ => "TrackerContractError"
  | .demandRejectedError _ => "DemandRejectedError"
  | .demandNotFoundError _ => "DemandNotFoundError"
  | .forbiddenError _ => "ForbiddenError"
  | .invalidScopeError _ => "InvalidScopeError"
  | .windowTooLargeError _ => "WindowTooLargeError"
  | .overloadedError _ => "OverloadedError"
  | .unsupportedVersionError _ => "UnsupportedVersionError"
  | .frameUnavailableError _ => "FrameUnavailableError"
  | .poolExhaustedError _ => "PoolExhaustedError"
  | .configurationError _ => "ConfigurationError"
  | .integrityError _ => "IntegrityError"
  | .pendingRollbackError _ => "PendingRollbackError"
  | .notFoundError _ => "NotFoundError"
  | .evidenceForbiddenError _ => "EvidenceForbiddenError"
  | .conflictError _ => "ConflictError"
  | .validationError _ => "ValidationError"
  | .connectFailedError _ => "ConnectFailedError"
  | .streamLostError _ => "StreamLostError"
  | .decodeError _ => "DecodeError"
  | .unsupportedCodecError _ => "UnsupportedCodecError"
  | .privacyMaskError _ => "PrivacyMaskError"
  | .licenceViolationError _ => "LicenceViolationError"
  | .modelUnavailableError _ => "ModelUnavailableError"
  | .modelLoadError _ => "ModelLoadError"
  | .artifactIntegrityError _ => "ArtifactIntegrityError"
  | .artifactUnavailableError _ => "ArtifactUnavailableError"
  | .deviceUnavailableError _ => "DeviceUnavailableError"
  | .deviceOutOfMemoryError _ => "DeviceOutOfMemoryError"
  | .detectionFailedError _ => "DetectionFailedError"
  | .detectionTimeoutError _ => "DetectionTimeoutError"
  | .detectionQueueFullError _ => "DetectionQueueFullError"
  | .detectorContractError _ => "DetectorContractError"

/-- `str(exc)`. -/
def text : PyException → Message
  | .keyError key => s!"'{key}'"
  | .valueError message | .typeError message | .attributeError message | .osError message
  | .ruleDocumentError message | .commitFailedError message | .logUnavailableError message
  | .projectionError message | .partitionDegradedError message | .validationFailedError message
  | .overflowError message | .recursionError message | .illegalTransitionError message
  | .identityConflictError message | .objectNotFoundError message | .registryCapacityError message
  | .attributeRejectedError message | .zeroDivisionError message
  | .objectStoreError message | .indexError message | .outOfOrderFrameError message
  | .trackerCapacityError message | .trackerContractError message
  | .demandRejectedError message | .demandNotFoundError message | .forbiddenError message
  | .invalidScopeError message | .windowTooLargeError message | .overloadedError message
  | .unsupportedVersionError message | .frameUnavailableError message
  | .poolExhaustedError message | .configurationError message | .integrityError message
  | .pendingRollbackError message | .notFoundError message | .evidenceForbiddenError message
  | .conflictError message | .validationError message | .connectFailedError message
  | .streamLostError message | .decodeError message | .unsupportedCodecError message
  | .privacyMaskError message | .licenceViolationError message
  | .modelUnavailableError message | .modelLoadError message | .artifactIntegrityError message
  | .artifactUnavailableError message | .deviceUnavailableError message
  | .deviceOutOfMemoryError message | .detectionFailedError message
  | .detectionTimeoutError message | .detectionQueueFullError message
  | .detectorContractError message => message

end PyException

/-- What a function of the source does: return a value or raise. -/
abbrev Raises := Except PyException

/-- `if not condition: raise exc`. -/
def require (condition : Prop) [Decidable condition] (exc : PyException) : Raises Unit :=
  if condition then .ok () else .error exc

variable {exc : PyException}

theorem require_eq_ok {condition : Prop} [Decidable condition] :
    require condition exc = .ok () ↔ condition := by
  unfold require
  split <;> simp_all

variable {α β : Type} {x : Raises α} {f : α → Raises β}

theorem bind_eq_ok {b : β} :
    (x >>= f) = .ok b ↔ ∃ a, x = .ok a ∧ f a = .ok b := by
  cases x with
  | ok a => simp [Bind.bind, Except.bind]
  | error e => simp [Bind.bind, Except.bind]

theorem ok_bind (a : α) (f : α → Raises β) :
    ((.ok a : Raises α) >>= f) = f a := rfl

theorem check_bind_eq_ok {x : Raises Unit} {f : Unit → Raises β} {b : β} :
    (x >>= f) = .ok b ↔ x = .ok () ∧ f () = .ok b := by
  rw [bind_eq_ok]
  exact ⟨fun ⟨_, h⟩ => h, fun h => ⟨(), h⟩⟩

def constructWith {α β : Type} (postInit : α → Raises Unit)
    (mk : (fields : α) → postInit fields = .ok () → β) (fields : α) : Raises β :=
  match h : postInit fields with
  | .ok () => .ok (mk fields h)
  | .error exc => .error exc

variable {postInit : α → Raises Unit} {fields : α}

theorem constructWith_eq_ok
    {mk : (fields : α) → postInit fields = .ok () → β}
    (h : postInit fields = .ok ()) : constructWith postInit mk fields = .ok (mk fields h) := by
  unfold constructWith
  split
  · rfl
  · rename_i exc herr
    rw [h] at herr
    cases herr

theorem constructWith_eq_ok_iff
    {mk : (fields : α) → postInit fields = .ok () → β} {b : β} :
    constructWith postInit mk fields = .ok b ↔ ∃ h, mk fields h = b := by
  constructor
  · intro hb
    unfold constructWith at hb
    split at hb
    · rename_i h
      exact ⟨h, ok.inj hb⟩
    · cases hb
  · rintro ⟨h, rfl⟩
    exact constructWith_eq_ok h

theorem postInit_ne_ok
    {mk : (fields : α) → postInit fields = .ok () → β}
    (h : constructWith postInit mk fields = .error exc) : postInit fields ≠ .ok () := by
  intro hok
  rw [constructWith_eq_ok hok] at h
  cases h

theorem ok_of_toOption {a : α} (h : x.toOption = some a) : x = .ok a := by
  cases x with
  | error exc => cases h
  | ok b => exact congrArg ok (Option.some.inj h)

/-- A call that is evaluated: it returns, and what is tested holds of what it returns. -/
theorem returns_of_any {P : α → Prop} [DecidablePred P]
    (h : x.toOption.any (fun a => decide (P a)) = true) : ∃ a, x = .ok a ∧ P a := by
  cases x with
  | error exc => cases h
  | ok a => exact ⟨a, rfl, of_decide_eq_true h⟩

theorem returns_of_isOk (h : x.isOk = true) : ∃ a, x = .ok a := by
  cases x with
  | error exc => cases h
  | ok a => exact ⟨a, rfl⟩

theorem mapM_returns {α β : Type} {f : α → Raises β} {xs : List α}
    (h : ∀ x ∈ xs, ∃ y, f x = .ok y) :
    ∃ ys, xs.mapM f = .ok ys ∧ List.Forall₂ (fun x y => f x = .ok y) xs ys := by
  induction xs with
  | nil => exact ⟨[], rfl, .nil⟩
  | cons x xs ih =>
    obtain ⟨y, hy⟩ := h x (by simp)
    obtain ⟨ys, hys, hall⟩ := ih (fun z hz => h z (mem_cons_of_mem _ hz))
    refine ⟨y :: ys, ?_, .cons hy hall⟩
    rw [mapM_cons, hy, hys]
    rfl

variable {xs : List α}

theorem forM_eq_ok {f : α → Raises Unit} :
    xs.forM f = .ok () ↔ ∀ x ∈ xs, f x = .ok () := by
  induction xs with
  | nil => exact ⟨fun _ _ h => absurd h List.not_mem_nil, fun _ => rfl⟩
  | cons x xs ih =>
    rw [List.forall_mem_cons, ← ih]
    exact check_bind_eq_ok

theorem mapM_ok {ys : List β}
    (h : xs.mapM f = .ok ys) :
    (∀ x ∈ xs, ∃ y ∈ ys, f x = .ok y) ∧ ∀ y ∈ ys, ∃ x ∈ xs, f x = .ok y := by
  induction xs generalizing ys with
  | nil =>
    rw [← ok.inj h]
    simp
  | cons x xs ih =>
    rw [mapM_cons, bind_eq_ok] at h
    obtain ⟨y, hy, h⟩ := h
    obtain ⟨rest, hrest, h⟩ := bind_eq_ok.mp h
    obtain ⟨hforward, hback⟩ := ih hrest
    rw [← ok.inj h]
    constructor
    · intro a ha
      rcases mem_cons.mp ha with rfl | ha
      · exact ⟨y, by simp, hy⟩
      · obtain ⟨b, hb, hab⟩ := hforward a ha
        exact ⟨b, mem_cons_of_mem _ hb, hab⟩
    · intro b hb
      rcases mem_cons.mp hb with rfl | hb
      · exact ⟨x, by simp, hy⟩
      · obtain ⟨a, ha, hab⟩ := hback b hb
        exact ⟨a, mem_cons_of_mem _ ha, hab⟩

theorem mapM_map_eq {γ : Type} {g : β → γ} {h : α → γ}
    (hf : ∀ x y, f x = .ok y → g y = h x) {ys : List β}
    (hm : xs.mapM f = .ok ys) : ys.map g = xs.map h := by
  induction xs generalizing ys with
  | nil =>
    rw [← ok.inj hm]
    rfl
  | cons x xs ih =>
    rw [mapM_cons, bind_eq_ok] at hm
    obtain ⟨y, hy, hm⟩ := hm
    obtain ⟨rest, hrest, hm⟩ := bind_eq_ok.mp hm
    rw [← ok.inj hm, map_cons, map_cons, hf x y hy, ih hrest]

end VisionOs.Core
