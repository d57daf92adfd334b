/-
  The roles of the `ModelManager`: the version that serves a role, and the candidate that a
  canary sends a share of the calls to.  One counter is shared by the canaries of all roles.
-/
import VisionOs.Core.FloatArith
import VisionOs.Lib.OrderedDict
import VisionOs.Lib.Runs

namespace VisionOs.Kernel

open Core Lib List OrderedDict PyFloat Runs

/-- `(model_id, version)`. -/
abbrev ModelKey := String × String

structure ArtifactRefFields where
  uri : String
  expectedHash : String
  deriving DecidableEq, Repr

def ArtifactRefFields.postInit (a : ArtifactRefFields) : Raises Unit := do
  require (a.uri ≠ "") (.valueError "artifact uri is required")
  let refused : String :=
    "an artifact must declare its expected hash; loading unverified weights is a " ++
      "supply-chain vulnerability (12_SECURITY section 6)"
  require (a.expectedHash ≠ "") (.valueError refused)

structure ArtifactRef extends ArtifactRefFields where
  accepted : toArtifactRefFields.postInit = .ok ()
  deriving DecidableEq

structure ModelSpecFields where
  modelId : String
  version : String
  artifact : ArtifactRef
  precision : String := "fp32"
  deviceKind : String := "cpu"
  vramBytes : Int := 0
  licence : String := "unspecified"
  permittedContexts : List String := []
  calibrationId : Option String := none
  deriving DecidableEq

def ModelSpecFields.postInit (spec : ModelSpecFields) : Raises Unit := do
  require (¬ (spec.modelId = "" ∨ spec.version = ""))
    (.validationError "a model spec requires a model_id and a version")
  require (¬ spec.vramBytes < 0) (.validationError "vram_bytes must be non-negative")

structure ModelSpec extends ModelSpecFields where
  accepted : toModelSpecFields.postInit = .ok ()
  deriving DecidableEq

inductive RolloutMode where
  | pinned | canary | shadow
  deriving DecidableEq, Repr

structure RoleBinding where
  role : String
  modelId : String
  version : String
  mode : RolloutMode := .pinned
  candidateModelId : Option String := none
  candidateVersion : Option String := none
  trafficFraction : PyFloat := .finite 0

def RoleBinding.baseline (b : RoleBinding) : ModelKey := (b.modelId, b.version)

/-- The candidate of a canary that gets any traffic. -/
def RoleBinding.routed (b : RoleBinding) : Option String :=
  if b.mode = .canary ∧ (PyFloat.finite 0).lt b.trafficFraction = true then b.candidateModelId
  else none

/-- `round(x)`. -/
def pyRound : PyFloat → Raises Int
  | .finite q => .ok (roundHalfEven q)
  | .nan => .error (.valueError "cannot convert float NaN to integer")
  | _ => .error (.overflowError "cannot convert float infinity to integer")

/-- `max(1, round(1.0 / fraction))`, of a fraction that is not zero. -/
def periodOf (fraction : PyFloat) : Raises Nat :=
  (fun n => (max 1 n).toNat) <$> pyRound ((PyFloat.finite 1).quotient fraction)

/-- What the manager knows of models and roles; which models are resident is left out. -/
structure Rollout where
  specs : OrderedDict ModelKey ModelSpec := ∅
  roles : OrderedDict String RoleBinding := ∅
  canaryCounter : Nat := 0

namespace Rollout

def spec (r : Rollout) (key : ModelKey) : Raises ModelSpec :=
  match r.specs.get? key with
  | some spec => .ok spec
  | none => .error (.modelUnavailableError s!"model '{key.1}@{key.2}' is not registered")

def canary (r : Rollout) (role candidateModel candidateVersion : String) (fraction : PyFloat) :
    Raises Rollout := do
  require (fraction.inUnit = true)
    (.validationError [.text "canary fraction must be in [0,1], got ", .float fraction])
  let _ ← r.spec (candidateModel, candidateVersion)
  match r.roles.get? role with
  | none => .error (.validationError s!"role '{role}' has no baseline to canary against")
  | some current =>
    .ok { r with
      roles := r.roles.set role { current with
        mode := .canary
        candidateModelId := some candidateModel
        candidateVersion := some candidateVersion
        trafficFraction := fraction } }

def resolve (r : Rollout) (role : String) : Rollout × Raises ModelKey :=
  match r.roles.get? role with
  | none => (r, .error (.modelUnavailableError s!"no model bound to role '{role}'"))
  | some binding =>
    match binding.routed with
    | none => (r, .ok binding.baseline)
    | some candidate =>
      let counter := r.canaryCounter + 1
      ({ r with canaryCounter := counter }, (periodOf binding.trafficFraction).map fun period =>
        if counter % period = 0 then (candidate, binding.candidateVersion.getD "")
        else binding.baseline)

def resolved (r : Rollout) (role : String) : Rollout := (r.resolve role).1

/-- How many of the calls of `resolve` for a role are answered with a version. -/
def answered (role : String) (key : ModelKey) : Rollout → List String → Nat
  | _, [] => 0
  | r, call :: rest =>
    answered role key (r.resolved call) rest +
      if call = role ∧ (r.resolve role).2.toOption = some key then 1 else 0

/-- The calls for a role move the counter. -/
def Counts (r : Rollout) (role : String) : Prop :=
  ∃ binding ∈ r.roles.get? role, binding.routed ≠ none

/-- The role is on a canary that sends the candidate one call in so many. -/
def Canaried (r : Rollout) (role : String) (key : ModelKey) (period : Nat) : Prop :=
  ∃ binding ∈ r.roles.get? role, binding.routed = some key.1 ∧
    binding.candidateVersion.getD "" = key.2 ∧ periodOf binding.trafficFraction = .ok period ∧
      binding.baseline ≠ key

variable {r r' : Rollout} {role : String} {key : ModelKey} {period : Nat}

theorem resolved_eq (r : Rollout) (call : String) :
    ∃ counter, r.resolved call = { r with canaryCounter := counter } ∧
      (counter = r.canaryCounter ∨ counter = r.canaryCounter + 1 ∧ r.Counts call) := by
  unfold resolved resolve
  split
  · exact ⟨_, rfl, .inl rfl⟩
  · rename_i binding hbinding
    split
    · exact ⟨_, rfl, .inl rfl⟩
    · rename_i hcandidate
      exact ⟨_, rfl, .inr ⟨rfl, binding, hbinding, by rw [hcandidate]; nofun⟩⟩

/-- A call for the role counts, and the candidate has the multiples of the period. -/
theorem Canaried.answer (h : r.Canaried role key period) :
    (r.resolved role).canaryCounter = r.canaryCounter + 1 ∧
      (r.canaryCounter + 1) / period = r.canaryCounter / period +
        if (r.resolve role).2.toOption = some key then 1 else 0 := by
  obtain ⟨binding, hbinding, hrouted, hversion, hperiod, hbaseline⟩ := h
  have hresolve : r.resolve role = ({ r with canaryCounter := r.canaryCounter + 1 },
      .ok (if (r.canaryCounter + 1) % period = 0 then key else binding.baseline)) := by
    unfold resolve
    rw [hbinding]
    dsimp only
    rw [hrouted]
    dsimp only
    rw [hperiod, hversion]
    rfl
  refine ⟨congrArg (·.1.canaryCounter) hresolve, ?_⟩
  rw [hresolve, Nat.succ_div]
  by_cases hdue : period ∣ r.canaryCounter + 1
  · rw [if_pos hdue, if_pos (Nat.mod_eq_zero_of_dvd hdue)]
    exact congrArg _ (if_pos rfl).symm
  · rw [if_neg hdue, if_neg fun hzero => hdue (Nat.dvd_of_mod_eq_zero hzero)]
    exact congrArg _ (if_neg fun hsame => hbaseline (Option.some.inj hsame)).symm

theorem Canaried.share (h : r.Canaried role key period) (calls : List String) :
    answered role key r calls + r.canaryCounter / period ≤
        (run resolved r calls).canaryCounter / period ∧
      ((∀ call ∈ calls, call ≠ role → ¬ r.Counts call) →
        answered role key r calls + r.canaryCounter / period =
          (r.canaryCounter + calls.count role) / period) := by
  induction calls generalizing r with
  | nil => exact ⟨(Nat.zero_add _).le, fun _ => Nat.zero_add _⟩
  | cons call rest ih =>
    obtain ⟨counter, hnext, hcounter⟩ := r.resolved_eq call
    have hrest : (r.resolved call).Canaried role key period := hnext ▸ h
    have hsame : (r.resolved call).Counts = r.Counts := by rw [hnext]; rfl
    obtain ⟨hbound, hexact⟩ := ih hrest
    rw [hsame] at hexact
    unfold answered
    rw [run_cons]
    by_cases hcall : call = role
    · subst hcall
      obtain ⟨hone, hanswer⟩ := h.answer
      rw [hone, hanswer] at hbound
      rw [hone, Nat.add_right_comm, Nat.add_assoc, ← count_cons_self (a := call), hanswer] at hexact
      simp only [true_and]
      exact ⟨by omega, fun halone => by have := hexact (forall_mem_cons.mp halone).2; omega⟩
    · rw [count_cons_of_ne hcall, if_neg fun hboth => hcall hboth.1]
      have hle : r.canaryCounter ≤ (r.resolved call).canaryCounter := by
        rw [hnext]
        show r.canaryCounter ≤ counter
        omega
      refine ⟨(Nat.add_le_add_left (Nat.div_le_div_right hle) _).trans hbound, fun halone => ?_⟩
      obtain ⟨hfirst, hothers⟩ := forall_mem_cons.mp halone
      have hstill := hcounter.resolve_right fun hmoved => hfirst hcall hmoved.2
      rw [hnext, hstill] at hexact ⊢
      exact hexact hothers

/-- From the call of `canary` on the candidate has no more than one in so many of the calls that
    count for any role; and of the role's own calls exactly that, where no other role's count. -/
theorem canary_share {modelId version : String} {fraction : PyFloat}
    (h : r.canary role modelId version fraction = .ok r')
    (hfraction : (PyFloat.finite 0).lt fraction = true) (hperiod : periodOf fraction = .ok period)
    (hother : ∀ current ∈ r.roles.get? role, current.baseline ≠ (modelId, version))
    (calls : List String) :
    answered role (modelId, version) r' calls + r'.canaryCounter / period ≤
        (run resolved r' calls).canaryCounter / period ∧
      ((∀ call ∈ calls, call ≠ role → ¬ r'.Counts call) →
        answered role (modelId, version) r' calls + r'.canaryCounter / period =
          (r'.canaryCounter + calls.count role) / period) := by
  unfold canary at h
  rw [check_bind_eq_ok, bind_eq_ok] at h
  obtain ⟨-, spec, -, hset⟩ := h
  split at hset
  · cases hset
  · rename_i current hcurrent
    obtain rfl := Except.ok.inj hset
    refine Canaried.share ?_ calls
    exact ⟨_, get?_set_self _ _ _, if_pos ⟨rfl, hfraction⟩, rfl, hperiod, hother current hcurrent⟩

section Detector

def candidateSpec : ModelSpec :=
  ⟨{ modelId := "detector-b", version := "2", artifact := ⟨⟨"models/b", "sha256:b"⟩, rfl⟩ }, rfl⟩

def baselineOnly : Rollout where
  specs := empty.set ("detector-b", "2") candidateSpec
  roles := empty.set "detector" { role := "detector", modelId := "detector-a", version := "1" }

/-- Three calls in eight: the period rounds to three, and the candidate has every third call. -/
theorem three_eighths_has_a_third : ∃ r',
    baselineOnly.canary "detector" "detector-b" "2" (.finite (3 / 8)) = .ok r' ∧
      ∀ n, answered "detector" ("detector-b", "2") r' (replicate n "detector") +
        r'.canaryCounter / 3 = (r'.canaryCounter + (replicate n "detector").count "detector") / 3 := by
  obtain ⟨r', h⟩ := returns_of_isOk (show (baselineOnly.canary "detector" "detector-b" "2"
    (.finite (3 / 8))).isOk = true by decide +kernel)
  refine ⟨r', h, fun n => (canary_share h (by decide +kernel) (by decide +kernel) ?_ _).2 ?_⟩
  · rintro current ⟨⟩
    decide
  · intro call hcall hne
    exact absurd (eq_of_mem_replicate hcall) hne

end Detector

end Rollout

end VisionOs.Kernel
