/-
  `EpochAllocator` over `JsonFileEpochStore`, and one camera's actors, over restarts and crashes.
  The file is replaced as a whole or not at all; one that cannot be read counts as one that holds
  nothing.
-/
import VisionOs.Acquisition.Numbering

namespace VisionOs.Acquisition

open Core Lib SourceActor

/-! ## The store -/

structure JsonFileEpochStore where
  file : OrderedDict CameraId Int := ∅
  epochs : OrderedDict CameraId Int := ∅

inductive FileRead where
  | whole
  /-- `OSError` or `JSONDecodeError`, or no dict in it. -/
  | lost
  | raises (exc : PyException)

namespace JsonFileEpochStore

/-- `JsonFileEpochStore(...)`, with `_load`. -/
def load (file : OrderedDict CameraId Int) : FileRead → Raises JsonFileEpochStore
  | .whole => .ok { file, epochs := file }
  | .lost => .ok { file, epochs := ∅ }
  | .raises exc => .error exc

def lastEpoch (camera : CameraId) (s : JsonFileEpochStore) : Int := (s.epochs.get? camera).getD (-1)

def flush (written : Raises Unit) : Effect PyException JsonFileEpochStore Unit := do
  Effect.ofExcept written
  Effect.modify fun s => { s with file := s.epochs }

def recordEpoch (camera : CameraId) (epoch : Int) (written : Raises Unit) :
    Effect PyException JsonFileEpochStore Unit := do
  let s ← Effect.read
  if s.lastEpoch camera < epoch then do
    Effect.modify fun s => { s with epochs := s.epochs.set camera epoch }
    flush written
  else pure ()

def nextEpoch (camera : CameraId) (written : Raises Unit) :
    Effect PyException JsonFileEpochStore Int := do
  let s ← Effect.read
  let nxt := s.lastEpoch camera + 1
  recordEpoch camera nxt written
  pure nxt

def fileEpoch (camera : CameraId) (s : JsonFileEpochStore) : Int := (s.file.get? camera).getD (-1)

structure Grows (camera : CameraId) (s s' : JsonFileEpochStore) : Prop where
  epochs : s.lastEpoch camera ≤ s'.lastEpoch camera
  file : s'.fileEpoch camera = s.fileEpoch camera ∨ s'.fileEpoch camera = s'.lastEpoch camera

theorem Grows.refl (camera : CameraId) (s : JsonFileEpochStore) : Grows camera s s :=
  ⟨le_refl _, .inl rfl⟩

theorem lastEpoch_set (camera camera' : CameraId) (epoch : Int) (s : JsonFileEpochStore) :
    lastEpoch camera' { s with epochs := s.epochs.set camera epoch } =
      if camera = camera' then epoch else s.lastEpoch camera' := by
  unfold lastEpoch
  rw [OrderedDict.get?_set]
  split <;> rfl

theorem nextEpoch_cases (camera : CameraId) (written : Raises Unit) (s : JsonFileEpochStore) :
    (written = .ok () ∧ nextEpoch camera written s =
        (.ok (s.lastEpoch camera + 1),
          ⟨s.epochs.set camera (s.lastEpoch camera + 1),
            s.epochs.set camera (s.lastEpoch camera + 1)⟩)) ∨
      ∃ exc, written = .error exc ∧ nextEpoch camera written s =
        (.error exc, { s with epochs := s.epochs.set camera (s.lastEpoch camera + 1) }) := by
  have hnew : s.lastEpoch camera < s.lastEpoch camera + 1 := by omega
  have hrecord : recordEpoch camera (s.lastEpoch camera + 1) written s =
      flush written { s with epochs := s.epochs.set camera (s.lastEpoch camera + 1) } := by
    show (if s.lastEpoch camera < s.lastEpoch camera + 1 then _ else _ :
      Effect PyException JsonFileEpochStore Unit) s = _
    rw [if_pos hnew]
    rfl
  have hnext : nextEpoch camera written s =
      (recordEpoch camera (s.lastEpoch camera + 1) written >>= fun _ =>
        pure (s.lastEpoch camera + 1)) s := rfl
  rw [hnext]
  cases written with
  | ok _ => exact .inl ⟨rfl, Effect.bind_of_ok hrecord⟩
  | error exc => exact .inr ⟨exc, rfl, Effect.bind_of_error hrecord⟩

theorem grows_set (camera camera' : CameraId) (s : JsonFileEpochStore)
    {file : OrderedDict CameraId Int}
    (hfile : file = s.file ∨ file = s.epochs.set camera (s.lastEpoch camera + 1)) :
    Grows camera' s ⟨file, s.epochs.set camera (s.lastEpoch camera + 1)⟩ := by
  constructor
  · have hset := lastEpoch_set camera camera' (s.lastEpoch camera + 1) s
    show s.lastEpoch camera' ≤ lastEpoch camera' { s with epochs := _ }
    rw [hset]
    split
    · rename_i heq
      rw [heq]
      omega
    · exact le_refl _
  · rcases hfile with rfl | rfl
    · exact .inl rfl
    · exact .inr rfl

theorem nextEpoch_grows (camera camera' : CameraId) (written : Raises Unit)
    (s : JsonFileEpochStore) : Grows camera' s (nextEpoch camera written s).2 := by
  rcases nextEpoch_cases camera written s with ⟨-, heq⟩ | ⟨exc, -, heq⟩
  · rw [heq]
    exact grows_set camera camera' s (.inr rfl)
  · rw [heq]
    exact grows_set camera camera' s (.inl rfl)

end JsonFileEpochStore

/-! ## One camera's actors over the store -/

structure CameraDeployment where
  store : JsonFileEpochStore := {}
  running : Bool := false
  /-- The camera's entry in `_actors`. -/
  actor : Option SourceActor := none
  /-- The actors that `close` took out of `_actors`. -/
  closing : List SourceActor := []
  /-- The frames that were handed to the buffer to publish, over all processes. -/
  published : List FrameRef := []

inductive DeploymentEvent where
  /-- A process starts. -/
  | starts (read : FileRead)
  /-- `SourceManager.open`. -/
  | opens (health : Kernel.HealthMonitor)
  /-- `SourceManager.close`, up to its wait; closing the handle would work or not. -/
  | closes (closesHandle : Bool)
  /-- Something happens to the actor; writing the epoch file would work or not. -/
  | happens (h : Happening) (written : Raises Unit)
  /-- Something happens to an actor that is being closed. -/
  | lingers (index : Nat) (h : Happening) (written : Raises Unit)
  /-- An epoch is taken elsewhere, for this or another camera. -/
  | takes (camera : CameraId) (written : Raises Unit)
  | crashes
  /-- The process crashes while an epoch is recorded: its file was replaced before, or not. -/
  | crashesRecording (camera : CameraId) (replaced : Bool)

def storeOutcome : Raises Int → EpochStoreOutcome
  | .ok _ => .works
  | .error exc => .recordRaises exc true

def SourceActor.turn (setup : SourceActorSetup) (h : Happening) (written : Raises Unit)
    (store : JsonFileEpochStore) (actor : SourceActor) : JsonFileEpochStore × SourceActor :=
  let actor := { actor with lastEpoch := store.lastEpoch setup.cameraId }
  match h.input, actor.phase with
  | .opens ports, .opening =>
    match ports.opened with
    | .error _ => (store, step setup actor h)
    | .ok () =>
      let (epoch, store) := JsonFileEpochStore.nextEpoch setup.cameraId written store
      (store, step setup actor
        { h with input := .opens { ports with epochs := storeOutcome epoch } })
  | _, _ => (store, step setup actor h)

namespace CameraDeployment

/-- The process is gone, with what it held in memory. -/
def crash (d : CameraDeployment) : CameraDeployment :=
  { d with store := { file := d.store.file }, running := false, actor := none, closing := [] }

def newFrames (before after : SourceActor) : List FrameRef :=
  after.handedOn.drop before.handedOn.length

/-- One event.  What does not happen to the deployment as it is leaves it alone. -/
def step (setup : SourceActorSetup) (d : CameraDeployment) : DeploymentEvent → CameraDeployment
  | .starts read =>
    if d.running then d
    else match JsonFileEpochStore.load d.store.file read with
      | .ok store => { d with store, running := true }
      | .error _ => d
  | .opens health =>
    match d.running, d.actor with
    | true, none =>
      { d with actor := some (.start setup (d.store.lastEpoch setup.cameraId) health) }
    | _, _ => d
  | .closes closesHandle =>
    match d.actor with
    | none => d
    | some actor =>
      { d with
        actor := none
        closing := d.closing ++ [requestStop closesHandle actor] }
  | .happens h written =>
    match d.actor with
    | none => d
    | some actor =>
      let (store, actor') := turn setup h written d.store actor
      { d with
        store
        actor := some actor'
        published := d.published ++ newFrames actor actor' }
  | .lingers index h written =>
    match d.closing[index]? with
    | none => d
    | some actor =>
      let (store, actor') := turn setup h written d.store actor
      { d with
        store
        closing := d.closing.set index actor'
        published := d.published ++ newFrames actor actor' }
  | .takes camera written =>
    if d.running then
      { d with store := (JsonFileEpochStore.nextEpoch camera written d.store).2 }
    else d
  | .crashes => d.crash
  | .crashesRecording camera replaced =>
    if d.running && replaced then
      { d with store := (JsonFileEpochStore.nextEpoch camera (.ok ()) d.store).2 }.crash
    else d.crash

/-- A camera that no process has served yet, with what the epoch file holds. -/
def new (file : OrderedDict CameraId Int) : CameraDeployment := { store := { file } }

end CameraDeployment

end VisionOs.Acquisition
