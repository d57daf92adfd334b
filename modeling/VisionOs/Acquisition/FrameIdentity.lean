/-
  No frame reference is used twice, as long as no process starts on an epoch file that it cannot
  read.
-/
import VisionOs.Acquisition.EpochStore
import VisionOs.Acquisition.Reconnects

namespace VisionOs.Acquisition

open Core Lib List SourceActor JsonFileEpochStore Runs

/-! ## A turn of an actor -/

inductive Turned (camera : CameraId) (store : JsonFileEpochStore) (a : SourceActor)
    (store' : JsonFileEpochStore) (a' : SourceActor) : Prop where
  | same (stored : store' = store) (handedOn : a'.handedOn = a.handedOn)
      (session : a'.phase.inSession = true →
        a.phase.inSession = true ∧ a'.epoch = a.epoch ∧ a.seq ≤ a'.seq)
  | takes (grows : JsonFileEpochStore.Grows camera store store')
      (handedOn : a'.handedOn = a.handedOn)
      (session : a'.phase.inSession = true →
        a'.epoch = store.lastEpoch camera + 1 ∧ a'.seq = 0 ∧
          store'.lastEpoch camera = store.lastEpoch camera + 1 ∧
          store'.fileEpoch camera = store.lastEpoch camera + 1)
  | handsOn (stored : store' = store) (session : a.phase.inSession = true) (going : a.stop = false)
      (epoch : a'.epoch = a.epoch)
      (handedOn : ∃ ref : FrameRef, ref.streamEpoch = a.epoch ∧ a.seq ≤ ref.frameSeq ∧
        ref.frameSeq < a'.seq ∧ a'.handedOn = a.handedOn ++ [ref])

variable {setup : SourceActorSetup} {h : Happening} {written : Raises Unit}
  {store : JsonFileEpochStore} {a : SourceActor}

theorem turned_of_step (hnot : ∀ ports, h.input = .opens ports → a.phase = .opening →
      ports.opened ≠ .ok ()) :
    Turned setup.cameraId store a store
      (step setup { a with lastEpoch := store.lastEpoch setup.cameraId } h) := by
  cases step_numbers setup { a with lastEpoch := store.lastEpoch setup.cameraId } h with
  | same numbers session =>
    exact .same rfl numbers.handedOn fun h => ⟨session h, numbers.epoch, numbers.seq⟩
  | takes took before session =>
    refine .takes (.refl _ _) took.handedOn fun hsession => ?_
    obtain ⟨-, -, -, ports, hinput, hopened, -⟩ := session hsession
    exact absurd hopened (hnot ports hinput before)
  | handsOn hands before going =>
    obtain ⟨ref, -, hnumbered⟩ := hands.handedOn
    exact .handsOn rfl before going hands.epoch ⟨ref, hnumbered⟩

theorem turn_turned (setup : SourceActorSetup) (h : Happening) (written : Raises Unit)
    (store : JsonFileEpochStore) (a : SourceActor) :
    Turned setup.cameraId store a (turn setup h written store a).1
      (turn setup h written store a).2 := by
  unfold turn
  dsimp only
  split
  · rename_i ports hinput hphase
    split
    · rename_i exc hopened
      refine turned_of_step fun ports' hports' _ => ?_
      rw [hinput] at hports'
      cases hports'
      rw [hopened]
      nofun
    · -- the actor connects: the store is asked for the next epoch
      have hgrows := nextEpoch_grows setup.cameraId setup.cameraId written store
      have hcases := nextEpoch_cases setup.cameraId written store
      generalize nextEpoch setup.cameraId written store = asked at hgrows hcases
      obtain ⟨epoch, store'⟩ := asked
      cases step_numbers setup { a with lastEpoch := store.lastEpoch setup.cameraId }
        { h with input := .opens { ports with epochs := storeOutcome epoch } } with
      | same numbers session =>
        refine .takes hgrows numbers.handedOn fun hsession => ?_
        have hbefore : a.phase.inSession = true := session hsession
        rw [hphase] at hbefore
        cases hbefore
      | takes took before session =>
        refine .takes hgrows took.handedOn fun hsession => ?_
        obtain ⟨hepoch, -, hseq, ports', hports', -, hworks⟩ := session hsession
        cases hports'
        -- the epoch was recorded
        rcases hcases with ⟨-, heq⟩ | ⟨exc, -, heq⟩
        · obtain ⟨-, rfl⟩ := Prod.mk.inj heq
          have hlast : ((store.epochs.set setup.cameraId
              (store.lastEpoch setup.cameraId + 1)).get? setup.cameraId).getD (-1) =
              store.lastEpoch setup.cameraId + 1 := by
            rw [OrderedDict.get?_set_self]
            rfl
          exact ⟨hepoch, hseq, hlast, hlast⟩
        · obtain ⟨rfl, -⟩ := Prod.mk.inj heq
          cases hworks
      | handsOn hands before going =>
        have hbefore : a.phase.inSession = true := before
        rw [hphase] at hbefore
        cases hbefore
  · rename_i hnot
    exact turned_of_step fun ports hinput hphase => (hnot ports hinput hphase).elim

theorem stop_turn (hstop : a.stop = true) :
    (turn setup h written store a).2.stop = true := by
  unfold turn
  dsimp only
  split
  · split
    · exact stop_step hstop
    · exact stop_step hstop
  · exact stop_step hstop

/-! ## The deployment -/

/-- The reference comes before a position of epoch and sequence. -/
def NumberedBefore (epoch seq : Int) (ref : FrameRef) : Prop :=
  ref.streamEpoch < epoch ∨ (ref.streamEpoch = epoch ∧ ref.frameSeq < seq)

namespace CameraDeployment

/-- The epoch is known to the store and is in its file. -/
def Durable (camera : CameraId) (store : JsonFileEpochStore) (epoch : Int) : Prop :=
  epoch ≤ store.lastEpoch camera ∧ epoch ≤ store.fileEpoch camera

theorem Durable.grows {camera : CameraId} {store' : JsonFileEpochStore} {epoch : Int}
    (h : Durable camera store epoch) (hgrows : JsonFileEpochStore.Grows camera store store') :
    Durable camera store' epoch := by
  obtain ⟨hmemory, hfile⟩ := h
  have hmemory' := hmemory.trans hgrows.epochs
  refine ⟨hmemory', ?_⟩
  rcases hgrows.file with hsame | hbrought
  · rw [hsame]
    exact hfile
  · rw [hbrought]
    exact hmemory'

/-- An actor numbers behind all that was published, under a durable epoch. -/
structure NumbersOn (camera : CameraId) (store : JsonFileEpochStore) (published : List FrameRef)
    (a : SourceActor) : Prop where
  after : ∀ ref ∈ published, NumberedBefore a.epoch a.seq ref
  recorded : Durable camera store a.epoch

/-- References rise, and no published epoch is unknown to the file. -/
structure Sound (setup : SourceActorSetup) (d : CameraDeployment) : Prop where
  rising : d.published.Pairwise fun ref ref' =>
    NumberedBefore ref'.streamEpoch ref'.frameSeq ref
  file : ∀ ref ∈ d.published, ref.streamEpoch ≤ d.store.fileEpoch setup.cameraId
  memory : d.running = true →
    ∀ ref ∈ d.published, Durable setup.cameraId d.store ref.streamEpoch
  actor : ∀ a, d.actor = some a → a.phase.inSession = true →
    NumbersOn setup.cameraId d.store d.published a
  closing : ∀ a ∈ d.closing, a.stop = true
  stopped : d.running = false → d.actor = none ∧ d.closing = []

/-- A process starts on a file that it can read, or before any frame was published. -/
def StartsSafely (d : CameraDeployment) : DeploymentEvent → Prop
  | .starts .lost => d.running = true ∨ d.published = []
  | _ => True

instance (d : CameraDeployment) : DecidablePred d.StartsSafely := fun event =>
  match event with
  | .starts .lost => inferInstanceAs (Decidable (_ ∨ _))
  | .starts .whole | .starts (.raises _) | .opens _ | .closes _ | .happens _ _ | .lingers _ _ _
  | .takes _ _ | .crashes | .crashesRecording _ _ => inferInstanceAs (Decidable True)

variable {setup : SourceActorSetup} {d : CameraDeployment}

theorem sound_new (setup : SourceActorSetup) (file : OrderedDict CameraId Int) :
    (new file).Sound setup where
  rising := List.Pairwise.nil
  file := fun _ h => by cases h
  memory := fun h => by cases h
  actor := fun _ h => by cases h
  closing := fun _ h => by cases h
  stopped := fun _ => ⟨rfl, rfl⟩

theorem Sound.crash (h : d.Sound setup) : d.crash.Sound setup where
  rising := h.rising
  file := h.file
  memory := fun h => by cases h
  actor := fun _ h => by cases h
  closing := fun _ h => by cases h
  stopped := fun _ => ⟨rfl, rfl⟩

theorem Sound.grows (h : d.Sound setup) (hrunning : d.running = true)
    (hgrows : JsonFileEpochStore.Grows setup.cameraId d.store store) :
    Sound setup { d with store } where
  rising := h.rising
  file := fun ref href => ((h.memory hrunning ref href).grows hgrows).2
  memory := fun _ ref href => (h.memory hrunning ref href).grows hgrows
  actor := fun a ha hsession =>
    ⟨(h.actor a ha hsession).after, (h.actor a ha hsession).recorded.grows hgrows⟩
  closing := h.closing
  stopped := h.stopped

theorem Sound.starts (h : d.Sound setup) {read : FileRead}
    (hsafe : d.StartsSafely (.starts read)) : (d.step setup (.starts read)).Sound setup := by
  show Sound setup (if d.running then d else _)
  split
  · exact h
  rename_i hrunning
  obtain ⟨hnone, hclosing⟩ := h.stopped (by simpa using hrunning)
  -- no actor outlived the process before
  have hstarted : ∀ store : JsonFileEpochStore, store.file = d.store.file →
      (∀ ref ∈ d.published, ref.streamEpoch ≤ store.lastEpoch setup.cameraId) →
      Sound setup { d with store, running := true } := by
    intro store hfile hmemory
    have hfileEpoch : store.fileEpoch setup.cameraId = d.store.fileEpoch setup.cameraId := by
      unfold fileEpoch
      rw [hfile]
    exact {
      rising := h.rising
      file := fun ref href => hfileEpoch.symm ▸ h.file ref href
      memory := fun _ ref href => ⟨hmemory ref href, hfileEpoch.symm ▸ h.file ref href⟩
      actor := fun a ha => by
        rw [hnone] at ha
        cases ha
      closing := h.closing
      stopped := fun hnot => by cases hnot }
  cases read with
  | whole => exact hstarted ⟨d.store.file, d.store.file⟩ rfl h.file
  | lost =>
    have hnothing : d.published = [] := hsafe.resolve_left hrunning
    refine hstarted ⟨d.store.file, ∅⟩ rfl fun ref href => ?_
    rw [hnothing] at href
    cases href
  | raises exc => exact h

variable {a a' : SourceActor}

theorem newFrames_eq_nil (h : a'.handedOn = a.handedOn) : newFrames a a' = [] := by
  unfold newFrames
  rw [h]
  exact drop_length

theorem newFrames_eq_singleton {ref : FrameRef}
    (h : a'.handedOn = a.handedOn ++ [ref]) : newFrames a a' = [ref] := by
  unfold newFrames
  rw [h]
  exact drop_left

theorem Sound.running_of_actor (h : d.Sound setup) (ha : d.actor = some a) : d.running = true := by
  cases hrunning : d.running with
  | true => rfl
  | false =>
    rw [(h.stopped hrunning).1] at ha
    cases ha

theorem Sound.running_of_closing (h : d.Sound setup) (ha : a ∈ d.closing) : d.running = true := by
  cases hrunning : d.running with
  | true => rfl
  | false =>
    rw [(h.stopped hrunning).2] at ha
    cases ha

theorem Sound.turned (h : d.Sound setup) (ha : d.actor = some a)
    (hturned : Turned setup.cameraId d.store a store a') :
    Sound setup { d with
      store
      actor := some a'
      published := d.published ++ newFrames a a' } := by
  have hrunning := h.running_of_actor ha
  -- `memory` carries it: each frame is of an epoch that the store has recorded
  cases hturned with
  | same stored handedOn session =>
    subst stored
    rw [newFrames_eq_nil handedOn, append_nil]
    exact {
      rising := h.rising
      file := h.file
      memory := h.memory
      actor := fun b hb hsession => by
        cases hb
        obtain ⟨hbefore, hepoch, hseq⟩ := session hsession
        obtain ⟨hafter, hrecorded⟩ := h.actor a ha hbefore
        refine ⟨fun ref href => ?_, ?_⟩
        · rw [hepoch]
          exact (hafter ref href).imp_right fun ⟨hsame, hlt⟩ => ⟨hsame, hlt.trans_le hseq⟩
        · rw [hepoch]
          exact hrecorded
      closing := h.closing
      stopped := fun hnot => absurd hrunning (by rw [hnot]; decide) }
  | takes grows handedOn session =>
    rw [newFrames_eq_nil handedOn, append_nil]
    have hgrown := h.grows hrunning grows
    exact {
      rising := hgrown.rising
      file := hgrown.file
      memory := hgrown.memory
      actor := fun b hb hsession => by
        cases hb
        obtain ⟨hepoch, -, hlast, hfile⟩ := session hsession
        refine ⟨fun ref href => .inl ?_, ?_, ?_⟩
        · -- every frame so far is of an epoch issued before
          have hissued := (h.memory hrunning ref href).1
          omega
        · rw [hepoch, hlast]
        · rw [hepoch, hfile]
      closing := hgrown.closing
      stopped := fun hnot => absurd hrunning (by rw [hnot]; decide) }
  | handsOn stored session going epoch handedOn =>
    subst stored
    obtain ⟨ref, hrefEpoch, hfrom, hbelow, hhanded⟩ := handedOn
    obtain ⟨hafter, hrecorded⟩ := h.actor a ha session
    rw [newFrames_eq_singleton hhanded]
    have hdurable : ∀ r ∈ d.published ++ [ref], Durable setup.cameraId d.store r.streamEpoch := by
      intro r hr
      rcases mem_append.mp hr with hr | hr
      · exact h.memory hrunning r hr
      · rw [mem_singleton.mp hr, hrefEpoch]
        exact hrecorded
    exact {
      rising := by
        rw [pairwise_append]
        refine ⟨h.rising, pairwise_singleton _ _, fun r hr r' hr' => ?_⟩
        rw [mem_singleton.mp hr', hrefEpoch]
        exact (hafter r hr).imp_right fun ⟨hsame, hlt⟩ => ⟨hsame, hlt.trans_le hfrom⟩
      file := fun r hr => (hdurable r hr).2
      memory := fun _ => hdurable
      actor := fun b hb _ => by
        cases hb
        refine ⟨fun r hr => ?_, ?_⟩
        · rw [epoch]
          rcases mem_append.mp hr with hr | hr
          · exact (hafter r hr).imp_right fun ⟨hsame, hlt⟩ => ⟨hsame, by omega⟩
          · rw [mem_singleton.mp hr]
            exact .inr ⟨hrefEpoch, hbelow⟩
        · rw [epoch]
          exact hrecorded
      closing := h.closing
      stopped := fun hnot => absurd hrunning (by rw [hnot]; decide) }

theorem Sound.lingers (h : d.Sound setup) {index : Nat}
    (ha : d.closing[index]? = some a) (turn : Happening) (written : Raises Unit) :
    (d.step setup (.lingers index turn written)).Sound setup := by
  have hmem : a ∈ d.closing := mem_of_getElem? ha
  have hstop := h.closing a hmem
  have hrunning := h.running_of_closing hmem
  have hturned := turn_turned setup turn written d.store a
  have hstop' : (SourceActor.turn setup turn written d.store a).2.stop = true := stop_turn hstop
  have hstep : d.step setup (.lingers index turn written) =
      { d with
        store := (SourceActor.turn setup turn written d.store a).1
        closing := d.closing.set index (SourceActor.turn setup turn written d.store a).2
        published := d.published ++
          newFrames a (SourceActor.turn setup turn written d.store a).2 } := by
    unfold CameraDeployment.step
    dsimp only
    rw [ha]
  rw [hstep]
  generalize SourceActor.turn setup turn written d.store a = turned at hturned hstop' ⊢
  obtain ⟨store, a'⟩ := turned
  have hclosing : ∀ b ∈ d.closing.set index a', b.stop = true := by
    intro b hb
    rcases mem_or_eq_of_mem_set hb with hb | rfl
    · exact h.closing b hb
    · exact hstop'
  have hgrown : JsonFileEpochStore.Grows setup.cameraId d.store store →
      a'.handedOn = a.handedOn →
      Sound setup { d with
        store
        closing := d.closing.set index a'
        published := d.published ++ newFrames a a' } := by
    intro hgrows hhanded
    rw [newFrames_eq_nil hhanded, append_nil]
    have hgrown := h.grows hrunning hgrows
    exact ⟨hgrown.rising, hgrown.file, hgrown.memory, hgrown.actor, hclosing,
      fun hnot => absurd hrunning (by rw [hnot]; decide)⟩
  cases hturned with
  | same stored handedOn session =>
    exact hgrown (stored ▸ .refl _ _) handedOn
  | takes grows handedOn session => exact hgrown grows handedOn
  | handsOn stored session going =>
    rw [hstop] at going
    cases going

/-- Every event whose process starts safely keeps a deployment sound. -/
theorem Sound.step (h : d.Sound setup) (event : DeploymentEvent) (hsafe : d.StartsSafely event) :
    (d.step setup event).Sound setup := by
  cases event with
  | starts read => exact h.starts hsafe
  | opens health =>
    unfold CameraDeployment.step
    dsimp only
    split
    · rename_i hrunning _
      exact {
        rising := h.rising
        file := h.file
        memory := h.memory
        actor := fun a ha hsession => by
          cases ha
          cases hsession
        closing := h.closing
        stopped := fun hnot => by
          rw [hrunning] at hnot
          cases hnot }
    · exact h
  | closes closesHandle =>
    unfold CameraDeployment.step
    dsimp only
    split
    · exact h
    rename_i a ha
    have hrunning := h.running_of_actor ha
    exact {
      rising := h.rising
      file := h.file
      memory := h.memory
      actor := fun _ hnone => by cases hnone
      closing := fun b hb => by
        rcases mem_append.mp hb with hb | hb
        · exact h.closing b hb
        · rw [mem_singleton.mp hb]
          rfl
      stopped := fun hnot => absurd hrunning (by rw [hnot]; decide) }
  | happens turn written =>
    unfold CameraDeployment.step
    dsimp only
    split
    · exact h
    · rename_i a ha
      exact h.turned ha (turn_turned setup turn written d.store a)
  | lingers index turn written =>
    cases ha : d.closing[index]? with
    | none =>
      have hstep : d.step setup (.lingers index turn written) = d := by
        unfold CameraDeployment.step
        dsimp only
        rw [ha]
      rw [hstep]
      exact h
    | some a => exact h.lingers ha turn written
  | takes camera written =>
    unfold CameraDeployment.step
    dsimp only
    split
    · rename_i hrunning
      exact h.grows hrunning (nextEpoch_grows camera _ written d.store)
    · exact h
  | crashes => exact h.crash
  | crashesRecording camera replaced =>
    unfold CameraDeployment.step
    dsimp only
    split
    · rename_i hboth
      have hrunning : d.running = true := (Bool.and_eq_true_iff.mp hboth).1
      have hgrows := nextEpoch_grows camera setup.cameraId (.ok ()) d.store
      exact (h.grows hrunning hgrows).crash
    · exact h.crash

theorem Sound.distinct (h : d.Sound setup) :
    d.published.Nodup ∧ d.published.Pairwise fun ref ref' =>
      ref.streamEpoch ≤ ref'.streamEpoch := by
  refine ⟨h.rising.imp fun {ref ref'} hbefore heq => ?_, h.rising.imp fun hbefore => ?_⟩
  · subst heq
    unfold NumberedBefore at hbefore
    omega
  · unfold NumberedBefore at hbefore
    omega

/-- Over every run of connects, packets, restarts and crashes whose processes start on a file
    that they can read, or before any frame was published, the frames published are distinct
    and their epochs never decrease. -/
theorem frame_refs_never_reused (setup : SourceActorSetup) (file : OrderedDict CameraId Int)
    {events : List DeploymentEvent}
    (hsafe : Runs.Always (step setup) StartsSafely (new file) events)
    {before : List DeploymentEvent} (hbefore : before <+: events) :
    (run (step setup) (new file) before).published.Nodup ∧
      (run (step setup) (new file) before).published.Pairwise fun ref ref' =>
        ref.streamEpoch ≤ ref'.streamEpoch := by
  have hkeep : ∀ (d : CameraDeployment) event, d.Sound setup → d.StartsSafely event →
      (d.step setup event).Sound setup := fun _ event h hsafe => h.step event hsafe
  exact (reached_of_always hkeep (sound_new setup file) hsafe hbefore).distinct

/-- A process opens the dock's camera, connects and publishes one frame; the epoch file is
    written. -/
def dockSession : List DeploymentEvent :=
  [.opens {}, .happens { input := .wakes } (.ok ()), .happens { input := .opens {} } (.ok ()),
    .happens { input := .packet } (.ok ()), .happens { input := .acquires {} } (.ok ())]

/-- Two processes, the second on the file of the first. -/
def dockRestarted : List DeploymentEvent :=
  .starts .whole :: dockSession ++ [.crashes, .starts .whole] ++ dockSession

/-- Two processes, the second on a file that it cannot read. -/
def dockForgotten : List DeploymentEvent :=
  .starts .whole :: dockSession ++ [.crashes, .starts .lost] ++ dockSession

/-- The second process numbers on from the first. -/
theorem dock_restarted_never_reuses :
    (run (step dockSetup) (new ∅) dockRestarted).published.Nodup ∧
      (run (step dockSetup) (new ∅) dockRestarted).published.Pairwise
        fun ref ref' => ref.streamEpoch ≤ ref'.streamEpoch := by
  refine frame_refs_never_reused dockSetup ∅ ?_ (prefix_refl _)
  refine always_of_forall fun d event hevent => ?_
  simp only [dockRestarted, dockSession, mem_append, mem_cons, not_mem_nil,
    or_false] at hevent
  rcases hevent with (((rfl | rfl | rfl | rfl | rfl | rfl) | rfl | rfl) |
    rfl | rfl | rfl | rfl | rfl) <;> trivial

/-- The second process uses the first frame reference of the first again. -/
theorem dock_forgotten_reuses :
    ¬ (run (step dockSetup) (new ∅) dockForgotten).published.Nodup := by
  decide +kernel

end CameraDeployment

end VisionOs.Acquisition
