/-
  The seam: a session's frame becomes a frame of the platform, through a slot of the buffer.  The
  frame ledger: a descriptor of every frame that a session took, and what the pipeline reported of
  it.  Audit counters, health records, pages and summaries are left out.
-/
import VisionOs.Acquisition.Residents
import VisionOs.App.DecisionFrames
import VisionOs.Core.Frame
import VisionOs.Lib.Effect

namespace VisionOs.App

open Core Acquisition Lib Effect OrderedDict Option List FrameBuffer FrameDimensionsFields Except
open FrameRefFields

structure LiveFrame where
  cameraId : CameraId
  sequence : Int
  epoch : Int
  capturedAtNs : Int
  receivedAtNs : Int
  width : Int
  height : Int
  payload : Bytes
  deriving DecidableEq

def LiveFrame.refFields (frame : LiveFrame) : FrameRefFields where
  cameraId := frame.cameraId
  streamEpoch := frame.epoch
  frameSeq := frame.sequence

/-- What the code around a frame does: whether a stack is assembled, what `_provision` and the
    allocator do, the length of the slot's memory or what it raised, and the encoder. -/
structure IngestPorts where
  assembled : Bool := true
  provisioned : Raises Unit := .ok ()
  refusal : Option PyException := none
  memory : Raises Nat := .ok 0
  encoded : Raises Bytes := .ok []

structure FrameIngest where
  known : List CameraId := []
  buffer : FrameBuffer
  decisionFrames : DecisionFrameStore := .initial

namespace FrameIngest

def opened (config : BufferSection) : FrameIngest where
  buffer := { config }

def onBuffer {α : Type} (call : Buffering α) : Effect PyException FrameIngest α :=
  zoom buffer (fun buffer s => { s with buffer }) call

def ensureRegistered (ports : IngestPorts) (camera : CameraId) :
    Effect PyException FrameIngest Unit := do
  let s ← read
  if camera ∈ s.known then pure ()
  else do
    modify fun s =>
      { s with known := s.known ++ [camera], buffer := s.buffer.registerCamera camera }
    ofExcept ports.provisioned

def publishSlot (frame : LiveFrame) (slot : FrameSlot) (written : Int) :
    Effect PyException FrameIngest Frame := do
  let frameRef ← ofExcept (FrameRef.construct frame.refFields)
  let _time ← ofExcept (FrameTime.construct
    { pts := frame.sequence
      tCapture := ⟨frame.capturedAtNs⟩
      tCaptureUncertainty := ⟨0⟩
      tIngest := ⟨frame.receivedAtNs⟩
      tDecoded := ⟨frame.receivedAtNs⟩
      clockQuality := .unknown })
  let _dimensions ← ofExcept (FrameDimensions.construct
    { width := frame.width, height := frame.height })
  onBuffer (publish slot frameRef .unmaskedPermitted written)

/-- `_publish`, for a session of a camera.  Only the copy of the payload is guarded. -/
def publish (ports : IngestPorts) (camera : CameraId) (frame : LiveFrame) :
    Effect PyException FrameIngest Frame := do
  ensureRegistered ports camera
  let slot ← onBuffer (acquireSlot frame.cameraId .realtime ports.refusal)
  match ports.memory with
  | .error exc => do
    modify fun s => { s with buffer := s.buffer.discardSlot slot }
    raise exc
  | .ok room => publishSlot frame slot (min frame.payload.length room)

def remember (ports : IngestPorts) (frame : LiveFrame) (frameRef : FrameRef) (s : FrameIngest) :
    FrameIngest :=
  match ports.encoded with
  | .error _ => s
  | .ok jpeg => { s with
      decisionFrames := s.decisionFrames.remember frame.cameraId frameRef.str frame.capturedAtNs
        frame.width frame.height jpeg }

/-- `__call__`, up to the admission: the frame that was published, if one was. -/
def call (ports : IngestPorts) (camera : CameraId) (frame : LiveFrame) (s : FrameIngest) :
    Option Frame × FrameIngest :=
  if ports.assembled then
    match publish ports camera frame s with
    | (.error _, s) => (none, s)
    | (.ok published, s) => (some published, remember ports frame published.frameRef s)
  else (none, s)

end FrameIngest

/-! ## What publishing does -/

/-- The constructors of the reference and of the dimensions accept the frame. -/
def LiveFrame.Fits (frame : LiveFrame) : Prop :=
  (0 ≤ frame.epoch ∧ 0 ≤ frame.sequence) ∧ 0 < frame.width ∧ 0 < frame.height

instance (frame : LiveFrame) : Decidable frame.Fits := inferInstanceAs (Decidable (_ ∧ _))

namespace FrameIngest

inductive Publishes (frame : LiveFrame) (s : FrameIngest) (result : Raises Frame)
    (buffer : FrameBuffer) : Prop where
  | noSlot (exc : PyException) (raised : result = .error exc)
      (kept : FrameBuffer.Keeps s.buffer buffer)
  | discarded (exc : PyException) (raised : result = .error exc) (t : FrameBuffer)
      (kept : FrameBuffer.Keeps s.buffer t)
      (given : buffer = discardSlot { t with allocated := s.buffer.allocated + 1 }
        ⟨s.buffer.allocated, frame.cameraId⟩)
  | lost (exc : PyException) (raised : result = .error exc) (unfit : ¬ frame.Fits)
      (t : FrameBuffer) (kept : FrameBuffer.Keeps s.buffer t)
      (taken : buffer = { t with allocated := s.buffer.allocated + 1 })
  | published (published : Frame) (returned : result = .ok published) (fits : frame.Fits)
      (ref : published.frameRef.toFrameRefFields = frame.refFields)
      (pixels : published.pixels = s.buffer.allocated)
      (t : FrameBuffer) (kept : FrameBuffer.Keeps s.buffer t)
      (added : buffer = addEntry { t with allocated := s.buffer.allocated + 1 } published)

variable {ports : IngestPorts} {camera : CameraId} {frame : LiveFrame} {s : FrameIngest}

variable {buffer : FrameBuffer}

theorem onBuffer_of_ok {α : Type} {call : Buffering α} {a : α}
    (h : call s.buffer = (.ok a, buffer)) : onBuffer call s = (.ok a, { s with buffer }) := by
  show ((call s.buffer).1, { s with buffer := (call s.buffer).2 }) = _
  rw [h]

theorem wp_onBuffer {α : Type} {call : Buffering α} {Q : α → FrameIngest → Prop}
    {E : PyException → FrameIngest → Prop} :
    (onBuffer call).wp Q E s ↔
      (∀ a buffer, call s.buffer = (.ok a, buffer) → Q a { s with buffer }) ∧
        ∀ exc buffer, call s.buffer = (.error exc, buffer) → E exc { s with buffer } := by
  unfold wp onBuffer zoom
  rcases call s.buffer with ⟨_ | _, buffer⟩ <;> simp

theorem ensureRegistered_spec (ports : IngestPorts) (camera : CameraId) (s : FrameIngest) :
    (ensureRegistered ports camera).wp
      (fun _ s' => FrameBuffer.Keeps s.buffer s'.buffer ∧ s'.decisionFrames = s.decisionFrames)
      (fun _ s' => FrameBuffer.Keeps s.buffer s'.buffer ∧ s'.decisionFrames = s.decisionFrames)
      s := by
  unfold ensureRegistered
  rw [wp_bind, wp_read]
  split
  · exact ⟨.refl _, rfl⟩
  · rw [wp_bind, wp_modify, wp_ofExcept]
    have hregistered := keeps_registerCamera s.buffer camera
    exact ⟨fun _ _ => ⟨hregistered, rfl⟩, fun _ _ => ⟨hregistered, rfl⟩⟩

theorem publishSlot_spec (frame : LiveFrame) (slot : FrameSlot) (written : Int)
    (s : FrameIngest) :
    (publishSlot frame slot written).wp
      (fun published s' => frame.Fits ∧
        published.frameRef.toFrameRefFields = frame.refFields ∧
        published.pixels = slot.allocation ∧
        s' = { s with buffer := s.buffer.addEntry published })
      (fun _ s' => ¬ frame.Fits ∧ s' = s) s := by
  unfold publishSlot
  rw [wp_bind, wp_ofExcept]
  refine ⟨fun frameRef href => ?_, fun exc href => ⟨fun hfits => ?_, rfl⟩⟩
  · obtain ⟨haccepted, rfl⟩ := constructWith_eq_ok_iff.mp href
    rw [wp_bind, wp_ofExcept]
    refine ⟨fun _ _ => ?_, fun exc htime => ?_⟩
    · rw [wp_bind, wp_ofExcept]
      refine ⟨fun _ hdimensions => ?_, fun exc hdimensions => ⟨fun hfits => ?_, rfl⟩⟩
      · obtain ⟨hsize, -⟩ := constructWith_eq_ok_iff.mp hdimensions
        exact ⟨⟨postInit_eq_ok.mp haccepted,
          postInit_eq_ok.mp hsize⟩, rfl, rfl, rfl⟩
      · exact postInit_ne_ok hdimensions (postInit_eq_ok.mpr hfits.2)
    · -- an uncertainty of zero is accepted
      exact absurd (FrameTimeFields.postInit_eq_ok.mpr (le_refl 0)) (postInit_ne_ok htime)
  · exact postInit_ne_ok href (postInit_eq_ok.mpr hfits.1)

/-- What publishing a session's frame asks of the buffer. -/
theorem publish_spec (ports : IngestPorts) (camera : CameraId) (frame : LiveFrame)
    (s : FrameIngest) :
    Publishes frame s (publish ports camera frame s).1 (publish ports camera frame s).2.buffer ∧
      (publish ports camera frame s).2.decisionFrames = s.decisionFrames := by
  suffices hwp : (publish ports camera frame).wp
      (fun published s' => Publishes frame s (.ok published) s'.buffer ∧
        s'.decisionFrames = s.decisionFrames)
      (fun exc s' => Publishes frame s (.error exc) s'.buffer ∧
        s'.decisionFrames = s.decisionFrames) s by
    rcases wp_cases _ _ hwp with ⟨published, s', hrun, hspec⟩ | ⟨exc, s', hrun, hspec⟩
    · rw [hrun]
      exact hspec
    · rw [hrun]
      exact hspec
  unfold publish
  rw [wp_bind]
  refine wp_mono (fun _ t ht => ?_) (fun exc t ht => ⟨.noSlot exc rfl ht.1, ht.2⟩)
    (ensureRegistered_spec ports camera s)
  obtain ⟨hregistered, hframes⟩ := ht
  have hallocated := hregistered.allocated
  rw [wp_bind, wp_onBuffer]
  rcases acquireSlot_cases frame.cameraId .realtime ports.refusal t.buffer with
    ⟨exc, u, heq, hkept⟩ | ⟨u, heq, hkept⟩
  · rw [heq]
    refine ⟨(fun _ _ h => by cases h), fun exc' buffer h => ?_⟩
    obtain ⟨hexc, rfl⟩ := Prod.mk.inj h
    obtain rfl := error.inj hexc
    exact ⟨.noSlot exc rfl (hregistered.trans hkept), hframes⟩
  · rw [heq, hallocated]
    refine ⟨fun slot buffer h => ?_, (fun _ _ h => by cases h)⟩
    obtain ⟨hslot, rfl⟩ := Prod.mk.inj h
    obtain rfl := ok.inj hslot
    have hkept' := hregistered.trans hkept
    cases hmemory : ports.memory with
    | error exc => exact ⟨.discarded exc rfl u hkept' rfl, hframes⟩
    | ok room =>
      refine wp_mono (fun published s' h => ?_) (fun exc s' h => ?_)
        (publishSlot_spec frame _ _ _)
      · obtain ⟨hfits, href, hpixels, rfl⟩ := h
        exact ⟨.published published rfl hfits href hpixels u hkept' rfl, hframes⟩
      · obtain ⟨hunfit, rfl⟩ := h
        exact ⟨.lost exc rfl hunfit u hkept' rfl, hframes⟩

/-- The entries after a frame was handed to `_publish`: those from before, and the one that it was
    published as. -/
theorem Publishes.entries {result : Raises Frame}
    (h : Publishes frame s result buffer) {camera' : CameraId} {ref : FrameRef} {entry' : Entry}
    (hentry : buffer.entryAt camera' ref = some entry') :
    (∃ entry, s.buffer.entryAt camera' ref = some entry ∧ entry'.frame = entry.frame) ∨
      ∃ published, result = .ok published ∧ published.frameRef = ref ∧ entry'.frame = published := by
  cases h with
  | noSlot exc raised kept => exact .inl (kept.entries _ _ entry' hentry)
  | discarded exc raised t kept given =>
    subst given
    exact .inl (kept.entries _ _ entry' hentry)
  | lost exc raised unfit t kept taken =>
    subst taken
    exact .inl (kept.entries _ _ entry' hentry)
  | published published returned fits ref' pixels t kept added =>
    subst added
    rw [entryAt_addEntry] at hentry
    split at hentry
    · rename_i hsame
      obtain rfl := some.inj hentry
      exact .inr ⟨published, returned, hsame.2, rfl⟩
    · exact .inl (kept.entries _ _ entry' hentry)

theorem Publishes.ref {published : Frame} (h : Publishes frame s (.ok published) buffer) :
    published.frameRef.toFrameRefFields = frame.refFields := by
  cases h with
  | noSlot exc raised => cases raised
  | discarded exc raised => cases raised
  | lost exc raised => cases raised
  | published published' returned fits ref =>
    obtain rfl := ok.inj returned
    exact ref

structure Brings (ports : IngestPorts) (frame : LiveFrame) (s : FrameIngest)
    (after : Option Frame × FrameIngest) : Prop where
  ref : ∀ published, after.1 = some published →
    published.frameRef.toFrameRefFields = frame.refFields
  entries : ∀ camera ref entry', after.2.buffer.entryAt camera ref = some entry' →
    (∃ entry, s.buffer.entryAt camera ref = some entry ∧ entry'.frame = entry.frame) ∨
      ∃ published, after.1 = some published ∧ published.frameRef = ref ∧ entry'.frame = published
  frames : after.2.decisionFrames = s.decisionFrames ∨
    ∃ published jpeg, after.1 = some published ∧ ports.encoded = .ok jpeg ∧
      after.2.decisionFrames = s.decisionFrames.remember frame.cameraId published.frameRef.str
        frame.capturedAtNs frame.width frame.height jpeg

theorem call_brings (ports : IngestPorts) (camera : CameraId) (frame : LiveFrame)
    (s : FrameIngest) : Brings ports frame s (call ports camera frame s) := by
  unfold call
  split
  · obtain ⟨hpublishes, hframes⟩ := publish_spec ports camera frame s
    revert hpublishes hframes
    rcases publish ports camera frame s with ⟨exc | published, s'⟩
    · intro hpublishes hframes
      refine ⟨(fun _ h => by cases h), fun camera ref entry' hentry => ?_, .inl hframes⟩
      rcases hpublishes.entries hentry with hold | ⟨_, hok, -⟩
      · exact .inl hold
      · cases hok
    · intro hpublishes hframes
      have hbuffer : (remember ports frame published.frameRef s').buffer = s'.buffer := by
        unfold remember
        split <;> rfl
      refine ⟨fun _ h => some.inj h ▸ hpublishes.ref, fun camera ref entry' hentry => ?_, ?_⟩
      · rcases hpublishes.entries (hbuffer ▸ hentry) with hold | ⟨_, hok, href, hframe⟩
        · exact .inl hold
        · obtain rfl := ok.inj hok
          exact .inr ⟨published, rfl, href, hframe⟩
      · unfold remember
        cases hencoded : ports.encoded with
        | error exc => exact .inl hframes
        | ok jpeg =>
          refine .inr ⟨published, jpeg, rfl, rfl, ?_⟩
          rw [← hframes]
  · refine ⟨(fun _ h => by cases h), fun camera ref entry' hentry => ?_, .inl rfl⟩
    exact .inl ⟨entry', hentry, rfl⟩

end FrameIngest

open Core Lib

inductive SourceKind where
  | replay | live
  deriving DecidableEq, Repr

def defaultLedgerCapacity : Nat := 5000

def frameRefFor (cameraId : CameraId) (epoch sequence : Int) : String :=
  s!"{cameraId}:{epoch}:{sequence}"

structure FrameOutcome where
  processed : Bool := false
  countsReported : Bool := false
  processingMs : PyFloat := .finite 0
  detectionCount : Int := 0
  observationCount : Int := 0
  objectIds : List ObjectId := []
  evidenceRefs : List String := []
  error : String := ""
  deriving DecidableEq

structure FrameEntry where
  frameRef : String
  cameraId : CameraId
  sequence : Int
  epoch : Int
  capturedAtNs : Int
  receivedAtNs : Int
  width : Int
  height : Int
  sourceKind : SourceKind
  outcome : FrameOutcome := {}
  deriving DecidableEq

structure FrameReport where
  processingMs : Option PyFloat := none
  detectionCount : Option Int := none
  observationCount : Option Int := none
  objectIds : Option (List ObjectId) := none
  evidenceRefs : Option (List String) := none
  error : Option String := none

structure CameraLedger where
  entries : BoundedDeque FrameEntry := .empty defaultLedgerCapacity
  byRef : OrderedDict String FrameEntry := ∅

structure FrameLedger where
  cameras : OrderedDict CameraId CameraLedger := ∅

def LiveFrame.name (frame : LiveFrame) : String :=
  frameRefFor frame.cameraId frame.epoch frame.sequence

def FrameEntry.emitted (kind : SourceKind) (frame : LiveFrame) : FrameEntry where
  frameRef := frame.name
  cameraId := frame.cameraId
  sequence := frame.sequence
  epoch := frame.epoch
  capturedAtNs := frame.capturedAtNs
  receivedAtNs := frame.receivedAtNs
  width := frame.width
  height := frame.height
  sourceKind := kind

/-- The outcome with a report: what is not reported stays. -/
def FrameOutcome.report (o : FrameOutcome) (r : FrameReport) : FrameOutcome where
  processed := true
  countsReported := o.countsReported || r.detectionCount.isSome || r.observationCount.isSome
  processingMs := r.processingMs.getD o.processingMs
  detectionCount := r.detectionCount.getD o.detectionCount
  observationCount := r.observationCount.getD o.observationCount
  objectIds := r.objectIds.getD o.objectIds
  evidenceRefs := r.evidenceRefs.getD o.evidenceRefs
  error := r.error.getD o.error

namespace CameraLedger

/-- `record`, in the ledger of the camera.  The deque evicts silently; the index follows. -/
def record (l : CameraLedger) (entry : FrameEntry) : CameraLedger :=
  let byRef :=
    match l.entries.items with
    | evicted :: _ =>
      if l.entries.items.length = l.entries.bound then l.byRef.erase evicted.frameRef else l.byRef
    | [] => l.byRef
  { entries := l.entries.push entry, byRef := byRef.set entry.frameRef entry }

def replaceFirst (frameRef : String) (updated : FrameEntry) : List FrameEntry → List FrameEntry
  | [] => []
  | candidate :: rest =>
    if candidate.frameRef = frameRef then updated :: rest
    else candidate :: replaceFirst frameRef updated rest

theorem length_replaceFirst (frameRef : String) (updated : FrameEntry) (entries : List FrameEntry) :
    (replaceFirst frameRef updated entries).length = entries.length := by
  induction entries with
  | nil => rfl
  | cons candidate rest ih =>
    unfold replaceFirst
    split
    · rfl
    · exact congrArg Nat.succ ih

theorem mem_replaceFirst {frameRef : String} {updated entry : FrameEntry}
    {entries : List FrameEntry} (h : entry ∈ replaceFirst frameRef updated entries) :
    entry = updated ∨ entry ∈ entries := by
  induction entries with
  | nil => cases h
  | cons candidate rest ih =>
    unfold replaceFirst at h
    split at h
    · rcases mem_cons.mp h with hnew | hrest
      · exact .inl hnew
      · exact .inr (mem_cons_of_mem _ hrest)
    · rcases mem_cons.mp h with hold | hrest
      · exact .inr (hold ▸ mem_cons_self)
      · exact (ih hrest).imp_right (mem_cons_of_mem _)

def annotate (l : CameraLedger) (frameRef : String) (updated : FrameEntry) : CameraLedger where
  entries := {
    bound := l.entries.bound
    items := replaceFirst frameRef updated l.entries.items
    length_le := by
      rw [length_replaceFirst]
      exact l.entries.length_le }
  byRef := l.byRef.set frameRef updated

end CameraLedger

namespace FrameLedger

def record (s : FrameLedger) (kind : SourceKind) (frame : LiveFrame) : FrameLedger where
  cameras := s.cameras.set frame.cameraId
    (((s.cameras.get? frame.cameraId).getD {}).record (.emitted kind frame))

def find (s : FrameLedger) (frameRef : String) : Option (CameraId × FrameEntry) :=
  s.cameras.entries.findSome? fun e => (e.2.byRef.get? frameRef).map fun entry => (e.1, entry)

def annotate (s : FrameLedger) (frameRef : String) (report : FrameReport) : FrameLedger :=
  match s.find frameRef with
  | none => s
  | some (cameraId, existing) =>
    { cameras := s.cameras.modify cameraId fun l =>
        l.annotate frameRef { existing with outcome := existing.outcome.report report } }

def get (s : FrameLedger) (frameRef : String) : Option FrameEntry := (s.find frameRef).map (·.2)

end FrameLedger

/-! ## What the ledger holds -/

/-- The entry is of one of the frames that satisfy `P`, and has its name. -/
def FrameEntry.Of (P : SourceKind → LiveFrame → Prop) (entry : FrameEntry) : Prop :=
  ∃ kind frame, P kind frame ∧ { entry with outcome := {} } = FrameEntry.emitted kind frame

/-- Every entry is of a frame with the property, and is found under its own name. -/
structure FrameLedger.Holds (P : SourceKind → LiveFrame → Prop) (s : FrameLedger) : Prop where
  listed : ∀ camera l, s.cameras.get? camera = some l → ∀ entry ∈ l.entries.items, entry.Of P
  indexed : ∀ camera l frameRef entry, s.cameras.get? camera = some l →
    l.byRef.get? frameRef = some entry → entry.frameRef = frameRef ∧ entry.Of P

variable {P Q : SourceKind → LiveFrame → Prop} {entry : FrameEntry} {kind : SourceKind}
  {frame : LiveFrame} {s : FrameLedger}

theorem FrameEntry.of_emitted (h : P kind frame) : (FrameEntry.emitted kind frame).Of P :=
  ⟨kind, frame, h, rfl⟩

theorem FrameEntry.Of.mono (h : entry.Of P) (hmono : ∀ kind frame, P kind frame → Q kind frame) :
    entry.Of Q := by
  obtain ⟨kind, frame, hP, heq⟩ := h
  exact ⟨kind, frame, hmono kind frame hP, heq⟩

theorem FrameEntry.Of.report (h : entry.Of P) (outcome : FrameOutcome) :
    FrameEntry.Of P { entry with outcome } := h

namespace FrameLedger

theorem holds_new : ({} : FrameLedger).Holds P where
  listed _ _ h := by cases h
  indexed _ _ _ _ h := by cases h

theorem Holds.mono (h : s.Holds P) (hmono : ∀ kind frame, P kind frame → Q kind frame) :
    s.Holds Q where
  listed camera l hl entry hentry := (h.listed camera l hl entry hentry).mono hmono
  indexed camera l frameRef entry hl hentry :=
    ⟨(h.indexed camera l frameRef entry hl hentry).1,
      (h.indexed camera l frameRef entry hl hentry).2.mono hmono⟩

variable {frameRef : String} {camera : CameraId}

theorem find_eq_some (h : s.find frameRef = some (camera, entry)) :
    ∃ l, s.cameras.get? camera = some l ∧ l.byRef.get? frameRef = some entry := by
  obtain ⟨e, he, hentry⟩ := exists_of_findSome?_eq_some h
  obtain ⟨found, hfound, heq⟩ := map_eq_some_iff.mp hentry
  obtain ⟨rfl, rfl⟩ := Prod.mk.inj heq
  exact ⟨e.2, get?_eq_some_iff.mpr he, hfound⟩

theorem Holds.find (h : s.Holds P)
    (hfound : s.find frameRef = some (camera, entry)) :
    entry.frameRef = frameRef ∧ entry.Of P := by
  obtain ⟨l, hl, hentry⟩ := find_eq_some hfound
  exact h.indexed camera l frameRef entry hl hentry

theorem Holds.get (h : s.Holds P) (hget : s.get frameRef = some entry) :
    entry.frameRef = frameRef ∧ entry.Of P := by
  obtain ⟨⟨camera, found⟩, hfound, rfl⟩ := map_eq_some_iff.mp hget
  exact h.find hfound

/-- A frame that satisfies `P` may be recorded. -/
theorem Holds.record (h : s.Holds P) (hP : P kind frame) : (s.record kind frame).Holds P := by
  have hbefore : ∀ l, s.cameras.get? frame.cameraId = l →
      (∀ e ∈ ((l.getD {}).entries.items), FrameEntry.Of P e) ∧
        ∀ frameRef e, (l.getD {}).byRef.get? frameRef = some e →
          e.frameRef = frameRef ∧ FrameEntry.Of P e := by
    intro l hl
    cases l with
    | none => exact ⟨(fun e he => by cases he), fun _ e he => by cases he⟩
    | some l => exact ⟨h.listed _ l hl, fun frameRef e he => h.indexed _ l frameRef e hl he⟩
  obtain ⟨hlisted, hindexed⟩ := hbefore _ rfl
  generalize hl : (s.cameras.get? frame.cameraId).getD {} = l at hlisted hindexed
  constructor
  · intro camera l' hl' entry hentry
    rw [FrameLedger.record, hl, get?_set] at hl'
    split at hl'
    · obtain rfl := some.inj hl'
      rcases mem_append.mp (mem_of_mem_drop hentry) with hold | hnew
      · exact hlisted entry hold
      · rw [mem_singleton.mp hnew]
        exact FrameEntry.of_emitted hP
    · exact h.listed camera l' hl' entry hentry
  · intro camera l' frameRef entry hl' hentry
    rw [FrameLedger.record, hl, get?_set] at hl'
    split at hl'
    · obtain rfl := some.inj hl'
      have hset : (OrderedDict.get? (OrderedDict.set _ _ _) frameRef) = some entry := hentry
      rcases get?_of_set hset with ⟨hname, rfl⟩ | ⟨-, hset⟩
      · exact ⟨hname, FrameEntry.of_emitted hP⟩
      -- the index lost the evicted entry at most
      refine hindexed frameRef entry ?_
      split at hset
      · split at hset
        · exact (get?_of_erase hset).2
        · exact hset
      · exact hset
    · exact h.indexed camera l' frameRef entry hl' hentry

theorem Holds.annotate (h : s.Holds P) (frameRef : String) (report : FrameReport) :
    (s.annotate frameRef report).Holds P := by
  unfold FrameLedger.annotate
  split
  · exact h
  rename_i camera existing hfound
  obtain ⟨hname, hof⟩ := h.find hfound
  have hupdated := hof.report (existing.outcome.report report)
  constructor
  · intro camera' l' hl' entry hentry
    rw [get?_modify] at hl'
    split at hl'
    · obtain ⟨l, hl, rfl⟩ := map_eq_some_iff.mp hl'
      rcases CameraLedger.mem_replaceFirst hentry with rfl | hold
      · exact hupdated
      · exact h.listed camera' l hl entry hold
    · exact h.listed camera' l' hl' entry hentry
  · intro camera' l' frameRef' entry hl' hentry
    rw [get?_modify] at hl'
    split at hl'
    · obtain ⟨l, hl, rfl⟩ := map_eq_some_iff.mp hl'
      have hset : (l.byRef.set frameRef _).get? frameRef' = some entry := hentry
      rcases get?_of_set hset with ⟨hsame, rfl⟩ | ⟨-, hset⟩
      · exact ⟨hname.trans hsame, hupdated⟩
      · exact h.indexed camera' l frameRef' entry hl hset
    · exact h.indexed camera' l' frameRef' entry hl' hentry

end FrameLedger

end VisionOs.App
