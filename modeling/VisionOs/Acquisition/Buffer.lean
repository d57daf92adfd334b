/-
  `FrameBuffer`: bounded frame storage whose lifetime is governed by leases and pins, both kept as
  borrows of an entry's pixels.  Only `advance` moves the clock.  What no modelled function reads
  of a frame is left out, and so are events, metrics and telemetry counts.
-/
import VisionOs.Core.Ids
import VisionOs.Lib.Borrows
import VisionOs.Lib.OrderedDict

namespace VisionOs.Acquisition

open Core Lib Function

inductive PrivacyState where
  | masked | unmaskedPermitted | maskFailed
  deriving DecidableEq, Repr

namespace PrivacyState

def value : PrivacyState → String
  | masked => "masked"
  | unmaskedPermitted => "unmasked_permitted"
  | maskFailed => "mask_failed"

def emittable (p : PrivacyState) : Bool := p ≠ maskFailed

end PrivacyState

inductive SourceSemantics where
  | realtime | archival | discrete
  deriving DecidableEq, Repr

def SourceSemantics.mayDropFrames (s : SourceSemantics) : Bool := s = realtime

abbrev AllocationId := Nat

structure FrameFields where
  frameRef : FrameRef
  pixels : AllocationId
  bytesWritten : Int
  privacyState : PrivacyState
  deriving DecidableEq

def FrameFields.postInit (f : FrameFields) : Raises Unit :=
  require (f.privacyState.emittable = true)
    (.valueError (s!"refusing to construct Frame {f.frameRef.str} with privacy_state=" ++
      s!"{f.privacyState.value}; masking failures must drop the frame"))

structure Frame extends FrameFields where
  accepted : toFrameFields.postInit = .ok ()
  deriving DecidableEq

/-- `Frame(...)`. -/
def Frame.construct : FrameFields → Raises Frame := constructWith FrameFields.postInit Frame.mk

/-! ## What the buffer holds -/

structure BufferSectionFields where
  slotsPerCamera : Int := 4
  leaseDeadlineMs : Int := 2000
  historyWindowMs : Int := 1500
  deriving DecidableEq, Repr

def BufferSectionFields.postInit (c : BufferSectionFields) : Raises Unit := do
  require (¬ c.slotsPerCamera < 1) (.valueError "buffer.slots_per_camera must be >= 1")
  require (¬ c.leaseDeadlineMs < 1) (.valueError "buffer.lease_deadline_ms must be >= 1")

structure BufferSection extends BufferSectionFields where
  accepted : toBufferSectionFields.postInit = .ok ()
  deriving DecidableEq

structure FrameSlot where
  allocation : AllocationId
  cameraId : CameraId
  deriving DecidableEq, Repr

inductive HoldKind where
  | lease | pin
  deriving DecidableEq, Repr

/-- What a lease or a pin is on: the entry of a frame, with its pixels, for a holder or a
    reason. -/
structure Held where
  frameRef : FrameRef
  allocation : AllocationId
  purpose : String
  deriving DecidableEq

structure Entry where
  frame : Frame
  publishedAt : Instant
  holds : HoldKind → List Nat := fun _ => []

namespace Entry

def allocation (e : Entry) : AllocationId := e.frame.pixels

def reclaimable (e : Entry) : Bool := (e.holds .lease).isEmpty && (e.holds .pin).isEmpty

/-- `entry.leases.append(lease)` or `entry.pins.append(handle)`. -/
def addHold (e : Entry) (kind : HoldKind) (id : Nat) : Entry :=
  { e with holds := update e.holds kind (e.holds kind ++ [id]) }

def removeHold (e : Entry) (kind : HoldKind) (id : Nat) : Entry :=
  { e with holds := update e.holds kind ((e.holds kind).erase id) }

end Entry

structure CameraRing where
  capacity : Int
  entries : OrderedDict FrameRef Entry := ∅
  order : List FrameRef := []

structure FrameBuffer where
  config : BufferSection
  rings : OrderedDict CameraId CameraRing := ∅
  borrows : HoldKind → Borrows Held := fun _ => {}
  allocated : Nat := 0
  released : List AllocationId := []
  now : Instant := ⟨0⟩

abbrev Buffering (α : Type) := FrameBuffer → Raises α × FrameBuffer

namespace FrameBuffer

/-- `self._rings[camera]._entries.get(ref)`. -/
def entryAt (s : FrameBuffer) (camera : CameraId) (ref : FrameRef) : Option Entry :=
  (s.rings.get? camera).bind fun ring => ring.entries.get? ref

def modifyEntry (s : FrameBuffer) (camera : CameraId) (ref : FrameRef) (f : Entry → Entry) :
    FrameBuffer :=
  { s with rings := s.rings.modify camera fun ring =>
      { ring with entries := ring.entries.modify ref f } }

def removeEntry (s : FrameBuffer) (camera : CameraId) (ref : FrameRef) : FrameBuffer :=
  { s with rings := s.rings.modify camera fun ring =>
      { ring with entries := ring.entries.erase ref, order := ring.order.erase ref } }

def releaseAllocation (s : FrameBuffer) (allocation : AllocationId) : FrameBuffer :=
  { s with released := s.released ++ [allocation] }

def historyNs (s : FrameBuffer) : Int := s.config.historyWindowMs * 1000000

def registerCamera (s : FrameBuffer) (camera : CameraId) : FrameBuffer :=
  match s.rings.get? camera with
  | some _ => s
  | none => { s with rings := s.rings.set camera { capacity := s.config.slotsPerCamera } }

def forgotten : List FrameRef → OrderedDict FrameRef Entry → List AllocationId
  | [], _ => []
  | ref :: rest, entries =>
    match entries.get? ref with
    | none => forgotten rest entries
    | some entry => entry.allocation :: forgotten rest (entries.erase ref)

def forgetCamera (s : FrameBuffer) (camera : CameraId) : FrameBuffer :=
  match s.rings.get? camera with
  | none => s
  | some ring => { s with
      rings := s.rings.erase camera
      released := s.released ++ forgotten ring.order ring.entries }

def endHold (kind : HoldKind) (camera : CameraId) (ref : FrameRef) (standing : Standing)
    (s : FrameBuffer) (id : Nat) : FrameBuffer :=
  { s.modifyEntry camera ref (·.removeHold kind id) with
    borrows := update s.borrows kind ((s.borrows kind).finish id standing) }

def expiredHolds (s : FrameBuffer) (kind : HoldKind) (entry : Entry) : List Nat :=
  (entry.holds kind).filter fun id =>
    ((s.borrows kind).handed[id]?).any fun borrow => borrow.deadline < s.now.ns

def breakExpired (kind : HoldKind) (s : FrameBuffer) (camera : CameraId) (ref : FrameRef) :
    FrameBuffer :=
  match s.entryAt camera ref with
  | none => s
  | some entry => (s.expiredHolds kind entry).foldl (endHold kind camera ref .broken) s

def breakExpiredLeases : FrameBuffer → CameraId → FrameRef → FrameBuffer := breakExpired .lease

def expirePins : FrameBuffer → CameraId → FrameRef → FrameBuffer := breakExpired .pin

def endExpired (s : FrameBuffer) (camera : CameraId) (ref : FrameRef) : FrameBuffer :=
  (s.breakExpiredLeases camera ref).expirePins camera ref

def reclaim (s : FrameBuffer) (camera : CameraId) (ref : FrameRef) (entry : Entry) : FrameBuffer :=
  (s.removeEntry camera ref).releaseAllocation entry.allocation

def age (s : FrameBuffer) (entry : Entry) : Int := s.now.ns - entry.publishedAt.ns

/-! ## Writing -/

def evictOldest (camera : CameraId) (semantics : SourceSemantics) :
    List FrameRef → FrameBuffer → Bool × FrameBuffer
  | [], s => (false, s)
  | ref :: rest, s =>
    match s.entryAt camera ref with
    | none => evictOldest camera semantics rest (s.removeEntry camera ref)
    | some _ =>
      let s := s.endExpired camera ref
      match s.entryAt camera ref with
      | none => evictOldest camera semantics rest s
      | some entry =>
        -- archival sources keep what the history window still covers
        if !entry.reclaimable || (!semantics.mayDropFrames && s.age entry ≤ s.historyNs) then
          evictOldest camera semantics rest s
        else (true, s.reclaim camera ref entry)

def allocate (camera : CameraId) (refusal : Option PyException) : Buffering FrameSlot := fun s =>
  match refusal with
  | none => (.ok ⟨s.allocated, camera⟩, { s with allocated := s.allocated + 1 })
  | some exc => (.error exc, s)

/-- `len(ring._order)`. -/
def load (s : FrameBuffer) (camera : CameraId) : Nat :=
  match s.rings.get? camera with
  | none => 0
  | some ring => ring.order.length

/-- `acquire_slot`.  `refusal` is what the allocator raises, if it does. -/
def acquireSlot (camera : CameraId) (semantics : SourceSemantics)
    (refusal : Option PyException) : Buffering FrameSlot := fun s =>
  let s := s.registerCamera camera
  match s.rings.get? camera with
  | none => allocate camera refusal s
  | some ring =>
    if ring.capacity ≤ ring.order.length then
      match evictOldest camera semantics ring.order s with
      | (true, s) => allocate camera refusal s
      | (false, s) =>
        let held := s.load camera
        (.error (.poolExhaustedError
          s!"no capacity for camera '{camera}' ({held}/{ring.capacity} slots held)"), s)
    else allocate camera refusal s

def discardSlot (s : FrameBuffer) (slot : FrameSlot) : FrameBuffer :=
  s.releaseAllocation slot.allocation

def addEntry (s : FrameBuffer) (frame : Frame) : FrameBuffer :=
  let s := s.registerCamera frame.frameRef.cameraId
  { s with rings := s.rings.modify frame.frameRef.cameraId fun ring => { ring with
      entries := ring.entries.set frame.frameRef { frame, publishedAt := s.now }
      order := ring.order ++ [frame.frameRef] } }

def publish (slot : FrameSlot) (frameRef : FrameRef) (privacyState : PrivacyState)
    (bytesWritten : Int) : Buffering Frame := fun s =>
  if !privacyState.emittable then
    (.error (.valueError
      s!"refusing to publish {frameRef.str} with privacy_state={privacyState.value}"),
      s.discardSlot slot)
  else
    match Frame.construct { frameRef, pixels := slot.allocation, bytesWritten, privacyState } with
    | .error exc => (.error exc, s)
    | .ok frame => (.ok frame, s.addEntry frame)

def hold (kind : HoldKind) (frameRef : FrameRef) (purpose : String) (span : Duration) :
    Buffering Nat := fun s =>
  let s := s.registerCamera frameRef.cameraId
  match s.entryAt frameRef.cameraId frameRef with
  | none => (.error (.frameUnavailableError s!"frame {frameRef.str} is not resident"), s)
  | some entry =>
    let id := (s.borrows kind).handed.length
    (.ok id, { s.modifyEntry frameRef.cameraId frameRef (·.addHold kind id) with
      borrows := update s.borrows kind
        ((s.borrows kind).lend ⟨frameRef, entry.allocation, purpose⟩ (s.now.ns + span.ns)) })

def acquire (frameRef : FrameRef) (holderId : String) (deadline : Option Duration) :
    Buffering Nat := fun s =>
  hold .lease frameRef holderId (deadline.getD ⟨s.config.leaseDeadlineMs * 1000000⟩) s

def pin (frameRef : FrameRef) (ttl : Duration) (reason : String) : Buffering Nat :=
  hold .pin frameRef reason ttl

def giveBack (kind : HoldKind) (s : FrameBuffer) (id : Nat) : FrameBuffer :=
  match (s.borrows kind).handed[id]? with
  | none => s
  | some borrow =>
    if borrow.isOut then
      endHold kind borrow.resource.frameRef.cameraId borrow.resource.frameRef .returned s id
    else s

def release : FrameBuffer → Nat → FrameBuffer := giveBack .lease

def unpin (s : FrameBuffer) (id : Nat) : FrameBuffer :=
  match (s.borrows .pin).handed[id]? with
  | none => s
  | some borrow =>
    if borrow.isOut then giveBack .pin (s.registerCamera borrow.resource.frameRef.cameraId) id
    else s

def sweepEntry (camera : CameraId) (acc : Nat × FrameBuffer) (ref : FrameRef) : Nat × FrameBuffer :=
  match acc.2.entryAt camera ref with
  | none => acc
  | some _ =>
    let s := acc.2.endExpired camera ref
    match s.entryAt camera ref with
    | none => (acc.1, s)
    | some entry =>
      if s.historyNs < s.age entry ∧ entry.reclaimable = true then
        (acc.1 + 1, s.reclaim camera ref entry)
      else (acc.1, s)

def sweepRing (acc : Nat × FrameBuffer) (camera : CameraId) : Nat × FrameBuffer :=
  match acc.2.rings.get? camera with
  | none => acc
  | some ring => ring.order.foldl (sweepEntry camera) acc

def sweep (s : FrameBuffer) : Nat × FrameBuffer := s.rings.keys.foldl sweepRing (0, s)

def advance (s : FrameBuffer) (elapsed : Nat) : FrameBuffer :=
  { s with now := ⟨s.now.ns + elapsed⟩ }

end FrameBuffer

end VisionOs.Acquisition
