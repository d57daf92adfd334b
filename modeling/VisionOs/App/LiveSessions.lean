/-
  The live runtime: sessions of cameras, each with a source that numbers its frames from zero, a
  sampler, a bounded queue and a consumer.  The buffer, the decision frames and the ledger outlive
  them.  A step is what one task does between two awaits.  A source's states, statistics and the
  reconnect policy are left out.
-/
import VisionOs.App.FrameIngest

namespace VisionOs.App

open Core Acquisition Lib List

structure LiveFrameQueue where
  capacity : Nat
  items : List LiveFrame := []
  closed : Bool := false

namespace LiveFrameQueue

def put (q : LiveFrameQueue) (frame : LiveFrame) : LiveFrameQueue :=
  if q.closed then q
  else if q.capacity ≤ q.items.length then { q with items := q.items.tail ++ [frame] }
  else { q with items := q.items ++ [frame] }

def close (q : LiveFrameQueue) : LiveFrameQueue := { q with closed := true }

def clear (q : LiveFrameQueue) : LiveFrameQueue := { q with items := [] }

end LiveFrameQueue

structure FrameSampler where
  intervalNs : Int
  lastNs : Option Int := none

namespace FrameSampler

def accepts (s : FrameSampler) (capturedAtNs : Int) : Bool :=
  s.lastNs.all fun last => s.intervalNs ≤ capturedAtNs - last

def note (s : FrameSampler) (capturedAtNs : Int) : FrameSampler :=
  { s with lastNs := some capturedAtNs }

def reset (s : FrameSampler) : FrameSampler := { s with lastNs := none }

end FrameSampler

/-! ## Sessions -/

inductive SessionState where
  | created | starting | running | paused | stopping | stopped | failed
  deriving DecidableEq, Repr

def SessionState.isActive (s : SessionState) : Bool := s = running ∨ s = paused

structure SessionSpec where
  cameraId : CameraId
  kind : SourceKind
  queueCapacity : Nat := 8
  intervalNs : Int := 0

inductive Hand where
  | empty
  | taken (frame : LiveFrame)
  | ingested (frame : LiveFrame)

structure VisionSession where
  cameraId : CameraId
  kind : SourceKind
  queue : LiveFrameQueue
  sampler : FrameSampler
  state : SessionState := .created
  /-- `_paused`. -/
  paused : Bool := false
  /-- `status.epoch` of the source. -/
  epoch : Nat := 0
  /-- The sequence number that the source gives its next frame. -/
  sequence : Nat := 0
  /-- Whether the producer still drains the source. -/
  producing : Bool := false
  /-- Whether the consumer's loop still runs. -/
  consuming : Bool := false
  hand : Hand := .empty

/-- What a source says of one frame that it decoded. -/
structure Picture where
  capturedAtNs : Int
  receivedAtNs : Int
  width : Int
  height : Int
  payload : Bytes

namespace VisionSession

/-- `session_for` and `start`: a session on a source that was made for it. -/
def start (spec : SessionSpec) : VisionSession where
  cameraId := spec.cameraId
  kind := spec.kind
  queue := { capacity := spec.queueCapacity }
  sampler := { intervalNs := spec.intervalNs }
  state := .running
  producing := true
  consuming := true

def frameOf (x : VisionSession) (picture : Picture) : LiveFrame where
  cameraId := x.cameraId
  sequence := x.sequence
  epoch := x.epoch
  capturedAtNs := picture.capturedAtNs
  receivedAtNs := picture.receivedAtNs
  width := picture.width
  height := picture.height
  payload := picture.payload

def yields (x : VisionSession) (picture : Picture) : VisionSession :=
  let frame := x.frameOf picture
  let x := { x with sequence := x.sequence + 1 }
  if x.sampler.accepts frame.capturedAtNs then
    { x with sampler := x.sampler.note frame.capturedAtNs, queue := x.queue.put frame }
  else x

/-- `_produce` of the source goes on after a lost connection, or after a pass over the file. -/
def reconnects (x : VisionSession) : VisionSession := { x with epoch := x.epoch + 1, sequence := 0 }

/-- `_produce` after the stream has ended. -/
def ends (x : VisionSession) : VisionSession :=
  { x with producing := false, queue := x.queue.close }

def drained (x : VisionSession) : VisionSession :=
  { x with
    consuming := false
    state := if x.state = .stopping ∨ x.state = .stopped then x.state else .stopped }

def pause (x : VisionSession) : VisionSession :=
  if x.state = .running then { x with paused := true, state := .paused } else x

def resume (x : VisionSession) : VisionSession :=
  if x.state = .paused then { x with paused := false, sampler := x.sampler.reset, state := .running }
  else x

/-- `stop`, up to the cancelling of the tasks. -/
def stop (x : VisionSession) : VisionSession :=
  if x.state = .stopped ∨ x.state = .created then { x with state := .stopped }
  else { x with state := .stopping, producing := false, queue := x.queue.close }

def stopped (x : VisionSession) : VisionSession :=
  if x.state = .stopping then
    { x with consuming := false, queue := x.queue.clear, state := .stopped }
  else x

end VisionSession

/-! ## The runtime -/

structure Sent where
  session : Nat
  kind : SourceKind
  frame : LiveFrame

/-- A frame that was published for a session, with what the encoder made of it. -/
structure Publication where
  session : Nat
  frame : LiveFrame
  published : Frame
  encoded : Raises Bytes

structure LiveRuntime where
  sessions : List VisionSession := []
  listed : List Nat := []
  ingest : FrameIngest
  ledger : FrameLedger := {}
  taken : List Sent := []
  published : List Publication := []

inductive RuntimeEvent where
  | starts (spec : SessionSpec)
  | yields (index : Nat) (picture : Picture)
  | reconnects (index : Nat)
  | ends (index : Nat)
  | takes (index : Nat)
  | ingests (index : Nat) (ports : IngestPorts)
  | finishes (index : Nat) (report : FrameReport)
  | abandons (index : Nat)
  | pauses (index : Nat)
  | resumes (index : Nat)
  | stops (index : Nat)
  | stopped (index : Nat)
  /-- `stop_all` forgets the sessions before it stops them. -/
  | clears
  | reads (call : FrameBuffer.ReaderCall)
  | attaches (cameraId : CameraId) (frameRef : String) (subject : DecisionSubject)
  | annotates (frameRef : String) (report : FrameReport)

namespace LiveRuntime

def opened (config : BufferSection) : LiveRuntime where
  ingest := .opened config

def modify (s : LiveRuntime) (index : Nat) (f : VisionSession → VisionSession) : LiveRuntime :=
  { s with sessions := s.sessions.modify index f }

def hasActive (s : LiveRuntime) (camera : CameraId) : Bool :=
  s.listed.any fun index =>
    s.sessions[index]?.any fun x => decide (x.cameraId = camera) && x.state.isActive

/-- `_start`.  A queue without capacity is refused by its constructor. -/
def start (s : LiveRuntime) (spec : SessionSpec) : LiveRuntime :=
  if s.hasActive spec.cameraId || spec.queueCapacity < 1 then s
  else { s with
    sessions := s.sessions ++ [.start spec]
    listed := s.listed ++ [s.sessions.length] }

/-- A turn of `_consume` for a session with a frame in its queue, or none. -/
def take (s : LiveRuntime) (index : Nat) (x : VisionSession) : LiveRuntime :=
  match x.queue.items with
  | [] => if x.queue.closed then s.modify index .drained else s
  | frame :: rest =>
    let s := s.modify index fun x => { x with queue := { x.queue with items := rest } }
    if x.paused then s
    else
      { s.modify index fun x => { x with hand := .taken frame } with
        ledger := s.ledger.record x.kind frame
        taken := s.taken ++ [⟨index, x.kind, frame⟩] }

def ingestFrame (s : LiveRuntime) (index : Nat) (ports : IngestPorts) (frame : LiveFrame) :
    LiveRuntime :=
  match FrameIngest.call ports frame.cameraId frame s.ingest with
  | (published, ingest) =>
    { s.modify index fun x => { x with hand := .ingested frame } with
      ingest
      published := s.published ++ (published.map fun published =>
        ⟨index, frame, published, ports.encoded⟩).toList }

/-- `_note_frame`, with the end of the handler. -/
def finish (s : LiveRuntime) (index : Nat) (frame : LiveFrame) (report : FrameReport) :
    LiveRuntime :=
  { s.modify index fun x => { x with hand := .empty } with
    ledger := s.ledger.annotate frame.name report }

/-- What an event leaves.  What cannot happen leaves the process alone. -/
def step (s : LiveRuntime) : RuntimeEvent → LiveRuntime
  | .starts spec => s.start spec
  | .yields index picture => s.modify index fun x => if x.producing then x.yields picture else x
  | .reconnects index => s.modify index fun x => if x.producing then x.reconnects else x
  | .ends index => s.modify index fun x => if x.producing then x.ends else x
  | .takes index =>
    match s.sessions[index]? with
    | some x =>
      match x.consuming, x.hand with
      | true, .empty => s.take index x
      | _, _ => s
    | none => s
  | .ingests index ports =>
    match s.sessions[index]?.map VisionSession.hand with
    | some (.taken frame) => s.ingestFrame index ports frame
    | _ => s
  | .finishes index report =>
    match s.sessions[index]? with
    | some x =>
      match x.consuming, x.hand with
      | true, .ingested frame => s.finish index frame report
      | _, _ => s
    | none => s
  | .abandons index =>
    s.modify index fun x => if x.consuming then x else { x with hand := .empty }
  | .pauses index => s.modify index .pause
  | .resumes index => s.modify index .resume
  | .stops index => s.modify index .stop
  | .stopped index => { s.modify index .stopped with listed := s.listed.erase index }
  | .clears => { s with listed := [] }
  | .reads call => { s with ingest := { s.ingest with buffer := s.ingest.buffer.serve call } }
  | .attaches cameraId frameRef subject => { s with ingest := { s.ingest with
      decisionFrames := (s.ingest.decisionFrames.attachSubject cameraId frameRef subject).1 } }
  | .annotates frameRef report => { s with ledger := s.ledger.annotate frameRef report }

end LiveRuntime

/-- The frame comes before a position of epoch and sequence. -/
def LiveFrame.Precedes (frame : LiveFrame) (epoch sequence : Int) : Prop :=
  frame.epoch < epoch ∨ (frame.epoch = epoch ∧ frame.sequence < sequence)

/-- The frame's numbers are counts. -/
def LiveFrame.Counted (frame : LiveFrame) : Prop := 0 ≤ frame.epoch ∧ 0 ≤ frame.sequence

theorem LiveFrame.Precedes.ne {frame frame' : LiveFrame}
    (h : frame.Precedes frame'.epoch frame'.sequence) :
    ¬ (frame.epoch = frame'.epoch ∧ frame.sequence = frame'.sequence) := by
  unfold LiveFrame.Precedes at h
  omega

theorem LiveFrameQueue.put_cases (q : LiveFrameQueue) (frame : LiveFrame) :
    (q.put frame).closed = q.closed ∧ (q.closed = true → (q.put frame).items = q.items) ∧
      ((q.put frame).items = q.items ∨
        ∃ kept, kept.Sublist q.items ∧ (q.put frame).items = kept ++ [frame]) := by
  unfold LiveFrameQueue.put
  split
  · exact ⟨rfl, fun _ => rfl, .inl rfl⟩
  · rename_i hopen
    split
    · exact ⟨rfl, fun h => absurd h hopen, .inr ⟨_, tail_sublist _, rfl⟩⟩
    · exact ⟨rfl, fun h => absurd h hopen, .inr ⟨_, .refl _, rfl⟩⟩

/-- The frames of a session: those it took come first, then those in its queue, then what its
    source gives next, and the frame in hand comes after all that were published. -/
structure SessionSound (taken : List Sent) (published : List Publication) (index : Nat)
    (x : VisionSession) : Prop where
  sent : ∀ t ∈ taken, t.session = index → t.frame.cameraId = x.cameraId ∧ t.frame.Counted ∧
    t.frame.Precedes x.epoch x.sequence ∧
      ∀ f ∈ x.queue.items, t.frame.Precedes f.epoch f.sequence
  queued : ∀ f ∈ x.queue.items, f.cameraId = x.cameraId ∧ f.Counted ∧ f.Precedes x.epoch x.sequence
  rising : x.queue.items.Pairwise fun f g => f.Precedes g.epoch g.sequence
  hand : ∀ f, x.hand = .taken f → (∃ t ∈ taken, t.session = index ∧ t.frame = f) ∧
    ∀ p ∈ published, p.session = index → p.frame.Precedes f.epoch f.sequence

/-- A session that can hand on nothing any more, and handed on nothing. -/
def Spent (taken : List Sent) (index : Nat) (x : VisionSession) : Prop :=
  (x.queue.closed = true ∧ x.queue.items = []) ∧ ∀ t ∈ taken, t.session ≠ index

structure KeepsNumbers (taken : List Sent) (published : List Publication) (index : Nat)
    (x x' : VisionSession) : Prop where
  camera : x'.cameraId = x.cameraId
  sound : SessionSound taken published index x → SessionSound taken published index x'
  spent : Spent taken index x → Spent taken index x'

variable {taken : List Sent} {published : List Publication} {index : Nat}
  {x x' : VisionSession}

theorem KeepsNumbers.refl (x : VisionSession) : KeepsNumbers taken published index x x :=
  ⟨rfl, id, id⟩

theorem keepsNumbers_of_same (hcamera : x'.cameraId = x.cameraId)
    (hnumbers : x'.epoch = x.epoch ∧ x'.sequence = x.sequence)
    (hitems : x'.queue.items = x.queue.items)
    (hclosed : x.queue.closed = true → x'.queue.closed = true)
    (hhand : ∀ f, x'.hand = .taken f → x.hand = .taken f) :
    KeepsNumbers taken published index x x' := by
  refine ⟨hcamera, fun h => ⟨?_, ?_, ?_, fun f hf => h.hand f (hhand f hf)⟩, fun h => ?_⟩
  · rw [hcamera, hnumbers.1, hnumbers.2, hitems]
    exact h.sent
  · rw [hcamera, hnumbers.1, hnumbers.2, hitems]
    exact h.queued
  · rw [hitems]
    exact h.rising
  · exact ⟨⟨hclosed h.1.1, hitems.trans h.1.2⟩, h.2⟩

/-! ## The producer -/

/-- A frame of the source comes after all that the session holds, in its queue too. -/
theorem keepsNumbers_yields (x : VisionSession) (picture : Picture) :
    KeepsNumbers taken published index x (x.yields picture) := by
  have hnext : ∀ f : LiveFrame, f.Precedes x.epoch x.sequence →
      f.Precedes x.epoch (x.sequence + 1 : Nat) := by
    intro f hf
    unfold LiveFrame.Precedes at hf ⊢
    omega
  have hnew : (x.frameOf picture).Precedes x.epoch (x.sequence + 1 : Nat) := by
    refine .inr ⟨rfl, ?_⟩
    show (x.sequence : Int) < (x.sequence + 1 : Nat)
    omega
  have hcounted : (x.frameOf picture).Counted := ⟨Int.natCast_nonneg _, Int.natCast_nonneg _⟩
  have hcounts : SessionSound taken published index x →
      SessionSound taken published index { x with sequence := x.sequence + 1 } := by
    intro h
    refine ⟨fun t ht hindex => ?_, fun f hf => ?_, h.rising, h.hand⟩
    · obtain ⟨hcamera, hcount, hbefore, hqueue⟩ := h.sent t ht hindex
      exact ⟨hcamera, hcount, hnext t.frame hbefore, hqueue⟩
    · obtain ⟨hcamera, hcount, hbefore⟩ := h.queued f hf
      exact ⟨hcamera, hcount, hnext f hbefore⟩
  unfold VisionSession.yields
  dsimp only
  split
  · obtain ⟨hclosed, hstays, hitems⟩ := x.queue.put_cases (x.frameOf picture)
    refine ⟨rfl, fun h => ?_, fun h => ⟨⟨hclosed.trans h.1.1, (hstays h.1.1).trans h.1.2⟩, h.2⟩⟩
    rcases hitems with hsame | ⟨kept, hsublist, hitems⟩
    · refine ⟨fun t ht hindex => ?_, fun f hf => ?_, ?_, h.hand⟩
      · have := (hcounts h).sent t ht hindex
        rw [hsame]
        exact this
      · exact (hcounts h).queued f (hsame ▸ hf)
      · rw [hsame]
        exact h.rising
    · -- the frame is last in the queue
      refine ⟨fun t ht hindex => ?_, fun f hf => ?_, ?_, h.hand⟩
      · obtain ⟨hcamera, hcount, hbefore, hqueue⟩ := h.sent t ht hindex
        refine ⟨hcamera, hcount, hnext t.frame hbefore, fun f hf => ?_⟩
        rcases mem_append.mp (hitems ▸ hf) with hold | hlast
        · exact hqueue f (hsublist.subset hold)
        · rw [mem_singleton.mp hlast]
          exact hbefore
      · rcases mem_append.mp (hitems ▸ hf) with hold | hlast
        · exact (hcounts h).queued f (hsublist.subset hold)
        · rw [mem_singleton.mp hlast]
          exact ⟨rfl, hcounted, hnew⟩
      · rw [hitems, pairwise_append]
        refine ⟨h.rising.sublist hsublist, pairwise_singleton _ _, fun f hf g hg => ?_⟩
        rw [mem_singleton.mp hg]
        exact (h.queued f (hsublist.subset hf)).2.2
  · exact ⟨rfl, hcounts, id⟩

theorem keepsNumbers_reconnects (x : VisionSession) :
    KeepsNumbers taken published index x x.reconnects := by
  have hnext : ∀ f : LiveFrame, f.Precedes x.epoch x.sequence →
      f.Precedes (x.epoch + 1 : Nat) (0 : Nat) := by
    intro f hf
    unfold LiveFrame.Precedes at hf ⊢
    omega
  refine ⟨rfl, fun h => ⟨fun t ht hindex => ?_, fun f hf => ?_, h.rising, h.hand⟩, id⟩
  · obtain ⟨hcamera, hcount, hbefore, hqueue⟩ := h.sent t ht hindex
    exact ⟨hcamera, hcount, hnext t.frame hbefore, hqueue⟩
  · obtain ⟨hcamera, hcount, hbefore⟩ := h.queued f hf
    exact ⟨hcamera, hcount, hnext f hbefore⟩

theorem keepsNumbers_ends (x : VisionSession) : KeepsNumbers taken published index x x.ends :=
  keepsNumbers_of_same rfl ⟨rfl, rfl⟩ rfl (fun _ => rfl) fun _ h => h

theorem keepsNumbers_drained (x : VisionSession) : KeepsNumbers taken published index x x.drained :=
  keepsNumbers_of_same rfl ⟨rfl, rfl⟩ rfl id fun _ h => h

theorem keepsNumbers_pause (x : VisionSession) : KeepsNumbers taken published index x x.pause := by
  unfold VisionSession.pause
  split
  · exact keepsNumbers_of_same rfl ⟨rfl, rfl⟩ rfl id fun _ h => h
  · exact .refl x

theorem keepsNumbers_resume (x : VisionSession) :
    KeepsNumbers taken published index x x.resume := by
  unfold VisionSession.resume
  split
  · exact keepsNumbers_of_same rfl ⟨rfl, rfl⟩ rfl id fun _ h => h
  · exact .refl x

theorem keepsNumbers_stop (x : VisionSession) : KeepsNumbers taken published index x x.stop := by
  unfold VisionSession.stop
  split
  · exact keepsNumbers_of_same rfl ⟨rfl, rfl⟩ rfl id fun _ h => h
  · exact keepsNumbers_of_same rfl ⟨rfl, rfl⟩ rfl (fun _ => rfl) fun _ h => h

theorem keepsNumbers_sublist {items : List LiveFrame} (h : items.Sublist x.queue.items) :
    KeepsNumbers taken published index x { x with queue := { x.queue with items } } := by
  refine ⟨rfl, fun hx => ⟨fun t ht hindex => ?_, fun f hf => hx.queued f (h.subset hf),
    hx.rising.sublist h, hx.hand⟩, fun hspent => ⟨⟨hspent.1.1, ?_⟩, hspent.2⟩⟩
  · obtain ⟨hcamera, hcount, hbefore, hqueue⟩ := hx.sent t ht hindex
    exact ⟨hcamera, hcount, hbefore, fun f hf => hqueue f (h.subset hf)⟩
  · exact sublist_nil.mp (hspent.1.2 ▸ h)

theorem keepsNumbers_stopped (x : VisionSession) :
    KeepsNumbers taken published index x x.stopped := by
  unfold VisionSession.stopped
  split
  · have hcleared : KeepsNumbers taken published index x { x with queue := x.queue.clear } :=
      keepsNumbers_sublist (nil_sublist _)
    exact ⟨rfl, fun h => ⟨(hcleared.sound h).sent, (hcleared.sound h).queued,
      (hcleared.sound h).rising, (hcleared.sound h).hand⟩, fun h => hcleared.spent h⟩
  · exact .refl x

theorem keepsNumbers_hand {hand : Hand} (h : ∀ f, hand ≠ .taken f) :
    KeepsNumbers taken published index x { x with hand } :=
  keepsNumbers_of_same rfl ⟨rfl, rfl⟩ rfl id fun f hf => absurd hf (h f)

theorem mem_concat {t t' : Sent} (h : t ∈ taken ++ [t']) : t ∈ taken ∨ t = t' :=
  (mem_append.mp h).imp_right mem_singleton.mp

theorem SessionSound.taken_other (h : SessionSound taken published index x) {t' : Sent}
    (hother : t'.session ≠ index) : SessionSound (taken ++ [t']) published index x := by
  refine ⟨fun t ht hindex => ?_, h.queued, h.rising, fun f hf => ?_⟩
  · rcases mem_concat ht with hold | rfl
    · exact h.sent t hold hindex
    · exact absurd hindex hother
  · obtain ⟨⟨t, ht, htf⟩, hpublished⟩ := h.hand f hf
    exact ⟨⟨t, mem_append_left _ ht, htf⟩, hpublished⟩

theorem Spent.taken_other (h : Spent taken index x) {t' : Sent} (hother : t'.session ≠ index) :
    Spent (taken ++ [t']) index x := by
  refine ⟨h.1, fun t ht => ?_⟩
  rcases mem_concat ht with hold | rfl
  · exact h.2 t hold
  · exact hother

/-- The consumer takes the oldest frame of the queue: it comes after all that were taken, so after
    all that were published. -/
theorem SessionSound.takes (h : SessionSound taken published index x) {frame : LiveFrame}
    {rest : List LiveFrame} (hitems : x.queue.items = frame :: rest)
    (htaken : ∀ p ∈ published, ∃ t ∈ taken, t.session = p.session ∧ t.frame = p.frame) :
    SessionSound (taken ++ [⟨index, x.kind, frame⟩]) published index
      { x with queue := { x.queue with items := rest }, hand := .taken frame } := by
  have hmem : frame ∈ x.queue.items := by
    rw [hitems]
    exact mem_cons_self
  have hrest : ∀ f ∈ rest, f ∈ x.queue.items := by
    rw [hitems]
    exact fun f hf => mem_cons_of_mem _ hf
  obtain ⟨hfirst, hrising⟩ := pairwise_cons.mp (hitems ▸ h.rising)
  obtain ⟨hcamera, hcounted, hnext⟩ := h.queued frame hmem
  refine ⟨fun t ht hindex => ?_, fun f hf => h.queued f (hrest f hf), hrising, fun f hf => ?_⟩
  · rcases mem_concat ht with hold | rfl
    · obtain ⟨hcam, hcount, hbefore, hqueue⟩ := h.sent t hold hindex
      exact ⟨hcam, hcount, hbefore, fun f hf => hqueue f (hrest f hf)⟩
    · exact ⟨hcamera, hcounted, hnext, hfirst⟩
  · obtain rfl := Hand.taken.inj hf
    refine ⟨⟨_, mem_append_right _ mem_cons_self, rfl, rfl⟩, fun p hp hindex => ?_⟩
    obtain ⟨t, ht, htp, htf⟩ := htaken p hp
    rw [← htf]
    exact (h.sent t ht (htp.trans hindex)).2.2.2 _ hmem

/-- A frame that another session published, or that came of the frame in hand, leaves the order of
    a session that has no frame in hand for the worker. -/
theorem SessionSound.publishes {published' : List Publication}
    (h : SessionSound taken published index x)
    (hnew : ∀ p ∈ published', p ∈ published ∨ p.session ≠ index) :
    SessionSound taken published' index x := by
  refine ⟨h.sent, h.queued, h.rising, fun f hf => ?_⟩
  obtain ⟨htaken, hpublished⟩ := h.hand f hf
  refine ⟨htaken, fun p hp hindex => ?_⟩
  rcases hnew p hp with hold | hother
  · exact hpublished p hold hindex
  · exact absurd hindex hother

theorem SessionSound.ingested (h : SessionSound taken published index x) (frame : LiveFrame)
    (published' : List Publication) :
    SessionSound taken published' index { x with hand := .ingested frame } :=
  ⟨h.sent, h.queued, h.rising, fun _ hf => by cases hf⟩

end VisionOs.App
