/-
  One consumer's live stream, and the fan-out to the subscriptions, of which only that of
  observations looks at the tenant.  A call that reads the clock takes the instant it reads.  A
  `set` of ids is a finset: the order in which one message reaches its audience is left open.
-/
import VisionOs.Exposure.Messages
import VisionOs.Lib.OrderedDict
import VisionOs.Lib.Runs

namespace VisionOs.Exposure

open Core Lib OrderedDict List Option

structure SubscriptionStats where
  delivered : Nat := 0
  dropped : Nat := 0
  gaps : Nat := 0
  conflated : Nat := 0
  heartbeats : Nat := 0
  deriving DecidableEq, Repr

structure Subscription where
  subscriptionId : String
  scope : Scope
  filter : SubscriptionFilter
  policy : DeliveryPolicy
  stats : SubscriptionStats := {}
  queue : List Message := []
  conflated : OrderedDict ObjectId Observation := ∅
  cursor : Option String := none
  pendingGap : Option Gap := none
  lastHeartbeat : Instant
  closed : Bool := false

namespace Subscription

def init (subscriptionId : String) (scope : Scope) (filter : SubscriptionFilter)
    (policy : DeliveryPolicy) (now : Instant) : Subscription :=
  { subscriptionId, scope, filter, policy, cursor := policy.resumeFrom, lastHeartbeat := now }

/-- The queue has no room. -/
def Full (s : Subscription) : Prop := s.policy.queueCapacity ≤ s.queue.length

instance (s : Subscription) : Decidable s.Full := inferInstanceAs (Decidable (_ ≤ _))

def momentOf (message : Message) (now : Instant) : Instant := message.momentOf.getD now

def noteGap (s : Subscription) (now : Instant) (around : Message) (reason : GapReason)
    (missed : Nat) : Subscription :=
  let moment := momentOf around now
  match s.pendingGap with
  | some gap =>
    { s with
      pendingGap := some {
        start := gap.start
        finish := moment
        reason := gap.reason
        cameras := gap.cameras
        observationsMissed := some (gap.observationsMissed.getD 0 + missed)
        recoverable := gap.recoverable } }
  | none =>
    { s with
      pendingGap := some {
        start := moment
        finish := moment
        reason
        cameras := around.camerasOf
        observationsMissed := some missed
        recoverable := reason.recoverable }
      stats := { s.stats with gaps := s.stats.gaps + 1 } }

def conflatable : Message → Option (ObjectId × Observation)
  | .observation o => o.objectId.map (·, o)
  | .delta _ | .gap _ | .heartbeat _ | .coverage _ => none

def conflate (s : Subscription) (now : Instant) (message : Message) : Subscription × Bool :=
  match conflatable message with
  | none =>
    (({ s with stats := { s.stats with dropped := s.stats.dropped + 1 } }).noteGap now message
      .slowConsumer 1, false)
  | some (objectId, observation) =>
    let previous := s.conflated.get? objectId
    let kept := { s with conflated := s.conflated.set objectId observation }
    let noted := if previous.isNone then kept.noteGap now message .slowConsumer 0 else kept
    ({ noted with stats := { noted.stats with conflated := noted.stats.conflated + 1 } }, true)

def overflow (s : Subscription) (now : Instant) (message : Message) : Subscription × Bool :=
  match s.policy.overflow with
  | .conflate => s.conflate now message
  | .disconnect =>
    (({ s with closed := true }).noteGap now message .slowConsumer s.queue.length, false)
  | .dropWithGap =>
    match s.queue with
    -- a full queue holds a message, since its capacity is positive
    | [] => (s, true)
    | dropped :: rest =>
      (({ s with
          queue := rest ++ [message]
          stats := { s.stats with dropped := s.stats.dropped + 1 } }).noteGap now dropped
        .slowConsumer 1, true)

def offer (s : Subscription) (now : Instant) (message : Message) : Subscription × Bool :=
  if s.closed then (s, false)
  else if s.Full then s.overflow now message
  else
    ({ s with
      queue := s.queue ++ [message]
      stats := { s.stats with delivered := s.stats.delivered + 1 } }, true)

def ahead (s : Subscription) : List Message :=
  s.pendingGap.toList.map .gap ++ s.conflated.values.map .observation

def room (s : Subscription) (limit : Int) : Nat := (limit - s.ahead.length).toNat

def drain (s : Subscription) (limit : Int) : Subscription × List Message :=
  let out := s.ahead ++ s.queue.take (s.room limit)
  ({ s with
    pendingGap := none
    conflated := ∅
    queue := s.queue.drop (s.room limit)
    cursor := (out.reverse.findSome? Message.cursorOf).or s.cursor }, out)

def close (s : Subscription) : Subscription :=
  { s with closed := true, queue := [], conflated := ∅ }

/-! ## What an offer changes -/

theorem pendingGap_noteGap (s : Subscription) (now : Instant) (around : Message)
    (reason : GapReason) (missed : Nat) :
    (s.noteGap now around reason missed).pendingGap = some (match s.pendingGap with
      | some gap => { gap with
          finish := momentOf around now
          observationsMissed := some (gap.observationsMissed.getD 0 + missed) }
      | none => {
          start := momentOf around now, finish := momentOf around now, reason
          cameras := around.camerasOf, observationsMissed := some missed
          recoverable := reason.recoverable }) := by
  unfold noteGap
  cases s.pendingGap <;> rfl

theorem noteGap_frame (s s' : Subscription) (h : s'.pendingGap = s.pendingGap) (now : Instant)
    (around : Message) (reason : GapReason) (missed : Nat) :
    let noted := s'.noteGap now around reason missed
    noted.subscriptionId = s'.subscriptionId ∧ noted.scope = s'.scope ∧
      noted.filter = s'.filter ∧ noted.policy = s'.policy ∧ noted.queue = s'.queue ∧
      noted.conflated = s'.conflated ∧
      noted.pendingGap = (s.noteGap now around reason missed).pendingGap := by
  have hgap : (s'.noteGap now around reason missed).pendingGap =
      (s.noteGap now around reason missed).pendingGap := by
    rw [pendingGap_noteGap, pendingGap_noteGap, h]
  refine ⟨?_, ?_, ?_, ?_, ?_, ?_, hgap⟩ <;>
    · unfold noteGap
      cases s'.pendingGap <;> rfl

variable {s : Subscription}

theorem Full.queue_ne_nil (h : s.Full) : s.queue ≠ [] := by
  intro hempty
  have hpos := s.policy.capacity_pos
  unfold Full at h
  rw [hempty, length_nil] at h
  omega

/-- The same subscription, whatever waits in it. -/
structure SameTerms (s s' : Subscription) : Prop where
  subscriptionId : s'.subscriptionId = s.subscriptionId
  scope : s'.scope = s.scope
  filter : s'.filter = s.filter
  policy : s'.policy = s.policy

theorem SameTerms.refl (s : Subscription) : s.SameTerms s := ⟨rfl, rfl, rfl, rfl⟩

theorem SameTerms.trans {s' s'' : Subscription} (h : s.SameTerms s') (h' : s'.SameTerms s'') :
    s.SameTerms s'' :=
  ⟨h'.subscriptionId.trans h.subscriptionId, h'.scope.trans h.scope,
    h'.filter.trans h.filter, h'.policy.trans h.policy⟩

/-- Everything an offer can do: nothing on a closed stream; queue the message; lose it, or
    the oldest one queued; or hold it back under its object, alone or over an earlier one. -/
inductive Offer (s : Subscription) (now : Instant) (m : Message) (s' : Subscription) : Prop
  | closed (isClosed : s.closed = true) (same : s' = s)
  | queued (isOpen : s.closed = false) (hasRoom : ¬ s.Full) (queue : s'.queue = s.queue ++ [m])
      (conflated : s'.conflated = s.conflated) (gap : s'.pendingGap = s.pendingGap)
  | refused (isOpen : s.closed = false) (isFull : s.Full) (missed : Nat)
      (policy : s.policy.overflow = .disconnect ∧ missed = s.queue.length ∨
        s.policy.overflow = .conflate ∧ conflatable m = none ∧ missed = 1)
      (queue : s'.queue = s.queue) (conflated : s'.conflated = s.conflated)
      (gap : s'.pendingGap = (s.noteGap now m .slowConsumer missed).pendingGap)
  | dropped (isOpen : s.closed = false) (isFull : s.Full) (oldest : Message)
      (rest : List Message) (policy : s.policy.overflow = .dropWithGap)
      (full : s.queue = oldest :: rest) (queue : s'.queue = rest ++ [m])
      (conflated : s'.conflated = s.conflated)
      (gap : s'.pendingGap = (s.noteGap now oldest .slowConsumer 1).pendingGap)
  | heldFirst (isOpen : s.closed = false) (isFull : s.Full) (objectId : ObjectId)
      (o : Observation) (policy : s.policy.overflow = .conflate)
      (isObservation : conflatable m = some (objectId, o))
      (first : s.conflated.get? objectId = none) (queue : s'.queue = s.queue)
      (conflated : s'.conflated = s.conflated.set objectId o)
      (gap : s'.pendingGap = (s.noteGap now m .slowConsumer 0).pendingGap)
  | heldAgain (isOpen : s.closed = false) (isFull : s.Full) (objectId : ObjectId)
      (o previous : Observation) (policy : s.policy.overflow = .conflate)
      (isObservation : conflatable m = some (objectId, o))
      (again : s.conflated.get? objectId = some previous) (queue : s'.queue = s.queue)
      (conflated : s'.conflated = s.conflated.set objectId o)
      (gap : s'.pendingGap = s.pendingGap)

theorem conflate_cases {now : Instant} {m : Message}
    (hopen : s.closed = false) (hfull : s.Full) (hpolicy : s.policy.overflow = .conflate) :
    s.SameTerms (s.conflate now m).1 ∧ s.Offer now m (s.conflate now m).1 := by
  unfold conflate
  split
  · rename_i hkind
    obtain ⟨hid, hscope, hfilter, hpolicy', hqueue, hconflated, hgap⟩ := noteGap_frame s
      { s with stats := { s.stats with dropped := s.stats.dropped + 1 } } rfl now m
      .slowConsumer 1
    exact ⟨⟨hid, hscope, hfilter, hpolicy'⟩, .refused hopen hfull 1
      (.inr ⟨hpolicy, hkind, rfl⟩) hqueue hconflated hgap⟩
  · rename_i objectId o hkind
    cases hprevious : s.conflated.get? objectId with
    | none =>
      obtain ⟨hid, hscope, hfilter, hpolicy', hqueue, hconflated, hgap⟩ := noteGap_frame s
        { s with conflated := s.conflated.set objectId o } rfl now m .slowConsumer 0
      exact ⟨⟨hid, hscope, hfilter, hpolicy'⟩, .heldFirst hopen hfull objectId o hpolicy hkind
        hprevious hqueue hconflated hgap⟩
    | some previous =>
      exact ⟨⟨rfl, rfl, rfl, rfl⟩, .heldAgain hopen hfull objectId o previous hpolicy hkind
        hprevious rfl rfl rfl⟩

/-- An offer is one of the cases of `Offer`, on the same terms. -/
theorem offer_cases (s : Subscription) (now : Instant) (m : Message) :
    s.SameTerms (s.offer now m).1 ∧ s.Offer now m (s.offer now m).1 := by
  unfold offer
  split
  · exact ⟨.refl s, .closed ‹_› rfl⟩
  rename_i hclosed
  have hopen : s.closed = false := by simpa using hclosed
  split
  · rename_i hfull
    unfold overflow
    split
    · exact conflate_cases hopen hfull ‹_›
    · obtain ⟨hid, hscope, hfilter, hpolicy, hqueue, hconflated, hgap⟩ := noteGap_frame s
        { s with closed := true } rfl now m .slowConsumer s.queue.length
      exact ⟨⟨hid, hscope, hfilter, hpolicy⟩, .refused hopen hfull s.queue.length
        (.inl ⟨‹_›, rfl⟩) hqueue hconflated hgap⟩
    · split
      · exact absurd ‹_› hfull.queue_ne_nil
      rename_i oldest rest hqueue
      obtain ⟨hid, hscope, hfilter, hpolicy, hqueue', hconflated, hgap⟩ := noteGap_frame s
        { s with
          queue := rest ++ [m]
          stats := { s.stats with dropped := s.stats.dropped + 1 } } rfl now oldest
        .slowConsumer 1
      exact ⟨⟨hid, hscope, hfilter, hpolicy⟩, .dropped hopen hfull oldest rest ‹_› hqueue
        hqueue' hconflated hgap⟩
  · exact ⟨⟨rfl, rfl, rfl, rfl⟩, .queued hopen ‹_› rfl rfl rfl⟩

end Subscription

structure Offered where
  subscriptionId : String
  message : Message
  accepted : Bool

structure Hub where
  subs : OrderedDict String Subscription := ∅
  byType : OrderedDict ObservationType (Finset String) := ∅
  byCamera : OrderedDict CameraId (Finset String) := ∅

namespace Hub

def holders {κ : Type} [DecidableEq κ] (index : OrderedDict κ (Finset String)) (key : κ) :
    Finset String :=
  (index.get? key).getD ∅

def file {κ : Type} [DecidableEq κ] (index : OrderedDict κ (Finset String)) (keys : List κ)
    (id : String) : OrderedDict κ (Finset String) :=
  keys.foldl (fun index key => index.set key (insert id (holders index key))) index

def add (hub : Hub) (s : Subscription) : Hub where
  subs := hub.subs.set s.subscriptionId s
  byType := file hub.byType
    (if s.filter.observationTypes.isEmpty then ObservationType.members
      else s.filter.observationTypes) s.subscriptionId
  byCamera := file hub.byCamera s.scope.cameraIds s.subscriptionId

def unscoped (hub : Hub) : Finset String :=
  ((hub.subs.entries.filter fun e => e.2.scope.cameraIds.isEmpty).map Prod.fst).toFinset

def among (hub : Hub) (ids : Finset String) : List String :=
  hub.subs.keys.filter (· ∈ ids)

def candidates (hub : Hub) (o : Observation) : List String :=
  hub.among (holders hub.byType o.observationType ∩
    (holders hub.byCamera o.cameraId ∪ hub.unscoped))

def forCamera (hub : Hub) (camera : CameraId) : List String :=
  hub.among (holders hub.byCamera camera ∪ hub.unscoped)

def inScope (s : Subscription) (o : Observation) : Bool :=
  o.tenantId = s.scope.tenantId && s.scope.coversCamera o.cameraId

def offerEach (hub : Hub) (now : Instant) (m : Message) : List String → Hub × List Offered
  | [] => (hub, [])
  | id :: rest =>
    match hub.subs.get? id with
    | none => hub.offerEach now m rest
    | some s =>
      let (s', accepted) := s.offer now m
      let (hub', offers) := { hub with subs := hub.subs.set id s' }.offerEach now m rest
      (hub', ⟨id, m, accepted⟩ :: offers)

def meeting (hub : Hub) (ids : List String) (p : Subscription → Bool) : List String :=
  ids.filter fun id => (hub.subs.get? id).any p

/-- `publish`: one observation after the other. -/
def publish (hub : Hub) (now : Instant) : List Observation → Hub × List Offered
  | [] => (hub, [])
  | o :: rest =>
    let audience := hub.meeting (hub.candidates o) fun s => inScope s o && s.filter.accepts o
    let (hub', offers) := hub.offerEach now (.observation o) audience
    let (hub'', later) := hub'.publish now rest
    (hub'', offers ++ later)

def publishDelta (hub : Hub) (now : Instant) (d : StateDeltaMessage) : Hub × List Offered :=
  hub.offerEach now (.delta d)
    (hub.meeting (hub.forCamera d.cameraId) fun s => s.scope.coversCamera d.cameraId)

def publishCoverage (hub : Hub) (now : Instant) (c : CoverageChange) : Hub × List Offered :=
  hub.offerEach now (.coverage c)
    (hub.meeting (hub.forCamera c.cameraId) fun s => s.scope.coversCamera c.cameraId)

def publishGap (hub : Hub) (now : Instant) (g : Gap) : Hub × List Offered :=
  let cameras := if g.cameras.isEmpty then hub.byCamera.keys else g.cameras
  hub.offerEach now (.gap g) (cameras.flatMap hub.forCamera).eraseDups

/-- What a publishing call returns: how many of its offers were accepted. -/
def delivered (offers : List Offered) : Nat := offers.countP Offered.accepted

def serving (subscriptions : List Subscription) : Hub := subscriptions.foldl add {}

/-- A call that publishes; it reads the clock. -/
inductive Publication where
  | observations (now : Instant) (batch : List Observation)
  | delta (now : Instant) (d : StateDeltaMessage)
  | coverage (now : Instant) (c : CoverageChange)
  | gap (now : Instant) (g : Gap)

def publishing (hub : Hub) : Publication → Hub × List Offered
  | .observations now batch => hub.publish now batch
  | .delta now d => hub.publishDelta now d
  | .coverage now c => hub.publishCoverage now c
  | .gap now g => hub.publishGap now g

def step (hub : Hub) (p : Publication) : Hub := (hub.publishing p).1

/-! ## What an offer leaves of the hub -/

/-- The hub holds the same subscriptions, filed the same way, on the same terms. -/
structure Keeps (hub hub' : Hub) : Prop where
  terms : ∀ id s', hub'.subs.get? id = some s' →
    ∃ s, hub.subs.get? id = some s ∧ s.SameTerms s'
  held : ∀ id s, hub.subs.get? id = some s →
    ∃ s', hub'.subs.get? id = some s' ∧ s.SameTerms s'
  byType : hub'.byType = hub.byType
  byCamera : hub'.byCamera = hub.byCamera

variable {hub hub' hub'' : Hub} {now : Instant} {m : Message}

theorem Keeps.refl (hub : Hub) : hub.Keeps hub :=
  ⟨fun _ s h => ⟨s, h, .refl s⟩, fun _ s h => ⟨s, h, .refl s⟩, rfl, rfl⟩

theorem Keeps.trans (h : hub.Keeps hub') (h' : hub'.Keeps hub'') : hub.Keeps hub'' where
  terms := by
    intro id s'' hs''
    obtain ⟨s', hs', hterms'⟩ := h'.terms id s'' hs''
    obtain ⟨s, hs, hterms⟩ := h.terms id s' hs'
    exact ⟨s, hs, hterms.trans hterms'⟩
  held := by
    intro id s hs
    obtain ⟨s', hs', hterms⟩ := h.held id s hs
    obtain ⟨s'', hs'', hterms'⟩ := h'.held id s' hs'
    exact ⟨s'', hs'', hterms.trans hterms'⟩
  byType := h'.byType.trans h.byType
  byCamera := h'.byCamera.trans h.byCamera

variable {id : String}

theorem keeps_set {s s' : Subscription} (h : hub.subs.get? id = some s)
    (hterms : s.SameTerms s') : hub.Keeps { hub with subs := hub.subs.set id s' } where
  terms := by
    intro id' t ht
    rcases get?_of_set ht with ⟨hid, rfl⟩ | ⟨-, ht⟩
    · exact ⟨s, hid ▸ h, hterms⟩
    · exact ⟨t, ht, .refl t⟩
  held := by
    intro id' t ht
    by_cases hid : id = id'
    · rw [← hid, h] at ht
      obtain rfl := some.inj ht
      exact ⟨s', by rw [← hid, get?_set_self], hterms⟩
    · refine ⟨t, ?_, .refl t⟩
      rw [get?_set, if_neg hid]
      exact ht
  byType := rfl
  byCamera := rfl

/-- Whoever is in the audience is offered the message, and nobody else. -/
theorem offerEach_spec (hub : Hub) (now : Instant) (m : Message) (audience : List String) :
    hub.Keeps (hub.offerEach now m audience).1 ∧
      (∀ offer ∈ (hub.offerEach now m audience).2,
        offer.subscriptionId ∈ audience ∧ offer.message = m) ∧
      ∀ id ∈ audience, (hub.subs.get? id).isSome →
        ∃ offer ∈ (hub.offerEach now m audience).2,
          offer.subscriptionId = id ∧ offer.message = m := by
  induction audience generalizing hub with
  | nil => exact ⟨.refl hub, by simp [offerEach], by simp⟩
  | cons id rest ih =>
    cases hid : hub.subs.get? id with
    | none =>
      obtain ⟨hkeeps, hoffered, hreached⟩ := ih hub
      unfold offerEach
      rw [hid]
      refine ⟨hkeeps, fun offer hoffer => ?_, fun id' hid' hheld => ?_⟩
      · obtain ⟨hmem, hmessage⟩ := hoffered offer hoffer
        exact ⟨mem_cons_of_mem _ hmem, hmessage⟩
      · rcases mem_cons.mp hid' with rfl | hrest
        · rw [hid] at hheld
          cases hheld
        · exact hreached id' hrest hheld
    | some s =>
      have hset := keeps_set hid (s.offer_cases now m).1
      obtain ⟨hkeeps, hoffered, hreached⟩ :=
        ih { hub with subs := hub.subs.set id (s.offer now m).1 }
      unfold offerEach
      rw [hid]
      refine ⟨hset.trans hkeeps, fun offer hoffer => ?_, fun id' hid' hheld => ?_⟩
      · rcases mem_cons.mp hoffer with rfl | hrest
        · exact ⟨mem_cons_self, rfl⟩
        · obtain ⟨hmem, hmessage⟩ := hoffered offer hrest
          exact ⟨mem_cons_of_mem _ hmem, hmessage⟩
      · rcases mem_cons.mp hid' with rfl | hrest
        · exact ⟨_, mem_cons_self, rfl, rfl⟩
        · obtain ⟨t, ht⟩ := isSome_iff_exists.mp hheld
          obtain ⟨t', ht', -⟩ := hset.held id' t ht
          obtain ⟨offer, hoffer, hto⟩ :=
            hreached id' hrest (isSome_iff_exists.mpr ⟨t', ht'⟩)
          exact ⟨offer, mem_cons_of_mem _ hoffer, hto⟩

theorem mem_among {ids : Finset String} :
    id ∈ hub.among ids ↔ (∃ s, hub.subs.get? id = some s) ∧ id ∈ ids := by
  unfold among
  rw [mem_filter, mem_keys_iff, decide_eq_true_eq]

theorem mem_unscoped :
    id ∈ hub.unscoped ↔ ∃ s, hub.subs.get? id = some s ∧ s.scope.cameraIds = [] := by
  unfold unscoped
  simp only [List.mem_toFinset, List.mem_map, List.mem_filter, List.isEmpty_iff]
  constructor
  · rintro ⟨⟨id', s⟩, ⟨hmem, hempty⟩, rfl⟩
    exact ⟨s, OrderedDict.get?_eq_some_iff.mpr hmem, hempty⟩
  · rintro ⟨s, hs, hempty⟩
    exact ⟨(id, s), ⟨OrderedDict.get?_eq_some_iff.mp hs, hempty⟩, rfl⟩

theorem mem_meeting {ids : List String} {p : Subscription → Bool} :
    id ∈ hub.meeting ids p ↔ id ∈ ids ∧ ∃ s, hub.subs.get? id = some s ∧ p s = true := by
  unfold meeting
  rw [mem_filter]
  refine and_congr_right fun _ => ?_
  cases hub.subs.get? id with
  | none => simp
  | some s => simp

theorem mem_holders_file {κ : Type} [DecidableEq κ] (index : OrderedDict κ (Finset String))
    (keys : List κ) (id id' : String) (key : κ) :
    id' ∈ holders (file index keys id) key ↔
      id' ∈ holders index key ∨ id' = id ∧ key ∈ keys := by
  unfold file
  induction keys generalizing index with
  | nil => simp
  | cons k rest ih =>
    rw [foldl_cons, ih]
    have hset : id' ∈ holders (index.set k (insert id (holders index k))) key ↔
        id' ∈ holders index key ∨ id' = id ∧ key = k := by
      conv_lhs => unfold holders
      rw [get?_set]
      by_cases hk : k = key
      · subst hk
        simp only [if_true, getD_some, Finset.mem_insert, and_true]
        tauto
      · simp only [hk, if_false, Ne.symm hk, and_false, or_false]
        rfl
    rw [hset, mem_cons]
    tauto

theorem mem_keys_file {κ : Type} [DecidableEq κ] (index : OrderedDict κ (Finset String))
    (keys : List κ) (id : String) (key : κ) :
    key ∈ (file index keys id).keys ↔ key ∈ index.keys ∨ key ∈ keys := by
  unfold file
  induction keys generalizing index with
  | nil => simp
  | cons k rest ih =>
    rw [foldl_cons, ih, mem_keys_iff, mem_keys_iff, mem_cons]
    have hset : (∃ v, (index.set k (insert id (holders index k))).get? key = some v) ↔
        (∃ v, index.get? key = some v) ∨ key = k := by
      rw [get?_set]
      by_cases hk : k = key
      · simp [hk]
      · simp [hk, Ne.symm hk]
    rw [hset]
    tauto

end Hub

end VisionOs.Exposure
