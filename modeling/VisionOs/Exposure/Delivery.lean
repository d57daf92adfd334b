/-
  What becomes of the messages offered to a subscription: each is delivered, superseded, or named
  by a delivered gap, as long as the pending gap can tell every loss.
-/
import VisionOs.Exposure.Hub

namespace VisionOs.Exposure

open Core Lib List Option Subscription OrderedDict Runs

/-- A call on a subscription; an offer reads the clock. -/
inductive Call where
  | offer (now : Instant) (message : Message)
  | drain (limit : Int)

structure Session where
  subscription : Subscription
  offered : List Message := []
  delivered : List Message := []
  gaps : List Gap := []

namespace Session

/-- One call.  A drain delivers the pending gap first, and what was offered after it. -/
def step (w : Session) : Call → Session
  | .offer now message =>
    { w with
      subscription := (w.subscription.offer now message).1
      offered := w.offered ++ [message] }
  | .drain limit =>
    let own := w.subscription.pendingGap.toList
    let (drained, out) := w.subscription.drain limit
    { w with
      subscription := drained
      delivered := w.delivered ++ out.drop own.length
      gaps := w.gaps ++ own }

end Session

/-- Nothing waits and no gap is pending. -/
def Subscription.Drained (s : Subscription) : Prop :=
  s.pendingGap = none ∧ s.conflated.entries = [] ∧ s.queue = []

/-- The messages at these positions. -/
def At (msgs : List Message) (positions : List Nat) (messages : List Message) : Prop :=
  List.Forall₂ (fun i m => msgs[i]? = some m) positions messages

/-- A later observation of the same object. -/
def Supersedes (msgs : List Message) (earlier later : Nat) : Prop :=
  earlier < later ∧ ∃ o o', msgs[earlier]? = some (.observation o) ∧
    msgs[later]? = some (.observation o') ∧ o.objectId ≠ none ∧ o'.objectId = o.objectId

def Message.platformReason : Message → Option GapReason
  | .gap g => some g.reason
  | .observation _ | .delta _ | .heartbeat _ | .coverage _ => none

/-- The gap tells of the message: its cameras, its moment and its reason. -/
structure Names (g : Gap) (m : Message) : Prop where
  ordered : g.start.ns ≤ g.finish.ns
  cameras : ∀ c ∈ m.concerns, c ∈ g.cameras
  within : ∀ t, m.momentOf = some t → g.start.ns ≤ t.ns ∧ t.ns ≤ g.finish.ns
  reason : ∀ r ∈ m.platformReason, g.reason = r

/-- The gap counts exactly these losses, and names each. -/
structure Accounts (msgs : List Message) (g : Gap) (positions : List Nat) : Prop where
  counted : g.observationsMissed = some positions.length
  named : ∀ i ∈ positions, ∃ m, msgs[i]? = some m ∧ Names g m

/-- Whatever was offered arrived, was superseded by something that arrived, or is told by a gap. -/
structure Session.AccountedBy (w : Session) (arrived replaced : List Nat)
    (lost : List (List Nat)) : Prop where
  complete : (arrived ++ replaced ++ lost.flatten).Perm (range w.offered.length)
  delivered : At w.offered arrived w.delivered
  superseded : ∀ i ∈ replaced, ∃ j ∈ arrived, Supersedes w.offered i j
  told : List.Forall₂ (Accounts w.offered) w.gaps lost

/-- Nothing that was offered is lost without a word. -/
def Session.Accounted (w : Session) : Prop :=
  ∃ arrived replaced lost, w.AccountedBy arrived replaced lost

namespace Subscription

/-- A gap noted now would not end before the pending one does. -/
def InOrder (s : Subscription) (now : Instant) (m : Message) : Prop :=
  ∀ g ∈ s.pendingGap, g.finish.ns ≤ (momentOf m now).ns

def namedCameras (s : Subscription) (m : Message) : List CameraId :=
  (s.pendingGap.map Gap.cameras).getD m.camerasOf

/-- The pending gap can still tell the loss of this message. -/
structure Tells (s : Subscription) (now : Instant) (m : Message) : Prop where
  inOrder : s.InOrder now m
  cameras : ∀ c ∈ m.concerns, c ∈ s.namedCameras m
  reason : ∀ r ∈ m.platformReason, r = .slowConsumer

/-- An offer finds the subscription open and, where the queue is full, what the policy loses
    can be told; under DISCONNECT the queue holds the one message that the gap counts. -/
def LossTold (s : Subscription) : Call → Prop
  | .drain _ => True
  | .offer now m => s.closed = false ∧ (s.Full →
      match s.policy.overflow with
      | .dropWithGap => ∀ dropped ∈ s.queue.head?, s.Tells now dropped
      | .disconnect => s.queue.length = 1 ∧ s.Tells now m
      | .conflate =>
        match conflatable m with
        | none => s.Tells now m
        | some (objectId, _) => s.conflated.get? objectId = none → s.InOrder now m)

structure Pending (s : Subscription) (msgs : List Message) (positions : List Nat) :
    Prop where
  nothing : s.pendingGap = none → positions = []
  counts : ∀ g, s.pendingGap = some g → Accounts msgs g positions ∧
    g.reason = .slowConsumer ∧ g.start.ns ≤ g.finish.ns

end Subscription

variable {msgs : List Message} {s : Subscription} {now : Instant} {m : Message}

variable {i : Nat}

theorem getElem?_more {m' : Message} (h : msgs[i]? = some m') : (msgs ++ [m])[i]? = some m' := by
  have hlt := (List.getElem?_eq_some_iff.mp h).1
  rw [getElem?_append_left hlt]
  exact h

variable {positions : List Nat} {messages : List Message}

theorem At.more (h : At msgs positions messages) : At (msgs ++ [m]) positions messages :=
  h.imp fun _ _ => getElem?_more

theorem At.lt (h : At msgs positions messages) : ∀ i ∈ positions, i < msgs.length := by
  induction h with
  | nil => simp
  | cons hi _ ih =>
    intro i hmem
    rcases mem_cons.mp hmem with rfl | hrest
    · exact (List.getElem?_eq_some_iff.mp hi).1
    · exact ih i hrest

theorem Supersedes.more {j : Nat} (h : Supersedes msgs i j) : Supersedes (msgs ++ [m]) i j := by
  obtain ⟨hlt, o, o', hi, hj, hobject⟩ := h
  exact ⟨hlt, o, o', getElem?_more hi, getElem?_more hj, hobject⟩

variable {g : Gap}

theorem Accounts.more (h : Accounts msgs g positions) : Accounts (msgs ++ [m]) g positions := by
  refine ⟨h.counted, fun i hi => ?_⟩
  obtain ⟨m', hm', hnames⟩ := h.named i hi
  exact ⟨m', getElem?_more hm', hnames⟩

theorem at_newest : At (msgs ++ [m]) [msgs.length] [m] :=
  .cons (by simp) .nil

theorem Names.widen {g' : Gap} (h : Names g m) (hstart : g'.start = g.start)
    (hfinish : g.finish.ns ≤ g'.finish.ns) (hreason : g'.reason = g.reason)
    (hcameras : g'.cameras = g.cameras) : Names g' m where
  ordered := by
    have hordered := h.ordered
    rw [hstart]
    omega
  cameras := by
    rw [hcameras]
    exact h.cameras
  within := by
    intro t ht
    have hwithin := h.within t ht
    rw [hstart]
    omega
  reason := by
    rw [hreason]
    exact h.reason

theorem momentOf_eq {t : Instant} (h : m.momentOf = some t) : momentOf m now = t := by
  unfold momentOf
  rw [h]
  rfl

theorem Subscription.Pending.noteGap (h : s.Pending msgs positions)
    (horder : s.InOrder now m) {lost : List Nat} (hlost : ∀ i ∈ lost, msgs[i]? = some m)
    (htold : lost ≠ [] → s.Tells now m) :
    (s.noteGap now m .slowConsumer lost.length).Pending msgs (positions ++ lost) := by
  have hgap := s.pendingGap_noteGap now m .slowConsumer lost.length
  refine ⟨fun hnone => (by rw [hgap] at hnone; cases hnone), fun g hg => ?_⟩
  rw [hgap] at hg
  cases hpending : s.pendingGap with
  | none =>
    rw [hpending] at hg
    obtain rfl := some.inj hg
    rw [h.nothing hpending, nil_append]
    refine ⟨⟨rfl, fun i hi => ⟨m, hlost i hi, ?_⟩⟩, rfl, le_refl _⟩
    have htells := htold (ne_nil_of_mem hi)
    have hcameras := htells.cameras
    unfold namedCameras at hcameras
    rw [hpending] at hcameras
    refine ⟨le_refl _, hcameras, fun t ht => ?_, fun r hr => (htells.reason r hr).symm⟩
    rw [momentOf_eq ht]
    exact ⟨le_refl _, le_refl _⟩
  | some gap =>
    rw [hpending] at hg
    obtain rfl := some.inj hg
    obtain ⟨haccounts, hreason, hordered⟩ := h.counts gap hpending
    have hfinish : gap.finish.ns ≤ (momentOf m now).ns := horder gap hpending
    refine ⟨⟨?_, fun i hi => ?_⟩, hreason, hordered.trans hfinish⟩
    · show some (gap.observationsMissed.getD 0 + lost.length) = _
      rw [length_append, haccounts.counted]
      rfl
    · rcases mem_append.mp hi with hold | hnew
      · obtain ⟨m', hm', hnames⟩ := haccounts.named i hold
        exact ⟨m', hm', hnames.widen rfl hfinish rfl rfl⟩
      have htells := htold (ne_nil_of_mem hnew)
      have hcameras := htells.cameras
      unfold namedCameras at hcameras
      rw [hpending] at hcameras
      refine ⟨m, hlost i hnew, hordered.trans hfinish, hcameras, fun t ht => ?_,
        fun r hr => ?_⟩
      · rw [momentOf_eq ht] at hfinish ⊢
        exact ⟨hordered.trans hfinish, le_refl _⟩
      · rw [htells.reason r hr]
        exact hreason

theorem Subscription.Pending.congr {s' : Subscription}
    (h : s.Pending msgs positions) (hgap : s'.pendingGap = s.pendingGap) :
    s'.Pending msgs positions := by
  constructor
  · rw [hgap]
    exact h.nothing
  · rw [hgap]
    exact h.counts

theorem Subscription.Pending.more (h : s.Pending msgs positions) :
    s.Pending (msgs ++ [m]) positions :=
  ⟨h.nothing, fun g hg => ⟨(h.counts g hg).1.more, (h.counts g hg).2⟩⟩

/-! ## What one call keeps -/

structure Session.Traced (w : Session) (arrived replaced queued held pending : List Nat)
    (lost : List (List Nat)) : Prop where
  complete : (arrived ++ replaced ++ queued ++ held ++ pending ++ lost.flatten).Perm
    (range w.offered.length)
  delivered : At w.offered arrived w.delivered
  inQueue : At w.offered queued w.subscription.queue
  inConflated : At w.offered held (w.subscription.conflated.values.map .observation)
  keyed : ∀ k o, w.subscription.conflated.get? k = some o → o.objectId = some k
  superseded : ∀ i ∈ replaced, ∃ j ∈ arrived ++ held, Supersedes w.offered i j
  inGap : w.subscription.Pending w.offered pending
  told : List.Forall₂ (Accounts w.offered) w.gaps lost

namespace Session

variable {w : Session} {arrived replaced queued held pending : List Nat} {lost : List (List Nat)}

theorem placed {l l' : List Nat} {n : Nat} (h : l.Perm (range n))
    (hplaced : l'.Perm (l ++ [n])) : l'.Perm (range (n + 1)) := by
  rw [range_succ]
  exact hplaced.trans (h.append_right [n])

theorem Traced.more (h : w.Traced arrived replaced queued held pending lost) (m : Message) :
    At (w.offered ++ [m]) arrived w.delivered ∧
    At (w.offered ++ [m]) queued w.subscription.queue ∧
    At (w.offered ++ [m]) held (w.subscription.conflated.values.map .observation) ∧
    (∀ i ∈ replaced, ∃ j ∈ arrived ++ held, Supersedes (w.offered ++ [m]) i j) ∧
    w.subscription.Pending (w.offered ++ [m]) pending ∧
    List.Forall₂ (Accounts (w.offered ++ [m])) w.gaps lost := by
  refine ⟨h.delivered.more, h.inQueue.more, h.inConflated.more, fun i hi => ?_, h.inGap.more,
    h.told.imp fun _ _ => Accounts.more⟩
  obtain ⟨j, hj, hsupersedes⟩ := h.superseded i hi
  exact ⟨j, hj, hsupersedes.more⟩

theorem Traced.noteGap (h : w.Traced arrived replaced queued held pending lost)
    {noted : Message} (hi : (w.offered ++ [m])[i]? = some noted)
    (htold : w.subscription.Tells now noted) :
    (w.subscription.noteGap now noted .slowConsumer 1).Pending (w.offered ++ [m])
      (pending ++ [i]) := by
  have hlost : ∀ k ∈ [i], (w.offered ++ [m])[k]? = some noted := by
    intro k hk
    rw [mem_singleton.mp hk]
    exact hi
  exact h.inGap.more.noteGap htold.inOrder hlost fun _ => htold

variable {s' : Subscription}

theorem Traced.queue (h : w.Traced arrived replaced queued held pending lost)
    (hqueue : s'.queue = w.subscription.queue ++ [m])
    (hconflated : s'.conflated = w.subscription.conflated)
    (hgap : s'.pendingGap = w.subscription.pendingGap) :
    Traced { w with subscription := s', offered := w.offered ++ [m] } arrived replaced
      (queued ++ [w.offered.length]) held pending lost := by
  obtain ⟨hdelivered, hqueued, hheld, hsuperseded, hpending, htold⟩ := h.more m
  refine ⟨?_, hdelivered, ?_, ?_, ?_, hsuperseded, hpending.congr hgap, htold⟩
  · have hcomplete := h.complete
    rw [length_append, length_singleton]
    refine placed hcomplete (perm_iff_count.mpr fun i => ?_)
    simp only [count_append]
    omega
  · rw [hqueue]
    exact rel_append hqueued at_newest
  · rw [hconflated]
    exact hheld
  · rw [hconflated]
    exact h.keyed

theorem Traced.refuse (h : w.Traced arrived replaced queued held pending lost)
    (htells : w.subscription.Tells now m) (hqueue : s'.queue = w.subscription.queue)
    (hconflated : s'.conflated = w.subscription.conflated)
    (hgap : s'.pendingGap = (w.subscription.noteGap now m .slowConsumer 1).pendingGap) :
    Traced { w with subscription := s', offered := w.offered ++ [m] } arrived replaced queued
      held (pending ++ [w.offered.length]) lost := by
  obtain ⟨hdelivered, hqueued, hheld, hsuperseded, -, htold⟩ := h.more m
  refine ⟨?_, hdelivered, ?_, ?_, ?_, hsuperseded, ?_, htold⟩
  · rw [length_append, length_singleton]
    refine placed h.complete (perm_iff_count.mpr fun i => ?_)
    simp only [count_append]
    omega
  · rw [hqueue]
    exact hqueued
  · rw [hconflated]
    exact hheld
  · rw [hconflated]
    exact h.keyed
  · exact (h.noteGap (by simp) htells).congr hgap

theorem Traced.drop {oldest : Message} {rest : List Message} {first : Nat} {later : List Nat}
    (h : w.Traced arrived replaced (first :: later) held pending lost)
    (hfirst : w.offered[first]? = some oldest) (hlater : At w.offered later rest)
    (htells : w.subscription.Tells now oldest) (hqueue : s'.queue = rest ++ [m])
    (hconflated : s'.conflated = w.subscription.conflated)
    (hgap : s'.pendingGap = (w.subscription.noteGap now oldest .slowConsumer 1).pendingGap) :
    Traced { w with subscription := s', offered := w.offered ++ [m] } arrived replaced
      (later ++ [w.offered.length]) held (pending ++ [first]) lost := by
  obtain ⟨hdelivered, -, hheld, hsuperseded, -, htold⟩ := h.more m
  refine ⟨?_, hdelivered, ?_, ?_, ?_, hsuperseded, ?_, htold⟩
  · rw [length_append, length_singleton]
    refine placed h.complete (perm_iff_count.mpr fun i => ?_)
    simp only [count_append, count_cons, count_nil]
    omega
  · rw [hqueue]
    exact rel_append hlater.more at_newest
  · rw [hconflated]
    exact hheld
  · rw [hconflated]
    exact h.keyed
  · exact (h.noteGap (getElem?_more hfirst) htells).congr hgap

variable {objectId : ObjectId} {o : Observation}

theorem conflatable_eq_some (h : conflatable m = some (objectId, o)) :
    m = .observation o ∧ o.objectId = some objectId := by
  unfold conflatable at h
  split at h
  · obtain ⟨id, hid, heq⟩ := map_eq_some_iff.mp h
    cases heq
    exact ⟨rfl, hid⟩
  all_goals cases h

theorem keyed_set {held : OrderedDict ObjectId Observation}
    (h : ∀ k o, held.get? k = some o → o.objectId = some k)
    (hobject : o.objectId = some objectId) :
    ∀ k o', (held.set objectId o).get? k = some o' → o'.objectId = some k := by
  intro k o' hget
  rcases get?_of_set hget with ⟨hk, rfl⟩ | ⟨-, hget⟩
  · rw [hobject, hk]
  · exact h k o' hget

theorem Traced.holdFirst (h : w.Traced arrived replaced queued held pending lost)
    (hm : m = .observation o)
    (hobject : o.objectId = some objectId)
    (hfirst : w.subscription.conflated.get? objectId = none)
    (horder : w.subscription.InOrder now m) (hqueue : s'.queue = w.subscription.queue)
    (hconflated : s'.conflated = w.subscription.conflated.set objectId o)
    (hgap : s'.pendingGap = (w.subscription.noteGap now m .slowConsumer 0).pendingGap) :
    Traced { w with subscription := s', offered := w.offered ++ [m] } arrived replaced queued
      (held ++ [w.offered.length]) pending lost := by
  obtain ⟨hdelivered, hqueued, hheld, hsuperseded, hpending, htold⟩ := h.more m
  refine ⟨?_, hdelivered, ?_, ?_, ?_, ?_, ?_, htold⟩
  · rw [length_append, length_singleton]
    refine placed h.complete (perm_iff_count.mpr fun i => ?_)
    simp only [count_append]
    omega
  · rw [hqueue]
    exact hqueued
  · rw [hconflated]
    unfold values
    rw [entries_set_of_get?_none hfirst, map_append, map_append]
    refine rel_append hheld ?_
    rw [hm]
    exact at_newest
  · rw [hconflated]
    exact keyed_set h.keyed hobject
  · intro i hi
    obtain ⟨j, hj, hsupersedes⟩ := hsuperseded i hi
    rw [← append_assoc]
    exact ⟨j, mem_append_left _ hj, hsupersedes⟩
  · have hnoted := hpending.noteGap horder (fun i hi => absurd hi not_mem_nil)
      fun hne => absurd rfl hne
    rw [append_nil] at hnoted
    exact hnoted.congr hgap

theorem Traced.holdAgain (h : w.Traced arrived replaced queued held pending lost)
    {previous : Observation} (hm : m = .observation o)
    (hobject : o.objectId = some objectId)
    (hagain : w.subscription.conflated.get? objectId = some previous)
    (hqueue : s'.queue = w.subscription.queue)
    (hconflated : s'.conflated = w.subscription.conflated.set objectId o)
    (hgap : s'.pendingGap = w.subscription.pendingGap) :
    ∃ p held', Traced { w with subscription := s', offered := w.offered ++ [m] } arrived
      (replaced ++ [p]) queued held' pending lost := by
  obtain ⟨hdelivered, hqueued, hheld, hsuperseded, hpending, htold⟩ := h.more m
  obtain ⟨before, after, hentries, hset⟩ := entries_set_of_get?_some hagain o
  unfold values at hheld
  rw [hentries, map_append, map_cons, map_append, map_cons] at hheld
  -- the position of the observation that is replaced
  have hbefore := forall₂_take_append held _ _ hheld
  have hrest := forall₂_drop_append held _ _ hheld
  obtain ⟨p, heldAfter, hp, hafter, hdrop⟩ := forall₂_cons_right_iff.mp hrest
  have hheld_eq := take_append_drop (before.map (Message.observation ∘ Prod.snd)).length held
  rw [← List.map_map, hdrop] at hheld_eq
  generalize held.take _ = heldBefore at hbefore hheld_eq
  subst hheld_eq
  have hnewest : (w.offered ++ [m])[w.offered.length]? = some (.observation o) := by
    rw [hm]
    simp
  have hp_lt : p < w.offered.length :=
    h.inConflated.lt p (mem_append_right _ mem_cons_self)
  have hreplaces : Supersedes (w.offered ++ [m]) p w.offered.length := by
    refine ⟨hp_lt, previous, o, hp, hnewest, ?_, ?_⟩
    · rw [h.keyed objectId previous hagain]
      exact Option.some_ne_none objectId
    · rw [hobject, h.keyed objectId previous hagain]
  refine ⟨p, heldBefore ++ w.offered.length :: heldAfter, ?_, hdelivered, ?_, ?_, ?_, ?_,
    hpending.congr hgap, htold⟩
  · rw [length_append, length_singleton]
    refine placed h.complete (perm_iff_count.mpr fun i => ?_)
    simp only [count_append, count_cons, count_nil]
    omega
  · rw [hqueue]
    exact hqueued
  · rw [hconflated]
    unfold values
    rw [hset, map_append, map_cons, map_append, map_cons]
    exact rel_append hbefore (.cons hnewest hafter)
  · rw [hconflated]
    exact keyed_set h.keyed hobject
  · intro i hi
    have hlast : w.offered.length ∈ arrived ++ (heldBefore ++ w.offered.length :: heldAfter) := by
      simp
    rcases mem_append.mp hi with hold | hnew
    · obtain ⟨j, hj, hsupersedes⟩ := hsuperseded i hold
      by_cases hjp : j = p
      · -- its replacement is replaced in turn
        obtain ⟨hlt, o₁, o₂, hi₁, hj₂, hne, hsame⟩ := hsupersedes
        rw [hjp, hp] at hj₂
        cases hj₂
        obtain ⟨-, o₃, o₄, hp₃, hn₄, -, hsame'⟩ := hreplaces
        rw [hp] at hp₃
        cases hp₃
        exact ⟨w.offered.length, hlast, by omega, o₁, o₄, hi₁, hn₄, hne, hsame'.trans hsame⟩
      · refine ⟨j, ?_, hsupersedes⟩
        simp only [mem_append, mem_cons] at hj ⊢
        tauto
    · rw [mem_singleton.mp hnew]
      exact ⟨w.offered.length, hlast, hreplaces⟩

/-- A drain delivers what is held back and some of the queue; the pending gap joins those
    delivered. -/
theorem Traced.drain (h : w.Traced arrived replaced queued held pending lost) (limit : Int) :
    ∃ arrived' queued' lost', (w.step (.drain limit)).Traced arrived' replaced queued' []
      [] lost' := by
  have hout : (w.subscription.drain limit).2.drop w.subscription.pendingGap.toList.length =
      w.subscription.conflated.values.map .observation ++
        w.subscription.queue.take (w.subscription.room limit) := by
    show (ahead _ ++ _).drop _ = _
    unfold ahead
    rw [append_assoc, drop_left' (by simp)]
  have hstep : (w.step (.drain limit)).delivered = w.delivered ++
      (w.subscription.conflated.values.map .observation ++
        w.subscription.queue.take (w.subscription.room limit)) := by
    rw [← hout]
    rfl
  have hqueued := forall₂_take (w.subscription.room limit) h.inQueue
  have hleft := forall₂_drop (w.subscription.room limit) h.inQueue
  have hsplit := take_append_drop (w.subscription.room limit) queued
  -- the account of the gap that the drain delivers, if any
  obtain ⟨told, htold, hflat⟩ : ∃ told : List (List Nat),
      List.Forall₂ (Accounts w.offered) w.subscription.pendingGap.toList told ∧
        told.flatten = pending := by
    cases hgap : w.subscription.pendingGap with
    | none => exact ⟨[], .nil, (h.inGap.nothing hgap).symm⟩
    | some g => exact ⟨[pending], .cons (h.inGap.counts g hgap).1 .nil, by simp⟩
  refine ⟨arrived ++ (held ++ queued.take (w.subscription.room limit)),
    queued.drop (w.subscription.room limit), lost ++ told, ?_, ?_, hleft, .nil, ?_, ?_, ?_,
    rel_append h.told htold⟩
  · refine List.Perm.trans (perm_iff_count.mpr fun i => ?_) h.complete
    have hcount := congrArg (count i) hsplit
    rw [count_append] at hcount
    rw [← hflat]
    simp only [count_append, flatten_append, count_nil]
    omega
  · rw [hstep]
    exact rel_append h.delivered (rel_append h.inConflated hqueued)
  · intro k o hget
    cases hget
  · intro i hi
    obtain ⟨j, hj, hsupersedes⟩ := h.superseded i hi
    refine ⟨j, ?_, hsupersedes⟩
    simp only [mem_append] at hj ⊢
    tauto
  · exact ⟨fun _ => rfl, fun g hg => by cases hg⟩

def Traceable (w : Session) : Prop :=
  ∃ arrived replaced queued held pending lost,
    w.Traced arrived replaced queued held pending lost

/-- An offer whose losses can be told keeps every message traceable. -/
theorem Traceable.offer (h : w.Traceable) (now : Instant) (m : Message)
    (hloss : w.subscription.LossTold (.offer now m)) : (w.step (.offer now m)).Traceable := by
  obtain ⟨arrived, replaced, queued, held, pending, lost, h⟩ := h
  obtain ⟨hopen, hfullLoss⟩ := hloss
  show Traceable { w with
    subscription := (w.subscription.offer now m).1, offered := w.offered ++ [m] }
  obtain ⟨-, hoffer⟩ := w.subscription.offer_cases now m
  generalize (w.subscription.offer now m).1 = s' at hoffer ⊢
  cases hoffer with
  | closed isClosed same =>
    rw [hopen] at isClosed
    cases isClosed
  | queued isOpen hasRoom queue conflated gap =>
    exact ⟨_, _, _, _, _, _, h.queue queue conflated gap⟩
  | refused isOpen isFull missed policy queue conflated gap =>
    have htold := hfullLoss isFull
    rcases policy with ⟨hpolicy, rfl⟩ | ⟨hpolicy, hkind, rfl⟩
    · rw [hpolicy] at htold
      rw [htold.1] at gap
      exact ⟨_, _, _, _, _, _, h.refuse htold.2 queue conflated gap⟩
    · rw [hpolicy] at htold
      simp only [hkind] at htold
      exact ⟨_, _, _, _, _, _, h.refuse htold queue conflated gap⟩
  | dropped isOpen isFull oldest rest policy full queue conflated gap =>
    have htold := hfullLoss isFull
    rw [policy] at htold
    simp only [full, head?_cons, mem_def, Option.some.injEq, forall_eq'] at htold
    have hqueued := h.inQueue
    rw [full] at hqueued
    obtain ⟨first, later, hfirst, hlater, rfl⟩ := forall₂_cons_right_iff.mp hqueued
    exact ⟨_, _, _, _, _, _, h.drop hfirst hlater htold queue conflated gap⟩
  | heldFirst isOpen isFull objectId o policy isObservation first queue conflated gap =>
    have htold := hfullLoss isFull
    rw [policy] at htold
    simp only [isObservation] at htold
    obtain ⟨hm, hobject⟩ := conflatable_eq_some isObservation
    exact ⟨_, _, _, _, _, _, h.holdFirst hm hobject first (htold first) queue conflated gap⟩
  | heldAgain isOpen isFull objectId o previous policy isObservation again queue conflated gap =>
    obtain ⟨hm, hobject⟩ := conflatable_eq_some isObservation
    obtain ⟨p, held', htraced⟩ := h.holdAgain hm hobject again queue conflated gap
    exact ⟨_, _, _, _, _, _, htraced⟩

theorem Traceable.step (h : w.Traceable) (call : Call) (hloss : w.subscription.LossTold call) :
    (w.step call).Traceable := by
  cases call with
  | offer now m => exact h.offer now m hloss
  | drain limit =>
    obtain ⟨arrived, replaced, queued, held, pending, lost, h⟩ := h
    obtain ⟨arrived', queued', lost', hdrained⟩ := h.drain limit
    exact ⟨_, _, _, _, _, _, hdrained⟩

theorem Traceable.accounted (h : w.Traceable) (hdrained : w.subscription.Drained) :
    w.Accounted := by
  obtain ⟨arrived, replaced, queued, held, pending, lost, h⟩ := h
  obtain ⟨hgap, hconflated, hqueue⟩ := hdrained
  have hqueued := h.inQueue
  rw [hqueue] at hqueued
  have hheld := h.inConflated
  unfold values at hheld
  rw [hconflated] at hheld
  obtain rfl := forall₂_nil_right_iff.mp hqueued
  obtain rfl := forall₂_nil_right_iff.mp hheld
  obtain rfl := h.inGap.nothing hgap
  refine ⟨arrived, replaced, lost, ?_, h.delivered, ?_, h.told⟩
  · simpa using h.complete
  · simpa using h.superseded

def opened (subscriptionId : String) (scope : Scope) (filter : SubscriptionFilter)
    (policy : DeliveryPolicy) (now : Instant) : Session :=
  { subscription := .init subscriptionId scope filter policy now }

theorem traceable_opened (subscriptionId : String) (scope : Scope) (filter : SubscriptionFilter)
    (policy : DeliveryPolicy) (now : Instant) :
    (opened subscriptionId scope filter policy now).Traceable := by
  refine ⟨[], [], [], [], [], [], .refl _, .nil, .nil, .nil, ?_, ?_, ?_, .nil⟩
  · intro k o hget
    cases hget
  · intro i hi
    cases hi
  · exact ⟨fun _ => rfl, fun g hg => by cases hg⟩

/-- A slow consumer is never silently skipped: in a run whose every loss can be told, the
    messages offered are accounted for whenever the subscription has been drained. -/
theorem never_silently_skipped (subscriptionId : String) (scope : Scope)
    (filter : SubscriptionFilter) (policy : DeliveryPolicy) (now : Instant) {calls : List Call}
    (h : Runs.Always step (fun w call => w.subscription.LossTold call)
      (opened subscriptionId scope filter policy now) calls) :
    ∀ before, before <+: calls →
      (run step (opened subscriptionId scope filter policy now) before).subscription.Drained →
      (run step (opened subscriptionId scope filter policy now) before).Accounted := by
  intro before hbefore hdrained
  have htraceable : (run step (opened subscriptionId scope filter policy now) before).Traceable :=
    reached_of_always (fun w call hw hloss => hw.step call hloss)
      (traceable_opened subscriptionId scope filter policy now) h hbefore
  exact htraceable.accounted hdrained

/-- A subscription with room for one message, which drops the oldest. -/
def narrow : Session :=
  opened "subscription" { tenantId := "tenant", accepted := rfl } {}
    { queueCapacity := 1, accepted := rfl } ⟨0⟩

/-- Two changes on one camera, the first dropped for the second. -/
def busyStreet : List Call :=
  [.offer ⟨1⟩ (.delta { cameraId := "street", at_ := some ⟨1⟩ }),
    .offer ⟨2⟩ (.delta { cameraId := "street", at_ := some ⟨2⟩ }), .drain 256]

/-- The street's consumer is told of the change it missed. -/
theorem busyStreet_accounted : (run step narrow busyStreet).Accounted := by
  have htold : Runs.Always step (fun w call => w.subscription.LossTold call) narrow
      busyStreet := by
    refine ⟨⟨rfl, fun hfull => absurd hfull (by decide)⟩, ⟨rfl, fun _ dropped hdropped => ?_⟩,
      trivial, trivial⟩
    obtain rfl := some.inj hdropped
    exact ⟨fun g hg => (by cases hg), fun c hc => hc, fun r hr => (by cases hr)⟩
  exact never_silently_skipped "subscription" { tenantId := "tenant", accepted := rfl } {}
    { queueCapacity := 1, accepted := rfl } ⟨0⟩ htold busyStreet (prefix_refl _)
    ⟨rfl, rfl, rfl⟩

def blindness : Gap where
  start := ⟨1⟩
  finish := ⟨1⟩
  reason := .platformBlind
  cameras := ["street"]
  recoverable := false

def blindStreet : List Call :=
  [.offer ⟨1⟩ (.gap blindness),
    .offer ⟨2⟩ (.delta { cameraId := "street", at_ := some ⟨2⟩ }), .drain 256]

/-- The gap that a full queue drops is told as a slow consumer's, of no camera. -/
theorem blindStreet_not_accounted :
    ¬ ∀ (policy : DeliveryPolicy) (calls : List Call),
      let w := run step (opened "subscription" { tenantId := "tenant", accepted := rfl } {}
        policy ⟨0⟩) calls
      w.subscription.Drained → w.Accounted := by
  intro hclaim
  obtain ⟨arrived, replaced, lost, h⟩ :=
    hclaim { queueCapacity := 1, accepted := rfl } blindStreet ⟨rfl, rfl, rfl⟩
  have hblind := h.complete.mem_iff.mpr (mem_range.mpr (Nat.zero_lt_succ 1))
  simp only [mem_append] at hblind
  rcases hblind with (harrived | hreplaced) | hlost
  · -- the change arrived, and nothing else
    obtain ⟨i, rest, hi, hrest, harrived_eq⟩ := forall₂_cons_right_iff.mp h.delivered
    obtain rfl := forall₂_nil_right_iff.mp hrest
    rw [harrived_eq] at harrived
    obtain rfl := mem_singleton.mp harrived
    cases hi
  · obtain ⟨j, -, -, o, -, ho, -⟩ := h.superseded 0 hreplaced
    cases ho
  · obtain ⟨positions, rest, haccounts, hrest, hlost_eq⟩ :=
      forall₂_cons_left_iff.mp h.told
    obtain rfl := forall₂_nil_left_iff.mp hrest
    rw [hlost_eq, flatten_singleton] at hlost
    obtain ⟨m, hm, hnames⟩ := haccounts.named 0 hlost
    obtain rfl := some.inj hm
    cases hnames.reason .platformBlind rfl

end Session

end VisionOs.Exposure
