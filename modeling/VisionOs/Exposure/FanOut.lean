/-
  The fan-out index changes nothing: an id is filed under a key exactly when its subscription asks
  for the key, so the candidates of an observation hold everyone whose scope and filter meet it.
-/
import Mathlib.Algebra.BigOperators.Group.List.Basic
import VisionOs.Exposure.Hub
import VisionOs.State.History

namespace VisionOs.Exposure

open Core Lib OrderedDict List Subscription State.Manager Runs

def Subscription.kinds (s : Subscription) : List ObservationType :=
  if s.filter.observationTypes.isEmpty then ObservationType.members else s.filter.observationTypes

def Subscription.wants (s : Subscription) (o : Observation) : Bool :=
  Hub.inScope s o && s.filter.accepts o

/-- A subscription that is offered what it wants of a batch, one after the other, and how
    many of the offers it takes. -/
def Subscription.served (s : Subscription) (now : Instant) :
    List Observation → Subscription × Nat
  | [] => (s, 0)
  | o :: rest =>
    if s.wants o then
      let (s', accepted) := s.offer now (.observation o)
      let (s'', taken) := s'.served now rest
      (s'', accepted.toNat + taken)
    else s.served now rest

theorem Subscription.served_cons (s : Subscription) (now : Instant) (o : Observation)
    (rest : List Observation) :
    s.served now (o :: rest) =
      if s.wants o then
        (((s.offer now (.observation o)).1.served now rest).1,
          (s.offer now (.observation o)).2.toNat +
            ((s.offer now (.observation o)).1.served now rest).2)
      else s.served now rest := rfl

namespace Hub

def discard {κ : Type} [DecidableEq κ] (index : OrderedDict κ (Finset String)) (id : String) :
    OrderedDict κ (Finset String) :=
  .ofPairs (index.entries.map fun e => (e.1, e.2.erase id))

def remove (hub : Hub) (id : String) : Hub × Option Subscription :=
  match hub.subs.get? id with
  | none => (hub, none)
  | some s =>
    ({ subs := hub.subs.erase id
       byType := discard hub.byType id
       byCamera := discard hub.byCamera id }, some s.close)

inductive Change where
  | add (s : Subscription)
  | remove (id : String)

def change (hub : Hub) : Change → Hub
  | .add s => hub.add s
  | .remove id => (hub.remove id).1

/-- No subscription that is added has the id of one that is registered. -/
def Fresh (hub : Hub) : Change → Prop
  | .add s => hub.subs.get? s.subscriptionId = none
  | .remove _ => True

/-- Everyone an observation is for, found without the index. -/
def audience (hub : Hub) (o : Observation) : List String :=
  hub.meeting hub.subs.keys (·.wants o)

def Indexes {κ : Type} [DecidableEq κ] (index : OrderedDict κ (Finset String))
    (subs : OrderedDict String Subscription) (asks : Subscription → List κ) : Prop :=
  ∀ key id, id ∈ holders index key ↔ ∃ s, subs.get? id = some s ∧ key ∈ asks s

section Index

variable {κ : Type} [DecidableEq κ] {index : OrderedDict κ (Finset String)}
  {subs : OrderedDict String Subscription} {asks : Subscription → List κ}

theorem Indexes.file (h : Indexes index subs asks) {s : Subscription}
    (hnew : subs.get? s.subscriptionId = none) :
    Indexes (Hub.file index (asks s) s.subscriptionId) (subs.set s.subscriptionId s) asks := by
  intro key id
  rw [mem_holders_file, h, get?_set]
  by_cases hid : s.subscriptionId = id
  · rw [if_pos hid, ← hid, hnew]
    simp
  · rw [if_neg hid]
    simp [Ne.symm hid]

theorem mem_holders_discard {id id' : String} {key : κ} :
    id' ∈ holders (discard index id) key ↔ id' ≠ id ∧ id' ∈ holders index key := by
  unfold holders discard
  rw [get?_ofPairs_map index fun _ ids => ids.erase id]
  cases index.get? key with
  | none => simp
  | some ids => exact Finset.mem_erase

theorem Indexes.discard (h : Indexes index subs asks) (id : String) :
    Indexes (Hub.discard index id) (subs.erase id) asks := by
  intro key id'
  rw [mem_holders_discard, h, get?_erase]
  by_cases hid : id' = id
  · simp [hid]
  · simp [hid]

end Index

structure Indexed (hub : Hub) : Prop where
  byType : Indexes hub.byType hub.subs kinds
  byCamera : Indexes hub.byCamera hub.subs (·.scope.cameraIds)

variable {hub hub' : Hub} {now : Instant} {m : Message}

theorem indexed_empty : ({} : Hub).Indexed := by
  refine ⟨fun key id => ⟨fun h => absurd h (Finset.notMem_empty id), ?_⟩,
    fun key id => ⟨fun h => absurd h (Finset.notMem_empty id), ?_⟩⟩ <;>
  · rintro ⟨s, hs, -⟩
    cases hs

theorem Indexed.change (h : hub.Indexed) {c : Change} (hfresh : hub.Fresh c) :
    (hub.change c).Indexed := by
  cases c with
  | add s => exact ⟨h.byType.file hfresh, h.byCamera.file hfresh⟩
  | remove id =>
    show (hub.remove id).1.Indexed
    unfold remove
    cases hub.subs.get? id with
    | none => exact h
    | some s => exact ⟨h.byType.discard id, h.byCamera.discard id⟩

theorem mem_kinds_of_accepts {s : Subscription} {o : Observation}
    (h : s.filter.accepts o = true) : o.observationType ∈ s.kinds := by
  unfold kinds
  split
  · cases o.observationType <;> decide
  · rename_i hsome
    unfold SubscriptionFilter.accepts at h
    simp only [Bool.and_eq_true, Bool.or_eq_true] at h
    rcases h.1.1.1 with hempty | hmem
    · exact absurd hempty hsome
    · exact contains_iff_mem.mp hmem

theorem Indexed.meeting_candidates (h : hub.Indexed) (o : Observation) :
    hub.meeting (hub.candidates o) (·.wants o) = hub.audience o := by
  unfold audience meeting candidates among
  rw [filter_filter]
  refine filter_congr fun id _ => ?_
  cases hs : hub.subs.get? id with
  | none => rfl
  | some s =>
    show (s.wants o && decide _) = s.wants o
    cases hwants : s.wants o with
    | false => rfl
    | true =>
      obtain ⟨hscope, haccepts⟩ := Bool.and_eq_true_iff.mp hwants
      have hcovers := Scope.coversCamera_iff.mp (Bool.and_eq_true_iff.mp hscope).2
      rw [Bool.true_and, decide_eq_true_eq, Finset.mem_inter, Finset.mem_union]
      refine ⟨(h.byType _ _).mpr ⟨s, hs, mem_kinds_of_accepts haccepts⟩, ?_⟩
      rcases hcovers with hempty | hmem
      · exact .inr (mem_unscoped.mpr ⟨s, hs, hempty⟩)
      · exact .inl ((h.byCamera _ _).mpr ⟨s, hs, hmem⟩)

/-! ## Publishing -/

theorem keys_offerEach (hub : Hub) (now : Instant) (m : Message) (ids : List String) :
    (hub.offerEach now m ids).1.subs.keys = hub.subs.keys := by
  induction ids generalizing hub with
  | nil => rfl
  | cons id rest ih =>
    unfold offerEach
    cases hs : hub.subs.get? id with
    | none => exact ih hub
    | some s =>
      refine (ih _).trans ?_
      show (OrderedDict.setIn id _ hub.subs.entries).map Prod.fst = hub.subs.keys
      have hmem : id ∈ hub.subs.entries.map Prod.fst := mem_keys_iff.mpr ⟨s, hs⟩
      rw [map_fst_setIn, if_pos hmem]
      rfl

variable {ids : List String}

theorem offers_offerEach (hub : Hub) (now : Instant) (m : Message)
    (hids : ∀ id ∈ ids, ∃ s, hub.subs.get? id = some s) :
    (hub.offerEach now m ids).2.map (fun offer => (offer.subscriptionId, offer.message)) =
      ids.map (·, m) := by
  induction ids generalizing hub with
  | nil => rfl
  | cons id rest ih =>
    obtain ⟨s, hs⟩ := hids id mem_cons_self
    unfold offerEach
    rw [hs]
    refine congrArg _ (ih { hub with subs := hub.subs.set id (s.offer now m).1 } fun id' hid' => ?_)
    obtain ⟨t, ht⟩ := hids id' (mem_cons_of_mem _ hid')
    obtain ⟨t', ht', -⟩ := (keeps_set hs (s.offer_cases now m).1).held id' t ht
    exact ⟨t', ht'⟩

/-- An offer to each of some subscriptions changes each of them as its own offer does. -/
theorem get?_offerEach (hub : Hub) (now : Instant) (m : Message)
    (hids : ids.Nodup) (id : String) :
    (hub.offerEach now m ids).1.subs.get? id =
      (hub.subs.get? id).map fun s => if id ∈ ids then (s.offer now m).1 else s := by
  induction ids generalizing hub with
  | nil => simp [offerEach]
  | cons i rest ih =>
    obtain ⟨hi, hrest⟩ := nodup_cons.mp hids
    unfold offerEach
    cases hs : hub.subs.get? i with
    | none =>
      refine (ih hub hrest).trans ?_
      by_cases hid : id = i
      · rw [hid, hs]
        rfl
      · simp [hid]
    | some s =>
      refine (ih { hub with subs := hub.subs.set i (s.offer now m).1 } hrest).trans ?_
      dsimp only
      rw [get?_set]
      by_cases hid : i = id
      · -- it comes once, so the later offers leave it alone
        subst hid
        simp [hs, hi]
      · simp [hid, Ne.symm hid]

/-- How many of an offer to each of some subscriptions are accepted. -/
theorem delivered_offerEach (hub : Hub) (now : Instant) (m : Message)
    (hids : ids.Nodup) :
    delivered (hub.offerEach now m ids).2 =
      (ids.map fun id =>
        ((hub.subs.get? id).map fun s => (s.offer now m).2.toNat).getD 0).sum := by
  induction ids generalizing hub with
  | nil => rfl
  | cons i rest ih =>
    obtain ⟨hi, hrest⟩ := nodup_cons.mp hids
    unfold offerEach
    rw [map_cons, sum_cons]
    cases hs : hub.subs.get? i with
    | none => exact (ih hub hrest).trans (Nat.zero_add _).symm
    | some s =>
      have hothers := ih { hub with subs := hub.subs.set i (s.offer now m).1 } hrest
      have hsame : ∀ id ∈ rest,
          (hub.subs.set i (s.offer now m).1).get? id = hub.subs.get? id := by
        intro id hid
        rw [get?_set, if_neg (by rintro rfl; exact hi hid)]
      dsimp only [delivered] at hothers ⊢
      rw [countP_cons, hothers, Nat.add_comm]
      congr 1
      · cases haccepted : (s.offer now m).2 <;> simp [haccepted]
      · refine congrArg List.sum (map_congr_left fun id hid => ?_)
        rw [hsame id hid]

theorem wants_congr {s s' : Subscription} (h : s.SameTerms s') (o : Observation) :
    s'.wants o = s.wants o := by
  unfold wants inScope
  rw [h.scope, h.filter]

theorem audience_congr (hkeeps : hub.Keeps hub') (hkeys : hub'.subs.keys = hub.subs.keys)
    (o : Observation) : hub'.audience o = hub.audience o := by
  unfold audience meeting
  rw [hkeys]
  refine filter_congr fun id _ => ?_
  cases hs : hub.subs.get? id with
  | some s =>
    obtain ⟨s', hs', hterms⟩ := hkeeps.held id s hs
    rw [hs']
    exact wants_congr hterms o
  | none =>
    cases hs' : hub'.subs.get? id with
    | none => rfl
    | some s' =>
      obtain ⟨s, hheld, -⟩ := hkeeps.terms id s' hs'
      cases hs.symm.trans hheld

theorem Indexed.keeps (h : hub.Indexed) (hkeeps : hub.Keeps hub') : hub'.Indexed := by
  have hsame : ∀ {κ : Type} [DecidableEq κ] {index : OrderedDict κ (Finset String)}
      {asks : Subscription → List κ}, (∀ s s', s.SameTerms s' → asks s' = asks s) →
      Indexes index hub.subs asks → Indexes index hub'.subs asks := by
    intro κ _ index asks hasks hindexes key id
    rw [hindexes]
    constructor
    · rintro ⟨s, hs, hkey⟩
      obtain ⟨s', hs', hterms⟩ := hkeeps.held id s hs
      exact ⟨s', hs', hasks s s' hterms ▸ hkey⟩
    · rintro ⟨s', hs', hkey⟩
      obtain ⟨s, hs, hterms⟩ := hkeeps.terms id s' hs'
      exact ⟨s, hs, hasks s s' hterms ▸ hkey⟩
  constructor
  · rw [hkeeps.byType]
    exact hsame (fun s s' hterms => by unfold kinds; rw [hterms.filter]) h.byType
  · rw [hkeeps.byCamera]
    exact hsame (fun s s' hterms => by rw [hterms.scope]) h.byCamera

theorem Indexed.publish (h : hub.Indexed) (now : Instant) (batch : List Observation) :
    (hub.publish now batch).2.map (fun offer => (offer.subscriptionId, offer.message)) =
      batch.flatMap fun o => (hub.audience o).map (·, .observation o) := by
  induction batch generalizing hub with
  | nil => rfl
  | cons o rest ih =>
    have haudience : hub.meeting (hub.candidates o)
        (fun s => inScope s o && s.filter.accepts o) = hub.audience o := h.meeting_candidates o
    have hheld : ∀ id ∈ hub.audience o, ∃ s, hub.subs.get? id = some s := fun id hid => by
      obtain ⟨s, hs, -⟩ := (mem_meeting.mp hid).2
      exact ⟨s, hs⟩
    have hkeeps := (hub.offerEach_spec now (.observation o) (hub.audience o)).1
    have hkeys := hub.keys_offerEach now (.observation o) (hub.audience o)
    unfold Hub.publish
    rw [haudience, map_append, offers_offerEach hub now _ hheld, ih (h.keeps hkeeps),
      flatMap_cons]
    simp only [audience_congr hkeeps hkeys]

/-- A sum over some of a list, as a sum over all of it. -/
theorem sum_map_filter (ids : List String) (p : String → Bool) (f : String → Nat) :
    ((ids.filter p).map f).sum = (ids.map fun id => if p id then f id else 0).sum := by
  induction ids with
  | nil => rfl
  | cons id rest ih =>
    rw [filter_cons, map_cons, sum_cons]
    split
    · rw [map_cons, sum_cons, ih]
    · rw [ih, Nat.zero_add]

/-- A batch leaves every subscription as if it alone were served, and what the hub counts as
    delivered is what they take. -/
theorem Indexed.served (h : hub.Indexed) (now : Instant) (batch : List Observation) :
    (∀ id, (hub.publish now batch).1.subs.get? id =
      (hub.subs.get? id).map fun s => (s.served now batch).1) ∧
    delivered (hub.publish now batch).2 =
      (hub.subs.keys.map fun id =>
        ((hub.subs.get? id).map fun s => (s.served now batch).2).getD 0).sum := by
  -- over the batch: an offer keeps the index, so the audience is found anew each time
  induction batch generalizing hub with
  | nil =>
    refine ⟨fun id => ?_, ?_⟩
    · show hub.subs.get? id = (hub.subs.get? id).map fun s => s
      rw [Option.map_id']
    · have hzero : ∀ id ∈ hub.subs.keys,
          ((hub.subs.get? id).map fun s => (s.served now []).2).getD 0 = 0 := by
        intro id _
        cases hub.subs.get? id <;> rfl
      rw [map_congr_left hzero]
      simp [Hub.publish, delivered]
  | cons o rest ih =>
    have haudience : hub.meeting (hub.candidates o)
        (fun s => inScope s o && s.filter.accepts o) = hub.audience o := h.meeting_candidates o
    have hnodup : (hub.audience o).Nodup := hub.subs.nodupKeys.filter _
    have hkeeps := (hub.offerEach_spec now (.observation o) (hub.audience o)).1
    have hkeys := hub.keys_offerEach now (.observation o) (hub.audience o)
    have hget := hub.get?_offerEach now (.observation o) hnodup
    have hmem : ∀ id s, hub.subs.get? id = some s → (id ∈ hub.audience o ↔ s.wants o = true) := by
      intro id s hs
      unfold audience
      rw [mem_meeting, hs]
      simp [mem_keys_iff, hs]
    obtain ⟨hsubs, hcount⟩ := ih (h.keeps hkeeps)
    unfold Hub.publish
    rw [haudience]
    dsimp only
    constructor
    · intro id
      rw [hsubs, hget]
      cases hs : hub.subs.get? id with
      | none => rfl
      | some s =>
        simp only [Option.map_some, hmem id s hs, Subscription.served_cons]
        split <;> rfl
    · have hfirst := hub.delivered_offerEach now (.observation o) hnodup
      unfold delivered at hfirst hcount ⊢
      rw [countP_append, hfirst, hcount, hkeys]
      unfold audience meeting
      rw [sum_map_filter, ← sum_map_add]
      refine congrArg List.sum (map_congr_left fun id _ => ?_)
      have hone := hget id
      unfold audience meeting at hone
      rw [hone]
      cases hs : hub.subs.get? id with
      | none => rfl
      | some s =>
        have hmem' := hmem id s hs
        unfold audience meeting at hmem'
        simp only [Option.any_some, Option.map_some, Option.getD_some, hmem',
          Subscription.served_cons]
        split
        · rfl
        · exact Nat.zero_add _

/-- A sum over the keys, as a sum over the values. -/
theorem sum_keys (subs : OrderedDict String Subscription) (f : Subscription → Nat) :
    (subs.keys.map fun id => ((subs.get? id).map f).getD 0).sum = (subs.values.map f).sum := by
  unfold OrderedDict.keys OrderedDict.values
  rw [map_map, map_map]
  refine congrArg List.sum (map_congr_left fun e he => ?_)
  show ((subs.get? e.1).map f).getD 0 = f e.2
  rw [get?_eq_some_iff.mpr he]
  rfl

/-- After any history of additions and removals a batch is offered to exactly the registered
    subscriptions that want each observation, each once, as if there were no index: so the
    offers are made, every subscription is left so, and so many deliveries are counted. -/
theorem publish_unindexed {history : List Change} (hfresh : Runs.Always change Fresh {} history)
    (now : Instant) (batch : List Observation) :
    let hub := run change {} history
    let published := hub.publish now batch
    published.2.map (fun offer => (offer.subscriptionId, offer.message)) =
        (batch.flatMap fun o => (hub.audience o).map (·, .observation o)) ∧
      (∀ id, published.1.subs.get? id =
        (hub.subs.get? id).map fun s => (s.served now batch).1) ∧
      delivered published.2 = (hub.subs.values.map fun s => (s.served now batch).2).sum := by
  have hindexed : (run change {} history).Indexed :=
    reached_of_always (fun _ _ h hfresh => h.change hfresh) indexed_empty hfresh prefix_rfl
  obtain ⟨hsubs, hcount⟩ := hindexed.served now batch
  exact ⟨hindexed.publish now batch, hsubs, hcount.trans (sum_keys _ _)⟩

theorem screenPolicy_accepted : DeliveryPolicyFields.postInit {} = .ok () := rfl

def screenOf (subscriptionId : String) (cameraIds : List CameraId) : Subscription :=
  .init subscriptionId { tenantId := "tenant", cameraIds, accepted := rfl } {}
    ⟨{}, screenPolicy_accepted⟩ ⟨0⟩

/-- One screen of every camera, one of the north that is replaced by one of the south. -/
def screens : List Change :=
  [.add (screenOf "all" []), .add (screenOf "north" ["north"]), .remove "north",
    .add (screenOf "south" ["south"])]

/-- What happens in the north waits on the screen of every camera, and on no other. -/
theorem publish_unindexed_screens :
    (run change {} screens).audience (seenAt 1) = ["all"] ∧
      let published := (run change {} screens).publish ⟨1⟩ [seenAt 1]
      (published.1.subs.get? "all").map (·.queue.length) = some 1 ∧
        (published.1.subs.get? "south").map (·.queue.length) = some 0 ∧
        delivered published.2 = 1 := by
  have hfresh : Runs.Always change Fresh {} screens := ⟨rfl, rfl, trivial, rfl, trivial⟩
  have hpublished := publish_unindexed hfresh ⟨1⟩ [seenAt 1]
  refine ⟨by decide +kernel, ?_, ?_, ?_⟩
  · exact (congrArg _ (hpublished.2.1 "all")).trans (by decide +kernel)
  · exact (congrArg _ (hpublished.2.1 "south")).trans (by decide +kernel)
  · exact hpublished.2.2.trans (by decide +kernel)

end Hub

end VisionOs.Exposure
