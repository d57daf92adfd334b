/-
  In which order a subscription delivers, and how much it holds.  An observation that is held back
  under its object is one more than the capacity, and overtakes what is queued.
-/
import VisionOs.Exposure.Delivery
import VisionOs.State.History

namespace VisionOs.Exposure

open Core Lib List Subscription Message State.Manager OrderedDict

namespace Subscription

def depth (s : Subscription) : Nat := s.queue.length + s.conflated.size

/-- An offer that `_conflate` holds back under its object. -/
def HoldsBack (s : Subscription) : Call → Prop
  | .offer _ m => s.closed = false ∧ s.Full ∧ s.policy.overflow = .conflate ∧
      (conflatable m).isSome = true
  | .drain _ => False

end Subscription

def Message.observation? : Message → Option Observation
  | .observation o => some o
  | .delta _ | .gap _ | .heartbeat _ | .coverage _ => none

namespace Session

/-- What was delivered came in the order in which it was offered, the cursor names the newest of
    it, and no more is held than the queue may hold. -/
structure Orderly (w : Session) : Prop where
  ordered : (w.delivered.filterMap observation?).Sublist
    (w.offered.filterMap observation?)
  newest : w.subscription.cursor =
    ((w.delivered.filterMap observation?).getLast?.map (·.observationId)).or
      w.subscription.policy.resumeFrom
  bounded : (w.subscription.depth : Int) ≤ w.subscription.policy.queueCapacity

/-- A drain gives no more than it was asked for. -/
def WithinLimit (w : Session) : Call → Prop
  | .offer .. => True
  | .drain limit => ((w.subscription.drain limit).2.length : Int) ≤ limit

structure Queued (w : Session) : Prop where
  nothingHeld : w.subscription.conflated.entries = []
  ordered : (w.delivered ++ w.subscription.queue).Sublist w.offered
  cursor : w.subscription.cursor =
    (w.delivered.reverse.findSome? cursorOf).or w.subscription.policy.resumeFrom
  bounded : (w.subscription.queue.length : Int) ≤ w.subscription.policy.queueCapacity

instance (w : Session) (call : Call) : Decidable (w.WithinLimit call) :=
  match call with
  | .offer .. => .isTrue trivial
  | .drain limit => inferInstanceAs (Decidable (((w.subscription.drain limit).2.length : Int) ≤ limit))

variable {w : Session}

theorem findSome?_cursorOf (messages : List Message) :
    messages.reverse.findSome? cursorOf =
      (messages.filterMap observation?).getLast?.map (·.observationId) := by
  induction messages using List.reverseRecOn with
  | nil => rfl
  | append_singleton messages m ih =>
    have hsplit : (messages ++ [m]).filterMap observation? =
        messages.filterMap observation? ++ m.observation?.toList := by
      rw [filterMap_append]
      cases m <;> rfl
    rw [hsplit, reverse_concat, findSome?_cons]
    cases m with
    | observation o =>
      rw [show (observation o).observation?.toList = [o] from rfl, getLast?_concat]
      rfl
    | delta _ | gap _ | heartbeat _ | coverage _ =>
      exact ih.trans (congrArg _ (congrArg _ (append_nil _).symm))

theorem Queued.orderly (h : w.Queued) : w.Orderly where
  ordered := ((sublist_append_left _ _).trans h.ordered).filterMap _
  newest := by rw [h.cursor, findSome?_cursorOf]
  bounded := by
    unfold depth size
    rw [h.nothingHeld]
    simpa using h.bounded

theorem queued_opened (subscriptionId : String) (scope : Scope) (filter : SubscriptionFilter)
    (policy : DeliveryPolicy) (now : Instant) :
    (opened subscriptionId scope filter policy now).Queued where
  nothingHeld := rfl
  ordered := .refl []
  cursor := rfl
  bounded := (Int.natCast_zero.symm ▸ zero_le_one).trans policy.capacity_pos

theorem cursor_offer (s : Subscription) (now : Instant) (m : Message) :
    (s.offer now m).1.cursor = s.cursor := by
  have hgap : ∀ (s : Subscription) (around : Message) (missed : Nat),
      (s.noteGap now around .slowConsumer missed).cursor = s.cursor := fun s around missed => by
    unfold noteGap
    split <;> rfl
  unfold offer overflow conflate
  split
  · rfl
  split
  · split
    · split
      · exact hgap ..
      · dsimp only
        split
        · exact hgap ..
        · rfl
    · exact hgap ..
    · split
      · rfl
      · exact hgap ..
  · rfl

theorem Queued.offer (h : w.Queued) {now : Instant} {m : Message}
    (hfree : ¬ w.subscription.HoldsBack (.offer now m)) : (w.step (.offer now m)).Queued := by
  obtain ⟨hterms, hoffer⟩ := w.subscription.offer_cases now m
  have hcursor := cursor_offer w.subscription now m
  have hmore : w.offered.Sublist (w.offered ++ [m]) := sublist_append_left _ _
  -- Whatever the offer does, the terms and the cursor are as before.
  have hkeep : ∀ {queue : List Message}, (w.subscription.offer now m).1.queue = queue →
      (w.subscription.offer now m).1.conflated = w.subscription.conflated →
      (w.delivered ++ queue).Sublist (w.offered ++ [m]) →
      (queue.length : Int) ≤ w.subscription.policy.queueCapacity →
      (w.step (.offer now m)).Queued := by
    rintro queue rfl hconflated hordered hbounded
    refine ⟨?_, hordered, ?_, ?_⟩
    · show (w.subscription.offer now m).1.conflated.entries = []
      rw [hconflated]
      exact h.nothingHeld
    · show (w.subscription.offer now m).1.cursor = _
      rw [hcursor, h.cursor, ← hterms.policy]
      rfl
    · show ((w.subscription.offer now m).1.queue.length : Int) ≤
        (w.subscription.offer now m).1.policy.queueCapacity
      rw [hterms.policy]
      exact hbounded
  cases hoffer with
  | closed _ hsame =>
    exact hkeep (congrArg _ hsame) (congrArg _ hsame) (h.ordered.trans hmore) h.bounded
  | queued _ hroom hqueue hconflated _ =>
    refine hkeep hqueue hconflated ?_ ?_
    · rw [← append_assoc]
      exact h.ordered.append_right [m]
    · rw [length_append, length_singleton]
      unfold Subscription.Full at hroom
      omega
  | refused _ _ _ _ hqueue hconflated _ =>
    exact hkeep hqueue hconflated (h.ordered.trans hmore) h.bounded
  | dropped _ _ oldest rest _ hfull hqueue hconflated _ =>
    refine hkeep hqueue hconflated ?_ ?_
    · have hrest : (w.delivered ++ rest).Sublist w.offered := by
        refine List.Sublist.trans (List.Sublist.append_left ?_ _) h.ordered
        rw [hfull]
        exact sublist_cons_self oldest rest
      rw [← append_assoc]
      exact hrest.append_right [m]
    · have hbounded := h.bounded
      rw [hfull] at hbounded
      simpa using hbounded
  | heldFirst hopen hfull objectId o hpolicy hkind _ _ _ _ =>
    exact absurd ⟨hopen, hfull, hpolicy, by rw [hkind]; rfl⟩ hfree
  | heldAgain hopen hfull objectId o _ hpolicy hkind _ _ _ _ =>
    exact absurd ⟨hopen, hfull, hpolicy, by rw [hkind]; rfl⟩ hfree

theorem Queued.ahead (h : w.Queued) :
    w.subscription.ahead = w.subscription.pendingGap.toList.map .gap := by
  unfold Subscription.ahead values
  rw [h.nothingHeld]
  exact append_nil _

theorem Queued.drain (h : w.Queued) (limit : Int) : (w.step (.drain limit)).Queued := by
  generalize hroom : w.subscription.room limit = room
  have hdelivered : (w.step (.drain limit)).delivered =
      w.delivered ++ w.subscription.queue.take room := by
    show w.delivered ++ ((w.subscription.drain limit).2.drop
      w.subscription.pendingGap.toList.length) = _
    unfold Subscription.drain
    rw [h.ahead, hroom, drop_left' (length_map ..)]
  refine ⟨rfl, ?_, ?_, ?_⟩
  · rw [hdelivered, append_assoc]
    show (w.delivered ++ (w.subscription.queue.take room ++
      w.subscription.queue.drop (w.subscription.room limit))).Sublist w.offered
    rw [hroom, take_append_drop]
    exact h.ordered
  · show ((w.subscription.ahead ++ w.subscription.queue.take (w.subscription.room limit)).reverse.findSome?
      cursorOf).or w.subscription.cursor = _
    have hgap : (w.subscription.pendingGap.toList.map gap).reverse.findSome?
        cursorOf = none := by
      cases w.subscription.pendingGap <;> rfl
    rw [hdelivered, h.ahead, hroom, h.cursor, reverse_append, reverse_append,
      findSome?_append, findSome?_append, hgap, Option.or_none, Option.or_assoc]
    rfl
  · refine le_trans ?_ h.bounded
    show ((w.subscription.queue.drop (w.subscription.room limit)).length : Int) ≤ _
    rw [length_drop]
    omega

theorem Queued.withinLimit (h : w.Queued) {call : Call}
    (hlimit : ∀ limit, call = .drain limit → 1 ≤ limit) : w.WithinLimit call := by
  cases call with
  | offer => trivial
  | drain limit =>
    have hpos := hlimit limit rfl
    have hgap : (w.subscription.ahead).length ≤ 1 := by
      rw [h.ahead]
      cases w.subscription.pendingGap <;> simp
    show ((w.subscription.ahead ++ w.subscription.queue.take
      (w.subscription.room limit)).length : Int) ≤ limit
    rw [length_append, length_take]
    unfold room
    omega

theorem not_orderly_of_holdsBack {call : Call} (h : w.subscription.HoldsBack call) :
    ¬ (w.step call).Orderly := by
  cases call with
  | drain => exact h.elim
  | offer now m =>
    intro horderly
    obtain ⟨hopen, hfull, hpolicy, hkind⟩ := h
    obtain ⟨⟨objectId, o⟩, hkind⟩ := Option.isSome_iff_exists.mp hkind
    have hterms := (w.subscription.offer_cases now m).1
    have hheld : (w.subscription.offer now m).1.queue = w.subscription.queue ∧
        (w.subscription.offer now m).1.conflated = w.subscription.conflated.set objectId o := by
      cases (w.subscription.offer_cases now m).2 with
      | closed hclosed _ => exact absurd (hopen.symm.trans hclosed) (by decide)
      | queued _ hroom => exact absurd hfull hroom
      | refused _ _ _ hother =>
        rcases hother with ⟨hother, -⟩ | ⟨-, hother, -⟩
        · exact absurd (hpolicy.symm.trans hother) (by decide)
        · exact absurd (hkind.symm.trans hother) (by simp)
      | dropped _ _ _ _ hother => exact absurd (hpolicy.symm.trans hother) (by decide)
      | heldFirst _ _ objectId' o' _ hkind' _ hqueue hconflated _ =>
        obtain ⟨rfl, rfl⟩ := Prod.mk.inj (Option.some.inj (hkind.symm.trans hkind'))
        exact ⟨hqueue, hconflated⟩
      | heldAgain _ _ objectId' o' _ _ hkind' _ hqueue hconflated _ =>
        obtain ⟨rfl, rfl⟩ := Prod.mk.inj (Option.some.inj (hkind.symm.trans hkind'))
        exact ⟨hqueue, hconflated⟩
    have hbounded : (((w.subscription.offer now m).1.depth : Nat) : Int) ≤
        (w.subscription.offer now m).1.policy.queueCapacity := horderly.bounded
    have hself := get?_set_self w.subscription.conflated objectId o
    have hsome : 0 < (w.subscription.conflated.set objectId o).size :=
      length_pos_of_mem (get?_eq_some_iff.mp hself)
    unfold depth at hbounded
    rw [hheld.1, hheld.2, hterms.policy] at hbounded
    unfold Subscription.Full at hfull
    omega

/-- A subscription delivers in order, within its limits, exactly as long as no observation of an
    object is offered to a full queue that conflates. -/
theorem delivers_in_order_iff (subscriptionId : String) (scope : Scope)
    (filter : SubscriptionFilter) (policy : DeliveryPolicy) (now : Instant) {calls : List Call}
    (hlimits : ∀ limit, .drain limit ∈ calls → 1 ≤ limit) :
    ((∀ before, before <+: calls →
        (Runs.run step (opened subscriptionId scope filter policy now) before).Orderly) ∧
      Runs.Always step WithinLimit (opened subscriptionId scope filter policy now) calls) ↔
    Runs.Always step (fun w call => ¬ w.subscription.HoldsBack call)
      (opened subscriptionId scope filter policy now) calls := by
  have hkeep : ∀ (w : Session) (call : Call), w.Queued → ¬ w.subscription.HoldsBack call →
      (w.step call).Queued := by
    intro w call h hfree
    cases call with
    | offer now m => exact h.offer hfree
    | drain limit => exact h.drain limit
  have hstart := queued_opened subscriptionId scope filter policy now
  have hreached := @Runs.reached_iff_always Session Call step Queued Orderly
    (fun w call => ¬ w.subscription.HoldsBack call) (fun _ h => h.orderly) hkeep
    (fun _ _ _ hheld => not_orderly_of_holdsBack (not_not.mp hheld)) _ hstart calls
  refine ⟨fun h => hreached.mp h.1, fun h => ⟨hreached.mpr h, ?_⟩⟩
  generalize opened subscriptionId scope filter policy now = w at h hstart
  clear hreached
  induction calls generalizing w with
  | nil => trivial
  | cons call rest ih =>
    refine ⟨hstart.withinLimit fun limit hcall => hlimits limit ?_,
      ih (fun limit hlimit => hlimits limit (mem_cons_of_mem _ hlimit)) _ h.2
        (hkeep w call hstart h.1)⟩
    rw [← hcall]
    exact mem_cons_self

theorem screenScope_accepted : ScopeFields.postInit { tenantId := "tenant" } = .ok () := rfl

/-- A subscription with room for one message, which conflates. -/
def screen : Session :=
  opened "subscription" { tenantId := "tenant", accepted := screenScope_accepted } {}
    { overflow := .conflate, queueCapacity := 1, accepted := rfl } ⟨0⟩

def attended : List Call :=
  [.offer ⟨1⟩ (.observation (seenAt 1)), .drain 1,
    .offer ⟨2⟩ (.observation (seenAt 2)), .drain 1]

theorem attended_in_order :
    (∀ before, before <+: attended → (Runs.run step screen before).Orderly) ∧
      Runs.Always step WithinLimit screen attended := by
  refine (delivers_in_order_iff _ _ _ _ _ fun limit hlimit => ?_).mpr ?_
  · simp only [attended, mem_cons, reduceCtorEq, Call.drain.injEq, false_or,
      not_mem_nil, or_false, or_self] at hlimit
    exact hlimit.ge
  · refine ⟨fun h => absurd h.2.1 ?_, id, fun h => absurd h.2.1 ?_, id, trivial⟩
    · decide
    · decide

/-- Two changes of somebody, and two drains after both. -/
def neglected : List Call :=
  [.offer ⟨1⟩ (.observation (seenAt 1)), .offer ⟨2⟩ (.observation (seenAt 2)),
    .drain 1, .drain 1]

/-- The second change is delivered before the first, in a drain beyond its limit, and the cursor
    ends on the first. -/
theorem neglected_out_of_order :
    (Runs.run step screen neglected).delivered.filterMap cursorOf = ["seen-2", "seen-1"] ∧
      (Runs.run step screen neglected).subscription.cursor = some "seen-1" ∧
      ¬ Runs.Always step WithinLimit screen neglected ∧
      ¬ ∀ before, before <+: neglected → (Runs.run step screen before).Orderly := by
  refine ⟨by decide +kernel, by decide +kernel, fun h => absurd h.2.2.1 (by decide), fun h => ?_⟩
  exact absurd (h (neglected.take 2) ( take_prefix 2 neglected)).bounded (by decide)

end Session

end VisionOs.Exposure
