/-
  Whether a subscription only ever hears of its own tenant.
-/
import VisionOs.Exposure.Hub

namespace VisionOs.Exposure

open Core Lib List Option Subscription OrderedDict Scope

namespace Hub

section Tenants

variable (tenantOf : CameraId → TenantId)

/-- The message is for everybody, or names a camera of the subscriber's tenant and scope. -/
def Concerns (s : Subscription) (m : Message) : Prop :=
  m.concerns = [] ∨
    ∃ c ∈ m.concerns, tenantOf c = s.scope.tenantId ∧ s.scope.coversCamera c = true

/-- A subscription hears of its own tenant only, and a platform gap reaches every subscription
    that it concerns. -/
structure HearsOwn (hub : Hub) (p : Publication) : Prop where
  own : ∀ offer ∈ (hub.publishing p).2, ∀ s, hub.subs.get? offer.subscriptionId = some s →
    Concerns tenantOf s offer.message
  reached : ∀ now g, p = .gap now g → ∀ id s, hub.subs.get? id = some s →
    Concerns tenantOf s (.gap g) →
      ∃ offer ∈ (hub.publishing p).2, offer.subscriptionId = id ∧ offer.message = .gap g

/-- Each observation published is its camera's tenant's. -/
def Owned : Publication → Prop
  | .observations _ batch => ∀ o ∈ batch, o.tenantId = tenantOf o.cameraId
  | .delta _ _ | .coverage _ _ | .gap _ _ => True

/-- Whoever's scope covers a camera of the message covers one of its own tenant among them;
    and where a gap names no camera, some subscription is scoped to one. -/
def Fits (subscriptions : List Subscription) : Publication → Prop
  | .observations _ _ => True
  | .delta _ d => ∀ s ∈ subscriptions, s.scope.coversCamera d.cameraId = true →
      tenantOf d.cameraId = s.scope.tenantId
  | .coverage _ c => ∀ s ∈ subscriptions, s.scope.coversCamera c.cameraId = true →
      tenantOf c.cameraId = s.scope.tenantId
  | .gap _ g =>
    if g.cameras = [] then
      subscriptions = [] ∨ ∃ s ∈ subscriptions, s.scope.cameraIds ≠ []
    else ∀ s ∈ subscriptions, (∃ c ∈ g.cameras, s.scope.coversCamera c = true) →
      ∃ c ∈ g.cameras, tenantOf c = s.scope.tenantId ∧ s.scope.coversCamera c = true

end Tenants

/-! ## The hub that serves some subscriptions -/

/-- The hub holds exactly these subscriptions, filed under their cameras. -/
structure Serves (hub : Hub) (subscriptions : List Subscription) : Prop where
  terms : ∀ id s', hub.subs.get? id = some s' →
    ∃ s ∈ subscriptions, s.subscriptionId = id ∧ s.SameTerms s'
  held : ∀ s ∈ subscriptions, ∃ s', hub.subs.get? s.subscriptionId = some s' ∧ s.SameTerms s'
  filed : ∀ c id, id ∈ holders hub.byCamera c ↔
    ∃ s ∈ subscriptions, s.subscriptionId = id ∧ c ∈ s.scope.cameraIds
  cameras : ∀ c, c ∈ hub.byCamera.keys ↔ ∃ s ∈ subscriptions, c ∈ s.scope.cameraIds

variable {hub hub' : Hub} {subscriptions : List Subscription} {id : String}
  {s s' : Subscription} {tenantOf : CameraId → TenantId}

theorem Serves.add (h : hub.Serves subscriptions)
    (hnew : s.subscriptionId ∉ subscriptions.map subscriptionId) :
    (hub.add s).Serves (subscriptions ++ [s]) := by
  unfold Hub.add
  refine ⟨?_, ?_, ?_, ?_⟩
  · intro id t ht
    rw [get?_set] at ht
    split at ht
    · obtain rfl := some.inj ht
      exact ⟨s, by simp, ‹_›, .refl s⟩
    · obtain ⟨t₀, ht₀, hid, hterms⟩ := h.terms id t ht
      exact ⟨t₀, mem_append_left _ ht₀, hid, hterms⟩
  · intro t ht
    rcases mem_append.mp ht with hold | hadded
    · have hid : s.subscriptionId ≠ t.subscriptionId := fun heq =>
        hnew (heq ▸ mem_map_of_mem hold)
      obtain ⟨t', ht', hterms⟩ := h.held t hold
      exact ⟨t', by rw [get?_set, if_neg hid]; exact ht', hterms⟩
    · rw [mem_singleton.mp hadded]
      exact ⟨s, get?_set_self _ _ _, .refl s⟩
  · intro c id
    rw [mem_holders_file, h.filed c id]
    simp only [mem_append, mem_singleton]
    constructor
    · rintro (⟨t, ht, hid, hc⟩ | ⟨rfl, hc⟩)
      · exact ⟨t, .inl ht, hid, hc⟩
      · exact ⟨s, .inr rfl, rfl, hc⟩
    · rintro ⟨t, ht | rfl, hid, hc⟩
      · exact .inl ⟨t, ht, hid, hc⟩
      · exact .inr ⟨hid.symm, hc⟩
  · intro c
    rw [mem_keys_file, h.cameras c]
    simp only [mem_append, mem_singleton]
    constructor
    · rintro (⟨t, ht, hc⟩ | hc)
      · exact ⟨t, .inl ht, hc⟩
      · exact ⟨s, .inr rfl, hc⟩
    · rintro ⟨t, ht | rfl, hc⟩
      · exact .inl ⟨t, ht, hc⟩
      · exact .inr hc

theorem serves_serving (hids : (subscriptions.map subscriptionId).Nodup) :
    (serving subscriptions).Serves subscriptions := by
  have hempty : ({} : Hub).Serves [] := by
    refine ⟨fun id s' h => (by cases h), fun s hs => (by cases hs), fun c id => ?_, fun c => ?_⟩
    · refine ⟨fun hid => absurd hid (Finset.notMem_empty id), ?_⟩
      rintro ⟨s, hs, -⟩
      cases hs
    · refine ⟨fun hc => absurd hc not_mem_nil, ?_⟩
      rintro ⟨s, hs, -⟩
      cases hs
  unfold serving
  induction subscriptions using List.reverseRecOn with
  | nil => exact hempty
  | append_singleton rest s ih =>
    rw [map_append, nodup_append] at hids
    obtain ⟨hrest, -, hdisjoint⟩ := hids
    rw [foldl_append]
    refine (ih hrest).add fun hmem => ?_
    exact hdisjoint _ hmem s.subscriptionId (by simp) rfl

theorem Serves.keeps (h : hub.Serves subscriptions) (hkeeps : hub.Keeps hub') :
    hub'.Serves subscriptions where
  terms := by
    intro id s'' hs''
    obtain ⟨s', hs', hterms'⟩ := hkeeps.terms id s'' hs''
    obtain ⟨s, hs, hid, hterms⟩ := h.terms id s' hs'
    exact ⟨s, hs, hid, hterms.trans hterms'⟩
  held := by
    intro s hs
    obtain ⟨s', hs', hterms⟩ := h.held s hs
    obtain ⟨s'', hs'', hterms'⟩ := hkeeps.held _ s' hs'
    exact ⟨s'', hs'', hterms.trans hterms'⟩
  filed := by
    rw [hkeeps.byCamera]
    exact h.filed
  cameras := by
    rw [hkeeps.byCamera]
    exact h.cameras

variable {camera : CameraId}

theorem Serves.mem_forCamera (h : hub.Serves subscriptions) :
    id ∈ hub.forCamera camera ↔
      ∃ s, hub.subs.get? id = some s ∧ s.scope.coversCamera camera = true := by
  unfold forCamera
  rw [mem_among, Finset.mem_union, h.filed, mem_unscoped]
  constructor
  · rintro ⟨-, ⟨s, hs, rfl, hcamera⟩ | ⟨s, hs, hempty⟩⟩
    · obtain ⟨s', hs', hterms⟩ := h.held s hs
      refine ⟨s', hs', coversCamera_iff.mpr (.inr ?_)⟩
      rw [hterms.scope]
      exact hcamera
    · exact ⟨s, hs, coversCamera_iff.mpr (.inl hempty)⟩
  · rintro ⟨s, hs, hcovers⟩
    refine ⟨⟨s, hs⟩, ?_⟩
    rcases coversCamera_iff.mp hcovers with hempty | hcamera
    · exact .inr ⟨s, hs, hempty⟩
    · obtain ⟨t, ht, hid, hterms⟩ := h.terms id s hs
      rw [hterms.scope] at hcamera
      exact .inl ⟨t, ht, hid, hcamera⟩

theorem Serves.forall_scope (h : hub.Serves subscriptions) (P : Scope → Prop) :
    (∀ id s, hub.subs.get? id = some s → P s.scope) ↔ ∀ s ∈ subscriptions, P s.scope := by
  constructor
  · intro hall s hs
    obtain ⟨s', hs', hterms⟩ := h.held s hs
    rw [← hterms.scope]
    exact hall _ s' hs'
  · intro hall id s' hs'
    obtain ⟨s, hs, -, hterms⟩ := h.terms id s' hs'
    rw [hterms.scope]
    exact hall s hs

/-! ## One call -/

theorem concerns_congr {m : Message} (h : s.SameTerms s') :
    Concerns tenantOf s' m ↔ Concerns tenantOf s m := by
  unfold Concerns
  rw [h.scope]

theorem own_offerEach (hub : Hub) (now : Instant) (m : Message) (audience : List String) :
    (∀ offer ∈ (hub.offerEach now m audience).2, ∀ s,
        hub.subs.get? offer.subscriptionId = some s → Concerns tenantOf s offer.message) ↔
      ∀ id ∈ audience, ∀ s, hub.subs.get? id = some s → Concerns tenantOf s m := by
  obtain ⟨-, hoffered, hreached⟩ := hub.offerEach_spec now m audience
  constructor
  · intro hown id hid s hs
    obtain ⟨offer, hoffer, rfl, hmessage⟩ :=
      hreached id hid (isSome_iff_exists.mpr ⟨s, hs⟩)
    rw [← hmessage]
    exact hown offer hoffer s hs
  · intro hconcerns offer hoffer s hs
    obtain ⟨hmem, hmessage⟩ := hoffered offer hoffer
    rw [hmessage]
    exact hconcerns _ hmem s hs

theorem keeps_publish (hub : Hub) (now : Instant) (batch : List Observation) :
    hub.Keeps (hub.publish now batch).1 := by
  induction batch generalizing hub with
  | nil => exact .refl hub
  | cons o rest ih =>
    exact (hub.offerEach_spec now _ _).1.trans (ih _)

theorem keeps_publishing (hub : Hub) (p : Publication) : hub.Keeps (hub.publishing p).1 := by
  cases p with
  | observations now batch => exact keeps_publish hub now batch
  | delta now d => exact (hub.offerEach_spec now _ _).1
  | coverage now c => exact (hub.offerEach_spec now _ _).1
  | gap now g => exact (hub.offerEach_spec now _ _).1

theorem own_publish (hub : Hub) (now : Instant) {batch : List Observation}
    (howned : ∀ o ∈ batch, o.tenantId = tenantOf o.cameraId) :
    ∀ offer ∈ (hub.publish now batch).2, ∀ s,
      hub.subs.get? offer.subscriptionId = some s → Concerns tenantOf s offer.message := by
  induction batch generalizing hub with
  | nil =>
    intro offer hoffer
    cases hoffer
  | cons o rest ih =>
    obtain ⟨ho, hrest⟩ := forall_mem_cons.mp howned
    intro offer hoffer s hs
    rcases mem_append.mp hoffer with hfirst | hlater
    · refine (own_offerEach hub now _ _).mpr (fun id hid t ht => ?_) offer hfirst s hs
      obtain ⟨-, t', ht', hin⟩ := mem_meeting.mp hid
      rw [ht] at ht'
      obtain rfl := some.inj ht'
      simp only [inScope, Bool.and_eq_true, decide_eq_true_eq] at hin
      exact .inr ⟨o.cameraId, mem_singleton.mpr rfl, ho.symm.trans hin.1.1, hin.1.2⟩
    · have hkeeps := (hub.offerEach_spec now (.observation o)
        (hub.meeting (hub.candidates o) fun s => inScope s o && s.filter.accepts o)).1
      obtain ⟨s', hs', hterms⟩ := hkeeps.held _ s hs
      exact (concerns_congr hterms).mp (ih _ hrest offer hlater s' hs')

theorem Serves.own_iff (h : hub.Serves subscriptions) (now : Instant) {m : Message}
    (hcamera : m.concerns = [camera]) :
    (∀ offer ∈ (hub.offerEach now m (hub.meeting (hub.forCamera camera)
        fun s => s.scope.coversCamera camera)).2, ∀ s,
        hub.subs.get? offer.subscriptionId = some s → Concerns tenantOf s offer.message) ↔
      ∀ s ∈ subscriptions, s.scope.coversCamera camera = true →
        tenantOf camera = s.scope.tenantId := by
  rw [own_offerEach, ← h.forall_scope fun scope =>
    scope.coversCamera camera = true → tenantOf camera = scope.tenantId]
  constructor
  · intro hown id s hs hcovers
    have hid : id ∈ hub.meeting (hub.forCamera camera) fun s => s.scope.coversCamera camera :=
      mem_meeting.mpr ⟨h.mem_forCamera.mpr ⟨s, hs, hcovers⟩, s, hs, hcovers⟩
    rcases hown id hid s hs with hempty | ⟨c, hc, htenant, -⟩
    · rw [hcamera] at hempty
      cases hempty
    · rw [hcamera] at hc
      rw [← mem_singleton.mp hc]
      exact htenant
  · intro htenants id hid s hs
    obtain ⟨-, t, ht, hcovers⟩ := mem_meeting.mp hid
    rw [hs] at ht
    obtain rfl := some.inj ht
    refine .inr ⟨camera, ?_, htenants id s hs hcovers, hcovers⟩
    rw [hcamera]
    exact mem_singleton.mpr rfl

theorem Serves.mem_gapAudience (h : hub.Serves subscriptions) (cameras : List CameraId) :
    id ∈ (cameras.flatMap hub.forCamera).eraseDups ↔
      ∃ s, hub.subs.get? id = some s ∧ ∃ c ∈ cameras, s.scope.coversCamera c = true := by
  rw [mem_eraseDups, mem_flatMap]
  constructor
  · rintro ⟨c, hc, hid⟩
    obtain ⟨s, hs, hcovers⟩ := h.mem_forCamera.mp hid
    exact ⟨s, hs, c, hc, hcovers⟩
  · rintro ⟨s, hs, c, hc, hcovers⟩
    exact ⟨c, hc, h.mem_forCamera.mpr ⟨s, hs, hcovers⟩⟩

variable {g : Gap}

theorem reached_offerEach {now : Instant} {audience : List String}
    (hid : id ∈ audience) (hs : hub.subs.get? id = some s) :
    ∃ offer ∈ (hub.offerEach now (.gap g) audience).2,
      offer.subscriptionId = id ∧ offer.message = .gap g :=
  (hub.offerEach_spec now (.gap g) audience).2.2 id hid (isSome_iff_exists.mpr ⟨s, hs⟩)

theorem Serves.hearsOwn_gap_iff (h : hub.Serves subscriptions) (now : Instant)
    (hcameras : g.cameras ≠ []) :
    HearsOwn tenantOf hub (.gap now g) ↔
      ∀ s ∈ subscriptions, (∃ c ∈ g.cameras, s.scope.coversCamera c = true) →
        ∃ c ∈ g.cameras, tenantOf c = s.scope.tenantId ∧ s.scope.coversCamera c = true := by
  have haudience : hub.publishing (.gap now g) =
      hub.offerEach now (.gap g) (g.cameras.flatMap hub.forCamera).eraseDups := by
    show hub.publishGap now g = _
    unfold publishGap
    rw [if_neg (by simpa using hcameras)]
  have hconcerns : ∀ s, Concerns tenantOf s (.gap g) ↔
      ∃ c ∈ g.cameras, tenantOf c = s.scope.tenantId ∧ s.scope.coversCamera c = true :=
    fun s => or_iff_right hcameras
  rw [← h.forall_scope fun scope => (∃ c ∈ g.cameras, scope.coversCamera c = true) →
    ∃ c ∈ g.cameras, tenantOf c = scope.tenantId ∧ scope.coversCamera c = true]
  constructor
  · intro hhears id s hs hcovers
    have hown := hhears.own
    rw [haudience] at hown
    exact (hconcerns s).mp ((own_offerEach hub now (.gap g) _).mp hown id
      ((h.mem_gapAudience g.cameras).mpr ⟨s, hs, hcovers⟩) s hs)
  · intro hscopes
    constructor
    · rw [haudience]
      refine (own_offerEach hub now (.gap g) _).mpr fun id hid s hs => ?_
      obtain ⟨t, ht, hcovers⟩ := (h.mem_gapAudience g.cameras).mp hid
      rw [hs] at ht
      obtain rfl := some.inj ht
      exact (hconcerns s).mpr (hscopes id s hs hcovers)
    · rintro _ _ ⟨⟩ id s hs hconcern
      obtain ⟨c, hc, -, hcovers⟩ := (hconcerns s).mp hconcern
      rw [haudience]
      exact reached_offerEach ((h.mem_gapAudience g.cameras).mpr ⟨s, hs, c, hc, hcovers⟩) hs

theorem Serves.hearsOwn_everywhere_iff (h : hub.Serves subscriptions) (now : Instant)
    (hcameras : g.cameras = []) :
    HearsOwn tenantOf hub (.gap now g) ↔
      subscriptions = [] ∨ ∃ s ∈ subscriptions, s.scope.cameraIds ≠ [] := by
  have haudience : hub.publishing (.gap now g) =
      hub.offerEach now (.gap g) (hub.byCamera.keys.flatMap hub.forCamera).eraseDups := by
    show hub.publishGap now g = _
    unfold publishGap
    rw [hcameras]
    rfl
  constructor
  · intro hhears
    by_cases hnone : subscriptions = []
    · exact .inl hnone
    obtain ⟨s, hs⟩ := exists_mem_of_ne_nil _ hnone
    obtain ⟨s', hs', -⟩ := h.held s hs
    obtain ⟨offer, hoffer, -⟩ := hhears.reached now g rfl _ s' hs' (.inl hcameras)
    rw [haudience] at hoffer
    obtain ⟨hmem, -⟩ := (hub.offerEach_spec now (.gap g) _).2.1 offer hoffer
    rw [mem_eraseDups, mem_flatMap] at hmem
    obtain ⟨c, hc, -⟩ := hmem
    obtain ⟨t, ht, htc⟩ := (h.cameras c).mp hc
    exact .inr ⟨t, ht, ne_nil_of_mem htc⟩
  · intro hsome
    constructor
    · intro offer hoffer s hs
      have hmessage := ((hub.offerEach_spec now (.gap g) _).2.1 offer
        (by rw [haudience] at hoffer; exact hoffer)).2
      rw [hmessage]
      exact .inl hcameras
    · rintro _ _ ⟨⟩ id s hs -
      rw [haudience]
      refine reached_offerEach ((h.mem_gapAudience _).mpr ⟨s, hs, ?_⟩) hs
      obtain ⟨t, ht, -, hterms⟩ := h.terms id s hs
      -- an unscoped subscription is reached under any camera of the index
      rcases hsome with hnone | ⟨other, hother, hne⟩
      · rw [hnone] at ht
        cases ht
      by_cases hown : t.scope.cameraIds = []
      · obtain ⟨c, hc⟩ := exists_mem_of_ne_nil _ hne
        refine ⟨c, (h.cameras c).mpr ⟨other, hother, hc⟩, ?_⟩
        rw [hterms.scope]
        exact coversCamera_iff.mpr (.inl hown)
      · obtain ⟨c, hc⟩ := exists_mem_of_ne_nil _ hown
        refine ⟨c, (h.cameras c).mpr ⟨t, ht, hc⟩, ?_⟩
        rw [hterms.scope]
        exact coversCamera_iff.mpr (.inr hc)

theorem Serves.hearsOwn_iff (h : hub.Serves subscriptions) {p : Publication}
    (howned : Owned tenantOf p) :
    HearsOwn tenantOf hub p ↔ Fits tenantOf subscriptions p := by
  have hreached : ∀ {p : Publication}, (∀ now g, p ≠ .gap now g) → ∀ now g, p = .gap now g →
      ∀ id s, hub.subs.get? id = some s → Concerns tenantOf s (.gap g) →
        ∃ offer ∈ (hub.publishing p).2, offer.subscriptionId = id ∧ offer.message = .gap g :=
    fun hnot now g heq => absurd heq (hnot now g)
  cases p with
  | observations now batch =>
    exact ⟨fun _ => trivial, fun _ => ⟨own_publish hub now howned, hreached (by simp)⟩⟩
  | delta now d =>
    have hcamera : (Message.delta d).concerns = [d.cameraId] := rfl
    exact ⟨fun hhears => (h.own_iff now hcamera).mp hhears.own,
      fun hfits => ⟨(h.own_iff now hcamera).mpr hfits, hreached (by simp)⟩⟩
  | coverage now c =>
    have hcamera : (Message.coverage c).concerns = [c.cameraId] := rfl
    exact ⟨fun hhears => (h.own_iff now hcamera).mp hhears.own,
      fun hfits => ⟨(h.own_iff now hcamera).mpr hfits, hreached (by simp)⟩⟩
  | gap now g =>
    show _ ↔ if g.cameras = [] then _ else _
    by_cases hcameras : g.cameras = []
    · rw [h.hearsOwn_everywhere_iff now hcameras, if_pos hcameras]
    · rw [h.hearsOwn_gap_iff now hcameras, if_neg hcameras]

/-- In every run of publications, the subscriptions hear of their own tenants only, and are
    reached by every gap that concerns them, exactly when each publication fits their scopes. -/
theorem hears_own_tenant_iff (tenantOf : CameraId → TenantId) (subscriptions : List Subscription)
    (hids : (subscriptions.map subscriptionId).Nodup)
    (publications : List Publication) (howned : ∀ p ∈ publications, Owned tenantOf p) :
    Runs.Always step (HearsOwn tenantOf) (serving subscriptions) publications ↔
      ∀ p ∈ publications, Fits tenantOf subscriptions p := by
  have hserves := serves_serving hids
  generalize serving subscriptions = hub at hserves
  induction publications generalizing hub with
  | nil => exact ⟨fun _ p hp => (by cases hp), fun _ => trivial⟩
  | cons p rest ih =>
    obtain ⟨hp, hrest⟩ := forall_mem_cons.mp howned
    have hnext := ih hrest (hub.step p) (hserves.keeps (keeps_publishing hub p))
    exact (and_congr (hserves.hearsOwn_iff hp) hnext).trans forall_mem_cons.symm

def tenantSubscription (subscriptionId : String) (tenantId : TenantId)
    (cameras : List CameraId) (h : tenantId ≠ "") : Subscription :=
  .init subscriptionId
    { tenantId, cameraIds := cameras, accepted := require_eq_ok.mpr h }
    {} { accepted := rfl } ⟨0⟩

def neighbours : List Subscription :=
  [tenantSubscription "sub-000001" "harbour" ["quay"] (by decide),
    tenantSubscription "sub-000002" "station" ["platform"] (by decide)]

def neighbourOf (camera : CameraId) : TenantId :=
  if camera = "quay" then "harbour" else "station"

/-- A change on the quay and a gap everywhere reach whom they should. -/
theorem neighbours_hear_own : Runs.Always step (HearsOwn neighbourOf) (serving neighbours)
    [.delta ⟨1⟩ { cameraId := "quay" },
      .gap ⟨2⟩ { start := ⟨2⟩, finish := ⟨2⟩, reason := .platformBlind }] := by
  refine (hears_own_tenant_iff neighbourOf neighbours (by decide) _ ?_).mpr ?_
  · simp [Owned]
  · simp only [forall_mem_cons, not_mem_nil, false_imp_iff, implies_true, and_true]
    constructor
    · show ∀ s ∈ neighbours, s.scope.coversCamera "quay" = true →
        neighbourOf "quay" = s.scope.tenantId
      decide
    · exact .inr ⟨_, mem_cons_self, by decide⟩

/-- A change on the harbour's quay is offered to the station's subscription, which is scoped to
    no camera. -/
theorem station_hears_of_quay :
    ¬ ∀ (tenantOf : CameraId → TenantId) (subscriptions : List Subscription),
      (subscriptions.map subscriptionId).Nodup →
      ∀ publications, (∀ p ∈ publications, Owned tenantOf p) →
        Runs.Always step (HearsOwn tenantOf) (serving subscriptions) publications := by
  intro hclaim
  have hheard := hclaim neighbourOf [tenantSubscription "sub-000001" "station" [] (by decide)]
    (by decide) [.delta ⟨1⟩ { cameraId := "quay" }] (by simp [Owned])
  rcases hheard.1.own _ mem_cons_self _ rfl with hempty | ⟨c, hc, htenant, -⟩
  · cases hempty
  · rw [mem_singleton.mp hc] at htenant
    revert htenant
    decide

end Hub

end VisionOs.Exposure
