/-
  Which understander answers a set of attributes, and the chain of those tried after it.  A cost
  class is a number that the constructor accepts, infinity included; the text of a decision's
  reason is left out.
-/
import VisionOs.Lib.Selection
import VisionOs.Understanding.Answering
import Mathlib.Data.Prod.Lex
import Mathlib.Order.WithBot
import Mathlib.Algebra.Order.Ring.Rat
import Mathlib.Data.String.Basic

namespace VisionOs.Understanding

open Core Lib Ranking List

structure RoutedUnderstander extends BoundUnderstander where
  producible : List AttributeKey
  costClass : WithTop ℚ≥0
  deterministic : Bool := false
  dataResidency : String := "local"
  isFallback : Bool := false
  deriving DecidableEq

def RoutedUnderstander.covers (b : RoutedUnderstander) (attributes : List AttributeKey) :
    List AttributeKey := attributes.filter (b.producible.contains ·)

def RoutedUnderstander.isRemote (b : RoutedUnderstander) : Bool :=
  !"local".toList.isPrefixOf b.dataResidency.toList

structure RoutingPolicy where
  preferLocal : Bool := true
  preferDeterministic : Bool := false
  preferCoverage : Bool := true
  maxFallbackDepth : Nat := 2

structure Route where
  selected : Option RoutedUnderstander := none
  covered : List AttributeKey := []
  uncovered : List AttributeKey := []
  fallbacks : List RoutedUnderstander := []
  considered : Nat := 0
  deriving DecidableEq

/-- `CapabilityRouter`: no understander is bound twice. -/
structure CapabilityRouter where
  policy : RoutingPolicy := {}
  bound : List RoutedUnderstander
  distinct : (bound.map (·.adapterId)).Nodup

namespace CapabilityRouter

abbrev RankKey : Type := ℕ ×ₗ ℕ ×ₗ ℕ ×ₗ WithTop ℚ≥0 ×ₗ String

abbrev ChainKey : Type := ℕ ×ₗ WithTop ℚ≥0 ×ₗ String

def rank (policy : RoutingPolicy) (requested : List AttributeKey) (b : RoutedUnderstander) :
    RankKey :=
  toLex (if policy.preferCoverage then requested.length - (b.covers requested).length else 0,
    toLex (if policy.preferLocal && b.isRemote then 1 else 0,
      toLex (if policy.preferDeterministic && b.deterministic then 0 else 1,
        toLex (b.costClass, b.adapterId))))

def chainKey (b : RoutedUnderstander) : ChainKey :=
  toLex (if b.isFallback then 1 else 0, toLex (b.costClass, b.adapterId))

def candidates (r : CapabilityRouter) (requested : List AttributeKey) : List RoutedUnderstander :=
  r.bound.filter fun b => !b.isFallback && !(b.covers requested).isEmpty

def alternatives (r : CapabilityRouter) (selected : RoutedUnderstander)
    (covered : List AttributeKey) : List RoutedUnderstander :=
  r.bound.filter fun b => b.adapterId ≠ selected.adapterId ∧ b.covers covered = covered

def chain (r : CapabilityRouter) (selected : RoutedUnderstander) (covered : List AttributeKey) :
    List RoutedUnderstander :=
  if covered = [] ∨ r.policy.maxFallbackDepth = 0 then []
  else (rankedBy chainKey (r.alternatives selected covered)).take r.policy.maxFallbackDepth

def producibleAttributes (r : CapabilityRouter) : List AttributeKey :=
  r.bound.flatMap (·.producible)

def route (r : CapabilityRouter) (requested : List AttributeKey) : Route :=
  if requested = [] then {}
  else
    match rankedBy (rank r.policy requested) (r.candidates requested) with
    | [] =>
      { covered := requested.filter (r.producibleAttributes.contains ·)
        uncovered := requested.filter fun key => !r.producibleAttributes.contains key
        considered := r.bound.length }
    | selected :: _ =>
      { selected := some selected
        covered := selected.covers requested
        uncovered := requested.filter fun key => !(selected.covers requested).contains key
        fallbacks := r.chain selected (selected.covers requested)
        considered := (r.candidates requested).length }

/-! ## What a route is for -/

/-- Imagery goes to `a`, which is remote, where `b` could answer as much on the site. -/
def Exports (requested : List AttributeKey) (a b : RoutedUnderstander) : Prop :=
  a.isRemote = true ∧ b.isRemote = false ∧ b.isFallback = false ∧
    a.covers requested ⊆ b.covers requested

/-- A route does not depend on the order of binding, says of every attribute whether it is
    covered, falls back on nobody who covers less, and goes to no remote understander before a
    local one that covers as much. -/
structure RoutesWell (r : CapabilityRouter) (requested : List AttributeKey) : Prop where
  orderFree : ∀ r' : CapabilityRouter, r'.policy = r.policy → r'.bound.Perm r.bound →
    r'.route requested = r.route requested
  partitioned : ((r.route requested).covered ++ (r.route requested).uncovered).Perm requested ∧
    ∀ key ∈ (r.route requested).covered, key ∉ (r.route requested).uncovered
  fallbacksCover : ∀ b ∈ (r.route requested).fallbacks,
    b.covers (r.route requested).covered = (r.route requested).covered
  localFirst : ((r.route requested).selected.toList ++ (r.route requested).fallbacks).Pairwise
    fun a b => ¬ Exports requested a b

/-- The candidate ranked first. -/
def IsFirst (r : CapabilityRouter) (requested : List AttributeKey) (s : RoutedUnderstander) :
    Prop :=
  s ∈ r.candidates requested ∧
    ∀ b ∈ r.candidates requested, rank r.policy requested s ≤ rank r.policy requested b

/-- Beside the understander that ranks first, a remote one comes before a local one that covers
    as much, by cost class and then by id, and the local one is within the depth of the chain. -/
def Inverts (r : CapabilityRouter) (requested : List AttributeKey) : Prop :=
  ∃ s, r.IsFirst requested s ∧ ∃ a ∈ r.alternatives s (s.covers requested),
    ∃ b ∈ r.alternatives s (s.covers requested), Exports requested a b ∧ chainKey a < chainKey b ∧
      (r.alternatives s (s.covers requested)).countP (chainKey · < chainKey b) <
        r.policy.maxFallbackDepth

variable {r : CapabilityRouter} {requested : List AttributeKey} {s a b : RoutedUnderstander}

theorem alternatives_sublist {covered : List AttributeKey} :
    (r.alternatives s covered).Sublist r.bound := filter_sublist

variable {part : List RoutedUnderstander}

theorem nodup_rank (h : part.Sublist r.bound) :
    (part.map (rank r.policy requested)).Nodup := by
  refine List.Nodup.of_map (fun key : RankKey => (ofLex (ofLex (ofLex (ofLex key).2).2).2).2) ?_
  rw [map_map]
  exact (h.map _).nodup r.distinct

theorem nodup_chainKey (h : part.Sublist r.bound) :
    (part.map chainKey).Nodup := by
  refine List.Nodup.of_map (fun key : ChainKey => (ofLex (ofLex key).2).2) ?_
  rw [map_map]
  exact (h.map _).nodup r.distinct

theorem route_eq_some (h : r.IsFirst requested s) :
    r.route requested =
      { selected := some s
        covered := s.covers requested
        uncovered := requested.filter fun key => !(s.covers requested).contains key
        fallbacks := r.chain s (s.covers requested)
        considered := (r.candidates requested).length } := by
  have hkeys : ((r.candidates requested).map (rank r.policy requested)).Nodup :=
    nodup_rank filter_sublist
  have hne : requested ≠ [] := by
    rintro rfl
    have hcovers := (mem_filter.mp h.1).2
    simp [RoutedUnderstander.covers] at hcovers
  unfold route
  rw [if_neg hne]
  cases hranked : rankedBy (rank r.policy requested) (r.candidates requested) with
  | nil => exact absurd (eq_nil_of_rankedBy hranked) (ne_nil_of_mem h.1)
  | cons first rest =>
    obtain ⟨hfirst, hle⟩ := first_of_rankedBy hranked
    rw [inj_on_of_nodup_map hkeys h.1 hfirst (le_antisymm (h.2 first hfirst) (hle s h.1))]

theorem exists_isFirst (h : r.candidates requested ≠ []) : ∃ s, r.IsFirst requested s := by
  cases hranked : rankedBy (rank r.policy requested) (r.candidates requested) with
  | nil => exact absurd (eq_nil_of_rankedBy hranked) h
  | cons first rest => exact ⟨first, first_of_rankedBy hranked⟩

theorem route_of_no_candidates (hne : requested ≠ []) (h : r.candidates requested = []) :
    r.route requested =
      { covered := requested.filter (r.producibleAttributes.contains ·)
        uncovered := requested.filter fun key => !r.producibleAttributes.contains key
        considered := r.bound.length } := by
  unfold route
  rw [if_neg hne, h]
  rfl

theorem filter_of_no_candidates (h : r.candidates requested = []) :
    ∃ p, (r.route requested).covered = requested.filter p ∧
      (r.route requested).uncovered = requested.filter (fun key => !p key) ∧
      (r.route requested).selected = none ∧ (r.route requested).fallbacks = [] := by
  by_cases hne : requested = []
  · unfold route
    rw [if_pos hne, hne]
    exact ⟨fun _ => true, rfl, rfl, rfl, rfl⟩
  · rw [route_of_no_candidates hne h]
    exact ⟨_, rfl, rfl, rfl, rfl⟩

theorem not_exports_first (hlocal : r.policy.preferLocal = true) (h : r.IsFirst requested s)
    (hb : b ∈ r.alternatives s (s.covers requested)) : ¬ Exports requested s b := by
  rintro ⟨hremote, hhere, hmain, hsub⟩
  obtain ⟨hbound, hcovers⟩ := mem_filter.mp hb
  obtain ⟨-, hcovers⟩ := of_decide_eq_true hcovers
  have hcandidate : b ∈ r.candidates requested := by
    refine mem_filter.mpr ⟨hbound, ?_⟩
    have hsome := (mem_filter.mp h.1).2
    rw [hmain]
    cases hs : s.covers requested with
    | nil => simp [hs] at hsome
    | cons key rest =>
      have hkey : key ∈ b.covers requested := hsub (hs ▸ mem_cons_self)
      simpa using ne_nil_of_mem hkey
  have hfewer : (s.covers requested).length ≤ (b.covers requested).length := by
    unfold RoutedUnderstander.covers
    rw [← countP_eq_length_filter, ← countP_eq_length_filter]
    refine countP_mono_left fun key hkey hs => ?_
    exact (mem_filter.mp (hsub (mem_filter.mpr ⟨hkey, hs⟩))).2
  have hle := h.2 b hcandidate
  unfold rank at hle
  rw [hlocal, hremote, hhere, Prod.Lex.toLex_le_toLex, Prod.Lex.toLex_le_toLex] at hle
  simp only [Bool.and_self, Bool.and_false, if_true, Bool.false_eq_true, if_false] at hle
  rcases hle with hless | ⟨-, hmore | ⟨hsame, -⟩⟩
  · split at hless <;> omega
  · omega
  · omega

theorem localFirst_iff (hlocal : r.policy.preferLocal = true) (h : r.IsFirst requested s) :
    (s :: r.chain s (s.covers requested)).Pairwise (fun a b => ¬ Exports requested a b) ↔
      ¬ r.Inverts requested := by
  have hkeys : ((r.alternatives s (s.covers requested)).map chainKey).Nodup :=
    nodup_chainKey alternatives_sublist
  have hcovered : s.covers requested ≠ [] := by
    have hsome := (mem_filter.mp h.1).2
    intro hnil
    simp [hnil] at hsome
  have hchain : (r.chain s (s.covers requested)) =
      (rankedBy chainKey (r.alternatives s (s.covers requested))).take
        r.policy.maxFallbackDepth := by
    unfold chain
    by_cases hdepth : r.policy.maxFallbackDepth = 0
    · rw [if_pos (.inr hdepth), hdepth, take_zero]
    · rw [if_neg (by simp [hcovered, hdepth])]
  rw [pairwise_cons, hchain, and_iff_right, pairwise_take_rankedBy hkeys]
  · constructor
    · rintro hall ⟨s', hs', a, ha, b, hb, hexports, hlt, hfew⟩
      have hroute := route_eq_some h
      rw [route_eq_some hs'] at hroute
      cases Option.some.inj (congrArg Route.selected hroute)
      exact hall a ha b hb hlt hfew hexports
    · intro hnone a ha b hb hlt hfew hexports
      exact hnone ⟨s, h, a, ha, b, hb, hexports, hlt, hfew⟩
  · intro b hb
    exact not_exports_first hlocal h (mem_rankedBy.mp (mem_of_mem_take hb))

theorem route_perm (r r' : CapabilityRouter) (hpolicy : r'.policy = r.policy)
    (h : r'.bound.Perm r.bound) : r'.route requested = r.route requested := by
  have hcandidates : (r'.candidates requested).Perm (r.candidates requested) := h.filter _
  by_cases hne : requested = []
  · unfold route
    rw [if_pos hne, if_pos hne]
  by_cases hnone : r.candidates requested = []
  · have hsame : ∀ key, r'.producibleAttributes.contains key =
        r.producibleAttributes.contains key := by
      intro key
      rw [Bool.eq_iff_iff, contains_iff_mem, contains_iff_mem]
      exact (h.flatMap_right _).mem_iff
    rw [route_of_no_candidates hne hnone, route_of_no_candidates hne
      (List.Perm.eq_nil (hnone ▸ hcandidates)), h.length_eq]
    simp only [hsame]
  · obtain ⟨s, hs⟩ := exists_isFirst hnone
    have hs' : r'.IsFirst requested s := by
      refine ⟨hcandidates.mem_iff.mpr hs.1, fun b hb => ?_⟩
      rw [hpolicy]
      exact hs.2 b (hcandidates.mem_iff.mp hb)
    have halternatives : (r'.alternatives s (s.covers requested)).Perm
        (r.alternatives s (s.covers requested)) := h.filter _
    have hchain : r'.chain s (s.covers requested) = r.chain s (s.covers requested) := by
      unfold chain
      rw [hpolicy, rankedBy_perm (nodup_chainKey alternatives_sublist) halternatives]
    rw [route_eq_some hs, route_eq_some hs', hcandidates.length_eq, hchain]

theorem partition_filter (requested : List AttributeKey) (p : AttributeKey → Bool) :
    (requested.filter p ++ requested.filter fun key => !p key).Perm requested ∧
      ∀ key ∈ requested.filter p, key ∉ requested.filter fun key => !p key := by
  refine ⟨filter_append_perm p requested, fun key hkey hnot => ?_⟩
  have hyes := (mem_filter.mp hkey).2
  have hno := (mem_filter.mp hnot).2
  rw [hyes] at hno
  cases hno

/-- A route is as it should be exactly when no remote understander is cheaper than a local one
    behind it in the chain. -/
theorem routesWell_iff (hlocal : r.policy.preferLocal = true) :
    r.RoutesWell requested ↔ ¬ r.Inverts requested := by
  by_cases hnone : r.candidates requested = []
  · have hinverts : ¬ r.Inverts requested := by
      rintro ⟨s, hs, -⟩
      rw [IsFirst, hnone] at hs
      cases hs.1
    obtain ⟨p, hcovered, huncovered, hselected, hfallbacks⟩ := filter_of_no_candidates hnone
    refine iff_of_true ⟨fun r' hpolicy h => route_perm r r' hpolicy h, ?_, ?_, ?_⟩ hinverts
    · rw [hcovered, huncovered]
      exact partition_filter requested p
    · rw [hfallbacks]
      exact fun b hb => (by cases hb)
    · rw [hselected, hfallbacks]
      exact List.Pairwise.nil
  · obtain ⟨s, hs⟩ := exists_isFirst hnone
    rw [← localFirst_iff hlocal hs]
    constructor
    · intro h
      have hfirst := h.localFirst
      rwa [route_eq_some hs] at hfirst
    · intro h
      refine ⟨fun r' hpolicy h => route_perm r r' hpolicy h, ?_, ?_, ?_⟩
      all_goals rw [route_eq_some hs]
      · have huncovered : (requested.filter fun key => !(s.covers requested).contains key) =
            requested.filter fun key => !s.producible.contains key := by
          refine filter_congr fun key hkey => ?_
          congr 1
          rw [Bool.eq_iff_iff, contains_iff_mem]
          exact ⟨fun h => (mem_filter.mp h).2, fun h => mem_filter.mpr ⟨hkey, h⟩⟩
        rw [huncovered]
        exact partition_filter requested _
      · intro b hb
        unfold chain at hb
        split at hb
        · cases hb
        · have halternative := mem_rankedBy.mp (mem_of_mem_take hb)
          exact (of_decide_eq_true (mem_filter.mp halternative).2).2
      · exact h

def postureHead : RoutedUnderstander where
  adapterId := "head"
  modelId := "head"
  producible := ["posture"]
  costClass := 1

def cloudModel : RoutedUnderstander where
  adapterId := "cloud"
  modelId := "cloud"
  producible := ["posture"]
  costClass := 2
  dataResidency := "remote(eu)"

def siteModel : RoutedUnderstander where
  adapterId := "site"
  modelId := "site"
  producible := ["posture"]
  costClass := 3

theorem routesWell_head : RoutesWell { bound := [postureHead, siteModel], distinct := by decide }
    ["posture"] := by
  refine (routesWell_iff rfl).mpr ?_
  rintro ⟨s, -, a, ha, b, -, hexports, -⟩
  have hbound := (mem_filter.mp ha).1
  have hhere : a.isRemote = false := by
    rcases mem_cons.mp hbound with rfl | hsite
    · decide +kernel
    · rw [mem_singleton.mp hsite]
      decide +kernel
  exact absurd (hexports.1.symm.trans hhere) (by decide)

/-- When the head fails, the image goes to the cloud, for it is cheaper than the site's own. -/
theorem cloud_before_site : ¬ ∀ r : CapabilityRouter, r.policy.preferLocal = true →
    r.RoutesWell ["posture"] := by
  intro h
  have hfirst := (h { bound := [postureHead, cloudModel, siteModel], distinct := by decide }
    rfl).localFirst
  have hroute : route { bound := [postureHead, cloudModel, siteModel], distinct := by decide }
      ["posture"] =
      { selected := some postureHead, covered := ["posture"], uncovered := []
        fallbacks := [cloudModel, siteModel], considered := 3 } := by decide +kernel
  rw [hroute] at hfirst
  refine (pairwise_cons.mp (pairwise_cons.mp hfirst).2).1 siteModel mem_cons_self ?_
  exact ⟨by decide +kernel, by decide +kernel, rfl, by decide +kernel⟩

end CapabilityRouter

end VisionOs.Understanding
