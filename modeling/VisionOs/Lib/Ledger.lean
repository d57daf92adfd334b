/-
  Splitting a batch by a key against the keys already known.  What a log was given, kept beside
  it, and when the positions it handed out stay addresses.
-/
import VisionOs.Lib.Runs
import Mathlib.Data.List.Count
import Mathlib.Data.List.Nodup
import Mathlib.Algebra.Order.Ring.Int

namespace VisionOs.Lib.Dedup

open List

variable {α κ : Type*} [DecidableEq κ] (key : α → κ)

/-- The first element of each key that is not in `seen`. -/
def fresh (seen : List κ) : List α → List α
  | [] => []
  | x :: xs => if key x ∈ seen then fresh seen xs else x :: fresh (key x :: seen) xs

def skipped (seen : List κ) : List α → List κ
  | [] => []
  | x :: xs => if key x ∈ seen then key x :: skipped seen xs else skipped (key x :: seen) xs

variable {key} {seen : List κ} {xs : List α}

theorem mem_map_fresh {k : κ} :
    k ∈ (fresh key seen xs).map key ↔ k ∈ xs.map key ∧ k ∉ seen := by
  induction xs generalizing seen with
  | nil => simp [fresh]
  | cons x xs ih =>
    by_cases hx : key x ∈ seen
    · simp only [fresh, hx, if_true, ih, map_cons, mem_cons]
      constructor
      · rintro ⟨h, hk⟩
        exact ⟨.inr h, hk⟩
      · rintro ⟨rfl | h, hk⟩
        · exact absurd hx hk
        · exact ⟨h, hk⟩
    · simp only [fresh, hx, if_false, map_cons, mem_cons, ih, not_or]
      constructor
      · rintro (rfl | ⟨h, -, hk⟩)
        · exact ⟨.inl rfl, hx⟩
        · exact ⟨.inr h, hk⟩
      · rintro ⟨h, hk⟩
        by_cases hkx : k = key x
        · exact .inl hkx
        · exact .inr ⟨h.resolve_left hkx, hkx, hk⟩

theorem nodup_map_fresh (seen : List κ) (xs : List α) : ((fresh key seen xs).map key).Nodup := by
  induction xs generalizing seen with
  | nil => simp [fresh]
  | cons x xs ih =>
    by_cases hx : key x ∈ seen
    · simp only [fresh, hx, if_true]
      exact ih seen
    · simp only [fresh, hx, if_false, map_cons, nodup_cons]
      refine ⟨fun h => ?_, ih _⟩
      exact (mem_map_fresh.mp h).2 (by simp)

theorem fresh_sublist (seen : List κ) (xs : List α) : (fresh key seen xs).Sublist xs := by
  induction xs generalizing seen with
  | nil => exact .slnil
  | cons x xs ih =>
    by_cases hx : key x ∈ seen
    · simp only [fresh, hx, if_true]
      exact (ih seen).cons x
    · simp only [fresh, hx, if_false]
      exact (ih _).cons_cons x

theorem length_fresh_add_skipped (seen : List κ) (xs : List α) :
    (fresh key seen xs).length + (skipped key seen xs).length = xs.length := by
  induction xs generalizing seen with
  | nil => rfl
  | cons x xs ih =>
    by_cases hx : key x ∈ seen
    · have := ih seen
      simp only [fresh, skipped, hx, if_true, length_cons]
      omega
    · have := ih (key x :: seen)
      simp only [fresh, skipped, hx, if_false, length_cons]
      omega

theorem mem_skipped {k : κ} :
    k ∈ skipped key seen xs ↔
      k ∈ xs.map key ∧ (k ∈ seen ∨ 2 ≤ (xs.map key).count k) := by
  induction xs generalizing seen with
  | nil => simp [skipped]
  | cons x xs ih =>
    by_cases hk : k = key x
    · subst hk
      by_cases hx : key x ∈ seen
      · simp [skipped, hx]
      · simp only [skipped, hx, if_false, ih, mem_cons, true_or, and_true,
          map_cons, count_cons_self, false_or, true_and]
        rw [← count_pos_iff]
        omega
    · have hne : key x ≠ k := Ne.symm hk
      by_cases hx : key x ∈ seen
      · simp [skipped, hx, ih, hk, count_cons_of_ne hne]
      · simp [skipped, hx, ih, hk, count_cons_of_ne hne]

theorem fresh_eq_self (hnodup : (xs.map key).Nodup)
    (hnew : ∀ x ∈ xs, key x ∉ seen) : fresh key seen xs = xs := by
  induction xs generalizing seen with
  | nil => rfl
  | cons x xs ih =>
    simp only [map_cons, nodup_cons] at hnodup
    have hx := hnew x (by simp)
    simp only [fresh, hx, if_false, List.cons.injEq, true_and]
    refine ih hnodup.2 (fun y hy => ?_)
    simp only [mem_cons, not_or]
    refine ⟨fun h => hnodup.1 (mem_map.mpr ⟨y, hy, h⟩), hnew y (by simp [hy])⟩

theorem skipped_eq_nil (hnodup : (xs.map key).Nodup)
    (hnew : ∀ x ∈ xs, key x ∉ seen) : skipped key seen xs = [] := by
  rw [← length_eq_zero_iff]
  have hlen : (fresh key seen xs).length + (skipped key seen xs).length = xs.length :=
    length_fresh_add_skipped seen xs
  rw [fresh_eq_self hnodup hnew] at hlen
  omega

theorem fresh_congr {seen' : List κ} (h : ∀ k, k ∈ seen ↔ k ∈ seen') (xs : List α) :
    fresh key seen xs = fresh key seen' xs := by
  induction xs generalizing seen seen' with
  | nil => rfl
  | cons x xs ih =>
    have hcons : ∀ k, k ∈ key x :: seen ↔ k ∈ key x :: seen' := by
      intro k
      rw [mem_cons, mem_cons, h k]
    by_cases hx : key x ∈ seen
    · simp only [fresh, hx, (h (key x)).mp hx, if_true]
      exact ih h
    · have hx' : key x ∉ seen' := fun hmem => hx ((h (key x)).mpr hmem)
      simp only [fresh, hx, hx', if_false]
      rw [ih hcons]

theorem fresh_append (seen : List κ) (xs ys : List α) :
    fresh key seen (xs ++ ys) = fresh key seen xs ++ fresh key (xs.map key ++ seen) ys := by
  induction xs generalizing seen with
  | nil => rfl
  | cons x xs ih =>
    by_cases hx : key x ∈ seen
    · have hsame : ∀ k, k ∈ (x :: xs).map key ++ seen ↔ k ∈ xs.map key ++ seen := by
        intro k
        simp only [map_cons, cons_append, mem_cons, mem_append]
        constructor
        · rintro (rfl | h)
          · exact .inr hx
          · exact h
        · exact .inr
      simp only [cons_append, fresh, hx, if_true]
      rw [ih seen, fresh_congr hsame]
    · have hsame : ∀ k, k ∈ (x :: xs).map key ++ seen ↔ k ∈ xs.map key ++ key x :: seen := by
        intro k
        simp only [map_cons, cons_append, mem_cons, mem_append]
        tauto
      simp only [cons_append, fresh, hx, if_false]
      rw [ih (key x :: seen), fresh_congr hsame]

end VisionOs.Lib.Dedup

namespace VisionOs.Lib

structure Mark where
  position : Int
  entries : Nat
  deriving DecidableEq

/-- The entries appended, each with whether it was removed since, and the positions. -/
structure Ledger (α : Type*) where
  entries : List (α × Bool) := []
  marks : List Mark := []

namespace Ledger

variable {α : Type*}

def append (ledger : Ledger α) (added : List α) : Ledger α :=
  { ledger with entries := ledger.entries ++ added.map (·, false) }

def mark (ledger : Ledger α) (position : Int) : Ledger α :=
  { ledger with marks := ledger.marks ++ [⟨position, ledger.entries.length⟩] }

def remove (ledger : Ledger α) (gone : α → Bool) : Ledger α :=
  { ledger with entries := ledger.entries.map fun entry => (entry.1, entry.2 || gone entry.1) }

def between (ledger : Ledger α) (since upTo : Nat) : List α :=
  (((ledger.entries.take upTo).drop since).filter (fun entry => !entry.2)).map (·.1)

def Intact (ledger : Ledger α) (records : List α) : Prop :=
  ledger.entries = records.map (·, false)

variable {ledger : Ledger α} {records : List α}

theorem Intact.length (h : ledger.Intact records) :
    ledger.entries.length = records.length := by
  rw [h, List.length_map]

theorem Intact.append (h : ledger.Intact records)
    (added : List α) : (ledger.append added).Intact (records ++ added) := by
  show ledger.entries ++ _ = _
  rw [h, List.map_append]

theorem Intact.mark (h : ledger.Intact records)
    (position : Int) : (ledger.mark position).Intact records := h

theorem Intact.between (h : ledger.Intact records)
    (since upTo : Nat) : ledger.between since upTo = (records.take upTo).drop since := by
  unfold Ledger.between
  rw [h, ← List.map_take, ← List.map_drop, List.filter_map, List.map_map]
  simp [Function.comp_def]

theorem remove_eq_self {gone : α → Bool}
    (h : ∀ entry ∈ ledger.entries, gone entry.1 = false) : ledger.remove gone = ledger := by
  have hentries : (ledger.entries.map fun entry => (entry.1, entry.2 || gone entry.1)) =
      ledger.entries.map id := by
    apply List.map_congr_left
    intro entry hentry
    rw [h entry hentry, Bool.or_false]
    rfl
  rw [List.map_id] at hentries
  unfold remove
  rw [hentries]

end Ledger

structure Ledgered (σ α : Type*) where
  log : σ
  ledger : Ledger α

section

variable {σ ι α β ε : Type*} (step : Ledgered σ α → ι → Ledgered σ α) (position : σ → Except ε Int)
  (read : σ → Int → Int → Nat → Except ε (List β)) (same : α → β → Prop)

/-- A read between two positions handed out gives what was appended between them. -/
def ReadsBetween (s : Ledgered σ α) : Prop :=
  ∀ first ∈ s.ledger.marks, ∀ last ∈ s.ledger.marks, first.position ≤ last.position →
    ∀ limit, ∃ records, read s.log first.position last.position limit = .ok records ∧
      List.Forall₂ same ((s.ledger.between first.entries last.entries).take limit) records

/-- Positions never go down, and stay addresses. -/
structure KeepsAddresses (start : Ledgered σ α) (calls : List ι) : Prop where
  monotone : ∀ earlier later, earlier <+: later → later <+: calls →
    ∃ before after, position (Runs.run step start earlier).log = .ok before ∧
      position (Runs.run step start later).log = .ok after ∧ before ≤ after
  reads : ∀ reached, reached <+: calls → ReadsBetween read same (Runs.run step start reached)

variable {step position read same}

theorem keepsAddresses_of_always {Inv : Ledgered σ α → Prop} {C : Ledgered σ α → ι → Prop}
    {at_ : Ledgered σ α → Int} (hat : ∀ s, Inv s → position s.log = .ok (at_ s))
    (hreads : ∀ s, Inv s → ReadsBetween read same s) (hkeep : ∀ s i, Inv s → C s i → Inv (step s i))
    (hup : ∀ s i, Inv s → C s i → at_ s ≤ at_ (step s i)) {start : Ledgered σ α} (h : Inv start)
    {calls : List ι} (halways : Runs.Always step C start calls) :
    KeepsAddresses step position read same start calls where
  monotone := by
    intro earlier later hearlier hlater
    have hreached {before} := @Runs.reached_of_always _ _ step Inv C hkeep start h calls halways before
    refine ⟨_, _, hat _ (hreached (hearlier.trans hlater)), hat _ (hreached hlater), ?_⟩
    have hsteps : Runs.Always step (fun s i => at_ s ≤ at_ (step s i)) start calls :=
      Runs.always_mono_of_kept hkeep hup h halways
    exact (Runs.monotone_iff_always at_).mpr hsteps earlier later hearlier hlater
  reads reached hreached := hreads _ (Runs.reached_of_always hkeep h halways hreached)

end

end VisionOs.Lib
