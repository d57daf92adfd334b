/-
  Runs of a deterministic system, and what an invariant gives of them.  A user of a shared system
  is undisturbed when what its calls return does not depend on the others'.  A batch of calls on a
  pool of workers, each in two atomic steps that interleave.
-/
import Mathlib.Data.List.Basic
import Mathlib.Order.Basic

namespace VisionOs.Lib.Runs

open List Function

variable {σ ι : Type*} (step : σ → ι → σ)

def run (s : σ) (inputs : List ι) : σ := inputs.foldl step s

/-- `P` holds of the state and the input at every step of a run. -/
def Always (P : σ → ι → Prop) : σ → List ι → Prop
  | _, [] => True
  | s, i :: rest => P s i ∧ Always P (step s i) rest

@[simp] theorem run_nil (s : σ) : run step s [] = s := rfl

@[simp] theorem run_cons (s : σ) (i : ι) (rest : List ι) :
    run step s (i :: rest) = run step (step s i) rest := rfl

theorem run_append (s : σ) (xs ys : List ι) : run step s (xs ++ ys) = run step (run step s xs) ys :=
  foldl_append

variable {step}

instance decidableAlways {P : σ → ι → Prop} [∀ s i, Decidable (P s i)] :
    ∀ (s : σ) (inputs : List ι), Decidable (Always step P s inputs)
  | _, [] => .isTrue trivial
  | s, i :: rest => @instDecidableAnd _ _ _ (decidableAlways (step s i) rest)

variable {P : σ → ι → Prop} {s : σ}

theorem always_append {xs ys : List ι} :
    Always step P s (xs ++ ys) ↔ Always step P s xs ∧ Always step P (run step s xs) ys := by
  induction xs generalizing s with
  | nil => exact (iff_of_eq (true_and _)).symm
  | cons i rest ih =>
    show P s i ∧ Always step P (step s i) (rest ++ ys) ↔ _
    rw [ih, ← and_assoc]
    exact Iff.rfl

variable {inputs : List ι}

theorem always_of_forall
    (h : ∀ s, ∀ i ∈ inputs, P s i) : Always step P s inputs := by
  induction inputs generalizing s with
  | nil => trivial
  | cons i rest ih =>
    exact ⟨h s i mem_cons_self, ih fun s i hi => h s i (mem_cons_of_mem _ hi)⟩

theorem run_invariant {Inv : σ → Prop} (hstep : ∀ s i, Inv s → Inv (step s i)) {s : σ}
    (h : Inv s) (inputs : List ι) : Inv (run step s inputs) := by
  induction inputs generalizing s with
  | nil => exact h
  | cons i rest ih => exact ih (hstep s i h)

theorem always_iff_of_invariant {Inv : σ → Prop} {P Q : σ → ι → Prop}
    (hstep : ∀ s i, Inv s → Inv (step s i)) (hiff : ∀ s i, Inv s → (P s i ↔ Q s i)) {s : σ}
    (h : Inv s) (inputs : List ι) : Always step P s inputs ↔ Always step Q s inputs := by
  induction inputs generalizing s with
  | nil => exact Iff.rfl
  | cons i rest ih =>
    unfold Always
    rw [hiff s i h, ih (hstep s i h)]

variable {Q : σ → ι → Prop}

theorem always_iff_of_kept {Inv : σ → Prop}
    (hkeep : ∀ s i, Inv s → Q s i → Inv (step s i)) (hiff : ∀ s i, Inv s → (P s i ↔ Q s i))
    (h : Inv s) (inputs : List ι) : Always step P s inputs ↔ Always step Q s inputs := by
  induction inputs generalizing s with
  | nil => exact Iff.rfl
  | cons i rest ih =>
    unfold Always
    constructor
    · rintro ⟨hP, hrest⟩
      have hQ := (hiff s i h).mp hP
      exact ⟨hQ, (ih (hkeep s i h hQ)).mp hrest⟩
    · rintro ⟨hQ, hrest⟩
      exact ⟨(hiff s i h).mpr hQ, (ih (hkeep s i h hQ)).mpr hrest⟩

theorem always_iff_of_always {Inv : σ → Prop} {C : σ → ι → Prop}
    (hkeep : ∀ s i, Inv s → C s i → Inv (step s i))
    (hiff : ∀ s i, Inv s → C s i → (P s i ↔ Q s i)) (h : Inv s)
    (halways : Always step C s inputs) : Always step P s inputs ↔ Always step Q s inputs := by
  induction inputs generalizing s with
  | nil => exact Iff.rfl
  | cons i rest ih =>
    obtain ⟨hC, hrest⟩ := halways
    unfold Always
    rw [hiff s i h hC, ih (hkeep s i h hC) hrest]

theorem always_mono_of_kept {Inv : σ → Prop} {C P : σ → ι → Prop}
    (hkeep : ∀ s i, Inv s → C s i → Inv (step s i)) (himp : ∀ s i, Inv s → C s i → P s i)
    {s : σ} (h : Inv s) {inputs : List ι} (halways : Always step C s inputs) :
    Always step P s inputs := by
  induction inputs generalizing s with
  | nil => trivial
  | cons i rest ih =>
    obtain ⟨hC, hrest⟩ := halways
    exact ⟨himp s i h hC, ih (hkeep s i h hC) hrest⟩

theorem always_mono {C : σ → ι → Prop} (himp : ∀ s i, C s i → P s i)
    (halways : Always step C s inputs) : Always step P s inputs := by
  induction inputs generalizing s with
  | nil => trivial
  | cons i rest ih => exact ⟨himp s i halways.1, ih halways.2⟩

theorem reached_of_always {Inv : σ → Prop} {C : σ → ι → Prop}
    (hkeep : ∀ s i, Inv s → C s i → Inv (step s i)) {s : σ} (h : Inv s) {inputs : List ι}
    (halways : Always step C s inputs) {before : List ι} (hbefore : before <+: inputs) :
    Inv (run step s before) := by
  induction inputs generalizing s before with
  | nil =>
    rw [prefix_nil.mp hbefore]
    exact h
  | cons i rest ih =>
    cases before with
    | nil => exact h
    | cons i' before =>
      obtain ⟨hi, hrest⟩ := cons_prefix_cons.mp hbefore
      rw [hi]
      exact ih (hkeep s i h halways.1) halways.2 hrest

theorem always_and :
    Always step (fun s i => P s i ∧ Q s i) s inputs ↔
      Always step P s inputs ∧ Always step Q s inputs := by
  induction inputs generalizing s with
  | nil => exact (iff_of_eq (and_true _)).symm
  | cons i rest ih =>
    unfold Always
    rw [ih]
    exact and_and_and_comm

theorem reached_iff {R : σ → Prop} :
    (∀ before, before <+: inputs → R (run step s before)) ↔
      R s ∧ Always step (fun s i => R (step s i)) s inputs := by
  induction inputs generalizing s with
  | nil =>
    refine ⟨fun h => ⟨h [] nil_prefix, trivial⟩, fun h before hbefore => ?_⟩
    rw [prefix_nil.mp hbefore]
    exact h.1
  | cons i rest ih =>
    constructor
    · intro hreached
      have hrest := ih.mp fun before hbefore =>
        hreached (i :: before) ((prefix_cons_inj i).mpr hbefore)
      exact ⟨hreached [] nil_prefix, hrest.1, hrest.2⟩
    · rintro ⟨hs, hi, hrest⟩ before hbefore
      cases before with
      | nil => exact hs
      | cons i' before =>
        obtain ⟨rfl, hbefore'⟩ := cons_prefix_cons.mp hbefore
        exact ih.mpr ⟨hi, hrest⟩ before hbefore'

theorem monotone_iff_always {τ : Type*} [Preorder τ] (f : σ → τ) :
    (∀ earlier later, earlier <+: later → later <+: inputs →
        f (run step s earlier) ≤ f (run step s later)) ↔
      Always step (fun s i => f s ≤ f (step s i)) s inputs := by
  induction inputs generalizing s with
  | nil =>
    refine ⟨fun _ => trivial, fun _ earlier later hearlier hlater => ?_⟩
    rw [prefix_nil.mp hlater] at hearlier ⊢
    rw [prefix_nil.mp hearlier]
  | cons i rest ih =>
    constructor
    · intro hmonotone
      refine ⟨hmonotone [] [i] nil_prefix ⟨rest, rfl⟩, ih.mp ?_⟩
      intro earlier later hearlier hlater
      exact hmonotone (i :: earlier) (i :: later) ((prefix_cons_inj i).mpr hearlier)
        ((prefix_cons_inj i).mpr hlater)
    · rintro ⟨hi, hrest⟩ earlier later hearlier hlater
      have htail := ih.mpr hrest
      cases later with
      | nil => rw [prefix_nil.mp hearlier]
      | cons i' later =>
        obtain ⟨rfl, hlater'⟩ := cons_prefix_cons.mp hlater
        cases earlier with
        | nil => exact hi.trans (htail [] later nil_prefix hlater')
        | cons i'' earlier =>
          obtain ⟨rfl, hearlier'⟩ := cons_prefix_cons.mp hearlier
          exact htail earlier later hearlier' hlater'

/-- An invariant that gives `R`, kept by the steps that meet `C` and followed by a failure
    of `R` at any other step: `R` holds of every state reached exactly when every step of
    the run meets `C`. -/
theorem reached_iff_always {Inv R : σ → Prop} {C : σ → ι → Prop} (hholds : ∀ s, Inv s → R s)
    (hkeep : ∀ s i, Inv s → C s i → Inv (step s i))
    (hbreak : ∀ s i, Inv s → ¬ C s i → ¬ R (step s i)) {s : σ} (h : Inv s) (inputs : List ι) :
    (∀ before, before <+: inputs → R (run step s before)) ↔ Always step C s inputs := by
  induction inputs generalizing s with
  | nil =>
    refine ⟨fun _ => trivial, fun _ before hbefore => ?_⟩
    rw [prefix_nil.mp hbefore]
    exact hholds s h
  | cons i rest ih =>
    constructor
    · intro hreached
      have hC : C s i := by
        by_contra hno
        refine hbreak s i h hno (hreached [i] ?_)
        exact ⟨rest, rfl⟩
      refine ⟨hC, (ih (hkeep s i h hC)).mp (fun before hbefore => ?_)⟩
      exact hreached (i :: before) ((prefix_cons_inj i).mpr hbefore)
    · rintro ⟨hC, hrest⟩ before hbefore
      cases before with
      | nil => exact hholds s h
      | cons i' before =>
        obtain ⟨hi, hbefore'⟩ := cons_prefix_cons.mp hbefore
        rw [hi]
        exact (ih (hkeep s i h hC)).mpr hrest before hbefore'

end VisionOs.Lib.Runs

namespace VisionOs.Lib.Noninterference

variable {σ κ ι ο τ : Type*} [DecidableEq κ] (step : σ → κ → ι → σ × ο)

def observed (user : κ) : σ → List (κ × ι) → List ο
  | _, [] => []
  | s, (caller, call) :: rest =>
    let (s', answer) := step s caller call
    if caller = user then answer :: observed user s' rest else observed user s' rest

/-- The user is answered as if the others had made no calls. -/
def Undisturbed (user : κ) (s : σ) (calls : List (κ × ι)) : Prop :=
  observed step user s calls = observed step user s (calls.filter (·.1 = user))

variable {step} {calls : List (κ × ι)}

theorem observed_eq_of_view {user : κ} (view : σ → τ)
    (hown : ∀ s s' call, view s = view s' → (step s user call).2 = (step s' user call).2 ∧
      view (step s user call).1 = view (step s' user call).1)
    (hother : ∀ s, ∀ call ∈ calls, call.1 ≠ user → view (step s call.1 call.2).1 = view s)
    {s s' : σ} (hview : view s = view s') :
    observed step user s calls = observed step user s' (calls.filter (·.1 = user)) := by
  induction calls generalizing s s' with
  | nil => rfl
  | cons entry rest ih =>
    obtain ⟨caller, call⟩ := entry
    have hrest := fun s call hcall => hother s call (List.mem_cons_of_mem _ hcall)
    by_cases hcaller : caller = user
    · subst hcaller
      obtain ⟨hanswer, hnext⟩ := hown s s' call hview
      rw [List.filter_cons_of_pos (by simp)]
      unfold observed
      simp only [if_true]
      rw [hanswer, ih hrest hnext]
    · rw [List.filter_cons_of_neg (by simpa using hcaller), observed]
      simp only [hcaller, if_false]
      exact ih hrest ((hother s (caller, call) List.mem_cons_self hcaller).trans hview)

theorem undisturbed_of_view {user : κ} (view : σ → τ)
    (hown : ∀ s s' call, view s = view s' → (step s user call).2 = (step s' user call).2 ∧
      view (step s user call).1 = view (step s' user call).1)
    (hother : ∀ s, ∀ call ∈ calls, call.1 ≠ user → view (step s call.1 call.2).1 = view s)
    (s : σ) : Undisturbed step user s calls :=
  observed_eq_of_view view hown hother rfl

end VisionOs.Lib.Noninterference

namespace VisionOs.Lib.WorkerPool

variable {σ τ : Type*}

structure Move (τ : Type*) where
  call : Nat
  reading : τ

/-- The moves of `n` calls, two each, on so many workers that take the calls in order. -/
def Interleaving (workers n : Nat) (Valid : τ → Prop) : (Nat → Nat) → List (Move τ) → Prop
  | taken, [] => ∀ i < n, 2 ≤ taken i
  | taken, m :: rest =>
    m.call < n ∧ taken m.call < 2 ∧ Valid m.reading ∧
    ((List.range m.call).filter (fun i => taken i < 2)).length < workers ∧
    Interleaving workers n Valid (Function.update taken m.call (taken m.call + 1)) rest

def sequential (reading : τ) (start count : Nat) : List (Move τ) :=
  (List.range' start count).flatMap (fun i => [⟨i, reading⟩, ⟨i, reading⟩])

theorem sequential_succ (reading : τ) (start count : Nat) :
    sequential reading start (count + 1) =
      [⟨start, reading⟩, ⟨start, reading⟩] ++ sequential reading (start + 1) count := by
  unfold sequential
  rw [List.range'_succ, List.flatMap_cons]

theorem sequential_add (reading : τ) (start count more : Nat) :
    sequential reading start (count + more) =
      sequential reading start count ++ sequential reading (start + count) more := by
  unfold sequential
  rw [← List.flatMap_append, List.range'_append_1]

variable {reading : τ}

theorem call_of_mem_sequential {start count : Nat} {m : Move τ}
    (h : m ∈ sequential reading start count) :
    start ≤ m.call ∧ m.call < start + count ∧ m.reading = reading := by
  obtain ⟨i, hi, hm⟩ := List.mem_flatMap.mp h
  rw [List.mem_range'_1] at hi
  have hsame : m = ⟨i, reading⟩ := by simpa using hm
  rw [hsame]
  exact ⟨hi.1, hi.2, rfl⟩

variable {workers n : Nat} {Valid : τ → Prop} {taken : Nat → Nat}

theorem sequential_interleaving_from (hvalid : Valid reading)
    (hworkers : 1 ≤ workers) {start count : Nat} (hn : start + count = n)
    (hbefore : ∀ i < start, taken i = 2) (hafter : ∀ i, start ≤ i → taken i = 0) :
    Interleaving workers n Valid taken (sequential reading start count) := by
  induction count generalizing start taken with
  | zero =>
    intro i hi
    exact Nat.le_of_eq (hbefore i (by omega)).symm
  | succ count ih =>
    -- No call before `start` is unfinished, so its worker is free.
    have hfree : ∀ taken' : Nat → Nat, (∀ i < start, taken' i = 2) →
        ((List.range start).filter (fun i => taken' i < 2)).length < workers := by
      intro taken' hbefore'
      have hnil : (List.range start).filter (fun i => taken' i < 2) = [] := by
        rw [List.filter_eq_nil_iff]
        intro i hi
        rw [hbefore' i (List.mem_range.mp hi)]
        decide
      rw [hnil]
      exact hworkers
    have hstart : taken start = 0 := hafter start (Nat.le_refl start)
    have hone : ∀ i < start, Function.update taken start (taken start + 1) i = 2 := by
      intro i hi
      rw [Function.update_of_ne (by omega)]
      exact hbefore i hi
    rw [sequential_succ]
    refine ⟨by show start < n; omega, by show taken start < 2; omega, hvalid,
      hfree taken hbefore, by show start < n; omega, ?_, hvalid, hfree _ hone, ?_⟩
    · show Function.update taken start (taken start + 1) start < 2
      rw [Function.update_self]
      omega
    · dsimp only
      refine ih (by omega) (fun i hi => ?_) (fun i hi => ?_)
      · by_cases h : i = start
        · rw [h, Function.update_self, Function.update_self, hstart]
        · rw [Function.update_of_ne h]
          exact hone i (by omega)
      · rw [Function.update_of_ne (by omega), Function.update_of_ne (by omega)]
        exact hafter i (by omega)

theorem sequential_interleaving (hvalid : Valid reading) (hworkers : 1 ≤ workers) :
    Interleaving workers n Valid (fun _ => 0) (sequential reading 0 n) :=
  sequential_interleaving_from hvalid hworkers (Nat.zero_add n)
    (fun i hi => absurd hi (Nat.not_lt_zero i)) (fun _ _ => rfl)

variable {step : σ → Move τ → σ} {moves : List (Move τ)}

theorem Interleaving.invariant (Inv : σ → Prop)
    (hstep : ∀ s m, m.call < n → Valid m.reading → Inv s → Inv (step s m))
    (h : Interleaving workers n Valid taken moves) {s : σ}
    (hs : Inv s) : Inv (Runs.run step s moves) := by
  induction moves generalizing taken s with
  | nil => exact hs
  | cons m rest ih =>
    obtain ⟨hcall, -, hvalid, -, hrest⟩ := h
    exact ih hrest (hstep s m hcall hvalid hs)

theorem Interleaving.progress (rank : σ → Nat → Nat) (hkeep : ∀ s m i, rank s i ≤ rank (step s m) i)
    (hadvance : ∀ s m, m.call < n → rank s m.call < 2 → rank s m.call < rank (step s m) m.call)
    (h : Interleaving workers n Valid taken moves) {s : σ}
    (hs : ∀ i < n, taken i ≤ rank s i) : ∀ i < n, 2 ≤ rank (Runs.run step s moves) i := by
  induction moves generalizing taken s with
  | nil =>
    intro i hi
    exact Nat.le_trans (h i hi) (hs i hi)
  | cons m rest ih =>
    obtain ⟨hcall, htaken, -, -, hrest⟩ := h
    refine ih hrest (fun i hi => ?_)
    have hmono := hkeep s m i
    have hrank := hs i hi
    by_cases hm : i = m.call
    · subst hm
      rw [Function.update_self]
      by_cases hlow : rank s m.call < 2
      · have := hadvance s m hcall hlow
        omega
      · omega
    · rw [Function.update_of_ne hm]
      omega

end VisionOs.Lib.WorkerPool
