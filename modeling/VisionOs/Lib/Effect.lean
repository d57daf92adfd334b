/-
  Calls on a state that may raise, keeping what they did before.  `wp` is the weakest precondition
  of a call for two postconditions, one for returning and one for raising.
-/
import Mathlib.Data.List.Basic

namespace VisionOs.Lib

/-- A call on a state: it returns or raises, and leaves a state either way. -/
def Effect (ε σ α : Type) : Type := σ → Except ε α × σ

namespace Effect

variable {ε σ α β : Type}

instance : Monad (Effect ε σ) where
  pure a := fun s => (.ok a, s)
  bind x f := fun s =>
    match x s with
    | (.ok a, s') => f a s'
    | (.error e, s') => (.error e, s')

def raise (e : ε) : Effect ε σ α := fun s => (.error e, s)

def read : Effect ε σ σ := fun s => (.ok s, s)

def modify (f : σ → σ) : Effect ε σ Unit := fun s => (.ok (), f s)

def ofExcept (x : Except ε α) : Effect ε σ α := fun s => (x, s)

def forEach (f : α → Effect ε σ Unit) : List α → Effect ε σ Unit
  | [] => pure ()
  | a :: rest => do
    f a
    forEach f rest

def collect (f : α → Effect ε σ β) : List α → Effect ε σ (List β)
  | [] => pure []
  | a :: rest => do
    let b ← f a
    let bs ← collect f rest
    pure (b :: bs)

def tryCatch (x : Effect ε σ α) (handler : ε → Effect ε σ α) : Effect ε σ α := fun s =>
  match x s with
  | (.ok a, s') => (.ok a, s')
  | (.error e, s') => handler e s'

/-- A call on a part of the state: the part is written back whether it returns or raises. -/
def zoom {τ : Type} (get : σ → τ) (put : τ → σ → σ) (x : Effect ε τ α) : Effect ε σ α := fun s =>
  ((x (get s)).1, put (x (get s)).2 s)

variable {x : Effect ε σ α} {f : α → Effect ε σ β} {a : α} {s' : σ}

theorem bind_of_ok {s : σ}
    (h : x s = (.ok a, s')) : (x >>= f) s = f a s' := by
  show (match x s with
    | (.ok a, t) => f a t
    | (.error e, t) => (.error e, t)) = _
  rw [h]

theorem bind_of_error {s : σ} {e : ε}
    (h : x s = (.error e, s')) : (x >>= f) s = (.error e, s') := by
  show (match x s with
    | (.ok a, t) => f a t
    | (.error e, t) => (.error e, t)) = _
  rw [h]

variable {handler : ε → Effect ε σ α}

theorem tryCatch_of_ok {s : σ}
    (h : x s = (.ok a, s')) : tryCatch x handler s = (.ok a, s') := by
  unfold tryCatch
  rw [h]

theorem tryCatch_of_error {s : σ} {e : ε}
    (h : x s = (.error e, s')) : tryCatch x handler s = handler e s' := by
  unfold tryCatch
  rw [h]

/-! ## Weakest preconditions -/

/-- The call started in `s` returns with `Q` or raises with `E`. -/
def wp (x : Effect ε σ α) (Q : α → σ → Prop) (E : ε → σ → Prop) (s : σ) : Prop :=
  match x s with
  | (.ok a, s') => Q a s'
  | (.error e, s') => E e s'

variable {Q : α → σ → Prop} {E : ε → σ → Prop} {s : σ}

@[simp] theorem wp_pure (a : α) : wp (pure a) Q E s ↔ Q a s := Iff.rfl

@[simp] theorem wp_raise (e : ε) : wp (raise e : Effect ε σ α) Q E s ↔ E e s := Iff.rfl

@[simp] theorem wp_read {Q : σ → σ → Prop} : wp read Q E s ↔ Q s s := Iff.rfl

@[simp] theorem wp_modify {Q : Unit → σ → Prop} (f : σ → σ) :
    wp (modify f) Q E s ↔ Q () (f s) := Iff.rfl

theorem wp_ofExcept (x : Except ε α) :
    wp (ofExcept x) Q E s ↔ (∀ a, x = .ok a → Q a s) ∧ (∀ e, x = .error e → E e s) := by
  unfold wp ofExcept
  cases x <;> simp

theorem wp_ofExcept_ok {x : Except ε α} (h : x = .ok a) :
    wp (ofExcept x) Q E s ↔ Q a s := by
  rw [h]
  exact Iff.rfl

@[simp] theorem wp_bind {Q : β → σ → Prop} (x : Effect ε σ α) (f : α → Effect ε σ β) :
    wp (x >>= f) Q E s ↔ wp x (fun a => wp (f a) Q E) E s := by
  show (match (match x s with
      | (.ok a, s') => f a s'
      | (.error e, s') => (.error e, s')) with
    | (.ok a, s') => Q a s'
    | (.error e, s') => E e s') ↔ _
  unfold wp
  obtain ⟨result, s'⟩ := x s
  cases result <;> rfl

theorem wp_tryCatch :
    wp (tryCatch x handler) Q E s ↔ wp x Q (fun e => wp (handler e) Q E) s := by
  unfold wp tryCatch
  obtain ⟨result, s'⟩ := x s
  cases result <;> rfl

theorem wp_zoom {τ : Type} {get : σ → τ} {put : τ → σ → σ} {x : Effect ε τ α} :
    wp (zoom get put x) Q E s ↔
      wp x (fun a t => Q a (put t s)) (fun e t => E e (put t s)) (get s) := by
  unfold wp zoom
  obtain ⟨result, t⟩ := x (get s)
  cases result <;> rfl

variable {Q' : α → σ → Prop} {E' : ε → σ → Prop}

theorem wp_mono
    (hQ : ∀ a s, Q a s → Q' a s) (hE : ∀ e s, E e s → E' e s) (h : wp x Q E s) :
    wp x Q' E' s := by
  unfold wp at h ⊢
  rcases hx : x s with ⟨result, s'⟩
  rw [hx] at h
  cases result with
  | ok a => exact hQ a s' h
  | error e => exact hE e s' h

theorem wp_iff :
    wp x Q E s ↔ (∀ a, (x s).1 = .ok a → Q a (x s).2) ∧
      (∀ e, (x s).1 = .error e → E e (x s).2) := by
  unfold wp
  obtain ⟨result, s'⟩ := x s
  cases result <;> simp

theorem wp_cases (x : Effect ε σ α) (s : σ) (h : wp x Q E s) :
    (∃ a s', x s = (.ok a, s') ∧ Q a s') ∨ ∃ e s', x s = (.error e, s') ∧ E e s' := by
  unfold wp at h
  rcases hrun : x s with ⟨e | a, s'⟩
  · rw [hrun] at h
    exact .inr ⟨e, s', rfl, h⟩
  · rw [hrun] at h
    exact .inl ⟨a, s', rfl, h⟩

theorem wp_ok (hrun : x s = (.ok a, s'))
    (h : wp x Q E s) : Q a s' := by
  rw [wp, hrun] at h
  exact h

theorem wp_state {I : σ → Prop} {x : Effect ε σ α} :
    wp x (fun _ => I) (fun _ => I) s ↔ I (x s).2 := by
  unfold wp
  obtain ⟨result, s'⟩ := x s
  cases result <;> rfl

theorem wp_and (h : wp x Q E s)
    (h' : wp x Q' E' s) : wp x (fun a s => Q a s ∧ Q' a s) (fun e s => E e s ∧ E' e s) s := by
  rw [wp_iff] at h h' ⊢
  exact ⟨fun a ha => ⟨h.1 a ha, h'.1 a ha⟩, fun e he => ⟨h.2 e he, h'.2 e he⟩⟩

theorem wp_true (x : Effect ε σ α) (s : σ) : wp x (fun _ _ => True) (fun _ _ => True) s :=
  wp_iff.mpr ⟨fun _ _ => trivial, fun _ _ => trivial⟩

def Returns (x : Effect ε σ α) (s : σ) : Prop := wp x (fun _ _ => True) (fun _ _ => False) s

theorem wp_of_returns (hreturns : Returns x s) (h : wp x Q E s) :
    wp x Q (fun _ _ => False) s :=
  wp_mono (fun _ _ h => h.1) (fun _ _ h => h.2) (wp_and h hreturns)

/-- A condition on every turn of a loop, and on the state before it, as far as the loop
    gets. -/
def Along (f : α → Effect ε σ Unit) (P : α → σ → Prop) : List α → σ → Prop
  | [], _ => True
  | a :: rest, s => P a s ∧ wp (f a) (fun _ s' => Along f P rest s') (fun _ _ => True) s

theorem along_of_forall {P : α → σ → Prop} {f : α → Effect ε σ Unit} (h : ∀ a s, P a s)
    (xs : List α) (s : σ) : Along f P xs s := by
  induction xs generalizing s with
  | nil => trivial
  | cons a rest ih =>
    exact ⟨h a s, wp_mono (fun _ s' _ => ih s') (fun _ _ _ => trivial) (wp_true (f a) s)⟩

theorem wp_forEach {I : List α → σ → Prop} {f : α → Effect ε σ Unit} {xs : List α}
    (hstep : ∀ a rest, (∃ before, xs = before ++ a :: rest) → ∀ s, I (a :: rest) s →
      wp (f a) (fun _ => I rest) E s)
    (h : I xs s) : wp (forEach f xs) (fun _ => I []) E s := by
  induction xs generalizing s with
  | nil => exact h
  | cons a rest ih =>
    unfold forEach
    rw [wp_bind]
    refine wp_mono (fun _ s' hrest => ih ?_ hrest) (fun _ _ he => he)
      (hstep a rest ⟨[], rfl⟩ s h)
    rintro a' rest' ⟨before, hsplit⟩
    exact hstep a' rest' ⟨a :: before, by rw [hsplit]; rfl⟩

theorem wp_collect {I : List α → List β → σ → Prop} {f : α → Effect ε σ β} {xs : List α}
    {done : List β} (hstep : ∀ a rest done s, I (a :: rest) done s →
      wp (f a) (fun b => I rest (done ++ [b])) E s)
    (h : I xs done s) : wp (collect f xs) (fun bs => I [] (done ++ bs)) E s := by
  induction xs generalizing done s with
  | nil =>
    show I [] (done ++ []) s
    rw [List.append_nil]
    exact h
  | cons a rest ih =>
    unfold collect
    rw [wp_bind]
    refine wp_mono (fun b s' hb => ?_) (fun _ _ he => he) (hstep a rest done s h)
    rw [wp_bind]
    refine wp_mono (fun bs s'' hbs => ?_) (fun _ _ he => he) (ih hb)
    show I [] (done ++ b :: bs) s''
    rw [List.append_cons]
    exact hbs

theorem returns_collect {xs : List α}
    (h : ∀ a ∈ xs, ∀ s, Returns (f a) s) : Returns (collect f xs) s := by
  induction xs generalizing s with
  | nil => trivial
  | cons a rest ih =>
    unfold collect Returns
    rw [wp_bind]
    refine wp_mono (fun b s' _ => ?_) (fun _ _ he => he) (h a List.mem_cons_self s)
    rw [wp_bind]
    exact wp_mono (fun _ _ _ => trivial) (fun _ _ he => he)
      (ih fun a' ha' => h a' (List.mem_cons_of_mem _ ha'))

/-- A loop whose turns all meet a condition keeps an invariant that each such turn
    keeps. -/
theorem wp_forEach_along {I : List α → σ → Prop} {P : α → σ → Prop} {f : α → Effect ε σ Unit}
    {xs : List α}
    (hstep : ∀ a rest, (∃ before, xs = before ++ a :: rest) → ∀ s, I (a :: rest) s → P a s →
      wp (f a) (fun _ => I rest) E s)
    (halong : Along f P xs s) (h : I xs s) : wp (forEach f xs) (fun _ => I []) E s := by
  have hloop : wp (forEach f xs) (fun _ s => I [] s ∧ Along f P [] s) E s := by
    refine @wp_forEach ε σ α E s (fun rest s => I rest s ∧ Along f P rest s) f xs ?_ ⟨h, halong⟩
    rintro a rest hsplit s ⟨hI, hP, hrest⟩
    refine wp_mono (fun _ _ h => h) (fun _ _ h => h.1) (wp_and ?_ hrest)
    exact hstep a rest hsplit s hI hP
  exact wp_mono (fun _ _ h => h.1) (fun _ _ h => h) hloop

/-- What a call returns, and what it leaves of a view of the state, depend on the view
    alone. -/
def Through {τ : Type} (view : σ → τ) (x : Effect ε σ α) : Prop :=
  ∀ s s', view s = view s' → (x s).1 = (x s').1 ∧ view (x s).2 = view (x s').2

variable {τ : Type} {view : σ → τ}

theorem through_pure (a : α) : Through view (pure a : Effect ε σ α) := fun _ _ h => ⟨rfl, h⟩

theorem through_ofExcept (x : Except ε α) : Through view (ofExcept x : Effect ε σ α) :=
  fun _ _ h => ⟨rfl, h⟩

theorem through_modify {f : σ → σ} (h : ∀ s s', view s = view s' → view (f s) = view (f s')) :
    Through view (modify f : Effect ε σ Unit) :=
  fun s s' hview => ⟨rfl, h s s' hview⟩

theorem through_bind (hx : Through view x)
    (hf : ∀ a, Through view (f a)) : Through view (x >>= f) := by
  intro s s' hview
  obtain ⟨hresult, hleft⟩ := hx s s' hview
  show ((match x s with
      | (.ok a, t) => f a t
      | (.error e, t) => (.error e, t)).1 = (match x s' with
      | (.ok a, t) => f a t
      | (.error e, t) => (.error e, t)).1) ∧ _
  rcases hs : x s with ⟨result, t⟩
  rcases hs' : x s' with ⟨result', t'⟩
  rw [hs, hs'] at hresult hleft
  subst hresult
  show _ ∧ view (match x s with
      | (.ok a, t) => f a t
      | (.error e, t) => (.error e, t)).2 = view (match x s' with
      | (.ok a, t) => f a t
      | (.error e, t) => (.error e, t)).2
  rw [hs, hs']
  cases result with
  | ok a => exact hf a t t' hleft
  | error e => exact ⟨rfl, hleft⟩

theorem through_read_bind {f : σ → Effect ε σ β}
    (hsame : ∀ s s', view s = view s' → f s = f s') (hf : ∀ s, Through view (f s)) :
    Through view (read >>= f) := by
  intro s s' hview
  show (f s s).1 = (f s' s').1 ∧ view (f s s).2 = view (f s' s').2
  rw [hsame s s' hview]
  exact hf s' s s' hview

theorem through_zoom {ρ : Type} {part : ρ} {put : ρ → σ → σ} {x : Effect ε ρ α}
    (h : ∀ t s s', view s = view s' → view (put t s) = view (put t s')) :
    Through view (zoom (fun _ => part) put x) :=
  fun s s' hview => ⟨rfl, h _ s s' hview⟩

end Effect

end VisionOs.Lib
