/-
  Events that open and close episodes in turn, and the keyed store of those that are open.
-/
import Mathlib.Data.List.Basic

namespace VisionOs.Lib.Episodes

open List

variable {ε σ κ : Type*} (opens : ε → σ → Prop) (closes : σ → ε → Prop)

/-- The events lead from what is open to what is open after them, in turn. -/
inductive Leads : Option σ → List ε → Option σ → Prop
  | nil (s : Option σ) : Leads s [] s
  | opened {e : ε} {s : σ} {events : List ε} {after : Option σ} :
      opens e s → Leads (some s) events after → Leads none (e :: events) after
  | closed {e : ε} {s : σ} {events : List ε} {after : Option σ} :
      closes s e → Leads none events after → Leads (some s) (e :: events) after

variable {opens closes}

theorem Leads.append {before between after : Option σ} {xs ys : List ε}
    (hxs : Leads opens closes before xs between) (hys : Leads opens closes between ys after) :
    Leads opens closes before (xs ++ ys) after := by
  induction hxs with
  | nil s => exact hys
  | opened hopens _ ih => exact .opened hopens (ih hys)
  | closed hcloses _ ih => exact .closed hcloses (ih hys)

variable (opens closes) [DecidableEq κ] (key : ε → κ)

def story (k : κ) (events : List ε) : List ε := events.filter fun e => key e = k

/-- Key by key, the events lead from one store to the next. -/
def Accounts (before : κ → Option σ) (events : List ε) (after : κ → Option σ) : Prop :=
  ∀ k, Leads opens closes (before k) (story key k events) (after k)

variable {opens closes key}

theorem story_append (k : κ) (xs ys : List ε) :
    story key k (xs ++ ys) = story key k xs ++ story key k ys := filter_append ..

variable {events : List ε}

theorem story_eq_nil {k : κ} (h : ∀ e ∈ events, key e ≠ k) :
    story key k events = [] :=
  filter_eq_nil_iff.mpr fun e he => by simpa using h e he

theorem story_eq_self {k : κ} (h : ∀ e ∈ events, key e = k) :
    story key k events = events :=
  filter_eq_self.mpr fun e he => by simpa using h e he

theorem story_flatMap {ι : Type*} {k : κ} (keyOf : ι → κ) {entries : List ι} {write : ι → List ε}
    (hwrite : ∀ i ∈ entries, ∀ e ∈ write i, key e = keyOf i) :
    story key k (entries.flatMap write) =
      (entries.filter fun i => keyOf i = k).flatMap write := by
  induction entries with
  | nil => rfl
  | cons i rest ih =>
    have hrest := ih fun i' hi' => hwrite i' (mem_cons_of_mem _ hi')
    have hown := hwrite i mem_cons_self
    rw [flatMap_cons, story_append, hrest]
    by_cases hk : keyOf i = k
    · rw [filter_cons_of_pos (by simpa using hk), flatMap_cons,
        story_eq_self fun e he => (hown e he).trans hk]
    · rw [filter_cons_of_neg (by simpa using hk),
        story_eq_nil fun e he hkey => hk ((hown e he).symm.trans hkey), nil_append]

theorem Accounts.trans {before between after : κ → Option σ} {xs ys : List ε}
    (hxs : Accounts opens closes key before xs between)
    (hys : Accounts opens closes key between ys after) :
    Accounts opens closes key before (xs ++ ys) after := fun k => by
  rw [story_append]
  exact (hxs k).append (hys k)

end VisionOs.Lib.Episodes
