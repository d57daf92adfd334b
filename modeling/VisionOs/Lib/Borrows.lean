/-
  Things taken from a supply, each of which must be in one place at any time: `At p a` says that
  `a` is at the place `p`.  Deadline-bounded borrows of shared resources: every borrow is kept
  with what became of it, and the owner's count balances as long as only a borrow that is out is
  ended.
-/
import Mathlib.Data.List.Basic

namespace VisionOs.Lib

open List

/-- Everything taken is in one place, and nothing else is anywhere. -/
structure Custody {π α : Type*} (At : π → α → Prop) (taken : α → Prop) : Prop where
  placed : ∀ a, taken a → ∃! p, At p a
  known : ∀ p a, At p a → taken a

namespace Custody

variable {π α : Type*} {At At' : π → α → Prop} {taken : α → Prop} {a : α} {p q : π}

theorem unique (h : Custody At taken) (hp : At p a) (hq : At q a) : p = q :=
  (h.placed a (h.known p a hp)).unique hp hq

theorem move (h : Custody At taken) (f : π → π) (hforth : ∀ p a, At p a → At' (f p) a)
    (hback : ∀ q a, At' q a → ∃ p, At p a ∧ f p = q) : Custody At' taken := by
  refine ⟨fun a ha => ?_, fun q a hq => ?_⟩
  · obtain ⟨p, hp, -⟩ := h.placed a ha
    refine ⟨f p, hforth p a hp, fun q hq => ?_⟩
    obtain ⟨p', hp', rfl⟩ := hback q a hq
    rw [h.unique hp hp']
  · obtain ⟨p, hp, -⟩ := hback q a hq
    exact h.known p a hp

theorem congr (h : Custody At taken) (hsame : ∀ q a, At' q a ↔ At q a) : Custody At' taken :=
  h.move id (fun p a hp => (hsame p a).mpr hp) fun q a hq => ⟨q, (hsame q a).mp hq, rfl⟩

theorem take {new : α} {taken' : α → Prop} {dest : π} (h : Custody At taken)
    (hnew : ¬ taken new) (htaken : ∀ a, taken' a ↔ taken a ∨ a = new)
    (hput : ∀ q a, At' q a ↔ At q a ∨ (q = dest ∧ a = new)) : Custody At' taken' := by
  refine ⟨fun a ha => ?_, fun q a hq => ?_⟩
  · rcases (htaken a).mp ha with hold | rfl
    · -- what was taken before stays where it was
      obtain ⟨p, hp, honly⟩ := h.placed a hold
      refine ⟨p, (hput p a).mpr (.inl hp), fun q hq => ?_⟩
      rcases (hput q a).mp hq with hq | ⟨-, rfl⟩
      · exact honly q hq
      · exact absurd hold hnew
    · refine ⟨dest, (hput dest a).mpr (.inr ⟨rfl, rfl⟩), fun q hq => ?_⟩
      rcases (hput q a).mp hq with hq | ⟨rfl, -⟩
      · exact absurd (h.known q a hq) hnew
      · rfl
  · rcases (hput q a).mp hq with hq | ⟨-, rfl⟩
    · exact (htaken a).mpr (.inl (h.known q a hq))
    · exact (htaken a).mpr (.inr rfl)

end Custody

inductive Standing where
  | out | returned | broken
  deriving DecidableEq, Repr

structure Borrow (ρ : Type*) where
  resource : ρ
  deadline : Int
  standing : Standing := .out
  deriving DecidableEq

structure Borrows (ρ : Type*) where
  handed : List (Borrow ρ) := []
  active : Int := 0
  deriving DecidableEq

namespace Borrow

variable {ρ : Type*}

def isOut (b : Borrow ρ) : Bool := b.standing = .out

/-- The holder may still read: it has not returned the borrow, and the deadline has not passed. -/
def Live (b : Borrow ρ) (now : Int) : Prop := b.standing ≠ .returned ∧ now ≤ b.deadline

end Borrow

namespace Borrows

variable {ρ : Type*}

def lend (b : Borrows ρ) (resource : ρ) (deadline : Int) : Borrows ρ where
  handed := b.handed ++ [{ resource, deadline }]
  active := b.active + 1

def finish (b : Borrows ρ) (id : Nat) (standing : Standing) : Borrows ρ where
  handed := b.handed.modify id fun borrow => { borrow with standing }
  active := b.active - 1

/-- The count is the number of borrows that are out. -/
def Balanced (b : Borrows ρ) : Prop := b.active = b.handed.countP Borrow.isOut

theorem balanced_empty : (({} : Borrows ρ)).Balanced := rfl

variable {b : Borrows ρ} {id : Nat} {borrow : Borrow ρ} {standing : Standing}

theorem handed_lend {resource : ρ} {deadline : Int} :
    (b.lend resource deadline).handed[id]? = some borrow ↔ b.handed[id]? = some borrow ∨
      (id = b.handed.length ∧ borrow = { resource, deadline }) := by
  show (b.handed ++ [({ resource, deadline } : Borrow ρ)])[id]? = some borrow ↔ _
  rcases Nat.lt_trichotomy id b.handed.length with hlt | rfl | hgt
  · rw [getElem?_append_left hlt]
    exact ⟨.inl, fun h => h.resolve_right fun heq => absurd heq.1 (by omega)⟩
  · rw [getElem?_concat_length]
    simp [eq_comm]
  · rw [getElem?_eq_none (by simp; omega), getElem?_eq_none (by omega)]
    simp
    omega

theorem handed_finish {ended : Borrow ρ} (hended : b.handed[id]? = some ended) {id' : Nat} :
    (b.finish id standing).handed[id']? = some borrow ↔
      (id' ≠ id ∧ b.handed[id']? = some borrow) ∨
        (id' = id ∧ borrow = { ended with standing }) := by
  show (b.handed.modify id fun borrow => { borrow with standing })[id']? = some borrow ↔ _
  rw [getElem?_modify]
  by_cases hid : id = id'
  · rw [← hid, hended]
    simp [eq_comm]
  · simp [hid, Ne.symm hid]

theorem Balanced.lend (h : b.Balanced) (resource : ρ) (deadline : Int) :
    (b.lend resource deadline).Balanced := by
  unfold Balanced Borrows.lend at *
  rw [countP_append, h]
  rfl

theorem Balanced.finish (h : b.Balanced) (hborrow : b.handed[id]? = some borrow)
    (hout : borrow.standing = .out) (hended : standing ≠ .out) :
    (b.finish id standing).Balanced := by
  obtain ⟨hlt, hget⟩ := List.getElem?_eq_some_iff.mp hborrow
  have hset : b.handed.modify id (fun borrow => { borrow with standing }) =
      b.handed.set id { borrow with standing } := by
    rw [modify_eq_set_getElem?, hborrow]
    rfl
  have hpos : 0 < b.handed.countP Borrow.isOut :=
    countP_pos_iff.mpr ⟨borrow, mem_of_getElem? hborrow, by simp [Borrow.isOut, hout]⟩
  have hbefore : Borrow.isOut b.handed[id] = true := by
    rw [hget]
    simp [Borrow.isOut, hout]
  have hafter : Borrow.isOut { borrow with standing } = false := by
    simp [Borrow.isOut, hended]
  unfold Balanced Borrows.finish at *
  rw [hset, countP_set hlt, hbefore, hafter, h]
  simp only [if_true, Bool.false_eq_true, if_false]
  omega

end Borrows

end VisionOs.Lib
