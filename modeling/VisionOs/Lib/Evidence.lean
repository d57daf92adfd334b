/-
  Three-valued outcomes under loss of evidence, which can only turn an outcome into `none`.  A
  conjunction in which a failure outranks an unknown keeps that property.
-/
import Mathlib.Data.List.Forall2

namespace VisionOs.Lib.Evidence

/-- `b` is what is left of the outcome `a` after some evidence was lost. -/
def Fades (a b : Option Bool) : Prop := b = a ∨ b = none

def conj (os : List (Option Bool)) : Option Bool :=
  if some false ∈ os then some false else if none ∈ os then none else some true

variable {as bs : List (Option Bool)}

theorem false_mem_of_fades (h : List.Forall₂ Fades as bs) (hb : some false ∈ bs) :
    some false ∈ as := by
  induction h with
  | nil => exact hb
  | cons hab _ ih =>
    rcases List.mem_cons.mp hb with rfl | hb
    · rcases hab with hab | hab
      · simp [hab]
      · cases hab
    · exact List.mem_cons_of_mem _ (ih hb)

theorem none_mem_of_fades (h : List.Forall₂ Fades as bs)
    {o : Option Bool} (ho : o ∈ as) (hb : o ∉ bs) : none ∈ bs := by
  induction h with
  | nil => simp at ho
  | @cons a b as bs hab _ ih =>
    simp only [List.mem_cons, not_or] at hb
    rcases List.mem_cons.mp ho with rfl | ho
    · rcases hab with rfl | rfl
      · exact absurd rfl hb.1
      · simp
    · exact List.mem_cons_of_mem _ (ih ho hb.2)

theorem none_mem_fades (h : List.Forall₂ Fades as bs) (ha : none ∈ as) : none ∈ bs := by
  by_contra hb
  exact hb (none_mem_of_fades h ha hb)

theorem conj_fades (h : List.Forall₂ Fades as bs) : Fades (conj as) (conj bs) := by
  unfold conj
  by_cases hbf : some false ∈ bs
  · have haf := false_mem_of_fades h hbf
    simp [hbf, haf, Fades]
  · by_cases hbn : none ∈ bs
    · simp [hbf, hbn, Fades]
    · have haf : some false ∉ as := fun ha => hbn (none_mem_of_fades h ha hbf)
      have han : none ∉ as := fun ha => hbn (none_mem_fades h ha)
      simp [hbf, hbn, haf, han, Fades]

variable {os : List (Option Bool)}

theorem conj_eq_some_false : conj os = some false ↔ some false ∈ os := by
  unfold conj
  split
  · simp_all
  · split <;> simp_all

theorem conj_eq_some_true :
    conj os = some true ↔ ∀ o ∈ os, o = some true := by
  unfold conj
  constructor
  · intro h o ho
    rcases o with _ | _ | _
    · simp_all
    · simp_all
    · rfl
  · intro h
    have hf : some false ∉ os := fun hm => by simpa using h _ hm
    have hn : none ∉ os := fun hm => by simpa using h _ hm
    simp [hf, hn]

end VisionOs.Lib.Evidence
