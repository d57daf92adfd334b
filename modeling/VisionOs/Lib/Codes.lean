/-
  Words written one after another, with nothing between them: which of them can be told from what
  stands around them.
-/
import Mathlib.Data.List.Infix

namespace VisionOs.Lib.Codes

open List

variable {α ι : Type*}

def PrefixFree (code : ι → List α) : Prop := ∀ i j, code i <+: code j → i = j

def SuffixFree (code : ι → List α) : Prop := ∀ i j, code i <:+ code j → i = j

def text (code : ι → List α) (words : List ι) : List α := words.flatMap code

variable {code : ι → List α} {members : List ι}

theorem prefixFree_of_members (hmem : ∀ i, i ∈ members)
    (h : ∀ i ∈ members, ∀ j ∈ members, code i <+: code j → i = j) : PrefixFree code :=
  fun i j => h i (hmem i) j (hmem j)

theorem suffixFree_of_members (hmem : ∀ i, i ∈ members)
    (h : ∀ i ∈ members, ∀ j ∈ members, code i <:+ code j → i = j) : SuffixFree code :=
  fun i j => h i (hmem i) j (hmem j)

theorem PrefixFree.split (h : PrefixFree code) {i j : ι} {s t : List α}
    (heq : code i ++ s = code j ++ t) : i = j ∧ s = t := by
  have hij : i = j := by
    rcases append_eq_append_iff.mp heq with ⟨z, hj, -⟩ | ⟨z, hi, -⟩
    · exact h i j ⟨z, hj.symm⟩
    · exact (h j i ⟨z, hi.symm⟩).symm
  rw [hij] at heq
  exact ⟨hij, append_cancel_left heq⟩

theorem SuffixFree.split (h : SuffixFree code) {i j : ι} {s t : List α}
    (heq : s ++ code i = t ++ code j) : i = j ∧ s = t := by
  have hij : i = j := by
    rcases append_eq_append_iff.mp heq with ⟨z, -, hi⟩ | ⟨z, -, hj⟩
    · exact (h j i ⟨z, hi.symm⟩).symm
    · exact h i j ⟨z, hj.symm⟩
  rw [hij] at heq
  exact ⟨hij, append_cancel_right heq⟩

theorem SuffixFree.split_text (h : SuffixFree code) (hne : ∀ i, code i ≠ []) {z : List α}
    {ws ws' : List ι} (heq : text code ws = z ++ text code ws') :
    ∃ us, ws = us ++ ws' ∧ z = text code us := by
  induction ws' using List.reverseRecOn generalizing ws with
  | nil => exact ⟨ws, (append_nil ws).symm, by rw [heq]; exact (append_nil z).symm⟩
  | append_singleton ws' j ih =>
    unfold text at heq
    rw [flatMap_append, flatMap_singleton, ← append_assoc] at heq
    cases ws using List.reverseRecOn with
    | nil =>
      have hnil := (append_eq_nil_iff.mp heq.symm).2
      exact absurd hnil (hne j)
    | append_singleton ws i =>
      rw [flatMap_append, flatMap_singleton] at heq
      obtain ⟨rfl, hbefore⟩ := h.split heq
      obtain ⟨us, rfl, hz⟩ := ih hbefore
      exact ⟨us, append_assoc _ _ _, hz⟩

/-- Two texts that end with words are the same when one goes on, before the words they share,
    with the words that the other has before them. -/
theorem SuffixFree.append_text_eq_iff (h : SuffixFree code) (hne : ∀ i, code i ≠ [])
    {m m' : List α} {ws ws' : List ι} :
    m ++ text code ws = m' ++ text code ws' ↔
      (∃ us, m' = m ++ text code us ∧ ws = us ++ ws') ∨
      (∃ us, m = m' ++ text code us ∧ ws' = us ++ ws) := by
  rw [append_eq_append_iff]
  constructor
  · rintro (⟨z, hm, hz⟩ | ⟨z, hm, hz⟩)
    · obtain ⟨us, hws, rfl⟩ := h.split_text hne hz
      exact .inl ⟨us, hm, hws⟩
    · obtain ⟨us, hws, rfl⟩ := h.split_text hne hz
      exact .inr ⟨us, hm, hws⟩
  · rintro (⟨us, hm, rfl⟩ | ⟨us, hm, rfl⟩)
    · exact .inl ⟨_, hm, flatMap_append⟩
    · exact .inr ⟨_, hm, flatMap_append⟩

end VisionOs.Lib.Codes
