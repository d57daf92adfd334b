/-
  Collecting items part by part under one limit.  The limit is looked at after an item is
  added, so every part gives its first item, however many there are already.
-/
import Mathlib.Data.List.Nodup

namespace VisionOs.Lib.Paging

open List

variable {α β : Type*} (limit : Nat)

/-- How many items a part may give after `n` of them. -/
def room (n : Nat) : Nat := max 1 (limit - n)

/-- The loop over one part: items that pass the test are added until the limit is reached. -/
def scan (test : α → Bool) (f : α → β) : List β → List α → List β
  | collected, [] => collected
  | collected, x :: rest =>
    if test x = false then scan test f collected rest
    else if limit ≤ (collected ++ [f x]).length then collected ++ [f x]
    else scan test f (collected ++ [f x]) rest

def given : Nat → List (List α) → List α
  | _, [] => []
  | n, part :: rest =>
    part.take (room limit n) ++ given (n + (part.take (room limit n)).length) rest

def withheld : Nat → List (List α) → List α
  | _, [] => []
  | n, part :: rest =>
    part.drop (room limit n) ++ withheld (n + (part.take (room limit n)).length) rest

variable {limit}

theorem scan_eq (test : α → Bool) (f : α → β) (collected : List β) (xs : List α) :
    scan limit test f collected xs =
      collected ++ ((xs.filter test).take (room limit collected.length)).map f := by
  induction xs generalizing collected with
  | nil => simp [scan]
  | cons x rest ih =>
    unfold scan
    cases htest : test x with
    | false =>
      rw [if_pos rfl, ih, filter_cons_of_neg (by rw [htest]; exact Bool.false_ne_true)]
    | true =>
      rw [if_neg (by decide), filter_cons_of_pos htest, length_append,
        length_singleton]
      by_cases hfull : limit ≤ collected.length + 1
      · -- the item reaches the limit, and is still given
        have hroom : room limit collected.length = 1 := by
          unfold room
          omega
        rw [if_pos hfull, hroom]
        rfl
      · have hroom : room limit collected.length =
            room limit (collected ++ [f x]).length + 1 := by
          unfold room
          rw [length_append, length_singleton]
          omega
        rw [if_neg hfull, ih, hroom, take_succ_cons, map_cons, append_assoc]
        rfl

theorem foldl_scan (limit : Nat) {γ : Type*} (test : γ → α → Bool) (f : γ → α → β)
    (parts : List (γ × List α)) (collected : List β) :
    parts.foldl (fun collected part => scan limit (test part.1) (f part.1) collected part.2)
        collected =
      collected ++ given limit collected.length
        (parts.map fun part => (part.2.filter (test part.1)).map (f part.1)) := by
  induction parts generalizing collected with
  | nil => simp [given]
  | cons part rest ih =>
    rw [foldl_cons, ih, scan_eq, map_cons, given, length_append, map_take,
      append_assoc]

variable {n : Nat} {parts : List (List α)}

theorem mem_given_or_withheld {x : α} :
    (∃ part ∈ parts, x ∈ part) ↔ x ∈ given limit n parts ∨ x ∈ withheld limit n parts := by
  induction parts generalizing n with
  | nil => simp [given, withheld]
  | cons part rest ih =>
    unfold given withheld
    rw [exists_mem_cons_iff, ih, mem_append, mem_append]
    have hpart : x ∈ part ↔ x ∈ part.take (room limit n) ∨ x ∈ part.drop (room limit n) := by
      rw [← mem_append, take_append_drop]
    rw [hpart]
    tauto

theorem disjoint_given_withheld (h : parts.flatten.Nodup) :
    List.Disjoint (given limit n parts) (withheld limit n parts) := by
  intro x hgiven hwithheld
  induction parts generalizing n with
  | nil => cases hgiven
  | cons part rest ih =>
    rw [flatten_cons, nodup_append'] at h
    obtain ⟨hpart, hrest, hdisjoint⟩ := h
    have hlater : ∀ m, x ∈ given limit m rest ∨ x ∈ withheld limit m rest → x ∈ rest.flatten := by
      intro m hx
      obtain ⟨part', hmem, hx'⟩ := mem_given_or_withheld.mpr hx
      exact mem_flatten.mpr ⟨part', hmem, hx'⟩
    rcases mem_append.mp hgiven with htake | hgiven
    · rcases mem_append.mp hwithheld with hdrop | hwithheld
      · exact disjoint_take_drop hpart (Nat.le_refl _) htake hdrop
      · exact hdisjoint (mem_of_mem_take htake) (hlater _ (.inr hwithheld))
    · rcases mem_append.mp hwithheld with hdrop | hwithheld
      · exact hdisjoint (mem_of_mem_drop hdrop) (hlater _ (.inl hgiven))
      · exact ih hrest hgiven hwithheld

@[simp] theorem given_nil_cons (n : Nat) (rest : List (List α)) :
    given limit n ([] :: rest) = given limit n rest := by
  rw [given, take_nil, nil_append, length_nil, Nat.add_zero]

theorem given_map (f : α → β) (n : Nat) (parts : List (List α)) :
    given limit n (parts.map (List.map f)) = (given limit n parts).map f := by
  induction parts generalizing n with
  | nil => rfl
  | cons part rest ih =>
    rw [map_cons, given, given, ih, ← map_take, map_append, length_map]

theorem given_sublist (n : Nat)
    (parts : List (List α)) : (given limit n parts).Sublist parts.flatten := by
  induction parts generalizing n with
  | nil => exact List.Sublist.refl _
  | cons part rest ih =>
    rw [flatten_cons]
    exact (take_sublist _ _).append (ih _)

/-! ## Within the limit

  The parts keep within the limit when only the last that gives anything may pass it. -/

/-- Every part with something in it begins below the limit. -/
def Fits (limit n : Nat) (parts : List (List α)) : Prop :=
  ∀ before part after, parts = before ++ part :: after → part ≠ [] →
    n + before.flatten.length < limit

theorem Fits.tail {part : List α} {rest : List (List α)}
    (h : Fits limit n (part :: rest)) : Fits limit (n + part.length) rest := by
  intro before part' after hsplit hne
  have := h (part :: before) part' after (by rw [hsplit]; rfl) hne
  rw [flatten_cons, length_append] at this
  omega

theorem given_eq_take (h : Fits limit n parts) :
    given limit n parts = parts.flatten.take (limit - n) := by
  induction parts generalizing n with
  | nil => rw [flatten_nil, take_nil, given]
  | cons part rest ih =>
    by_cases hpart : part = []
    · rw [hpart, given_nil_cons, flatten_cons, nil_append]
      exact ih (by simpa [hpart] using h.tail)
    have hroom : room limit n = limit - n := by
      have hlt := h [] part rest rfl hpart
      rw [flatten_nil, length_nil] at hlt
      unfold room
      omega
    rw [given, hroom, flatten_cons, take_append]
    congr 1
    by_cases hfull : limit - n ≤ part.length
    · -- Nobody after this part has anything.
      have hrest : Fits limit (n + (part.take (limit - n)).length) rest := by
        intro before part' after hsplit hne
        have := h.tail before part' after hsplit hne
        rw [length_take]
        omega
      rw [ih hrest, length_take]
      congr 1
      omega
    · have hall : part.take (limit - n) = part := take_of_length_le (by omega)
      rw [hall, ih h.tail, Nat.sub_add_eq]

theorem lt_length_given {n : Nat} {before after : List (List α)} {part : List α}
    (hne : part ≠ []) (hfull : limit ≤ n + before.flatten.length) :
    limit < n + (given limit n (before ++ part :: after)).length := by
  induction before generalizing n with
  | nil =>
    rw [flatten_nil, length_nil] at hfull
    rw [nil_append, given, length_append, length_take]
    have hpos := length_pos_iff.mpr hne
    unfold room
    omega
  | cons first rest ih =>
    rw [flatten_cons, length_append] at hfull
    have hnext : limit ≤ n + (first.take (room limit n)).length + rest.flatten.length := by
      rw [length_take]
      unfold room
      omega
    have := ih hnext
    rw [cons_append, given, length_append]
    omega

theorem length_given_le_iff :
    (given limit 0 parts).length ≤ limit ↔ Fits limit 0 parts := by
  constructor
  · intro h before part after hsplit hne
    by_contra hfull
    have := @lt_length_given α limit 0 before after part hne (Nat.not_lt.mp hfull)
    rw [← hsplit] at this
    omega
  · intro h
    rw [given_eq_take h, length_take]
    omega

end VisionOs.Lib.Paging
