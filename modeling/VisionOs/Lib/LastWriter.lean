/-
  A register that a write replaces unless the write is older than what it holds, beside one
  without the guard.  When a publisher may stay silent: what it keeps of its last publications, it
  may lose at any moment.
-/
import Mathlib.Data.List.Induction
import Mathlib.Algebra.Order.Ring.Int

namespace VisionOs.Lib.LastWriter

open List

variable {ι τ α : Type*} [LinearOrder τ] (applies : ι → Prop)
  (time : ι → τ) (value : ι → α)

def write [DecidablePred applies] (held : τ × α) (w : ι) : τ × α :=
  if applies w ∧ ¬ time w < held.1 then (time w, value w) else held

structure Newest (before : List ι) (w : ι) (after : List ι) : Prop where
  own : applies w
  le : ∀ x ∈ before, applies x → time x ≤ time w
  lt : ∀ x ∈ after, applies x → time x < time w

variable {applies time value}

theorem foldl_write_cases [DecidablePred applies] (held : τ × α) (writes : List ι) :
    (writes.foldl (write applies time value) held = held ∧
      ∀ w ∈ writes, applies w → time w < held.1) ∨
    ∃ before w after, writes = before ++ w :: after ∧ Newest applies time before w after ∧
      held.1 ≤ time w ∧ writes.foldl (write applies time value) held = (time w, value w) := by
  induction writes using reverseRecOn with
  | nil => exact .inl ⟨rfl, fun _ h => by cases h⟩
  | append_singleton writes x ih =>
    rw [foldl_append, foldl_cons, foldl_nil]
    rcases ih with ⟨hheld, holder⟩ | ⟨before, w, after, hsplit, hnewest, hle, hheld⟩
    · rw [hheld]
      by_cases hx : applies x ∧ ¬ time x < held.1
      · right
        refine ⟨writes, x, [], rfl, ⟨hx.1, fun y hy happlies => ?_, fun _ h => by cases h⟩,
          not_lt.mp hx.2, if_pos hx⟩
        exact (holder y hy happlies).le.trans (not_lt.mp hx.2)
      · left
        refine ⟨if_neg hx, fun y hy happlies => ?_⟩
        rcases mem_append.mp hy with hy | hy
        · exact holder y hy happlies
        · rw [mem_singleton.mp hy] at happlies ⊢
          exact not_not.mp fun h => hx ⟨happlies, h⟩
    · rw [hheld]
      right
      by_cases hx : applies x ∧ ¬ time x < time w
      · -- The last write is as new as all before it.
        refine ⟨writes, x, [], rfl, ⟨hx.1, fun y hy happlies => ?_, fun _ h => by cases h⟩,
          hle.trans (not_lt.mp hx.2), if_pos hx⟩
        rw [hsplit, mem_append, mem_cons] at hy
        rcases hy with hy | rfl | hy
        · exact (hnewest.le y hy happlies).trans (not_lt.mp hx.2)
        · exact not_lt.mp hx.2
        · exact (hnewest.lt y hy happlies).le.trans (not_lt.mp hx.2)
      · refine ⟨before, w, after ++ [x], ?_,
          ⟨hnewest.own, hnewest.le, fun y hy happlies => ?_⟩, hle, if_neg hx⟩
        · rw [hsplit, append_assoc]
          rfl
        · rcases mem_append.mp hy with hy | hy
          · exact hnewest.lt y hy happlies
          · rw [mem_singleton.mp hy] at happlies ⊢
            exact not_not.mp fun h => hx ⟨happlies, h⟩

theorem Newest.unique {before before' after after' : List ι} {w w' : ι}
    (h : Newest applies time before w after) (h' : Newest applies time before' w' after')
    (hsame : before ++ w :: after = before' ++ w' :: after') : w = w' := by
  rcases append_eq_append_iff.mp hsame with ⟨mid, hbefore, hafter⟩ | ⟨mid, hbefore, hafter⟩
  · cases mid with
    | nil => exact (cons.inj hafter).1
    | cons x mid =>
      obtain ⟨rfl, hrest⟩ := cons.inj hafter
      have hw' : w' ∈ after := hrest ▸ mem_append_right _ mem_cons_self
      have hw : w ∈ before' := hbefore ▸ mem_append_right _ mem_cons_self
      exact absurd (h'.le w hw h.own) (not_le.mpr (h.lt w' hw' h'.own))
  · cases mid with
    | nil => exact (cons.inj hafter).1.symm
    | cons x mid =>
      obtain ⟨rfl, hrest⟩ := cons.inj hafter
      have hw : w ∈ after' := hrest ▸ mem_append_right _ mem_cons_self
      have hw' : w' ∈ before := hbefore ▸ mem_append_right _ mem_cons_self
      exact absurd (h.le w' hw' h'.own) (not_le.mpr (h'.lt w hw h.own))

variable {writes : List ι}

theorem foldl_write_value_eq_iff [DecidablePred applies] {held : τ × α} :
    (writes.foldl (write applies time value) held).2 = held.2 ↔
      ∀ before w after, writes = before ++ w :: after → Newest applies time before w after →
        held.1 ≤ time w → value w = held.2 := by
  constructor
  · intro hkept before w after hsplit hnewest hle
    rcases @foldl_write_cases _ _ _ _ applies time value _ held writes with
      ⟨-, holder⟩ | ⟨_, w', _, hsplit', hnewest', -, hresult⟩
    · have hw : w ∈ writes := hsplit ▸ mem_append_right _ mem_cons_self
      exact absurd (holder w hw hnewest.own) (not_lt.mpr hle)
    · rw [hresult] at hkept
      rw [hnewest.unique hnewest' (hsplit.symm.trans hsplit')]
      exact hkept
  · intro hall
    rcases @foldl_write_cases _ _ _ _ applies time value _ held writes with
      ⟨hheld, -⟩ | ⟨_, w, _, hsplit, hnewest, hle, hresult⟩
    · rw [hheld]
    · rw [hresult]
      exact hall _ w _ hsplit hnewest hle

/-! ## Without the guard -/

def overwrite (applies : ι → Prop) (time : ι → τ) (value : ι → α) [DecidablePred applies]
    (held : τ × α) (w : ι) : τ × α :=
  if applies w then (time w, value w) else held

omit [LinearOrder τ] in
theorem foldl_overwrite_cases [DecidablePred applies] (held : τ × α) (writes : List ι) :
    (writes.foldl (overwrite applies time value) held = held ∧ ∀ w ∈ writes, ¬ applies w) ∨
    ∃ before w after, writes = before ++ w :: after ∧ applies w ∧ (∀ x ∈ after, ¬ applies x) ∧
      writes.foldl (overwrite applies time value) held = (time w, value w) := by
  induction writes using reverseRecOn with
  | nil => exact .inl ⟨rfl, fun _ h => by cases h⟩
  | append_singleton writes x ih =>
    rw [foldl_append, foldl_cons, foldl_nil]
    by_cases hx : applies x
    · exact .inr ⟨writes, x, [], rfl, hx, (fun _ h => by cases h), if_pos hx⟩
    have hlast : overwrite applies time value
        (writes.foldl (overwrite applies time value) held) x =
        writes.foldl (overwrite applies time value) held := if_neg hx
    rw [hlast]
    rcases ih with ⟨hheld, hnone⟩ | ⟨before, w, after, hsplit, hown, hafter, hheld⟩
    · refine .inl ⟨hheld, fun y hy => ?_⟩
      rcases mem_append.mp hy with hy | hy
      · exact hnone y hy
      · rw [mem_singleton.mp hy]
        exact hx
    · refine .inr ⟨before, w, after ++ [x], ?_, hown, fun y hy => ?_, hheld⟩
      · rw [hsplit, append_assoc]
        rfl
      · rcases mem_append.mp hy with hy | hy
        · exact hafter y hy
        · rw [mem_singleton.mp hy]
          exact hx

theorem foldl_write_eq_foldl_overwrite_iff [DecidablePred applies] {held : τ × α}
    :
    writes.foldl (write applies time value) held =
        writes.foldl (overwrite applies time value) held ↔
      ∀ before w after, writes = before ++ w :: after → applies w →
        (∀ x ∈ after, ¬ applies x) →
        held.1 ≤ time w ∧ ∀ x ∈ before, applies x → time x ≤ time w := by
  constructor
  · intro heq before w after hsplit hown hafter
    -- Without the guard `w` is held, so it is what the guarded register holds.
    have hover : writes.foldl (overwrite applies time value) held = (time w, value w) := by
      rw [hsplit, foldl_append, foldl_cons, overwrite, if_pos hown]
      rcases @foldl_overwrite_cases _ _ _ applies time value _ (time w, value w) after with
        ⟨hsame, -⟩ |
        ⟨b, x, a, hx, hxown, -, -⟩
      · exact hsame
      · exact absurd hxown (hafter x (hx ▸ mem_append_right _ mem_cons_self))
    rw [hover] at heq
    have hmem : w ∈ writes := hsplit ▸ mem_append_right _ mem_cons_self
    rcases @foldl_write_cases _ _ _ _ applies time value _ held writes with ⟨hheld, holder⟩ |
      ⟨b, newest, a, hnewsplit, hnewest, hle, hheld⟩
    · have hnow : held.1 = time w := congrArg Prod.fst (hheld.symm.trans heq)
      exact absurd (holder w hmem hown) (by rw [hnow]; exact lt_irrefl _)
    have hnow : time newest = time w := congrArg Prod.fst (hheld.symm.trans heq)
    refine ⟨hnow ▸ hle, fun x hx hxown => ?_⟩
    have hxmem : x ∈ b ++ newest :: a := by
      rw [← hnewsplit, hsplit]
      exact mem_append_left _ hx
    rw [← hnow]
    rcases mem_append.mp hxmem with hxb | hxa
    · exact hnewest.le x hxb hxown
    · rcases mem_cons.mp hxa with rfl | hxa
      · exact le_refl _
      · exact (hnewest.lt x hxa hxown).le
  · intro hlast
    rcases @foldl_overwrite_cases _ _ _ applies time value _ held writes with ⟨hover, hnone⟩ |
      ⟨before, w, after, hsplit, hown, hafter, hover⟩
    · rw [hover]
      rcases @foldl_write_cases _ _ _ _ applies time value _ held writes with ⟨hheld, -⟩ | ⟨b, x, a, hx, hnewest, -, -⟩
      · exact hheld
      · exact absurd hnewest.own (hnone x (hx ▸ mem_append_right _ mem_cons_self))
    · -- The last write is the newest, and one write only is.
      obtain ⟨hle, hbefore⟩ := hlast before w after hsplit hown hafter
      have hw : Newest applies time before w after :=
        ⟨hown, hbefore, fun x hx hxown => absurd hxown (hafter x hx)⟩
      rw [hover]
      rcases @foldl_write_cases _ _ _ _ applies time value _ held writes with ⟨-, holder⟩ |
        ⟨b, newest, a, hnewsplit, hnewest, -, hheld⟩
      · have hmem : w ∈ writes := hsplit ▸ mem_append_right _ mem_cons_self
        exact absurd (holder w hmem hown) (not_lt.mpr hle)
      · rw [hheld, hnewest.unique hw (hnewsplit.symm.trans hsplit)]

end VisionOs.Lib.LastWriter

namespace VisionOs.Lib.Silence

variable {α K S : Type*} (key : α → K) (signature : α → S) (time : α → Int)

def IsLast (log : List α) (k : K) (x : α) : Prop :=
  ∃ before after, log = before ++ x :: after ∧ key x = k ∧ ∀ y ∈ after, key y ≠ k

def Remembers (log : List α) (memory : K → Option (S × Int)) : Prop :=
  ∀ k kept, memory k = some kept →
    ∃ x, IsLast key log k x ∧ signature x = kept.1 ∧ time x = kept.2

/-- Less than `period` before the item its subject was published with its signature, and with
    no other since. -/
def Covered (period : Int) (log : List α) (x : α) : Prop :=
  ∃ before y after, log = before ++ y :: after ∧ key y = key x ∧ signature y = signature x ∧
    time y ≤ time x ∧ time x - time y < period ∧
    ∀ z ∈ after, key z = key x → signature z = signature x

variable {key signature time} {log : List α} {memory memory' : K → Option (S × Int)}

theorem isLast_concat_self (log : List α) (x : α) : IsLast key (log ++ [x]) (key x) x :=
  ⟨log, [], rfl, rfl, fun _ h => by cases h⟩

variable {x : α}

theorem IsLast.concat {k : K} {y : α} (h : IsLast key log k x) (hother : key y ≠ k) :
    IsLast key (log ++ [y]) k x := by
  obtain ⟨before, after, hlog, hkey, hafter⟩ := h
  refine ⟨before, after ++ [y], ?_, hkey, fun z hz => ?_⟩
  · rw [hlog, List.append_assoc]
    rfl
  · rcases List.mem_append.mp hz with hz | hz
    · exact hafter z hz
    · rw [List.mem_singleton.mp hz]
      exact hother

theorem IsLast.mem {k : K} (h : IsLast key log k x) : x ∈ log := by
  obtain ⟨before, after, rfl, -, -⟩ := h
  exact List.mem_append_right _ List.mem_cons_self

theorem remembers_nothing (log : List α) : Remembers key signature time log (fun _ => none) :=
  fun _ _ h => by cases h

theorem Remembers.mono (h : Remembers key signature time log memory)
    (hless : ∀ k kept, memory' k = some kept → memory k = some kept) :
    Remembers key signature time log memory' :=
  fun k kept hkept => h k kept (hless k kept hkept)

theorem Remembers.publish (h : Remembers key signature time log memory)
    (hnoted : ∀ k kept, memory' k = some kept →
      (k = key x ∧ kept = (signature x, time x)) ∨ (k ≠ key x ∧ memory k = some kept)) :
    Remembers key signature time (log ++ [x]) memory' := by
  intro k kept hkept
  rcases hnoted k kept hkept with ⟨rfl, rfl⟩ | ⟨hother, hold⟩
  · exact ⟨x, isLast_concat_self log x, rfl, rfl⟩
  · obtain ⟨y, hlast, hy⟩ := h k kept hold
    exact ⟨y, hlast.concat (Ne.symm hother), hy⟩

theorem Remembers.covered {period : Int} {s : S} {at' : Int}
    (h : Remembers key signature time log memory) (hkept : memory (key x) = some (s, at'))
    (hsame : s = signature x) (hearly : time x - at' < period)
    (hlater : ∀ y ∈ log, key y = key x → time y ≤ time x) :
    Covered key signature time period log x := by
  obtain ⟨y, hlast, hsignature, htime⟩ := h _ _ hkept
  have hle := hlater y hlast.mem
  obtain ⟨before, after, hlog, hkey, hafter⟩ := hlast
  refine ⟨before, y, after, hlog, hkey, hsignature.trans hsame, hle hkey, ?_, ?_⟩
  · rw [htime]
    exact hearly
  · intro z hz hzkey
    exact absurd hzkey (hafter z hz)

end VisionOs.Lib.Silence
