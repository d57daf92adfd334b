/-
  Tables in which a key may forward to another key.  `follow` chases a key and gives up on one
  that is absent or met again; the rules say which changes of the table keep that it arrives.
-/
import Mathlib.Data.List.Nodup
import Mathlib.Data.List.Perm.Subperm

namespace VisionOs.Lib

open List

variable {κ : Type*}

/-- What a table says of a key: it is absent, it is final, or it forwards to a key. -/
abbrev Forwards (κ : Type*) := κ → Option (Option κ)

def follow [DecidableEq κ] (next : Forwards κ) : Nat → List κ → κ → Option κ
  | fuel, seen, a =>
    match next a with
    | none => none
    | some none => some a
    | some (some b) =>
      if a ∈ seen then none
      else
        match fuel with
        | 0 => none
        | fuel + 1 => follow next fuel (a :: seen) b

/-- In so many hops, the first key leads to the second, which is final. -/
inductive Leads (next : Forwards κ) : Nat → κ → κ → Prop
  | here {a : κ} (h : next a = some none) : Leads next 0 a a
  | via {a b c : κ} {n : Nat} (h : next a = some (some b)) (rest : Leads next n b c) :
      Leads next (n + 1) a c

/-- The chase of the key ends. -/
def Arrives (next : Forwards κ) (a : κ) : Prop := ∃ n c, Leads next n a c

variable {next next' : Forwards κ} {a b c d : κ} {n m : Nat}

namespace Leads

theorem final (h : Leads next n a c) : next c = some none := by
  induction h with
  | here h => exact h
  | via _ _ ih => exact ih

theorem unique (h : Leads next n a c) (h' : Leads next m a d) : n = m ∧ c = d := by
  induction h generalizing m with
  | here h =>
    cases h' with
    | here _ => exact ⟨rfl, rfl⟩
    | via hvia _ =>
      rw [h] at hvia
      cases hvia
  | via h _ ih =>
    cases h' with
    | here hhere =>
      rw [h] at hhere
      cases hhere
    | via hvia hrest =>
      have hb := Option.some.inj (Option.some.inj (h.symm.trans hvia))
      rw [← hb] at hrest
      obtain ⟨hn, hc⟩ := ih hrest
      exact ⟨congrArg (· + 1) hn, hc⟩

/-- The keys on the way are distinct, for each is a different number of hops away from the
    end. -/
theorem path (h : Leads next n a c) :
    ∃ keys : List κ, keys.length = n + 1 ∧ keys.Nodup ∧
      ∀ x ∈ keys, (∃ m ≤ n, Leads next m x c) ∧ next x ≠ none := by
  induction h with
  | @here a h =>
    refine ⟨[a], rfl, nodup_singleton a, fun x hx => ?_⟩
    rw [mem_singleton.mp hx]
    refine ⟨⟨0, Nat.le_refl _, .here h⟩, ?_⟩
    rw [h]
    exact nofun
  | @via a b c n h rest ih =>
    obtain ⟨keys, hlength, hnodup, hkeys⟩ := ih
    refine ⟨a :: keys, by simp [hlength], nodup_cons.mpr ⟨fun ha => ?_, hnodup⟩, ?_⟩
    · obtain ⟨⟨m, hm, hshort⟩, -⟩ := hkeys a ha
      have hlong := (Leads.via h rest).unique hshort
      omega
    · intro x hx
      rcases mem_cons.mp hx with rfl | hx
      · refine ⟨⟨n + 1, Nat.le_refl _, .via h rest⟩, ?_⟩
        rw [h]
        exact nofun
      · obtain ⟨⟨m, hm, hleads⟩, hpresent⟩ := hkeys x hx
        exact ⟨⟨m, by omega, hleads⟩, hpresent⟩

theorem lt_length {keys : List κ} (h : Leads next n a c)
    (hkeys : ∀ x, next x ≠ none → x ∈ keys) : n < keys.length := by
  obtain ⟨way, hlength, hnodup, hway⟩ := h.path
  have hle := (subperm_of_subset hnodup fun x hx => hkeys x (hway x hx).2).length_le
  omega

theorem follow_eq [DecidableEq κ] (h : Leads next n a c) {fuel : Nat} {seen : List κ}
    (hfuel : n ≤ fuel) (hseen : ∀ x ∈ seen, ∀ m ≤ n, ¬ Leads next m x c) :
    follow next fuel seen a = some c := by
  induction h generalizing fuel seen with
  | here h =>
    unfold follow
    rw [h]
  | @via a b c n h rest ih =>
    have hnew : a ∉ seen := fun ha => hseen a ha (n + 1) (Nat.le_refl _) (.via h rest)
    unfold follow
    rw [h]
    simp only [hnew, if_false]
    cases fuel with
    | zero => omega
    | succ fuel =>
      refine ih (by omega) (fun x hx m hm hleads => ?_)
      rcases mem_cons.mp hx with rfl | hx
      · -- Its own way is longer than that.
        have hlong := (Leads.via h rest).unique hleads
        omega
      · exact hseen x hx m (by omega) hleads

end Leads

namespace Arrives

theorem follow_eq [DecidableEq κ] {keys : List κ} (h : Arrives next a)
    (hkeys : ∀ x, next x ≠ none → x ∈ keys) :
    ∃ c, follow next keys.length [] a = some c ∧ next c = some none := by
  obtain ⟨n, c, hleads⟩ := h
  refine ⟨c, hleads.follow_eq ?_ (fun x hx => by cases hx), hleads.final⟩
  have hlt := hleads.lt_length hkeys
  omega

theorem of_final (h : next a = some none) : Arrives next a := ⟨0, a, .here h⟩

theorem of_via (h : next a = some (some b)) (hb : Arrives next b) : Arrives next a := by
  obtain ⟨n, c, hleads⟩ := hb
  exact ⟨n + 1, c, .via h hleads⟩

/-- Where no way leaves the kept keys, a chase still arrives after a change that lets final
    keys arrive and has the others forward as before or nowhere. -/
theorem mono {kept : κ → Prop} (hclosed : ∀ a b, kept a → next a = some (some b) → kept b)
    (hfinal : ∀ a, kept a → next a = some none → Arrives next' a)
    (hvia : ∀ a b, kept a → next a = some (some b) →
      next' a = some (some b) ∨ next' a = some none)
    (ha : kept a) (h : Arrives next a) : Arrives next' a := by
  obtain ⟨n, c, hleads⟩ := h
  induction hleads with
  | here h => exact hfinal _ ha h
  | via h _ ih =>
    rcases hvia _ _ ha h with hsame | hend
    · exact of_via hsame (ih (hclosed _ _ ha h))
    · exact of_final hend

end Arrives

end VisionOs.Lib
