/-
  Insertion-ordered dictionaries, in the iteration order of a Python `dict`: writing an existing
  key replaces its value where it stands, and a new key appends.
-/
import Mathlib.Data.List.Induction
import Mathlib.Data.List.Nodup

namespace VisionOs.Lib

open List Option Prod

/-- An association list with pairwise distinct keys, in insertion order. -/
structure OrderedDict (κ : Type*) (α : Type*) where
  entries : List (κ × α)
  nodupKeys : (entries.map fst).Nodup

namespace OrderedDict

variable {κ α β : Type*} {d : OrderedDict κ α}

@[ext] theorem ext {e : OrderedDict κ α} (h : d.entries = e.entries) : d = e := by
  cases d
  cases e
  congr

def empty : OrderedDict κ α := ⟨[], nodup_nil⟩

instance : EmptyCollection (OrderedDict κ α) := ⟨empty⟩

instance : Inhabited (OrderedDict κ α) := ⟨empty⟩

instance [DecidableEq κ] [DecidableEq α] : DecidableEq (OrderedDict κ α) := fun d e =>
  decidable_of_iff (d.entries = e.entries) ⟨ext, fun h => h ▸ rfl⟩

def keys (d : OrderedDict κ α) : List κ := d.entries.map fst

def values (d : OrderedDict κ α) : List α := d.entries.map snd

/-- `len(d)`. -/
def size (d : OrderedDict κ α) : Nat := d.entries.length

section Lookup

variable [DecidableEq κ]

/-- The value of the first entry under `k`, in a list of entries. -/
def lookupIn (k : κ) : List (κ × α) → Option α
  | [] => none
  | (k', v) :: rest => if k' = k then some v else lookupIn k rest

/-- Replace the value under `k` where it stands, or append `(k, v)`. -/
def setIn (k : κ) (v : α) : List (κ × α) → List (κ × α)
  | [] => [(k, v)]
  | (k', v') :: rest => if k' = k then (k, v) :: rest else (k', v') :: setIn k v rest

def get? (d : OrderedDict κ α) (k : κ) : Option α := lookupIn k d.entries

variable {k : κ} {v : α} {es : List (κ × α)}

theorem mem_of_lookupIn (h : lookupIn k es = some v) :
    (k, v) ∈ es := by
  induction es with
  | nil => simp [lookupIn] at h
  | cons e rest ih =>
    obtain ⟨k', v'⟩ := e
    by_cases hk : k' = k
    · subst hk
      simp only [lookupIn, if_true, some.injEq] at h
      simp [h]
    · simp only [lookupIn, hk, if_false] at h
      exact mem_cons_of_mem _ (ih h)

theorem lookupIn_of_mem (hn : (es.map fst).Nodup)
    (h : (k, v) ∈ es) : lookupIn k es = some v := by
  induction es with
  | nil => simp at h
  | cons e rest ih =>
    obtain ⟨k', v'⟩ := e
    simp only [map_cons, nodup_cons] at hn
    rcases mem_cons.mp h with h | h
    · cases h
      simp [lookupIn]
    · have hk : k' ≠ k := by
        rintro rfl
        exact hn.1 (mem_map.mpr ⟨_, h, rfl⟩)
      simp only [lookupIn, hk, if_false]
      exact ih hn.2 h

theorem lookupIn_eq_none :
    lookupIn k es = none ↔ k ∉ es.map fst := by
  induction es with
  | nil => simp [lookupIn]
  | cons e rest ih =>
    obtain ⟨k', v'⟩ := e
    by_cases hk : k' = k
    · simp [lookupIn, hk]
    · simp [lookupIn, hk, Ne.symm hk, ih]

variable {d : OrderedDict κ α}

theorem get?_eq_some_iff :
    d.get? k = some v ↔ (k, v) ∈ d.entries :=
  ⟨mem_of_lookupIn, lookupIn_of_mem d.nodupKeys⟩

theorem mem_values : v ∈ d.values ↔ ∃ k, d.get? k = some v := by
  constructor
  · intro hv
    obtain ⟨⟨k, v'⟩, hmem, rfl⟩ := mem_map.mp hv
    exact ⟨k, get?_eq_some_iff.mpr hmem⟩
  · rintro ⟨k, hk⟩
    exact mem_map.mpr ⟨(k, v), get?_eq_some_iff.mp hk, rfl⟩

theorem get?_eq_none_iff : d.get? k = none ↔ k ∉ d.keys :=
  lookupIn_eq_none

@[simp] theorem get?_empty (k : κ) : (empty : OrderedDict κ α).get? k = none := rfl

theorem getElem?_values_idxOf (h : d.get? k = some v) :
    d.values[d.keys.idxOf k]? = some v := by
  have hread : ∀ es : List (κ × α), lookupIn k es = some v →
      (es.map snd)[(es.map fst).idxOf k]? = some v := by
    intro es hlookup
    induction es with
    | nil => cases hlookup
    | cons e rest ih =>
      obtain ⟨k', v'⟩ := e
      by_cases hk : k' = k
      · subst hk
        simpa [lookupIn] using hlookup
      · simp only [lookupIn, hk, if_false] at hlookup
        simp [idxOf_cons_ne _ hk, ih hlookup]
  exact hread d.entries h

theorem exists_get?_of_getElem?_values {i : Nat}
    (h : d.values[i]? = some v) : ∃ k, d.get? k = some v ∧ d.keys.idxOf k = i := by
  unfold values at h
  rw [getElem?_map] at h
  obtain ⟨⟨k, v'⟩, hentry, rfl⟩ := map_eq_some_iff.mp h
  refine ⟨k, get?_eq_some_iff.mpr (mem_of_getElem? hentry), ?_⟩
  have hkey : d.keys[i]? = some k := by
    unfold keys
    rw [getElem?_map, hentry]
    rfl
  obtain ⟨hlt, hget⟩ := List.getElem?_eq_some_iff.mp hkey
  have hnodup : d.keys.Nodup := d.nodupKeys
  rw [← hget]
  exact hnodup.idxOf_getElem i hlt

/-! ## Writing -/

theorem map_fst_setIn (k : κ) (v : α) (es : List (κ × α)) :
    (setIn k v es).map fst =
      if k ∈ es.map fst then es.map fst else es.map fst ++ [k] := by
  induction es with
  | nil => simp [setIn]
  | cons e rest ih =>
    obtain ⟨k', v'⟩ := e
    by_cases hk : k' = k
    · simp [setIn, hk]
    · simp only [setIn, hk, if_false, map_cons, ih]
      by_cases hm : k ∈ rest.map fst
      · simp [hm]
      · simp [hm, Ne.symm hk]

theorem lookupIn_setIn (k k' : κ) (v : α) (es : List (κ × α)) :
    lookupIn k' (setIn k v es) = if k = k' then some v else lookupIn k' es := by
  induction es with
  | nil => simp [setIn, lookupIn]
  | cons e rest ih =>
    obtain ⟨j, w⟩ := e
    by_cases hj : j = k
    · by_cases hk : k = k' <;> simp [setIn, lookupIn, hj, hk]
    · by_cases hk : j = k'
      · subst hk
        simp [setIn, lookupIn, hj, Ne.symm hj]
      · simp only [setIn, hj, if_false, lookupIn, hk, ih]

theorem nodup_map_fst_setIn
    (h : (es.map fst).Nodup) : ((setIn k v es).map fst).Nodup := by
  rw [map_fst_setIn]
  split
  · exact h
  · rename_i hk
    exact nodup_append.mpr ⟨h, nodup_singleton k, by
      intro a ha b hb
      rw [mem_singleton.mp hb]
      rintro rfl
      exact hk ha⟩

def set (d : OrderedDict κ α) (k : κ) (v : α) : OrderedDict κ α :=
  ⟨setIn k v d.entries, nodup_map_fst_setIn d.nodupKeys⟩

theorem get?_set (d : OrderedDict κ α) (k k' : κ) (v : α) :
    (d.set k v).get? k' = if k = k' then some v else d.get? k' :=
  lookupIn_setIn k k' v d.entries

theorem get?_of_set {k' : κ} {w : α}
    (h : (d.set k v).get? k' = some w) : k = k' ∧ v = w ∨ k ≠ k' ∧ d.get? k' = some w := by
  rw [get?_set] at h
  split at h
  · rename_i hk
    exact .inl ⟨hk, some.inj h⟩
  · rename_i hk
    exact .inr ⟨hk, h⟩

@[simp] theorem get?_set_self (d : OrderedDict κ α) (k : κ) (v : α) :
    (d.set k v).get? k = some v := by
  simp [get?_set]

theorem setIn_of_lookupIn_none (h : lookupIn k es = none) :
    setIn k v es = es ++ [(k, v)] := by
  induction es with
  | nil => rfl
  | cons e rest ih =>
    obtain ⟨k', v'⟩ := e
    by_cases hk : k' = k
    · simp [lookupIn, hk] at h
    · simp only [lookupIn, hk, if_false] at h
      simp only [setIn, hk, if_false, cons_append, ih h]

theorem entries_set_of_get?_none (h : d.get? k = none) :
    (d.set k v).entries = d.entries ++ [(k, v)] :=
  setIn_of_lookupIn_none h

theorem keys_set_of_get?_none (h : d.get? k = none) :
    (d.set k v).keys = d.keys ++ [k] := by
  unfold keys
  rw [entries_set_of_get?_none h, map_append]
  rfl

theorem entries_set_of_get?_some (h : d.get? k = some v)
    (v' : α) : ∃ before after, d.entries = before ++ (k, v) :: after ∧
      (d.set k v').entries = before ++ (k, v') :: after := by
  have hsplit : ∀ es : List (κ × α), lookupIn k es = some v →
      ∃ before after, es = before ++ (k, v) :: after ∧
        setIn k v' es = before ++ (k, v') :: after := by
    intro es hlookup
    induction es with
    | nil => cases hlookup
    | cons e rest ih =>
      obtain ⟨k₀, v₀⟩ := e
      by_cases hk : k₀ = k
      · subst hk
        simp only [lookupIn, if_true] at hlookup
        obtain rfl := some.inj hlookup
        exact ⟨[], rest, rfl, by simp [setIn]⟩
      · simp only [lookupIn, hk, if_false] at hlookup
        obtain ⟨before, after, hes, hset⟩ := ih hlookup
        refine ⟨(k₀, v₀) :: before, after, by rw [hes]; rfl, ?_⟩
        simp only [setIn, hk, if_false, hset, cons_append]
  exact hsplit d.entries h

/-- Setting what is there changes nothing. -/
theorem set_of_get? (h : d.get? k = some v) :
    d.set k v = d := by
  obtain ⟨before, after, hd, hset⟩ := entries_set_of_get?_some h v
  exact ext (hset.trans hd.symm)

theorem set_set (d : OrderedDict κ α) (k : κ) (v v' : α) : (d.set k v).set k v' = d.set k v' := by
  apply ext
  show setIn k v' (setIn k v d.entries) = setIn k v' d.entries
  induction d.entries with
  | nil => simp [setIn]
  | cons e rest ih =>
    obtain ⟨k₀, v₀⟩ := e
    by_cases hk : k₀ = k
    · simp [setIn, hk]
    · simp only [setIn, hk, if_false, ih]

theorem size_set_le (d : OrderedDict κ α) (k : κ) (v : α) : (d.set k v).size ≤ d.size + 1 := by
  have hkeys := congrArg length (map_fst_setIn k v d.entries)
  rw [length_map] at hkeys
  show (setIn k v d.entries).length ≤ d.entries.length + 1
  rw [hkeys]
  split <;> simp

def modify (d : OrderedDict κ α) (k : κ) (f : α → α) : OrderedDict κ α :=
  ⟨d.entries.map (fun e => if e.1 = k then (e.1, f e.2) else e), by
    have hkeys : (d.entries.map (fun e => if e.1 = k then (e.1, f e.2) else e)).map fst =
        d.entries.map fst := by
      rw [List.map_map]
      apply map_congr_left
      intro e _
      show (if e.1 = k then (e.1, f e.2) else e).1 = e.1
      split <;> rfl
    rw [hkeys]
    exact d.nodupKeys⟩

theorem lookupIn_map_modify (k k' : κ) (f : α → α) (es : List (κ × α)) :
    lookupIn k' (es.map (fun e => if e.1 = k then (e.1, f e.2) else e)) =
      if k = k' then (lookupIn k' es).map f else lookupIn k' es := by
  induction es with
  | nil => simp [lookupIn]
  | cons e rest ih =>
    obtain ⟨j, w⟩ := e
    rw [map_cons]
    by_cases hj : j = k
    · subst hj
      by_cases hk : j = k' <;> simp [lookupIn, hk, ih]
    · by_cases hk : j = k'
      · subst hk
        simp [lookupIn, hj, Ne.symm hj]
      · simp only [hj, if_false, lookupIn, hk, ih]

theorem get?_modify (d : OrderedDict κ α) (k k' : κ) (f : α → α) :
    (d.modify k f).get? k' = if k = k' then (d.get? k').map f else d.get? k' :=
  lookupIn_map_modify k k' f d.entries

@[simp] theorem size_modify (d : OrderedDict κ α) (k : κ) (f : α → α) :
    (d.modify k f).size = d.size :=
  length_map _

@[simp] theorem keys_modify (d : OrderedDict κ α) (k : κ) (f : α → α) :
    (d.modify k f).keys = d.keys := by
  show (d.entries.map (fun e => if e.1 = k then (e.1, f e.2) else e)).map fst = _
  rw [List.map_map]
  refine map_congr_left fun e _ => ?_
  show (if e.1 = k then (e.1, f e.2) else e).1 = e.1
  split <;> rfl

theorem modify_eq_self {f : α → α}
    (h : ∀ v, d.get? k = some v → f v = v) : d.modify k f = d := by
  apply ext
  refine (map_congr_left fun e he => ?_).trans (map_id _)
  by_cases hk : e.1 = k
  · rw [if_pos hk, h e.2 (get?_eq_some_iff.mpr (by rw [← hk]; exact he))]
    rfl
  · rw [if_neg hk]
    rfl

def ofPairs (pairs : List (κ × α)) : OrderedDict κ α :=
  pairs.foldl (fun d p => d.set p.1 p.2) empty

theorem ofPairs_concat (pairs : List (κ × α)) (p : κ × α) :
    ofPairs (pairs ++ [p]) = (ofPairs pairs).set p.1 p.2 := by
  unfold ofPairs
  rw [foldl_append]
  rfl

variable {pairs : List (κ × α)}

theorem mem_of_get?_ofPairs
    (h : (ofPairs pairs).get? k = some v) : (k, v) ∈ pairs := by
  induction pairs using reverseRecOn with
  | nil => cases h
  | append_singleton pairs p ih =>
    rw [ofPairs_concat, get?_set] at h
    by_cases hk : p.1 = k
    · rw [if_pos hk, some.injEq] at h
      rw [← hk, ← h]
      simp
    · rw [if_neg hk] at h
      exact mem_append_left _ (ih h)

theorem exists_get?_ofPairs (h : k ∈ pairs.map fst) :
    ∃ v, (ofPairs pairs).get? k = some v := by
  induction pairs using reverseRecOn with
  | nil => cases h
  | append_singleton pairs p ih =>
    rw [ofPairs_concat, get?_set]
    by_cases hk : p.1 = k
    · exact ⟨p.2, if_pos hk⟩
    · rw [if_neg hk]
      refine ih ?_
      rw [map_append, mem_append] at h
      rcases h with h | h
      · exact h
      · exact absurd (mem_singleton.mp h).symm hk

theorem entries_ofPairs (h : (pairs.map fst).Nodup) :
    (ofPairs pairs).entries = pairs := by
  induction pairs using reverseRecOn with
  | nil => rfl
  | append_singleton pairs p ih =>
    rw [map_append, nodup_append] at h
    obtain ⟨hbefore, -, hnew⟩ := h
    have hnone : (ofPairs pairs).get? p.1 = none := by
      rw [eq_none_iff_forall_ne_some]
      intro v hv
      have hmem : p.1 ∈ pairs.map fst := mem_map.mpr ⟨_, mem_of_get?_ofPairs hv, rfl⟩
      exact hnew _ hmem p.1 (by simp) rfl
    rw [ofPairs_concat, entries_set_of_get?_none hnone, ih hbefore]

theorem get?_ofPairs_map (d : OrderedDict κ α) (f : κ → α → β) (k : κ) :
    (ofPairs (d.entries.map fun e => (e.1, f e.1 e.2))).get? k = (d.get? k).map (f k) := by
  have hkeys : (d.entries.map fun e => (e.1, f e.1 e.2)).map fst = d.keys := by
    rw [List.map_map]
    rfl
  have hnodup : ((d.entries.map fun e => (e.1, f e.1 e.2)).map fst).Nodup := by
    rw [hkeys]
    exact d.nodupKeys
  cases h : d.get? k with
  | none =>
    refine get?_eq_none_iff.mpr ?_
    rw [keys, entries_ofPairs hnodup, hkeys]
    exact get?_eq_none_iff.mp h
  | some v =>
    refine get?_eq_some_iff.mpr ?_
    rw [entries_ofPairs hnodup]
    exact mem_map.mpr ⟨(k, v), get?_eq_some_iff.mp h, rfl⟩

theorem filter_entries (d : OrderedDict κ α) (k : κ) :
    (d.entries.filter fun e => e.1 = k) = ((d.get? k).map fun v => (k, v)).toList := by
  obtain ⟨entries, hnodup⟩ := d
  show entries.filter (fun e => e.1 = k) = ((lookupIn k entries).map fun v => (k, v)).toList
  induction entries with
  | nil => rfl
  | cons e rest ih =>
    obtain ⟨k', v⟩ := e
    have hrest := nodup_cons.mp hnodup
    unfold lookupIn
    by_cases hk : k' = k
    · rw [filter_cons_of_pos (by simpa using hk), if_pos hk, ih hrest.2,
        lookupIn_eq_none.mpr (hk ▸ hrest.1), hk]
      rfl
    · rw [filter_cons_of_neg (by simpa using hk), if_neg hk, ih hrest.2]

theorem get?_foldl_set (h : (pairs.map fst).Nodup)
    (d : OrderedDict κ α) (k : κ) (v : α) :
    (pairs.foldl (fun d p => d.set p.1 p.2) d).get? k = some v ↔
      (k, v) ∈ pairs ∨ (k ∉ pairs.map fst ∧ d.get? k = some v) := by
  induction pairs generalizing d with
  | nil => simp
  | cons p rest ih =>
    rw [map_cons, nodup_cons] at h
    rw [foldl_cons, ih h.2, get?_set, map_cons, mem_cons, mem_cons, not_or]
    by_cases hk : p.1 = k
    · -- no later pair has this key
      subst hk
      rw [if_pos rfl]
      constructor
      · rintro (hrest | ⟨-, hv⟩)
        · exact .inl (.inr hrest)
        · exact .inl (.inl (by rw [← some.inj hv]))
      · rintro ((heq | hrest) | ⟨⟨hne, -⟩, -⟩)
        · exact .inr ⟨h.1, by rw [← heq]⟩
        · exact .inl hrest
        · exact absurd rfl hne
    · rw [if_neg hk]
      constructor
      · rintro (hrest | ⟨hnot, hv⟩)
        · exact .inl (.inr hrest)
        · exact .inr ⟨⟨Ne.symm hk, hnot⟩, hv⟩
      · rintro ((heq | hrest) | ⟨⟨-, hnot⟩, hv⟩)
        · exact absurd (congrArg fst heq).symm hk
        · exact .inl hrest
        · exact .inr ⟨hnot, hv⟩

end Lookup

/-! ## Removing -/

def filterKeys (d : OrderedDict κ α) (p : κ → Bool) : OrderedDict κ α :=
  ⟨d.entries.filter (fun e => p e.1), by
    have hs : (d.entries.filter (fun e => p e.1)).Sublist d.entries := filter_sublist
    exact (hs.map fst).nodup d.nodupKeys⟩

theorem mem_entries_filterKeys {p : κ → Bool} {e : κ × α} :
    e ∈ (d.filterKeys p).entries ↔ e ∈ d.entries ∧ p e.1 = true := by
  simp [filterKeys]

variable [DecidableEq κ]

theorem get?_filterKeys (d : OrderedDict κ α) (p : κ → Bool) (k : κ) :
    (d.filterKeys p).get? k = if p k = true then d.get? k else none := by
  split
  · rename_i hp
    ext v
    rw [get?_eq_some_iff, get?_eq_some_iff, mem_entries_filterKeys]
    simp [hp]
  · rename_i hp
    rw [get?_eq_none_iff]
    intro hk
    obtain ⟨e, he, rfl⟩ := mem_map.mp hk
    exact hp (mem_entries_filterKeys.mp he).2

/-- `d.pop(k, None)`, the value being discarded. -/
def erase (d : OrderedDict κ α) (k : κ) : OrderedDict κ α := d.filterKeys (fun k' => k' ≠ k)

theorem get?_erase (d : OrderedDict κ α) (k k' : κ) :
    (d.erase k).get? k' = if k' = k then none else d.get? k' := by
  rw [erase, get?_filterKeys]
  by_cases h : k' = k <;> simp [h]

variable {k : κ}

theorem get?_of_erase {k' : κ} {v : α}
    (h : (d.erase k).get? k' = some v) : k' ≠ k ∧ d.get? k' = some v := by
  rw [get?_erase] at h
  split at h
  · cases h
  · rename_i hk
    exact ⟨hk, h⟩

theorem mem_keys_iff : k ∈ d.keys ↔ ∃ v, d.get? k = some v := by
  rw [← not_iff_not, ← get?_eq_none_iff, eq_none_iff_forall_ne_some, not_exists]

theorem erase_of_get?_none (h : d.get? k = none) : d.erase k = d := by
  apply ext
  refine filter_eq_self.mpr fun e he => decide_eq_true fun hk => ?_
  exact get?_eq_none_iff.mp h (mem_map.mpr ⟨e, he, hk⟩)

theorem size_eq_of_keys {e : OrderedDict κ β}
    (h : ∀ k, k ∈ d.keys ↔ k ∈ e.keys) : d.size = e.size := by
  have hperm : d.keys.Perm e.keys := (perm_ext_iff_of_nodup d.nodupKeys e.nodupKeys).mpr h
  have hlength := hperm.length_eq
  unfold keys at hlength
  rwa [length_map, length_map] at hlength

theorem size_set_of_get? {v v' : α} (h : d.get? k = some v) :
    (d.set k v').size = d.size := by
  refine size_eq_of_keys fun k' => ?_
  rw [mem_keys_iff, mem_keys_iff, get?_set]
  by_cases hk : k = k'
  · rw [← hk, if_pos rfl, h]
    simp
  · rw [if_neg hk]

theorem size_erase_of_get? {v : α} (h : d.get? k = some v) :
    (d.erase k).size + 1 = d.size := by
  have hnone : (d.erase k).get? k = none := by rw [get?_erase, if_pos rfl]
  have hback : ((d.erase k).set k v).size = (d.erase k).size + 1 := by
    unfold size
    rw [entries_set_of_get?_none hnone, length_append]
    rfl
  rw [← hback]
  refine size_eq_of_keys fun k' => ?_
  rw [mem_keys_iff, mem_keys_iff, get?_set, get?_erase]
  by_cases hk : k = k'
  · rw [← hk, if_pos rfl, h]
  · rw [if_neg hk, if_neg (Ne.symm hk)]

theorem keys_erase (d : OrderedDict κ α) (k : κ) : (d.erase k).keys = d.keys.erase k := by
  have hkeys : d.keys.erase k = d.keys.filter (fun k' => k' ≠ k) := by
    have hnodup : d.keys.Nodup := d.nodupKeys
    rw [hnodup.erase_eq_filter]
    refine filter_congr fun k' _ => ?_
    by_cases h : k' = k <;> simp [h]
  rw [hkeys]
  show (d.entries.filter (fun e => decide (e.1 ≠ k))).map fst =
    (d.entries.map fst).filter (fun k' => k' ≠ k)
  rw [List.filter_map]
  rfl

theorem size_erase_le (d : OrderedDict κ α) (k : κ) : (d.erase k).size ≤ d.size :=
  length_filter_le _ _

end OrderedDict

end VisionOs.Lib
