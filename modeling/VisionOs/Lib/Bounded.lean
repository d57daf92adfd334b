/-
  Bounded queues, as Python's `deque(maxlen=n)`, and a bounded dictionary in the order of last
  use.  The bound is part of the value.
-/
import VisionOs.Lib.OrderedDict

namespace VisionOs.Lib

open OrderedDict List

structure BoundedDeque (α : Type) where
  bound : Nat
  items : List α
  length_le : items.length ≤ bound

namespace BoundedDeque

variable {α : Type}

def ofList (bound : Nat) (items : List α) : BoundedDeque α where
  bound
  items := items.drop (items.length - bound)
  length_le := by
    rw [length_drop]
    omega

/-- `deque(maxlen=bound)`. -/
def empty (bound : Nat) : BoundedDeque α := ⟨bound, [], Nat.zero_le _⟩

def push (deque : BoundedDeque α) (a : α) : BoundedDeque α :=
  ofList deque.bound (deque.items ++ [a])

/-- A deque that holds the last of some elements holds the last of them and the next one. -/
theorem push_items {deque : BoundedDeque α} {all : List α}
    (h : deque.items = all.drop (all.length - deque.bound)) (a : α) :
    (deque.push a).items = (all ++ [a]).drop ((all ++ [a]).length - deque.bound) := by
  have hpush : (deque.push a).items =
      (deque.items ++ [a]).drop ((deque.items ++ [a]).length - deque.bound) := rfl
  rw [hpush, h, ← drop_append_of_le_length (Nat.sub_le _ _), drop_drop, length_drop]
  congr 1
  rw [length_append, length_singleton]
  omega

def extend (deque : BoundedDeque α) (added : List α) : BoundedDeque α :=
  ofList deque.bound (deque.items ++ added)

/-- `deque((a for a in deque if p(a)), maxlen=deque.maxlen)`. -/
def filter (deque : BoundedDeque α) (p : α → Bool) : BoundedDeque α where
  bound := deque.bound
  items := deque.items.filter p
  length_le := Nat.le_trans (length_filter_le p deque.items) deque.length_le

end BoundedDeque

namespace OrderedDict

variable {κ α : Type*} [DecidableEq κ]

def moveToEnd (d : OrderedDict κ α) (k : κ) : OrderedDict κ α :=
  match d.get? k with
  | some v => (d.erase k).set k v
  | none => d

@[simp] theorem get?_moveToEnd (d : OrderedDict κ α) (k k' : κ) :
    (d.moveToEnd k).get? k' = d.get? k' := by
  unfold moveToEnd
  cases h : d.get? k with
  | none => rfl
  | some v =>
    rw [get?_set, get?_erase]
    by_cases hk : k = k'
    · subst hk
      rw [if_pos rfl, h]
    · rw [if_neg hk, if_neg (Ne.symm hk)]

variable {d : OrderedDict κ α}

theorem entries_moveToEnd {k : κ} {v : α} (h : d.get? k = some v) :
    (d.moveToEnd k).entries = (d.erase k).entries ++ [(k, v)] := by
  unfold moveToEnd
  rw [h]
  refine entries_set_of_get?_none ?_
  rw [get?_erase, if_pos rfl]

/-- The dictionary after `n` times `d.popitem(last=False)`. -/
def dropFirst (d : OrderedDict κ α) (n : Nat) : OrderedDict κ α :=
  ⟨d.entries.drop n, by
    rw [map_drop]
    exact d.nodupKeys.sublist (drop_sublist n _)⟩

theorem get?_of_dropFirst {n : Nat} {k : κ} {v : α}
    (h : (d.dropFirst n).get? k = some v) : d.get? k = some v := by
  rw [get?_eq_some_iff] at h ⊢
  exact mem_of_mem_drop h

omit [DecidableEq κ] in
theorem values_dropFirst (d : OrderedDict κ α) (n : Nat) :
    (d.dropFirst n).values = d.values.drop n :=
  map_drop

omit [DecidableEq κ] in
theorem size_dropFirst (d : OrderedDict κ α) (n : Nat) : (d.dropFirst n).size = d.size - n :=
  length_drop

/-- An entry that is written and moved to the end stands behind all others. -/
theorem values_moveToEnd_set (d : OrderedDict κ α) (k : κ) (v : α) :
    ((d.set k v).moveToEnd k).values = (d.erase k).values ++ [v] := by
  have hsame : ((d.set k v).erase k).entries = (d.erase k).entries := by
    show (d.set k v).entries.filter _ = d.entries.filter _
    cases hget : d.get? k with
    | none =>
      rw [entries_set_of_get?_none hget]
      simp
    | some old =>
      obtain ⟨before, after, hold, hset⟩ := entries_set_of_get?_some hget v
      rw [hold, hset]
      simp
  unfold values
  rw [entries_moveToEnd (get?_set_self d k v), hsame, map_append]
  rfl

end OrderedDict

structure LruCache (κ : Type*) (α : Type*) where
  entries : OrderedDict κ α
  capacity : Nat
  capacity_pos : 1 ≤ capacity

namespace LruCache

variable {κ α : Type*} [DecidableEq κ]

/-- The entry under a key, without counting as a use. -/
def find? (c : LruCache κ α) (k : κ) : Option α := c.entries.get? k

def use (c : LruCache κ α) (k : κ) : LruCache κ α := { c with entries := c.entries.moveToEnd k }

def remove (c : LruCache κ α) (k : κ) : LruCache κ α := { c with entries := c.entries.erase k }

def insert (c : LruCache κ α) (k : κ) (v : α) : LruCache κ α :=
  let entries := (c.entries.set k v).moveToEnd k
  { c with entries := entries.dropFirst (entries.size - c.capacity) }

@[simp] theorem find?_use (c : LruCache κ α) (k k' : κ) : (c.use k).find? k' = c.find? k' :=
  get?_moveToEnd c.entries k k'

theorem find?_remove (c : LruCache κ α) (k k' : κ) :
    (c.remove k).find? k' = if k' = k then none else c.find? k' :=
  get?_erase c.entries k k'

theorem find?_of_insert {c : LruCache κ α} {k k' : κ} {v w : α}
    (h : (c.insert k v).find? k' = some w) : (k' = k ∧ w = v) ∨ c.find? k' = some w := by
  have hbefore := get?_of_dropFirst h
  rw [get?_moveToEnd, get?_set] at hbefore
  by_cases hk : k = k'
  · rw [if_pos hk] at hbefore
    exact .inl ⟨hk.symm, (Option.some.inj hbefore).symm⟩
  · rw [if_neg hk] at hbefore
    exact .inr hbefore

@[simp] theorem find?_insert_self (c : LruCache κ α) (k : κ) (v : α) :
    (c.insert k v).find? k = some v := by
  have hlast : ((c.entries.set k v).moveToEnd k).entries =
      ((c.entries.set k v).erase k).entries ++ [(k, v)] :=
    entries_moveToEnd (get?_set_self c.entries k v)
  show OrderedDict.get? _ k = some v
  rw [get?_eq_some_iff]
  show (k, v) ∈ ((c.entries.set k v).moveToEnd k).entries.drop _
  rw [hlast, drop_append_of_le_length]
  · exact mem_append_right _ (mem_singleton_self _)
  · -- At most `size - 1` entries go, since the capacity is at least one.
    have hpos := c.capacity_pos
    unfold OrderedDict.size
    rw [hlast, length_append, length_singleton]
    omega

end LruCache

end VisionOs.Lib
