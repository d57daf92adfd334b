/-
  A session that nobody interferes with: what it holds in memory is what its statements see.
-/
import VisionOs.App.Incidents
import Mathlib.Data.Finset.Card

namespace VisionOs.App

open Core Lib OrderedDict Option Finset IncidentChanges

def openIds (rows : Incidents) (key : IncidentKey) : Finset IncidentId :=
  rows.keys.toFinset.filter fun id =>
    (rows.get? id).any fun row => row.key = key ∧ row.isOpen = true

variable {rows : Incidents} {key : IncidentKey}

theorem mem_openIds {id : IncidentId} :
    id ∈ openIds rows key ↔ ∃ row, rows.get? id = some row ∧ row.key = key ∧ row.isOpen = true := by
  unfold openIds
  rw [mem_filter, List.mem_toFinset, mem_keys_iff, any_eq_true]
  constructor
  · rintro ⟨-, row, hget, htest⟩
    exact ⟨row, hget, of_decide_eq_true htest⟩
  · rintro ⟨row, hget, htest⟩
    exact ⟨⟨row, hget⟩, row, hget, decide_eq_true htest⟩

theorem card_openIds_ne_zero :
    (openIds rows key).card ≠ 0 ↔
      ∃ id row, rows.get? id = some row ∧ row.key = key ∧ row.isOpen = true := by
  rw [card_ne_zero]
  exact exists_congr fun _ => mem_openIds

/-- No row is lost and none changes its key. -/
def KeysKept (rows rows' : Incidents) : Prop :=
  ∀ id row, rows.get? id = some row → ∃ row', rows'.get? id = some row' ∧ row'.key = row.key

theorem KeysKept.refl (rows : Incidents) : KeysKept rows rows := fun _ row h => ⟨row, h, rfl⟩

theorem IncidentChanges.apply_over (later earlier : IncidentChanges) (i : Incident) :
    (later.over earlier).apply i = later.apply (earlier.apply i) := by
  have hgetD : ∀ {α : Type} (a b : Option α) (x : α), (a <|> b).getD x = a.getD (b.getD x) := by
    intro α a b x
    cases a <;> rfl
  have hassoc : ∀ {α : Type} (a b c : Option α), ((a <|> b) <|> c) = (a <|> (b <|> c)) := by
    intro α a b c
    cases a <;> rfl
  simp only [apply, «over», hgetD, hassoc]

namespace IncidentSession

variable {s : IncidentSession} {committed : Incidents}

theorem get?_view_eq (s : IncidentSession) (committed : Incidents) (id : IncidentId) :
    (s.view committed).get? id =
      (s.added.get? id <|> (committed.get? id).map (s.changesTo id).apply) := by
  apply Option.ext
  intro row
  rw [get?_view]
  cases s.added.get? id with
  | some own => simp
  | none => simp [eq_comm]

/-- The session's rows are as the table has them, and the id supply is ahead of them. -/
structure Alone (s : IncidentSession) (committed : Incidents) (supply : IncidentId) : Prop where
  held : ∀ id row, (s.view committed).get? id = some row → s.held id row = row
  drawn : ∀ id row, (s.view committed).get? id = some row → id < supply

theorem get?_view_fresh (committed : Incidents) (id : IncidentId) :
    (view {} committed).get? id = committed.get? id := by
  rw [get?_view_eq]
  cases committed.get? id <;> rfl

variable {supply : IncidentId}

theorem alone_fresh
    (hdrawn : ∀ id row, committed.get? id = some row → id < supply) :
    Alone {} committed supply where
  held := fun _ _ _ => rfl
  drawn := fun id row hget => hdrawn id row (by rw [← get?_view_fresh]; exact hget)

theorem changesTo_set (s : IncidentSession) (id id' : IncidentId) (row : Incident)
    (changes : IncidentChanges) (hadded : s.added.get? id = none) :
    (s.assign id row changes).changesTo id' =
      if id = id' then changes.over (s.changesTo id) else s.changesTo id' := by
  unfold assign
  rw [if_neg (by rw [hadded]; exact Bool.false_ne_true)]
  unfold changesTo
  rw [get?_set]
  split <;> rfl

variable {id : IncidentId} {row : Incident}

theorem get?_view_assign (hget : (s.view committed).get? id = some row) (changes : IncidentChanges)
    (id' : IncidentId) : ((s.assign id row changes).view committed).get? id' =
      if id = id' then some (changes.apply row) else (s.view committed).get? id' := by
  rw [get?_view_eq, added_assign]
  rw [get?_view_eq] at hget
  cases hadded : s.added.get? id with
  | some own =>
    have hown : own = row := by simpa [hadded] using hget
    have hchanges : (s.assign id row changes).changesTo id' = s.changesTo id' := by
      unfold assign changesTo
      rw [if_pos (by rw [hadded]; rfl)]
    by_cases heq : id = id'
    · subst heq
      simp [hadded, hown]
    · rw [if_neg heq, get?_view_eq, hchanges]
      cases s.added.get? id' <;> simp [heq]
  | none =>
    rw [changesTo_set s id id' row changes hadded]
    by_cases heq : id = id'
    · subst heq
      have hbefore : (committed.get? id).map (s.changesTo id).apply = some row := by
        simpa [hadded] using hget
      obtain ⟨before, hcommitted, hrow⟩ := map_eq_some_iff.mp hbefore
      rw [if_pos rfl, if_pos rfl, hadded, hcommitted]
      show some ((changes.over (s.changesTo id)).apply before) = some (changes.apply row)
      rw [apply_over, hrow]
    · rw [if_neg heq, if_neg heq, get?_view_eq]
      cases s.added.get? id' <;> simp [heq]

theorem keysKept_assign (hget : (s.view committed).get? id = some row) (changes : IncidentChanges) :
    KeysKept (s.view committed) ((s.assign id row changes).view committed) := by
  intro id' row' hget'
  rw [get?_view_assign hget]
  by_cases heq : id = id'
  · subst heq
    rw [hget] at hget'
    cases hget'
    exact ⟨_, if_pos rfl, rfl⟩
  · exact ⟨row', (if_neg heq).trans hget', rfl⟩

theorem Alone.assign (h : s.Alone committed supply)
    (hget : (s.view committed).get? id = some row) (changes : IncidentChanges) :
    (s.assign id row changes).Alone committed supply := by
  refine ⟨fun id' row' hget' => ?_, fun id' row' hget' => ?_⟩
  · rw [get?_view_assign hget] at hget'
    cases hadded : s.added.get? id' with
    | some own =>
      -- an own row is held as it stands among the rows the session adds
      have hview : ((s.assign id row changes).view committed).get? id' =
          (s.assign id row changes).added.get? id' := by
        rw [get?_view_eq, added_assign, hadded]
        rfl
      apply held_of_added
      rw [← hview, get?_view_assign hget]
      exact hget'
    | none =>
      unfold IncidentSession.assign
      split
      · rename_i hsome
        have hne : id ≠ id' := by
          intro heq
          rw [heq, hadded] at hsome
          cases hsome
        rw [if_neg hne] at hget'
        unfold IncidentSession.held
        rw [get?_set, if_neg hne]
        exact h.held id' row' hget'
      · unfold IncidentSession.held
        rw [get?_set, hadded]
        by_cases heq : id = id'
        · rw [if_pos heq]
          rw [if_pos heq] at hget'
          show changes.apply (s.held id row) = row'
          rw [h.held id row hget]
          exact some.inj hget'
        · rw [if_neg heq]
          rw [if_neg heq] at hget'
          have hheld := h.held id' row' hget'
          unfold IncidentSession.held at hheld
          rw [hadded] at hheld
          exact hheld
  · rw [get?_view_assign hget] at hget'
    split at hget'
    · rename_i heq
      subst heq
      exact h.drawn id row hget
    · exact h.drawn id' row' hget'

theorem get?_view_added (s : IncidentSession) (committed : Incidents) (supply : IncidentId)
    (row : Incident) (id' : IncidentId) : (view { s with added := s.added.set supply row } committed).get? id' =
      if supply = id' then some row else (s.view committed).get? id' := by
  rw [get?_view_eq, get?_view_eq]
  rw [get?_set]
  split
  · rfl
  · rfl

theorem keysKept_added (h : s.Alone committed supply) (row : Incident) :
    KeysKept (s.view committed) (view { s with added := s.added.set supply row } committed) := by
  intro id row' hget
  have hne : supply ≠ id := (h.drawn id row' hget).ne'
  exact ⟨row', (get?_view_added s committed supply row id).trans ((if_neg hne).trans hget), rfl⟩

theorem Alone.add (h : s.Alone committed supply) (row : Incident) :
    Alone { s with added := s.added.set supply row } committed (supply + 1) := by
  refine ⟨fun id row' hget => ?_, fun id row' hget => ?_⟩
  · rw [get?_view_added] at hget
    unfold IncidentSession.held
    rw [get?_set]
    split at hget
    · rename_i heq
      rw [if_pos heq]
      exact some.inj hget
    · rename_i hne
      rw [if_neg hne]
      exact h.held id row' hget
  · rw [get?_view_added] at hget
    split at hget
    · rename_i heq
      rw [← heq]
      exact Nat.lt_succ_self _
    · exact Nat.lt_succ_of_lt (h.drawn id row' hget)

theorem view_load (s : IncidentSession) (committed : Incidents) (id : IncidentId)
    (row : Incident) : (s.load id row).view committed = s.view committed := by
  unfold load
  split <;> rfl

theorem Alone.load (h : s.Alone committed supply)
    (hget : (s.view committed).get? id = some row) :
    (s.load id row).Alone committed supply := by
  refine ⟨fun id' row' hget' => ?_, fun id' row' hget' => ?_⟩
  · rw [view_load] at hget'
    unfold IncidentSession.load
    split
    · exact h.held id' row' hget'
    rename_i hadded
    unfold IncidentSession.held
    rw [get?_set]
    by_cases heq : id = id'
    · subst heq
      have hnone := not_isSome_iff_eq_none.mp hadded
      have hheld := h.held id row hget
      unfold IncidentSession.held at hheld
      rw [if_pos rfl, hnone]
      rw [hnone] at hheld
      exact hheld.trans (some.inj (hget.symm.trans hget'))
    · rw [if_neg heq]
      exact h.held id' row' hget'
  · rw [view_load] at hget'
    exact h.drawn id' row' hget'

end IncidentSession

namespace IncidentService

open IncidentSession

variable {s : IncidentSession} {committed : Incidents} {supply : IncidentId}

/-! ### What the calls of a session on its own do to the open incidents -/

variable {key : IncidentKey}

theorem openFor_eq_none (h : openFor s committed key = none) :
    openIds (s.view committed) key = ∅ := by
  apply eq_empty_of_forall_notMem
  intro id hmem
  obtain ⟨row, hget, hkey, hopen⟩ := mem_openIds.mp hmem
  exact of_decide_eq_false (selectFirst_eq_none h hget) ⟨hkey, hopen⟩

variable {id : IncidentId} {row : Incident}

theorem openFor_eq_some (halone : s.Alone committed supply)
    (h : openFor s committed key = some (id, row)) :
    (s.view committed).get? id = some row ∧ row.key = key ∧ row.isOpen = true := by
  obtain ⟨seen, hget, htest, hheld⟩ := selectFirst_eq_some h
  rw [halone.held id seen hget] at hheld
  subst hheld
  exact ⟨hget, of_decide_eq_true htest⟩

variable {changes : IncidentChanges}

theorem openIds_assign_open
    (hget : (s.view committed).get? id = some row)
    (hstatus : changes.status = none) (key : IncidentKey) :
    openIds ((s.assign id row changes).view committed) key = openIds (s.view committed) key := by
  ext id'
  rw [mem_openIds, mem_openIds]
  have hopen : (changes.apply row).isOpen = row.isOpen := by
    unfold Incident.isOpen
    rw [apply_status, hstatus]
    rfl
  by_cases heq : id = id'
  · subst heq
    rw [get?_view_assign hget, if_pos rfl, hget]
    constructor
    · rintro ⟨row', hrow', hkey, hopen'⟩
      cases hrow'
      exact ⟨row, rfl, hkey, hopen ▸ hopen'⟩
    · rintro ⟨row', hrow', hkey, hopen'⟩
      cases hrow'
      exact ⟨_, rfl, hkey, hopen.trans hopen'⟩
  · rw [get?_view_assign hget, if_neg heq]

theorem openIds_assign_resolved
    (hget : (s.view committed).get? id = some row)
    (hstatus : changes.status = some .resolved) (key : IncidentKey) :
    openIds ((s.assign id row changes).view committed) key =
      (openIds (s.view committed) key).erase id := by
  ext id'
  rw [mem_erase, mem_openIds, mem_openIds]
  by_cases heq : id = id'
  · subst heq
    rw [get?_view_assign hget, if_pos rfl]
    constructor
    · rintro ⟨row', hrow', -, hopen⟩
      cases hrow'
      simp [Incident.isOpen, hstatus] at hopen
    · rintro ⟨hne, -⟩
      exact absurd rfl hne
  · rw [get?_view_assign hget, if_neg heq]
    constructor
    · exact fun h => ⟨Ne.symm heq, h⟩
    · exact fun h => h.2

theorem openIds_add (hopen : row.isOpen = true) (key : IncidentKey) :
    openIds (view { s with added := s.added.set supply row } committed) key =
      if row.key = key then insert supply (openIds (s.view committed) key)
      else (openIds (s.view committed) key).erase supply := by
  ext id'
  rw [mem_openIds, get?_view_added]
  by_cases heq : supply = id'
  · subst heq
    rw [if_pos rfl]
    split
    · rename_i hkey
      exact iff_of_true ⟨row, rfl, hkey, hopen⟩ (mem_insert_self _ _)
    · rename_i hkey
      apply iff_of_false
      · rintro ⟨row', hrow', hkey', -⟩
        cases hrow'
        exact hkey hkey'
      · exact notMem_erase _ _
  · rw [if_neg heq]
    split
    · rw [mem_insert, mem_openIds]
      constructor
      · exact .inr
      · rintro (h | h)
        · exact absurd h.symm heq
        · exact h
    · rw [mem_erase, mem_openIds]
      constructor
      · exact fun h => ⟨Ne.symm heq, h⟩
      · exact fun h => h.2

theorem notMem_openIds_supply (halone : s.Alone committed supply) (key : IncidentKey) :
    supply ∉ openIds (s.view committed) key := by
  intro hmem
  obtain ⟨row, hget, -, -⟩ := mem_openIds.mp hmem
  exact absurd (halone.drawn supply row hget) (Nat.lt_irrefl _)

/-- `open` adds an incident where none is open under the key. -/
theorem openIncident_spec (halone : s.Alone committed supply) (request : OpenRequest) :
    (openIds (s.view committed) request.key ≠ ∅ ∧
      ∃ session id, openIncident s committed supply request = (session, id, false) ∧
        session.Alone committed supply ∧
        KeysKept (s.view committed) (session.view committed) ∧
        (∀ id, session.added.get? id = none ↔ s.added.get? id = none) ∧
        ∀ key, openIds (session.view committed) key = openIds (s.view committed) key) ∨
    (openIds (s.view committed) request.key = ∅ ∧
      ∃ session, openIncident s committed supply request = (session, supply, true) ∧
        session.Alone committed (supply + 1) ∧
        KeysKept (s.view committed) (session.view committed) ∧
        (∀ id, session.added.get? id = none ↔ s.added.get? id = none ∧ id ≠ supply) ∧
        (session.view committed).get? supply = some request.incident ∧
        ∀ key, openIds (session.view committed) key =
          if request.key = key then {supply} else openIds (s.view committed) key) := by
  unfold openIncident
  cases hfound : openFor s committed request.key with
  | some found =>
    obtain ⟨id, row⟩ := found
    obtain ⟨hget, hkey, hopen⟩ := openFor_eq_some halone hfound
    left
    refine ⟨nonempty_iff_ne_empty.mp ⟨id, mem_openIds.mpr ⟨row, hget, hkey, hopen⟩⟩,
      _, _, rfl, halone.assign hget _, keysKept_assign hget _, fun id' => ?_, fun key => ?_⟩
    · rw [added_assign, map_eq_none_iff]
    · exact openIds_assign_open hget rfl key
  | none =>
    have hnone := openFor_eq_none hfound
    right
    refine ⟨hnone, _, rfl, halone.add _, keysKept_added halone _, fun id => ?_, ?_, fun key => ?_⟩
    · rw [get?_set]
      by_cases heq : supply = id
      · rw [if_pos heq]
        exact iff_of_false (some_ne_none _) fun h => h.2 heq.symm
      · rw [if_neg heq]
        exact ⟨fun h => ⟨h, Ne.symm heq⟩, fun h => h.1⟩
    · rw [get?_view_added, if_pos rfl]
    · rw [openIds_add rfl key]
      show (if request.key = key then _ else _) = _
      split
      · rename_i heq
        rw [← heq, hnone]
        rfl
      · exact erase_eq_of_notMem (notMem_openIds_supply halone key)

theorem get_spec (halone : s.Alone committed supply)
    (hget : (s.view committed).get? id = some row) :
    get s committed row.key.organizationId id = .ok row := by
  unfold get
  cases hselect : s.selectFirst committed fun id' i =>
      id' = id ∧ i.key.organizationId = row.key.organizationId with
  | none =>
    have hno := selectFirst_eq_none hselect hget
    exact absurd ⟨rfl, rfl⟩ (of_decide_eq_false hno)
  | some found =>
    obtain ⟨id', row'⟩ := found
    obtain ⟨seen, hseen, htest, hheld⟩ := selectFirst_eq_some hselect
    obtain ⟨rfl, -⟩ := of_decide_eq_true htest
    rw [halone.held _ seen hseen] at hheld
    subst hheld
    rw [hseen] at hget
    cases hget
    rfl

/-- `resolve` takes the open incident of the key away. -/
theorem resolve_spec (halone : s.Alone committed supply) {key : IncidentKey} {id : IncidentId}
    {row : Incident} (hfound : openFor s committed key = some (id, row)) (now : Instant) :
    ∃ session, resolve (s.load id row) committed key.organizationId id "vision-os" "observation"
        observedNote now = .ok session ∧
      session.Alone committed supply ∧ KeysKept (s.view committed) (session.view committed) ∧
      (∀ id, session.added.get? id = none ↔ s.added.get? id = none) ∧
      id ∈ openIds (s.view committed) key ∧
      ∀ key', openIds (session.view committed) key' =
        (openIds (s.view committed) key').erase id := by
  obtain ⟨hget, hkey, hopen⟩ := openFor_eq_some halone hfound
  have hloaded := halone.load hget
  have hseen : ((s.load id row).view committed).get? id = some row := by
    rw [view_load]
    exact hget
  have hgot := get_spec hloaded hseen
  rw [hkey] at hgot
  have hnot : row.status ≠ .resolved := of_decide_eq_true hopen
  obtain ⟨changes, hstatus, hresolve⟩ : ∃ changes : IncidentChanges,
      changes.status = some .resolved ∧
      resolve (s.load id row) committed key.organizationId id "vision-os" "observation"
        observedNote now = .ok ((s.load id row).assign id row changes) := by
    refine ⟨{ status := some .resolved, resolvedAt := some now, resolvedBy := some "vision-os",
              resolutionKind := some "observation",
              resolutionNote := some (String.ofList (observedNote.toList.take 2000)) }, rfl, ?_⟩
    unfold resolve close
    rw [hgot]
    show (if row.status = .resolved then _ else _) = _
    rw [if_neg hnot]
    rfl
  refine ⟨_, hresolve, hloaded.assign hseen _, ?_, fun id' => ?_, ?_, fun key' => ?_⟩
  · rw [← view_load s committed id row]
    exact keysKept_assign hseen _
  · rw [added_assign, map_eq_none_iff, added_load]
  · exact mem_openIds.mpr ⟨row, hget, hkey, hopen⟩
  · rw [openIds_assign_resolved hseen hstatus, view_load]

end IncidentService

end VisionOs.App
