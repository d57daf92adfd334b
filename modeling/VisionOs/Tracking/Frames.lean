/-
  What one frame leaves of a camera's table: the loop over the records, and the loop over the
  surplus detections.
-/
import VisionOs.Tracking.Specs

namespace VisionOs.Tracking

open Core Lib List Effect OrderedDict TrackTable

structure TrackTable.Continues (t t' : TrackTable) : Prop where
  kept : t'.WellKept
  cameraId : t'.cameraId = t.cameraId
  epoch : t'.epoch = t.epoch
  maxTracks : t'.maxTracks = t.maxTracks
  historyLength : t'.historyLength = t.historyLength
  next : t.nextLocalId ≤ t'.nextLocalId

namespace TrackTable.Continues

variable {t t₁ t₂ : TrackTable}

theorem refl (h : t.WellKept) : t.Continues t := ⟨h, rfl, rfl, rfl, rfl, le_refl _⟩

theorem trans (h₁ : t.Continues t₁) (h₂ : t₁.Continues t₂) : t.Continues t₂ where
  kept := h₂.kept
  cameraId := h₂.cameraId.trans h₁.cameraId
  epoch := h₂.epoch.trans h₁.epoch
  maxTracks := h₂.maxTracks.trans h₁.maxTracks
  historyLength := h₂.historyLength.trans h₁.historyLength
  next := h₁.next.trans h₂.next

theorem put {r r' : TrackRecord} (h : t.WellKept) (hfiled : t.table.get? r'.trackId = some r) :
    t.Continues (t.put r') :=
  ⟨h.put hfiled, rfl, rfl, rfl, rfl, le_refl _⟩

theorem remove (h : t.WellKept) (trackId : TrackId) : t.Continues (t.remove trackId) :=
  ⟨h.remove trackId, rfl, rfl, rfl, rfl, le_refl _⟩

theorem add (h : t.WellKept) (hroom : (t.table.size : Int) < t.maxTracks) {r : TrackRecord}
    (hr : r.trackId = t.freshId h) : t.Continues (t.add r) where
  kept := h.add hroom hr
  cameraId := rfl
  epoch := rfl
  maxTracks := rfl
  historyLength := rfl
  next := le_of_lt (lt_add_one t.nextLocalId)

end TrackTable.Continues

namespace GeometricWiring

variable {w : GeometricWiring} {request : TrackingRequest} {elapsed : Duration} {p : Pairing}

/-! ## The loop over the records -/

theorem get?_leave (transition : Transition) (r' : TrackRecord) (t : TrackTable) (id : TrackId) :
    (leave transition r' t).table.get? id =
      if r'.trackId = id then (if transition.isTerminal then none else some r')
      else t.table.get? id := by
  unfold leave
  by_cases hterminal : transition.isTerminal = true
  · rw [if_pos hterminal]
    show (((t.table.set _ _).set _ _).erase r'.trackId).get? id = _
    rw [get?_erase]
    by_cases hid : r'.trackId = id
    · rw [if_pos hid.symm, if_pos hid, if_pos hterminal]
    · rw [if_neg (Ne.symm hid), if_neg hid, get?_set]
      rw [if_neg hid, get?_set, if_neg hid]
  · rw [if_neg hterminal]
    show (t.table.set r'.trackId r').get? id = _
    rw [get?_set, if_neg hterminal]

variable {r : TrackRecord} {t : TrackTable}

theorem leave_continues {transition : Transition} {r' : TrackRecord}
    (h : t.WellKept) (hfiled : t.table.get? r'.trackId = some r) :
    t.Continues (leave transition r' t) := by
  have hput := TrackTable.Continues.put h hfiled
  unfold leave
  split
  · have hput' : (t.put r').Continues ((t.put r').put
        { r' with breakReason := transition.breakReason }) := by
      refine TrackTable.Continues.put (r := r') hput.kept ?_
      show (t.table.set r'.trackId r').get? r'.trackId = _
      rw [get?_set_self]
    exact (hput.trans hput').trans (TrackTable.Continues.remove hput'.kept _)
  · exact hput

variable {t' : TrackTable}

theorem interrupted_continues (h : t.WellKept)
    (hfiled : t.table.get? r.trackId = some r) (hinterrupted : Interrupted r t t') :
    t.Continues t' := by
  rcases hinterrupted with rfl | ⟨r', hid, rfl⟩
  · exact TrackTable.Continues.refl h
  · exact TrackTable.Continues.put h (hid ▸ hfiled)

structure TurnsDone (w : GeometricWiring) (request : TrackingRequest) (elapsed : Duration)
    (p : Pairing) (t : TrackTable) (turns : List Turn) (t' : TrackTable) : Prop where
  continues : t.Continues t'
  each : List.Forall₂ (fun e u => ∃ transition r',
    w.Moved request elapsed p e.1 e.2 transition r' ∧ Reported p e.1 e.2 transition r' u)
    t.records.zipIdx turns
  filed : ∀ id r', t'.table.get? id = some r' ↔ ∃ e ∈ t.records.zipIdx, e.1.trackId = id ∧
    ∃ transition, w.Moved request elapsed p e.1 e.2 transition r' ∧ transition.isTerminal = false

theorem Moved.unique {r₁ r₂ : TrackRecord} {trackIndex : Nat} {transition₁ transition₂ : Transition}
    (h₁ : w.Moved request elapsed p r trackIndex transition₁ r₁)
    (h₂ : w.Moved request elapsed p r trackIndex transition₂ r₂) :
    transition₁ = transition₂ ∧ r₁ = r₂ := by
  cases h₁ with
  | hit matched₁ found₁ boxed₁ moved₁ =>
    cases h₂ with
    | hit matched₂ found₂ boxed₂ moved₂ =>
      rw [matched₁] at matched₂
      cases matched₂
      rw [found₁] at found₂
      cases found₂
      rw [boxed₁] at boxed₂
      cases boxed₂
      rw [moved₁] at moved₂
      cases moved₂
      exact ⟨rfl, rfl⟩
    | miss unmatched₂ moved₂ =>
      rw [matched₁] at unmatched₂
      cases unmatched₂
  | miss unmatched₁ moved₁ =>
    cases h₂ with
    | hit matched₂ found₂ boxed₂ moved₂ =>
      rw [unmatched₁] at matched₂
      cases matched₂
    | miss unmatched₂ moved₂ =>
      rw [moved₁] at moved₂
      cases moved₂
      exact ⟨rfl, rfl⟩

/-- The loop over the records, by induction on those that are left. -/
theorem turns_spec (h : t.WellKept) :
    wp (collect (w.turn request elapsed p) t.records.zipIdx)
      (fun turns t' => TurnsDone w request elapsed p t turns t') (fun _ t' => t.Continues t') t := by
  -- the records that have had their turn are `seen`; the others are still as they were
  let I : List (TrackRecord × Nat) → List Turn → TrackTable → Prop := fun rest done t' =>
    t.Continues t' ∧ ∃ seen, t.records.zipIdx = seen ++ rest ∧
      List.Forall₂ (fun e u => ∃ transition r',
        w.Moved request elapsed p e.1 e.2 transition r' ∧ Reported p e.1 e.2 transition r' u)
        seen done ∧
      ∀ id r', t'.table.get? id = some r' ↔ (∃ e ∈ rest, e.1.trackId = id ∧ e.1 = r') ∨
        ∃ e ∈ seen, e.1.trackId = id ∧ ∃ transition,
          w.Moved request elapsed p e.1 e.2 transition r' ∧ transition.isTerminal = false
  have hids : (t.records.zipIdx.map (·.1.trackId)).Nodup := by
    have hmap : t.records.zipIdx.map (·.1.trackId) = t.records.map (·.trackId) := by
      show t.records.zipIdx.map ((·.trackId) ∘ Prod.fst) = _
      rw [← map_map, zipIdx_map_fst]
    rw [hmap]
    exact h.nodup_records
  have hloop : wp (collect (w.turn request elapsed p) t.records.zipIdx)
      (fun turns t' => I [] ([] ++ turns) t') (fun _ t' => t.Continues t') t := by
    refine wp_collect (I := I) ?_ ?_
    · rintro ⟨r, i⟩ rest done t₁ ⟨hcontinues, seen, hsplit, heach, hfiled⟩
      have hr : t₁.table.get? r.trackId = some r :=
        (hfiled _ _).mpr (.inl ⟨(r, i), mem_cons_self, rfl, rfl⟩)
      refine wp_mono ?_ (fun _ t' hinterrupted => ?_) turn_spec
      · rintro u t' ⟨transition, r', hmoved, hreported, rfl⟩
        obtain ⟨hid, -⟩ := hmoved.frame
        refine ⟨hcontinues.trans (leave_continues hcontinues.kept (hid ▸ hr)), seen ++ [(r, i)],
          by rw [hsplit, append_assoc]; rfl, ?_, fun id s => ?_⟩
        · exact rel_append heach (.cons ⟨transition, r', hmoved, hreported⟩ .nil)
        · rw [get?_leave, hid]
          rw [hsplit, map_append, map_cons, nodup_append] at hids
          obtain ⟨-, hrest, hseen⟩ := hids
          have hapart := (nodup_cons.mp hrest).1
          by_cases hthis : r.trackId = id
          · subst hthis
            rw [if_pos rfl]
            constructor
            · intro hs
              split at hs
              · cases hs
              · rename_i hlive
                cases hs
                exact .inr ⟨(r, i), by simp, rfl, transition, hmoved, Bool.eq_false_iff.mpr hlive⟩
            · rintro (⟨e, he, heid, -⟩ | ⟨e, he, heid, transition', hmoved', hlive⟩)
              · exact absurd (mem_map.mpr ⟨e, he, heid⟩) hapart
              · rcases mem_append.mp he with he | he
                · exact absurd heid (hseen _ (mem_map.mpr ⟨e, he, rfl⟩) _
                    mem_cons_self)
                · rw [mem_singleton.mp he] at hmoved'
                  obtain ⟨rfl, rfl⟩ := hmoved.unique hmoved'
                  rw [hlive]
                  rfl
          · rw [if_neg hthis, hfiled]
            constructor
            · rintro (⟨e, he, heid, hes⟩ | ⟨e, he, heid, hmove⟩)
              · rcases mem_cons.mp he with rfl | he
                · exact absurd heid hthis
                · exact .inl ⟨e, he, heid, hes⟩
              · exact .inr ⟨e, mem_append_left _ he, heid, hmove⟩
            · rintro (⟨e, he, heid, hes⟩ | ⟨e, he, heid, hmove⟩)
              · exact .inl ⟨e, mem_cons_of_mem _ he, heid, hes⟩
              · rcases mem_append.mp he with he | he
                · exact .inr ⟨e, he, heid, hmove⟩
                · rw [mem_singleton.mp he] at heid
                  exact absurd heid hthis
      · exact hcontinues.trans (interrupted_continues hcontinues.kept hr hinterrupted)
    · refine ⟨TrackTable.Continues.refl h, [], rfl, .nil, fun id r' => ?_⟩
      constructor
      · intro hr'
        have hmem : r' ∈ t.records := mem_records.mpr ⟨id, hr'⟩
        obtain ⟨i, hi⟩ := mem_iff_getElem?.mp hmem
        exact .inl ⟨(r', i), mem_zipIdx_iff_getElem?.mpr hi, (h.issued id r' hr').1, rfl⟩
      · rintro (⟨e, he, heid, rfl⟩ | ⟨e, he, -⟩)
        · rw [← heid]
          refine h.filed ?_
          exact mem_of_getElem? (mem_zipIdx_iff_getElem?.mp he)
        · cases he
  refine wp_mono ?_ (fun _ _ h => h) hloop
  rintro turns t' ⟨hcontinues, seen, hsplit, heach, hfiled⟩
  rw [append_nil] at hsplit
  subst hsplit
  refine ⟨hcontinues, heach, fun id r' => ?_⟩
  rw [hfiled]
  constructor
  · rintro (⟨e, he, -⟩ | hseen)
    · cases he
    · exact hseen
  · exact .inr

/-! ## The loop over the surplus detections -/

inductive MadeRoom (t : TrackTable) : TrackTable → Prop
  | room (h : (t.table.size : Int) < t.maxTracks) : MadeRoom t t
  | evicted {victim : TrackRecord} (h : t.maxTracks ≤ t.table.size)
      (filed : t.table.get? victim.trackId = some victim)
      (weak : weakest t.table.values = some victim) : MadeRoom t (t.remove victim.trackId)

variable {t₁ : TrackTable}

theorem MadeRoom.spares (hroom : MadeRoom t t₁) (hyields : t.Yields)
    {id : TrackId} (hfiled : t.table.get? id = some r)
    (hasserted : r.state ≠ .tentative) : t₁.table.get? id = some r := by
  cases hroom with
  | room => exact hfiled
  | @evicted victim hfull filed weak =>
    obtain ⟨id', s, hs, htentative⟩ := hyields.resolve_left (not_lt.mpr hfull)
    have hvictim := weakest_tentative weak ⟨s, mem_values.mpr ⟨id', hs⟩, htentative⟩
    show (t.table.erase victim.trackId).get? id = some r
    rw [get?_erase, if_neg ?_]
    · exact hfiled
    · rintro rfl
      rw [filed] at hfiled
      cases hfiled
      exact hasserted hvictim

theorem MadeRoom.continues (h : t.WellKept) (hroom : MadeRoom t t₁) :
    t.Continues t₁ ∧ (t₁.table.size : Int) < t₁.maxTracks := by
  cases hroom with
  | room hsize => exact ⟨TrackTable.Continues.refl h, hsize⟩
  | @evicted victim hfull filed weak =>
    refine ⟨TrackTable.Continues.remove h _, ?_⟩
    have hsize := size_erase_of_get? filed
    have hle := h.size_le
    show ((t.table.erase victim.trackId).size : Int) < t.maxTracks
    omega

variable {b : TrackTable.Birth} {refused : Effect PyException TrackTable (Option TrackRecord)}

theorem createOr_of_ok
    (h : TrackTable.create b t = (.ok r, t')) :
    createOr b refused t = (.ok (some r), t') :=
  tryCatch_of_ok (bind_of_ok h)

theorem createOr_of_full
    {message : Message} (h : TrackTable.create b t = (.error (.trackerCapacityError message), t')) :
    createOr b refused t = refused t' :=
  tryCatch_of_error (bind_of_error h)

theorem spawn_eq {t : TrackTable} (h : t.WellKept) (d : Detection) :
    ∃ box t₁, ∃ h₁ : t₁.WellKept, d.spatial.bbox = some box ∧ MadeRoom t t₁ ∧
      w.spawn request d t =
        (.ok (some ((w.birth request d box).record (t₁.freshId h₁) t₁.historyLength)),
          t₁.add ((w.birth request d box).record (t₁.freshId h₁) t₁.historyLength)) := by
  obtain ⟨box, hbox, -⟩ := d.hasBox
  unfold spawn
  rw [hbox]
  by_cases hsize : (t.table.size : Int) < t.maxTracks
  · exact ⟨box, t, h, rfl, .room hsize, createOr_of_ok (create_eq h hsize _)⟩
  have hfull : t.maxTracks ≤ t.table.size := not_lt.mp hsize
  have hsome : 0 < t.table.size := by
    have := h.max_pos
    omega
  obtain ⟨victim, hfiled, hweak, hevict⟩ := evictWeakest_eq h hsome
  have hroom := MadeRoom.evicted hfull hfiled hweak
  obtain ⟨hcontinues, hsize₁⟩ := hroom.continues h
  refine ⟨box, _, hcontinues.kept, rfl, hroom, ?_⟩
  obtain ⟨message, hrefused⟩ :=
    create_full hfull (w.birth request d box)
  refine (createOr_of_full hrefused).trans ((bind_of_ok hevict).trans ?_)
  exact createOr_of_ok (create_eq hcontinues.kept hsize₁ _)

/-- What the loop over the surplus detections did: a track for each, under fresh ids; while the
    table has room for all of them, nothing leaves it, and while it yields no asserted track
    does. -/
structure SpawnsDone (w : GeometricWiring) (request : TrackingRequest) (count : Nat)
    (t : TrackTable) (made : List TrackRecord) (t' : TrackTable) : Prop where
  continues : t.Continues t'
  length : made.length = count
  nodup : (made.map (·.trackId)).Nodup
  fresh : ∀ r ∈ made, r.trackId.cameraId = t.cameraId ∧ r.trackId.trackerEpoch = t.epoch ∧
    t.nextLocalId ≤ r.trackId.localId ∧ r.trackId.localId < t'.nextLocalId
  origin : ∀ id r, t'.table.get? id = some r → t.table.get? id = some r ∨
    ∃ d ∈ request.detections, ∃ box, d.spatial.bbox = some box ∧
      r = (w.birth request d box).record id t.historyLength
  room : (t.table.size + count : Int) ≤ t.maxTracks → t'.table.size = t.table.size + count ∧
    ∀ id r, t'.table.get? id = some r ↔ t.table.get? id = some r ∨ (r ∈ made ∧ r.trackId = id)
  spared : t.Yields → t'.Yields ∧ ∀ id r, t.table.get? id = some r → r.state ≠ .tentative →
    t'.table.get? id = some r

theorem SpawnsDone.nil (h : t.WellKept) : SpawnsDone w request 0 t [] t where
  continues := TrackTable.Continues.refl h
  length := rfl
  nodup := nodup_nil
  fresh := fun r hr => absurd hr not_mem_nil
  origin := fun _ _ hr => .inl hr
  room := fun _ => ⟨rfl, fun id r => by simp⟩
  spared := fun hyields => ⟨hyields, fun _ _ hr _ => hr⟩

variable {made : List TrackRecord}

theorem SpawnsDone.concat {t₂ : TrackTable} {count : Nat}
    (h : SpawnsDone w request count t made t₁) (hroom : MadeRoom t₁ t₂) (h₂ : t₂.WellKept)
    {d : Detection} (hd : d ∈ request.detections) {box : Box} (hbox : d.spatial.bbox = some box) :
    SpawnsDone w request (count + 1) t
      (made ++ [(w.birth request d box).record (t₂.freshId h₂) t₂.historyLength])
      (t₂.add ((w.birth request d box).record (t₂.freshId h₂) t₂.historyLength)) := by
  obtain ⟨hto, hsize₂⟩ := hroom.continues h.continues.kept
  -- making room changes neither the counter nor the camera or epoch
  have hsame : t₂.nextLocalId = t₁.nextLocalId ∧ t₂.cameraId = t₁.cameraId ∧
      t₂.epoch = t₁.epoch := by
    cases hroom <;> exact ⟨rfl, rfl, rfl⟩
  have hwithin : ∀ id r, t₂.table.get? id = some r → t₁.table.get? id = some r := by
    intro id r hr
    cases hroom with
    | room => exact hr
    | evicted hfull filed weak =>
      change (t₁.table.erase _).get? id = some r at hr
      exact (get?_of_erase hr).2
  generalize hrecord : (w.birth request d box).record (t₂.freshId h₂) t₂.historyLength = r
  have hid : r.trackId = t₂.freshId h₂ := by rw [← hrecord]; rfl
  have hadd := TrackTable.Continues.add h₂ hsize₂ hid
  have hall := (h.continues.trans hto).trans hadd
  have hnext : (t₂.add r).nextLocalId = t₂.nextLocalId + 1 := rfl
  have hlookup : ∀ id s, (t₂.add r).table.get? id = some s ↔
      (r.trackId = id ∧ r = s) ∨ (r.trackId ≠ id ∧ t₂.table.get? id = some s) := by
    intro id s
    show (t₂.table.set r.trackId r).get? id = some s ↔ _
    rw [get?_set]
    split
    · rename_i heq
      simp [heq]
    · rename_i hne
      simp [hne]
  have hlocal : r.trackId.localId = t₁.nextLocalId := by rw [hid, ← hsame.1]; rfl
  refine ⟨hall, by rw [length_append, h.length]; rfl, ?_, ?_, ?_, ?_, ?_⟩
  · rw [map_append, nodup_append]
    refine ⟨h.nodup, nodup_singleton _, ?_⟩
    rintro id hmem id' hid' rfl
    obtain ⟨s, hs, rfl⟩ := mem_map.mp hmem
    have hlt := (h.fresh s hs).2.2.2
    rw [mem_singleton.mp hid', hlocal] at hlt
    exact lt_irrefl _ hlt
  · intro s hs
    rw [hnext, hsame.1]
    rcases mem_append.mp hs with hs | hs
    · obtain ⟨h1, h2, h3, h4⟩ := h.fresh s hs
      exact ⟨h1, h2, h3, h4.trans (lt_add_one _)⟩
    · rw [mem_singleton.mp hs, hlocal, hid]
      refine ⟨hsame.2.1.trans h.continues.cameraId, hsame.2.2.trans h.continues.epoch,
        h.continues.next, lt_add_one _⟩
  · intro id s hs
    rcases (hlookup id s).mp hs with ⟨hthis, rfl⟩ | ⟨-, hs⟩
    · refine .inr ⟨d, hd, box, hbox, ?_⟩
      rw [← hthis, hid, ← hrecord, ← (h.continues.trans hto).historyLength]
    · exact h.origin id s (hwithin id s hs)
  · intro hfits
    have hbefore : (t.table.size + count : Int) ≤ t.maxTracks := by omega
    obtain ⟨hsize, hfiled⟩ := h.room hbefore
    have hmax := h.continues.maxTracks
    cases hroom with
    | evicted hfull filed weak => omega
    | room hsize₁ =>
      refine ⟨?_, fun id s => ?_⟩
      · have hnone : t₁.table.get? r.trackId = none := by
          rw [hid]
          exact h₂.fresh
        show (t₁.table.set r.trackId r).size = _
        rw [OrderedDict.size, entries_set_of_get?_none hnone, length_append]
        show t₁.table.size + 1 = _
        omega
      · rw [hlookup, hfiled, mem_append, mem_singleton]
        constructor
        · rintro (⟨hthis, rfl⟩ | ⟨-, hs | ⟨hs, heq⟩⟩)
          · exact .inr ⟨.inr rfl, hthis⟩
          · exact .inl hs
          · exact .inr ⟨.inl hs, heq⟩
        · rintro (hs | ⟨hs | rfl, heq⟩)
          · refine .inr ⟨?_, .inl hs⟩
            rintro rfl
            have hfound := (hfiled _ _).mpr (.inl hs)
            rw [hid, h₂.fresh] at hfound
            cases hfound
          · refine .inr ⟨?_, .inr ⟨hs, heq⟩⟩
            rintro rfl
            have hlt := (h.fresh s hs).2.2.2
            rw [heq, hlocal] at hlt
            exact lt_irrefl _ hlt
          · exact .inl ⟨heq, rfl⟩
  · intro hyields
    obtain ⟨hyields₁, hspared⟩ := h.spared hyields
    -- the new track is one to give up
    have htentative : r.state = .tentative := by rw [← hrecord]; rfl
    refine ⟨.inr ⟨r.trackId, r, (hlookup _ _).mpr (.inl ⟨rfl, rfl⟩), htentative⟩,
      fun id s hs hasserted => (hlookup id s).mpr (.inr ?_)⟩
    have hkept := hroom.spares hyields₁ (hspared id s hs hasserted) hasserted
    refine ⟨?_, hkept⟩
    rintro rfl
    rw [hid, h₂.fresh] at hkept
    cases hkept

theorem spawns_spec (h : t.WellKept) (indices : List Nat) :
    wp (collect (w.spawnAt request) indices)
      (fun created t' => ∃ made, created = made.map some ∧
        SpawnsDone w request indices.length t made t')
      (fun _ t' => t.Continues t') t := by
  let I : List Nat → List (Option TrackRecord) → TrackTable → Prop := fun rest created t' =>
    ∃ made, created = made.map some ∧ ∃ count, count + rest.length = indices.length ∧
      SpawnsDone w request count t made t'
  have hloop : wp (collect (w.spawnAt request) indices)
      (fun created t' => I [] ([] ++ created) t') (fun _ t' => t.Continues t') t := by
    refine wp_collect (I := I) ?_ ⟨[], rfl, 0, Nat.zero_add _, SpawnsDone.nil h⟩
    rintro index rest created t₁ ⟨made, rfl, count, hcount, hdone⟩
    unfold spawnAt
    rw [wp_bind, wp_ofExcept]
    refine ⟨fun d hd => ?_, fun _ _ => hdone.continues⟩
    have hmem : d ∈ request.detections := mem_of_getElem? (getItem_eq_ok.mp hd)
    obtain ⟨box, t₂, h₂, hbox, hroom, hspawn⟩ := @spawn_eq w request _
      hdone.continues.kept d
    unfold wp
    rw [hspawn]
    refine ⟨made ++ [_], by rw [map_append]; rfl, count + 1, ?_,
      hdone.concat hroom h₂ hmem hbox⟩
    rw [← hcount, length_cons]
    omega
  refine wp_mono ?_ (fun _ _ h => h) hloop
  rintro created t' ⟨made, hmade, count, hcount, hdone⟩
  rw [length_nil, Nat.add_zero] at hcount
  exact ⟨made, hmade, hcount ▸ hdone⟩

structure FrameDone (w : GeometricWiring) (request : TrackingRequest) (elapsed : Duration)
    (t : TrackTable) (u : TrackUpdate) (t' : TrackTable) (p : Pairing) (turns : List Turn)
    (t₁ : TrackTable) (made : List TrackRecord) : Prop where
  paired : w.pair t.records request.detections elapsed = .ok p
  turned : TurnsDone w request elapsed p t turns t₁
  spawned : SpawnsDone w request (surplus p).length t₁ made t'
  projected : t'.records.mapM w.project = .ok u.active
  cameraId : u.cameraId = request.cameraId
  trackerEpoch : u.trackerEpoch = t'.epoch
  new : u.new = made.map (·.trackId)
  terminated : u.terminated = turns.filterMap fun v => v.terminated.map (v.trackId, ·)
  associations : u.associations = turns.filterMap (·.association)
  refused : u.refused = p.refused

theorem advance_spec (h : t.WellKept) :
    wp (w.advance request elapsed)
      (fun u t' => ∃ p turns t₁ made, FrameDone w request elapsed t u t' p turns t₁ made)
      (fun _ t' => t.Continues t') t := by
  unfold advance
  rw [wp_bind, wp_read, wp_bind, wp_ofExcept]
  refine ⟨fun p hp => ?_, fun _ _ => TrackTable.Continues.refl h⟩
  unfold apply
  rw [wp_bind]
  refine wp_mono (fun turns t₁ hturns => ?_) (fun _ _ h => h) (turns_spec h)
  rw [wp_bind]
  refine wp_mono ?_ (fun _ t' hcontinues => hturns.continues.trans hcontinues)
    (spawns_spec hturns.continues.kept (surplus p))
  rintro created t' ⟨made, rfl, hspawned⟩
  rw [wp_bind, wp_read, wp_bind, wp_ofExcept]
  refine ⟨fun active hactive => ?_, fun _ _ => hturns.continues.trans hspawned.continues⟩
  refine ⟨p, turns, t₁, made, hp, hturns, hspawned, hactive, rfl, rfl, ?_, rfl, rfl, rfl⟩
  rw [filterMap_map]
  exact congrFun filterMap_eq_map' made

variable {u : TrackUpdate} {turns : List Turn}

theorem FrameDone.continues
    (h : FrameDone w request elapsed t u t' p turns t₁ made) :
    t.Continues t' :=
  h.turned.continues.trans h.spawned.continues

theorem FrameDone.active_ids
    (h : FrameDone w request elapsed t u t' p turns t₁ made) :
    u.active.map (·.trackId) = t'.records.map (·.trackId) :=
  mapM_map_eq (fun _ _ => project_trackId) h.projected

end GeometricWiring

end VisionOs.Tracking
