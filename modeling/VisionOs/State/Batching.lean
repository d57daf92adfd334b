/-
  Cutting a list of observations into append calls.  A sub-batch that names the empty object is
  recorded but not projected, and takes the loop out of the call: the cut shows exactly when
  something is lost that way.
-/
import VisionOs.State.Isolation
import VisionOs.State.Rebuild
import VisionOs.Synthesis.RoundTrip

namespace VisionOs.State

open Core Lib Synthesis List Option Manager OrderedDict

def addToGroup (groups : OrderedDict CameraId (List Observation)) (o : Observation) :
    OrderedDict CameraId (List Observation) :=
  groups.set o.cameraId ((groups.get? o.cameraId).getD [] ++ [o])

theorem foldl_addToGroup {groups behind : OrderedDict CameraId (List Observation)}
    {cameraId : CameraId} {batch : List Observation} (observations : List Observation)
    (h : groups.entries = (cameraId, batch) :: behind.entries) :
    (observations.foldl addToGroup groups).entries =
      (cameraId, batch ++ observations.filter (·.cameraId = cameraId)) ::
        ((observations.filter (·.cameraId ≠ cameraId)).foldl addToGroup behind).entries := by
  induction observations generalizing groups behind batch with
  | nil => simpa using h
  | cons o rest ih =>
    by_cases ho : o.cameraId = cameraId
    · have hnext : (addToGroup groups o).entries =
          (cameraId, batch ++ [o]) :: behind.entries := by
        show setIn o.cameraId
          ((lookupIn o.cameraId groups.entries).getD [] ++ [o]) groups.entries = _
        rw [h, ho]
        simp [setIn, lookupIn]
      rw [foldl_cons, ih hnext, filter_cons_of_pos (by simpa using ho),
        filter_cons_of_neg (by simpa using ho), append_assoc]
      rfl
    · have hnext : (addToGroup groups o).entries =
          (cameraId, batch) :: (addToGroup behind o).entries := by
        show setIn o.cameraId
          ((lookupIn o.cameraId groups.entries).getD [] ++ [o]) groups.entries = _
        rw [h]
        simp only [setIn, lookupIn, Ne.symm ho, if_false]
        rfl
      rw [foldl_cons, ih hnext, filter_cons_of_neg (by simpa using ho),
        filter_cons_of_pos (by simpa using ho)]
      rfl

theorem byCamera_cons (o : Observation) (rest : List Observation) :
    (byCamera (o :: rest)).entries =
      (o.cameraId, o :: rest.filter (·.cameraId = o.cameraId)) ::
        (byCamera (rest.filter (·.cameraId ≠ o.cameraId))).entries :=
  @foldl_addToGroup (addToGroup .empty o) .empty o.cameraId [o] rest rfl

theorem append_eq_loop (config : StateSection) (at_ : Manager.Circumstances) (m : Manager)
    (observations : List Observation) :
    (m.append config at_ observations).2 =
      (appendManyLoop config at_ (byCamera observations).entries {} m).2 := by
  cases observations with
  | nil => rfl
  | cons o rest =>
    unfold append
    dsimp only
    split
    · rename_i hall
      have hsame : ∀ o' ∈ rest, o'.cameraId = o.cameraId := by simpa using hall
      have hothers : rest.filter (·.cameraId ≠ o.cameraId) = [] := by
        rw [filter_eq_nil_iff]
        intro o' ho'
        simpa using hsame o' ho'
      have hmine : rest.filter (·.cameraId = o.cameraId) = rest := by
        rw [filter_eq_self]
        intro o' ho'
        simpa using hsame o' ho'
      rw [byCamera_cons, hothers, hmine]
      obtain ⟨total', hloop⟩ :=
        appendManyLoop_cons config at_ (o.cameraId, o :: rest) [] {} m
      rw [show (byCamera []).entries = [] from rfl, hloop]
      split <;> rfl
    · rfl

/-! ## What the loop does to the cells -/

variable {config : StateSection} {m : Manager} {e : CameraId × List Observation}

variable {at_ : Manager.Circumstances} {groups : List (CameraId × List Observation)}

theorem appendManyLoop_cells
    (hnodup : (groups.map Prod.fst).Nodup)
    (hgoes : groups.Pairwise fun e _ =>
      leavesLoop ((m.cells e.1).appendPartition config (at_ e.1) e.1 e.2).1 = false)
    (total : CommitResult) (he : e ∈ groups) :
    (appendManyLoop config at_ groups total m).2.cells e.1 =
      ((m.cells e.1).appendPartition config (at_ e.1) e.1 e.2).2 := by
  induction groups generalizing total m with
  | nil => cases he
  | cons e' rest ih =>
    rw [map_cons, nodup_cons] at hnodup
    obtain ⟨hfirst, hrest⟩ := hnodup
    rw [pairwise_cons] at hgoes
    obtain ⟨total', hloop⟩ := appendManyLoop_cons config at_ e' rest total m
    have hself : (m.appendPartition config at_ e'.1 e'.2).2.cells e'.1 =
        ((m.cells e'.1).appendPartition config (at_ e'.1) e'.1 e'.2).2 :=
      put_cells_self _ _ _
    have hother : ∀ e ∈ rest,
        (m.appendPartition config at_ e'.1 e'.2).2.cells e.1 = m.cells e.1 := by
      intro e he
      refine put_cells_of_ne m _ (fun heq => hfirst ?_)
      exact mem_map.mpr ⟨e, he, heq⟩
    rw [hloop]
    rcases mem_cons.mp he with rfl | he
    · split
      · exact hself
      · rw [appendManyLoop_frame config at_ hfirst, hself]
    have hgo : leavesLoop (m.appendPartition config at_ e'.1 e'.2).1 = false := hgoes.1 e he
    have hgoes' : rest.Pairwise fun e _ => leavesLoop
        (((m.appendPartition config at_ e'.1 e'.2).2.cells e.1).appendPartition config
          (at_ e.1) e.1 e.2).1 = false := by
      refine hgoes.2.imp_of_mem (fun he _ hgo => ?_)
      rw [hother _ he]
      exact hgo
    rw [if_neg (by rw [hgo]; decide), ih hrest hgoes' total' he, hother e he]

theorem appendManyLoop_behind
    {e' : CameraId × List Observation} {rest : List (CameraId × List Observation)}
    (hnodup : ((e :: rest).map Prod.fst).Nodup) (he' : e' ∈ rest)
    (hleaves : leavesLoop ((m.cells e.1).appendPartition config (at_ e.1) e.1 e.2).1 = true)
    (total : CommitResult) :
    (appendManyLoop config at_ (e :: rest) total m).2.cells e'.1 = m.cells e'.1 := by
  obtain ⟨total', hloop⟩ := appendManyLoop_cons config at_ e rest total m
  rw [map_cons, nodup_cons] at hnodup
  have hleft : leavesLoop (m.appendPartition config at_ e.1 e.2).1 = true := hleaves
  rw [hloop, if_pos hleft]
  refine put_cells_of_ne m _ (fun heq => hnodup.1 ?_)
  exact mem_map.mpr ⟨e', he', heq⟩

theorem appendManyLoop_reaches (config : StateSection) (at_ : Manager.Circumstances)
    (hnodup : (groups.map Prod.fst).Nodup)
    (total : CommitResult) (m : Manager) (he : e ∈ groups) :
    (appendManyLoop config at_ groups total m).2.cells e.1 = m.cells e.1 ∨
      (appendManyLoop config at_ groups total m).2.cells e.1 =
        ((m.cells e.1).appendPartition config (at_ e.1) e.1 e.2).2 := by
  induction groups generalizing total m with
  | nil => cases he
  | cons e' rest ih =>
    rw [map_cons, nodup_cons] at hnodup
    obtain ⟨total', hloop⟩ := appendManyLoop_cons config at_ e' rest total m
    have hself : (m.appendPartition config at_ e'.1 e'.2).2.cells e'.1 =
        ((m.cells e'.1).appendPartition config (at_ e'.1) e'.1 e'.2).2 :=
      put_cells_self _ _ _
    rw [hloop]
    rcases mem_cons.mp he with rfl | he
    · right
      split
      · exact hself
      · rw [appendManyLoop_frame config at_ hnodup.1, hself]
    · have hother : (m.appendPartition config at_ e'.1 e'.2).2.cells e.1 = m.cells e.1 := by
        refine put_cells_of_ne m _ (fun heq => hnodup.1 ?_)
        exact mem_map.mpr ⟨e, he, heq⟩
      split
      · exact .inl hother
      · have hnext := ih hnodup.2 total' (m.appendPartition config at_ e'.1 e'.2).2 he
        rw [hother] at hnext
        exact hnext

/-! ## What a cut makes of a camera -/

def Manager.call (config : StateSection) (m : Manager) (batch : List Observation) : Manager :=
  (m.append config quiet batch).2

def Manager.afterCalls (config : StateSection) (batches : List (List Observation)) : Manager :=
  Runs.run (call config) .new batches

theorem Manager.afterCalls_concat (config : StateSection) (batches : List (List Observation))
    (batch : List Observation) :
    afterCalls config (batches ++ [batch]) =
      (afterCalls config batches).call config batch := by
  unfold afterCalls
  rw [Runs.run_append]
  rfl

def ofCamera (cameraId : CameraId) (observations : List Observation) : List Observation :=
  observations.filter (·.cameraId = cameraId)

variable {cameraId : CameraId} {observations : List Observation} {o : Observation}

theorem mem_ofCamera :
    o ∈ ofCamera cameraId observations ↔ o ∈ observations ∧ o.cameraId = cameraId := by
  unfold ofCamera
  rw [mem_filter, decide_eq_true_eq]

theorem ofCamera_append (cameraId : CameraId) (xs ys : List Observation) :
    ofCamera cameraId (xs ++ ys) = ofCamera cameraId xs ++ ofCamera cameraId ys :=
  filter_append ..

theorem flatten_map_ofCamera (cameraId : CameraId) (batches : List (List Observation)) :
    (batches.map (ofCamera cameraId)).flatten = ofCamera cameraId batches.flatten :=
  filter_flatten.symm

def Handed (config : StateSection) (batches : List (List Observation)) (m : Manager) : Prop :=
  ∀ cameraId, Appended config cameraId (batches.map (ofCamera cameraId)) (m.cells cameraId) ∧
    (ofCamera cameraId batches.flatten = [] → m.cells cameraId = {})

def NewTo (batches : List (List Observation)) (batch : List Observation) : Prop :=
  ((batches.flatten ++ batch).map (·.observationId)).Nodup

variable {batches : List (List Observation)} {batch : List Observation}

theorem NewTo.ofCamera (h : NewTo batches batch) (cameraId : CameraId) :
    ((State.ofCamera cameraId batch).map (·.observationId)).Nodup ∧
    ∀ o ∈ State.ofCamera cameraId batch,
      o.observationId ∉ batches.flatten.map (·.observationId) := by
  unfold NewTo at h
  rw [map_append, nodup_append] at h
  obtain ⟨-, hbatch, hdisjoint⟩ := h
  refine ⟨hbatch.sublist (filter_sublist.map _), fun o ho hold => ?_⟩
  exact hdisjoint _ hold _ (mem_map.mpr ⟨o, (mem_ofCamera.mp ho).1, rfl⟩) rfl

theorem Handed.not_mem_ids (h : Handed config batches m)
    (hnew : NewTo batches batch) (cameraId : CameraId) :
    ∀ o ∈ ofCamera cameraId batch, o.observationId ∉ (m.cells cameraId).log.ids := by
  intro o ho hold
  rw [LogPartition.mem_ids, (h cameraId).1.records, flatten_map_ofCamera] at hold
  refine (hnew.ofCamera cameraId).2 o ho ?_
  obtain ⟨o', ho', heq⟩ := mem_map.mp hold
  exact mem_map.mpr ⟨o', (mem_ofCamera.mp ho').1, heq⟩

theorem AppendOnly.leavesLoop_iff (config : StateSection) {cell : Cell}
    (h : AppendOnly cameraId cell) (hcamera : ∀ o ∈ batch, o.cameraId = cameraId)
    (hdistinct : (batch.map (·.observationId)).Nodup)
    (hnew : ∀ o ∈ batch, o.observationId ∉ cell.log.ids) :
    leavesLoop (cell.appendPartition config {} cameraId batch).1 = true ↔
      ¬ ∀ o ∈ batch, Absorbable o := by
  obtain ⟨-, htodo⟩ := h.todo_of_new hdistinct hnew
  have hall : (∀ e ∈ cell.todo batch, Absorbable e.2) ↔ ∀ o ∈ batch, Absorbable o := by
    have hmap : (cell.todo batch).map Prod.snd = batch := by
      rw [htodo, map_snd_picks]
      simp
    conv_rhs => rw [← hmap]
    rw [List.forall_mem_map]
  rw [← hall]
  rcases appendPartition_quiet config h.inv h.pending h.isOpen hcamera with
    ⟨hno, message, seen, -, heq⟩ | ⟨hok, result, -, heq⟩
  · rw [heq]
    exact ⟨fun _ => hno, fun _ => rfl⟩
  · rw [heq]
    exact ⟨fun hleaves => (by cases hleaves), fun hno => absurd hok hno⟩

def ReachesAll (batch : List Observation) : Prop :=
  (byCamera batch).entries.Pairwise fun e _ => ∀ o ∈ e.2, Absorbable o

theorem ofCamera_eq_nil :
    ofCamera cameraId observations = [] ↔ cameraId ∉ observations.map (·.cameraId) := by
  unfold ofCamera
  rw [filter_eq_nil_iff]
  simp

theorem Manager.call_frame (config : StateSection) (m : Manager)
    (h : ofCamera cameraId batch = []) :
    (m.call config batch).cells cameraId = m.cells cameraId := by
  unfold call
  rw [append_eq_loop]
  refine appendManyLoop_frame config quiet (fun hmem => ?_) {} m
  obtain ⟨e, he, rfl⟩ := mem_map.mp hmem
  exact ofCamera_eq_nil.mp h (mem_entries_byCamera.mp he).1

theorem mem_entries_ofCamera (h : ofCamera cameraId batch ≠ []) :
    (cameraId, ofCamera cameraId batch) ∈ (byCamera batch).entries := by
  refine mem_entries_byCamera.mpr ⟨?_, rfl⟩
  by_contra hmem
  exact h (ofCamera_eq_nil.mpr hmem)

theorem Handed.call_cell (h : Handed config batches m)
    (hreach : ReachesAll batch) (hnew : NewTo batches batch) (hne : ofCamera cameraId batch ≠ []) :
    (m.call config batch).cells cameraId =
      ((m.cells cameraId).appendPartition config {} cameraId (ofCamera cameraId batch)).2 := by
  unfold call
  rw [append_eq_loop]
  refine appendManyLoop_cells (byCamera batch).nodupKeys ?_ {}
    (mem_entries_ofCamera hne)
  refine hreach.imp_of_mem (fun {e _} he _ hok => ?_)
  have hbatch : e.2 = ofCamera e.1 batch := (mem_entries_byCamera.mp he).2
  rw [hbatch] at hok ⊢
  have hleaves := (h e.1).1.appendOnly.leavesLoop_iff config
    (fun o ho => (mem_ofCamera.mp ho).2) (hnew.ofCamera e.1).1 (h.not_mem_ids hnew e.1)
  rw [Bool.eq_false_iff]
  exact fun hleft => hleaves.mp hleft hok

theorem Handed.new (config : StateSection) : Handed config [] .new :=
  fun cameraId => ⟨Appended.empty config cameraId, fun _ => rfl⟩

theorem Handed.call (h : Handed config batches m) (hreach : ReachesAll batch)
    (hnew : NewTo batches batch) : Handed config (batches ++ [batch]) (m.call config batch) := by
  intro cameraId
  rw [map_append, map_singleton, flatten_append, ofCamera_append,
    flatten_singleton, append_eq_nil_iff]
  by_cases hne : ofCamera cameraId batch = []
  · rw [m.call_frame config hne, hne]
    exact ⟨(h cameraId).1.append_nil, fun hnil => (h cameraId).2 hnil.1⟩
  · rw [h.call_cell hreach hnew hne]
    refine ⟨(h cameraId).1.append config (fun o ho => (mem_ofCamera.mp ho).2)
      (hnew.ofCamera cameraId).1 (h.not_mem_ids hnew cameraId), fun hnil => ?_⟩
    exact absurd hnil.2 hne

theorem handed_afterCalls (config : StateSection) (hreach : ∀ batch ∈ batches, ReachesAll batch)
    (hdistinct : (batches.flatten.map (·.observationId)).Nodup) :
    Handed config batches (afterCalls config batches) := by
  induction batches using List.reverseRecOn with
  | nil => exact Handed.new config
  | append_singleton batches batch ih =>
    have hnew : NewTo batches batch := by
      rwa [flatten_append, flatten_singleton] at hdistinct
    have hbefore : (batches.flatten.map (·.observationId)).Nodup := by
      unfold NewTo at hnew
      rw [map_append] at hnew
      exact hnew.of_append_left
    rw [afterCalls_concat]
    exact (ih (fun batch hbatch => hreach batch (mem_append_left _ hbatch))
      hbefore).call (hreach batch (by simp)) hnew

/-! ## When the cut does not show -/

/-- The partitions show consumers the same. -/
def SameShown (p q : CameraPartition) : Prop :=
  p.objects = q.objects ∧ p.regions = q.regions ∧ p.status = q.status ∧
    p.observability = q.observability ∧ p.logPosition = q.logPosition ∧ p.version = q.version

/-- Both are absent, or both show the same. -/
def PartitionsAgree : Option CameraPartition → Option CameraPartition → Prop
  | none, none => True
  | some p, some q => SameShown p q
  | _, _ => False

theorem PartitionsAgree.refl (p : Option CameraPartition) : PartitionsAgree p p := by
  cases p with
  | none => trivial
  | some p => exact ⟨rfl, rfl, rfl, rfl, rfl, rfl⟩

/-- Any two ways of cutting the list into append calls leave every camera with partitions
    that agree. -/
def CutDoesNotShow (config : StateSection) (observations : List Observation) : Prop :=
  ∀ xs ys : List (List Observation), xs.flatten = observations → ys.flatten = observations →
    ∀ cameraId, PartitionsAgree
      ((afterCalls config xs).cells cameraId).partition
      ((afterCalls config ys).cells cameraId).partition

/-- Behind an observation of the empty object comes only its own camera, and a camera names
    the empty object always or never. -/
def Cuttable (o o' : Observation) : Prop :=
  (¬ Absorbable o → o'.cameraId = o.cameraId) ∧
  (o'.cameraId = o.cameraId → (Absorbable o' ↔ Absorbable o))

theorem reachesAll_of_cuttable (h : batch.Pairwise Cuttable) : ReachesAll batch := by
  unfold ReachesAll
  induction hn : batch.length using Nat.strong_induction_on generalizing batch with
  | _ n ih =>
    cases batch with
    | nil => exact List.Pairwise.nil
    | cons o rest =>
      rw [pairwise_cons] at h
      rw [byCamera_cons, pairwise_cons]
      constructor
      · intro e he o' ho'
        -- A group behind the first one is of another camera.
        obtain ⟨hmem, -⟩ := mem_entries_byCamera.mp he
        obtain ⟨o'', ho'', -⟩ := mem_map.mp hmem
        rw [mem_filter, decide_eq_true_eq] at ho''
        have ho : Absorbable o := by
          by_contra hno
          exact ho''.2 ((h.1 o'' ho''.1).1 hno)
        rcases mem_cons.mp ho' with rfl | ho'
        · exact ho
        · rw [mem_filter, decide_eq_true_eq] at ho'
          exact ((h.1 o' ho'.1).2 ho'.2).mpr ho
      · refine ih _ ?_ (h.2.sublist filter_sublist) rfl
        rw [← hn, length_cons]
        exact Nat.lt_succ_of_le (length_filter_le ..)

theorem ofCamera_pure (h : observations.Pairwise Cuttable) (cameraId : CameraId) :
    (∀ o ∈ ofCamera cameraId observations, Absorbable o) ∨
      ∀ o ∈ ofCamera cameraId observations, ¬ Absorbable o := by
  have hsub : (ofCamera cameraId observations).Pairwise Cuttable :=
    h.sublist filter_sublist
  cases hlist : ofCamera cameraId observations with
  | nil => exact .inl (fun o ho => by cases ho)
  | cons o rest =>
    rw [hlist, pairwise_cons] at hsub
    have hcamera : ∀ o' ∈ o :: rest, o'.cameraId = cameraId := by
      intro o' ho'
      rw [← hlist] at ho'
      exact (mem_ofCamera.mp ho').2
    have hsame : ∀ o' ∈ rest, (Absorbable o' ↔ Absorbable o) := by
      intro o' ho'
      refine (hsub.1 o' ho').2 ?_
      rw [hcamera o (by simp), hcamera o' (mem_cons_of_mem _ ho')]
    by_cases ho : Absorbable o
    · left
      intro o' ho'
      rcases mem_cons.mp ho' with rfl | ho'
      · exact ho
      · exact (hsame o' ho').mpr ho
    · right
      intro o' ho'
      rcases mem_cons.mp ho' with rfl | ho'
      · exact ho
      · exact fun hok => ho ((hsame o' ho').mp hok)

theorem projected_eq_nil (h : ∀ o ∈ batches.flatten, ¬ Absorbable o) : projected batches = [] := by
  unfold projected
  rw [rdropWhile_eq_nil_iff]
  intro batch hbatch
  unfold skips
  cases batch with
  | nil => rfl
  | cons o rest =>
    have ho := h o (mem_flatten.mpr ⟨_, hbatch, by simp⟩)
    simp [ho]

def shownOf (config : StateSection) (observations : List Observation) (cameraId : CameraId) :
    Option CameraPartition :=
  if ofCamera cameraId observations = [] then none
  else some ((picks [] [] 0 ((ofCamera cameraId observations).filter (Absorbable ·))).foldl
    (absorb config.bounds) (freshPartition cameraId))

theorem Handed.partition_eq (h : Handed config batches m) (hcut : batches.flatten.Pairwise Cuttable)
    (cameraId : CameraId) :
    (m.cells cameraId).partition = shownOf config batches.flatten cameraId := by
  obtain ⟨happended, hempty⟩ := h cameraId
  unfold shownOf
  split
  · rename_i hnil
    rw [hempty hnil]
  have hflatten := flatten_map_ofCamera cameraId batches
  have hlive := happended.isLive (by rwa [hflatten])
  obtain ⟨p, hp⟩ := isSome_iff_exists.mp hlive
  rw [hp, ← Cell.partitionOf_of_some hp cameraId]
  rcases ofCamera_pure hcut cameraId with hok | hbad
  · have hprojected := flatten_projected (by rwa [hflatten])
    rw [hflatten] at hprojected
    rw [happended.partition (by rwa [hprojected]), hprojected,
      filter_eq_self.mpr (fun o ho => decide_eq_true (hok o ho))]
  · have hprojected := projected_eq_nil (by rwa [hflatten])
    have hnone : (ofCamera cameraId batches.flatten).filter (Absorbable ·) = [] := by
      rw [filter_eq_nil_iff]
      exact fun o ho => by simpa using hbad o ho
    rw [happended.partition (by rw [hprojected]; exact fun o ho => by cases ho), hprojected,
      hnone]
    rfl

theorem afterCalls_partition (config : StateSection)
    (hdistinct : (batches.flatten.map (·.observationId)).Nodup)
    (hcut : batches.flatten.Pairwise Cuttable) (cameraId : CameraId) :
    ((afterCalls config batches).cells cameraId).partition =
      shownOf config batches.flatten cameraId := by
  refine (handed_afterCalls config (fun batch hbatch => ?_) hdistinct).partition_eq hcut cameraId
  exact reachesAll_of_cuttable (hcut.sublist (sublist_flatten_of_mem hbatch))

/-! ## When the cut shows -/

def singly (observations : List Observation) : List (List Observation) :=
  observations.map ([·])

theorem flatten_singly (observations : List Observation) :
    (singly observations).flatten = observations := by
  induction observations with
  | nil => rfl
  | cons o rest ih =>
    show o :: (singly rest).flatten = o :: rest
    rw [ih]

theorem reachesAll_singleton (o : Observation) : ReachesAll [o] :=
  pairwise_singleton ..

theorem handed_singly (config : StateSection)
    (hdistinct : (observations.map (·.observationId)).Nodup) :
    Handed config (singly observations) (afterCalls config (singly observations)) := by
  refine handed_afterCalls config (fun batch hbatch => ?_) (by rwa [flatten_singly])
  obtain ⟨o, -, rfl⟩ := mem_map.mp hbatch
  exact reachesAll_singleton o

def Manager.versionOf (m : Manager) (cameraId : CameraId) : Int :=
  ((m.cells cameraId).partitionOf cameraId).version

theorem versionOf_eq_of_agree {m' : Manager}
    (h : PartitionsAgree (m.cells cameraId).partition (m'.cells cameraId).partition) :
    m.versionOf cameraId = m'.versionOf cameraId := by
  unfold versionOf Cell.partitionOf
  cases hp : (m.cells cameraId).partition with
  | none =>
    cases hq : (m'.cells cameraId).partition with
    | none => rfl
    | some q =>
      rw [hp, hq] at h
      exact h.elim
  | some p =>
    cases hq : (m'.cells cameraId).partition with
    | none =>
      rw [hp, hq] at h
      exact h.elim
    | some q =>
      rw [hp, hq] at h
      exact h.2.2.2.2.2

theorem AppendOnly.version_append (config : StateSection) {cell : Cell}
    (h : AppendOnly cameraId cell)
    (hcamera : ∀ o ∈ batch, o.cameraId = cameraId)
    (hdistinct : (batch.map (·.observationId)).Nodup)
    (hnew : ∀ o ∈ batch, o.observationId ∉ cell.log.ids) :
    ((cell.appendPartition config {} cameraId batch).2.partitionOf cameraId).version =
      (cell.partitionOf cameraId).version +
        if ∀ o ∈ batch, Absorbable o then (batch.length : Int) else 0 := by
  obtain ⟨-, hpartition⟩ := h.append_new config hcamera hdistinct hnew
  rw [Cell.partitionOf_of_some hpartition cameraId]
  by_cases hok : ∀ o ∈ batch, Absorbable o
  · have hversion := (@foldl_absorb_spec config.bounds cameraId (cell.partitionOf cameraId)
      (picks [] [] cell.log.records.length batch) h.inv.partitionOf
      (fun e he => hcamera e.2 (mem_of_mem_picks he).1)
      (fun e he => hok e.2 (@mem_of_mem_picks [] [] _ _ _ he).1)).2.2.1
    have hlength : (picks [] [] (cell.log.records.length : Int) batch).length =
        batch.length := by
      have hmap := congrArg List.length
        (@map_snd_picks [] [] (cell.log.records.length : Int) batch)
      simpa using hmap
    rw [if_pos hok, if_pos hok, hversion, hlength]
  · rw [if_neg hok, if_neg hok, add_zero]

def counted (cameraId : CameraId) (observations : List Observation) : List Observation :=
  (ofCamera cameraId observations).filter (Absorbable ·)

theorem versionOf_singly (config : StateSection)
    (hdistinct : (observations.map (·.observationId)).Nodup) (cameraId : CameraId) :
    (afterCalls config (singly observations)).versionOf cameraId =
      (counted cameraId observations).length := by
  induction observations using List.reverseRecOn with
  | nil => rfl
  | append_singleton observations o ih =>
    have hbefore : (observations.map (·.observationId)).Nodup := by
      rw [map_append] at hdistinct
      exact hdistinct.of_append_left
    have hhanded := handed_singly config hbefore
    have hnew : NewTo (singly observations) [o] := by
      unfold NewTo
      rwa [flatten_singly]
    have hconcat : singly (observations ++ [o]) = singly observations ++ [[o]] :=
      map_append ..
    have hcounted : counted cameraId (observations ++ [o]) =
        counted cameraId observations ++ counted cameraId [o] := by
      unfold counted
      rw [ofCamera_append, filter_append]
    have hstep : ((afterCalls config (singly observations)).call config [o]).versionOf
        cameraId = (afterCalls config (singly observations)).versionOf cameraId +
          (counted cameraId [o]).length := by
      unfold versionOf
      by_cases ho : o.cameraId = cameraId
      · have hmine : ofCamera cameraId [o] = [o] := by
          unfold ofCamera
          simp [ho]
        rw [hhanded.call_cell (reachesAll_singleton o) hnew (by rw [hmine]; simp),
          (hhanded cameraId).1.appendOnly.version_append config
            (fun o ho => (mem_ofCamera.mp ho).2) (hnew.ofCamera cameraId).1
            (hhanded.not_mem_ids hnew cameraId)]
        unfold counted
        rw [hmine]
        by_cases hok : Absorbable o <;> simp [hok]
      · have hnone : ofCamera cameraId [o] = [] := by
          unfold ofCamera
          simp [ho]
        unfold counted
        rw [call_frame config _ hnone, hnone]
        simp
    rw [hconcat, afterCalls_concat, hstep, ih hbefore, hcounted, length_append]
    push_cast
    rfl

theorem not_cut_of_version (config : StateSection) {before call : List Observation}
    (hdistinct : ((before ++ call).map (·.observationId)).Nodup) {cameraId : CameraId}
    {o : Observation} (ho : o ∈ counted cameraId call)
    (hlost : ((afterCalls config (singly before)).call config call).versionOf cameraId =
      (afterCalls config (singly before)).versionOf cameraId) :
    ¬ CutDoesNotShow config (before ++ call) := by
  intro hcut
  have hflatten : (singly before ++ [call]).flatten = before ++ call := by
    rw [flatten_append, flatten_singly, flatten_singleton]
  have hagree := versionOf_eq_of_agree
    (hcut _ _ hflatten (flatten_singly (before ++ call)) cameraId)
  have hbefore : (before.map (·.observationId)).Nodup := by
    rw [map_append] at hdistinct
    exact hdistinct.of_append_left
  have hcounted : counted cameraId (before ++ call) =
      counted cameraId before ++ counted cameraId call := by
    unfold counted
    rw [ofCamera_append, filter_append]
  rw [afterCalls_concat, hlost, versionOf_singly config hbefore,
    versionOf_singly config hdistinct, hcounted, length_append] at hagree
  have hpos := length_pos_of_mem ho
  omega

theorem Handed.versionOf_call (h : Handed config batches m) (hnew : NewTo batches batch)
    (hbad : ¬ ∀ o ∈ ofCamera cameraId batch, Absorbable o) :
    (m.call config batch).versionOf cameraId = m.versionOf cameraId := by
  have hne : ofCamera cameraId batch ≠ [] := by
    intro hnil
    rw [hnil] at hbad
    exact hbad (fun o ho => by cases ho)
  unfold Manager.versionOf Manager.call
  rw [append_eq_loop]
  rcases appendManyLoop_reaches config quiet (byCamera batch).nodupKeys {} m
    (mem_entries_ofCamera hne) with hcell | hcell
  · rw [hcell]
  · rw [hcell]
    have hversion := (h cameraId).1.appendOnly.version_append config
      (fun o ho => (mem_ofCamera.mp ho).2) (hnew.ofCamera cameraId).1
      (h.not_mem_ids hnew cameraId)
    rw [if_neg hbad, add_zero] at hversion
    exact hversion

theorem Handed.call_behind (h : Handed config batches m) {rest : List Observation}
    (hnew : NewTo batches (o :: rest)) (hbad : ¬ Absorbable o) (hother : cameraId ≠ o.cameraId) :
    (m.call config (o :: rest)).cells cameraId = m.cells cameraId := by
  by_cases hnone : ofCamera cameraId (o :: rest) = []
  · exact m.call_frame config hnone
  have hentry := mem_entries_ofCamera hnone
  have hnodup := (byCamera (o :: rest)).nodupKeys
  unfold Manager.call
  rw [append_eq_loop]
  rw [byCamera_cons] at hentry hnodup ⊢
  rcases mem_cons.mp hentry with heq | hentry
  · exact absurd (congrArg Prod.fst heq) hother
  refine appendManyLoop_behind hnodup hentry ?_ {}
  have hmine : o :: rest.filter (·.cameraId = o.cameraId) =
      ofCamera o.cameraId (o :: rest) := by
    unfold ofCamera
    rw [filter_cons_of_pos (by simp)]
  have hleaves := (h o.cameraId).1.appendOnly.leavesLoop_iff config
    (fun o ho => (mem_ofCamera.mp ho).2) (hnew.ofCamera o.cameraId).1
    (h.not_mem_ids hnew o.cameraId)
  rw [hmine]
  exact hleaves.mpr (fun hok => hbad (hok o (mem_ofCamera.mpr ⟨by simp, rfl⟩)))

variable {o' : Observation}

theorem CutDoesNotShow.pure (h : CutDoesNotShow config observations)
    (hdistinct : (observations.map (·.observationId)).Nodup)
    (ho : o ∈ observations) (ho' : o' ∈ observations) (hsame : o'.cameraId = o.cameraId)
    (hok : Absorbable o) : Absorbable o' := by
  by_contra hbad
  have hnew : NewTo [] observations := hdistinct
  have hlost := (Handed.new config).versionOf_call hnew
    (fun hall => hbad (hall o' (mem_ofCamera.mpr ⟨ho', hsame⟩)))
  refine @not_cut_of_version config [] observations hdistinct o.cameraId o ?_ hlost h
  exact mem_filter.mpr ⟨mem_ofCamera.mpr ⟨ho, rfl⟩, decide_eq_true hok⟩

theorem CutDoesNotShow.behind {before rest : List Observation}
    (h : CutDoesNotShow config (before ++ o :: rest))
    (hdistinct : ((before ++ o :: rest).map (·.observationId)).Nodup)
    (hbefore : ∀ o ∈ before, Absorbable o) (hbad : ¬ Absorbable o) (ho' : o' ∈ rest) :
    o'.cameraId = o.cameraId := by
  by_contra hother
  have hmem : o' ∈ before ++ o :: rest :=
    mem_append_right _ (mem_cons_of_mem _ ho')
  have hfirst : (before.map (·.observationId)).Nodup := by
    rw [map_append] at hdistinct
    exact hdistinct.of_append_left
  have hhanded := handed_singly config hfirst
  have hnew : NewTo (singly before) (o :: rest) := by
    unfold NewTo
    rwa [flatten_singly]
  have hcell := hhanded.call_behind hnew hbad hother
  by_cases hok : Absorbable o'
  · refine @not_cut_of_version config before (o :: rest) hdistinct o'.cameraId o' ?_ ?_ h
    · exact mem_filter.mpr
        ⟨mem_ofCamera.mpr ⟨mem_cons_of_mem _ ho', rfl⟩, decide_eq_true hok⟩
    · unfold versionOf
      rw [hcell]
  · -- The camera comes up for the first time, and only one of the cuts creates it.
    have hnone : ofCamera o'.cameraId before = [] := by
      rw [ofCamera_eq_nil]
      intro hcamera
      obtain ⟨o'', ho'', heq⟩ := mem_map.mp hcamera
      exact hok (h.pure hdistinct (mem_append_left _ ho'') hmem heq.symm
        (hbefore o'' ho''))
    have hempty := (hhanded o'.cameraId).2 (by rwa [flatten_singly])
    have hlive := ((handed_singly config hdistinct) o'.cameraId).1.isLive (by
      rw [flatten_map_ofCamera, flatten_singly]
      exact ne_nil_of_mem (mem_ofCamera.mpr ⟨hmem, rfl⟩))
    have hflatten : (singly before ++ [o :: rest]).flatten = before ++ o :: rest := by
      rw [flatten_append, flatten_singly, flatten_singleton]
    have hagree := h _ _ hflatten (flatten_singly _) o'.cameraId
    rw [afterCalls_concat, hcell, hempty] at hagree
    obtain ⟨p, hp⟩ := isSome_iff_exists.mp hlive
    rw [hp] at hagree
    exact hagree

theorem CutDoesNotShow.cuttable (h : CutDoesNotShow config observations)
    (hdistinct : (observations.map (·.observationId)).Nodup) :
    observations.Pairwise Cuttable := by
  have hpure : ∀ o ∈ observations, ∀ o' ∈ observations, o'.cameraId = o.cameraId →
      (Absorbable o' ↔ Absorbable o) := by
    intro o ho o' ho' hsame
    exact ⟨h.pure hdistinct ho' ho hsame.symm, h.pure hdistinct ho ho' hsame⟩
  cases hfind : observations.find? (fun o => ¬ Absorbable o) with
  | none =>
    -- Nothing names the empty object.
    refine pairwise_of_forall_mem_list (fun o ho o' ho' => ⟨fun hbad => ?_, ?_⟩)
    · exact absurd (by simpa using find?_eq_none.mp hfind o ho) hbad
    · exact hpure o ho o' ho'
  | some o =>
    obtain ⟨hbad, before, rest, rfl, hbefore⟩ := find?_eq_some_iff_append.mp hfind
    have hbefore' : ∀ o ∈ before, Absorbable o := fun o ho => by simpa using hbefore o ho
    have hbehind : ∀ o' ∈ rest, o'.cameraId = o.cameraId :=
      fun o' ho' => h.behind hdistinct hbefore' (by simpa using hbad) ho'
    have hrest : (o :: rest).Pairwise (fun o o' => o'.cameraId = o.cameraId) := by
      refine pairwise_of_forall_mem_list (fun o₁ ho₁ o₂ ho₂ => ?_)
      have hall : ∀ o' ∈ o :: rest, o'.cameraId = o.cameraId := by
        intro o' ho'
        rcases mem_cons.mp ho' with rfl | ho'
        · rfl
        · exact hbehind o' ho'
      rw [hall o₁ ho₁, hall o₂ ho₂]
    have hcameras : (before ++ o :: rest).Pairwise
        (fun o o' => ¬ Absorbable o → o'.cameraId = o.cameraId) := by
      rw [pairwise_append]
      have hown : (o :: rest).Pairwise
          (fun o o' => ¬ Absorbable o → o'.cameraId = o.cameraId) := by
        refine hrest.imp ?_
        intro o₁ o₂ hsame _
        exact hsame
      refine ⟨?_, hown, ?_⟩
      · exact pairwise_of_forall_mem_list
          (fun o ho _ _ hno => absurd (hbefore' o ho) hno)
      · exact fun o ho _ _ hno => absurd (hbefore' o ho) hno
    exact hcameras.imp_of_mem (fun ho ho' hcamera => ⟨hcamera, hpure _ ho _ ho'⟩)

/-- For a list of observations with distinct ids, every two ways of cutting it into append
    calls leave the same partitions if and only if no two of its observations show the cut. -/
theorem cut_does_not_show_iff (config : StateSection) {observations : List Observation}
    (hdistinct : (observations.map (·.observationId)).Nodup) :
    CutDoesNotShow config observations ↔ observations.Pairwise Cuttable := by
  refine ⟨fun h => h.cuttable hdistinct, fun hcut xs ys hxs hys cameraId => ?_⟩
  rw [afterCalls_partition config (by rwa [hxs]) (by rwa [hxs]) cameraId,
    afterCalls_partition config (by rwa [hys]) (by rwa [hys]) cameraId, hxs, hys]
  exact PartitionsAgree.refl _

/-- The reports of two blind cameras may be cut as one likes. -/
theorem blind_reports_cut : CutDoesNotShow .defaults [northBlind, southBlind] := by
  refine (cut_does_not_show_iff .defaults (by decide +kernel)).mpr ?_
  rw [pairwise_pair]
  exact ⟨fun hbad => absurd (by decide +kernel) hbad, fun _ => by decide +kernel⟩

/-- A quality observation of the camera "north" that names the empty object. -/
def northNobody : Observation where
  toObservationFields :=
    { personFields .quality [] (some {}) with observationId := "nobody", objectId := some "" }
  accepted := rfl

/-- The report of the camera "south" behind it is lost when one call appends both. -/
theorem nobody_shows_the_cut :
    ([northNobody, southBlind].map (·.observationId)).Nodup ∧
    ¬ CutDoesNotShow .defaults [northNobody, southBlind] := by
  refine ⟨by decide +kernel, fun h => ?_⟩
  have hagree := h [[northNobody, southBlind]] [[northNobody], [southBlind]] rfl rfl "south"
  have htogether : ((afterCalls .defaults
      [[northNobody, southBlind]]).cells "south").partition.isSome = false := by
    decide +kernel
  have hsingly : ((afterCalls .defaults
      [[northNobody], [southBlind]]).cells "south").partition.isSome = true := by
    decide +kernel
  obtain ⟨p, hp⟩ := isSome_iff_exists.mp hsingly
  rw [isSome_eq_false_iff, isNone_iff_eq_none] at htogether
  rw [htogether, hp] at hagree
  exact hagree

end VisionOs.State
