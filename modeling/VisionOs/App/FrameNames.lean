/-
  Two pictures never share a name while a camera is given a session only when its sessions before
  it hand on nothing.  A source counts from zero, so the next session repeats the names of the one
  before it.
-/
import VisionOs.App.LiveSessions
import VisionOs.Synthesis.RoundTrip

namespace VisionOs.App

open Core Acquisition Lib List Option Synthesis List.Pairwise FrameRefFields UnicodeTables

theorem pySplit_injective (c : Char) : Function.Injective fun s => pySplit s c := by
  intro s t h
  have hinjective : Function.Injective String.ofList := fun _ _ => String.ofList_injective
  have hparts : s.toList.splitOn c = t.toList.splitOn c :=
    map_injective_iff.mpr hinjective h
  have hs : [c].intercalate (s.toList.splitOn c) = s.toList := intercalate_splitOn c
  apply String.toList_injective
  rw [← hs, hparts, intercalate_splitOn]

theorem toString_injective {m n : Int} (hm : 0 ≤ m) (hn : 0 ≤ n) (h : toString m = toString n) :
    m = n := by
  rw [toString_of_nonneg hm, toString_of_nonneg hn] at h
  have hread := congrArg ascii.readInt h
  rw [readInt_toString, readInt_toString,
    Int.toNat_of_nonneg hm, Int.toNat_of_nonneg hn] at hread
  exact some.inj hread

theorem pySplit_number {n : Int} (hn : 0 ≤ n) : pySplit (toString n) ':' = [toString n] := by
  refine pySplit_of_not_mem fun h => ?_
  have hmem : ':' ∈ Nat.toDigits 10 n.toNat := by
    rw [toString_of_nonneg hn] at h
    simpa [Nat.toString_eq_repr] using h
  obtain ⟨d, hd, heq⟩ := exists_digitChar hmem
  exact digitChar_ne_of_not_digit hd (by decide) heq.symm

theorem pySplit_name {frame : LiveFrame} (h : frame.Counted) :
    pySplit frame.name ':' =
      pySplit frame.cameraId ':' ++ [toString frame.epoch, toString frame.sequence] := by
  have htext : frame.name = frame.cameraId ++ String.singleton ':' ++ toString frame.epoch ++
      String.singleton ':' ++ toString frame.sequence := rfl
  rw [htext, pySplit_append, pySplit_append, pySplit_number h.1, pySplit_number h.2,
    append_assoc]
  rfl

theorem eq_of_name_eq {f g : LiveFrame} (hf : f.Counted) (hg : g.Counted) (h : f.name = g.name) :
    f.cameraId = g.cameraId ∧ f.epoch = g.epoch ∧ f.sequence = g.sequence := by
  have hparts := congrArg (fun s => pySplit s ':') h
  rw [pySplit_name hf, pySplit_name hg] at hparts
  obtain ⟨hcamera, hnumbers⟩ := append_inj' hparts rfl
  rw [cons.injEq, cons.injEq] at hnumbers
  exact ⟨pySplit_injective ':' hcamera, toString_injective hf.1 hg.1 hnumbers.1,
    toString_injective hf.2 hg.2 hnumbers.2.1⟩

theorem ref_eq_of_str_eq {p q : FrameRef} (h : p.str = q.str) : p = q := by
  obtain ⟨hpe, hps⟩ := postInit_eq_ok.mp p.accepted
  obtain ⟨hqe, hqs⟩ := postInit_eq_ok.mp q.accepted
  have hparts := congrArg (fun s => pySplit s '/') h
  rw [pySplit_str, pySplit_str] at hparts
  obtain ⟨hcamera, hnumbers⟩ := append_inj' hparts rfl
  rw [cons.injEq, cons.injEq, String.append_right_inj, String.append_right_inj,
    ← toString_of_nonneg hpe, ← toString_of_nonneg hqe,
    ← toString_of_nonneg hps, ← toString_of_nonneg hqs] at hnumbers
  have hepoch := toString_injective hpe hqe hnumbers.1
  have hseq := toString_injective hps hqs hnumbers.2.1
  obtain ⟨⟨camera, epoch, seq⟩, _⟩ := p
  obtain ⟨⟨camera', epoch', seq'⟩, _⟩ := q
  obtain rfl : camera = camera' := pySplit_injective '/' hcamera
  obtain rfl : epoch = epoch' := hepoch
  obtain rfl : seq = seq' := hseq
  rfl

/-! ## The process -/

/-- The decision frame is the picture that was published. -/
def DecisionFrame.Shows (f : DecisionFrame) (p : Publication) : Prop :=
  f.frameRef = p.published.frameRef.str ∧ f.cameraId = p.frame.cameraId ∧
    f.capturedAtNs = p.frame.capturedAtNs ∧ f.width = p.frame.width ∧
      f.height = p.frame.height ∧ p.encoded = .ok f.jpeg

namespace LiveRuntime

/-- A camera is given a session only when its sessions before it hand on nothing and never
    did; a start that is refused gives none. -/
def StartsAlone (s : LiveRuntime) : RuntimeEvent → Prop
  | .starts spec => (s.hasActive spec.cameraId || spec.queueCapacity < 1) = false →
    ∀ index, (h : index < s.sessions.length) →
      s.sessions[index].cameraId = spec.cameraId → Spent s.taken index s.sessions[index]
  | _ => True

instance (index : Nat) (taken : List Sent) (x : VisionSession) : Decidable (Spent taken index x) :=
  inferInstanceAs (Decidable (_ ∧ _))

instance (s : LiveRuntime) : DecidablePred s.StartsAlone := fun event =>
  match event with
  | .starts spec => inferInstanceAs (Decidable
      ((s.hasActive spec.cameraId || spec.queueCapacity < 1) = false →
        ∀ index, (h : index < s.sessions.length) →
          s.sessions[index].cameraId = spec.cameraId → Spent s.taken index s.sessions[index]))
  | .yields _ _ | .reconnects _ | .ends _ | .takes _ | .ingests _ _ | .finishes _ _ | .abandons _
  | .pauses _ | .resumes _ | .stops _ | .stopped _ | .clears | .reads _ | .attaches _ _ _
  | .annotates _ _ => inferInstanceAs (Decidable True)

/-- No two pictures share a name, and what is found under a name is of the picture that has it:
    the entry of the buffer, the decision frame and the entry of the ledger. -/
structure NamesApart (s : LiveRuntime) : Prop where
  refs : s.published.Pairwise fun p q => p.published.frameRef ≠ q.published.frameRef
  names : s.taken.Pairwise fun t u => t.frame.name ≠ u.frame.name
  buffered : ∀ p ∈ s.published, ∀ entry,
    s.ingest.buffer.entryAt p.frame.cameraId p.published.frameRef = some entry →
      entry.frame = p.published
  retained : ∀ p ∈ s.published, ∀ kept,
    s.ingest.decisionFrames.get p.frame.cameraId p.published.frameRef.str = some kept →
      kept.Shows p
  recorded : ∀ t ∈ s.taken, ∀ entry, s.ledger.get t.frame.name = some entry →
    { entry with outcome := {} } = FrameEntry.emitted t.kind t.frame

/-- What holds of a process: every session's frames are in order, at most one session of a camera
    hands frames on, and what is shared holds pictures under their names. -/
structure Sound (s : LiveRuntime) : Prop where
  sessions : ∀ index x, s.sessions[index]? = some x → SessionSound s.taken s.published index x
  indices : ∀ t ∈ s.taken, t.session < s.sessions.length
  rising : s.taken.Pairwise fun t u =>
    t.session = u.session → t.frame.Precedes u.frame.epoch u.frame.sequence
  publishedRising : s.published.Pairwise fun p q =>
    p.session = q.session → p.frame.Precedes q.frame.epoch q.frame.sequence
  publishedTaken : ∀ p ∈ s.published, ∃ t ∈ s.taken, t.session = p.session ∧ t.frame = p.frame
  refs : ∀ p ∈ s.published, p.published.frameRef.toFrameRefFields = p.frame.refFields
  alone : ∀ i j x y, s.sessions[i]? = some x → s.sessions[j]? = some y → i ≠ j →
    x.cameraId = y.cameraId → Spent s.taken i x ∨ Spent s.taken j y
  buffered : ∀ camera ref entry, s.ingest.buffer.entryAt camera ref = some entry →
    ∃ p ∈ s.published, p.published = entry.frame ∧ p.published.frameRef = ref
  retained : s.ingest.decisionFrames.Retains fun _ frameRef f =>
    ∃ p ∈ s.published, f.Shows p ∧ f.frameRef = frameRef
  recorded : s.ledger.Holds fun kind frame => ∃ t ∈ s.taken, t.kind = kind ∧ t.frame = frame

variable {s : LiveRuntime}

/-! ## Distinct names -/

theorem Sound.session_eq (h : s.Sound) {t u : Sent} (ht : t ∈ s.taken) (hu : u ∈ s.taken)
    (hcamera : t.frame.cameraId = u.frame.cameraId) : t.session = u.session := by
  by_contra hne
  obtain ⟨x, hx⟩ : ∃ x, s.sessions[t.session]? = some x :=
    ⟨_, getElem?_eq_getElem (h.indices t ht)⟩
  obtain ⟨y, hy⟩ : ∃ y, s.sessions[u.session]? = some y :=
    ⟨_, getElem?_eq_getElem (h.indices u hu)⟩
  have hxt := ((h.sessions _ x hx).sent t ht rfl).1
  have hyu := ((h.sessions _ y hy).sent u hu rfl).1
  have hsame : x.cameraId = y.cameraId := hxt.symm.trans (hcamera.trans hyu)
  rcases h.alone _ _ x y hx hy hne hsame with hspent | hspent
  · exact hspent.2 t ht rfl
  · exact hspent.2 u hu rfl

theorem Sound.counted (h : s.Sound) {t : Sent} (ht : t ∈ s.taken) : t.frame.Counted := by
  obtain ⟨x, hx⟩ : ∃ x, s.sessions[t.session]? = some x :=
    ⟨_, getElem?_eq_getElem (h.indices t ht)⟩
  exact ((h.sessions _ x hx).sent t ht rfl).2.1

theorem Sound.names (h : s.Sound) : s.taken.Pairwise fun t u => t.frame.name ≠ u.frame.name := by
  refine h.rising.imp_of_mem fun {t u} ht hu hrising hname => ?_
  obtain ⟨hcamera, hnumbers⟩ := eq_of_name_eq (h.counted ht) (h.counted hu) hname
  exact (hrising (h.session_eq ht hu hcamera)).ne hnumbers

theorem Sound.publishedRefs (h : s.Sound) :
    s.published.Pairwise fun p q => p.published.frameRef ≠ q.published.frameRef := by
  refine h.publishedRising.imp_of_mem fun {p q} hp hq hrising href => ?_
  have hfields : p.frame.refFields = q.frame.refFields := by
    rw [← h.refs p hp, ← h.refs q hq, href]
  obtain ⟨t, ht, htp, htf⟩ := h.publishedTaken p hp
  obtain ⟨u, hu, huq, huf⟩ := h.publishedTaken q hq
  obtain ⟨hcamera, hepoch, hseq⟩ := FrameRefFields.mk.inj hfields
  have hsession := h.session_eq ht hu (by rw [htf, huf]; exact hcamera)
  exact (hrising (by rw [← htp, ← huq, hsession])).ne ⟨hepoch, hseq⟩

theorem Sound.namesApart (h : s.Sound) : s.NamesApart where
  refs := h.publishedRefs
  names := h.names
  buffered p hp entry hentry := by
    obtain ⟨q, hq, hframe, href⟩ := h.buffered _ _ entry hentry
    have hsame : q = p :=
      inj_on_of_nodup_map (pairwise_map.mpr h.publishedRefs) hq hp href
    rw [← hframe, hsame]
  retained p hp kept hkept := by
    obtain ⟨q, hq, hshows, hname⟩ := h.retained _ _ kept hkept
    have hstr : q.published.frameRef.str = p.published.frameRef.str := hshows.1.symm.trans hname
    have hsame : q = p := inj_on_of_nodup_map (pairwise_map.mpr h.publishedRefs) hq hp
      (ref_eq_of_str_eq hstr)
    exact hsame ▸ hshows
  recorded t ht entry hentry := by
    obtain ⟨hname, kind, frame, ⟨u, hu, rfl, rfl⟩, hemitted⟩ := h.recorded.get hentry
    have hnamed : u.frame.name = t.frame.name :=
      (congrArg FrameEntry.frameRef hemitted).symm.trans hname
    have hsame : u = t :=
      inj_on_of_nodup_map (pairwise_map.mpr h.names) hu ht hnamed
    exact hsame ▸ hemitted

theorem sound_opened (config : BufferSection) : (opened config).Sound where
  sessions _ _ h := by cases h
  indices _ h := by cases h
  rising := nil
  publishedRising := nil
  publishedTaken _ h := by cases h
  refs _ h := by cases h
  alone _ _ _ _ h := by cases h
  buffered _ _ _ h := by cases h
  retained := DecisionFrameStore.retains_initial
  recorded := FrameLedger.holds_new

/-! ## Steps -/

variable {index : Nat} {f : VisionSession → VisionSession}

theorem getElem?_modify_cases {i : Nat}
    {x' : VisionSession} (h : (s.sessions.modify index f)[i]? = some x') :
    (i = index ∧ ∃ x, s.sessions[index]? = some x ∧ x' = f x) ∨
      (i ≠ index ∧ s.sessions[i]? = some x') := by
  rw [getElem?_modify] at h
  obtain ⟨x, hx, heq⟩ := map_eq_some_iff.mp h
  split at heq
  · rename_i hindex
    subst hindex heq
    exact .inl ⟨rfl, x, hx, rfl⟩
  · rename_i hindex
    subst heq
    exact .inr ⟨Ne.symm hindex, hx⟩

theorem Sound.modify (h : s.Sound)
    (hf : ∀ x, s.sessions[index]? = some x → KeepsNumbers s.taken s.published index x (f x)) :
    (s.modify index f).Sound := by
  have hget : ∀ {i x'}, (s.modify index f).sessions[i]? = some x' →
      ∃ x, s.sessions[i]? = some x ∧ KeepsNumbers s.taken s.published i x x' := by
    intro i x' hx'
    rcases getElem?_modify_cases hx' with ⟨rfl, x, hx, rfl⟩ | ⟨-, hx⟩
    · exact ⟨x, hx, hf x hx⟩
    · exact ⟨x', hx, .refl x'⟩
  exact {
    sessions := fun i x' hx' => by
      obtain ⟨x, hx, hkeeps⟩ := hget hx'
      exact hkeeps.sound (h.sessions i x hx)
    indices := fun t ht => by
      show t.session < (s.sessions.modify index f).length
      rw [length_modify]
      exact h.indices t ht
    rising := h.rising
    publishedRising := h.publishedRising
    publishedTaken := h.publishedTaken
    refs := h.refs
    alone := fun i j x' y' hx' hy' hne hcamera => by
      obtain ⟨x, hx, hkeepsx⟩ := hget hx'
      obtain ⟨y, hy, hkeepsy⟩ := hget hy'
      rw [hkeepsx.camera, hkeepsy.camera] at hcamera
      exact (h.alone i j x y hx hy hne hcamera).imp hkeepsx.spent hkeepsy.spent
    buffered := h.buffered
    retained := h.retained
    recorded := h.recorded }

/-- A new session of a camera whose sessions before it hand on nothing. -/
theorem Sound.start (h : s.Sound) {spec : SessionSpec} (halone : s.StartsAlone (.starts spec)) :
    (s.start spec).Sound := by
  unfold LiveRuntime.start
  split
  · exact h
  rename_i haccepted
  have hget : ∀ {i x}, (s.sessions ++ [VisionSession.start spec])[i]? = some x →
      s.sessions[i]? = some x ∨ (i = s.sessions.length ∧ x = .start spec) := by
    intro i x hx
    have hbound := (List.getElem?_eq_some_iff.mp hx).1
    rw [length_append, length_singleton] at hbound
    rcases Nat.lt_or_ge i s.sessions.length with hlt | hge
    · rw [getElem?_append_left hlt] at hx
      exact .inl hx
    · obtain rfl : i = s.sessions.length := by omega
      rw [getElem?_concat_length] at hx
      exact .inr ⟨rfl, (Option.some.inj hx).symm⟩
  have hold : ∀ {i x}, s.sessions[i]? = some x → x.cameraId = spec.cameraId →
      Spent s.taken i x := by
    intro i x hx hcamera
    obtain ⟨hlt, rfl⟩ := List.getElem?_eq_some_iff.mp hx
    exact halone (Bool.eq_false_iff.mpr haccepted) i hlt hcamera
  exact {
    sessions := fun i x hx => by
      rcases hget hx with hbefore | ⟨rfl, rfl⟩
      · exact h.sessions i x hbefore
      · -- nothing was taken by the new session yet
        refine ⟨fun t ht hindex => ?_, fun _ hf => ?_, nil, fun _ hf => ?_⟩
        · exact absurd hindex (Nat.ne_of_lt (h.indices t ht))
        · cases hf
        · cases hf
    indices := fun t ht => by
      rw [length_append]
      exact Nat.lt_add_right _ (h.indices t ht)
    rising := h.rising
    publishedRising := h.publishedRising
    publishedTaken := h.publishedTaken
    refs := h.refs
    alone := fun i j x y hx hy hne hcamera => by
      rcases hget hx with hbefore | ⟨rfl, rfl⟩
      · rcases hget hy with hbefore' | ⟨rfl, rfl⟩
        · exact h.alone i j x y hbefore hbefore' hne hcamera
        · exact .inl (hold hbefore hcamera)
      · rcases hget hy with hbefore' | ⟨rfl, rfl⟩
        · exact .inr (hold hbefore' hcamera.symm)
        · exact absurd rfl hne
    buffered := h.buffered
    retained := h.retained
    recorded := h.recorded }

variable {x : VisionSession} {frame : LiveFrame}

theorem Sound.takeFrame (h : s.Sound)
    {rest : List LiveFrame} (hx : s.sessions[index]? = some x)
    (hitems : x.queue.items = frame :: rest) :
    Sound { s.modify index (fun x => { x with
        queue := { x.queue with items := rest }
        hand := .taken frame }) with
      ledger := s.ledger.record x.kind frame
      taken := s.taken ++ [⟨index, x.kind, frame⟩] } := by
  have hsound := h.sessions index x hx
  have hmem : frame ∈ x.queue.items := by
    rw [hitems]
    exact mem_cons_self
  have hget : ∀ {i x'}, (s.sessions.modify index fun x => { x with
      queue := { x.queue with items := rest }
      hand := .taken frame })[i]? = some x' →
      (i = index ∧ x' = { x with
        queue := { x.queue with items := rest }
        hand := .taken frame }) ∨ (i ≠ index ∧ s.sessions[i]? = some x') := by
    intro i x' hx'
    refine (getElem?_modify_cases hx').imp_left fun ⟨hi, y, hy, heq⟩ => ⟨hi, ?_⟩
    rw [heq, Option.some.inj (hy.symm.trans hx)]
  -- the session that takes a frame is not spent, so its camera's others are
  have hother : ∀ {j y}, s.sessions[j]? = some y → j ≠ index → x.cameraId = y.cameraId →
      Spent (s.taken ++ [⟨index, x.kind, frame⟩]) j y := by
    intro j y hy hj hsame
    rcases h.alone index j x y hx hy (Ne.symm hj) hsame with hno | hyes
    · have hempty := hno.1.2
      rw [hitems] at hempty
      cases hempty
    · exact hyes.taken_other (Ne.symm hj)
  exact {
    sessions := fun i x' hx' => by
      rcases hget hx' with ⟨rfl, rfl⟩ | ⟨hi, hbefore⟩
      · exact hsound.takes hitems h.publishedTaken
      · exact (h.sessions i x' hbefore).taken_other (Ne.symm hi)
    indices := fun t ht => by
      show t.session < (s.sessions.modify index _).length
      rw [length_modify]
      rcases mem_concat ht with hold | rfl
      · exact h.indices t hold
      · exact (List.getElem?_eq_some_iff.mp hx).1
    rising := by
      rw [pairwise_append]
      refine ⟨h.rising, pairwise_singleton _ _, fun t ht u hu hsame => ?_⟩
      rw [mem_singleton.mp hu] at hsame ⊢
      exact (hsound.sent t ht hsame).2.2.2 frame hmem
    publishedRising := h.publishedRising
    publishedTaken := fun p hp => by
      obtain ⟨t, ht, htp⟩ := h.publishedTaken p hp
      exact ⟨t, mem_append_left _ ht, htp⟩
    refs := h.refs
    alone := fun i j x' y' hx' hy' hne hsame => by
      rcases hget hx' with ⟨rfl, rfl⟩ | ⟨hi, hbefore⟩
      · rcases hget hy' with ⟨rfl, rfl⟩ | ⟨hj, hbefore'⟩
        · exact absurd rfl hne
        · exact .inr (hother hbefore' hj hsame)
      · rcases hget hy' with ⟨rfl, rfl⟩ | ⟨hj, hbefore'⟩
        · exact .inl (hother hbefore hi hsame.symm)
        · exact (h.alone i j x' y' hbefore hbefore' hne hsame).imp
            (·.taken_other (Ne.symm hi)) (·.taken_other (Ne.symm hj))
    buffered := h.buffered
    retained := h.retained
    recorded := by
      refine (h.recorded.mono fun kind f hf => ?_).record ?_
      · obtain ⟨t, ht, htf⟩ := hf
        exact ⟨t, mem_append_left _ ht, htf⟩
      · exact ⟨_, mem_append_right _ mem_cons_self, rfl, rfl⟩ }

theorem Sound.take (h : s.Sound)
    (hx : s.sessions[index]? = some x) : (s.take index x).Sound := by
  unfold LiveRuntime.take
  split
  · split
    · exact h.modify fun y _ => keepsNumbers_drained y
    · exact h
  rename_i frame rest hitems
  split
  · refine h.modify fun y hy => keepsNumbers_sublist ?_
    rw [some.inj (hy.symm.trans hx), hitems]
    exact sublist_cons_self frame rest
  have hboth : (s.modify index fun x => { x with
      queue := { x.queue with items := rest } }).modify index (fun x => { x with
        hand := .taken frame }) =
      s.modify index fun x => { x with
        queue := { x.queue with items := rest }
        hand := .taken frame } := by
    unfold LiveRuntime.modify
    rw [modify_modify_eq]
    rfl
  have htaken := h.takeFrame hx hitems
  rw [← hboth] at htaken
  exact htaken

theorem Sound.ingestFrame (h : s.Sound)
    (hx : s.sessions[index]? = some x) (hhand : x.hand = .taken frame) (ports : IngestPorts) :
    (s.ingestFrame index ports frame).Sound := by
  have hbrings := FrameIngest.call_brings ports frame.cameraId frame s.ingest
  unfold LiveRuntime.ingestFrame
  generalize FrameIngest.call ports frame.cameraId frame s.ingest = after at hbrings ⊢
  obtain ⟨published, ingest⟩ := after
  obtain ⟨href, hentries, hframes⟩ := hbrings
  dsimp only at href hentries hframes ⊢
  obtain ⟨⟨t, ht, htsession, htframe⟩, hbefore⟩ := (h.sessions index x hx).hand frame hhand
  have hnew : ∀ p ∈ s.published ++ (published.map fun published =>
      (⟨index, frame, published, ports.encoded⟩ : Publication)).toList,
      p ∈ s.published ∨ ∃ f, published = some f ∧ p = ⟨index, frame, f, ports.encoded⟩ := by
    intro p hp
    refine (mem_append.mp hp).imp_right fun hp => ?_
    obtain ⟨f, hf, rfl⟩ := map_eq_some_iff.mp (mem_toList.mp hp)
    exact ⟨f, hf, rfl⟩
  have hin : ∀ f, published = some f → (⟨index, frame, f, ports.encoded⟩ : Publication) ∈
      s.published ++ (published.map fun published =>
        (⟨index, frame, published, ports.encoded⟩ : Publication)).toList := by
    intro f hf
    refine mem_append_right _ (mem_toList.mpr ?_)
    rw [hf]
    rfl
  have hkeep : ∀ p ∈ s.published, p ∈ s.published ++ (published.map fun published =>
      (⟨index, frame, published, ports.encoded⟩ : Publication)).toList :=
    fun p hp => mem_append_left _ hp
  have hmodified : (s.modify index fun x => { x with hand := .ingested frame }).Sound :=
    h.modify fun y _ => keepsNumbers_hand nofun
  generalize hall : s.published ++ (published.map fun published =>
    (⟨index, frame, published, ports.encoded⟩ : Publication)).toList = all at hnew hin hkeep ⊢
  -- a published frame takes the sequence of the frame in hand, above all before it
  exact {
    sessions := fun i x' hx' => by
      rcases getElem?_modify_cases hx' with ⟨rfl, y, hy, rfl⟩ | ⟨hi, hold⟩
      · exact (h.sessions i y hy).ingested frame all
      · refine (h.sessions i x' hold).publishes fun p hp => ?_
        rcases hnew p hp with hp | ⟨f, -, rfl⟩
        · exact .inl hp
        · exact .inr (Ne.symm hi)
    indices := hmodified.indices
    rising := h.rising
    publishedRising := by
      rw [← hall, pairwise_append]
      refine ⟨h.publishedRising, ?_, fun p hp q hq hsame => ?_⟩
      · cases published with
        | none => exact nil
        | some f => exact pairwise_singleton _ _
      · obtain ⟨f, -, rfl⟩ := map_eq_some_iff.mp (mem_toList.mp hq)
        exact hbefore p hp hsame
    publishedTaken := fun p hp => by
      rcases hnew p hp with hp | ⟨f, -, rfl⟩
      · exact h.publishedTaken p hp
      · exact ⟨t, ht, htsession, htframe⟩
    refs := fun p hp => by
      rcases hnew p hp with hp | ⟨f, hf, rfl⟩
      · exact h.refs p hp
      · exact href f hf
    alone := hmodified.alone
    buffered := fun camera ref entry hentry => by
      rcases hentries camera ref entry hentry with ⟨old, hold, hframe⟩ | ⟨f, hf, hfref, hframe⟩
      · obtain ⟨p, hp, hpframe, hpref⟩ := h.buffered camera ref old hold
        exact ⟨p, hkeep p hp, hpframe.trans hframe.symm, hpref⟩
      · exact ⟨_, hin f hf, hframe.symm, hfref⟩
    retained := by
      have hmono : s.ingest.decisionFrames.Retains fun _ frameRef f =>
          ∃ p ∈ all, f.Shows p ∧ f.frameRef = frameRef :=
        h.retained.mono fun _ _ _ ⟨p, hp, hshows⟩ => ⟨p, hkeep p hp, hshows⟩
      rcases hframes with hsame | ⟨f, jpeg, hf, hencoded, hremembered⟩
      · rw [hsame]
        exact hmono
      · rw [hremembered]
        exact hmono.remember ⟨_, hin f hf, ⟨rfl, rfl, rfl, rfl, rfl, hencoded⟩, rfl⟩
    recorded := h.recorded }

/-- Every step keeps a process sound, where its sessions start alone. -/
theorem Sound.step (h : s.Sound) (event : RuntimeEvent) (halone : s.StartsAlone event) :
    (s.step event).Sound := by
  cases event with
  | starts spec => exact h.start halone
  | yields index picture =>
    refine h.modify fun x _ => ?_
    split
    · exact keepsNumbers_yields x picture
    · exact .refl x
  | reconnects index =>
    refine h.modify fun x _ => ?_
    split
    · exact keepsNumbers_reconnects x
    · exact .refl x
  | ends index =>
    refine h.modify fun x _ => ?_
    split
    · exact keepsNumbers_ends x
    · exact .refl x
  | takes index =>
    unfold LiveRuntime.step
    dsimp only
    split
    · rename_i x hx
      split
      · exact h.take hx
      · exact h
    · exact h
  | ingests index ports =>
    unfold LiveRuntime.step
    dsimp only
    split
    · rename_i frame hframe
      obtain ⟨x, hx, hhand⟩ := map_eq_some_iff.mp hframe
      exact h.ingestFrame hx hhand ports
    · exact h
  | finishes index report =>
    unfold LiveRuntime.step
    dsimp only
    split
    · split
      · have hmodified : (s.modify index fun x => { x with hand := .empty }).Sound :=
          h.modify fun y _ => keepsNumbers_hand nofun
        exact { hmodified with recorded := hmodified.recorded.annotate _ report }
      · exact h
    · exact h
  | abandons index =>
    refine h.modify fun x _ => ?_
    split
    · exact .refl x
    · exact keepsNumbers_hand nofun
  | pauses index => exact h.modify fun x _ => keepsNumbers_pause x
  | resumes index => exact h.modify fun x _ => keepsNumbers_resume x
  | stops index => exact h.modify fun x _ => keepsNumbers_stop x
  | stopped index =>
    have hmodified : (s.modify index .stopped).Sound := h.modify fun x _ => keepsNumbers_stopped x
    exact { hmodified with }
  | clears => exact { h with }
  | reads call =>
    exact { h with
      buffered := fun camera ref entry hentry => by
        obtain ⟨old, hold, hframe⟩ :=
          (FrameBuffer.keeps_serve s.ingest.buffer call).entries camera ref entry hentry
        obtain ⟨p, hp, hpframe, hpref⟩ := h.buffered camera ref old hold
        exact ⟨p, hp, hpframe.trans hframe.symm, hpref⟩ }
  | attaches cameraId frameRef subject =>
    exact { h with retained := h.retained.attachSubject cameraId frameRef subject }
  | annotates frameRef report =>
    exact { h with recorded := h.recorded.annotate frameRef report }

/-- In every state reached by a process whose cameras are given a session only when their sessions
    before it hand on nothing, no two pictures share a name, and what is found under a name is of
    the picture that has it. -/
theorem names_apart (config : BufferSection) {events : List RuntimeEvent}
    (halone : Runs.Always step StartsAlone (opened config) events) {before : List RuntimeEvent}
    (hbefore : before <+: events) : (Runs.run step (opened config) before).NamesApart := by
  have hkeep : ∀ s event, Sound s → StartsAlone s event → Sound (step s event) :=
    fun s event h hstart => h.step event hstart
  exact (Runs.reached_of_always hkeep (sound_opened config) halone hbefore).namesApart

def dockSpec : SessionSpec where
  cameraId := "dock"
  kind := .replay

def dockPicture (capturedAtNs : Int) : Picture where
  capturedAtNs
  receivedAtNs := capturedAtNs
  width := 2
  height := 1
  payload := [1, 2]

def dockFrame (index : Nat) (capturedAtNs : Int) : List RuntimeEvent :=
  [.yields index (dockPicture capturedAtNs), .takes index,
    .ingests index { encoded := .ok [capturedAtNs.toNat.toUInt8] }, .finishes index {}]

/-- A session that is stopped before its first picture, and one with a picture before and one after
    a lost connection. -/
def dockResumed : List RuntimeEvent :=
  [.starts dockSpec, .stops 0, .stopped 0, .starts dockSpec] ++ dockFrame 1 7 ++
    .reconnects 1 :: dockFrame 1 8

def dockRepeated : List RuntimeEvent :=
  .starts dockSpec :: dockFrame 0 7 ++ [.stops 0, .stopped 0, .starts dockSpec] ++ dockFrame 1 8

/-- The second session of the dock names its pictures apart: the first handed on nothing. -/
theorem dock_resumed_names_apart :
    (Runs.run step (opened { accepted := rfl }) dockResumed).NamesApart := by
  refine names_apart _ ?_ (prefix_refl _)
  refine ⟨?_, trivial, trivial, ?_, trivial, trivial, trivial, trivial, trivial, trivial, trivial,
    trivial, trivial, trivial⟩
  · exact of_decide_eq_true rfl
  · decide +kernel

/-- The second session of the dock publishes its picture under the name of the first one's. -/
theorem dock_repeated_shares_a_name :
    ¬ ∀ (config : BufferSection) (events : List RuntimeEvent),
      (Runs.run step (opened config) events).NamesApart := by
  intro hapart
  have hrefs := (hapart { accepted := rfl } dockRepeated).refs
  revert hrefs
  decide +kernel

end LiveRuntime

end VisionOs.App
