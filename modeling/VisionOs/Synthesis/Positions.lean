/-
  The positions of the two logs as addresses.  Retention makes what a log holds shorter, and a
  line of a file is its address only while every line before it is a record.
-/
import VisionOs.Synthesis.FileText
import VisionOs.Synthesis.RoundTrip

namespace VisionOs.Synthesis

open Core Lib List Option FileText TextPartition List.Sublist Ledger Nat

/-! ## The log in memory -/

/-- A call that changes a partition of `InMemoryObservationLog`. -/
inductive LogCall where
  | append (observations : List Observation)
  | truncate (before : Instant)

namespace LogCall

def step (s : Ledgered LogPartition Observation) : LogCall → Ledgered LogPartition Observation
  | .append observations =>
    let (log, result) := s.log.append observations
    { log
      ledger := (s.ledger.append (Dedup.fresh (·.observationId) s.log.ids observations)).mark
        result.position }
  | .truncate before =>
    let removed := s.log.records.takeWhile (fun o => o.tCapture.ns < before.ns)
    { log := (s.log.truncate before).1
      ledger := s.ledger.remove (fun o => o.observationId ∈ removed.map (·.observationId)) }

/-- The first record of the partition is no older than the instant the call keeps. -/
def RemovesNothing (s : Ledgered LogPartition Observation) : LogCall → Prop
  | .append _ => True
  | .truncate before => ∀ o, s.log.records.head? = some o → before.ns ≤ o.tCapture.ns

end LogCall

/-- From an empty `InMemoryObservationLog`: positions never move over the run. -/
def MemoryPositionsHold (calls : List LogCall) : Prop :=
  KeepsAddresses LogCall.step (fun log => (.ok log.position : Raises Int))
    (fun log first last limit => .ok (log.read first (some last) limit)) Eq
    ⟨.empty, {}⟩ calls

structure MemoryAligned (s : Ledgered LogPartition Observation) : Prop where
  intact : s.ledger.Intact s.log.records
  marks : ∀ m ∈ s.ledger.marks, m.position = m.entries ∧ m.entries ≤ s.log.records.length

theorem sliceIndex_natCast {n i : Nat} (h : i ≤ n) : LogPartition.sliceIndex n i = i := by
  unfold LogPartition.sliceIndex
  rw [if_neg (by omega)]
  omega

variable {s : Ledgered LogPartition Observation}

theorem MemoryAligned.reads (h : MemoryAligned s) :
    ReadsBetween (fun log first last limit => (.ok (log.read first (some last) limit) :
      Raises (List Observation))) Eq s := by
  intro first hfirst last hlast _ limit
  obtain ⟨hposition, hle⟩ := h.marks first hfirst
  obtain ⟨hposition', hle'⟩ := h.marks last hlast
  refine ⟨_, rfl, ?_⟩
  rw [List.forall₂_eq_eq_eq, h.intact.between, hposition, hposition']
  unfold LogPartition.read
  dsimp only [getD_some]
  rw [sliceIndex_natCast hle, sliceIndex_natCast hle']

theorem MemoryAligned.step (h : MemoryAligned s)
    {call : LogCall} (hcall : call.RemovesNothing s) : MemoryAligned (call.step s) := by
  rcases call with observations | before
  · have hrecords := s.log.append_records observations
    constructor
    · show (mark (append _ _) _).Intact (s.log.append observations).1.records
      rw [hrecords]
      exact (h.intact.append _).mark _
    · intro m hm
      show m.position = m.entries ∧ m.entries ≤ (s.log.append observations).1.records.length
      have hm' : m ∈ s.ledger.marks ++ _ := hm
      rw [mem_append, mem_singleton] at hm'
      rcases hm' with hm' | rfl
      · obtain ⟨hposition, hle⟩ := h.marks m hm'
        refine ⟨hposition, hle.trans ?_⟩
        rw [hrecords, length_append]
        exact le_add_right _ _
      · -- The position handed out is the new number of records.
        have hlength := (h.intact.append
          (Dedup.fresh (·.observationId) s.log.ids observations)).length
        rw [← hrecords] at hlength
        exact ⟨(s.log.append_position observations).trans (congrArg Nat.cast hlength.symm),
          hlength.le⟩
  · have hnone : s.log.records.takeWhile (fun o => o.tCapture.ns < before.ns) = [] := by
      have hfirst : ∀ o, s.log.records.head? = some o → before.ns ≤ o.tCapture.ns := hcall
      cases hrecords : s.log.records with
      | nil => rfl
      | cons o rest =>
        have := hfirst o (by rw [hrecords]; rfl)
        rw [takeWhile_cons_of_neg (by simpa using this)]
    have hledger : s.ledger.remove (fun o => o.observationId ∈
        (s.log.records.takeWhile (fun o => o.tCapture.ns < before.ns)).map (·.observationId)) =
        s.ledger := by
      apply remove_eq_self
      intro entry _
      rw [hnone]
      rfl
    have hkept : (s.log.truncate before).1.records = s.log.records := by
      have hsplit := @takeWhile_append_dropWhile _
        (fun o : Observation => decide (o.tCapture.ns < before.ns)) s.log.records
      rw [hnone] at hsplit
      exact hsplit
    constructor
    · show (remove _ _).Intact (s.log.truncate before).1.records
      rw [hledger, hkept]
      exact h.intact
    · intro m hm
      show m.position = m.entries ∧ m.entries ≤ (s.log.truncate before).1.records.length
      rw [hkept]
      exact h.marks m (hledger ▸ hm)

theorem position_le_step_iff {call : LogCall} :
    s.log.position ≤ (call.step s).log.position ↔ call.RemovesNothing s := by
  rcases call with observations | before
  · refine ⟨fun _ => trivial, fun _ => ?_⟩
    show (s.log.records.length : Int) ≤ ((s.log.append observations).1.records.length : Int)
    rw [s.log.append_records, length_append]
    omega
  · show (s.log.records.length : Int) ≤
      ((s.log.records.dropWhile (fun o => o.tCapture.ns < before.ns)).length : Int) ↔ _
    unfold LogCall.RemovesNothing
    cases hrecords : s.log.records with
    | nil => simp
    | cons o rest =>
      by_cases hold : o.tCapture.ns < before.ns
      · have := (dropWhile_sublist (fun o : Observation =>
          decide (o.tCapture.ns < before.ns)) (l := rest)).length_le
        rw [dropWhile_cons_of_pos (by simpa using hold)]
        simp only [length_cons, head?_cons, Option.some.injEq, forall_eq']
        omega
      · rw [dropWhile_cons_of_neg (by simpa using hold)]
        simp only [head?_cons, Option.some.injEq, forall_eq']
        omega

theorem memoryPositionsHold_iff (calls : List LogCall) :
    MemoryPositionsHold calls ↔
      Runs.Always LogCall.step LogCall.RemovesNothing ⟨.empty, {}⟩ calls := by
  have hstart : MemoryAligned ⟨.empty, {}⟩ := ⟨rfl, fun m hm => (by cases hm)⟩
  constructor
  · intro hholds
    refine (Runs.always_iff_of_kept (fun _ _ h hcall => h.step hcall)
      (fun _ _ _ => position_le_step_iff) hstart calls).mp ?_
    refine (Runs.monotone_iff_always
      (fun s : Ledgered LogPartition Observation => s.log.position)).mp ?_
    intro earlier later hearlier hlater
    obtain ⟨before, after, hbefore, hafter, hle⟩ := hholds.monotone earlier later hearlier hlater
    rw [← Except.ok.inj hbefore, ← Except.ok.inj hafter] at hle
    exact hle
  · intro halways
    exact @keepsAddresses_of_always _ _ _ _ _ _ _ _ _ MemoryAligned LogCall.RemovesNothing
      (fun s => s.log.position) (fun _ _ => rfl) (fun _ h => h.reads)
      (fun _ _ h hcall => h.step hcall) (fun _ _ _ hcall => position_le_step_iff.mpr hcall)
      _ hstart _ halways

/-! ## The log in a file -/

/-- Text found at the end of a file when a process opens it: part of a record or blanks, with
    a newline behind it or not. -/
structure Debris where
  torn : Bool
  ended : Bool

def Debris.line (debris : Debris) : Line := if debris.torn then .torn else .blank

def FileText.withDebris (text : FileText) (found : List Debris) : FileText :=
  found.foldl (fun text debris => text.put debris.line debris.ended) text

/-- A call that changes a partition of `FileObservationLog`, or a process that opens it
    again and finds debris at the end of the file. -/
inductive FileLogCall where
  | append (fault : Option TornWrite) (observations : List Observation)
  | truncate (before : Instant)
  | reload (found : List Debris)

/-- The observations of a batch whose records a write has put into the file. -/
def recorded (room : Nat) (fault : Option TornWrite) (fresh : List Observation) :
    List Observation :=
  let written := (writeLines room (fault.map (·.toWriteFault)) fresh).1
  match fault.bind fun f => f.leftover.text room fresh[written.length]? with
  | some (.record _) => fresh.take (written.length + 1)
  | _ => fresh.take written.length

namespace FileLogCall

/-- The partition and its ledger after one call.  What reached the file counts as appended,
    also where the append then failed. -/
def step (room : Nat) (path : String) (s : Ledgered TextPartition Observation) :
    FileLogCall → Ledgered TextPartition Observation
  | .append fault observations =>
    let (log, result) := s.log.append room path fault observations
    let ledger := match s.log.load with
      | .ok index => s.ledger.append (recorded room fault (FilePartition.fresh index observations))
      | .error _ => s.ledger
    { log
      ledger := match result with
        | .ok result => ledger.mark result.position
        | .error _ => ledger }
  | .truncate before =>
    let (log, removed) := s.log.truncate before
    { log
      ledger := match removed with
        | .ok _ => s.ledger.remove (fun o => o.tCapture.ns < before.ns)
        | .error _ => s.ledger }
  | .reload found =>
    { s with log := { text := s.log.text.withDebris found, index := none } }

/-- The write fails before its first byte. -/
def WritesNothing (fault : Option TornWrite) : Prop :=
  ∃ message, fault = some ⟨⟨0, message⟩, .nothing⟩

/-- The observation survives the codec. -/
def Carries (tables : UnicodeTables) (room : Nat) (o : Observation) : Prop :=
  Carried tables room o ∧ ∀ a ∈ o.attributes, isJson a.value = true

/-- The call leaves every record on the line its position names.  No record is truncated;
    no debris spoils a record; nothing is written behind an unfinished line, and only what
    the codec carries; and where an append returns, this process has counted every record
    of the file, and all lines are records when a smaller position was handed out before. -/
def KeepsLines (tables : UnicodeTables) (room : Nat) (s : Ledgered TextPartition Observation) :
    FileLogCall → Prop
  | .reload found => (s.log.text.withDebris found).records = s.log.text.records
  | .truncate before =>
    ∀ json ∈ s.log.text.records, ∀ t, lineCapture json = .ok t → before.ns ≤ t
  | .append fault observations => ∀ index, s.log.load = .ok index →
    let fresh := FilePartition.fresh index observations
    (fresh ≠ [] → ¬ WritesNothing fault →
      s.log.text.EndsClean ∧ ∀ o ∈ fresh, Carries tables room o) ∧
    (fault = none ∨ fresh = [] → index.count = s.log.text.records.length ∧
      ∀ m ∈ s.ledger.marks, m.position < index.count + fresh.length → s.log.text.AllRecords)

end FileLogCall

/-- From an empty file: positions never move over the run. -/
def FilePositionsHold (tables : UnicodeTables) (room : Nat) (path : String)
    (calls : List FileLogCall) : Prop :=
  KeepsAddresses (FileLogCall.step room path) (fun log => log.position.2)
    (fun log first last limit => log.read tables first (some last) limit) Agrees ⟨{}, {}⟩ calls

/-! ### What a write leaves -/

def lineOf (room : Nat) (o : Observation) : Json :=
  match encodeLine room o with
  | .ok line => line
  | .error _ => .null

variable {room : Nat} {o : Observation}

theorem lineOf_eq {line : Json} (h : encodeLine room o = .ok line) : lineOf room o = line := by
  unfold lineOf
  rw [h]

theorem writeLines_eq_map (fault : Option WriteFault) (observations : List Observation) :
    (writeLines room fault observations).1 =
      (observations.take (writeLines room fault observations).1.length).map (lineOf room) := by
  fun_induction writeLines room fault observations with
  | case1 => rfl
  | case2 => rfl
  | case3 => rfl
  | case4 => rfl
  | case5 fault o rest _ record hencode lines stopped hrest ih =>
    rw [hrest] at ih
    rw [length_cons, take_succ_cons, map_cons, lineOf_eq hencode, ← ih]

theorem leftover_cases (fault : Option TornWrite) (next : Option Observation) :
    (fault.bind fun f => f.leftover.text room next) = none ∨
    (fault.bind fun f => f.leftover.text room next) = some .torn ∨
    ∃ o, next = some o ∧ (fault.bind fun f => f.leftover.text room next) =
      some (.record (lineOf room o)) := by
  rcases fault with _ | ⟨f, leftover⟩
  · exact .inl rfl
  cases next with
  | none => cases leftover <;> exact .inl rfl
  | some o =>
    cases hencode : encodeLine room o with
    | error exc =>
      left
      unfold Leftover.text
      rw [map_some, hencode]
      cases leftover <;> rfl
    | ok record =>
      cases leftover with
      | nothing => exact .inl rfl
      | part =>
        right; left
        show Leftover.text .part room (some o) = _
        unfold Leftover.text
        rw [map_some, hencode]
      | allButNewline =>
        right; right
        refine ⟨o, rfl, ?_⟩
        show Leftover.text .allButNewline room (some o) = _
        unfold Leftover.text
        rw [map_some, hencode, lineOf_eq hencode]

theorem afterWrite_spec {text : FileText} (hclean : text.EndsClean) (fault : Option TornWrite)
    (fresh : List Observation) :
    (text.afterWrite room fault fresh).records =
        text.records ++ (recorded room fault fresh).map (lineOf room) ∧
      (text.afterWrite room fault fresh).whole = text.whole ++
        (writeLines room (fault.map (·.toWriteFault)) fresh).1.map .record := by
  obtain ⟨hends, hwhole⟩ := hclean.write (writeLines room (fault.map (·.toWriteFault)) fresh).1
  have hmap := @writeLines_eq_map room (fault.map (·.toWriteFault)) fresh
  have hwritten : (text.write (writeLines room (fault.map (·.toWriteFault)) fresh).1).whole.filterMap
      Line.json? = text.records ++ (writeLines room (fault.map (·.toWriteFault)) fresh).1 := by
    rw [hwhole, filterMap_append, hclean.records, filterMap_map]
    exact congrArg (_ ++ ·) filterMap_some
  unfold afterWrite recorded
  dsimp only
  generalize (writeLines room (fault.map (·.toWriteFault)) fresh).1 = written at *
  rcases leftover_cases fault fresh[written.length]? with hnone | htorn | ⟨o, hnext, hrecord⟩
  · rw [hnone]
    refine ⟨?_, hwhole⟩
    rw [hends.records, hwritten, ← hmap]
  · rw [htorn]
    dsimp only
    rw [hends.put]
    refine ⟨?_, hwhole⟩
    rw [records_eq]
    show (text.write written).whole.filterMap _ ++ [] = _
    rw [append_nil, hwritten, ← hmap]
  · rw [hrecord]
    dsimp only
    rw [hends.put]
    refine ⟨?_, hwhole⟩
    rw [records_eq]
    show (text.write written).whole.filterMap _ ++ [lineOf room o] = _
    rw [hwritten, take_add_one, hnext, map_append, ← hmap, append_assoc]
    rfl

theorem recorded_subset (fault : Option TornWrite) (fresh : List Observation) :
    recorded room fault fresh ⊆ fresh := by
  unfold recorded
  dsimp only
  split
  · exact take_subset _ _
  · exact take_subset _ _

theorem recorded_of_completed {fault : Option TornWrite} {fresh : List Observation}
    (h : (writeLines room (fault.map (·.toWriteFault)) fresh).2 = none) :
    fault = none ∧ recorded room fault fresh = fresh := by
  obtain ⟨written, -, hlength, -, hall⟩ := writeLines_spec (fault.map (·.toWriteFault)) fresh
  have hnone : fault = none := map_eq_none_iff.mp (writeLines_completes.mp h).1
  rw [hall h] at hlength
  refine ⟨hnone, ?_⟩
  subst hnone
  exact take_of_length_le hlength.ge

theorem afterWrite_of_writesNothing {text : FileText} {fault : Option TornWrite}
    {fresh : List Observation} (h : FileLogCall.WritesNothing fault) :
    text.afterWrite room fault fresh = text ∧ recorded room fault fresh = [] := by
  obtain ⟨message, rfl⟩ := h
  have hnothing : (writeLines room (some ⟨0, message⟩) fresh).1 = [] := by
    cases fresh <;> rfl
  have hleftover : ∀ next, Leftover.text .nothing room next = none := fun _ => rfl
  unfold afterWrite recorded
  simp only [map_some, bind_some, hnothing, hleftover, length_nil,
    take_zero]
  exact ⟨rfl, trivial⟩

/-! ### What debris leaves -/

theorem put_debris (text : FileText) (debris : Debris) :
    (text.put debris.line debris.ended).records.Sublist text.records ∧
      ((text.put debris.line debris.ended).records = text.records →
        text.lead.length ≤ (text.put debris.line debris.ended).lead.length) := by
  have hlines := text.lines_put debris.line debris.ended
  by_cases hrecord : ∃ json, text.last = some (.record json)
  · obtain ⟨json, hlast⟩ := hrecord
    have hbefore : text.lines = text.whole ++ [.record json] := by
      unfold lines
      rw [hlast]
      rfl
    rw [hlast] at hlines
    cases htorn : debris.torn with
    | true =>
      -- The record is spoilt.
      have hspoilt : (text.put debris.line debris.ended).lines = text.whole ++ [.torn] := by
        rw [hlines]
        unfold Debris.line
        rw [htorn]
        rfl
      unfold records
      rw [hspoilt, hbefore, filterMap_append, filterMap_append]
      refine ⟨(append_nil _).symm ▸ sublist_append_left _ _, fun hsame => ?_⟩
      exact absurd (congrArg List.length hsame) (by simp [Line.json?, filterMap_cons])
    | false =>
      have hsame : (text.put debris.line debris.ended).lines = text.lines := by
        rw [hlines, hbefore]
        unfold Debris.line
        rw [htorn]
        rfl
      unfold records lead
      rw [hsame]
      exact ⟨refl _, fun _ => le_refl _⟩
  · have hno : ∀ json, text.last ≠ some (.record json) := fun json h => hrecord ⟨json, h⟩
    have hnone : ((text.last.map (·.join debris.line)).getD debris.line).json? = none := by
      have hdebris : debris.line.json? = none := by
        unfold Debris.line
        split <;> rfl
      rcases hlast : text.last with _ | line
      · exact hdebris
      · cases line with
        | record json => exact absurd hlast (hno json)
        | torn => cases debris.line <;> rfl
        | blank => exact hdebris
    have hbefore : text.records = text.whole.filterMap Line.json? := by
      rw [text.records_eq]
      rcases hlast : text.last with _ | line
      · exact append_nil _
      · cases line with
        | record json => exact absurd hlast (hno json)
        | torn => exact append_nil _
        | blank => exact append_nil _
    have hafter : (text.put debris.line debris.ended).records = text.records := by
      rw [hbefore]
      unfold records
      rw [hlines, filterMap_append, filterMap_cons_none hnone]
      exact append_nil _
    refine ⟨hafter ▸ refl _, fun _ => ?_⟩
    exact lead_le_of_whole_prefix hno ⟨_, hlines.symm⟩

theorem lead_withDebris {text : FileText} {found : List Debris} :
    (text.withDebris found).records.Sublist text.records ∧
      ((text.withDebris found).records = text.records →
        text.lead.length ≤ (text.withDebris found).lead.length) := by
  induction found generalizing text with
  | nil => exact ⟨refl _, fun _ => le_refl _⟩
  | cons debris rest ih =>
    obtain ⟨hrest, hlead⟩ := @ih (text.put debris.line debris.ended)
    obtain ⟨hput, hfirst⟩ := put_debris text debris
    refine ⟨hrest.trans hput, fun hsame => ?_⟩
    -- Nothing was lost in the end, so nothing was lost by the first piece.
    have hkept : (text.put debris.line debris.ended).records = text.records := by
      refine hput.eq_of_length_le ?_
      rw [← hsame]
      exact hrest.length_le
    exact (hfirst hkept).trans (hlead (hsame.trans hkept.symm))

/-! ### The invariant -/

structure FileAligned (tables : UnicodeTables) (room : Nat) (s : Ledgered TextPartition Observation)
    (observations : List Observation) : Prop where
  intact : s.ledger.Intact observations
  records : s.log.text.records = observations.map (lineOf room)
  carried : ∀ o ∈ observations, FileLogCall.Carries tables room o
  index : ∀ index, s.log.index = some index → index.count ≤ observations.length
  marks : ∀ m ∈ s.ledger.marks, m.position = m.entries ∧ m.entries ≤ observations.length
  straight : ∀ m ∈ s.ledger.marks, ∀ m' ∈ s.ledger.marks, m.entries < m'.entries →
    m'.entries ≤ s.log.text.lead.length

def countOf (p : TextPartition) : Nat :=
  match p.index with
  | some index => index.count
  | none => p.text.records.length

variable {tables : UnicodeTables}

theorem lineId_lineOf (h : FileLogCall.Carries tables room o) :
    lineId (lineOf room o) = .ok o.observationId := by
  obtain ⟨record, o', hencode, -⟩ := h.1.roundTrips h.2
  rw [lineOf_eq hencode]
  exact lineId_encode hencode

theorem lineCapture_lineOf
    (h : FileLogCall.Carries tables room o) : lineCapture (lineOf room o) = .ok o.tCapture.ns := by
  obtain ⟨line, o', hencode, -⟩ := h.1.roundTrips h.2
  rw [lineOf_eq hencode]
  obtain ⟨record, hrecord, hline⟩ := bind_eq_ok.mp hencode
  obtain ⟨-, spatial, -, rfl⟩ := encode_eq_ok.mp hrecord
  obtain ⟨-, rfl⟩ := dumps_eq_ok.mp hline
  rfl

theorem decodeLine_lineOf (h : FileLogCall.Carries tables room o) :
    ∃ o', decodeLine tables (.record (lineOf room o)) = .ok (some o') ∧ Agrees o o' := by
  obtain ⟨record, o', hencode, hdecode, hagrees⟩ := h.1.roundTrips h.2
  rw [lineOf_eq hencode]
  exact ⟨o', hdecode, hagrees⟩

namespace FileAligned

variable {tables : UnicodeTables} {s : Ledgered TextPartition Observation}
  {observations : List Observation}

theorem load (h : FileAligned tables room s observations) :
    ∃ index, s.log.load = .ok index ∧ index.count = countOf s.log := by
  unfold TextPartition.load countOf
  cases hindex : s.log.index with
  | some index => exact ⟨index, rfl, rfl⟩
  | none =>
    obtain ⟨ids, hids, -⟩ : ∃ ids, s.log.text.records.mapM lineId = .ok ids ∧ _ := by
      refine mapM_returns (fun line hline => ?_)
      rw [h.records] at hline
      obtain ⟨o, ho, rfl⟩ := mem_map.mp hline
      exact ⟨_, lineId_lineOf (h.carried o ho)⟩
    rw [hids]
    exact ⟨_, rfl, rfl⟩

theorem countOf_le (h : FileAligned tables room s observations) :
    countOf s.log ≤ observations.length := by
  unfold countOf
  cases hindex : s.log.index with
  | some index => exact h.index index hindex
  | none =>
    rw [h.records, length_map]

theorem position (h : FileAligned tables room s observations) :
    s.log.position.2 = .ok (countOf s.log : Int) := by
  obtain ⟨index, hload, hcount⟩ := h.load
  unfold TextPartition.position
  rw [hload, ← hcount]

theorem decoded_of_carried {carried : List Observation}
    (h : ∀ o ∈ carried, FileLogCall.Carries tables room o) :
    ∃ decoded, List.Forall₂ (fun line o => decodeLine tables line = .ok (some o))
      ((carried.map (lineOf room)).map .record) decoded ∧ List.Forall₂ Agrees carried decoded := by
  induction carried with
  | nil => exact ⟨[], .nil, .nil⟩
  | cons o rest ih =>
    obtain ⟨o', hdecode, hagrees⟩ := decodeLine_lineOf (h o mem_cons_self)
    obtain ⟨decoded, hdecoded, hall⟩ := ih (fun x hx => h x (mem_cons_of_mem _ hx))
    exact ⟨o' :: decoded, .cons hdecode hdecoded, .cons hagrees hall⟩

theorem reads (h : FileAligned tables room s observations) :
    ReadsBetween (fun log first last limit => read tables log first (some last) limit)
      Agrees s := by
  intro first hfirst last hlast hle limit
  obtain ⟨hposition, hcount⟩ := h.marks first hfirst
  obtain ⟨hposition', hcount'⟩ := h.marks last hlast
  rw [hposition, hposition'] at hle ⊢
  unfold TextPartition.read
  rw [h.intact.between]
  rcases lt_or_ge first.entries last.entries with hlt | hge
  · have hlead := h.straight first hfirst last hlast hlt
    obtain ⟨rest, hlines⟩ := s.log.text.lines_eq_lead_append
    -- The lines between the positions are those of the observations between them.
    have hslice : (s.log.text.lead.take last.entries).drop first.entries =
        ((observations.take last.entries).drop first.entries).map (lineOf room) := by
      rw [map_drop, map_take, ← h.records,
        prefix_iff_eq_take.mp s.log.text.lead_prefix_records, take_take,
        min_eq_left hlead]
    have hsplit : s.log.text.lines = (s.log.text.lead.take first.entries).map .record ++
        (((s.log.text.lead.take last.entries).drop first.entries).map .record ++
          ((s.log.text.lead.drop last.entries).map .record ++ rest)) := by
      rw [hlines, ← append_assoc, ← append_assoc, ← map_append, ← map_append]
      congr 2
      have htake : s.log.text.lead.take first.entries =
          (s.log.text.lead.take last.entries).take first.entries := by
        rw [take_take, min_eq_left hlt.le]
      rw [htake, take_append_drop, take_append_drop]
    have hlength : (s.log.text.lead.take first.entries).length = first.entries :=
      length_take_of_le (hlt.le.trans hlead)
    have hsliced : ((observations.take last.entries).drop first.entries).length =
        last.entries - first.entries := by
      rw [length_drop, length_take_of_le hcount']
    obtain ⟨decoded, hdecoded, hagrees⟩ := @decoded_of_carried room tables
      ((observations.take last.entries).drop first.entries)
      (fun o ho => h.carried o (take_subset _ _ (drop_subset _ _ ho)))
    refine ⟨decoded.take limit, ?_, List.forall₂_take limit hagrees⟩
    dsimp only
    rw [hsplit, hslice, readLines_skip (by rw [length_map, hlength]; omega),
      readLines_slice (by rw [length_map, hlength]; omega) ?_ hdecoded]
    · rfl
    · rw [length_map, length_map, length_map, hlength, hsliced]
      omega
  · have hsame : (first.entries : Int) = last.entries := by omega
    refine ⟨[], ?_, ?_⟩
    · rw [← hsame]
      exact readLines_nothing _
    · rw [drop_eq_nil_of_le ((length_take_le _ _).trans hge), take_nil]
      exact .nil

theorem grow (h : FileAligned tables room s observations) {text : FileText}
    {added : List Observation} {index : Option FileIndex}
    (hrecords : text.records = s.log.text.records ++ added.map (lineOf room))
    (hlead : s.log.text.lead.length ≤ text.lead.length)
    (hadded : ∀ o ∈ added, FileLogCall.Carries tables room o)
    (hindex : ∀ i, index = some i → i.count ≤ (observations ++ added).length) :
    FileAligned tables room ⟨{ text, index }, s.ledger.append added⟩ (observations ++ added) where
  intact := h.intact.append added
  records := by
    rw [hrecords, h.records, map_append]
  carried o ho := (mem_append.mp ho).elim (h.carried o) (hadded o)
  index := hindex
  marks m hm := by
    obtain ⟨hposition, hle⟩ := h.marks m hm
    refine ⟨hposition, hle.trans ?_⟩
    rw [length_append]
    exact le_add_right _ _
  straight m hm m' hm' hlt := (h.straight m hm m' hm' hlt).trans hlead

theorem mark (h : FileAligned tables room s observations) {position : Int}
    (hposition : position = observations.length)
    (hstraight : ∀ m ∈ s.ledger.marks, m.entries < observations.length →
      observations.length ≤ s.log.text.lead.length) :
    FileAligned tables room { s with ledger := s.ledger.mark position } observations := by
  have hmem : ∀ m, m ∈ (s.ledger.mark position).marks ↔
      m ∈ s.ledger.marks ∨ m = ⟨position, s.ledger.entries.length⟩ := by
    intro m
    show m ∈ s.ledger.marks ++ _ ↔ _
    rw [mem_append, mem_singleton]
  refine ⟨h.intact, h.records, h.carried, h.index, ?_, ?_⟩
  · intro m hm
    rcases (hmem m).mp hm with hm | rfl
    · exact h.marks m hm
    · rw [h.intact.length]
      exact ⟨hposition, le_refl _⟩
  · intro m hm m' hm' hlt
    rcases (hmem m').mp hm' with hold | rfl
    · rcases (hmem m).mp hm with hm | rfl
      · exact h.straight m hm m' hold hlt
      · -- No earlier position counts more records than there are.
        have hcount : s.ledger.entries.length < m'.entries := hlt
        rw [h.intact.length] at hcount
        exact absurd (h.marks m' hold).2 (by omega)
    · rw [h.intact.length] at hlt ⊢
      rcases (hmem m).mp hm with hm | rfl
      · exact hstraight m hm hlt
      · exact absurd hlt (by rw [h.intact.length]; omega)

theorem afterWrite (h : FileAligned tables room s observations) {fault : Option TornWrite}
    {fresh : List Observation}
    (hwrite : ¬ FileLogCall.WritesNothing fault →
      s.log.text.EndsClean ∧ ∀ o ∈ fresh, FileLogCall.Carries tables room o) {index : Option FileIndex}
    (hindex : ∀ i, index = some i → i.count ≤ (observations ++ recorded room fault fresh).length) :
    FileAligned tables room ⟨{ text := s.log.text.afterWrite room fault fresh, index },
      s.ledger.append (recorded room fault fresh)⟩ (observations ++ recorded room fault fresh) := by
  by_cases hnothing : FileLogCall.WritesNothing fault
  · obtain ⟨htext, hrecorded⟩ :=
      @afterWrite_of_writesNothing room s.log.text fault fresh hnothing
    rw [hrecorded] at hindex ⊢
    rw [htext]
    exact h.grow (append_nil _).symm (le_refl _) (fun _ ho => by cases ho) hindex
  · obtain ⟨hclean, hcarried⟩ := hwrite hnothing
    obtain ⟨hrecords, hwhole⟩ := afterWrite_spec hclean fault fresh
    refine h.grow hrecords ?_ (fun o ho => hcarried o (recorded_subset _ _ ho)) hindex
    refine lead_le_of_whole_prefix (fun json hlast => ?_) ?_
    · cases hclean _ hlast
    · unfold lines
      rw [hwhole, append_assoc]
      exact prefix_append _ _

theorem append (h : FileAligned tables room s observations) (path : String)
    {fault : Option TornWrite} {batch : List Observation}
    (hcall : FileLogCall.KeepsLines tables room s (.append fault batch)) :
    (∃ observations', FileAligned tables room (FileLogCall.step room path s (.append fault batch))
      observations') ∧
      countOf s.log ≤ countOf (FileLogCall.step room path s (.append fault batch)).log := by
  obtain ⟨index, hload, hcount⟩ := h.load
  obtain ⟨hwrite, hreturns⟩ := hcall index hload
  have hle := h.countOf_le
  unfold FileLogCall.step
  dsimp only
  rw [hload]
  rcases append_cases hload room path fault batch with
    ⟨hnil, result, happend, hresult⟩ | ⟨hne, hstopped, exc, happend⟩ |
    ⟨hne, hdone, seen, result, happend, hresult⟩
  · -- Nothing is new.
    obtain ⟨hall, hmarks⟩ := hreturns (.inr hnil)
    rw [h.records, length_map] at hall
    rw [happend]
    dsimp only
    rw [hnil]
    have hrecorded : recorded room fault [] = [] :=
      subset_nil.mp (recorded_subset fault [])
    rw [hrecorded]
    refine ⟨⟨_, FileAligned.mark (h.grow (append_nil _).symm (le_refl _)
      (fun _ ho => by cases ho) ?_) ?_ ?_⟩, hcount.ge⟩
    · intro i hi
      cases hi
      rw [append_nil, ← hall]
    · rw [hresult, hall, append_nil]
    · intro m hm hlt
      rw [append_nil] at hlt ⊢
      have hposition := (h.marks m hm).1
      rw [lead_eq_records (hmarks m hm (by rw [hnil, hposition, hall]; simpa using hlt)),
        h.records, length_map]
  · -- The write stopped: no position is handed out.
    rw [happend]
    refine ⟨⟨_, h.afterWrite (hwrite hne) ?_⟩, hcount.ge⟩
    intro i hi
    cases hi
    rw [length_append]
    omega
  · obtain ⟨hnone, hrecorded⟩ := recorded_of_completed hdone
    obtain ⟨hall, hmarks⟩ := hreturns (.inl hnone)
    rw [h.records, length_map] at hall
    have hwrites : ¬ FileLogCall.WritesNothing fault := by
      rintro ⟨message, hfault⟩
      rw [hnone] at hfault
      cases hfault
    rw [happend]
    dsimp only
    have hgrown := @afterWrite room tables s observations h fault _ (hwrite hne)
      (some { seen, count := index.count + (FilePartition.fresh index batch).length }) ?_
    · rw [hrecorded] at hgrown ⊢
      refine ⟨⟨_, hgrown.mark ?_ ?_⟩, ?_⟩
      · rw [hresult, hall, length_append, cast_add]
      · intro m hm hlt
        rw [length_append] at hlt
        have hposition := (h.marks m hm).1
        have hrecords := hmarks m hm (by rw [hposition, hall]; exact_mod_cast hlt)
        -- The lines written are records too.
        have hrecords' : (s.log.text.afterWrite room fault
            (FilePartition.fresh index batch)).AllRecords := by
          intro line hline
          rw [(afterWrite_spec (hwrite hne hwrites).1 fault _).2, mem_append] at hline
          rcases hline with hline | hline
          · exact hrecords line hline
          · obtain ⟨json, -, rfl⟩ := mem_map.mp hline
            rfl
        rw [lead_eq_records hrecords', hgrown.records, length_map]
      · show countOf s.log ≤ index.count + _
        omega
    · intro i hi
      cases hi
      rw [hrecorded, length_append, hall]

theorem truncate (h : FileAligned tables room s observations) (path : String) {before : Instant}
    (hcall : FileLogCall.KeepsLines tables room s (.truncate before)) :
    FileLogCall.step room path s (.truncate before) = s := by
  have hyoung : ∀ json ∈ s.log.text.lines.filterMap Line.json?,
      ∃ t, lineCapture json = .ok t ∧ before.ns ≤ t := by
    intro json hjson
    have hmem : json ∈ observations.map (lineOf room) := h.records ▸ hjson
    obtain ⟨o, ho, rfl⟩ := mem_map.mp hmem
    have hcapture := lineCapture_lineOf (h.carried o ho)
    exact ⟨_, hcapture, hcall _ hjson _ hcapture⟩
  obtain ⟨kept, hsweep⟩ := sweepLines_removes_nothing hyoung
  have hledger : s.ledger.remove (fun o => o.tCapture.ns < before.ns) = s.ledger := by
    apply remove_eq_self
    rw [h.intact]
    intro entry hentry
    obtain ⟨o, ho, rfl⟩ := mem_map.mp hentry
    have hmem : lineOf room o ∈ s.log.text.records := h.records ▸ mem_map_of_mem ho
    have := hcall _ hmem _ (lineCapture_lineOf (h.carried o ho))
    show decide (o.tCapture.ns < before.ns) = false
    rw [decide_eq_false_iff_not]
    omega
  have htruncate : s.log.truncate before = (s.log, .ok 0) := by
    unfold TextPartition.truncate
    rw [hsweep]
    exact if_pos rfl
  unfold FileLogCall.step
  dsimp only
  rw [htruncate]
  rw [hledger]

theorem reload (h : FileAligned tables room s observations) (path : String) {found : List Debris}
    (hcall : FileLogCall.KeepsLines tables room s (.reload found)) :
    FileAligned tables room (FileLogCall.step room path s (.reload found)) observations where
  intact := h.intact
  records := Eq.trans hcall h.records
  carried := h.carried
  index _ hindex := by cases hindex
  marks := h.marks
  straight m hm m' hm' hlt :=
    (h.straight m hm m' hm' hlt).trans (lead_withDebris.2 hcall)

/-- A call that keeps the lines keeps the partition aligned and does not take its position
    down. -/
theorem step (h : FileAligned tables room s observations) (path : String) {call : FileLogCall}
    (hcall : call.KeepsLines tables room s) :
    (∃ observations', FileAligned tables room (call.step room path s) observations') ∧
      countOf s.log ≤ countOf (call.step room path s).log := by
  cases call with
  | append fault batch => exact h.append path hcall
  | truncate before =>
    rw [h.truncate path hcall]
    exact ⟨⟨_, h⟩, le_refl _⟩
  | reload found =>
    have hreloaded := h.reload path hcall
    refine ⟨⟨_, hreloaded⟩, h.countOf_le.trans ?_⟩
    show _ ≤ (s.log.text.withDebris found).records.length
    rw [hcall, h.records, length_map]

end FileAligned

/-! ## Whole runs -/

/-- Positions never move, in the log in memory exactly when no call of the run removes a
    record, and in the log in a file when every call leaves each record on its line. -/
theorem log_positions_hold (tables : UnicodeTables) (room : Nat) (path : String) :
    (∀ calls, MemoryPositionsHold calls ↔
      Runs.Always LogCall.step LogCall.RemovesNothing ⟨.empty, {}⟩ calls) ∧
    (∀ calls, Runs.Always (FileLogCall.step room path) (FileLogCall.KeepsLines tables room) ⟨{}, {}⟩ calls →
      FilePositionsHold tables room path calls) := by
  refine ⟨memoryPositionsHold_iff, fun calls halways => ?_⟩
  have hstart : FileAligned tables room ⟨{}, {}⟩ [] :=
    ⟨rfl, rfl, fun _ ho => (by cases ho), fun _ h => (by cases h), fun _ hm => (by cases hm),
      fun _ hm => (by cases hm)⟩
  exact @keepsAddresses_of_always _ _ _ _ _ _ _ _ _
    (fun s => ∃ observations, FileAligned tables room s observations) (FileLogCall.KeepsLines tables room)
    (fun s => countOf s.log) (fun _ ⟨_, h⟩ => h.position) (fun _ ⟨_, h⟩ => h.reads)
    (fun _ _ ⟨_, h⟩ hcall => (h.step path hcall).1)
    (fun _ _ ⟨_, h⟩ hcall => by exact_mod_cast (h.step path hcall).2) _ ⟨[], hstart⟩ _ halways

theorem carries_blindnessReport {observationId : ObservationId}
    {cameraId : CameraId} {since : Instant} (hroom : 2 ≤ room) (hid : observationId ≠ "")
    (hsince : (PyValue.int since.ns).printable = true) (hcamera : '/' ∉ cameraId.toList) :
    FileLogCall.Carries tables room (blindnessReport observationId cameraId since hid) := by
  refine ⟨?_, fun a ha => (by cases ha)⟩
  exact {
    encodable := encodable_blindnessReport hroom hid hsince
    identity := fun h => (by cases h)
    quality := fun h => (by cases h)
    frameRef := frameTextReads_of_no_slash hcamera
    ground := fun s hs => (by cases hs)
    calibration := fun s hs => (by cases hs)
    window := fun w hw => (by cases hw; exact fun h => by cases h)
    object := fun h => (by cases h)
    class_ := fun h => (by cases h)
    supersedes := fun h => (by cases h)
    model := fun h => (by cases h)
    adapterId := rfl
    adapterVersion := rfl
    modelVersion := rfl
    deterministic := rfl }

/-- Two appends with a reload between them keep their addresses. -/
theorem two_appends_hold :
    FilePositionsHold .ascii 900 "north.jsonl"
      [.append none [blindnessReport "first" "north" ⟨0⟩ (by decide)], .reload [],
        .append none [blindnessReport "second" "north" ⟨1⟩ (by decide)]] := by
  refine (log_positions_hold .ascii 900 "north.jsonl").2 _ ⟨?_, rfl, ?_, trivial⟩
  · intro index hload
    cases hload
    refine ⟨fun _ _ => ⟨fun _ h => (by cases h), fun o ho => ?_⟩,
      fun _ => ⟨rfl, fun m hm => (by cases hm)⟩⟩
    rw [mem_singleton.mp ho]
    exact carries_blindnessReport (by decide) _ PyValue.printable_zero (by decide)
  · intro index hload
    obtain ⟨ids, -, hids⟩ := bind_eq_ok.mp hload
    cases hids
    refine ⟨fun _ _ => ⟨fun line h => ?_, fun o ho => ?_⟩, fun _ => ⟨rfl, fun m _ _ => ?_⟩⟩
    · -- The first append ended its line.
      refine absurd (isSome_iff_exists.mpr ⟨line, h⟩) ?_
      decide +kernel
    · rw [mem_singleton.mp (mem_of_mem_filter ho)]
      exact carries_blindnessReport (by decide) _ (by decide +kernel) (by decide)
    · unfold AllRecords
      decide +kernel

/-- Retention takes the position of the log in memory from 1 to 0; a blank line makes the
    file give nothing between the positions 0 and 1. -/
theorem positions_move :
    ¬ MemoryPositionsHold
        [.append [blindnessReport "first" "north" ⟨0⟩ (by decide)], .truncate ⟨1⟩] ∧
      ¬ FilePositionsHold .ascii 900 "north.jsonl"
        [.reload [⟨false, true⟩], .append none [],
          .append none [blindnessReport "first" "north" ⟨0⟩ (by decide)]] := by
  constructor
  · intro h
    have := (memoryPositionsHold_iff _).mp h
    exact absurd (this.2.1 _ rfl) (by decide)
  · intro h
    have hread := h.reads _ prefix_rfl
    obtain ⟨records, hrecords, hsame⟩ := hread ⟨0, 0⟩ (by decide +kernel) ⟨1, 1⟩
      (by decide +kernel) (by decide) 1
    have hnone : (Except.ok records : Raises (List Observation)).toOption.map length = some 0 := by
      rw [← hrecords]
      decide +kernel
    rw [length_eq_zero_iff.mp (some.inj hnone)] at hsame
    exact absurd hsame.length_eq (by decide +kernel)

end VisionOs.Synthesis
