/-
  `FileObservationLog` over the text of its files.  A line may be torn or blank, and what is
  written after a text without a last newline continues its line.  `_load` counts the records
  while `read` numbers all of the lines.  Id sets and positions are kept by camera id, files by a
  name made from it.
-/
import VisionOs.Synthesis.FileLog

namespace VisionOs.Synthesis

open Core Lib List Function FilePartition Noninterference

inductive Line where
  | record (json : Json)
  | torn
  | blank

/-- A line and the text that follows it without a newline between them.  The start of a
    record followed by more text is no JSON document. -/
def Line.join : Line → Line → Line
  | .blank, line => line
  | line, .blank => line
  | _, _ => .torn

def Line.json? : Line → Option Json
  | .record json => some json
  | _ => none

@[simp] theorem filterMap_record (json : Json) (rest : List Line) :
    (Line.record json :: rest).filterMap Line.json? = json :: rest.filterMap Line.json? := rfl

structure FileText where
  whole : List Line := []
  last : Option Line := none

namespace FileText

/-- `for line in handle`. -/
def lines (text : FileText) : List Line := text.whole ++ text.last.toList

def records (text : FileText) : List Json := text.lines.filterMap Line.json?

def put (text : FileText) (line : Line) (ended : Bool) : FileText :=
  let line := (text.last.map (·.join line)).getD line
  if ended then { whole := text.whole ++ [line], last := none }
  else { text with last := some line }

def write (text : FileText) : List Json → FileText
  | [] => text
  | json :: rest => (text.put (.record json) true).write rest

end FileText

/-- What a failed write leaves of the record after its last whole line. -/
inductive Leftover where
  | nothing
  | part
  | allButNewline

structure TornWrite extends WriteFault where
  leftover : Leftover := .nothing

/-- The text a failed write leaves behind its whole lines. -/
def Leftover.text (leftover : Leftover) (room : Nat) (next : Option Observation) :
    Option Line :=
  match leftover, next.map (encodeLine room) with
  | .part, some (.ok _) => some .torn
  | .allButNewline, some (.ok line) => some (.record line)
  | _, _ => none

def FileText.afterWrite (text : FileText) (room : Nat) (fault : Option TornWrite)
    (fresh : List Observation) : FileText :=
  let written := (writeLines room (fault.map (·.toWriteFault)) fresh).1
  let leftover := fault.bind fun f => f.leftover.text room fresh[written.length]?
  match leftover with
  | some line => (text.write written).put line false
  | none => text.write written

def lineCapture (json : Json) : Raises Int := do
  asInt (← getOr (loads json) "t_capture_ns" (.int 0))

/-- `truncate`'s loop: the lines it keeps, and how many records it leaves out. -/
def sweepLines (before : Instant) : List Line → Raises (List Json × Nat)
  | [] => .ok ([], 0)
  | .record json :: rest => do
    let tCapture ← lineCapture json
    let (kept, removed) ← sweepLines before rest
    return if tCapture < before.ns then (kept, removed + 1) else (json :: kept, removed)
  | _ :: rest => sweepLines before rest

def decodeLine (tables : UnicodeTables) : Line → Raises (Option Observation)
  | .record json => decodeObservation tables json
  | _ => .ok none

def readLines (tables : UnicodeTables) (start : Int) (finish : Option Int) (limit : Nat) :
    Int → List Line → List Observation → Raises (List Observation)
  | _, [], out => .ok out
  | index, line :: rest, out =>
    if index < start then readLines tables start finish limit (index + 1) rest out
    else if finish.any (· ≤ index) then .ok out
    else if limit ≤ out.length then .ok out
    else do
      let decoded ← decodeLine tables line
      readLines tables start finish limit (index + 1) rest (out ++ decoded.toList)

structure TextPartition where
  text : FileText := {}
  index : Option FileIndex := none

namespace TextPartition

/-- `_load(partition)`. -/
def load (p : TextPartition) : Raises FileIndex :=
  match p.index with
  | some index => .ok index
  | none => do
    let ids ← p.text.records.mapM lineId
    return { seen := ids, count := p.text.records.length }

/-- `position(partition)`. -/
def position (p : TextPartition) : TextPartition × Raises Int :=
  match p.load with
  | .error exc => (p, .error exc)
  | .ok index => ({ p with index := some index }, .ok index.count)

/-- `append(partition, observations)`, with the failure its write meets. -/
def append (room : Nat) (path : String) (fault : Option TornWrite) (observations : List Observation)
    (p : TextPartition) : TextPartition × Raises LogAppendResult :=
  match p.load with
  | .error exc => (p, .error exc)
  | .ok index =>
    let fresh := fresh index observations
    let duplicates :=
      (observations.filter (fun o => o.observationId ∈ index.seen)).map (·.observationId)
    if fresh.isEmpty then
      ({ p with index := some index },
        .ok { position := index.count, appended := fresh.length, duplicates })
    else
      let text := p.text.afterWrite room fault fresh
      match (writeLines room (fault.map (·.toWriteFault)) fresh).2 with
      | some (.osError message) =>
        ({ text, index := some index },
          .error (.logUnavailableError
            ([.text s!"cannot append to the observation log at {path}: "] ++ message)))
      | some exc => ({ text, index := some index }, .error exc)
      | none =>
        ({ text
           index := some {
             seen := index.seen ++ fresh.map (·.observationId)
             count := index.count + fresh.length } },
          .ok { position := index.count + fresh.length, appended := fresh.length, duplicates })

def read (tables : UnicodeTables) (p : TextPartition) (start : Int) (finish : Option Int)
    (limit : Nat) : Raises (List Observation) :=
  readLines tables start finish limit 0 p.text.lines []

/-- `truncate(partition, before)`. -/
def truncate (before : Instant) (p : TextPartition) : TextPartition × Raises Nat :=
  match sweepLines before p.text.lines with
  | .error exc => (p, .error exc)
  | .ok (kept, removed) =>
    if removed = 0 then (p, .ok 0)
    else ({ text := { whole := kept.map .record }, index := none }, .ok removed)

end TextPartition

/-! ## The records a text starts with -/

namespace FileText

def lead (text : FileText) : List Json :=
  (text.lines.takeWhile (·.json?.isSome)).filterMap Line.json?

/-- Every whole line is a record. -/
def AllRecords (text : FileText) : Prop := ∀ line ∈ text.whole, line.json?.isSome

/-- No record, and no part of one, stands behind the last newline. -/
def EndsClean (text : FileText) : Prop := ∀ line, text.last = some line → line = .blank

theorem records_eq (text : FileText) :
    text.records = text.whole.filterMap Line.json? ++ text.last.toList.filterMap Line.json? := by
  unfold records lines
  rw [filterMap_append]

theorem takeWhile_eq_map (lines : List Line) :
    lines.takeWhile (·.json?.isSome) =
      ((lines.takeWhile (·.json?.isSome)).filterMap Line.json?).map .record := by
  induction lines with
  | nil => rfl
  | cons line rest ih =>
    cases line with
    | record json =>
      rw [takeWhile_cons_of_pos rfl, filterMap_record, map_cons, ← ih]
    | torn => rfl
    | blank => rfl

theorem lines_eq_lead_append (text : FileText) :
    ∃ rest, text.lines = text.lead.map .record ++ rest := by
  refine ⟨text.lines.dropWhile (·.json?.isSome), ?_⟩
  unfold lead
  rw [← takeWhile_eq_map, takeWhile_append_dropWhile]

theorem lead_prefix_records (text : FileText) : text.lead <+: text.records := by
  obtain ⟨rest, hrest⟩ := text.lines_eq_lead_append
  refine ⟨rest.filterMap Line.json?, ?_⟩
  unfold records
  rw [hrest, filterMap_append, filterMap_map]
  exact congrArg (· ++ _) filterMap_some.symm

variable {text : FileText}

theorem lead_eq_records (h : text.AllRecords) : text.lead = text.records := by
  unfold lead records lines
  rw [takeWhile_append_of_pos h, filterMap_append, filterMap_append]
  congr 1
  rcases text.last with _ | line
  · rfl
  · cases line <;> rfl

variable {text' : FileText}

theorem lead_le_of_prefix (h : text.lines <+: text'.lines) :
    text.lead.length ≤ text'.lead.length := by
  obtain ⟨rest, hrest⟩ := h
  unfold lead
  rw [← hrest]
  refine List.Sublist.length_le (List.Sublist.filterMap _ ?_)
  rw [takeWhile_append]
  split
  · -- All the lines of the text are records.
    rename_i hall
    rw [( takeWhile_prefix _).eq_of_length hall]
    exact sublist_append_left _ _
  · exact List.Sublist.refl _

theorem lead_le_of_whole_prefix
    (hlast : ∀ json, text.last ≠ some (.record json)) (h : text.whole <+: text'.lines) :
    text.lead.length ≤ text'.lead.length := by
  have hsame : text.lead = ({ whole := text.whole } : FileText).lead := by
    unfold lead lines
    rw [takeWhile_append, takeWhile_append]
    split
    · cases hline : text.last with
      | none => rfl
      | some line =>
        cases line with
        | record json => exact absurd hline (hlast json)
        | torn => rfl
        | blank => rfl
    · rfl
  rw [hsame]
  refine lead_le_of_prefix ?_
  show text.whole ++ [] <+: _
  rw [append_nil]
  exact h

theorem lines_put (text : FileText) (line : Line) (ended : Bool) :
    (text.put line ended).lines = text.whole ++ [(text.last.map (·.join line)).getD line] := by
  cases ended
  · rfl
  · exact append_nil _

theorem EndsClean.put (h : text.EndsClean) (line : Line) (ended : Bool) :
    text.put line ended = if ended then { whole := text.whole ++ [line], last := none }
      else { text with last := some line } := by
  have hline : (text.last.map (·.join line)).getD line = line := by
    cases hlast : text.last with
    | none => rfl
    | some last => rw [h last hlast]; rfl
  unfold FileText.put
  rw [hline]

theorem EndsClean.records (h : text.EndsClean) :
    text.records = text.whole.filterMap Line.json? := by
  rw [records_eq]
  cases hlast : text.last with
  | none => exact append_nil _
  | some last =>
    rw [h last hlast]
    exact append_nil _

theorem EndsClean.write (h : text.EndsClean) (records : List Json) :
    (text.write records).EndsClean ∧
      (text.write records).whole = text.whole ++ records.map .record := by
  induction records generalizing text with
  | nil => exact ⟨h, (append_nil _).symm⟩
  | cons json rest ih =>
    have hput : (text.put (.record json) true).EndsClean := by
      rw [h.put]
      exact fun _ hlast => by cases hlast
    obtain ⟨hends, hwhole⟩ := ih hput
    refine ⟨hends, hwhole.trans ?_⟩
    rw [h.put, map_cons]
    exact append_assoc _ _ _

end FileText

/-! ## Reading -/

variable {tables : UnicodeTables} {limit : Nat} {out : List Observation} {start index : Int}

theorem readLines_skip {finish : Option Int} {skipped rest : List Line}
    (h : index + skipped.length ≤ start) :
    readLines tables start finish limit index (skipped ++ rest) out =
      readLines tables start finish limit (index + skipped.length) rest out := by
  induction skipped generalizing index with
  | nil => rw [length_nil, Int.natCast_zero, Int.add_zero]; rfl
  | cons line more ih =>
    rw [length_cons] at h ⊢
    have hbefore : index < start := by omega
    show readLines tables start finish limit index (line :: (more ++ rest)) out = _
    rw [readLines, if_pos hbefore, ih (by omega)]
    congr 1
    omega

theorem readLines_slice {finish : Int}
    {lines rest : List Line} {decoded : List Observation} (hstart : start ≤ index)
    (hfinish : index + lines.length = finish)
    (hdecoded : List.Forall₂ (fun line o => decodeLine tables line = .ok (some o)) lines decoded) :
    readLines tables start (some finish) limit index (lines ++ rest) out =
      .ok (out ++ decoded.take (limit - out.length)) := by
  induction hdecoded generalizing index out with
  | nil =>
    have hat : index = finish := by simpa using hfinish
    cases rest with
    | nil => simp [readLines]
    | cons line rest =>
      rw [nil_append, readLines, if_neg (by omega), if_pos (by simp [hat])]
      simp
  | @cons line o lines decoded hline _ ih =>
    rw [length_cons] at hfinish
    rw [cons_append, readLines, if_neg (by omega), if_neg (by simp; omega)]
    by_cases hfull : limit ≤ out.length
    · rw [if_pos hfull, Nat.sub_eq_zero_of_le hfull, take_zero, append_nil]
    · rw [if_neg hfull, hline]
      show readLines tables start (some finish) limit (index + 1) (lines ++ rest) (out ++ [o]) = _
      rw [ih (by omega) (by omega), append_assoc, length_append, length_singleton]
      have hroom : limit - out.length = (limit - (out.length + 1)) + 1 := by omega
      rw [hroom, take_succ_cons]
      rfl

theorem readLines_nothing (lines : List Line) :
    readLines tables start (some start) limit index lines [] = .ok [] := by
  induction lines generalizing index with
  | nil => rfl
  | cons line rest ih =>
    rw [readLines]
    by_cases hbefore : index < start
    · rw [if_pos hbefore, ih]
    · rw [if_neg hbefore, if_pos (by simp; omega)]

theorem sweepLines_removes_nothing {before : Instant} {lines : List Line}
    (h : ∀ json ∈ lines.filterMap Line.json?,
      ∃ t, lineCapture json = .ok t ∧ before.ns ≤ t) :
    ∃ kept, sweepLines before lines = .ok (kept, 0) := by
  induction lines with
  | nil => exact ⟨[], rfl⟩
  | cons line rest ih =>
    cases line with
    | record json =>
      rw [filterMap_record, forall_mem_cons] at h
      obtain ⟨⟨t, hcapture, hle⟩, hrest⟩ := h
      obtain ⟨kept, hkept⟩ := ih hrest
      refine ⟨json :: kept, ?_⟩
      rw [sweepLines, hcapture, hkept]
      show Except.ok (if t < before.ns then (kept, 0 + 1) else (json :: kept, 0)) = _
      rw [if_neg (by omega)]
    | torn => exact ih h
    | blank => exact ih h

/-- What an append does, once the partition is loaded: nothing new, and the position as it
    was; a write that stopped, and the index as it was; or every new record written. -/
theorem TextPartition.append_cases {p : TextPartition} {index : FileIndex}
    (hload : p.load = .ok index) (room : Nat) (path : String) (fault : Option TornWrite)
    (observations : List Observation) :
    (fresh index observations = [] ∧ ∃ result,
      p.append room path fault observations = ({ p with index := some index }, .ok result) ∧
      result.position = index.count) ∨
    (fresh index observations ≠ [] ∧
      (writeLines room (fault.map (·.toWriteFault)) (fresh index observations)).2 ≠
        none ∧ ∃ exc, p.append room path fault observations =
        ({ text := p.text.afterWrite room fault (fresh index observations)
           index := some index }, .error exc)) ∨
    (fresh index observations ≠ [] ∧
      (writeLines room (fault.map (·.toWriteFault)) (fresh index observations)).2 =
        none ∧ ∃ seen result, p.append room path fault observations =
        ({ text := p.text.afterWrite room fault (fresh index observations)
           index := some {
            seen
            count := index.count + (fresh index observations).length } },
          .ok result) ∧
        result.position = index.count + (fresh index observations).length) := by
  unfold TextPartition.append
  rw [hload]
  dsimp only
  split
  · rename_i hnil
    exact .inl ⟨isEmpty_iff.mp hnil, _, rfl, rfl⟩
  rename_i hnil
  have hne : fresh index observations ≠ [] :=
    fun h => hnil (isEmpty_iff.mpr h)
  split <;> rename_i hwrite <;> rw [hwrite]
  · exact .inr (.inl ⟨hne, (by simp), _, rfl⟩)
  · exact .inr (.inl ⟨hne, (by simp), _, rfl⟩)
  · exact .inr (.inr ⟨hne, rfl, _, _, rfl, rfl⟩)

/-- The interpreter's table behind `str.isalnum`, of one character. -/
structure AlnumTable where
  isAlnum : Char → Bool
  ascii : ∀ c : Char, c.toNat < 128 → isAlnum c = c.isAlphanum

def AlnumTable.ofAscii : AlnumTable where
  isAlnum := Char.isAlphanum
  ascii _ _ := rfl

/-- `"".join(c if c.isalnum() or c in "-_" else "_" for c in str(partition))`. -/
def safeName (table : AlnumTable) (partition : CameraId) : String :=
  String.ofList (partition.toList.map fun c =>
    if table.isAlnum c || c = '-' || c = '_' then c else '_')

def pathOf (table : AlnumTable) (root : String) (partition : CameraId) : String :=
  root ++ "/" ++ safeName table partition ++ ".jsonl"

theorem pathOf_inj {table : AlnumTable} {root : String} {a b : CameraId} :
    pathOf table root a = pathOf table root b ↔ safeName table a = safeName table b := by
  unfold pathOf
  refine ⟨fun h => ?_, fun h => by rw [h]⟩
  have hlist := congrArg String.toList h
  simp only [String.toList_append] at hlist
  exact String.toList_inj.mp (append_cancel_left (append_cancel_right hlist))

structure FileLog where
  files : String → FileText
  index : CameraId → Option FileIndex

inductive PartitionCall where
  | append (fault : Option TornWrite) (observations : List Observation)
  | read (start : Int) (finish : Option Int) (limit : Nat)
  | position
  | truncate (before : Instant)

inductive PartitionAnswer where
  | appended (result : Raises LogAppendResult)
  | records (result : Raises (List Observation))
  | position (result : Raises Int)
  | removed (result : Raises Nat)

def PartitionCall.answer (tables : UnicodeTables) (room : Nat) (path : String)
    (p : TextPartition) : PartitionCall → TextPartition × PartitionAnswer
  | .append fault observations =>
    let (p', result) := p.append room path fault observations
    (p', .appended result)
  | .read start finish limit => (p, .records (p.read tables start finish limit))
  | .position =>
    let (p', result) := p.position
    (p', .position result)
  | .truncate before =>
    let (p', result) := p.truncate before
    (p', .removed result)

namespace FileLog

variable (tables : UnicodeTables) (room : Nat) (table : AlnumTable) (root : String)

/-- The partition of a camera: its file, and what is loaded under its id. -/
def partition (log : FileLog) (camera : CameraId) : TextPartition where
  text := log.files (pathOf table root camera)
  index := log.index camera

def call (log : FileLog) (camera : CameraId) (request : PartitionCall) :
    FileLog × PartitionAnswer :=
  let path := pathOf table root camera
  let (p, answer) := request.answer tables room path (log.partition table root camera)
  ({ files := Function.update log.files path p.text
     index := Function.update log.index camera p.index }, answer)

/-- Whatever the log holds and however calls on the two partitions alternate, each camera
    sees what it would see without the other's calls. -/
def Independent (a b : CameraId) : Prop :=
  ∀ log calls, (∀ request ∈ calls, request.1 = a ∨ request.1 = b) →
    Noninterference.Undisturbed (call tables room table root) a log calls ∧
    Noninterference.Undisturbed (call tables room table root) b log calls

variable {tables room table root}

theorem partition_call_self (log : FileLog) (camera : CameraId) (request : PartitionCall) :
    (log.call tables room table root camera request).1.partition table root camera =
      (request.answer tables room (pathOf table root camera)
        (log.partition table root camera)).1 := by
  unfold call partition
  dsimp only
  rw [update_self, update_self]

theorem partition_call_of_ne {log : FileLog} {camera other : CameraId}
    (hpath : pathOf table root camera ≠ pathOf table root other) (hne : camera ≠ other)
    (request : PartitionCall) :
    (log.call tables room table root other request).1.partition table root camera =
      log.partition table root camera := by
  unfold call partition
  dsimp only
  rw [update_of_ne hpath, update_of_ne hne]

variable {a b : CameraId}

theorem undisturbed_of_path_ne (hpath : pathOf table root a ≠ pathOf table root b)
    {calls : List (CameraId × PartitionCall)}
    (hcalls : ∀ request ∈ calls, request.1 = a ∨ request.1 = b) (log : FileLog) :
    Noninterference.Undisturbed (call tables room table root) a log calls := by
  refine undisturbed_of_view (fun log => log.partition table root a)
    (fun s s' request hview => ⟨?_, ?_⟩) (fun s request hrequest hother => ?_) log
  · unfold call
    rw [hview]
  · rw [partition_call_self, partition_call_self, hview]
  · have hb : request.1 = b := (hcalls request hrequest).resolve_left hother
    refine partition_call_of_ne ?_ (Ne.symm hother) _
    rw [hb]
    exact hpath

/-- A log whose every file holds one record, captured at instant 0. -/
def oneRecord : FileLog where
  files _ := { whole := [.record (.object [("observation_id", .string "observation"),
    ("t_capture_ns", .int 0)])] }
  index _ := none

theorem not_independent_of_path_eq (hne : a ≠ b)
    (hpath : pathOf table root a = pathOf table root b) :
    ¬ Independent tables room table root a b := by
  intro h
  have hseen := (h oneRecord [(a, .truncate ⟨1⟩), (b, .position)] (by simp)).2
  have halone : observed (call tables room table root) b oneRecord [(b, .position)] =
      [.position (.ok 1)] := by
    simp only [observed, if_true]
    rfl
  -- Retention of `a` empties the file that both share.
  have hafter : ((oneRecord.call tables room table root a (.truncate ⟨1⟩)).1.partition
      table root b) = {} := by
    unfold call partition
    dsimp only
    rw [← hpath, update_self, update_of_ne (Ne.symm hne)]
    rfl
  have hboth : observed (call tables room table root) b oneRecord
      [(a, .truncate ⟨1⟩), (b, .position)] = [.position (.ok 0)] := by
    simp only [observed, hne, if_false, if_true]
    unfold call at hafter ⊢
    rw [hafter]
    rfl
  unfold Noninterference.Undisturbed at hseen
  rw [hboth] at hseen
  have hfilter : [(a, PartitionCall.truncate ⟨1⟩), (b, .position)].filter
      (fun request => request.1 = b) = [(b, .position)] := by
    rw [filter_cons_of_neg (by simpa using hne), filter_cons_of_pos (by simp)]
    rfl
  rw [hfilter, halone] at hseen
  cases hseen

/-- Two cameras are independent exactly when their ids are made into different file names. -/
theorem independent_iff {a b : CameraId} (hne : a ≠ b) :
    Independent tables room table root a b ↔ safeName table a ≠ safeName table b := by
  constructor
  · intro h hname
    exact not_independent_of_path_eq hne (pathOf_inj.mpr hname) h
  · intro hname log calls hcalls
    have hpath : pathOf table root a ≠ pathOf table root b := fun h => hname (pathOf_inj.mp h)
    exact ⟨undisturbed_of_path_ne hpath hcalls log,
      undisturbed_of_path_ne (Ne.symm hpath) (fun request h => (hcalls request h).symm) log⟩

/-- The cameras "north" and "south" are independent. -/
theorem north_south_independent : Independent .ascii 900 .ofAscii "log" "north" "south" :=
  (independent_iff (by decide)).mpr (by decide)

/-- The cameras "cam/1" and "cam_1" share a file. -/
theorem slash_and_underscore_share :
    "cam/1" ≠ "cam_1" ∧ ¬ Independent .ascii 900 .ofAscii "log" "cam/1" "cam_1" :=
  ⟨by decide, not_independent_of_path_eq (by decide) (by decide)⟩

end FileLog

end VisionOs.Synthesis
