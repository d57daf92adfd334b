/-
  Durable evidence: a row for each piece of imagery, and its bytes in a file named by their hash,
  which equal payloads of an organization share.  When a call raises, the rows are as before, and
  the files are not: a failed write leaves a cut file, which the next `put` takes for stored.
-/
import VisionOs.Core.Ids
import VisionOs.Lib.OrderedDict
import Mathlib.Data.List.TakeDrop

namespace VisionOs.App

open Core Lib Option OrderedDict String

abbrev OrganizationId := String

abbrev Bytes := List UInt8

/-- `hashlib.blake2b(payload, digest_size=32).hexdigest()`, taken to be free of
    collisions. -/
structure Blake2b where
  hexdigest : Bytes → String
  collision_free : Function.Injective hexdigest

/-- Where a payload is stored, relative to the root: the organization's directory, a
    directory named by the first two digits of the digest, and the digest. -/
structure StorageRef where
  organizationId : OrganizationId
  digest : String
  deriving DecidableEq, Repr

inductive EvidenceState where
  | retained | expired | deleted
  deriving DecidableEq, Repr

/-- A row of `evidence_records`.  Its geometry and its media type, which nothing here
    reads, are left out; a `storage_ref` of `""` is `none`. -/
structure EvidenceRecord where
  organizationId : OrganizationId
  evidenceRef : String
  cameraKey : CameraId
  frameRef : String
  objectId : ObjectId
  observationId : ObservationId
  capturedAt : Instant
  purpose : String
  state : EvidenceState
  expiresAt : Option Instant
  storageRef : Option StorageRef
  contentHash : String
  sizeBytes : Nat
  deletedAt : Option Instant
  deletedBy : Option String
  deletionReason : Option String
  deriving DecidableEq

def EvidenceRecord.servable (r : EvidenceRecord) : Bool := r.state = .retained

/-- How `write_bytes` fails: the file cannot be opened, or only so many bytes get there. -/
inductive WriteFault where
  | opening
  | writing (written : Nat)
  deriving DecidableEq, Repr

/-- What a file operation at a path meets: an `OSError`, or nothing. -/
structure Disk where
  mkdirFails : StorageRef → Bool := fun _ => false
  writeFault : StorageRef → Option WriteFault := fun _ => none
  unlinkFails : StorageRef → Bool := fun _ => false

structure PutRequest where
  organizationId : OrganizationId
  evidenceRef : String
  cameraKey : CameraId
  payload : Bytes
  capturedAt : Instant
  purpose : String
  retentionDays : Int
  frameRef : String := ""
  objectId : ObjectId := ""
  observationId : ObservationId := ""
  deriving DecidableEq

/-- `uq_evidence_ref`: what no two rows share. -/
abbrev RecordKey := OrganizationId × String

def PutRequest.key (r : PutRequest) : RecordKey := (r.organizationId, r.evidenceRef)

abbrev Files := OrderedDict StorageRef Bytes

def daysNs (days : Int) : Int := days * 86400000000000

namespace Blake2b

variable (hash : Blake2b)

def target (organizationId : OrganizationId) (payload : Bytes) : StorageRef :=
  ⟨organizationId, hash.hexdigest payload⟩

def contentHash (payload : Bytes) : String := "blake2b:" ++ hash.hexdigest payload

variable {payload' : Bytes} {payload : Bytes}

theorem target_inj {organizationId organizationId' : OrganizationId}
    (h : hash.target organizationId payload = hash.target organizationId' payload') :
    organizationId = organizationId' ∧ payload = payload' := by
  obtain ⟨horganization, hdigest⟩ := StorageRef.mk.inj h
  exact ⟨horganization, hash.collision_free hdigest⟩

theorem contentHash_inj
    (h : hash.contentHash payload = hash.contentHash payload') : payload = payload' := by
  apply hash.collision_free
  have hlists := congrArg String.toList h
  unfold contentHash at hlists
  rw [toList_append, toList_append] at hlists
  exact toList_inj.mp (List.append_cancel_left hlists)

end Blake2b

theorem charOfNat_inj {n n' : Nat} (h : n < 256) (h' : n' < 256)
    (heq : Char.ofNat n = Char.ofNat n') : n = n' := by
  have hvalid : ∀ m : Nat, m < 256 → (Char.ofNat m).toNat = m := by decide +kernel
  rw [← hvalid n h, heq, hvalid n' h']

def spelledOut : Blake2b where
  hexdigest payload := ofList (payload.map fun b => Char.ofNat b.toNat)
  collision_free := by
    intro payload payload' h
    have hchars := ofList_inj.mp h
    refine List.map_injective_iff.mpr (fun b b' hb => ?_) hchars
    exact UInt8.toNat_inj.mp (charOfNat_inj b.toNat_lt b'.toNat_lt hb)

/-- The files after a write that failed. -/
def WriteFault.leaves (files : Files) (target : StorageRef) (payload : Bytes) :
    WriteFault → Files
  | .opening => files
  | .writing written => files.set target (payload.take written)

/-- The file of a payload is made where there is none of its name yet. -/
def writePayload (hash : Blake2b) (disk : Disk) (files : Files) (request : PutRequest) :
    Files × Raises Unit :=
  let target := hash.target request.organizationId request.payload
  if disk.mkdirFails target then (files, .error (.osError ""))
  else if (files.get? target).isSome then (files, .ok ())
  else
    match disk.writeFault target with
    | some fault => (fault.leaves files target request.payload, .error (.osError ""))
    | none => (files.set target request.payload, .ok ())

/-- The disk takes the payload, or has a file of its name. -/
def Disk.Takes (disk : Disk) (files : Files) (target : StorageRef) : Prop :=
  disk.mkdirFails target = false ∧ (files.get? target ≠ none ∨ disk.writeFault target = none)

/-- Where there was no file, there is the whole payload afterwards, whether or not the write
    raised. -/
def Disk.Completes (disk : Disk) (target : StorageRef) (payload : Bytes) : Prop :=
  disk.mkdirFails target = false ∧
    ∀ fault, disk.writeFault target = some fault →
      ∃ written, fault = .writing written ∧ payload.length ≤ written

/-- A `datetime` can name the instant: it lies in the years 1 to 9999. -/
def Datable (ns : Int) : Prop := -62135596800000000000 ≤ ns ∧ ns < 253402300800000000000

instance (ns : Int) : Decidable (Datable ns) := inferInstanceAs (Decidable (_ ∧ _))

/-- There is a `now + timedelta(days=days)`. -/
def Retainable (now : Instant) (days : Int) : Prop :=
  days.natAbs ≤ 999999999 ∧ Datable (now.ns + daysNs days)

instance (now : Instant) (days : Int) : Decidable (Retainable now days) :=
  inferInstanceAs (Decidable (_ ∧ _))

/-- The row that `put` adds. -/
def retainedRecord (hash : Blake2b) (now : Instant) (request : PutRequest) : EvidenceRecord where
  organizationId := request.organizationId
  evidenceRef := request.evidenceRef
  cameraKey := request.cameraKey
  frameRef := request.frameRef
  objectId := request.objectId
  observationId := request.observationId
  capturedAt := request.capturedAt
  purpose := request.purpose
  state := .retained
  expiresAt := some ⟨now.ns + daysNs request.retentionDays⟩
  storageRef := some (hash.target request.organizationId request.payload)
  contentHash := hash.contentHash request.payload
  sizeBytes := request.payload.length
  deletedAt := none
  deletedBy := none
  deletionReason := none

/-- The row is built once the payload is written, and its expiry may be out of range. -/
def newRecord (hash : Blake2b) (now : Instant) (request : PutRequest) : Raises EvidenceRecord := do
  require (request.retentionDays.natAbs ≤ 999999999)
    (.overflowError s!"days={request.retentionDays}; must have magnitude <= 999999999")
  require (Datable (now.ns + daysNs request.retentionDays))
    (.overflowError "date value out of range")
  return retainedRecord hash now request

structure EvidenceStore where
  records : OrderedDict RecordKey EvidenceRecord
  files : Files

namespace EvidenceStore

/-- A call's effect on the rows and files, and what it returns or raises. -/
abbrev Outcome (α : Type) := EvidenceStore × Raises α

def initial : EvidenceStore := ⟨∅, ∅⟩

/-- `put`, in a transaction of its own: a reference that is taken fails it at the flush,
    when the bytes are written already. -/
def put (hash : Blake2b) (disk : Disk) (now : Instant) (request : PutRequest)
    (s : EvidenceStore) : Outcome EvidenceRecord :=
  match writePayload hash disk s.files request with
  | (files, .error exc) => ({ s with files }, .error exc)
  | (files, .ok ()) =>
    match newRecord hash now request with
    | .error exc => ({ s with files }, .error exc)
    | .ok record =>
      match s.records.get? request.key with
      | some _ => ({ s with files }, .error (.integrityError "uq_evidence_ref"))
      | none => ({ records := s.records.set request.key record, files }, .ok record)

def metadata (s : EvidenceStore) (organizationId : OrganizationId) (evidenceRef : String) :
    Raises EvidenceRecord :=
  match s.records.get? (organizationId, evidenceRef) with
  | none => .error (.notFoundError "no such evidence")
  | some record => .ok record

def fetch (hash : Blake2b) (s : EvidenceStore) (organizationId : OrganizationId)
    (evidenceRef : String) : Raises (EvidenceRecord × Bytes) := do
  let record ← s.metadata organizationId evidenceRef
  require (record.state ≠ .deleted) (.notFoundError "this evidence was deleted")
  require (record.servable = true) (.evidenceForbiddenError
    "this evidence has passed its retention period and is no longer served")
  match record.storageRef.bind s.files.get? with
  | none => .error (.notFoundError "the stored image is no longer available")
  | some payload =>
    require (record.contentHash = "" ∨ hash.contentHash payload = record.contentHash)
      (.notFoundError "the stored image failed its integrity check")
    return (record, payload)

def due (now : Instant) (r : EvidenceRecord) : Bool :=
  r.state = .retained &&
    match r.expiresAt with
    | none => false
    | some expiresAt => decide (expiresAt.ns ≤ now.ns)

def expireRecord (now : Instant) (scope : OrganizationId) (r : EvidenceRecord) : EvidenceRecord :=
  if due now r ∧ (scope = "" ∨ r.organizationId = scope) then { r with state := .expired } else r

/-- Every row replaced by what `f` makes of it. -/
def mapRecords (f : EvidenceRecord → EvidenceRecord) (s : EvidenceStore) : EvidenceStore :=
  { s with records := ⟨s.records.entries.map fun e => (e.1, f e.2), by
      rw [List.map_map]
      exact s.records.nodupKeys⟩ }

/-- `expire_due`: mark everything past its date, and erase nothing. -/
def expireDue (now : Instant) (scope : OrganizationId) (s : EvidenceStore) :
    Outcome (List String) :=
  (s.mapRecords (expireRecord now scope), .ok ((s.records.values.filter fun r =>
    expireRecord now scope r ≠ r).map (·.evidenceRef)))

@[simp] theorem get?_mapRecords (f : EvidenceRecord → EvidenceRecord) (s : EvidenceStore)
    (key : RecordKey) : (s.mapRecords f).records.get? key = (s.records.get? key).map f := by
  have hlookup : ∀ es : List (RecordKey × EvidenceRecord),
      lookupIn key (es.map fun e => (e.1, f e.2)) =
        (lookupIn key es).map f := by
    intro es
    induction es with
    | nil => rfl
    | cons e es ih =>
      show (if e.1 = key then some (f e.2) else lookupIn key (es.map _)) =
        (if e.1 = key then some e.2 else lookupIn key es).map f
      by_cases he : e.1 = key
      · rw [if_pos he, if_pos he]
        rfl
      · rw [if_neg he, if_neg he]
        exact ih
  exact hlookup s.records.entries

def tombstone (now : Instant) (actor reason : String) (r : EvidenceRecord) : EvidenceRecord :=
  { r with
    state := .deleted
    deletedAt := some now
    deletedBy := some actor
    deletionReason := some reason
    storageRef := none
    sizeBytes := 0 }

def unlink (disk : Disk) (files : Files) (target : Option StorageRef) : Raises Files :=
  match target with
  | none => .ok files
  | some target =>
    if (files.get? target).isSome then
      if disk.unlinkFails target then .error (.osError "") else .ok (files.erase target)
    else .ok files

def delete (disk : Disk) (now : Instant) (organizationId : OrganizationId)
    (evidenceRef actor reason : String) (s : EvidenceStore) : Outcome EvidenceRecord :=
  match s.metadata organizationId evidenceRef with
  | .error exc => (s, .error exc)
  | .ok record =>
    if record.state = .deleted then (s, .ok record)
    else
      match unlink disk s.files record.storageRef with
      | .error exc => (s, .error exc)
      | .ok files =>
        let erased := tombstone now actor (ofList (reason.toList.take 255)) record
        ({ records := s.records.set (organizationId, evidenceRef) erased, files }, .ok erased)

/-! ## What the calls do to files and rows -/

variable {hash : Blake2b} {disk : Disk} {files files' : Files}

variable {request : PutRequest} {record : EvidenceRecord}

theorem newRecord_eq_ok {now : Instant} :
    newRecord hash now request = .ok record ↔
      Retainable now request.retentionDays ∧ retainedRecord hash now request = record := by
  unfold newRecord
  rw [check_bind_eq_ok, check_bind_eq_ok, require_eq_ok, require_eq_ok, ← and_assoc]
  exact and_congr_right fun _ => ⟨Except.ok.inj, congrArg _⟩

theorem writePayload_returns :
    (writePayload hash disk files request).2 = .ok () ↔
      disk.Takes files (hash.target request.organizationId request.payload) := by
  unfold writePayload Disk.Takes
  dsimp only
  cases hmkdir : disk.mkdirFails (hash.target request.organizationId request.payload)
  · rw [if_neg Bool.false_ne_true]
    cases hfile : files.get? (hash.target request.organizationId request.payload)
    · cases hwrite : disk.writeFault (hash.target request.organizationId request.payload) <;> simp
    · simp
  · simp

/-- Only the file of the payload's own name is touched, and only where there was none. -/
theorem writePayload_frame (request : PutRequest) (t : StorageRef)
    (h : t ≠ hash.target request.organizationId request.payload ∨ files.get? t ≠ none) :
    (writePayload hash disk files request).1.get? t = files.get? t := by
  unfold writePayload
  dsimp only
  split
  · rfl
  split
  · rfl
  rename_i habsent
  have hother : hash.target request.organizationId request.payload ≠ t := by
    rintro rfl
    rcases h with h | h
    · exact h rfl
    · exact habsent (isSome_iff_ne_none.mpr h)
  split
  · rename_i fault _
    cases fault with
    | opening => rfl
    | writing written => rw [WriteFault.leaves, get?_set, if_neg hother]
  · rw [get?_set, if_neg hother]

/-- Where there was no file of its name, the payload is there whole if the write returned. -/
theorem writePayload_whole
    (hnone : files.get? (hash.target request.organizationId request.payload) = none)
    (h : (writePayload hash disk files request).2 = .ok ()) :
    (writePayload hash disk files request).1.get?
      (hash.target request.organizationId request.payload) = some request.payload := by
  obtain ⟨hmkdir, hwrite⟩ := writePayload_returns.mp h
  have hfault := hwrite.resolve_left fun hthere => hthere hnone
  unfold writePayload
  dsimp only
  rw [hmkdir, hnone, hfault]
  exact get?_set_self _ _ _

theorem writePayload_completes_iff
    (hnone : files.get? (hash.target request.organizationId request.payload) = none) :
    (writePayload hash disk files request).1.get?
        (hash.target request.organizationId request.payload) = some request.payload ↔
      disk.Completes (hash.target request.organizationId request.payload) request.payload := by
  unfold writePayload Disk.Completes
  dsimp only
  cases hmkdir : disk.mkdirFails (hash.target request.organizationId request.payload)
  · rw [if_neg Bool.false_ne_true, hnone, if_neg (by simp)]
    cases hwrite : disk.writeFault (hash.target request.organizationId request.payload) with
    | none => simp
    | some fault =>
      cases fault with
      | opening => simp [WriteFault.leaves, hnone]
      | writing written => simp [WriteFault.leaves, List.take_eq_self_iff]
  · simp [hnone]

variable {target : StorageRef}

theorem unlink_eq_ok (h : unlink disk files (some target) = .ok files') :
    (∀ t, files'.get? t = if t = target then none else files.get? t) ∧
      (files.get? target = none ∨ disk.unlinkFails target = false) := by
  unfold unlink at h
  dsimp only at h
  split at h
  · split at h
    · cases h
    · rename_i hfails
      cases h
      exact ⟨fun t => get?_erase files target t,
        .inr (Bool.eq_false_iff.mpr hfails)⟩
  · rename_i habsent
    have hnone := not_isSome_iff_eq_none.mp habsent
    cases h
    refine ⟨fun t => ?_, .inl hnone⟩
    by_cases ht : t = target
    · rw [if_pos ht, ht, hnone]
    · rw [if_neg ht]

theorem unlink_ok (files : Files)
    (h : disk.unlinkFails target = false) : ∃ files', unlink disk files (some target) = .ok files' := by
  unfold unlink
  dsimp only
  rw [h]
  split
  · exact ⟨_, rfl⟩
  · exact ⟨_, rfl⟩

theorem expireRecord_cases (now : Instant) (scope : OrganizationId) (r : EvidenceRecord) :
    expireRecord now scope r = r ∨
      (r.state = .retained ∧ expireRecord now scope r = { r with state := .expired }) := by
  unfold expireRecord
  split
  · rename_i hdue
    have hstate := (Bool.and_eq_true_iff.mp hdue.1).1
    exact .inr ⟨of_decide_eq_true hstate, rfl⟩
  · exact .inl rfl

variable {s : EvidenceStore} {key : RecordKey} {payload : Bytes}

theorem fetch_eq_ok
    (hget : s.records.get? key = some record) (hstate : record.state = .retained)
    (hstorage : record.storageRef = some target) (hfile : s.files.get? target = some payload)
    (hhash : record.contentHash = hash.contentHash payload) :
    s.fetch hash key.1 key.2 = .ok (record, payload) := by
  have hmetadata : s.metadata key.1 key.2 = .ok record := by
    unfold metadata
    rw [hget]
  unfold fetch
  rw [hmetadata, ok_bind]
  refine check_bind_eq_ok.mpr ⟨require_eq_ok.mpr (by rw [hstate]; decide), ?_⟩
  refine check_bind_eq_ok.mpr ⟨require_eq_ok.mpr (decide_eq_true hstate), ?_⟩
  rw [hstorage, bind_some, hfile]
  exact check_bind_eq_ok.mpr ⟨require_eq_ok.mpr (.inr hhash.symm), rfl⟩

/-- What is fetched of a row is what its file holds. -/
theorem file_of_fetch {record' : EvidenceRecord}
    (hget : s.records.get? key = some record)
    (h : s.fetch hash key.1 key.2 = .ok (record', payload)) :
    record.storageRef.bind s.files.get? = some payload := by
  have hmetadata : s.metadata key.1 key.2 = .ok record := by
    unfold metadata
    rw [hget]
  unfold fetch at h
  rw [hmetadata, ok_bind] at h
  obtain ⟨-, h⟩ := check_bind_eq_ok.mp h
  obtain ⟨-, h⟩ := check_bind_eq_ok.mp h
  split at h
  · cases h
  · rename_i held hheld
    obtain ⟨-, h⟩ := check_bind_eq_ok.mp h
    cases h
    exact hheld

end EvidenceStore

end VisionOs.App
