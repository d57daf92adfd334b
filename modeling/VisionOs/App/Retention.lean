/-
  The retention sweep, and runs of it with the store's own calls.  Files are shared by content and
  rows are erased one by one.
-/
import VisionOs.App.EvidenceStore
import VisionOs.Lib.Runs

namespace VisionOs.App

open Core Lib OrderedDict EvidenceStore List Option Runs

namespace EvidenceStore

structure RetentionReport where
  evidenceExpired : Nat := 0
  evidenceErased : Nat := 0
  eraseFailures : List String := []
  dryRun : Bool := true
  deriving DecidableEq

def eraseRecord (disk : RecordKey → Disk) (now : Instant) (evidenceDays : Int)
    (s : EvidenceStore × RetentionReport) (key : RecordKey) : EvidenceStore × RetentionReport :=
  match s.1.records.get? key with
  | none => s
  | some record =>
    match unlink (disk key) s.1.files record.storageRef with
    | .error _ =>
      (s.1, { s.2 with eraseFailures := s.2.eraseFailures ++ [record.evidenceRef] })
    | .ok files =>
      let erased := tombstone now "retention" s!"retention: {evidenceDays} days" record
      ({ records := s.1.records.set key erased, files },
        { s.2 with evidenceErased := s.2.evidenceErased + 1 })

def keysIn (state : EvidenceState) (s : EvidenceStore) : List RecordKey :=
  s.records.keys.filter fun key => ((s.records.get? key).map (·.state)) = some state

/-- `RetentionService.sweep` on the evidence: mark what is past its date and, where erasing
    is enabled, erase what is marked.  How unlinking a record's file fares is `disk`'s. -/
def sweep (disk : RecordKey → Disk) (erase : Bool) (now : Instant) (evidenceDays : Int)
    (s : EvidenceStore) : EvidenceStore × RetentionReport :=
  let expired := s.mapRecords (expireRecord now "")
  let report : RetentionReport :=
    { evidenceExpired := (s.records.values.filter (due now)).length, dryRun := !erase }
  if erase then
    (expired.keysIn .expired).foldl (eraseRecord disk now evidenceDays) (expired, report)
  else (expired, report)

end EvidenceStore

/-! ## Runs -/

inductive EvidenceCall where
  | put (disk : Disk) (now : Instant) (request : PutRequest)
  | expireDue (now : Instant) (scope : OrganizationId)
  | delete (disk : Disk) (now : Instant) (organizationId : OrganizationId)
      (evidenceRef actor reason : String)
  | sweep (disk : RecordKey → Disk) (erase : Bool) (now : Instant) (evidenceDays : Int)

/-- The store, and the payload that the `put` of each record was given. -/
structure Vault where
  store : EvidenceStore
  given : OrderedDict RecordKey Bytes

namespace Vault

variable (hash : Blake2b)

def initial : Vault := ⟨.initial, ∅⟩

def call (v : Vault) : EvidenceCall → Vault
  | .put disk now request =>
    match v.store.put hash disk now request with
    | (store, .ok _) => ⟨store, v.given.set request.key request.payload⟩
    | (store, .error _) => { v with store }
  | .expireDue now scope => { v with store := (v.store.expireDue now scope).1 }
  | .delete disk now organizationId evidenceRef actor reason =>
    { v with store := (v.store.delete disk now organizationId evidenceRef actor reason).1 }
  | .sweep disk erase now evidenceDays =>
    { v with store := (v.store.sweep disk erase now evidenceDays).1 }

/-- Every retained record is served with the payload its `put` was given. -/
def Served (v : Vault) : Prop :=
  ∀ key record, v.store.records.get? key = some record → record.state = .retained →
    ∃ payload, v.given.get? key = some payload ∧
      v.store.fetch hash key.1 key.2 = .ok (record, payload)

/-- No record is deleted while its bytes are on disk, unless a record that is not deleted was
    stored with them too. -/
def Erased (v : Vault) : Prop :=
  ∀ key record payload, v.store.records.get? key = some record → record.state = .deleted →
    v.given.get? key = some payload →
    v.store.files.get? (hash.target key.1 payload) = some payload →
    ∃ evidenceRef other, v.store.records.get? (key.1, evidenceRef) = some other ∧
      (other.state = .retained ∨ other.state = .expired) ∧
      v.given.get? (key.1, evidenceRef) = some payload

/-- No other retained record of the organization has the content. -/
def Unshared (s : EvidenceStore) (key : RecordKey) (contentHash : String) : Prop :=
  ∀ evidenceRef other, s.records.get? (key.1, evidenceRef) = some other →
    other.state = .retained → evidenceRef ≠ key.2 → other.contentHash ≠ contentHash

/-- The `put` makes a row: the disk takes the payload, the expiry is a date, and the reference
    is free. -/
def Records (v : Vault) (disk : Disk) (now : Instant) (request : PutRequest) : Prop :=
  disk.Takes v.store.files (hash.target request.organizationId request.payload) ∧
    Retainable now request.retentionDays ∧ v.store.records.get? request.key = none

/-- The step takes no bytes that a retained record needs, and leaves none that only deleted
    records had:
    - bytes go only with the last retained record of the organization that has them;
    - a `put` that makes a row finds no file under its payload's name that was cut;
    - a `put` that makes none and leaves the whole payload in a new file leaves what no deleted
      record had, or what a record that waits to be erased has too. -/
def Careful (v : Vault) : EvidenceCall → Prop
  | .put disk now request =>
    let target := hash.target request.organizationId request.payload
    (v.Records hash disk now request →
      ∀ held, v.store.files.get? target = some held → held = request.payload) ∧
    (¬ v.Records hash disk now request → v.store.files.get? target = none →
      disk.Completes target request.payload → ∀ evidenceRef record,
        v.store.records.get? (request.organizationId, evidenceRef) = some record →
        record.state = .deleted → record.contentHash = hash.contentHash request.payload →
        ∃ evidenceRef' other,
          v.store.records.get? (request.organizationId, evidenceRef') = some other ∧
          other.state = .expired ∧ other.contentHash = record.contentHash)
  | .expireDue _ _ => True
  | .delete disk _ organizationId evidenceRef _ _ =>
    ∀ record target, v.store.records.get? (organizationId, evidenceRef) = some record →
      record.storageRef = some target → disk.unlinkFails target = false →
      Unshared v.store (organizationId, evidenceRef) record.contentHash
  | .sweep disk erase now _ =>
    let expired := v.store.mapRecords (expireRecord now "")
    erase = true → ∀ key record target, expired.records.get? key = some record →
      record.state = .expired → record.storageRef = some target →
      (disk key).unlinkFails target = false → Unshared expired key record.contentHash

/-! ## What every careful step keeps -/

/-- Each record is of the payload it was given, and a retained one has its whole file. -/
structure Sound (v : Vault) : Prop where
  known : ∀ key record, v.store.records.get? key = some record →
    ∃ payload, v.given.get? key = some payload ∧
      record.contentHash = hash.contentHash payload ∧
      record.storageRef =
        if record.state = .deleted then none else some (hash.target key.1 payload)
  kept : ∀ key record payload, v.store.records.get? key = some record →
    record.state = .retained → v.given.get? key = some payload →
    v.store.files.get? (hash.target key.1 payload) = some payload
  erased : v.Erased hash

variable {hash} {v : Vault}

theorem sound_initial : initial.Sound hash where
  known := fun _ _ h => by cases h
  kept := fun _ _ _ h => by cases h
  erased := fun _ _ _ h => by cases h

variable {key : RecordKey} {record : EvidenceRecord}

theorem Sound.storage (h : v.Sound hash)
    (hget : v.store.records.get? key = some record) (hlive : record.state ≠ .deleted) :
    ∃ payload, v.given.get? key = some payload ∧
      record.contentHash = hash.contentHash payload ∧
      record.storageRef = some (hash.target key.1 payload) := by
  obtain ⟨payload, hgiven, hhash, hstorage⟩ := h.known key record hget
  rw [if_neg hlive] at hstorage
  exact ⟨payload, hgiven, hhash, hstorage⟩

variable {target : StorageRef}

theorem Sound.live (h : v.Sound hash)
    (hget : v.store.records.get? key = some record)
    (hstorage : record.storageRef = some target) : record.state ≠ .deleted := by
  obtain ⟨payload, -, -, hstored⟩ := h.known key record hget
  intro hdeleted
  rw [if_pos hdeleted, hstorage] at hstored
  cases hstored

variable {key' : RecordKey} {record' : EvidenceRecord}

theorem Sound.same_payload (h : v.Sound hash)
    (hget : v.store.records.get? key = some record)
    (hget' : v.store.records.get? key' = some record')
    (hhash : record.contentHash = record'.contentHash) : v.given.get? key = v.given.get? key' := by
  obtain ⟨payload, hgiven, hcontent, -⟩ := h.known key record hget
  obtain ⟨payload', hgiven', hcontent', -⟩ := h.known key' record' hget'
  rw [hcontent, hcontent'] at hhash
  rw [hgiven, hgiven', hash.contentHash_inj hhash]

theorem Sound.served (h : v.Sound hash) : v.Served hash := by
  intro key record hget hstate
  obtain ⟨payload, hgiven, hhash, hstorage⟩ := h.storage hget (by rw [hstate]; decide)
  have hfile := h.kept key record payload hget hstate hgiven
  exact ⟨payload, hgiven, fetch_eq_ok hget hstate hstorage hfile hhash⟩

theorem Sound.expire (h : v.Sound hash) (now : Instant) (scope : OrganizationId) :
    Sound hash { v with store := v.store.mapRecords (expireRecord now scope) } := by
  have hback : ∀ {key : RecordKey} {record : EvidenceRecord},
      (v.store.mapRecords (expireRecord now scope)).records.get? key =
        some record → ∃ before, v.store.records.get? key = some before ∧
        (record = before ∨ (before.state = .retained ∧
          record = { before with state := .expired })) := by
    intro key record hget
    rw [get?_mapRecords, map_eq_some_iff] at hget
    obtain ⟨before, hbefore, rfl⟩ := hget
    exact ⟨before, hbefore, expireRecord_cases now scope before⟩
  refine ⟨fun key record hget => ?_, fun key record payload hget hstate hgiven => ?_,
    fun key record payload hget hstate hgiven hfile => ?_⟩
  · obtain ⟨before, hbefore, rfl | ⟨hretained, rfl⟩⟩ := hback hget
    · exact h.known key record hbefore
    · obtain ⟨payload, hgiven, hhash, hstorage⟩ :=
        h.storage hbefore (by rw [hretained]; decide)
      exact ⟨payload, hgiven, hhash, hstorage⟩
  · obtain ⟨before, hbefore, rfl | ⟨-, rfl⟩⟩ := hback hget
    · exact h.kept key record payload hbefore hstate hgiven
    · cases hstate
  · obtain ⟨before, hbefore, rfl | ⟨-, rfl⟩⟩ := hback hget
    · obtain ⟨evidenceRef, other, hother, hlive, hsame⟩ :=
        h.erased key record payload hbefore hstate hgiven hfile
      refine ⟨evidenceRef, expireRecord now scope other, ?_, ?_, hsame⟩
      · rw [get?_mapRecords, hother]
        rfl
      · rcases expireRecord_cases now scope other with hunchanged | ⟨-, hexpired⟩
        · rw [hunchanged]
          exact hlive
        · rw [hexpired]
          exact .inr rfl
    · cases hstate

variable {disk : Disk} {files : Files}

variable {now : Instant} {request : PutRequest}

/-- A `put` that makes a row. -/
theorem call_of_records (h : v.Records hash disk now request) :
    v.call hash (.put disk now request) =
      ⟨⟨v.store.records.set request.key (retainedRecord hash now request),
        (writePayload hash disk v.store.files request).1⟩,
        v.given.set request.key request.payload⟩ := by
  obtain ⟨htakes, hdate, hfree⟩ := h
  have hreturns : (writePayload hash disk v.store.files request).2 = .ok () :=
    writePayload_returns.mpr htakes
  unfold Vault.call put
  dsimp only
  generalize writePayload hash disk v.store.files request = out at hreturns ⊢
  obtain ⟨files', outcome⟩ := out
  subst hreturns
  dsimp only
  rw [newRecord_eq_ok.mpr ⟨hdate, rfl⟩]
  dsimp only
  rw [hfree]

/-- A `put` that makes no row leaves the files as its write does. -/
theorem call_of_not_records (h : ¬ v.Records hash disk now request) :
    v.call hash (.put disk now request) =
      { v with store :=
        { v.store with files := (writePayload hash disk v.store.files request).1 } } := by
  have hno : (writePayload hash disk v.store.files request).2 = .ok () →
      Retainable now request.retentionDays → v.store.records.get? request.key ≠ none :=
    fun hreturns hdate hfree => h ⟨writePayload_returns.mp hreturns, hdate, hfree⟩
  unfold Vault.call put
  dsimp only
  generalize writePayload hash disk v.store.files request = out at hno ⊢
  obtain ⟨files', exc | ⟨⟩⟩ := out
  · rfl
  dsimp only
  rcases hrecord : newRecord hash now request with exc | record
  · rfl
  obtain ⟨taken, htaken⟩ := ne_none_iff_exists'.mp (hno rfl (newRecord_eq_ok.mp hrecord).1)
  dsimp only
  rw [htaken]

/-- A write leaves the bytes of every retained record as they are. -/
theorem Sound.kept_written (h : v.Sound hash) (disk : Disk) (request : PutRequest)
    {payload : Bytes}
    (hget : v.store.records.get? key = some record) (hstate : record.state = .retained)
    (hgiven : v.given.get? key = some payload) :
    (writePayload hash disk v.store.files request).1.get? (hash.target key.1 payload) =
      some payload := by
  have hkept := h.kept key record payload hget hstate hgiven
  rw [writePayload_frame request _ (.inr (by rw [hkept]; simp))]
  exact hkept

theorem Sound.put_records (h : v.Sound hash) (hrecords : v.Records hash disk now request)
    (hcareful : v.Careful hash (.put disk now request)) :
    Sound hash ⟨⟨v.store.records.set request.key (retainedRecord hash now request),
      (writePayload hash disk v.store.files request).1⟩,
      v.given.set request.key request.payload⟩ := by
  have hfresh := hrecords.2.2
  -- Whether the file was there or is new, it holds the payload.
  have hwhole : (writePayload hash disk v.store.files request).1.get?
      (hash.target request.organizationId request.payload) = some request.payload := by
    cases hfile : v.store.files.get? (hash.target request.organizationId request.payload) with
    | none => exact writePayload_whole hfile (writePayload_returns.mpr hrecords.1)
    | some held =>
      rw [writePayload_frame request _ (.inr (by rw [hfile]; simp)), hfile,
        hcareful.1 hrecords held hfile]
  refine ⟨fun key record hget => ?_, fun key record payload hget hstate hgiven => ?_,
    fun key record payload hget hstate hgiven hfile => ?_⟩
  all_goals
    rw [get?_set] at hget
  · rw [get?_set]
    by_cases hkey : request.key = key
    · rw [if_pos hkey] at hget ⊢
      cases hget
      subst hkey
      exact ⟨request.payload, rfl, rfl, rfl⟩
    · rw [if_neg hkey] at hget ⊢
      exact h.known key record hget
  · rw [get?_set] at hgiven
    by_cases hkey : request.key = key
    · rw [if_pos hkey] at hgiven
      cases hgiven
      subst hkey
      exact hwhole
    · rw [if_neg hkey] at hget hgiven
      exact h.kept_written disk request hget hstate hgiven
  · rw [get?_set] at hgiven
    by_cases hkey : request.key = key
    · rw [if_pos hkey] at hget
      cases hget
      cases hstate
    rw [if_neg hkey] at hget hgiven
    by_cases htarget :
        hash.target key.1 payload = hash.target request.organizationId request.payload
    · -- The new row is retained, and it was stored in this file.
      obtain ⟨horganization, rfl⟩ := hash.target_inj htarget
      have hnew : request.key = (key.1, request.evidenceRef) := Prod.ext horganization.symm rfl
      refine ⟨request.evidenceRef, retainedRecord hash now request, ?_, .inl rfl, ?_⟩
      · rw [get?_set, if_pos hnew]
      · rw [get?_set, if_pos hnew]
    · rw [writePayload_frame request _ (.inl htarget)] at hfile
      obtain ⟨evidenceRef, other, hother, hlive, hsame⟩ :=
        h.erased key record payload hget hstate hgiven hfile
      have hne : request.key ≠ (key.1, evidenceRef) := by
        intro heq
        rw [← heq, hfresh] at hother
        cases hother
      refine ⟨evidenceRef, other, ?_, hlive, ?_⟩
      · rw [get?_set, if_neg hne]
        exact hother
      · rw [get?_set, if_neg hne]
        exact hsame

theorem Sound.put_refused (h : v.Sound hash) (hrecords : ¬ v.Records hash disk now request)
    (hcareful : v.Careful hash (.put disk now request)) :
    Sound hash { v with store :=
      { v.store with files := (writePayload hash disk v.store.files request).1 } } := by
  refine ⟨h.known, fun key record payload hget hstate hgiven =>
    h.kept_written disk request hget hstate hgiven,
    fun key record payload hget hstate hgiven hfile => ?_⟩
  by_cases hsame : hash.target key.1 payload ≠
      hash.target request.organizationId request.payload ∨
      v.store.files.get? (hash.target key.1 payload) ≠ none
  · rw [writePayload_frame request _ hsame] at hfile
    exact h.erased key record payload hget hstate hgiven hfile
  -- Only what was written just now is new.
  push Not at hsame
  obtain ⟨htarget, hnone⟩ := hsame
  obtain ⟨horganization, rfl⟩ := hash.target_inj htarget
  rw [htarget] at hnone hfile
  obtain ⟨payload', hgiven', hhash, -⟩ := h.known key record hget
  rw [hgiven] at hgiven'
  cases hgiven'
  have hrow : v.store.records.get? (request.organizationId, key.2) = some record := by
    rw [← horganization]
    exact hget
  obtain ⟨evidenceRef, other, hother, hexpired, hcontent⟩ := hcareful.2 hrecords hnone
    ((writePayload_completes_iff hnone).mp hfile) key.2 record hrow hstate hhash
  rw [← horganization] at hother
  refine ⟨evidenceRef, other, hother, .inr hexpired, ?_⟩
  rw [h.same_payload hother hget hcontent]
  exact hgiven

theorem Sound.erase (h : v.Sound hash)
    (hget : v.store.records.get? key = some record) (hlive : record.state ≠ .deleted)
    (hunlink : unlink disk v.store.files record.storageRef = .ok files)
    (hcareful : ∀ target, record.storageRef = some target → disk.unlinkFails target = false →
      Unshared v.store key record.contentHash) (now : Instant) (actor reason : String) :
    Sound hash { v with store :=
      ⟨v.store.records.set key (tombstone now actor reason record), files⟩ } := by
  obtain ⟨payload, hgiven, hhash, hstorage⟩ := h.storage hget hlive
  rw [hstorage] at hunlink
  obtain ⟨hfiles, hgone⟩ := unlink_eq_ok hunlink
  -- No retained record keeps its payload in the file that goes.
  have halone : ∀ key' record', v.store.records.get? key' = some record' →
      record'.state = .retained → key' ≠ key → v.given.get? key' = some payload →
      key'.1 ≠ key.1 := by
    intro key' record' hget' hretained hne hgiven' hsame
    rcases hgone with hnone | hunlinks
    · have hfile := h.kept key' record' payload hget' hretained hgiven'
      rw [hsame, hnone] at hfile
      cases hfile
    obtain ⟨payload', hgiven'', hhash', -⟩ := h.known key' record' hget'
    rw [hgiven'] at hgiven''
    cases hgiven''
    have hrow : v.store.records.get? (key.1, key'.2) = some record' := by
      rw [← hsame]
      exact hget'
    have hother : key'.2 ≠ key.2 := fun heq => hne (Prod.ext hsame heq)
    refine hcareful _ hstorage hunlinks key'.2 record' hrow hretained hother ?_
    rw [hhash', hhash]
  refine ⟨fun key' record' hget' => ?_,
    fun key' record' payload' hget' hretained hgiven' => ?_,
    fun key' record' payload' hget' hdeleted hgiven' hfile => ?_⟩
  · rw [get?_set] at hget'
    by_cases hkey : key = key'
    · rw [if_pos hkey] at hget'
      cases hget'
      subst hkey
      exact ⟨payload, hgiven, hhash, rfl⟩
    · rw [if_neg hkey] at hget'
      exact h.known key' record' hget'
  · rw [get?_set] at hget'
    by_cases hkey : key = key'
    · rw [if_pos hkey] at hget'
      cases hget'
      cases hretained
    rw [if_neg hkey] at hget'
    rw [hfiles]
    have hother : hash.target key'.1 payload' ≠ hash.target key.1 payload := by
      intro heq
      obtain ⟨hsame, rfl⟩ := hash.target_inj heq
      exact halone key' record' hget' hretained (Ne.symm hkey) hgiven' hsame
    rw [if_neg hother]
    exact h.kept key' record' payload' hget' hretained hgiven'
  · rw [hfiles] at hfile
    have hother : hash.target key'.1 payload' ≠ hash.target key.1 payload := by
      intro heq
      rw [if_pos heq] at hfile
      cases hfile
    rw [if_neg hother] at hfile
    rw [get?_set] at hget'
    by_cases hkey : key = key'
    · subst hkey
      rw [hgiven] at hgiven'
      cases hgiven'
      exact absurd rfl hother
    · rw [if_neg hkey] at hget'
      obtain ⟨evidenceRef, other, hrow, hlive', hsame⟩ :=
        h.erased key' record' payload' hget' hdeleted hgiven' hfile
      refine ⟨evidenceRef, other, ?_, hlive', hsame⟩
      have hne : key ≠ (key'.1, evidenceRef) := by
        intro heq
        subst heq
        rw [hgiven] at hsame
        cases hsame
        exact hother rfl
      rw [get?_set, if_neg hne]
      exact hrow

theorem Unshared.tombstone {s : EvidenceStore} {contentHash : String}
    (h : Unshared s key' contentHash) (record : EvidenceRecord) (files : Files) (now : Instant)
    (actor reason : String) :
    Unshared ⟨s.records.set key (tombstone now actor reason record), files⟩ key'
      contentHash := by
  intro evidenceRef other hother hretained hne
  rw [get?_set] at hother
  split at hother
  · cases hother
    cases hretained
  · exact h evidenceRef other hother hretained hne

variable {keys : List RecordKey}

theorem Sound.eraseAll {given : OrderedDict RecordKey Bytes} {disk : RecordKey → Disk}
    (hnodup : keys.Nodup) (now : Instant) (evidenceDays : Int)
    (s : EvidenceStore × EvidenceStore.RetentionReport) (h : Sound hash ⟨s.1, given⟩)
    (hcareful : ∀ key ∈ keys, ∃ record, s.1.records.get? key = some record ∧
      record.state = .expired ∧ ∀ target, record.storageRef = some target →
        (disk key).unlinkFails target = false → Unshared s.1 key record.contentHash) :
    Sound hash ⟨(keys.foldl (eraseRecord disk now evidenceDays) s).1, given⟩ := by
  induction keys generalizing s with
  | nil => exact h
  | cons key keys ih =>
    obtain ⟨hnotin, hnodup⟩ := nodup_cons.mp hnodup
    obtain ⟨record, hget, hexpired, hunshared⟩ := hcareful key mem_cons_self
    have htail := fun key' hkey' => hcareful key' (mem_cons_of_mem key hkey')
    rw [foldl_cons]
    refine ih hnodup _ ?_ ?_
    all_goals
      unfold eraseRecord
      rw [hget]
      dsimp only
      cases hunlink : unlink (disk key) s.1.files record.storageRef with
      | error exc => first | exact h | exact htail
      | ok files => ?_
    · exact h.erase hget (by rw [hexpired]; decide) hunlink hunshared now _ _
    · intro key' hkey'
      obtain ⟨record', hget', hexpired', hunshared'⟩ := htail key' hkey'
      have hne : key ≠ key' := fun heq => hnotin (heq ▸ hkey')
      refine ⟨record', ?_, hexpired', fun target hstorage hunlinks =>
        (hunshared' target hstorage hunlinks).tombstone record files now _ _⟩
      rw [get?_set, if_neg hne]
      exact hget'

theorem foldl_eraseRecord_frame (disk : RecordKey → Disk) (now : Instant) (evidenceDays : Int)
    (keys : List RecordKey) (s : EvidenceStore × EvidenceStore.RetentionReport) :
    (∀ key, key ∉ keys → (keys.foldl (eraseRecord disk now evidenceDays)
      s).1.records.get? key = s.1.records.get? key) ∧
    ∀ target, s.1.files.get? target = none → (keys.foldl
      (eraseRecord disk now evidenceDays) s).1.files.get? target = none := by
  induction keys generalizing s with
  | nil => exact ⟨fun _ _ => rfl, fun _ h => h⟩
  | cons key keys ih =>
    obtain ⟨hrecords, hfiles⟩ := ih (eraseRecord disk now evidenceDays s key)
    have hturn : (∀ key', key ≠ key' →
        (eraseRecord disk now evidenceDays s key).1.records.get? key' =
          s.1.records.get? key') ∧
        ∀ target, s.1.files.get? target = none →
          (eraseRecord disk now evidenceDays s key).1.files.get? target = none := by
      unfold eraseRecord
      cases hget : s.1.records.get? key with
      | none => exact ⟨fun _ _ => rfl, fun _ h => h⟩
      | some record =>
        dsimp only
        cases hunlink : unlink (disk key) s.1.files record.storageRef with
        | error exc => exact ⟨fun _ _ => rfl, fun _ h => h⟩
        | ok files =>
          refine ⟨fun key' hne => ?_, fun target hnone => ?_⟩
          · rw [get?_set, if_neg hne]
          · cases hstorage : record.storageRef with
            | none =>
              rw [hstorage] at hunlink
              cases hunlink
              exact hnone
            | some stored =>
              rw [hstorage] at hunlink
              have hafter := (unlink_eq_ok hunlink).1 target
              rw [hafter, hnone, ite_self]
    rw [foldl_cons]
    refine ⟨fun key' hkey' => ?_, fun target hnone => hfiles target (hturn.2 target hnone)⟩
    rw [mem_cons, not_or] at hkey'
    rw [hrecords key' hkey'.2, hturn.1 key' (Ne.symm hkey'.1)]

variable {evidenceDays : Int}

theorem foldl_eraseRecord_gone {disk : RecordKey → Disk}
    (hnodup : keys.Nodup) (hkey : key ∈ keys)
    {s : EvidenceStore × EvidenceStore.RetentionReport}
    (hget : s.1.records.get? key = some record)
    (hstorage : record.storageRef = some target)
    (hunlinks : (disk key).unlinkFails target = false) :
    (keys.foldl (eraseRecord disk now evidenceDays) s).1.files.get? target =
      none := by
  obtain ⟨before, after, rfl⟩ := append_of_mem hkey
  have hnotin : key ∉ before := by
    have hdisjoint := (nodup_append.mp hnodup).2.2
    intro hmem
    exact hdisjoint key hmem key mem_cons_self rfl
  rw [foldl_append, foldl_cons]
  refine (foldl_eraseRecord_frame disk now evidenceDays after _).2 target ?_
  -- Its own turn comes with the row as the loop found it.
  have hrow := (foldl_eraseRecord_frame disk now evidenceDays before s).1 key hnotin
  rw [hget] at hrow
  generalize before.foldl (eraseRecord disk now evidenceDays) s = mid at hrow ⊢
  obtain ⟨files, hfiles⟩ := unlink_ok mid.1.files hunlinks
  unfold eraseRecord
  rw [hrow]
  dsimp only
  rw [hstorage, hfiles]
  exact ((unlink_eq_ok hfiles).1 target).trans (if_pos rfl)

theorem mem_keysIn {state : EvidenceState} {s : EvidenceStore} :
    key ∈ s.keysIn state ↔ ∃ record, s.records.get? key = some record ∧ record.state = state := by
  unfold keysIn
  rw [mem_filter, mem_keys_iff]
  constructor
  · rintro ⟨⟨record, hget⟩, hstate⟩
    rw [hget] at hstate
    exact ⟨record, hget, some.inj (of_decide_eq_true hstate)⟩
  · rintro ⟨record, hget, hstate⟩
    refine ⟨⟨record, hget⟩, decide_eq_true ?_⟩
    rw [hget, ← hstate]
    rfl

theorem nodup_keysIn (state : EvidenceState) (s : EvidenceStore) : (s.keysIn state).Nodup :=
  s.records.nodupKeys.filter _

theorem Sound.call (h : v.Sound hash) {call : EvidenceCall} (hcareful : v.Careful hash call) :
    (v.call hash call).Sound hash := by
  cases call with
  | put disk now request =>
    by_cases hrecords : v.Records hash disk now request
    · rw [call_of_records hrecords]
      exact h.put_records hrecords hcareful
    · rw [call_of_not_records hrecords]
      exact h.put_refused hrecords hcareful
  | expireDue now scope => exact h.expire now scope
  | delete disk now organizationId evidenceRef actor reason =>
    unfold Vault.call delete metadata
    dsimp only
    cases hget : v.store.records.get? (organizationId, evidenceRef) with
    | none => exact h
    | some record =>
      dsimp only
      by_cases hdeleted : record.state = .deleted
      · rw [if_pos hdeleted]
        exact h
      · rw [if_neg hdeleted]
        cases hunlink : unlink disk v.store.files record.storageRef with
        | error exc => exact h
        | ok files =>
          exact h.erase hget hdeleted hunlink
            (fun target hstorage hunlinks => hcareful record target hget hstorage hunlinks) now _ _
  | sweep disk erase now evidenceDays =>
    unfold Vault.call sweep
    cases erase with
    | false => exact h.expire now ""
    | true =>
      refine (h.expire now "").eraseAll (nodup_keysIn _ _) now evidenceDays (_, _)
        fun key hkey => ?_
      obtain ⟨record, hget, hexpired⟩ := mem_keysIn.mp hkey
      exact ⟨record, hget, hexpired, fun target hstorage hunlinks =>
        hcareful rfl key record target hget hexpired hstorage hunlinks⟩

/-! ## What a careless call breaks -/

/-- A retained record whose file is gone is not served. -/
theorem not_served_of_gone {s : EvidenceStore} {v' : Vault}
    (hget : s.records.get? key = some record) (hretained : record.state = .retained)
    (hstorage : record.storageRef = some target)
    (hsame : v'.store.records.get? key = s.records.get? key)
    (hgone : v'.store.files.get? target = none) : ¬ v'.Served hash := by
  intro hserved
  rw [hget] at hsame
  obtain ⟨payload, -, hfetch⟩ := hserved key record hsame hretained
  have hfile := file_of_fetch hsame hfetch
  rw [hstorage, bind_some, hgone] at hfile
  cases hfile

theorem Sound.same_file (h : v.Sound hash)
    (hget : v.store.records.get? key = some record)
    (hget' : v.store.records.get? key' = some record') (hsame : key'.1 = key.1)
    (hhash : record'.contentHash = record.contentHash) (hlive : record'.state ≠ .deleted)
    (hstorage : record.storageRef = some target) : record'.storageRef = some target := by
  obtain ⟨payload, hgiven, -, hstored⟩ := h.storage hget (h.live hget hstorage)
  obtain ⟨payload', hgiven', -, hstored'⟩ := h.storage hget' hlive
  have hpayload := h.same_payload hget' hget hhash
  rw [hgiven, hgiven'] at hpayload
  cases hpayload
  rw [hstored', hsame, ← hstored, hstorage]

/-- A row over a cut file is not served; and what a refused `put` leaves was deleted. -/
theorem Sound.broken_by_put (h : v.Sound hash)
    (hno : ¬ v.Careful hash (.put disk now request)) :
    ¬ ((v.call hash (.put disk now request)).Served hash ∧
      (v.call hash (.put disk now request)).Erased hash) := by
  rintro ⟨hserved, herased⟩
  refine hno ⟨fun hrecords held hheld => ?_, fun hrecords hnone hcompletes evidenceRef record hget
    hdeleted hhash => ?_⟩
  · rw [call_of_records hrecords] at hserved
    obtain ⟨payload, hgiven, hfetch⟩ :=
      hserved request.key _ (get?_set_self _ _ _) rfl
    obtain rfl : request.payload = payload := some.inj ((get?_set_self _ _ _).symm.trans hgiven)
    have hfile := file_of_fetch (get?_set_self _ _ _) hfetch
    change (writePayload hash disk v.store.files request).1.get?
      (hash.target request.organizationId request.payload) = _ at hfile
    rw [writePayload_frame request _ (.inr (by rw [hheld]; simp)), hheld] at hfile
    exact some.inj hfile
  · rw [call_of_not_records hrecords] at herased
    obtain ⟨payload, hgiven, hcontent, -⟩ := h.known _ record hget
    obtain rfl : payload = request.payload :=
      hash.contentHash_inj (hcontent.symm.trans hhash)
    obtain ⟨evidenceRef', other, hother, hlive, hsame⟩ := herased _ record request.payload hget hdeleted
      hgiven ((writePayload_completes_iff hnone).mpr hcompletes)
    rcases hlive with hretained | hexpired
    · -- Its file would have been there.
      have hfile := h.kept _ other request.payload hother hretained hsame
      rw [hnone] at hfile
      cases hfile
    · refine ⟨evidenceRef', other, hother, hexpired, ?_⟩
      obtain ⟨payload', hgiven', hcontent', -⟩ := h.known _ other hother
      rw [hsame] at hgiven'
      cases hgiven'
      rw [hcontent', hcontent]

theorem Sound.not_served_of_delete (h : v.Sound hash)
    {organizationId : OrganizationId} {evidenceRef actor reason : String}
    (hno : ¬ v.Careful hash (.delete disk now organizationId evidenceRef actor reason)) :
    ¬ (v.call hash (.delete disk now organizationId evidenceRef actor reason)).Served hash := by
  unfold Careful Unshared at hno
  push Not at hno
  obtain ⟨record, target, hget, hstorage, hunlinks, evidenceRef', other, hother, hretained, hne,
    hhash⟩ := hno
  have hfile := h.same_file hget hother rfl hhash (by rw [hretained]; decide) hstorage
  obtain ⟨files, hfiles⟩ := unlink_ok v.store.files hunlinks
  have hgone := ((unlink_eq_ok hfiles).1 target).trans (if_pos rfl)
  have hkey : (organizationId, evidenceRef) ≠ (organizationId, evidenceRef') := by
    intro heq
    exact hne (Prod.mk.inj heq).2.symm
  refine not_served_of_gone hother hretained hfile ?_ ?_
  all_goals
    unfold Vault.call delete metadata
    dsimp only
    rw [hget]
    dsimp only
    rw [if_neg (h.live hget hstorage), hstorage, hfiles]
  · exact (get?_set _ _ _ _).trans (if_neg hkey)
  · exact hgone

theorem Sound.not_served_of_sweep (h : v.Sound hash) {disk : RecordKey → Disk} {erase : Bool}
    (hno : ¬ v.Careful hash (.sweep disk erase now evidenceDays)) :
    ¬ (v.call hash (.sweep disk erase now evidenceDays)).Served hash := by
  unfold Careful Unshared at hno
  dsimp only at hno
  push Not at hno
  obtain ⟨herase, key, record, target, hget, hexpired, hstorage, hunlinks, evidenceRef', other,
    hother, hretained, -, hhash⟩ := hno
  subst herase
  have hsound := h.expire now ""
  have hfile :=
    hsound.same_file hget hother rfl hhash (by rw [hretained]; decide) hstorage
  have hmem := mem_keysIn.mpr ⟨record, hget, hexpired⟩
  have hnotin : (key.1, evidenceRef') ∉
      (v.store.mapRecords (expireRecord now "")).keysIn .expired := by
    intro hin
    obtain ⟨other', hother', hexpired'⟩ := mem_keysIn.mp hin
    rw [hother] at hother'
    cases hother'
    rw [hretained] at hexpired'
    cases hexpired'
  refine not_served_of_gone hother hretained hfile ?_ ?_
  · exact (foldl_eraseRecord_frame disk now evidenceDays _ (_, _)).1 _ hnotin
  · exact foldl_eraseRecord_gone (nodup_keysIn _ _) hmem hget hstorage hunlinks

/-- Retained evidence stays fetchable, and deleted evidence is gone, in every state of a run
    exactly when every step of it is careful: no file goes while a retained record of the
    organization was stored in it, no row is made over a cut file, and no refused `put` brings
    a deleted record's bytes back. -/
theorem retained_served_iff_careful (hash : Blake2b) (calls : List EvidenceCall) :
    (∀ before, before <+: calls →
      (run (Vault.call hash) initial before).Served hash ∧
        (run (Vault.call hash) initial before).Erased hash) ↔
      Runs.Always (Vault.call hash) (Careful hash) initial calls := by
  have hholds : ∀ v : Vault, v.Sound hash → v.Served hash ∧ v.Erased hash :=
    fun v h => ⟨h.served, h.erased⟩
  have hkeep : ∀ (v : Vault) call, v.Sound hash → v.Careful hash call →
      (v.call hash call).Sound hash := fun v call h hcareful => h.call hcareful
  have hbreak : ∀ (v : Vault) call, v.Sound hash → ¬ v.Careful hash call →
      ¬ ((v.call hash call).Served hash ∧ (v.call hash call).Erased hash) := by
    rintro v call h hno ⟨hserved, herased⟩
    cases call with
    | put disk now request => exact h.broken_by_put hno ⟨hserved, herased⟩
    | expireDue now scope => exact hno trivial
    | delete disk now organizationId evidenceRef actor reason =>
      exact h.not_served_of_delete hno hserved
    | sweep disk erase now evidenceDays => exact h.not_served_of_sweep hno hserved
  exact reached_iff_always hholds hkeep hbreak sound_initial calls

/-! ## What no call breaks -/

variable {given : OrderedDict RecordKey Bytes} {s : EvidenceStore}

/-- What is fetched of a record is the payload its `put` was given, whatever became of files. -/
def Honest (hash : Blake2b) (v : Vault) : Prop :=
  ∀ key record payload, v.store.fetch hash key.1 key.2 = .ok (record, payload) →
    record.state = .retained ∧ v.given.get? key = some payload

def Vouched (hash : Blake2b) (given : OrderedDict RecordKey Bytes) (s : EvidenceStore) : Prop :=
  ∀ key record, s.records.get? key = some record →
    ∃ payload, given.get? key = some payload ∧ record.contentHash = hash.contentHash payload

theorem Vouched.expire (h : Vouched hash given s) (now : Instant) (scope : OrganizationId) :
    Vouched hash given (s.mapRecords (expireRecord now scope)) := by
  intro key record hget
  rw [get?_mapRecords, map_eq_some_iff] at hget
  obtain ⟨before, hbefore, rfl⟩ := hget
  rcases expireRecord_cases now scope before with hsame | ⟨-, hexpired⟩
  · rw [hsame]
    exact h key before hbefore
  · rw [hexpired]
    exact h key before hbefore

theorem Vouched.erase (h : Vouched hash given s)
    (hget : s.records.get? key = some record) (now : Instant) (actor reason : String)
    (files : Files) :
    Vouched hash given
      { records := s.records.set key (tombstone now actor reason record), files } := by
  intro key' record' hget'
  rcases get?_of_set hget' with ⟨rfl, rfl⟩ | ⟨-, hget'⟩
  · exact h key record hget
  · exact h key' record' hget'

theorem Vouched.call (h : Vouched hash v.given v.store) (call : EvidenceCall) :
    Vouched hash (v.call hash call).given (v.call hash call).store := by
  cases call with
  | put disk now request =>
    by_cases hrecords : v.Records hash disk now request
    · rw [call_of_records hrecords]
      intro key record hget
      dsimp only at hget ⊢
      rw [get?_set] at hget ⊢
      by_cases hkey : request.key = key
      · rw [if_pos hkey] at hget ⊢
        cases hget
        exact ⟨request.payload, rfl, rfl⟩
      · rw [if_neg hkey] at hget ⊢
        exact h key record hget
    · rw [call_of_not_records hrecords]
      exact h
  | expireDue now scope => exact h.expire now scope
  | delete disk now organizationId evidenceRef actor reason =>
    dsimp only [Vault.call, delete, metadata]
    cases hget : v.store.records.get? (organizationId, evidenceRef) with
    | none => exact h
    | some record =>
      dsimp only
      split
      · exact h
      · split
        · exact h
        · exact h.erase hget _ _ _ _
  | sweep disk erase now evidenceDays =>
    dsimp only [Vault.call, sweep]
    cases erase with
    | false => exact h.expire now ""
    | true =>
      refine foldlRecOn _ _ (motive := fun s : EvidenceStore × RetentionReport =>
        Vouched hash v.given s.1) (h.expire now "") fun s hs key _ => ?_
      unfold eraseRecord
      split
      · exact hs
      · rename_i record hget
        split
        · exact hs
        · exact hs.erase hget _ _ _ _

theorem Vouched.honest (h : Vouched hash v.given v.store) : v.Honest hash := by
  intro key record payload hfetch
  unfold fetch metadata at hfetch
  obtain ⟨found, hfound, hfetch⟩ := bind_eq_ok.mp hfetch
  rw [check_bind_eq_ok, check_bind_eq_ok, require_eq_ok, require_eq_ok] at hfetch
  obtain ⟨-, hservable, hfetch⟩ := hfetch
  split at hfound
  · cases hfound
  rename_i hget
  obtain rfl := Except.ok.inj hfound
  split at hfetch
  · cases hfetch
  rw [check_bind_eq_ok, require_eq_ok] at hfetch
  obtain ⟨hhash, hfetch⟩ := hfetch
  cases hfetch
  obtain ⟨stored, hgiven, hcontent⟩ := h key _ hget
  refine ⟨of_decide_eq_true hservable, ?_⟩
  rw [hcontent] at hhash
  rcases hhash with hempty | hsame
  · simp [Blake2b.contentHash] at hempty
  · rw [hash.contentHash_inj hsame]
    exact hgiven

/-- Whatever `fetch` returns is the payload that was put under the reference. -/
theorem fetch_honest (hash : Blake2b) (calls : List EvidenceCall) :
    (run (Vault.call hash) initial calls).Honest hash := by
  have hinitial : Vouched hash ∅ .initial := fun _ _ hget => by cases hget
  exact (@run_invariant _ _ _ (fun v : Vault => Vouched hash v.given v.store)
    (fun v call h => h.call call) _ hinitial calls).honest

end Vault

def jpegOf (evidenceRef : String) : PutRequest where
  organizationId := "org"
  evidenceRef
  cameraKey := "cam-13"
  payload := [255, 216]
  capturedAt := ⟨0⟩
  purpose := "compliance:headwear:decision-frame"
  retentionDays := 30

def sharedImageRun : List EvidenceCall :=
  [.put {} ⟨0⟩ (jpegOf "first"), .put {} ⟨1⟩ (jpegOf "second"),
    .delete {} ⟨2⟩ "org" "first" "operator" "erasure request"]

/-- Erasing one of two records that were given the same image leaves the other retained, and
    its image gone. -/
theorem shared_image_erased :
    ∃ calls, ¬ ∀ before, before <+: calls →
      (run (Vault.call spelledOut) Vault.initial before).Served spelledOut ∧
        (run (Vault.call spelledOut) Vault.initial before).Erased spelledOut := by
  refine ⟨sharedImageRun, fun hholds => ?_⟩
  have hserved := (hholds sharedImageRun prefix_rfl).1
  have hstate : ((run (Vault.call spelledOut) Vault.initial sharedImageRun).store.records.get?
      ("org", "second")).map (·.state) = some .retained := by decide +kernel
  have hnone : ((run (Vault.call spelledOut) Vault.initial sharedImageRun).store.fetch
      spelledOut "org" "second").toOption = none := by decide +kernel
  obtain ⟨record, hget, hretained⟩ := map_eq_some_iff.mp hstate
  obtain ⟨payload, -, hfetch⟩ := hserved ("org", "second") record hget hretained
  rw [hfetch] at hnone
  cases hnone

end VisionOs.App
