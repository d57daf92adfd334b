/-
  A camera's coverage gaps against its own history.  The monitor is run beside a list of the
  reports that changed what it shows of one camera; the gaps are the time for which the latest was
  not an observing one, and the last 256 that are over are kept.
-/
import VisionOs.Kernel.Health
import VisionOs.Lib.Runs

namespace VisionOs.Kernel

open Core Lib OrderedDict List Option Runs

inductive MonitorCall where
  | registerCamera (cameraId : CameraId)
  | forgetCamera (cameraId : CameraId)
  | setObservability (cameraId : CameraId) (status : HealthState) (reason : ObservabilityReason)
      (effectiveRate : PyFloat) (detail : Message)

def HealthMonitor.handle (m : HealthMonitor) (now : Instant) : MonitorCall → HealthMonitor
  | .registerCamera cameraId => m.registerCamera cameraId now
  | .forgetCamera cameraId => m.forgetCamera cameraId
  | .setObservability cameraId status reason effectiveRate detail =>
    m.setObservability cameraId now status reason effectiveRate detail

/-- Closed gaps plus the open one, if any. -/
def HealthMonitor.coverageGaps (m : HealthMonitor) (cameraId : CameraId) : List CoverageGap :=
  match m.cameras.get? cameraId with
  | none => []
  | some record => record.closedGaps.items ++ record.openGap.toList

/-- The instant lies in the gap; one that is open has no end. -/
def CoverageGap.Covers (gap : CoverageGap) (t : Int) : Prop :=
  gap.start.ns ≤ t ∧ ∀ finish ∈ gap.finish, t < finish.ns

/-- The gap is over when the later one begins. -/
def CoverageGap.Before (gap later : CoverageGap) : Prop :=
  ∃ finish ∈ gap.finish, finish.ns ≤ later.start.ns

/-- Whether the last report up to an instant, the latest first, is not an observing one. -/
def blindAt : List (Int × HealthState) → Int → Bool
  | [], _ => false
  | (since, status) :: earlier, t => if since ≤ t then !status.observing else blindAt earlier t

/-- A monitor, and the reports that changed what it shows of one camera. -/
structure Watched where
  monitor : HealthMonitor := {}
  now : Int
  reports : List (Int × HealthState) := []

namespace Watched

def step (cameraId : CameraId) (w : Watched) (input : Nat × MonitorCall) : Watched where
  monitor := w.monitor.handle ⟨w.now + input.1⟩ input.2
  now := w.now + input.1
  reports :=
    match input.2 with
    | .registerCamera _ => w.reports
    | .forgetCamera camera => if camera = cameraId then [] else w.reports
    | .setObservability camera status reason effectiveRate _ =>
      if camera = cameraId ∧ ¬ (w.monitor.record cameraId ⟨w.now + input.1⟩).state.same status
          reason effectiveRate then (w.now + input.1, status) :: w.reports
      else w.reports

/-- The camera's gaps since it was registered, in time order and only the last of them open:
    together they are its blind time, and the monitor has the last 256 of those that are over. -/
structure Accounts (cameraId : CameraId) (w : Watched) (closed : List CoverageGap)
    (opened : Option CoverageGap) : Prop where
  shown : w.monitor.coverageGaps cameraId = closed.drop (closed.length - 256) ++ opened.toList
  ordered : (closed ++ opened.toList).Pairwise CoverageGap.Before
  finished : ∀ gap ∈ closed, gap.finish ≠ none
  unfinished : ∀ gap ∈ opened, gap.finish = none
  union : ∀ t, (∃ gap ∈ closed ++ opened.toList, gap.Covers t) ↔ blindAt w.reports t = true
  status : ∀ report ∈ w.reports.head?,
    (w.monitor.observability cameraId ⟨w.now⟩).status = report.2

end Watched

/-- What a record and the reports that changed it have to do with each other at an instant,
    when these gaps were closed so far. -/
structure CameraRecord.Recorded (record : CameraRecord) (now : Int)
    (reports : List (Int × HealthState)) (closed : List CoverageGap) : Prop where
  bound : record.closedGaps.bound = 256
  kept : record.closedGaps.items = closed.drop (closed.length - record.closedGaps.bound)
  ordered : closed.Pairwise CoverageGap.Before
  ended : ∀ gap ∈ closed, ∃ finish ∈ gap.finish,
    finish.ns ≤ now ∧ ∀ opened ∈ record.openGap, finish.ns ≤ opened.start.ns
  opened : ∀ gap ∈ record.openGap, gap.start.ns ≤ now ∧ gap.finish = none
  shown : ∀ report ∈ reports.head?, record.state.status = report.2
  union : ∀ t, (∃ gap ∈ closed ++ record.openGap.toList, gap.Covers t) ↔ blindAt reports t = true

namespace CameraRecord

variable {record : CameraRecord} {cameraId : CameraId} {now t : Int}
  {reports : List (Int × HealthState)} {closed : List CoverageGap}

theorem recorded_register : (register cameraId ⟨now⟩).Recorded now [] [] where
  bound := rfl
  kept := rfl
  ordered := .nil
  ended := nofun
  opened := nofun
  shown := nofun
  union := by simp [register, blindAt]

namespace Recorded

theorem pairwise (h : record.Recorded now reports closed) :
    (closed ++ record.openGap.toList).Pairwise CoverageGap.Before := by
  refine pairwise_append.mpr ⟨h.ordered, ?_, fun gap hgap later hlater => ?_⟩
  · cases record.openGap with
    | none => exact .nil
    | some gap => exact pairwise_singleton _ _
  · obtain ⟨finish, hfinish, -, hstart⟩ := h.ended gap hgap
    exact ⟨finish, hfinish, hstart later (mem_toList.mp hlater)⟩

theorem age (h : record.Recorded now reports closed) (elapsed : Nat) :
    record.Recorded (now + elapsed) reports closed := by
  have hlater : now ≤ now + elapsed := Int.le_add_of_nonneg_right (Int.natCast_nonneg _)
  refine { h with ended := fun gap hgap => ?_, opened := fun gap hgap => ?_ }
  · obtain ⟨finish, hfinish, hle, hstart⟩ := h.ended gap hgap
    exact ⟨finish, hfinish, hle.trans hlater, hstart⟩
  · obtain ⟨hstart, hfinish⟩ := h.opened gap hgap
    exact ⟨hstart.trans hlater, hfinish⟩

end Recorded

variable {openGap : Option CoverageGap} {status : HealthState}

/-- After a report made now an instant is blind when it was so before, or a gap is open. -/
theorem union_cons (hover : ∀ gap ∈ closed, ∃ finish ∈ gap.finish,
      finish.ns ≤ now ∧ ∀ opened ∈ openGap, finish.ns ≤ opened.start.ns)
    (hopened : ∀ gap ∈ openGap, gap.start.ns ≤ now ∧ gap.finish = none)
    (hopen : openGap.isSome = !status.observing)
    (hbefore : ∀ t < now, (∃ gap ∈ closed ++ openGap.toList, gap.Covers t) ↔
      blindAt reports t = true) (t : Int) :
    (∃ gap ∈ closed ++ openGap.toList, gap.Covers t) ↔
      blindAt ((now, status) :: reports) t = true := by
  unfold blindAt
  by_cases hnow : now ≤ t
  · rw [if_pos hnow, ← hopen, isSome_iff_exists]
    constructor
    · rintro ⟨gap, hgap, hcovers⟩
      rcases mem_append.mp hgap with hclosed | hopen
      · obtain ⟨finish, hfinish, hle, -⟩ := hover gap hclosed
        exact absurd (hcovers.2 finish hfinish) (not_lt.mpr (hle.trans hnow))
      · exact ⟨gap, mem_toList.mp hopen⟩
    · rintro ⟨gap, hopen⟩
      obtain ⟨hstart, hfinish⟩ := hopened gap hopen
      refine ⟨gap, mem_append_right _ (mem_toList.mpr hopen), hstart.trans hnow, ?_⟩
      rw [hfinish]
      nofun
  · rw [if_neg hnow]
    exact hbefore t (not_le.mp hnow)

theorem Recorded.transition {reason : ObservabilityReason} {effectiveRate : PyFloat} {detail : Message}
    (h : record.Recorded now reports closed) :
    ∃ closed, (record.transition cameraId ⟨now⟩ status reason effectiveRate detail).Recorded now
      ((now, status) :: reports) closed := by
  have hshown : ∀ report ∈ ((now, status) :: reports).head?, status = report.2 := by
    rintro report ⟨⟩
    rfl
  unfold CameraRecord.transition
  dsimp only
  split
  · rename_i hblind hnone
    have hover : ∀ gap ∈ closed, ∃ finish ∈ gap.finish, finish.ns ≤ now ∧ ∀ opened ∈ some
        (CoverageGap.mk cameraId ⟨now⟩ none reason detail), finish.ns ≤ opened.start.ns := by
      intro gap hgap
      obtain ⟨finish, hfinish, hle, -⟩ := h.ended gap hgap
      refine ⟨finish, hfinish, hle, ?_⟩
      rintro opened ⟨⟩
      exact hle
    have hopened : ∀ gap ∈ some (CoverageGap.mk cameraId ⟨now⟩ none reason detail),
        gap.start.ns ≤ now ∧ gap.finish = none := by
      rintro gap ⟨⟩
      exact ⟨le_rfl, rfl⟩
    refine ⟨closed, h.bound, h.kept, h.ordered, hover, hopened, hshown,
      union_cons hover hopened (by rw [hblind]; rfl) fun t ht => ?_⟩
    -- the new gap covers no instant before this one
    rw [← h.union t, hnone]
    simp [or_and_right, exists_or, CoverageGap.Covers, not_le.mpr ht]
  · rename_i gap hobserving hopen
    obtain ⟨-, hfinish⟩ := h.opened gap hopen
    have hover : ∀ other ∈ closed ++ [⟨cameraId, gap.start, some ⟨now⟩, gap.reason, gap.detail⟩],
        ∃ finish ∈ other.finish, finish.ns ≤ now ∧
          ∀ opened ∈ (none : Option CoverageGap), finish.ns ≤ opened.start.ns := by
      rw [forall_mem_append, forall_mem_singleton]
      refine ⟨fun other hother => ?_, ⟨now⟩, rfl, le_rfl, nofun⟩
      obtain ⟨finish, hfinish', hle, -⟩ := h.ended other hother
      exact ⟨finish, hfinish', hle, nofun⟩
    refine ⟨_, h.bound, BoundedDeque.push_items h.kept _, ?_, hover, nofun, hshown,
      union_cons hover nofun (by rw [hobserving]; rfl) fun t ht => ?_⟩
    · refine pairwise_append.mpr ⟨h.ordered, pairwise_singleton _ _, fun other hother => ?_⟩
      obtain ⟨finish, hfinish', -, hbefore⟩ := h.ended other hother
      exact forall_mem_singleton.mpr ⟨finish, hfinish', hbefore gap hopen⟩
    · -- the gap ends now, and covers what it covered before
      rw [← h.union t, hopen]
      simp [or_and_right, exists_or, CoverageGap.Covers, hfinish, ht]
  · rename_i hopens hcloses
    have hopen : record.openGap.isSome = !status.observing := by
      cases hgap : record.openGap <;> cases hobserving : status.observing
      · exact absurd hgap (hopens hobserving)
      · rfl
      · rfl
      · exact absurd hgap (hcloses _ hobserving)
    exact ⟨closed, h.bound, h.kept, h.ordered, h.ended, h.opened, hshown,
      union_cons h.ended h.opened hopen fun t _ => h.union t⟩

end CameraRecord

namespace Watched

variable {w : Watched} {cameraId : CameraId}

def Inv (cameraId : CameraId) (w : Watched) : Prop :=
  match w.monitor.cameras.get? cameraId with
  | none => w.reports = []
  | some record => ∃ closed, record.Recorded w.now w.reports closed

theorem Inv.age (h : w.Inv cameraId) (elapsed : Nat) :
    Inv cameraId { w with now := w.now + elapsed } := by
  unfold Inv at h ⊢
  dsimp only
  cases hget : w.monitor.cameras.get? cameraId with
  | none => rwa [hget] at h
  | some record =>
    rw [hget] at h
    exact h.imp fun _ hrecorded => hrecorded.age elapsed

/-- The record that a call finds, or is the first to make. -/
theorem Inv.record (h : w.Inv cameraId) :
    ∃ closed, (w.monitor.record cameraId ⟨w.now⟩).Recorded w.now w.reports closed := by
  unfold HealthMonitor.record
  unfold Inv at h
  cases hget : w.monitor.cameras.get? cameraId with
  | none =>
    rw [hget] at h
    rw [h]
    exact ⟨[], CameraRecord.recorded_register⟩
  | some record => rwa [hget] at h

/-- One report keeps the gaps and the history in step. -/
theorem inv_step (input : Nat × MonitorCall) (h : w.Inv cameraId) :
    (w.step cameraId input).Inv cameraId := by
  obtain ⟨elapsed, call⟩ := input
  have hage := h.age elapsed
  have hrecord := hage.record
  unfold Inv step
  dsimp only
  cases call with
  | registerCamera camera =>
    dsimp only [HealthMonitor.handle]
    rw [HealthMonitor.get?_registerCamera]
    by_cases hcamera : camera = cameraId
    · subst hcamera
      rw [if_pos rfl]
      exact hrecord
    · rw [if_neg hcamera]
      exact hage
  | forgetCamera camera =>
    dsimp only [HealthMonitor.handle, HealthMonitor.forgetCamera]
    rw [get?_erase]
    by_cases hcamera : camera = cameraId
    · rw [if_pos hcamera.symm, if_pos hcamera]
    · rw [if_neg (Ne.symm hcamera), if_neg hcamera]
      exact hage
  | setObservability camera status reason effectiveRate detail =>
    dsimp only [HealthMonitor.handle]
    rw [HealthMonitor.get?_setObservability]
    by_cases hcamera : camera = cameraId
    · subst hcamera
      rw [if_pos rfl]
      by_cases hsame : (w.monitor.record camera ⟨w.now + elapsed⟩).state.same status reason
          effectiveRate = true
      · rw [if_pos hsame, if_neg (not_and_not_right.mpr fun _ => hsame)]
        exact hrecord
      · rw [if_neg hsame, if_pos ⟨rfl, hsame⟩]
        obtain ⟨closed, hrecorded⟩ := hrecord
        exact hrecorded.transition
    · rw [if_neg hcamera, if_neg fun hboth => hcamera hboth.1]
      exact hage

theorem Inv.accounts (h : w.Inv cameraId) : ∃ closed opened, w.Accounts cameraId closed opened := by
  unfold Inv at h
  cases hget : w.monitor.cameras.get? cameraId with
  | none =>
    rw [hget] at h
    refine ⟨[], none, ?_, .nil, nofun, nofun, ?_, ?_⟩
    · unfold HealthMonitor.coverageGaps
      rw [hget]
      rfl
    · rw [h]
      exact fun _ => iff_of_false nofun nofun
    · rw [h]
      nofun
  | some record =>
    rw [hget] at h
    obtain ⟨closed, hrecorded⟩ := h
    have hfinished : ∀ gap ∈ closed, gap.finish ≠ none := by
      intro gap hgap
      obtain ⟨finish, hfinish, -⟩ := hrecorded.ended gap hgap
      rw [hfinish]
      nofun
    refine ⟨closed, record.openGap, ?_, hrecorded.pairwise, hfinished,
      fun gap hgap => (hrecorded.opened gap hgap).2, hrecorded.union, ?_⟩
    · unfold HealthMonitor.coverageGaps
      rw [hget, ← hrecorded.bound]
      exact congrArg (· ++ record.openGap.toList) hrecorded.kept
    · unfold HealthMonitor.observability
      rw [hget]
      exact hrecorded.shown

/-- After every run of calls from an empty monitor. -/
theorem coverage_gaps_accounted (cameraId : CameraId) (start : Int)
    (calls : List (Nat × MonitorCall)) :
    ∃ closed opened, (run (step cameraId) { now := start } calls).Accounts cameraId closed
      opened := by
  have hstart : Inv cameraId { now := start } := rfl
  exact (run_invariant (fun _ input h => inv_step input h) hstart calls).accounts

end Watched

end VisionOs.Kernel
