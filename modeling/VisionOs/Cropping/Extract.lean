/-
  `CropManager.extract` with what it calls, and the loop of the runtime over the
  requests of a frame.  A request was paid for when it was admitted; an extraction
  settles it where it makes a crop or gives the unit back.
-/
import VisionOs.Cropping.Attention
import VisionOs.Lib.Effect

namespace VisionOs.Cropping

open Core Lib Effect Except

inductive CropFault where
  | gateRejected (detail : String)
  | frameUnavailable
  | extractionFailed (message : String)
  | cropError (typeName message : String)
  | raised (exc : PyException)
  deriving DecidableEq

def CropFault.extracted : CropFault → Extracted
  | .gateRejected detail => .gateRejected detail
  | .frameUnavailable => .frameUnavailable
  | .extractionFailed message => .extractionFailed message
  | .cropError typeName message => .cropError typeName message
  | .raised exc => .raised exc

structure ExtractionParts where
  plan : Except CropFault Unit := .ok ()
  preGrades : Except CropFault Grades := .ok .unmeasured
  pixels : Except CropFault CropId
  grades : Except CropFault Grades := .ok .unmeasured
  recordGate : Except CropFault Unit := .ok ()
  recordRejection : Except CropFault Unit := .ok ()
  note : Except CropFault Unit := .ok ()

section Extraction

variable (gate : QualityGate) (frame : FrameContext) (parts : ExtractionParts)
  (request : CropRequest)

def reject {α : Type} (reason : GateRejection) : Effect CropFault Spending α := do
  modify (·.refund request.demandIds)
  ofExcept parts.recordRejection
  raise (.gateRejected reason.value)

def passGate (grades : Grades) : Effect CropFault Spending Unit :=
  match gate.evaluate grades request.requiredAttributes with
  | .passed => pure ()
  | .rejected reason _ => reject parts request reason

def takePixels : Effect CropFault Spending CropId :=
  tryCatch (ofExcept parts.pixels) fun fault =>
    match fault with
    | .extractionFailed message => do
      modify (·.refund request.demandIds)
      raise (.extractionFailed message)
    | fault => raise fault

def extract : Effect CropFault Spending Crop := do
  if request.frameRef ≠ frame.frameRef then
    raise .frameUnavailable
  else
    ofExcept parts.plan
    let preGrades ← ofExcept parts.preGrades
    passGate gate parts request preGrades
    let contentHash ← takePixels parts request
    let grades ← ofExcept parts.grades
    ofExcept parts.recordGate
    passGate gate parts request grades
    let crop ← ofExcept
      ((cropOf frame request contentHash grades.toQualityGrades).mapError CropFault.raised)
    ofExcept parts.note
    modify (·.produce request.demandIds)
    pure crop

/-- The request passes the plan and the gate before anything is cut. -/
structure ReachesExtractor : Prop where
  frame : request.frameRef = frame.frameRef
  plan : parts.plan = .ok ()
  geometry : ∃ grades, parts.preGrades = .ok grades ∧
    gate.evaluate grades request.requiredAttributes = .passed

/-- The crop is cut, graded and recorded. -/
structure ReachesVerdict (contentHash : CropId) (grades : Grades) : Prop extends
    ReachesExtractor gate frame parts request where
  pixels : parts.pixels = .ok contentHash
  graded : parts.grades = .ok grades
  recorded : parts.recordGate = .ok ()

/-- The gate refuses the request, before the cut or after it. -/
inductive Rejected : Prop where
  | onGeometry (hframe : request.frameRef = frame.frameRef) (hplan : parts.plan = .ok ())
      (grades : Grades) (hgrades : parts.preGrades = .ok grades)
      (hverdict : gate.evaluate grades request.requiredAttributes ≠ .passed)
  | onPixels (contentHash : CropId) (grades : Grades)
      (h : ReachesVerdict gate frame parts request contentHash grades)
      (hverdict : gate.evaluate grades request.requiredAttributes ≠ .passed)

/-- The ends of a request that settle the unit reserved for it. -/
inductive Settles : Prop where
  | rejected (h : Rejected gate frame parts request)
  | extractorFailed (h : ReachesExtractor gate frame parts request) (message : String)
      (hpixels : parts.pixels = .error (.extractionFailed message))
  | cropped (contentHash : CropId) (grades : Grades)
      (h : ReachesVerdict gate frame parts request contentHash grades)
      (hverdict : gate.evaluate grades request.requiredAttributes = .passed)
      (hhash : contentHash ≠ "") (hnote : parts.note = .ok ())

/-- A rejection that cannot be recorded: the unit is given back, but the exception goes on
    past `_extract_one`. -/
def Escapes : Prop :=
  Rejected gate frame parts request ∧ ∃ exc, parts.recordRejection = .error (.raised exc)

/-! ## What an extraction leaves of the budget -/

variable {gate frame parts request} {grades : Grades}

theorem Rejected.of_geometry (hgrades : parts.preGrades = .ok grades)
    (hpass : gate.evaluate grades request.requiredAttributes = .passed)
    (h : Rejected gate frame parts request) : ∃ contentHash grades,
      ReachesVerdict gate frame parts request contentHash grades ∧
        gate.evaluate grades request.requiredAttributes ≠ .passed := by
  cases h with
  | onGeometry hframe hplan grades' hgrades' hverdict =>
    rw [hgrades] at hgrades'
    obtain rfl := ok.inj hgrades'
    exact absurd hpass hverdict
  | onPixels contentHash grades hreaches hverdict => exact ⟨contentHash, grades, hreaches, hverdict⟩

theorem Settles.begun (h : Settles gate frame parts request) :
    request.frameRef = frame.frameRef ∧ parts.plan = .ok () ∧
      ∃ grades, parts.preGrades = .ok grades := by
  cases h with
  | rejected h =>
    cases h with
    | onGeometry hframe hplan grades hgrades hverdict => exact ⟨hframe, hplan, grades, hgrades⟩
    | onPixels contentHash grades h hverdict =>
      obtain ⟨pre, hpre, -⟩ := h.geometry
      exact ⟨h.frame, h.plan, pre, hpre⟩
  | extractorFailed h message hpixels =>
    obtain ⟨pre, hpre, -⟩ := h.geometry
    exact ⟨h.frame, h.plan, pre, hpre⟩
  | cropped contentHash grades h hverdict hhash hnote =>
    obtain ⟨pre, hpre, -⟩ := h.geometry
    exact ⟨h.frame, h.plan, pre, hpre⟩

theorem Settles.of_geometry (hgrades : parts.preGrades = .ok grades)
    (hpass : gate.evaluate grades request.requiredAttributes = .passed)
    (h : Settles gate frame parts request) :
    (∃ message, parts.pixels = .error (.extractionFailed message)) ∨
      ∃ contentHash grades, ReachesVerdict gate frame parts request contentHash grades ∧
        (gate.evaluate grades request.requiredAttributes = .passed →
          contentHash ≠ "" ∧ parts.note = .ok ()) := by
  cases h with
  | rejected h =>
    obtain ⟨contentHash, grades', hreaches, hverdict⟩ := h.of_geometry hgrades hpass
    exact .inr ⟨contentHash, grades', hreaches, fun hpassed => absurd hpassed hverdict⟩
  | extractorFailed h message hpixels => exact .inl ⟨message, hpixels⟩
  | cropped contentHash grades' h hverdict hhash hnote =>
    exact .inr ⟨contentHash, grades', h, fun _ => ⟨hhash, hnote⟩⟩

theorem wp_passGate (grades : Grades) (s : Spending) :
    wp (passGate gate parts request grades)
      (fun _ s' => gate.evaluate grades request.requiredAttributes = .passed ∧ s' = s)
      (fun fault s' => gate.evaluate grades request.requiredAttributes ≠ .passed ∧
        s' = s.refund request.demandIds ∧
        ((∃ exc, fault = .raised exc) ↔ ∃ exc, parts.recordRejection = .error (.raised exc))) s := by
  unfold passGate
  cases hverdict : gate.evaluate grades request.requiredAttributes with
  | passed => exact ⟨rfl, rfl⟩
  | rejected reason detail =>
    unfold reject
    rw [wp_bind, wp_modify, wp_bind, wp_ofExcept]
    refine ⟨fun _ hrecorded => ?_, fun fault hrecord => ?_⟩
    · refine ⟨by simp, rfl, ?_⟩
      rw [hrecorded]
      simp
    · refine ⟨by simp, rfl, ?_⟩
      rw [hrecord]
      simp

theorem wp_takePixels (s : Spending) :
    wp (takePixels parts request)
      (fun contentHash s' => parts.pixels = .ok contentHash ∧ s' = s)
      (fun fault s' => (∃ message, parts.pixels = .error (.extractionFailed message) ∧
          fault = .extractionFailed message ∧ s' = s.refund request.demandIds) ∨
        ((∀ message, parts.pixels ≠ .error (.extractionFailed message)) ∧
          (∀ contentHash, parts.pixels ≠ .ok contentHash) ∧ s' = s)) s := by
  unfold takePixels
  rw [wp_tryCatch, wp_ofExcept]
  refine ⟨fun contentHash hpixels => ⟨hpixels, rfl⟩, fun fault hpixels => ?_⟩
  rw [hpixels]
  cases fault with
  | extractionFailed message => exact .inl ⟨message, rfl, rfl, rfl⟩
  | gateRejected detail => exact .inr ⟨by simp, by simp, rfl⟩
  | frameUnavailable => exact .inr ⟨by simp, by simp, rfl⟩
  | cropError typeName message => exact .inr ⟨by simp, by simp, rfl⟩
  | raised exc => exact .inr ⟨by simp, by simp, rfl⟩

theorem cropOf_eq_ok (frame : FrameContext) (request : CropRequest) (contentHash : CropId)
    (quality : QualityGrades) :
    (∃ crop, cropOf frame request contentHash quality = .ok crop) ↔ contentHash ≠ "" := by
  unfold cropOf Crop.construct
  simp only [constructWith_eq_ok_iff]
  have hcamera : request.frameRef.cameraId = request.cameraId := require_eq_ok.mp request.accepted
  constructor
  · rintro ⟨_, h, -⟩
    exact require_eq_ok.mp (check_bind_eq_ok.mp h).1
  · intro hhash
    refine ⟨_, ?_, rfl⟩
    exact check_bind_eq_ok.mpr ⟨require_eq_ok.mpr hhash, require_eq_ok.mpr hcamera⟩

/-- What an extraction does to the unit its request was granted: it becomes a crop, or it is
    given back, and otherwise it stays spent. -/
theorem wp_extract (s : Spending) :
    wp (extract gate frame parts request)
      (fun _ s' => Settles gate frame parts request ∧ ¬ Escapes gate frame parts request ∧
        s' = s.produce request.demandIds)
      (fun fault s' =>
        (Settles gate frame parts request ∧ s' = s.refund request.demandIds ∧
          ((∃ exc, fault = .raised exc) ↔ Escapes gate frame parts request)) ∨
        (¬ Settles gate frame parts request ∧ s' = s)) s := by
  unfold extract
  split
  · rename_i hframe
    exact .inr ⟨fun h => hframe h.begun.1, rfl⟩
  rename_i hframe
  rw [not_not] at hframe
  rw [wp_bind, wp_ofExcept]
  refine ⟨fun _ hplan => ?_, fun fault hplan => .inr ⟨fun h => ?_, rfl⟩⟩
  rotate_left
  · cases hplan.symm.trans h.begun.2.1
  rw [wp_bind, wp_ofExcept]
  refine ⟨fun pre hpre => ?_, fun fault hpre => .inr ⟨fun h => ?_, rfl⟩⟩
  rotate_left
  · obtain ⟨-, -, grades, hgrades⟩ := h.begun
    cases hpre.symm.trans hgrades
  rw [wp_bind]
  refine wp_mono (fun _ s => ?_) (fun fault s' => ?_) (wp_passGate pre s)
  rotate_left
  · -- the gate rejects the geometry
    rintro ⟨hverdict, rfl, hraised⟩
    have hrejected : Rejected gate frame parts request := .onGeometry hframe hplan pre hpre hverdict
    exact .inl ⟨.rejected hrejected, rfl, hraised.trans ⟨fun h => ⟨hrejected, h⟩, fun h => h.2⟩⟩
  rintro ⟨hgeometry, rfl⟩
  have hbegun : ReachesExtractor gate frame parts request := ⟨hframe, hplan, pre, hpre, hgeometry⟩
  rw [wp_bind]
  refine wp_mono (fun contentHash s => ?_) (fun fault s' => ?_) (wp_takePixels s)
  rotate_left
  · rintro (⟨message, hpixels, rfl, rfl⟩ | ⟨hother, hnone, rfl⟩)
    · -- the extractor's own error
      refine .inl ⟨.extractorFailed hbegun message hpixels, rfl, ?_⟩
      simp only [reduceCtorEq, exists_false, false_iff]
      rintro ⟨hrejected, -⟩
      obtain ⟨contentHash, grades, hreaches, -⟩ := hrejected.of_geometry hpre hgeometry
      cases hpixels.symm.trans hreaches.pixels
    · refine .inr ⟨fun h => ?_, rfl⟩
      rcases h.of_geometry hpre hgeometry with ⟨message, hpixels⟩ | ⟨contentHash, _, hreaches, -⟩
      · exact hother message hpixels
      · exact hnone contentHash hreaches.pixels
  rintro ⟨hpixels, rfl⟩
  -- From here on the request is settled only by the verdict on its pixels.
  have hsecond : Settles gate frame parts request → ∃ contentHash grades,
      ReachesVerdict gate frame parts request contentHash grades ∧
        (gate.evaluate grades request.requiredAttributes = .passed →
          contentHash ≠ "" ∧ parts.note = .ok ()) := by
    intro h
    rcases h.of_geometry hpre hgeometry with ⟨message, hfailed⟩ | hreaches
    · cases hpixels.symm.trans hfailed
    · exact hreaches
  rw [wp_bind, wp_ofExcept]
  refine ⟨fun grades hgrades => ?_, fun fault hgrades => .inr ⟨fun h => ?_, rfl⟩⟩
  rotate_left
  · obtain ⟨_, _, hreaches, -⟩ := hsecond h
    cases hgrades.symm.trans hreaches.graded
  rw [wp_bind, wp_ofExcept]
  refine ⟨fun _ hrecorded => ?_, fun fault hrecorded => .inr ⟨fun h => ?_, rfl⟩⟩
  rotate_left
  · obtain ⟨_, _, hreaches, -⟩ := hsecond h
    cases hrecorded.symm.trans hreaches.recorded
  have hverdict : ReachesVerdict gate frame parts request contentHash grades :=
    ⟨hbegun, hpixels, hgrades, hrecorded⟩
  rw [wp_bind]
  refine wp_mono (fun _ s => ?_) (fun fault s' => ?_) (wp_passGate grades s)
  rotate_left
  · -- the gate rejects the pixels
    rintro ⟨hfails, rfl, hraised⟩
    have hrejected : Rejected gate frame parts request :=
      .onPixels contentHash grades hverdict hfails
    exact .inl ⟨.rejected hrejected, rfl, hraised.trans ⟨fun h => ⟨hrejected, h⟩, fun h => h.2⟩⟩
  rintro ⟨hpasses, rfl⟩
  -- What is settled here is settled by a crop.
  have hthird : Settles gate frame parts request → contentHash ≠ "" ∧ parts.note = .ok () := by
    intro h
    obtain ⟨contentHash', grades', hreaches, hcropped⟩ := hsecond h
    obtain rfl := ok.inj (hpixels.symm.trans hreaches.pixels)
    obtain rfl := ok.inj (hgrades.symm.trans hreaches.graded)
    exact hcropped hpasses
  rw [wp_bind, wp_ofExcept]
  refine ⟨fun crop hcrop => ?_, fun fault hcrop => .inr ⟨fun h => ?_, rfl⟩⟩
  rotate_left
  · obtain ⟨crop, hbuilt⟩ :=
      (cropOf_eq_ok frame request contentHash grades.toQualityGrades).mpr (hthird h).1
    rw [hbuilt] at hcrop
    cases hcrop
  rw [wp_bind, wp_ofExcept]
  refine ⟨fun _ hnote => ?_, fun fault hnote => .inr ⟨fun h => ?_, rfl⟩⟩
  rotate_left
  · cases hnote.symm.trans (hthird h).2
  have hhash : contentHash ≠ "" := by
    cases hbuilt : cropOf frame request contentHash grades.toQualityGrades with
    | ok crop => exact (cropOf_eq_ok frame request contentHash _).mp ⟨crop, hbuilt⟩
    | error exc =>
      rw [hbuilt] at hcrop
      cases hcrop
  refine ⟨.cropped contentHash grades hverdict hpasses hhash hnote, ?_, rfl⟩
  rintro ⟨hrejected, -⟩
  obtain ⟨contentHash', grades', hreaches, hfails⟩ := hrejected.of_geometry hpre hgeometry
  obtain rfl := ok.inj (hgrades.symm.trans hreaches.graded)
  exact hfails hpasses

end Extraction

end VisionOs.Cropping
