/-
  What the digest of an observation tells apart.  Its text is that of its fields with nothing
  between them: the words of the closed sets can be told apart; the class, the box and the
  attributes can not.
-/
import VisionOs.Lib.Codes
import VisionOs.Synthesis.RoundTrip
import VisionOs.Synthesis.Suppression

namespace VisionOs.Synthesis

open Core Lib List Codes SuppressionPolicy

structure DigestContent where
  classId : Option ClassId
  lifecycleState : Option LifecycleState
  measurementBasis : MeasurementBasis
  attributes : List (AttributeKey × PyValue)
  coverage : Option (ObservabilityStatus × ObservabilityReason)
  lifecycleTransition : Option (LifecycleState × LifecycleState)
  overall : Option QualityLevel

def contentOf (o : Observation) : DigestContent where
  classId := o.classId
  lifecycleState := o.lifecycleState
  measurementBasis := o.measurementBasis
  attributes := o.attributes.map fun a => (a.key, a.value)
  coverage := o.coverage.map fun window => (window.status, window.reason)
  lifecycleTransition := o.lifecycleTransition.map fun t => (t.previous, t.current)
  overall := o.quality.bind (·.overall)

/-- Different contents have different texts. -/
def Separated (tools : DigestTools) (precision : Nat) (o o' : Observation) : Prop :=
  contentOf o ≠ contentOf o' → digestText tools precision o ≠ digestText tools precision o'

/-! ## The words of the closed sets -/

inductive LeadWord where
  | lifecycle (state : LifecycleState)
  | basis (basis : MeasurementBasis)
  deriving DecidableEq

namespace LeadWord

def chars : LeadWord → List Char
  | lifecycle s => s.value.toList
  | basis b => b.value.toList

def members : List LeadWord :=
  LifecycleState.members.map lifecycle ++ MeasurementBasis.members.map basis

theorem mem_members (w : LeadWord) : w ∈ members := by
  cases w with
  | lifecycle s => cases s <;> decide
  | basis b => cases b <;> decide

theorem prefixFree : Codes.PrefixFree chars :=
  prefixFree_of_members mem_members (by decide +kernel)

end LeadWord

inductive EndWord where
  | reason (reason : ObservabilityReason)
  | state (state : LifecycleState)
  | grade (level : QualityLevel)
  deriving DecidableEq

namespace EndWord

def chars : EndWord → List Char
  | reason r => r.value.toList
  | state s => s.value.toList
  | grade level => level.value.toList

def members : List EndWord :=
  ObservabilityReason.members.map reason ++ LifecycleState.members.map state ++
    [.excellent, .good, .marginal, .insufficient].map grade

theorem mem_members (w : EndWord) : w ∈ members := by
  cases w with
  | reason r => cases r <;> decide
  | state s => cases s <;> decide
  | grade level => cases level <;> decide

theorem suffixFree : Codes.SuffixFree chars :=
  suffixFree_of_members mem_members (by decide +kernel)

end EndWord

inductive Closing where
  | coverage (status : ObservabilityStatus) (reason : ObservabilityReason)
  | transition (previous current : LifecycleState)
  | grade (level : QualityLevel)
  deriving DecidableEq

namespace Closing

def first : Closing → List Char
  | coverage status _ => status.value.toList
  | transition previous _ => previous.value.toList
  | grade _ => []

def last : Closing → EndWord
  | coverage _ reason => .reason reason
  | transition _ current => .state current
  | grade level => .grade level

def chars (w : Closing) : List Char := w.first ++ w.last.chars

theorem chars_ne_nil (w : Closing) : w.chars ≠ [] := by
  have hlast : ∀ e ∈ EndWord.members, e.chars ≠ [] := by decide +kernel
  exact append_ne_nil_of_right_ne_nil _ (hlast _ (EndWord.mem_members _))

theorem status_suffixFree : Codes.SuffixFree fun s : ObservabilityStatus => s.value.toList := by
  have hmem : ∀ s, s ∈ ObservabilityStatus.members := fun s => by cases s <;> decide
  exact suffixFree_of_members hmem (by decide +kernel)

/-- The last word says what kind of closing it is, and the word before it is told from what
    comes before. -/
theorem suffixFree : Codes.SuffixFree chars := by
  rintro w w' ⟨z, hz⟩
  unfold chars at hz
  rw [← append_assoc] at hz
  obtain ⟨hlast, hfirst⟩ := EndWord.suffixFree.split hz
  cases w with
  | coverage status reason =>
    cases w' with
    | coverage status' reason' =>
      rw [EndWord.reason.inj hlast, status_suffixFree status status' ⟨z, hfirst⟩]
    | transition => cases hlast
    | grade => cases hlast
  | transition previous current =>
    cases w' with
    | coverage => cases hlast
    | transition previous' current' =>
      have hprevious := EndWord.suffixFree (.state previous) (.state previous') ⟨z, hfirst⟩
      rw [EndWord.state.inj hlast, EndWord.state.inj hprevious]
    | grade => cases hlast
  | grade level =>
    cases w' with
    | coverage => cases hlast
    | transition => cases hlast
    | grade level' => rw [EndWord.grade.inj hlast]

end Closing

/-! ## The parts of the text -/

section Parts

variable (tools : DigestTools) (precision : Nat) (o : Observation)

def classChars : List Char := (o.classId.getD "").toList

def leadChars : List Char :=
  ((o.lifecycleState.map (·.value)).getD "").toList ++ o.measurementBasis.value.toList

def middleChars : List Char :=
  (match o.spatial.bind (·.bbox) with
    | some box =>
      tools.fixed box.x1 precision ++ "," ++ tools.fixed box.y1 precision ++ "," ++
        tools.fixed box.x2 precision ++ "," ++ tools.fixed box.y2 precision
    | none => "").toList ++
  (String.join (o.attributes.map fun a => a.key ++ "=" ++ tools.repr a.value)).toList

def closings : List Closing :=
  (o.coverage.map fun window => Closing.coverage window.status window.reason).toList ++
  (o.lifecycleTransition.map fun t => Closing.transition t.previous t.current).toList ++
  ((o.quality.bind (·.overall)).map Closing.grade).toList

def frontChars : List Char := leadChars o ++ middleChars tools precision o

def restChars : List Char :=
  frontChars tools precision o ++ text Closing.chars (closings o)

theorem toList_digestText : (digestText tools precision o).toList =
    (o.observationType.value ++ o.objectId.getD "").toList ++
      (classChars o ++ restChars tools precision o) := by
  unfold digestText restChars frontChars classChars leadChars middleChars closings
  -- what is absent prints nothing
  rcases o.spatial.bind (·.bbox) with _ | box <;> rcases o.coverage with _ | window <;>
    rcases o.lifecycleTransition with _ | transition <;>
    rcases o.quality.bind (·.overall) with _ | level <;>
    simp [text, Closing.chars, Closing.first, Closing.last, EndWord.chars]

end Parts

variable {tools : DigestTools} {precision : Nat} {o o' : Observation}

theorem lead_split {s t : List Char} (h : leadChars o ++ s = leadChars o' ++ t) :
    o.lifecycleState = o'.lifecycleState ∧ o.measurementBasis = o'.measurementBasis ∧ s = t := by
  unfold leadChars at h
  simp only [append_assoc] at h
  cases hstate : o.lifecycleState with
  | none =>
    cases hstate' : o'.lifecycleState with
    | none =>
      rw [hstate, hstate'] at h
      obtain ⟨hbasis, hrest⟩ := @Codes.PrefixFree.split _ _ _ LeadWord.prefixFree
        (.basis o.measurementBasis) (.basis o'.measurementBasis) _ _ h
      exact ⟨rfl, LeadWord.basis.inj hbasis, hrest⟩
    | some state' =>
      rw [hstate, hstate'] at h
      cases (@Codes.PrefixFree.split _ _ _ LeadWord.prefixFree
        (.basis o.measurementBasis) (.lifecycle state') _ _ h).1
  | some state =>
    cases hstate' : o'.lifecycleState with
    | none =>
      rw [hstate, hstate'] at h
      cases (@Codes.PrefixFree.split _ _ _ LeadWord.prefixFree
        (.lifecycle state) (.basis o'.measurementBasis) _ _ h).1
    | some state' =>
      rw [hstate, hstate'] at h
      obtain ⟨hsame, hrest⟩ := @Codes.PrefixFree.split _ _ _ LeadWord.prefixFree
        (.lifecycle state) (.lifecycle state') _ _ h
      obtain ⟨hbasis, hrest⟩ := @Codes.PrefixFree.split _ _ _ LeadWord.prefixFree
        (.basis o.measurementBasis) (.basis o'.measurementBasis) _ _ hrest
      exact ⟨congrArg some (LeadWord.lifecycle.inj hsame), LeadWord.basis.inj hbasis, hrest⟩

theorem closings_eq_iff : closings o = closings o' ↔
    (contentOf o).coverage = (contentOf o').coverage ∧
      (contentOf o).lifecycleTransition = (contentOf o').lifecycleTransition ∧
      (contentOf o).overall = (contentOf o').overall := by
  unfold closings contentOf
  rcases o.coverage with _ | window <;> rcases o'.coverage with _ | window' <;>
    rcases o.lifecycleTransition with _ | transition <;>
    rcases o'.lifecycleTransition with _ | transition' <;>
    rcases o.quality.bind (·.overall) with _ | level <;>
    rcases o'.quality.bind (·.overall) with _ | level' <;>
    simp [and_assoc]

theorem digestText_eq_iff (hobject : o.objectId = o'.objectId)
    (htype : o.observationType = o'.observationType) :
    digestText tools precision o = digestText tools precision o' ↔
      classChars o ++ restChars tools precision o =
        classChars o' ++ restChars tools precision o' := by
  rw [← String.toList_inj, toList_digestText, toList_digestText, hobject, htype]
  exact append_right_inj _

/-! ## What runs over -/

/-- Words of the end run into the middle. -/
def Spills (m : List Char) (ws : List Closing) (m' : List Char) (ws' : List Closing) : Prop :=
  ∃ us, m' = m ++ text Closing.chars us ∧ ws = us ++ ws'

/-- The text of one observation runs over into that of another, so that two contents share
    it. -/
inductive RunsOver (tools : DigestTools) (precision : Nat) (o o' : Observation) : Prop
  /-- The boxes and the attributes print the same and all else agrees, but the attributes are
      not the same, or one names no class and the other the empty one. -/
  | attributes (hclass : classChars o = classChars o')
      (hlifecycle : o.lifecycleState = o'.lifecycleState)
      (hbasis : o.measurementBasis = o'.measurementBasis)
      (hmiddle : middleChars tools precision o = middleChars tools precision o')
      (hclosings : closings o = closings o')
      (hdiffer : o.classId ≠ o'.classId ∨
        (contentOf o).attributes ≠ (contentOf o').attributes)
  /-- The box and the attributes of the second go on, after those of the first, with the words of
      a coverage, a transition or a grade that only the first has. -/
  | closings (hclass : classChars o = classChars o')
      (hlifecycle : o.lifecycleState = o'.lifecycleState)
      (hbasis : o.measurementBasis = o'.measurementBasis)
      (hmiddle : Spills (middleChars tools precision o) (closings o)
        (middleChars tools precision o') (closings o'))
      (hdiffer : closings o ≠ closings o')
  /-- The class of the second goes on, after that of the first, with what follows the first's. -/
  | classId (x : List Char) (hne : x ≠ []) (hclass : classChars o' = classChars o ++ x)
      (hfront : Spills (frontChars tools precision o) (closings o)
          (x ++ frontChars tools precision o') (closings o') ∨
        Spills (x ++ frontChars tools precision o') (closings o')
          (frontChars tools precision o) (closings o))

theorem spills_iff {m m' : List Char} {ws ws' : List Closing} :
    m ++ text Closing.chars ws = m' ++ text Closing.chars ws' ↔
      Spills m ws m' ws' ∨ Spills m' ws' m ws :=
  Closing.suffixFree.append_text_eq_iff Closing.chars_ne_nil

theorem RunsOver.collides (h : RunsOver tools precision o o') :
    contentOf o ≠ contentOf o' ∧
      classChars o ++ restChars tools precision o =
        classChars o' ++ restChars tools precision o' := by
  cases h with
  | attributes hclass hlifecycle hbasis hmiddle hclosings hdiffer =>
    constructor
    · intro hsame
      rcases hdiffer with hdiffer | hdiffer
      · exact hdiffer (congrArg DigestContent.classId hsame)
      · exact hdiffer (congrArg DigestContent.attributes hsame)
    · unfold restChars frontChars leadChars
      rw [hclass, hlifecycle, hbasis, hmiddle, hclosings]
  | closings hclass hlifecycle hbasis hmiddle hdiffer =>
    constructor
    · intro hsame
      exact hdiffer (closings_eq_iff.mpr ⟨congrArg _ hsame, congrArg _ hsame, congrArg _ hsame⟩)
    · have hmiddle' := spills_iff.mpr (.inl hmiddle)
      unfold restChars frontChars leadChars
      rw [hclass, hlifecycle, hbasis]
      simp only [append_assoc, hmiddle']
  | classId x hne hclass hfront =>
    constructor
    · intro hsame
      have hsameClass : classChars o = classChars o' := by
        unfold classChars
        rw [show o.classId = o'.classId from congrArg DigestContent.classId hsame]
      rw [hsameClass] at hclass
      exact hne (self_eq_append_right.mp hclass)
    · rw [hclass, append_assoc]
      unfold restChars
      rw [← append_assoc x, spills_iff.mpr hfront]

theorem differ_of_words (hdiffer : contentOf o ≠ contentOf o')
    (hlifecycle : o.lifecycleState = o'.lifecycleState)
    (hbasis : o.measurementBasis = o'.measurementBasis) (hclosings : closings o = closings o') :
    o.classId ≠ o'.classId ∨ (contentOf o).attributes ≠ (contentOf o').attributes := by
  by_contra hsame
  obtain ⟨hid, hattributes⟩ := not_or.mp hsame
  obtain ⟨hcoverage, htransition, hoverall⟩ := closings_eq_iff.mp hclosings
  apply hdiffer
  show DigestContent.mk _ _ _ _ _ _ _ = DigestContent.mk _ _ _ _ _ _ _
  congr 1
  · exact not_not.mp hid
  · exact not_not.mp hattributes

/-- Where the second class is the first or goes on after it, different contents that share a text
    run over. -/
theorem runsOver_of_eq {x : List Char} (hdiffer : contentOf o ≠ contentOf o')
    (hclass : classChars o' = classChars o ++ x)
    (hrest : restChars tools precision o = x ++ restChars tools precision o') :
    RunsOver tools precision o o' ∨ RunsOver tools precision o' o := by
  by_cases hx : x = []
  · rw [hx, append_nil] at hclass
    rw [hx, nil_append] at hrest
    unfold restChars frontChars at hrest
    rw [append_assoc, append_assoc] at hrest
    obtain ⟨hlifecycle, hbasis, htail⟩ := lead_split hrest
    by_cases hclosings : closings o = closings o'
    · rw [hclosings] at htail
      exact .inl (.attributes hclass.symm hlifecycle hbasis (append_cancel_right htail)
        hclosings (differ_of_words hdiffer hlifecycle hbasis hclosings))
    · rcases spills_iff.mp htail with hmiddle | hmiddle
      · exact .inl (.closings hclass.symm hlifecycle hbasis hmiddle hclosings)
      · exact .inr (.closings hclass hlifecycle.symm hbasis.symm hmiddle (Ne.symm hclosings))
  · unfold restChars at hrest
    rw [← append_assoc] at hrest
    exact .inl (.classId x hx hclass (spills_iff.mp hrest))

/-- Of one object and one type, different contents have different texts unless one observation
    runs over into the other. -/
theorem separated_iff (tools : DigestTools) (precision : Nat) {o o' : Observation}
    (hobject : o.objectId = o'.objectId) (htype : o.observationType = o'.observationType) :
    Separated tools precision o o' ↔
      ¬ RunsOver tools precision o o' ∧ ¬ RunsOver tools precision o' o := by
  constructor
  · intro hseparated
    constructor
    · intro hruns
      obtain ⟨hdiffer, htext⟩ := hruns.collides
      exact hseparated hdiffer ((digestText_eq_iff hobject htype).mpr htext)
    · intro hruns
      obtain ⟨hdiffer, htext⟩ := hruns.collides
      exact hseparated hdiffer.symm ((digestText_eq_iff hobject htype).mpr htext.symm)
  · rintro ⟨hruns, hruns'⟩ hdiffer htext
    have hsame := (digestText_eq_iff hobject htype).mp htext
    rcases append_eq_append_iff.mp hsame with ⟨x, hclass, hrest⟩ | ⟨x, hclass, hrest⟩
    · exact (runsOver_of_eq hdiffer hclass hrest).elim hruns hruns'
    · exact (runsOver_of_eq hdiffer.symm hclass hrest).elim hruns' hruns

/-- A person with this many bags, and a red one under this key. -/
def bagsObservation (bags : Int) (redKey : AttributeKey) : Observation where
  toObservationFields := personFields .attributes
    [{ postureAttribute with key := "bags", value := .int bags, accepted := rfl },
      { postureAttribute with key := redKey, value := .str "red", accepted := rfl }] none
  accepted := ObservationFields.postInit_eq_ok.mpr
    ⟨by simp [personFields], rfl, le_refl 0, by constructor <;> simp [personFields],
      by simp [personFields, postureAttribute], by simp [personFields]⟩

/-- How the interpreter prints these values, and the hash of what it prints. -/
def bagsTools : DigestTools where
  sha256 := fun _ => "6fd4403a32abe03b2787d72e6abab203611237aaabfba25904f079acb42df688"
  fixed := fun _ _ => "0.000"
  repr
    | .int i => toString i
    | .str s => "'" ++ s ++ "'"
    | _ => "None"
  room := 900

/-- One bag and a `2nd_bag` print as twelve bags and an `nd_bag` do, and the second is held
    back. -/
theorem twelve_bags_are_held_back :
    (bagsObservation 1 "2nd_bag").cameraId = (bagsObservation 12 "nd_bag").cameraId ∧
    (bagsObservation 1 "2nd_bag").objectId = (bagsObservation 12 "nd_bag").objectId ∧
    (bagsObservation 1 "2nd_bag").observationType =
      (bagsObservation 12 "nd_bag").observationType ∧
    ¬ Separated bagsTools exactPositionPrecision (bagsObservation 1 "2nd_bag")
      (bagsObservation 12 "nd_bag") ∧
    (exact.shouldPublish bagsTools (bagsObservation 12 "nd_bag")
      (exact.signature bagsTools (bagsObservation 1 "2nd_bag")).toOption
      ⟨1⟩ ⟨30000000000⟩).toOption.any (fun d => !d.publish) = true := by
  refine ⟨rfl, rfl, rfl, fun h => ?_, by decide +kernel⟩
  have htext : digestText bagsTools exactPositionPrecision (bagsObservation 1 "2nd_bag") =
      digestText bagsTools exactPositionPrecision (bagsObservation 12 "nd_bag") := by
    decide +kernel
  apply h _ htext
  intro hsame
  have hkeys := congrArg (fun c => c.attributes.map (·.1)) hsame
  exact absurd hkeys (by decide)

/-- A second bag under the same key is told from the first. -/
theorem two_bags_do_not_run_over :
    ¬ RunsOver bagsTools exactPositionPrecision (bagsObservation 1 "2nd_bag")
        (bagsObservation 2 "2nd_bag") ∧
      ¬ RunsOver bagsTools exactPositionPrecision (bagsObservation 2 "2nd_bag")
        (bagsObservation 1 "2nd_bag") := by
  have hiff := @separated_iff bagsTools exactPositionPrecision (bagsObservation 1 "2nd_bag")
    (bagsObservation 2 "2nd_bag") rfl rfl
  apply hiff.mp
  intro _
  decide +kernel

end VisionOs.Synthesis
