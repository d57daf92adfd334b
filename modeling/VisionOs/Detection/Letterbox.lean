/-
  Letterboxing and its inverse, in exact arithmetic: a source image is fitted into a target
  by the smaller of the two ratios and centred; a box of the target is mapped back to the
  normalized source.
-/
import VisionOs.Core.Space
import Mathlib.Algebra.Order.Field.Basic
import Mathlib.Tactic.FieldSimp
import Mathlib.Tactic.Linarith
import Mathlib.Tactic.Ring

namespace VisionOs.Detection

open Core

structure LetterboxFields where
  scale : ℚ
  padX : ℚ
  padY : ℚ
  sourceWidth : ℚ
  sourceHeight : ℚ
  targetWidth : ℚ
  targetHeight : ℚ

def LetterboxFields.postInit (t : LetterboxFields) : Raises Unit := do
  require (¬ t.scale ≤ 0)
    (.valueError [.text "letterbox scale must be positive, got ", .float (.finite t.scale)])
  require (¬ (t.sourceWidth ≤ 0 ∨ t.sourceHeight ≤ 0))
    (.valueError "letterbox source dimensions must be positive")

structure LetterboxTransform extends LetterboxFields where
  accepted : toLetterboxFields.postInit = .ok ()

/-- The positions are rational; whole sizes are printed as the source prints them. -/
def computeTransform (sourceWidth sourceHeight targetWidth targetHeight : ℚ) :
    Raises LetterboxTransform := do
  require (¬ (sourceWidth ≤ 0 ∨ sourceHeight ≤ 0))
    (.valueError s!"invalid source size {sourceWidth}x{sourceHeight}")
  require (¬ (targetWidth ≤ 0 ∨ targetHeight ≤ 0))
    (.valueError s!"invalid target size {targetWidth}x{targetHeight}")
  let scale := min (targetWidth / sourceWidth) (targetHeight / sourceHeight)
  let scaledWidth := sourceWidth * scale
  let scaledHeight := sourceHeight * scale
  constructWith LetterboxFields.postInit LetterboxTransform.mk
    { scale, padX := (targetWidth - scaledWidth) / 2, padY := (targetHeight - scaledHeight) / 2,
      sourceWidth, sourceHeight, targetWidth, targetHeight }

/-- One axis of the inverse: the padding first, then the scale, then the size. -/
def invertAxis (pad scale size x : ℚ) : ℚ := (x - pad) / scale / size

/-- One axis of the box: both ends into the unit interval, the far one off the near one. -/
def clampAxis (n1 n2 : ℚ) : ℚ × ℚ :=
  let near := max 0 (min 1 (min n1 n2))
  let far := max 0 (min 1 (max n1 n2))
  (near, if far ≤ near then min 1 (near + 1 / 10 ^ 6) else far)

def invertToNormalized (t : LetterboxTransform) (x1 y1 x2 y2 : ℚ) : Raises Box :=
  let normalizedX1 := invertAxis t.padX t.scale t.sourceWidth x1
  let normalizedY1 := invertAxis t.padY t.scale t.sourceHeight y1
  let normalizedX2 := invertAxis t.padX t.scale t.sourceWidth x2
  let normalizedY2 := invertAxis t.padY t.scale t.sourceHeight y2
  let (left, right) := clampAxis normalizedX1 normalizedX2
  let (top, bottom) := clampAxis normalizedY1 normalizedY2
  Box.construct ⟨.finite left, .finite top, .finite right, .finite bottom⟩

/-! ## One axis -/

section Axis

variable {n1 n2 pad scale size x : ℚ}

theorem clampAxis_unit (n1 n2 : ℚ) : 0 ≤ (clampAxis n1 n2).1 ∧ (clampAxis n1 n2).2 ≤ 1 := by
  refine ⟨le_max_left _ _, ?_⟩
  unfold clampAxis
  dsimp only
  split
  · exact min_le_left _ _
  · exact max_le zero_le_one (min_le_left _ _)

/-- The repair has room exactly where the near end is not the far edge. -/
theorem clampAxis_lt_iff : (clampAxis n1 n2).1 < (clampAxis n1 n2).2 ↔ min n1 n2 < 1 := by
  have hnear : max 0 (min 1 (min n1 n2)) < 1 ↔ min n1 n2 < 1 := by
    rw [max_lt_iff, min_lt_iff]
    constructor
    · rintro ⟨-, habsurd | hlt⟩
      · exact absurd habsurd (lt_irrefl 1)
      · exact hlt
    · exact fun hlt => ⟨zero_lt_one, .inr hlt⟩
  rw [← hnear]
  unfold clampAxis
  dsimp only
  split
  · rw [lt_min_iff]
    exact and_iff_left (by linarith)
  · rename_i hfar
    have hle : max 0 (min 1 (max n1 n2)) ≤ (1 : ℚ) := max_le zero_le_one (min_le_left _ _)
    exact ⟨fun hlt => hlt.trans_le hle, fun _ => not_le.mp hfar⟩

theorem clampAxis_inside (h1 : 0 ≤ n1) (h12 : n1 < n2) (h2 : n2 ≤ 1) :
    clampAxis n1 n2 = (n1, n2) := by
  unfold clampAxis
  rw [min_eq_left h12.le, max_eq_right h12.le, min_eq_right (h12.le.trans h2), min_eq_right h2,
    max_eq_right h1, max_eq_right (h1.trans h12.le)]
  dsimp only
  rw [if_neg (not_le.mpr h12)]

theorem invertAxis_lt_one (hscale : 0 < scale) (hsize : 0 < size) :
    invertAxis pad scale size x < 1 ↔ x < pad + scale * size := by
  unfold invertAxis
  rw [div_lt_one hsize, div_lt_iff₀ hscale, sub_lt_iff_lt_add', mul_comm]

theorem invertAxis_mono (hscale : 0 < scale) (hsize : 0 < size) :
    Monotone (invertAxis pad scale size) := by
  intro x x' hx
  unfold invertAxis
  gcongr

theorem invertAxis_forward (hscale : 0 < scale) :
    invertAxis pad scale size (x * scale + pad) = x / size := by
  unfold invertAxis
  rw [add_sub_cancel_right, mul_div_cancel_right₀ _ hscale.ne']

end Axis

/-! ## The transform and its inverse -/

/-- A box of positive area inside the unit square. -/
def UnitBox (b : Box) : Prop :=
  ∃ left top right bottom : ℚ,
    b.toBoxFields = ⟨.finite left, .finite top, .finite right, .finite bottom⟩ ∧
    0 ≤ left ∧ 0 ≤ top ∧ right ≤ 1 ∧ bottom ≤ 1 ∧ left < right ∧ top < bottom ∧
    0 < (right - left) * (bottom - top)

theorem postInit_finite {left top right bottom : ℚ} :
    BoxFields.postInit ⟨.finite left, .finite top, .finite right, .finite bottom⟩ = .ok () ↔
      left < right ∧ top < bottom := by
  unfold BoxFields.postInit
  rw [require_eq_ok]
  simp [PyFloat.le, PyFloat.lt, PyFloat.eq, ← le_iff_lt_or_eq, not_or]

variable {sourceWidth sourceHeight targetWidth targetHeight : ℚ}

theorem computeTransform_eq_ok (hsw : 0 < sourceWidth) (hsh : 0 < sourceHeight)
    (htw : 0 < targetWidth) (hth : 0 < targetHeight) :
    ∃ t, computeTransform sourceWidth sourceHeight targetWidth targetHeight = .ok t ∧
      0 < t.scale ∧ t.sourceWidth = sourceWidth ∧ t.sourceHeight = sourceHeight := by
  have hscale : 0 < min (targetWidth / sourceWidth) (targetHeight / sourceHeight) :=
    lt_min (div_pos htw hsw) (div_pos hth hsh)
  have hsource : ¬ (sourceWidth ≤ 0 ∨ sourceHeight ≤ 0) :=
    not_or.mpr ⟨not_le.mpr hsw, not_le.mpr hsh⟩
  have htarget : ¬ (targetWidth ≤ 0 ∨ targetHeight ≤ 0) :=
    not_or.mpr ⟨not_le.mpr htw, not_le.mpr hth⟩
  unfold computeTransform
  rw [require_eq_ok.mpr hsource, ok_bind, require_eq_ok.mpr htarget, ok_bind,
    constructWith_eq_ok]
  · exact ⟨_, rfl, hscale, rfl, rfl⟩
  · unfold LetterboxFields.postInit
    rw [check_bind_eq_ok, require_eq_ok, require_eq_ok]
    exact ⟨not_le.mpr hscale, hsource⟩

variable {t : LetterboxTransform}

theorem invertToNormalized_unit_iff (hscale : 0 < t.scale)
    (hwidth : 0 < t.sourceWidth) (hheight : 0 < t.sourceHeight) (x1 y1 x2 y2 : ℚ) :
    (∃ b, invertToNormalized t x1 y1 x2 y2 = .ok b ∧ UnitBox b) ↔
      min x1 x2 < t.padX + t.scale * t.sourceWidth ∧
      min y1 y2 < t.padY + t.scale * t.sourceHeight := by
  have haxis : ∀ {pad size : ℚ} (_ : 0 < size) (a b : ℚ),
      (clampAxis (invertAxis pad t.scale size a) (invertAxis pad t.scale size b)).1 <
        (clampAxis (invertAxis pad t.scale size a) (invertAxis pad t.scale size b)).2 ↔
      min a b < pad + t.scale * size := by
    intro pad size hsize a b
    rw [clampAxis_lt_iff, ← (invertAxis_mono hscale hsize).map_min,
      invertAxis_lt_one hscale hsize]
  rw [← haxis hwidth, ← haxis hheight]
  unfold invertToNormalized Box.construct
  constructor
  · rintro ⟨b, hb, -⟩
    obtain ⟨haccepted, -⟩ := constructWith_eq_ok_iff.mp hb
    exact postInit_finite.mp haccepted
  · intro hlt
    refine ⟨_, constructWith_eq_ok (postInit_finite.mpr hlt), _, _, _, _, rfl,
      (clampAxis_unit _ _).1, (clampAxis_unit _ _).1, (clampAxis_unit _ _).2,
      (clampAxis_unit _ _).2, hlt.1, hlt.2, ?_⟩
    exact mul_pos (sub_pos.mpr hlt.1) (sub_pos.mpr hlt.2)

theorem invertToNormalized_forward (hscale : 0 < t.scale)
    (hwidth : 0 < t.sourceWidth) (hheight : 0 < t.sourceHeight) {x1 y1 x2 y2 : ℚ}
    (hx1 : 0 ≤ x1) (hx : x1 < x2) (hx2 : x2 ≤ t.sourceWidth)
    (hy1 : 0 ≤ y1) (hy : y1 < y2) (hy2 : y2 ≤ t.sourceHeight) :
    ∃ b, invertToNormalized t (x1 * t.scale + t.padX) (y1 * t.scale + t.padY)
        (x2 * t.scale + t.padX) (y2 * t.scale + t.padY) = .ok b ∧
      b.toBoxFields = ⟨.finite (x1 / t.sourceWidth), .finite (y1 / t.sourceHeight),
        .finite (x2 / t.sourceWidth), .finite (y2 / t.sourceHeight)⟩ := by
  have hxlt := div_lt_div_of_pos_right hx hwidth
  have hylt := div_lt_div_of_pos_right hy hheight
  unfold invertToNormalized
  simp only [invertAxis_forward hscale,
    clampAxis_inside (div_nonneg hx1 hwidth.le) hxlt ((div_le_one hwidth).mpr hx2),
    clampAxis_inside (div_nonneg hy1 hheight.le) hylt ((div_le_one hheight).mpr hy2)]
  exact ⟨_, constructWith_eq_ok (postInit_finite.mpr ⟨hxlt, hylt⟩), rfl⟩

/-- The inverse undoes the transform on every box of the source, and answers a box with a
    positive area for exactly the boxes that begin before the right and the bottom edge. -/
theorem letterbox_inverse (hsw : 0 < sourceWidth) (hsh : 0 < sourceHeight)
    (htw : 0 < targetWidth) (hth : 0 < targetHeight) :
    ∃ t, computeTransform sourceWidth sourceHeight targetWidth targetHeight = .ok t ∧
      (∀ x1 y1 x2 y2, 0 ≤ x1 → x1 < x2 → x2 ≤ sourceWidth →
        0 ≤ y1 → y1 < y2 → y2 ≤ sourceHeight →
        ∃ b, invertToNormalized t (x1 * t.scale + t.padX) (y1 * t.scale + t.padY)
            (x2 * t.scale + t.padX) (y2 * t.scale + t.padY) = .ok b ∧
          b.toBoxFields = ⟨.finite (x1 / sourceWidth), .finite (y1 / sourceHeight),
            .finite (x2 / sourceWidth), .finite (y2 / sourceHeight)⟩) ∧
      ∀ x1 y1 x2 y2, (∃ b, invertToNormalized t x1 y1 x2 y2 = .ok b ∧ UnitBox b) ↔
        min x1 x2 < t.padX + t.scale * sourceWidth ∧
        min y1 y2 < t.padY + t.scale * sourceHeight := by
  obtain ⟨t, ht, hscale, rfl, rfl⟩ := computeTransform_eq_ok hsw hsh htw hth
  refine ⟨t, ht, ?_, invertToNormalized_unit_iff hscale hsw hsh⟩
  intro x1 y1 x2 y2 hx1 hx hx2 hy1 hy hy2
  exact invertToNormalized_forward hscale hsw hsh hx1 hx hx2 hy1 hy hy2

/-- A wide picture in a square: a box of it comes back, one above the picture is cut to a strip,
    and none begins below it. -/
theorem letterbox_inverse_wide :
    ∃ t, computeTransform 1920 1080 640 640 = .ok t ∧
      (∃ b, invertToNormalized t (192 * t.scale + t.padX) (108 * t.scale + t.padY)
          (960 * t.scale + t.padX) (540 * t.scale + t.padY) = .ok b ∧
        b.toBoxFields = ⟨.finite (192 / 1920), .finite (108 / 1080), .finite (960 / 1920),
          .finite (540 / 1080)⟩) ∧
      ∀ x1 y1 x2 y2, (∃ b, invertToNormalized t x1 y1 x2 y2 = .ok b ∧ UnitBox b) ↔
        min x1 x2 < t.padX + t.scale * 1920 ∧ min y1 y2 < t.padY + t.scale * 1080 := by
  obtain ⟨t, ht, htrip, hiff⟩ := @letterbox_inverse 1920 1080 640 640 (by decide +kernel)
    (by decide +kernel) (by decide +kernel) (by decide +kernel)
  exact ⟨t, ht, htrip 192 108 960 540 (by norm_num) (by norm_num) (by norm_num) (by norm_num)
    (by norm_num) (by norm_num), hiff⟩

/-- A box in the lower padding: both ends fall on the bottom edge, where nothing is left. -/
theorem lower_padding_raises :
    ¬ ∀ sourceWidth sourceHeight targetWidth targetHeight : ℚ,
      0 < sourceWidth → 0 < sourceHeight → 0 < targetWidth → 0 < targetHeight →
      ∃ t, computeTransform sourceWidth sourceHeight targetWidth targetHeight = .ok t ∧
        ∀ x1 y1 x2 y2, ∃ b, invertToNormalized t x1 y1 x2 y2 = .ok b ∧ UnitBox b := by
  intro hall
  obtain ⟨t, ht, htotal⟩ := hall 1920 1080 640 640 (by decide +kernel) (by decide +kernel)
    (by decide +kernel) (by decide +kernel)
  obtain ⟨b, hb, -⟩ := htotal 100 520 200 560
  have hraises : (computeTransform 1920 1080 640 640 >>= fun t =>
      invertToNormalized t 100 520 200 560).isOk = false := by decide +kernel
  rw [ht, ok_bind, hb] at hraises
  cases hraises

end VisionOs.Detection
