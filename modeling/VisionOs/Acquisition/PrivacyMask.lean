/-
  The static privacy mask, in exact arithmetic: in the slot, the pixels of each zone's
  bounding box are blacked out row by row.
-/
import VisionOs.Acquisition.Buffer
import VisionOs.Core.Frame
import VisionOs.Core.Space
import Mathlib

namespace VisionOs.Acquisition

open Core Nat List Int FrameDimensionsFields

structure MaskOutcome where
  state : PrivacyState
  regionsMasked : Nat := 0
  deriving DecidableEq, Repr

/-- A `Polygon` with rational vertices. -/
structure Zone where
  vertices : List (ℚ × ℚ)
  accepted : ¬ vertices.length < 3

structure Bounds where
  x1 : ℚ
  y1 : ℚ
  x2 : ℚ
  y2 : ℚ
  deriving DecidableEq

def Zone.extremes (zone : Zone) : Bounds :=
  let xs := zone.vertices.map (·.1)
  let ys := zone.vertices.map (·.2)
  ⟨xs.min?.getD 0, ys.min?.getD 0, xs.max?.getD 0, ys.max?.getD 0⟩

/-- `Polygon.bounds`, which `Box` refuses where it is degenerate. -/
def Zone.bounds (zone : Zone) : Raises Bounds := do
  let b := zone.extremes
  let _ ← Box.construct ⟨.finite b.x1, .finite b.y1, .finite b.x2, .finite b.y2⟩
  .ok b

theorem Zone.bounds_eq_ok {zone : Zone} {b : Bounds} (h : zone.bounds = .ok b) :
    zone.extremes = b := by
  obtain ⟨-, -, hok⟩ := bind_eq_ok.mp h
  exact Except.ok.inj hok

attribute [irreducible] Zone.bounds

structure StaticZoneMask where
  zones : List Zone
  bytesPerPixel : Nat := 3
  accepted : zones ≠ []

/-- `int(q)`. -/
def truncate (q : ℚ) : Int := if 0 ≤ q then ⌊q⌋ else ⌈q⌉

/-- The pixels of one axis, from the first up to before the second.  An end below zero makes
    the range as empty as zero does. -/
def pixelRange (low high : ℚ) (size : Int) : Nat × Nat :=
  ((max 0 (truncate (low * size))).toNat, (min size (truncate (high * size) + 1)).toNat)

/-- `memory[start : start + span] = bytes(span)`. -/
def blank (memory : List UInt8) (start span : Nat) : List UInt8 :=
  memory.mapIdx fun k byte => if start ≤ k ∧ k < start + span then 0 else byte

section Mask

variable (dimensions : FrameDimensions) (bytesPerPixel : Nat)

def blankRow (columns : Nat × Nat) (memory : List UInt8) (row : Nat) : List UInt8 :=
  blank memory (row * (dimensions.width.toNat * bytesPerPixel) + columns.1 * bytesPerPixel)
    ((columns.2 - columns.1) * bytesPerPixel)

def maskZones : List Zone → List UInt8 → Nat → List UInt8 × Raises MaskOutcome
  | [], memory, masked => (memory, .ok ⟨.masked, masked⟩)
  | zone :: rest, memory, masked =>
    match zone.bounds with
    | .error exc => (memory, .error exc)
    | .ok b =>
      let columns := pixelRange b.x1 b.x2 dimensions.width
      let rows := pixelRange b.y1 b.y2 dimensions.height
      if columns.2 ≤ columns.1 ∨ rows.2 ≤ rows.1 then maskZones rest memory masked
      else
        let memory := (range' rows.1 (rows.2 - rows.1)).foldl
          (blankRow dimensions bytesPerPixel columns) memory
        maskZones rest memory (masked + 1)

def frameBytes : Nat := dimensions.width.toNat * dimensions.height.toNat * bytesPerPixel

/-- The column and the row of the pixel that a byte of the frame belongs to. -/
def pixelOf (k : Nat) : Nat × Nat :=
  (k / bytesPerPixel % dimensions.width.toNat, k / bytesPerPixel / dimensions.width.toNat)

end Mask

/-- What is in the slot afterwards, and what is answered. -/
def StaticZoneMask.apply (mask : StaticZoneMask) (memory : List UInt8)
    (dimensions : FrameDimensions) : List UInt8 × Raises MaskOutcome :=
  let expected := frameBytes dimensions mask.bytesPerPixel
  if memory.length < expected then
    (memory, .error (.privacyMaskError
      s!"cannot mask: frame needs {expected}B but slot holds {memory.length}B"))
  else maskZones dimensions mask.bytesPerPixel mask.zones memory 0

/-! ## Blanking -/

/-- From one memory to the next, the bytes of `P` are zeroed and no others. -/
structure Blanks (P : Nat → Prop) (memory memory' : List UInt8) : Prop where
  zeroed : ∀ k, P k → memory'[k]? = memory[k]?.map fun _ => 0
  kept : ∀ k, ¬ P k → memory'[k]? = memory[k]?

variable {P Q : Nat → Prop} {memory memory' memory'' : List UInt8}

theorem Blanks.trans (h : Blanks P memory memory') (h' : Blanks Q memory' memory'') :
    Blanks (fun k => P k ∨ Q k) memory memory'' where
  zeroed k hor := by
    by_cases hQ : Q k
    · rw [h'.zeroed k hQ]
      by_cases hP : P k
      · rw [h.zeroed k hP, Option.map_map]
        rfl
      · rw [h.kept k hP]
    · rw [h'.kept k hQ]
      exact h.zeroed k (hor.resolve_right hQ)
  kept k hno := (h'.kept k (not_or.mp hno).2).trans (h.kept k (not_or.mp hno).1)

theorem Blanks.congr (h : Blanks P memory memory') (hiff : ∀ k, Q k ↔ P k) :
    Blanks Q memory memory' := by
  rwa [show Q = P from funext fun k => propext (hiff k)]

theorem Blanks.refl (hnone : ∀ k, ¬ P k) : Blanks P memory memory :=
  ⟨fun k hP => absurd hP (hnone k), fun _ _ => rfl⟩

theorem blanks_blank (memory : List UInt8) (start span : Nat) :
    Blanks (fun k => start ≤ k ∧ k < start + span) memory (blank memory start span) := by
  unfold blank
  constructor <;> intro k hk <;> rw [getElem?_mapIdx]
  · simp only [if_pos hk]
  · simp only [if_neg hk, Option.map_id']

theorem blanks_foldl {write : List UInt8 → Nat → List UInt8} {P : Nat → Nat → Prop}
    (h : ∀ memory row, Blanks (P row) memory (write memory row)) (rows : List Nat)
    (memory : List UInt8) :
    Blanks (fun k => ∃ row ∈ rows, P row k) memory (rows.foldl write memory) := by
  induction rows generalizing memory with
  | nil => exact .refl fun k => by simp
  | cons row rest ih => exact ((h memory row).trans (ih _)).congr fun k => by simp

/-! ## Pixels -/

/-- A half-open range, as Python's `range` has it. -/
def Within (range : Nat × Nat) (i : Nat) : Prop := range.1 ≤ i ∧ i < range.2

section Axis

variable {i : Nat} {low high u : ℚ} {size : Int}

theorem within_pixelRange_iff : Within (pixelRange low high size) i ↔
    truncate (low * size) ≤ i ∧ (i : Int) < size ∧ (i : Int) ≤ truncate (high * size) := by
  unfold Within pixelRange
  omega

theorem within_pixelRange (hi : (i : Int) < size) (hcell : (i : ℚ) ≤ u ∧ u ≤ i + 1)
    (hlow : low * size < u) (hhigh : u < high * size) : Within (pixelRange low high size) i := by
  refine within_pixelRange_iff.mpr ⟨?_, hi, ?_⟩ <;> unfold truncate
  · split
    · refine lt_add_one_iff.mp (floor_lt.mpr ?_)
      push_cast
      exact hlow.trans_le hcell.2
    · rename_i hneg
      exact (Int.ceil_le.mpr (by exact_mod_cast (not_le.mp hneg).le)).trans (Int.natCast_nonneg i)
  · have hle : (i : ℚ) ≤ high * size := hcell.1.trans hhigh.le
    rw [if_pos ((cast_nonneg i).trans hle)]
    exact le_floor.mpr (by exact_mod_cast hle)

theorem near_of_within (h : Within (pixelRange low high size) i) :
    low * size < i + 1 ∧ (i : ℚ) < high * size + 1 := by
  obtain ⟨hlow, -, hhigh⟩ := within_pixelRange_iff.mp h
  have hi : (0 : ℚ) ≤ i := cast_nonneg i
  unfold truncate at hlow hhigh
  constructor
  · split at hlow
    · exact_mod_cast floor_lt.mp (lt_add_one_iff.mpr hlow)
    · linarith
  · have hlt : ((i : Int) : ℚ) < high * size + 1 := by
      split at hhigh
      · exact (le_floor.mp hhigh).trans_lt (lt_add_one _)
      · exact (Int.cast_le.mpr hhigh).trans_lt (Int.ceil_lt_add_one _)
    exact hlt

end Axis

variable {dimensions : FrameDimensions} {bytesPerPixel k : Nat} {zone : Zone}

/-- A part of a row in bytes, and in pixels. -/
theorem part_iff {width row first last : Nat} (hfirst : first ≤ last) (hlast : last ≤ width)
    (hpos : 0 < bytesPerPixel) :
    (row * (width * bytesPerPixel) + first * bytesPerPixel ≤ k ∧
      k < row * (width * bytesPerPixel) + first * bytesPerPixel +
        (last - first) * bytesPerPixel) ↔
    k / bytesPerPixel / width = row ∧ Within (first, last) (k / bytesPerPixel % width) := by
  rw [add_assoc, ← add_mul, add_sub_of_le hfirst, ← mul_assoc, ← add_mul,
    ← add_mul, ← le_div_iff_mul_le hpos, ← div_lt_iff_lt_mul hpos]
  generalize k / bytesPerPixel = p
  have hsplit := div_add_mod' p width
  constructor
  · rintro ⟨hlow, hhigh⟩
    have hrow : p / width = row := Nat.div_eq_of_lt_le (by omega) (by rw [Nat.succ_mul]; omega)
    rw [hrow] at hsplit
    exact ⟨hrow, by unfold Within; omega⟩
  · rintro ⟨rfl, hlow, hhigh⟩
    omega

theorem blanks_rows {columns rows : Nat × Nat} (hcolumns : columns.1 ≤ columns.2)
    (hwidth : columns.2 ≤ dimensions.width.toNat) (memory : List UInt8) :
    Blanks (fun k => 0 < bytesPerPixel ∧ Within columns (pixelOf dimensions bytesPerPixel k).1 ∧
        Within rows (pixelOf dimensions bytesPerPixel k).2) memory
      ((range' rows.1 (rows.2 - rows.1)).foldl (blankRow dimensions bytesPerPixel columns)
        memory) := by
  refine (blanks_foldl (fun memory row => blanks_blank memory _ _) _ memory).congr fun k => ?_
  constructor
  · rintro ⟨hpos, hcolumn, hrow⟩
    exact ⟨_, mem_range'_1.mpr ⟨hrow.1, by have hlast := hrow.2; omega⟩,
      (part_iff hcolumns hwidth hpos).mpr ⟨rfl, hcolumn⟩⟩
  · rintro ⟨row, hrow, hbytes⟩
    have hpos : 0 < bytesPerPixel := pos_of_ne_zero fun hzero => by
      rw [hzero] at hbytes
      omega
    obtain ⟨hsame, hcolumn⟩ := (part_iff hcolumns hwidth hpos).mp hbytes
    have hin := mem_range'_1.mp hrow
    refine ⟨hpos, hcolumn, ?_⟩
    rw [pixelOf, hsame]
    exact ⟨hin.1, by omega⟩

/-- The bytes that are blanked for a zone. -/
def Zone.Paints (dimensions : FrameDimensions) (bytesPerPixel : Nat) (zone : Zone) (k : Nat) :
    Prop :=
  let b := zone.extremes
  0 < bytesPerPixel ∧
    Within (pixelRange b.x1 b.x2 dimensions.width) (pixelOf dimensions bytesPerPixel k).1 ∧
    Within (pixelRange b.y1 b.y2 dimensions.height) (pixelOf dimensions bytesPerPixel k).2

theorem pixelRange_snd_le (low high : ℚ) (size : Int) :
    (pixelRange low high size).2 ≤ size.toNat := toNat_le_toNat (min_le_left _ _)

theorem blanks_maskZones {zones : List Zone} (hbounds : ∀ zone ∈ zones, ∃ b, zone.bounds = .ok b)
    (memory : List UInt8) (masked : Nat) :
    ∃ memory' n, maskZones dimensions bytesPerPixel zones memory masked =
        (memory', .ok ⟨.masked, n⟩) ∧
      Blanks (fun k => ∃ zone ∈ zones, zone.Paints dimensions bytesPerPixel k) memory memory' := by
  induction zones generalizing memory masked with
  | nil => exact ⟨memory, masked, rfl, .refl fun k => by simp⟩
  | cons zone rest ih =>
    obtain ⟨⟨b, hb⟩, hrest⟩ := forall_mem_cons.mp hbounds
    obtain rfl := Zone.bounds_eq_ok hb
    rw [maskZones, hb]
    dsimp only
    split
    · rename_i hnone
      have hno : ∀ k, ¬ zone.Paints dimensions bytesPerPixel k := fun k hpaints =>
        hnone.elim (fun hempty => hempty.not_gt (hpaints.2.1.1.trans_lt hpaints.2.1.2))
          fun hempty => hempty.not_gt (hpaints.2.2.1.trans_lt hpaints.2.2.2)
      obtain ⟨memory', n, hrun, hblanks⟩ := ih hrest memory masked
      exact ⟨memory', n, hrun, hblanks.congr fun k => by simp [hno k]⟩
    · rename_i hsome
      have hfirst : Blanks (zone.Paints dimensions bytesPerPixel) memory _ :=
        blanks_rows (not_le.mp (not_or.mp hsome).1).le (pixelRange_snd_le _ _ _) memory
      obtain ⟨memory', n, hrun, hblanks⟩ := ih hrest _ (masked + 1)
      exact ⟨memory', n, hrun, (hfirst.trans hblanks).congr fun k => by simp⟩

/-! ## Zones -/

/-- The interior of the vertices' convex hull, in which every interior point of the polygon
    lies. -/
def Zone.innerPoints (zone : Zone) : Set (ℚ × ℚ) :=
  interior (convexHull ℚ {v | v ∈ zone.vertices})

/-- The cell of the pixel, its edges included, meets the interior of the zone. -/
def Zone.Meets (dimensions : FrameDimensions) (zone : Zone) (pixel : Nat × Nat) : Prop :=
  ∃ v ∈ zone.innerPoints,
    ((pixel.1 : ℚ) ≤ v.1 * dimensions.width ∧ v.1 * dimensions.width ≤ pixel.1 + 1) ∧
    (pixel.2 : ℚ) ≤ v.2 * dimensions.height ∧ v.2 * dimensions.height ≤ pixel.2 + 1

/-- The cell of the pixel is more than a pixel away from the zone's bounding box. -/
def Zone.Far (dimensions : FrameDimensions) (zone : Zone) (pixel : Nat × Nat) : Prop :=
  let b := zone.extremes
  b.x2 * dimensions.width + 1 < pixel.1 ∨ (pixel.1 : ℚ) + 1 + 1 < b.x1 * dimensions.width ∨
    b.y2 * dimensions.height + 1 < pixel.2 ∨ (pixel.2 : ℚ) + 1 + 1 < b.y1 * dimensions.height

theorem extremes_of_mem {xs : List ℚ} {x : ℚ} (h : x ∈ xs) :
    xs.min?.getD 0 ≤ x ∧ x ≤ xs.max?.getD 0 := by
  have hne := ne_nil_of_mem h
  rw [min?_eq_some_min hne, max?_eq_some_max hne]
  exact ⟨min_le_of_mem h, le_max_of_mem h⟩

theorem mem_extremes {v : ℚ × ℚ} (hv : v ∈ zone.vertices) :
    v ∈ Set.Icc zone.extremes.x1 zone.extremes.x2 ×ˢ Set.Icc zone.extremes.y1 zone.extremes.y2 := by
  refine Set.mk_mem_prod ?_ ?_ <;> unfold Zone.extremes
  · exact extremes_of_mem (mem_map_of_mem hv)
  · exact extremes_of_mem (mem_map_of_mem hv)

theorem mem_innerPoints {v : ℚ × ℚ} (hv : v ∈ zone.innerPoints) :
    (zone.extremes.x1 < v.1 ∧ v.1 < zone.extremes.x2) ∧
      zone.extremes.y1 < v.2 ∧ v.2 < zone.extremes.y2 := by
  have hbox : Convex ℚ (Set.Icc zone.extremes.x1 zone.extremes.x2 ×ˢ
      Set.Icc zone.extremes.y1 zone.extremes.y2) := (convex_Icc _ _).prod (convex_Icc _ _)
  have hin := interior_mono (convexHull_min (fun v => mem_extremes) hbox) hv
  rw [interior_prod_eq, interior_Icc, interior_Icc] at hin
  exact hin

theorem lt_frameBytes_iff (hpos : 0 < bytesPerPixel) : k < frameBytes dimensions bytesPerPixel ↔
    (pixelOf dimensions bytesPerPixel k).2 < dimensions.height.toNat := by
  have hwidth := (postInit_eq_ok.mp dimensions.accepted).1
  unfold frameBytes pixelOf
  rw [Nat.div_div_eq_div_mul, Nat.div_lt_iff_lt_mul (Nat.mul_pos hpos (by omega)), Nat.mul_comm
    bytesPerPixel, ← mul_assoc, mul_comm dimensions.height.toNat]

theorem paints_of_meets (hk : k < frameBytes dimensions bytesPerPixel)
    (h : zone.Meets dimensions (pixelOf dimensions bytesPerPixel k)) :
    zone.Paints dimensions bytesPerPixel k := by
  obtain ⟨v, hv, hx, hy⟩ := h
  obtain ⟨hcolumns, hrows⟩ := mem_innerPoints hv
  obtain ⟨hwidth, hheight⟩ := postInit_eq_ok.mp dimensions.accepted
  have hwidth' : (0 : ℚ) < dimensions.width := cast_pos.mpr hwidth
  have hheight' : (0 : ℚ) < dimensions.height := cast_pos.mpr hheight
  have hpos : 0 < bytesPerPixel := pos_of_ne_zero fun hzero => by
    rw [hzero] at hk
    exact absurd hk (not_lt_zero _)
  have hcolumn : (pixelOf dimensions bytesPerPixel k).1 < dimensions.width.toNat :=
    mod_lt _ (by omega)
  have hrow := (lt_frameBytes_iff hpos).mp hk
  exact ⟨hpos,
    within_pixelRange (by omega) hx (mul_lt_mul_of_pos_right hcolumns.1 hwidth')
      (mul_lt_mul_of_pos_right hcolumns.2 hwidth'),
    within_pixelRange (by omega) hy (mul_lt_mul_of_pos_right hrows.1 hheight')
      (mul_lt_mul_of_pos_right hrows.2 hheight')⟩

theorem not_paints_of_far (h : zone.Far dimensions (pixelOf dimensions bytesPerPixel k)) :
    ¬ zone.Paints dimensions bytesPerPixel k := by
  rintro ⟨-, hx, hy⟩
  have hcolumn := near_of_within hx
  have hrow := near_of_within hy
  rcases h with h | h | h | h <;> linarith

theorem Zone.Paints.lt_frameBytes (h : zone.Paints dimensions bytesPerPixel k) :
    k < frameBytes dimensions bytesPerPixel :=
  (lt_frameBytes_iff h.1).mpr (h.2.2.2.trans_le (pixelRange_snd_le _ _ _))

/-- No pixel of a zone is left, none that is more than a pixel away is touched, and nothing
    behind the frame. -/
theorem apply_masks (mask : StaticZoneMask) (memory : List UInt8) (dimensions : FrameDimensions)
    (hfits : frameBytes dimensions mask.bytesPerPixel ≤ memory.length)
    (hbounds : ∀ zone ∈ mask.zones, ∃ b, zone.bounds = .ok b) :
    ∃ memory' n, mask.apply memory dimensions = (memory', .ok ⟨.masked, n⟩) ∧
      (∀ k < frameBytes dimensions mask.bytesPerPixel,
        ((∃ zone ∈ mask.zones, zone.Meets dimensions (pixelOf dimensions mask.bytesPerPixel k)) →
          memory'[k]? = some 0) ∧
        ((∀ zone ∈ mask.zones, zone.Far dimensions (pixelOf dimensions mask.bytesPerPixel k)) →
          memory'[k]? = memory[k]?)) ∧
      ∀ k, frameBytes dimensions mask.bytesPerPixel ≤ k → memory'[k]? = memory[k]? := by
  obtain ⟨memory', n, hrun, hblanks⟩ := blanks_maskZones hbounds memory 0
  refine ⟨memory', n, (if_neg (not_lt.mpr hfits)).trans hrun, fun k hk => ⟨?_, fun hfar => ?_⟩,
    fun k hk => ?_⟩
  · rintro ⟨zone, hzone, hmeets⟩
    rw [hblanks.zeroed k ⟨zone, hzone, paints_of_meets hk hmeets⟩,
      getElem?_eq_getElem (hk.trans_le hfits), Option.map_some]
  · refine hblanks.kept k ?_
    rintro ⟨zone, hzone, hpaints⟩
    exact not_paints_of_far (hfar zone hzone) hpaints
  · refine hblanks.kept k ?_
    rintro ⟨zone, -, hpaints⟩
    exact absurd hpaints.lt_frameBytes (not_lt.mpr hk)

def half : Zone := ⟨[(0, 0), (1, 0), (1, 1)], by decide⟩

def halfMask : StaticZoneMask := ⟨[half], 1, by decide⟩

theorem inner_half : ((3 / 4, 1 / 4) : ℚ × ℚ) ∈ half.innerPoints := by
  have hopen : IsOpen {v : ℚ × ℚ | 0 < v.2 ∧ v.2 < v.1 ∧ v.1 < 1} :=
    (isOpen_lt continuous_const continuous_snd).inter
      ((isOpen_lt continuous_snd continuous_fst).inter (isOpen_lt continuous_fst continuous_const))
  refine mem_interior.mpr ⟨_, fun v hv => ?_, hopen, by norm_num⟩
  obtain ⟨hlow, hdiagonal, hhigh⟩ := hv
  have hvertex : ∀ w ∈ half.vertices, w ∈ convexHull ℚ {w | w ∈ half.vertices} :=
    fun w hw => subset_convexHull ℚ _ hw
  -- first the point of the lower edge, then the way up to the far corner
  have hsum := (convex_convexHull ℚ {w | w ∈ half.vertices}).sum_mem
    (t := Finset.univ) (w := ![1 - v.1, v.1 - v.2, v.2]) (z := ![(0, 0), (1, 0), (1, 1)])
    (by
      intro i _
      fin_cases i <;> simp <;> linarith)
    (by simp [Fin.sum_univ_three])
    (by
      intro i _
      fin_cases i <;> exact hvertex _ (by simp [half]))
  convert hsum using 1
  simp [Fin.sum_univ_three]

/-- A triangle in a slot with a byte to spare: the upper right pixel is black, and the byte behind
    the frame is what it was. -/
theorem apply_masks_triangle :
    ∃ memory' n, halfMask.apply [7, 7, 7, 7, 7] ⟨⟨2, 2, "grey"⟩, by decide⟩ =
        (memory', .ok ⟨.masked, n⟩) ∧ memory'[1]? = some 0 ∧ memory'[4]? = some 7 := by
  obtain ⟨memory', n, hrun, hframe, hafter⟩ := apply_masks halfMask [7, 7, 7, 7, 7]
    ⟨⟨2, 2, "grey"⟩, by decide⟩ (by decide) fun zone hzone => by
      obtain rfl := mem_singleton.mp hzone
      exact ⟨⟨0, 0, 1, 1⟩, by decide +kernel⟩
  refine ⟨memory', n, hrun, (hframe 1 (by decide)).1 ⟨half, mem_singleton_self _, ?_⟩,
    hafter 4 (by decide)⟩
  have hpixel : pixelOf ⟨⟨2, 2, "grey"⟩, by decide⟩ halfMask.bytesPerPixel 1 = (1, 0) := by decide
  rw [hpixel]
  exact ⟨_, inner_half, by norm_num, by norm_num⟩

end VisionOs.Acquisition
