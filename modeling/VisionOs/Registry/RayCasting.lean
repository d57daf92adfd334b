/-
  The region index in exact arithmetic.  The ray cast, the bounds and the index are written over
  the arithmetic of the coordinates; with the interpreter's floats they are those of the tracker.
-/
import VisionOs.Registry.Regions

namespace VisionOs.Registry

open Core List Option Prod

/-! ## Over an arithmetic -/

/-- The operations that the geometry uses on coordinates. -/
structure Arithmetic (α : Type*) where
  lt : α → α → Bool
  le : α → α → Bool
  add : α → α → α
  sub : α → α → α
  mul : α → α → α
  div : α → α → α
  pyMin : α → α → α
  pyMax : α → α → α

def Arithmetic.float : Arithmetic PyFloat :=
  ⟨PyFloat.lt, PyFloat.le, .add, .sub, .mul, .quotient, .pyMin, .pyMax⟩

/-- The numbers of an ordered field, such as the rationals. -/
def Arithmetic.exact (K : Type*) [Field K] [LinearOrder K] : Arithmetic K :=
  ⟨fun a b => decide (a < b), fun a b => decide (a ≤ b), (· + ·), (· - ·), (· * ·), (· / ·),
    min, max⟩

/-- A region's polygon, of at least three vertices. -/
structure PlaneRegion (α : Type*) where
  regionId : RegionId
  vertices : List (α × α)
  version : String := "1.0.0"
  accepted : 3 ≤ vertices.length
  deriving DecidableEq

namespace PlaneRegion

variable {α : Type*}

def edgesFrom : α → List α → List (α × α)
  | _, [] => []
  | vj, vi :: rest => (vj, vi) :: edgesFrom vi rest

def crosses (A : Arithmetic α) (point vj vi : α × α) : Bool :=
  if A.lt point.2 vi.2 ≠ A.lt point.2 vj.2 then
    A.lt point.1 (A.add (A.div (A.mul (A.sub vj.1 vi.1) (A.sub point.2 vi.2)) (A.sub vj.2 vi.2))
      vi.1)
  else false

/-- `contains`: an odd number of edges is crossed; the first comes from the last vertex. -/
def contains (A : Arithmetic α) (r : PlaneRegion α) (point : α × α) : Bool :=
  match r.vertices.getLast? with
  | none => false
  | some last => (edgesFrom last r.vertices).foldl
      (fun inside edge => if crosses A point edge.1 edge.2 then !inside else inside) false

/-- `min(xs)` and `max(xs)` of a non-empty list: the first of several equal ones. -/
def extreme (pick : α → α → α) : List α → Option α
  | [] => none
  | x :: xs => some (xs.foldl pick x)

/-- `bounds`, as `(x1, y1)` and `(x2, y2)`; a degenerate box raises. -/
def bounds (A : Arithmetic α) (r : PlaneRegion α) : Option ((α × α) × α × α) := do
  let x1 ← extreme A.pyMin (r.vertices.map fst)
  let y1 ← extreme A.pyMin (r.vertices.map snd)
  let x2 ← extreme A.pyMax (r.vertices.map fst)
  let y2 ← extreme A.pyMax (r.vertices.map snd)
  if A.le x2 x1 || A.le y2 y1 then none else some ((x1, y1), x2, y2)

def within (A : Arithmetic α) (box : (α × α) × α × α) (point : α × α) : Bool :=
  A.le box.1.1 point.1 && A.le point.1 box.2.1 && A.le box.1.2 point.2 && A.le point.2 box.2.2

/-- `RegionIndex(regions)`: every region with its bounds. -/
def index (A : Arithmetic α) (regions : List (PlaneRegion α)) :
    Option (List (PlaneRegion α × (α × α) × α × α)) :=
  regions.mapM fun region => (region.bounds A).map (region, ·)

/-- `RegionIndex.containing`. -/
def containing (A : Arithmetic α) (index : List (PlaneRegion α × (α × α) × α × α))
    (point : α × α) : List (PlaneRegion α) :=
  (index.filter fun indexed => within A indexed.2 point && indexed.1.contains A point).map
    fst

/-! ## With the interpreter's floats -/

def pairOf (p : Point) : PyFloat × PyFloat := (p.x, p.y)

def ofRegion (region : Region) : PlaneRegion PyFloat where
  regionId := region.regionId
  vertices := region.geometry.vertices.map pairOf
  version := region.version
  accepted := by
    rw [length_map]
    exact not_lt.mp (require_eq_ok.mp region.geometry.accepted)

/-- An entry of the tracker's index, as a polygon over the floats with its bounds. -/
def ofIndexed (indexed : IndexedRegion) : PlaneRegion PyFloat × (PyFloat × PyFloat) × PyFloat × PyFloat :=
  (ofRegion indexed.region,
    (indexed.bounds.x1, indexed.bounds.y1), indexed.bounds.x2, indexed.bounds.y2)

theorem zip_eq_edgesFrom {β : Type*} (f : α → β) (last : α) (vertices : List α) :
    edgesFrom (f last) (vertices.map f) =
      ((last :: vertices.dropLast).zip vertices).map (map f f) := by
  induction vertices generalizing last with
  | nil => rfl
  | cons v rest ih =>
    cases rest with
    | nil => rfl
    | cons v' rest => exact congrArg ((f last, f v) :: ·) (ih v)

theorem contains_float (region : Region) (point : Point) :
    (ofRegion region).contains .float (pairOf point) = region.geometry.contains point := by
  unfold contains Polygon.contains Polygon.edges ofRegion
  dsimp only
  generalize region.geometry.vertices = vertices
  rw [getLast?_map]
  cases hlast : vertices.getLast? with
  | none =>
    rw [getLast?_eq_none_iff.mp hlast]
    rfl
  | some last =>
    show (edgesFrom (pairOf last) _).foldl _ false = _
    rw [zip_eq_edgesFrom, foldl_map]
    rfl

theorem bounds_float {region : Region} {box : Box} (h : region.geometry.bounds = .ok box) :
    (ofRegion region).bounds .float = some ((box.x1, box.y1), box.x2, box.y2) := by
  obtain ⟨v, rest, hvertices⟩ := exists_cons_of_length_pos
    (Nat.zero_lt_of_lt (not_lt.mp (require_eq_ok.mp region.geometry.accepted)))
  obtain ⟨hbox, rfl⟩ := constructWith_eq_ok_iff.mp h
  have hproper := require_eq_ok.mp hbox
  rw [← Bool.or_eq_true] at hproper
  have hextremes : ∀ pick f, extreme pick (((ofRegion region).vertices).map f) =
      some (Polygon.extreme pick (region.geometry.vertices.map (f ∘ pairOf))) := by
    intro pick f
    show extreme pick ((region.geometry.vertices.map pairOf).map f) = _
    rw [List.map_map, hvertices]
    rfl
  unfold bounds
  simp only [hextremes]
  exact if_neg hproper

/-- With the interpreter's floats, the index over an arithmetic is the tracker's, and it answers
    as the tracker's does. -/
theorem containing_float {regions : List Region} {built : RegionIndex}
    (h : RegionIndex.build regions = .ok built) (point : Point) :
    index .float (regions.map ofRegion) = some (built.map ofIndexed) ∧
      containing .float (built.map ofIndexed) (pairOf point) =
        (built.containing point).map ofRegion := by
  constructor
  · induction regions generalizing built with
    | nil =>
      cases Except.ok.inj h
      rfl
    | cons region rest ih =>
      unfold RegionIndex.build at h
      rw [mapM_cons] at h
      obtain ⟨indexed, hindexed, h⟩ := bind_eq_ok.mp h
      obtain ⟨others, hothers, h⟩ := bind_eq_ok.mp h
      cases Except.ok.inj h
      obtain ⟨box, hbox, hindexed⟩ := bind_eq_ok.mp hindexed
      cases Except.ok.inj hindexed
      have hrest := ih hothers
      unfold index at hrest ⊢
      rw [map_cons, mapM_cons, hrest, bounds_float hbox]
      rfl
  · unfold containing RegionIndex.containing
    rw [List.filter_map, List.map_map, List.map_map]
    congr 1
    refine filter_congr fun indexed _ => ?_
    show (within _ _ _ && (ofRegion indexed.region).contains .float (pairOf point)) = _
    rw [contains_float]
    rfl

/-! ## In an ordered field -/

variable {K : Type*} [Field K] [LinearOrder K] {vertices : List α}

theorem mem_edgesFrom {vj : α} {edge : α × α}
    (h : edge ∈ edgesFrom vj vertices) : (edge.1 = vj ∨ edge.1 ∈ vertices) ∧ edge.2 ∈ vertices := by
  induction vertices generalizing vj with
  | nil => cases h
  | cons vi rest ih =>
    rcases mem_cons.mp h with rfl | hrest
    · exact ⟨.inl rfl, mem_cons_self⟩
    · obtain ⟨hfrom, hto⟩ := ih hrest
      refine ⟨.inr ?_, mem_cons_of_mem _ hto⟩
      rcases hfrom with hvi | hmem
      · exact hvi ▸ mem_cons_self
      · exact mem_cons_of_mem _ hmem

/-- A count of edges whose two ends differ in a mark: its parity is that of the ends of the
    whole chain. -/
theorem foldl_toggle (mark : α → Bool) (crossed : α × α → Bool) {vj : α}
    (h : ∀ e ∈ edgesFrom vj vertices, crossed e = (mark e.1 ^^ mark e.2)) (inside : Bool) :
    (edgesFrom vj vertices).foldl (fun inside e => if crossed e then !inside else inside) inside =
      (inside ^^ mark vj ^^ mark ((vj :: vertices).getLast (cons_ne_nil _ _))) := by
  induction vertices generalizing vj inside with
  | nil =>
    show inside = (inside ^^ mark vj ^^ mark vj)
    rw [Bool.xor_assoc, Bool.xor_self, Bool.xor_false]
  | cons vi rest ih =>
    have hfirst := h (vj, vi) mem_cons_self
    show (edgesFrom vi rest).foldl _ (if crossed (vj, vi) then !inside else inside) = _
    rw [ih (fun e he => h e (mem_cons_of_mem _ he)), hfirst, getLast_cons_cons]
    cases inside <;> cases mark vj <;> cases mark vi <;> rfl

/-- Nothing is inside of a polygon whose crossed edges are those with differing ends. -/
theorem contains_eq_false {A : Arithmetic α} {r : PlaneRegion α} {point : α × α}
    (mark : α × α → Bool)
    (h : ∀ vj ∈ r.vertices, ∀ vi ∈ r.vertices, crosses A point vj vi = (mark vj ^^ mark vi)) :
    r.contains A point = false := by
  unfold contains
  cases hlast : r.vertices.getLast? with
  | none => rfl
  | some last =>
    obtain ⟨hne, rfl⟩ := mem_getLast?_eq_getLast hlast
    show (edgesFrom _ _).foldl _ false = false
    rw [foldl_toggle mark (fun e => crosses A point e.1 e.2) (fun e he => ?_),
      getLast_cons hne, Bool.false_xor, Bool.xor_self]
    obtain ⟨hfrom, hto⟩ := mem_edgesFrom he
    refine h _ ?_ _ hto
    rcases hfrom with hfrom | hfrom
    · rw [hfrom]
      exact getLast_mem hne
    · exact hfrom

theorem extreme_spec {R : α → α → Prop} (hrefl : ∀ a, R a a)
    (htrans : ∀ a b c, R a b → R b c → R a c) {pick : α → α → α} (hleft : ∀ a b, R (pick a b) a)
    (hright : ∀ a b, R (pick a b) b) {xs : List α} {e : α} (h : extreme pick xs = some e) :
    ∀ x ∈ xs, R e x := by
  cases xs with
  | nil => cases h
  | cons y ys =>
    obtain rfl := some.inj h
    induction ys generalizing y with
    | nil => simpa using hrefl y
    | cons z zs ih =>
      intro x hx
      have hpicked := ih (pick y z) rfl
      have hhead := hpicked _ mem_cons_self
      rcases mem_cons.mp hx with rfl | hx
      · exact htrans _ _ _ hhead (hleft x z)
      · rcases mem_cons.mp hx with rfl | hx
        · exact htrans _ _ _ hhead (hright y x)
        · exact hpicked x (mem_cons_of_mem _ hx)

variable {box : (K × K) × K × K} {r : PlaneRegion K}

theorem bounds_spec
    (h : r.bounds (.exact K) = some box) {v : K × K} (hv : v ∈ r.vertices) :
    box.1.1 ≤ v.1 ∧ v.1 ≤ box.2.1 ∧ box.1.2 ≤ v.2 ∧ v.2 ≤ box.2.2 := by
  obtain ⟨x1, hx1, h⟩ := bind_eq_some_iff.mp h
  obtain ⟨y1, hy1, h⟩ := bind_eq_some_iff.mp h
  obtain ⟨x2, hx2, h⟩ := bind_eq_some_iff.mp h
  obtain ⟨y2, hy2, h⟩ := bind_eq_some_iff.mp h
  split at h
  · cases h
  obtain rfl := some.inj h
  have hleast : ∀ {xs : List K} {e : K}, extreme min xs = some e → ∀ x ∈ xs, e ≤ x :=
    extreme_spec le_refl (fun _ _ _ => le_trans) min_le_left min_le_right
  have hgreatest : ∀ {xs : List K} {e : K}, extreme max xs = some e → ∀ x ∈ xs, x ≤ e :=
    extreme_spec (R := fun a b : K => b ≤ a) le_refl (fun _ _ _ hab hbc => hbc.trans hab)
      le_max_left le_max_right
  exact ⟨hleast hx1 _ (mem_map_of_mem hv), hgreatest hx2 _ (mem_map_of_mem hv),
    hleast hy1 _ (mem_map_of_mem hv), hgreatest hy2 _ (mem_map_of_mem hv)⟩

theorem crosses_eq (point vj vi : K × K) : crosses (.exact K) point vj vi =
    if decide (point.2 < vi.2) ≠ decide (point.2 < vj.2) then
      decide (point.1 < (vj.1 - vi.1) * (point.2 - vi.2) / (vj.2 - vi.2) + vi.1)
    else false := rfl

variable [IsStrictOrderedRing K]

/-- Where an edge meets the level of a point between its ends, in parts of its way. -/
theorem exists_part {y yi yj : K} (h : (y < yi) ≠ (y < yj)) :
    ∃ t : K, 0 ≤ t ∧ t ≤ 1 ∧ ∀ xi xj : K,
      (xj - xi) * (y - yi) / (yj - yi) + xi = (1 - t) * xi + t * xj := by
  refine ⟨(y - yi) / (yj - yi), ?_, ?_, fun xi xj => by ring⟩
  · by_cases hi : y < yi
    · have hj : ¬ y < yj := fun hj => h (propext (iff_of_true hi hj))
      exact div_nonneg_of_nonpos (by linarith) (by linarith)
    · have hj : y < yj := by
        by_contra hj
        exact h (propext (iff_of_false hi hj))
      exact div_nonneg (by linarith) (by linarith)
  · by_cases hi : y < yi
    · have hj : ¬ y < yj := fun hj => h (propext (iff_of_true hi hj))
      rw [div_le_one_of_neg (by linarith)]
      linarith
    · have hj : y < yj := by
        by_contra hj
        exact h (propext (iff_of_false hi hj))
      rw [div_le_one (by linarith)]
      linarith

theorem crosses_exact (point vj vi : K × K) :
    (point.1 < vj.1 → point.1 < vi.1 → crosses (.exact K) point vj vi =
      (decide (point.2 < vj.2) ^^ decide (point.2 < vi.2))) ∧
    (vj.1 < point.1 → vi.1 < point.1 → crosses (.exact K) point vj vi = false) := by
  rw [crosses_eq]
  by_cases h : decide (point.2 < vi.2) ≠ decide (point.2 < vj.2)
  · have hlevels : (point.2 < vi.2) ≠ (point.2 < vj.2) := fun hsame => h (by simp only [hsame])
    obtain ⟨t, ht0, ht1, hmeets⟩ := exists_part hlevels
    have hxor : (decide (point.2 < vj.2) ^^ decide (point.2 < vi.2)) = true := by
      revert h
      cases decide (point.2 < vj.2) <;> cases decide (point.2 < vi.2) <;> simp
    rw [if_pos h, hxor, hmeets, decide_eq_true_iff, decide_eq_false_iff_not, not_lt]
    constructor
    · intro hj hi
      nlinarith [mul_nonneg ht0 (sub_nonneg.mpr hj.le),
        mul_nonneg (sub_nonneg.mpr ht1) (sub_nonneg.mpr hi.le)]
    · intro hj hi
      nlinarith [mul_nonneg ht0 (sub_nonneg.mpr hj.le),
        mul_nonneg (sub_nonneg.mpr ht1) (sub_nonneg.mpr hi.le)]
  · rw [if_neg h]
    refine ⟨fun _ _ => ?_, fun _ _ => rfl⟩
    rw [not_not.mp h, Bool.xor_self]

theorem within_of_contains
    (h : r.bounds (.exact K) = some box) {point : K × K}
    (hin : r.contains (.exact K) point = true) : within (.exact K) box point = true := by
  have hcase : ∀ mark : K × K → Bool, (∀ vj ∈ r.vertices, ∀ vi ∈ r.vertices,
      crosses (.exact K) point vj vi = (mark vj ^^ mark vi)) → False := by
    intro mark hmark
    rw [contains_eq_false mark hmark] at hin
    cases hin
  have hlevel : ∀ b : Bool, (∀ v ∈ r.vertices, decide (point.2 < v.2) = b) → False := by
    intro b hb
    refine hcase (fun _ => b) fun vj hvj vi hvi => ?_
    rw [crosses_eq, if_neg (not_not.mpr ((hb vi hvi).trans (hb vj hvj).symm)), Bool.xor_self]
  unfold within
  simp only [Bool.and_eq_true]
  refine ⟨⟨⟨?_, ?_⟩, ?_⟩, ?_⟩ <;> refine decide_eq_true (not_lt.mp fun hout => ?_)
  · -- left of the polygon every edge that reaches the level is crossed
    refine hcase (fun v => decide (point.2 < v.2)) fun vj hvj vi hvi => ?_
    exact (crosses_exact point vj vi).1 (hout.trans_le (bounds_spec h hvj).1)
      (hout.trans_le (bounds_spec h hvi).1)
  · refine hcase (fun _ => false) fun vj hvj vi hvi => ?_
    exact (crosses_exact point vj vi).2 ((bounds_spec h hvj).2.1.trans_lt hout)
      ((bounds_spec h hvi).2.1.trans_lt hout)
  · exact hlevel true fun v hv => decide_eq_true (hout.trans_le (bounds_spec h hv).2.2.1)
  · exact hlevel false fun v hv => decide_eq_false
      (((bounds_spec h hv).2.2.2.trans_lt hout).not_gt)

/-- The index answers with exactly the regions whose polygon contains the point, in order. -/
theorem containing_exact (K : Type*) [Field K] [LinearOrder K] [IsStrictOrderedRing K]
    (regions : List (PlaneRegion K)) (indexed : List (PlaneRegion K × (K × K) × K × K))
    (h : index (.exact K) regions = some indexed) (point : K × K) :
    containing (.exact K) indexed point =
      regions.filter fun region => region.contains (.exact K) point := by
  induction regions generalizing indexed with
  | nil =>
    obtain rfl := some.inj h
    rfl
  | cons region rest ih =>
    unfold index at h
    rw [mapM_cons] at h
    obtain ⟨entry, hentry, h⟩ := bind_eq_some_iff.mp h
    obtain ⟨others, hothers, h⟩ := bind_eq_some_iff.mp h
    obtain rfl := some.inj h
    obtain ⟨box, hbox, rfl⟩ := map_eq_some_iff.mp hentry
    have hrest := ih others hothers
    unfold containing at hrest ⊢
    by_cases hin : region.contains (.exact K) point = true
    · rw [filter_cons, filter_cons, if_pos hin, hin, within_of_contains hbox hin,
        if_pos (Bool.and_true _), map_cons, hrest]
    · rw [filter_cons, filter_cons, if_neg hin, if_neg (by simp [hin]), hrest]

def triangle : PlaneRegion ℚ where
  regionId := "triangle"
  vertices := [(1, 0), (2, 0), (1, 2)]
  accepted := le_rfl

/-- A point level with the middle of the triangle, inside of it. -/
theorem containing_exact_triangle :
    containing (.exact ℚ) [(triangle, (1, 0), 2, 2)] (5 / 4, 1) = [triangle] :=
  (containing_exact ℚ [triangle] [(triangle, (1, 0), 2, 2)] (by decide +kernel) (5 / 4, 1)).trans
    (by decide +kernel)

end PlaneRegion

end VisionOs.Registry
