/-
  `UnderstandingBudget` in exact arithmetic, with calls of any cost: what is spent over a stretch
  of time is bounded by the burst and the allowance of the window boundaries in it.
-/
import VisionOs.Cropping.Budget
import VisionOs.Lib.Runs
import Mathlib.Tactic.Linarith

namespace VisionOs.Cropping

open Core Lib List Runs Int Nat

structure CeilingSettings where
  ceilingPerHour : ℚ
  window : Duration
  nonneg : 0 ≤ ceilingPerHour
  positive : 0 < window.ns

/-- The fields of the budget that its calls change. -/
structure Ceiling where
  windowStarted : Instant
  spentInWindow : Int := 0
  shedInWindow : Int := 0
  demandSpend : OrderedDict String Int := ∅
  credit : ℚ

inductive BudgetCall where
  | trySpend (now : Instant) (demandIds : List String) (cost : ℕ+)
  | refund (cost : ℕ+) (demandIds : List String)
  | status (now : Instant)

def BudgetCall.instant? : BudgetCall → Option Instant
  | .trySpend now _ _ | .status now => some now
  | .refund _ _ => none

namespace CeilingSettings

variable (b : CeilingSettings)

def allowance : ℚ := b.ceilingPerHour * (b.window.ns / 1000000000 / 3600)

def burst : ℚ := if 0 < b.ceilingPerHour then max 1 b.allowance else 0

/-- `UnderstandingBudget(...)`. -/
def initial (now : Instant) : Ceiling := { windowStarted := now, credit := b.burst }

def reconcile (s : Ceiling) (now : Instant) : Ceiling :=
  let elapsed := now.ns - s.windowStarted.ns
  if elapsed < b.window.ns then s
  else
    let windows := elapsed / b.window.ns
    { windowStarted := ⟨s.windowStarted.ns + windows * b.window.ns⟩
      credit := min b.burst (s.credit + windows * b.allowance) }

def trySpend (s : Ceiling) (now : Instant) (demandIds : List String) (cost : Int) :
    Bool × Ceiling :=
  let s := b.reconcile s now
  if s.credit < cost then (false, { s with shedInWindow := s.shedInWindow + 1 })
  else
    (true, { s with
      credit := s.credit - cost
      spentInWindow := s.spentInWindow + cost
      demandSpend := demandIds.foldl
        (fun spend id => spend.set id ((spend.get? id).getD 0 + cost)) s.demandSpend })

def refund (s : Ceiling) (cost : Int) (demandIds : List String) : Ceiling :=
  { s with
    credit := min b.burst (s.credit + cost)
    spentInWindow := max 0 (s.spentInWindow - cost)
    demandSpend := demandIds.foldl
      (fun spend id => spend.modify id fun calls => max 0 (calls - cost)) s.demandSpend }

def step (s : Ceiling) : BudgetCall → Ceiling
  | .trySpend now demandIds cost => (b.trySpend s now demandIds cost).2
  | .refund cost demandIds => b.refund s cost demandIds
  | .status now => b.reconcile s now

def net (s : Ceiling) : BudgetCall → ℚ
  | .trySpend now demandIds cost => if (b.trySpend s now demandIds cost).1 then cost else 0
  | .refund cost _ => -cost
  | .status _ => 0

def netSpent (s : Ceiling) : List BudgetCall → ℚ
  | [] => 0
  | call :: rest => b.net s call + netSpent (b.step s call) rest

def boundaries (start now : Instant) : ℕ := ((now.ns - start.ns) / b.window.ns).toNat

def reconciled (start : Instant) (n : ℕ) (call : BudgetCall) : ℕ :=
  call.instant?.elim n fun now => max n (b.boundaries start now)

/-- The window has moved on by whole windows, and the credit is within its bounds. -/
structure Kept (start : Instant) (s : Ceiling) (n : ℕ) : Prop where
  started : s.windowStarted.ns = start.ns + n * b.window.ns
  nonneg : 0 ≤ s.credit
  capped : s.credit ≤ b.burst

variable {b} {start now : Instant} {s : Ceiling} {n : ℕ}

theorem allowance_nonneg : 0 ≤ b.allowance := by
  have hwindow : (0 : ℚ) ≤ b.window.ns := cast_nonneg (le_of_lt b.positive)
  exact mul_nonneg b.nonneg (div_nonneg (div_nonneg hwindow (by norm_num)) (by norm_num))

theorem burst_nonneg : 0 ≤ b.burst := by
  unfold burst
  split
  · exact le_trans zero_le_one (le_max_left _ _)
  · exact le_rfl

theorem kept_initial : b.Kept start (b.initial start) 0 where
  started := by simp [initial]
  nonneg := burst_nonneg
  capped := le_rfl

theorem reconcile_spec (h : b.Kept start s n) :
    b.Kept start (b.reconcile s now) (max n (b.boundaries start now)) ∧
      (b.reconcile s now).credit =
        min b.burst (s.credit + ((max n (b.boundaries start now) : ℕ) - n : ℚ) * b.allowance) := by
  have hshift : (now.ns - s.windowStarted.ns) / b.window.ns =
      (now.ns - start.ns) / b.window.ns - n := by
    rw [h.started, ← sub_sub, sub_mul_ediv_right _ _ (ne_of_gt b.positive)]
  unfold reconcile
  simp only
  split
  · have hno : (now.ns - s.windowStarted.ns) / b.window.ns ≤ 0 := by
      have := Int.ediv_lt_of_lt_mul b.positive (by rwa [one_mul] : _ < 1 * b.window.ns)
      omega
    have hmax : max n (b.boundaries start now) = n := max_eq_left (by unfold boundaries; omega)
    rw [hmax, sub_self, zero_mul, add_zero, min_eq_right h.capped]
    exact ⟨h, rfl⟩
  · have hsome : 1 ≤ (now.ns - s.windowStarted.ns) / b.window.ns :=
      (Int.le_ediv_iff_mul_le b.positive).mpr (by omega)
    have hmax : ((max n (b.boundaries start now) : ℕ) : Int) =
        n + (now.ns - s.windowStarted.ns) / b.window.ns := by
      unfold boundaries
      omega
    have hmaxq : ((max n (b.boundaries start now) : ℕ) : ℚ) - n =
        ((now.ns - s.windowStarted.ns) / b.window.ns : Int) := by
      rw [← cast_natCast, hmax]
      push_cast
      ring
    rw [hmaxq]
    have hrefill := mul_nonneg (cast_nonneg (R := ℚ) (by omega : 0 ≤
      (now.ns - s.windowStarted.ns) / b.window.ns)) b.allowance_nonneg
    refine ⟨⟨?_, le_min burst_nonneg (add_nonneg h.nonneg hrefill), min_le_left _ _⟩, rfl⟩
    rw [hmax, add_mul, ← add_assoc, ← h.started]

/-- What one call does to the credit, held against the allowance of the windows it passes. -/
structure Settles (start : Instant) (s : Ceiling) (n : ℕ) (call : BudgetCall) : Prop where
  kept : b.Kept start (b.step s call) (b.reconciled start n call)
  spent : (b.step s call).credit + b.net s call ≤
    s.credit + ((b.reconciled start n call : ℕ) - n : ℚ) * b.allowance
  timed : call.instant?.isSome → (b.step s call).credit + b.net s call ≤ b.burst
  refunded : call.instant? = none → b.net s call ≤ 0
  refilled : b.net s call ≤ 0 → min b.burst
    (s.credit + ((b.reconciled start n call : ℕ) - n : ℚ) * b.allowance) ≤ (b.step s call).credit

theorem settles_status (h : b.Kept start s n) : b.Settles start s n (.status now) := by
  obtain ⟨hkept, hcredit⟩ := @reconcile_spec b start now s n h
  have hnet : (b.reconcile s now).credit + 0 = _ := (add_zero _).trans hcredit
  exact
    { kept := hkept
      spent := hnet.trans_le (min_le_right _ _)
      timed := fun _ => hnet.trans_le (min_le_left _ _)
      refunded := fun _ => le_rfl
      refilled := fun _ => hcredit.ge }

/-- One call settles: spending is paid for by the credit and the windows it passes. -/
theorem step_settles (h : b.Kept start s n) (call : BudgetCall) : b.Settles start s n call := by
  -- a window that opens refills the credit; a call spends from it or returns to it
  cases call with
  | status now => exact settles_status h
  | trySpend now demandIds cost =>
    obtain ⟨hkept, hspent, htimed, -, hrefilled⟩ := @settles_status b start now s n h
    have hcost : (0 : ℚ) < (cost : Int) := by exact_mod_cast cost.pos
    by_cases hshort : (b.reconcile s now).credit < (cost : Int)
    · have hrefused : b.trySpend s now demandIds cost = (false, { b.reconcile s now with
          shedInWindow := (b.reconcile s now).shedInWindow + 1 }) := if_pos hshort
      have hnet : b.net s (.trySpend now demandIds cost) = 0 := by
        simp only [net, hrefused, Bool.false_eq_true, if_false]
      constructor <;> simp only [step, hrefused, hnet]
      · exact ⟨hkept.started, hkept.nonneg, hkept.capped⟩
      · exact hspent
      · exact fun _ => htimed rfl
      · exact fun _ => le_rfl
      · exact fun _ => hrefilled le_rfl
    · have hnet : b.net s (.trySpend now demandIds cost) = (cost : Int) := by
        simp only [net, trySpend, if_neg hshort, if_true]
        rfl
      have hcredit : (b.step s (.trySpend now demandIds cost)).credit =
          (b.reconcile s now).credit - (cost : Int) := by
        simp only [step, trySpend, if_neg hshort]
      have hstarted : (b.step s (.trySpend now demandIds cost)).windowStarted =
          (b.reconcile s now).windowStarted := by
        simp only [step, trySpend, if_neg hshort]
      constructor
      · exact ⟨hstarted ▸ hkept.started, hcredit ▸ sub_nonneg.mpr (not_lt.mp hshort),
          hcredit ▸ (sub_le_self _ hcost.le).trans hkept.capped⟩
      · rw [hcredit, hnet, sub_add_cancel]
        exact (add_zero _).ge.trans hspent
      · rw [hcredit, hnet, sub_add_cancel]
        exact fun _ => hkept.capped
      · intro hnone
        cases hnone
      · rw [hnet]
        exact fun hfree => absurd hfree (not_le.mpr hcost)
  | refund cost demandIds =>
    have hcost : (0 : ℚ) < (cost : Int) := by exact_mod_cast cost.pos
    have hsame : b.reconciled start n (.refund cost demandIds) = n := rfl
    have hcredit : (b.step s (.refund cost demandIds)).credit =
        min b.burst (s.credit + (cost : Int)) := rfl
    have hnet : b.net s (.refund cost demandIds) = -(cost : Int) := rfl
    have hmore : s.credit ≤ s.credit + (cost : Int) := le_add_of_nonneg_right hcost.le
    constructor
    · exact ⟨h.started, hcredit ▸ le_min burst_nonneg (h.nonneg.trans hmore),
        hcredit ▸ min_le_left _ _⟩
    · rw [hcredit, hnet, hsame, sub_self, zero_mul, add_zero, ← sub_eq_add_neg, sub_le_iff_le_add]
      exact min_le_right _ _
    · intro htimed
      cases htimed
    · exact fun _ => hnet ▸ neg_nonpos.mpr hcost.le
    · rw [hcredit, hsame, sub_self, zero_mul, add_zero]
      exact fun _ => min_le_min_left _ hmore

/-! ## Over a stretch of calls -/

variable {t₀ t₁ : Instant} {calls : List BudgetCall} {w : ℕ} {spent : ℚ}

theorem boundaries_mono (h : t₀.ns ≤ t₁.ns) : b.boundaries start t₀ ≤ b.boundaries start t₁ :=
  Int.toNat_le_toNat (Int.ediv_le_ediv b.positive (by omega))

theorem run_kept (h : b.Kept start s n) (calls : List BudgetCall) :
    b.Kept start (run b.step s calls) (calls.foldl (b.reconciled start) n) := by
  induction calls generalizing s n with
  | nil => exact h
  | cons call rest ih => exact ih (step_settles h call).kept

theorem le_reconciled (call : BudgetCall) : n ≤ b.reconciled start n call := by
  cases call <;> simp [reconciled, BudgetCall.instant?]

theorem le_foldl_reconciled (calls : List BudgetCall) : n ≤ calls.foldl (b.reconciled start) n := by
  induction calls generalizing n with
  | nil => exact le_rfl
  | cons call rest ih => exact (le_reconciled call).trans ih

theorem reconciled_le (hn : n ≤ w)
    (hcalls : ∀ c ∈ calls, ∀ now, c.instant? = some now → b.boundaries start now ≤ w) :
    calls.foldl (b.reconciled start) n ≤ w := by
  induction calls generalizing n with
  | nil => exact hn
  | cons call rest ih =>
    have hstep : b.reconciled start n call ≤ w := by
      unfold reconciled
      cases hinstant : call.instant? with
      | none => exact hn
      | some now => exact max_le hn (hcalls call mem_cons_self now hinstant)
    exact ih hstep fun c hc => hcalls c (mem_cons_of_mem _ hc)

/-- The books of a stretch that begins after `w` boundaries.  Before its first reconciliation
    there are refunds only; from then on the credit pays for what was spent. -/
def InBounds (b : CeilingSettings) (w n : ℕ) (s : Ceiling) (spent : ℚ) : Prop :=
  (n ≤ w ∧ spent ≤ 0) ∨ (w ≤ n ∧ spent + s.credit ≤ b.burst + (n - w : ℚ) * b.allowance)

theorem Settles.inBounds {call : BudgetCall} (h : b.Settles start s n call)
    (hcall : ∀ now, call.instant? = some now → w ≤ b.boundaries start now)
    (hbooks : b.InBounds w n s spent) :
    b.InBounds w (b.reconciled start n call) (b.step s call) (spent + b.net s call) := by
  have hmore : n ≤ b.reconciled start n call := le_reconciled call
  rcases hbooks with ⟨hn, hspent⟩ | ⟨hw, hspent⟩
  · cases hinstant : call.instant? with
    | none =>
      have hsame : b.reconciled start n call = n := by rw [reconciled, hinstant]; rfl
      exact .inl ⟨hsame.trans_le hn, add_nonpos hspent (h.refunded hinstant)⟩
    | some now =>
      have hw : w ≤ b.reconciled start n call := by
        rw [reconciled, hinstant]
        exact (hcall now hinstant).trans (le_max_right _ _)
      have hrest : 0 ≤ ((b.reconciled start n call : ℕ) - w : ℚ) * b.allowance :=
        mul_nonneg (sub_nonneg.mpr (cast_le.mpr hw)) allowance_nonneg
      have htimed := h.timed (by rw [hinstant]; rfl)
      exact .inr ⟨hw, by linarith⟩
  · have hpaid := h.spent
    exact .inr ⟨hw.trans hmore, by linarith⟩

theorem netSpent_inBounds (h : b.Kept start s n)
    (hcalls : ∀ c ∈ calls, ∀ now, c.instant? = some now → w ≤ b.boundaries start now)
    (hbooks : b.InBounds w n s spent) :
    b.InBounds w (calls.foldl (b.reconciled start) n) (run b.step s calls)
      (spent + b.netSpent s calls) := by
  induction calls generalizing s n spent with
  | nil => simpa [netSpent] using hbooks
  | cons call rest ih =>
    have hstep := step_settles h call
    have hnow := hstep.inBounds (hcalls call mem_cons_self) hbooks
    rw [netSpent, ← add_assoc]
    exact ih hstep.kept (fun c hc => hcalls c (mem_cons_of_mem _ hc)) hnow

/-- No call of the stretch spends. -/
def Idle (b : CeilingSettings) (s : Ceiling) (calls : List BudgetCall) : Prop :=
  Runs.Always b.step (fun s call => b.net s call ≤ 0) s calls

theorem credit_of_idle (h : b.Kept start s n) (hidle : b.Idle s calls) :
    min b.burst (s.credit + ((calls.foldl (b.reconciled start) n : ℕ) - n : ℚ) * b.allowance) ≤
      (run b.step s calls).credit := by
  induction calls generalizing s n with
  | nil => simp [run_nil]
  | cons call rest ih =>
    have hstep := step_settles h call
    have hnow := hstep.refilled hidle.1
    have hrest : 0 ≤ ((rest.foldl (b.reconciled start) (b.reconciled start n call) : ℕ) -
        (b.reconciled start n call : ℕ) : ℚ) * b.allowance :=
      mul_nonneg (sub_nonneg.mpr (cast_le.mpr (le_foldl_reconciled rest))) allowance_nonneg
    refine le_trans (le_min (min_le_left _ _) ?_) (ih hstep.kept hidle.2)
    rw [foldl_cons]
    rcases min_le_iff.mp hnow with hfull | hshort
    · exact (min_le_left _ _).trans (by linarith)
    · exact (min_le_right _ _).trans (by linarith)

/-! ## The ceiling -/

/-- The call reads no clock, or one not after the instant. -/
def NotAfter (t : Instant) (call : BudgetCall) : Prop :=
  ∀ now, call.instant? = some now → now.ns ≤ t.ns

/-- The call reads no clock, or one within the stretch. -/
def Within (t₀ t₁ : Instant) (call : BudgetCall) : Prop :=
  ∀ now, call.instant? = some now → t₀.ns ≤ now.ns ∧ now.ns ≤ t₁.ns

theorem netSpent_le (h : b.Kept start s n) (hn : n ≤ b.boundaries start t₀)
    (hcalls : ∀ c ∈ calls, Within t₀ t₁ c) : b.netSpent s calls ≤
      b.burst + (b.boundaries start t₁ - b.boundaries start t₀ : ℕ) * b.allowance := by
  have hlast : calls.foldl (b.reconciled start) n ≤
      max (b.boundaries start t₀) (b.boundaries start t₁) :=
    reconciled_le (hn.trans (le_max_left _ _)) fun c hc now hnow =>
      (boundaries_mono (hcalls c hc now hnow).2).trans (le_max_right _ _)
  have hbooks : b.InBounds (b.boundaries start t₀) (calls.foldl (b.reconciled start) n)
      (run b.step s calls) (0 + b.netSpent s calls) :=
    netSpent_inBounds h (fun c hc now hnow => boundaries_mono (hcalls c hc now hnow).1)
      (.inl ⟨hn, le_rfl⟩)
  rw [zero_add] at hbooks
  rcases hbooks with ⟨-, hspent⟩ | ⟨hfirst, hspent⟩
  · exact hspent.trans (add_nonneg burst_nonneg (mul_nonneg (Nat.cast_nonneg _) allowance_nonneg))
  · have hwindows : calls.foldl (b.reconciled start) n - b.boundaries start t₀ ≤
        b.boundaries start t₁ - b.boundaries start t₀ := by omega
    have hrefill := mul_le_mul_of_nonneg_right (cast_le (α := ℚ).mpr hwindows) b.allowance_nonneg
    rw [cast_sub hfirst] at hrefill
    linarith [(run_kept h calls).nonneg]

theorem affords (h : b.Kept start s n) (hn : n ≤ b.boundaries start t₀)
    (hopen : 0 < b.ceilingPerHour) (hidle : b.Idle s calls)
    (hw : ⌈1 / b.allowance⌉₊ ≤ b.boundaries start t₁ - b.boundaries start t₀)
    (demandIds : List String) :
    (b.trySpend (run b.step s calls) t₁ demandIds 1).1 = true := by
  -- A look at the budget in `t₁` spends nothing, and refills it for all the windows.
  have hlook : b.Idle s (calls ++ [BudgetCall.status t₁]) :=
    always_append.mpr ⟨hidle, le_refl (0 : ℚ), trivial⟩
  obtain ⟨m, hmore, hlast, hcredit⟩ : ∃ m : ℕ, n ≤ m ∧ b.boundaries start t₁ ≤ m ∧
      min b.burst (s.credit + (m - n : ℚ) * b.allowance) ≤
        (b.reconcile (run b.step s calls) t₁).credit := by
    have hcredit := credit_of_idle h hlook
    have hmore : n ≤ (calls ++ [BudgetCall.status t₁]).foldl (b.reconciled start) n :=
      le_foldl_reconciled _
    rw [foldl_append, run_append] at hcredit
    rw [foldl_append] at hmore
    exact ⟨_, hmore, le_max_right _ _, hcredit⟩
  have hpositive : 0 < b.allowance :=
    mul_pos hopen (div_pos (div_pos (cast_pos.mpr b.positive) (by norm_num)) (by norm_num))
  have hwindows : (⌈1 / b.allowance⌉₊ : ℚ) ≤ m - n := by
    rw [← Nat.cast_sub hmore, Nat.cast_le]
    omega
  have hone : 1 ≤ (m - n : ℚ) * b.allowance :=
    (div_le_iff₀ hpositive).mp ((Nat.le_ceil _).trans hwindows)
  have henough : 1 ≤ (b.reconcile (run b.step s calls) t₁).credit := by
    refine le_trans (le_min ?_ (by linarith [h.nonneg])) hcredit
    rw [burst, if_pos hopen]
    exact le_max_left _ _
  unfold trySpend
  rw [if_neg (not_lt.mpr (by simpa using henough))]

/-- Over every run: the credit stays within the burst, no stretch spends more than its allowance,
    and a call is afforded again. -/
theorem ceiling_holds (b : CeilingSettings) (start t₀ t₁ : Instant)
    (before calls : List BudgetCall)
    (hbefore : ∀ c ∈ before, NotAfter t₀ c) (hcalls : ∀ c ∈ calls, Within t₀ t₁ c) :
    let s := run b.step (b.initial start) before
    let s' := run b.step s calls
    let w := b.boundaries start t₁ - b.boundaries start t₀
    (0 ≤ s'.credit ∧ s'.credit ≤ b.burst) ∧ b.netSpent s calls ≤ b.burst + w * b.allowance ∧
      (0 < b.ceilingPerHour → b.Idle s calls → ⌈1 / b.allowance⌉₊ ≤ w →
        ∀ demandIds, (b.trySpend s' t₁ demandIds 1).1 = true) := by
  have hs : b.Kept start (run b.step (b.initial start) before)
      (before.foldl (b.reconciled start) 0) := run_kept kept_initial before
  have hn : before.foldl (b.reconciled start) 0 ≤ b.boundaries start t₀ :=
    reconciled_le (zero_le _) fun c hc now hnow => boundaries_mono (hbefore c hc now hnow)
  have hs' := run_kept hs calls
  exact ⟨⟨hs'.nonneg, hs'.capped⟩, netSpent_le hs hn hcalls, affords hs hn⟩

def thirtyAnHour : CeilingSettings where
  ceilingPerHour := 30
  window := ⟨60000000000⟩
  nonneg := by decide
  positive := by decide

theorem ceiling_holds_thirty :
    let s := run thirtyAnHour.step (thirtyAnHour.initial ⟨0⟩) [.trySpend ⟨0⟩ [] 1]
    ∀ demandIds, (thirtyAnHour.trySpend s ⟨120000000000⟩ demandIds 1).1 = true :=
  (ceiling_holds thirtyAnHour ⟨0⟩ ⟨0⟩ ⟨120000000000⟩ [.trySpend ⟨0⟩ [] 1] []
    (by simp [NotAfter, BudgetCall.instant?]) (by simp)).2.2 (by decide) trivial (by decide +kernel)

end CeilingSettings

end VisionOs.Cropping
