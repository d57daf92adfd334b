/-
  `UnderstandingBudget`: the credit of expensive calls, refilled by whole windows.  `Spending` is
  the budget as the crop manager uses it, with a tally that is kept for the proofs and read by no
  function.
-/
import VisionOs.Core.FloatArith
import VisionOs.Core.Ids
import VisionOs.Lib.OrderedDict
import VisionOs.Lib.Tally

namespace VisionOs.Cropping

open Core Lib

structure UnderstandingBudgetFields where
  ceilingPerHour : PyFloat
  window : Duration := ⟨60000000000⟩
  windowStarted : Instant := ⟨0⟩
  spentInWindow : Int := 0
  shedInWindow : Int := 0
  demandSpend : OrderedDict String Int := ∅
  credit : PyFloat := .finite 0
  deriving DecidableEq

/-- The checks of `UnderstandingBudget.__init__`. -/
def UnderstandingBudgetFields.postInit (b : UnderstandingBudgetFields) : Raises Unit := do
  require (b.ceilingPerHour.lt (.finite 0) = false)
    (.valueError "ceiling_per_hour must be non-negative")
  require (¬ b.window.ns ≤ 0) (.valueError "the reconciliation window must be positive")

/-- `UnderstandingBudget`: a budget whose settings its constructor accepts. -/
structure UnderstandingBudget extends UnderstandingBudgetFields where
  accepted : toUnderstandingBudgetFields.postInit = .ok ()
  deriving DecidableEq

namespace UnderstandingBudget

def allowance (b : UnderstandingBudgetFields) : PyFloat :=
  b.ceilingPerHour.mul ((PyFloat.ofRatio b.window.ns 1000000000).quotient (.finite 3600))

def burst (b : UnderstandingBudgetFields) : PyFloat :=
  if (PyFloat.finite 0).lt b.ceilingPerHour then .pyMax (.finite 1) (allowance b) else .finite 0

/-- `UnderstandingBudget(...)`: it starts full. -/
def construct (ceilingPerHour : PyFloat) (window : Duration) (now : Instant) :
    Raises UnderstandingBudget :=
  let fields : UnderstandingBudgetFields := { ceilingPerHour, window, windowStarted := now }
  constructWith UnderstandingBudgetFields.postInit mk { fields with credit := burst fields }

/-- The budget with the rest of its fields changed, its settings kept. -/
def update (b : UnderstandingBudget) (windowStarted : Instant) (spentInWindow shedInWindow : Int)
    (demandSpend : OrderedDict String Int) (credit : PyFloat) : UnderstandingBudget where
  toUnderstandingBudgetFields :=
    { b.toUnderstandingBudgetFields with
      windowStarted, spentInWindow, shedInWindow, demandSpend, credit }
  accepted := b.accepted

def reconcile (b : UnderstandingBudget) (now : Instant) : UnderstandingBudget :=
  let elapsed := now.ns - b.windowStarted.ns
  if elapsed < b.window.ns then b
  else
    let windows := elapsed / b.window.ns
    b.update ⟨b.windowStarted.ns + windows * b.window.ns⟩ 0 0 ∅
      (.pyMin (burst b.toUnderstandingBudgetFields)
        (b.credit.add ((PyFloat.round windows).mul (allowance b.toUnderstandingBudgetFields))))

def charge (spend : OrderedDict String Int) (demandIds : List String) : OrderedDict String Int :=
  demandIds.foldl (fun spend id => spend.set id ((spend.get? id).getD 0 + 1)) spend

def discharge (spend : OrderedDict String Int) (demandIds : List String) : OrderedDict String Int :=
  demandIds.foldl (fun spend id => spend.modify id fun calls => max 0 (calls - 1)) spend

def trySpend (b : UnderstandingBudget) (now : Instant) (demandIds : List String) :
    Bool × UnderstandingBudget :=
  let b := b.reconcile now
  if b.credit.lt (.finite 1) then
    (false, b.update b.windowStarted b.spentInWindow (b.shedInWindow + 1) b.demandSpend b.credit)
  else
    (true, b.update b.windowStarted (b.spentInWindow + 1) b.shedInWindow
      (charge b.demandSpend demandIds) (b.credit.sub (.finite 1)))

def refund (b : UnderstandingBudget) (demandIds : List String) : UnderstandingBudget :=
  b.update b.windowStarted (max 0 (b.spentInWindow - 1)) b.shedInWindow
    (discharge b.demandSpend demandIds)
    (.pyMin (burst b.toUnderstandingBudgetFields) (b.credit.add (.finite 1)))

end UnderstandingBudget

structure Spending where
  budget : UnderstandingBudget
  readings : Nat := 0
  tally : Tally String := {}
  deriving DecidableEq

namespace Spending

-- The monotonic clock: its readings, in the order they are taken.
variable (clock : Nat → Instant)

def trySpend (s : Spending) (demandIds : List String) : Bool × Spending :=
  match s.budget.trySpend (clock s.readings) demandIds with
  | (true, budget) =>
    (true, { budget, readings := s.readings + 1, tally := s.tally.reserve demandIds })
  | (false, budget) => (false, { s with budget, readings := s.readings + 1 })

/-- `self._budget.status(self._clock.monotonic())`: a reading may begin a window. -/
def status (s : Spending) : Spending :=
  { s with budget := s.budget.reconcile (clock s.readings), readings := s.readings + 1 }

def refund (s : Spending) (demandIds : List String) : Spending :=
  { s with budget := s.budget.refund demandIds, tally := s.tally.refund demandIds }

def produce (s : Spending) (demandIds : List String) : Spending :=
  { s with tally := s.tally.use demandIds }

theorem trySpend_tally (s : Spending) (demandIds : List String) :
    (s.trySpend clock demandIds).2.tally =
      if (s.trySpend clock demandIds).1 then s.tally.reserve demandIds else s.tally := by
  unfold trySpend
  split <;> rfl

end Spending

end VisionOs.Cropping
