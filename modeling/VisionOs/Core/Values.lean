/-
  The plain Python values that attributes, rule documents and JSON carry, and the operators
  applied to them.  `==` compares numbers across types, never a list with a tuple, and a dict up
  to the order of its keys.
-/
import VisionOs.Core.Exceptions

namespace VisionOs.Core

inductive PyValue where
  | none
  | bool (b : Bool)
  | int (i : Int)
  | float (x : PyFloat)
  | str (s : String)
  | list (items : List PyValue)
  | tuple (items : List PyValue)
  | dict (entries : List (String × PyValue))
  deriving Inhabited

/-- What the interpreter adds to the values themselves: `str(value)`, `is`, which
    membership tests consult before `==`, and how many containers inside each other `str`
    and `==` walk into before they raise `RecursionError`. -/
structure Interpreter where
  str : PyValue → String
  same : PyValue → PyValue → Bool
  room : Nat

def tooManyDigits : PyException :=
  .valueError "Exceeds the limit (4300 digits) for integer string conversion; use sys.set_int_max_str_digits() to increase the limit"

def tooDeep : PyException := .recursionError "maximum recursion depth exceeded"

namespace PyValue

def asNumber : PyValue → Option PyFloat
  | .bool b => some (.finite (if b then 1 else 0))
  | .int i => some (.finite i)
  | .float x => some x
  | _ => Option.none

mutual

def eq (py : Interpreter) : PyValue → PyValue → Bool
  | .none, .none => true
  | .str s, .str t => s = t
  | .list xs, .list ys => eqItems py xs ys
  | .tuple xs, .tuple ys => eqItems py xs ys
  | .dict xs, .dict ys => xs.length = ys.length && eqEntries py xs ys
  | .bool b, y => (asNumber y).any (PyFloat.eq (.finite (if b then 1 else 0)))
  | .int i, y => (asNumber y).any (PyFloat.eq (.finite i))
  | .float x, y => (asNumber y).any (PyFloat.eq x)
  | _, _ => false

def eqItems (py : Interpreter) : List PyValue → List PyValue → Bool
  | [], [] => true
  | x :: xs, y :: ys => (py.same x y || eq py x y) && eqItems py xs ys
  | _, _ => false

def eqEntries (py : Interpreter) : List (String × PyValue) → List (String × PyValue) → Bool
  | [], _ => true
  | (k, v) :: rest, ys =>
    (match ys.lookup k with
      | some w => py.same v w || eq py v w
      | Option.none => false) && eqEntries py rest ys

end

mutual

/-- `x == y` as it is evaluated: `eq`, as long as the containers leave room for it. -/
def equal (py : Interpreter) : Nat → PyValue → PyValue → Raises Bool
  | room, .list xs, .list ys | room, .tuple xs, .tuple ys =>
    if xs.length = ys.length then equalItems py room xs ys else .ok false
  | room, .dict xs, .dict ys =>
    if xs.length = ys.length then equalEntries py room xs ys else .ok false
  | _, x, y => .ok (eq py x y)

def equalItems (py : Interpreter) : Nat → List PyValue → List PyValue → Raises Bool
  | room, x :: xs, y :: ys =>
    if py.same x y then equalItems py room xs ys
    else match room with
      | 0 => .error tooDeep
      | below + 1 => do
        if ← equal py below x y then equalItems py (below + 1) xs ys else return false
  | _, _, _ => .ok true

def equalEntries (py : Interpreter) :
    Nat → List (String × PyValue) → List (String × PyValue) → Raises Bool
  | _, [], _ => .ok true
  | room, (k, v) :: rest, ys =>
    match ys.lookup k with
    | Option.none => .ok false
    | some w =>
      if py.same v w then equalEntries py room rest ys
      else match room with
        | 0 => .error tooDeep
        | below + 1 => do
          if ← equal py below v w then equalEntries py (below + 1) rest ys else return false

end

/-- `x in items`. -/
def isIn (py : Interpreter) (x : PyValue) : List PyValue → Raises Bool
  | [] => .ok false
  | y :: rest => do
    if py.same x y || (← equal py py.room x y) then return true else isIn py x rest

def toTuple : PyValue → Raises (List PyValue)
  | .list items | .tuple items => .ok items
  | .str s => .ok (s.toList.map (fun c => .str (String.singleton c)))
  | .dict entries => .ok (entries.map (fun e => .str e.1))
  | .none => .error (.typeError "'NoneType' object is not iterable")
  | .bool _ => .error (.typeError "'bool' object is not iterable")
  | .int _ => .error (.typeError "'int' object is not iterable")
  | .float _ => .error (.typeError "'float' object is not iterable")

def isSequence : PyValue → Bool
  | .list _ | .tuple _ => true
  | _ => false

def isBool : PyValue → Bool
  | .bool _ => true
  | _ => false

def isNone : PyValue → Bool
  | .none => true
  | _ => false

@[irreducible] def maxStrDigits : Nat := 4300

mutual

/-- No integer in it has more than 4300 digits. -/
def printable : PyValue → Bool
  | .int i => i.natAbs < 10 ^ maxStrDigits
  | .list items | .tuple items => arePrintable items
  | .dict entries => entriesArePrintable entries
  | _ => true

def arePrintable : List PyValue → Bool
  | [] => true
  | v :: rest => printable v && arePrintable rest

def entriesArePrintable : List (String × PyValue) → Bool
  | [] => true
  | (_, v) :: rest => printable v && entriesArePrintable rest

end

theorem printable_zero : (PyValue.int 0).printable = true := by decide +kernel

mutual

/-- How many containers stand inside each other above its innermost part. -/
def depth : PyValue → Nat
  | .list items | .tuple items => depthOfItems items
  | .dict entries => depthOfEntries entries
  | _ => 0

def depthOfItems : List PyValue → Nat
  | [] => 0
  | v :: rest => max (depth v + 1) (depthOfItems rest)

def depthOfEntries : List (String × PyValue) → Nat
  | [] => 0
  | (_, v) :: rest => max (depth v + 1) (depthOfEntries rest)

end

mutual

/-- Writing a value out as text, part by part. -/
def written (room : Nat) : PyValue → Raises Unit
  | .int i => require ((PyValue.int i).printable = true) tooManyDigits
  | .list items | .tuple items => itemsWritten room items
  | .dict entries => entriesWritten room entries
  | _ => .ok ()

def itemsWritten (room : Nat) : List PyValue → Raises Unit
  | [] => .ok ()
  | v :: rest =>
    match room with
    | 0 => .error tooDeep
    | below + 1 => do
      written below v
      itemsWritten (below + 1) rest

def entriesWritten (room : Nat) : List (String × PyValue) → Raises Unit
  | [] => .ok ()
  | (_, v) :: rest =>
    match room with
    | 0 => .error tooDeep
    | below + 1 => do
      written below v
      entriesWritten (below + 1) rest

end

mutual

theorem written_eq_ok : ∀ {room : Nat} {v : PyValue},
    v.written room = .ok () ↔ v.depth ≤ room ∧ v.printable = true
  | room, .none | room, .bool _ | room, .float _ | room, .str _ => by
    simp [written, depth, printable]
  | room, .int i => by simp [written, depth, require_eq_ok]
  | room, .list items | room, .tuple items => by
    simpa only [written, depth, printable] using itemsWritten_eq_ok
  | room, .dict entries => by
    simpa only [written, depth, printable] using entriesWritten_eq_ok

theorem itemsWritten_eq_ok : ∀ {room : Nat} {items : List PyValue},
    itemsWritten room items = .ok () ↔ depthOfItems items ≤ room ∧ arePrintable items = true
  | room, [] => by simp [itemsWritten, depthOfItems, arePrintable]
  | 0, v :: rest => by simp [itemsWritten, depthOfItems]
  | below + 1, v :: rest => by
    simp only [itemsWritten, depthOfItems, arePrintable, check_bind_eq_ok, written_eq_ok,
      itemsWritten_eq_ok, Bool.and_eq_true, Nat.max_le, Nat.add_le_add_iff_right]
    tauto

theorem entriesWritten_eq_ok : ∀ {room : Nat} {entries : List (String × PyValue)},
    entriesWritten room entries = .ok () ↔
      depthOfEntries entries ≤ room ∧ entriesArePrintable entries = true
  | room, [] => by simp [entriesWritten, depthOfEntries, entriesArePrintable]
  | 0, (_, v) :: rest => by simp [entriesWritten, depthOfEntries]
  | below + 1, (_, v) :: rest => by
    simp only [entriesWritten, depthOfEntries, entriesArePrintable, check_bind_eq_ok,
      written_eq_ok, entriesWritten_eq_ok, Bool.and_eq_true, Nat.max_le, Nat.add_le_add_iff_right]
    tauto

end

/-- `str(value)`. -/
def text (py : Interpreter) (v : PyValue) : Raises String := do
  v.written py.room
  return py.str v

theorem text_eq_ok {py : Interpreter} {v : PyValue} {s : String} :
    v.text py = .ok s ↔ (v.depth ≤ py.room ∧ v.printable = true) ∧ py.str v = s := by
  unfold text
  rw [check_bind_eq_ok, written_eq_ok]
  exact and_congr_right fun _ => ⟨Except.ok.inj, congrArg _⟩

end PyValue

end VisionOs.Core
