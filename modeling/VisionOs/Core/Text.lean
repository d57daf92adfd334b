/-
  The string operations the codec rests on: `str` of an integer, `split` at a character and `int`
  of a string.  Which characters are blanks and digits is a table of the interpreter.
-/
import VisionOs.Core.Ids
import VisionOs.Core.Values
import Mathlib.Data.Nat.Digits.Defs

namespace VisionOs.Core

open List Nat String

variable {c : Char}

theorem digitChar_ne_of_not_digit {d : Nat} (hd : d < 10) (hc : c.isDigit = false) :
    d.digitChar ≠ c := by
  rintro rfl
  rw [isDigit_digitChar, decide_eq_false_iff_not] at hc
  exact hc hd

/-- The interpreter's tables of blanks and of decimal digits. -/
structure UnicodeTables where
  isSpace : Char → Bool
  digit : Char → Option Nat
  digit_digitChar : ∀ n < 10, digit n.digitChar = some n
  not_space_digitChar : ∀ n < 10, isSpace n.digitChar = false

def UnicodeTables.ascii : UnicodeTables where
  isSpace c := c ∈ [' ', '\t', '\n', '\x0b', '\x0c', '\r']
  digit c := if c.isDigit then some (c.toNat - 48) else none
  digit_digitChar := by decide
  not_space_digitChar := by decide

def pySplit (s : String) (c : Char) : List String := (s.toList.splitOn c).map ofList

def startsWithChar (s : String) (c : Char) : Bool := s.toList.head? = some c

def dropFirst (s : String) : String := ofList s.toList.tail

namespace UnicodeTables

variable (tables : UnicodeTables)

/-- The digits after the first, each behind at most one underscore. -/
def readDigits : Nat → List Char → Option Nat
  | value, [] => some value
  | value, '_' :: c :: rest =>
    match tables.digit c with
    | some d => readDigits (value * 10 + d) rest
    | none => none
  | value, c :: rest =>
    match tables.digit c with
    | some d => readDigits (value * 10 + d) rest
    | none => none

def readNumber : List Char → Option Nat
  | [] => none
  | c :: rest =>
    match tables.digit c with
    | some d => tables.readDigits d rest
    | none => none

/-- The text of a number without the blanks around it. -/
def strip (s : List Char) : List Char :=
  ((s.dropWhile tables.isSpace).reverse.dropWhile tables.isSpace).reverse

def readInt (s : String) : Option Int :=
  match tables.strip s.toList with
  | '+' :: digits => (tables.readNumber digits).map Int.ofNat
  | '-' :: digits => (tables.readNumber digits).map (fun n => -(n : Int))
  | digits => (tables.readNumber digits).map Int.ofNat

def digitCount (s : String) : Nat := s.toList.countP fun c => (tables.digit c).isSome

/-- `int(s)`. -/
def pyInt (s : String) : Raises Int := do
  require (tables.digitCount s ≤ PyValue.maxStrDigits) tooManyDigits
  match tables.readInt s with
  | some n => .ok n
  | none => .error (.valueError s!"invalid literal for int() with base 10: '{s}'")

/-! ## Reading back what `str` wrote -/

theorem readDigits_append {digits : List Char} {n : Nat}
    (hdigits : ∀ c ∈ digits, ∃ d < 10, c = d.digitChar) :
    tables.readDigits n digits = some (ofDigitChars 10 digits n) := by
  induction digits generalizing n with
  | nil => rfl
  | cons c rest ih =>
    obtain ⟨d, hd, rfl⟩ := hdigits c (by simp)
    have hunder : d.digitChar ≠ '_' := digitChar_ne_of_not_digit hd (by decide)
    have hstep : tables.readDigits n (d.digitChar :: rest) =
        tables.readDigits (n * 10 + d) rest := by
      rw [readDigits.eq_3 _ _ _ _ (fun _ _ h _ => hunder h), tables.digit_digitChar d hd]
    rw [hstep, ih (fun c' hc' => hdigits c' (mem_cons_of_mem _ hc')),
      ofDigitChars_cons_digitChar_of_lt_ten hd, mul_comm]

end UnicodeTables

theorem exists_digitChar {n : Nat} (h : c ∈ toDigits 10 n) :
    ∃ d < 10, c = d.digitChar := by
  have hdigit := isDigit_of_mem_toDigits (by decide) (le_refl 10) h
  have hrange : 48 ≤ c.toNat ∧ c.toNat ≤ 57 := by
    simpa [Char.isDigit, UInt32.le_iff_toNat_le] using hdigit
  refine ⟨c.toNat - 48, by omega, ?_⟩
  rw [← Char.toNat_inj, toNat_digitChar_of_lt_ten (by omega)]
  omega

namespace UnicodeTables

variable (tables : UnicodeTables)

theorem strip_toDigits (n : Nat) : tables.strip (toDigits 10 n) = toDigits 10 n := by
  have hno : ∀ c ∈ toDigits 10 n, tables.isSpace c = false := by
    intro c hc
    obtain ⟨d, hd, rfl⟩ := exists_digitChar hc
    exact tables.not_space_digitChar d hd
  have hdrop : ∀ l : List Char, (∀ c ∈ l, tables.isSpace c = false) →
      l.dropWhile tables.isSpace = l := by
    intro l hl
    cases l with
    | nil => rfl
    | cons c rest => rw [dropWhile_cons_of_neg (by simp [hl c (by simp)])]
  unfold strip
  rw [hdrop _ hno, hdrop _ (fun c hc => hno c (mem_reverse.mp hc)), reverse_reverse]

theorem readInt_toString (n : Nat) : tables.readInt (toString n) = some (n : Int) := by
  have hlist : (toString n).toList = toDigits 10 n := by
    rw [toString_eq_repr, toList_repr]
  unfold readInt
  rw [hlist, tables.strip_toDigits]
  obtain ⟨c, rest, hdigits⟩ := exists_cons_of_ne_nil (@Nat.toDigits_ne_nil n 10)
  have hchars : ∀ c' ∈ c :: rest, ∃ d < 10, c' = d.digitChar :=
    fun c' hc' => exists_digitChar (hdigits ▸ hc')
  have hvalue : ofDigitChars 10 (c :: rest) 0 = n := by
    rw [← hdigits]
    exact ofDigitChars_ten_toDigits
  obtain ⟨d, hd, rfl⟩ := hchars c (by simp)
  have hread : tables.readNumber (d.digitChar :: rest) = some n := by
    have hrest := @readDigits_append tables rest d
      (fun c' hc' => hchars c' (mem_cons_of_mem _ hc'))
    rw [ofDigitChars_cons_digitChar_of_lt_ten hd] at hvalue
    simp only [readNumber, tables.digit_digitChar d hd, hrest]
    rw [← hvalue]
    simp
  rw [hdigits]
  -- A digit is no sign.
  split
  · rename_i digits heq
    rw [List.cons.injEq] at heq
    exact absurd heq.1 (digitChar_ne_of_not_digit hd (by decide))
  · rename_i digits heq
    rw [List.cons.injEq] at heq
    exact absurd heq.1 (digitChar_ne_of_not_digit hd (by decide))
  · rw [hread]
    rfl

theorem pyInt_toString {n : Nat} (h : n < 10 ^ PyValue.maxStrDigits) :
    tables.pyInt (toString n) = .ok (n : Int) := by
  unfold pyInt
  rw [check_bind_eq_ok, require_eq_ok, tables.readInt_toString]
  refine ⟨(countP_le_length).trans ?_, rfl⟩
  rw [toString_eq_repr, toList_repr]
  exact toDigits_length 10 n _ (by decide +kernel) h

end UnicodeTables

theorem pySplit_append (s t : String) (c : Char) :
    pySplit (s ++ singleton c ++ t) c = pySplit s c ++ pySplit t c := by
  unfold pySplit
  have hlist : (s ++ singleton c ++ t).toList = s.toList ++ c :: t.toList := by simp
  rw [hlist, splitOn_append_cons_self, map_append]

theorem pySplit_of_not_mem {s : String} (h : c ∉ s.toList) : pySplit s c = [s] := by
  unfold pySplit
  rw [splitOn_eq_singleton h, map_singleton, ofList_toList]

end VisionOs.Core
