import MacdTradingBot.Timestamps.Scan
import Mathlib.Algebra.Order.Field.Rat
import Mathlib.Data.List.Basic
import Mathlib.Data.List.TakeWhile

/-!
# Numbers in a text

`std::stod`: `strtod` reads the longest number at the front of a text, and its exact value is rounded to a
`double`. How a value is rounded is a parameter; it fails where the conversion is out of range.
-/

namespace MacdTradingBot

/-- A `double`, or the number that one is rounded from. -/
inductive Double
  | finite (x : ℚ)
  | infinite (negative : Bool)
  | nan
deriving DecidableEq, Repr

namespace Strtod

/-- The value of a digit of the base. -/
def digitValue (base : ℕ) (c : Char) : Option ℕ :=
  let value :=
    if c.isDigit then c.toNat - '0'.toNat
    else if c.isAlpha then c.toLower.toNat - 'a'.toNat + 10
    else base
  if value < base then some value else none

def isDigitOf (base : ℕ) (c : Char) : Bool := (digitValue base c).isSome

def valueOf (base : ℕ) (digits : List Char) : ℕ :=
  digits.foldl (fun value c => value * base + (digitValue base c).getD 0) 0

/-- An optional sign; whether it is a minus, and what follows. -/
def sign : List Char → Bool × List Char
  | '-' :: s => (true, s)
  | '+' :: s => (false, s)
  | s => (false, s)

/-- The digits before a point, those after it, and what follows. There must be a digit. -/
def mantissa (base : ℕ) (s : List Char) : Option (List Char × List Char × List Char) :=
  let whole := s.takeWhile (isDigitOf base)
  let (fraction, rest) := match s.dropWhile (isDigitOf base) with
    | '.' :: s => (s.takeWhile (isDigitOf base), s.dropWhile (isDigitOf base))
    | s => ([], s)
  if whole ++ fraction = [] then none else some (whole, fraction, rest)

/-- The exponent after its mark; without digits there is none. -/
def exponent (mark : Char) : List Char → ℤ
  | c :: s =>
    if c.toLower = mark then
      let (negative, s) := sign s
      let value : ℤ := GetTime.digitsValue (s.takeWhile Char.isDigit)
      if negative then -value else value
    else 0
  | [] => 0

def magnitude (base scale : ℕ) (mark : Char) (s : List Char) : Option ℚ :=
  (mantissa base s).map fun (whole, fraction, rest) =>
    valueOf base (whole ++ fraction) / base ^ fraction.length * (scale : ℚ) ^ exponent mark rest

/-- A number after `0x`. -/
def hexadecimal : List Char → Option ℚ
  | '0' :: x :: s => if x.toLower = 'x' then magnitude 16 2 'p' s else none
  | _ => none

/-- The text starts with the word, in either case. -/
def startsWith (word : String) (s : List Char) : Bool :=
  word.toList.isPrefixOf (s.map Char.toLower)

end Strtod

open Strtod in
/-- `strtod`, before rounding; `none` when there is no number. -/
def strtod (text : List Char) : Option Double :=
  let (negative, s) := sign (text.dropWhile isSpace)
  let signed (x : ℚ) : Double := .finite (if negative then -x else x)
  if startsWith "inf" s then
    some (.infinite negative)
  else if startsWith "nan" s then
    some .nan
  else
    match hexadecimal s with
    | some x => some (signed x)
    | none => (magnitude 10 10 'e' s).map signed

example : strtod " -12.5e1,".toList = some (.finite (-125)) := by decide +kernel

example : strtod "0x1p4".toList = some (.finite 16) := by decide +kernel

namespace Strtod

/-- The value of a decimal digit. -/
theorem digitValue_of_isDigit {c : Char} (h : c.isDigit = true) :
    digitValue 10 c = some (c.toNat - '0'.toNat) := by
  have hrange := (GetTime.isDigit_iff c).mp h
  rw [digitValue, if_pos h]
  exact if_pos (show c.toNat - 48 < 10 by omega)

/-- A digit is one to the base of ten. -/
theorem isDigitOf_of_isDigit {c : Char} (h : c.isDigit = true) : isDigitOf 10 c = true := by
  rw [isDigitOf, digitValue_of_isDigit h]
  rfl

/-- Decimal digits have the value that the timestamps give them. -/
theorem valueOf_digits {digits : List Char} (h : ∀ c ∈ digits, c.isDigit = true) :
    valueOf 10 digits = GetTime.digitsValue digits := by
  refine List.foldl_ext _ _ 0 fun value c hc => ?_
  rw [digitValue_of_isDigit (h c hc)]
  rfl

/-- Digits have no case. -/
theorem toLower_of_isDigit {c : Char} (h : c.isDigit = true) : c.toLower = c := by
  have hrange := (GetTime.isDigit_iff c).mp h
  exact GetTime.toLower_of_lt (by omega)

/-- A digit is no other character. -/
theorem ne_of_isDigit {c d : Char} (hc : c.isDigit = true) (hd : d.isDigit = false) : c ≠ d := by
  rintro rfl
  rw [hc] at hd
  cases hd

/-- A text of digits is all whole part. -/
theorem mantissa_digits {digits : List Char} (h : ∀ c ∈ digits, c.isDigit = true) (hne : digits ≠ []) :
    mantissa 10 digits = some (digits, [], []) := by
  have hall : ∀ c ∈ digits, isDigitOf 10 c = true := fun c hc => isDigitOf_of_isDigit (h c hc)
  have htake : digits.takeWhile (isDigitOf 10) = digits := List.takeWhile_eq_self_iff.mpr hall
  have hdrop : digits.dropWhile (isDigitOf 10) = [] := List.dropWhile_eq_nil_iff.mpr hall
  rw [mantissa]
  simp only [htake, hdrop, List.append_nil, if_neg hne]

variable {c : Char} {more : List Char}

/-- A digit is no sign. -/
theorem sign_of_isDigit (h : c.isDigit = true) : sign (c :: more) = (false, c :: more) := by
  unfold sign
  split
  · rename_i heq
    exact absurd (List.cons.inj heq).1 (ne_of_isDigit h (by decide))
  · rename_i heq
    exact absurd (List.cons.inj heq).1 (ne_of_isDigit h (by decide))
  · rfl

/-- No word starts with a digit. -/
theorem startsWith_of_isDigit (h : c.isDigit = true) {word : String} {d : Char}
    (hword : word.toList.head? = some d) (hd : d.isDigit = false) :
    startsWith word (c :: more) = false := by
  obtain ⟨tail, htail⟩ := List.head?_eq_some_iff.mp hword
  have hfirst : (d == c) = false := beq_eq_false_iff_ne.mpr (ne_of_isDigit h hd).symm
  rw [startsWith, htail, List.map_cons, toLower_of_isDigit h, List.isPrefixOf, hfirst, Bool.false_and]

/-- Digits alone have no `0x` before them. -/
theorem hexadecimal_digits {digits : List Char} (h : ∀ c ∈ digits, c.isDigit = true) :
    hexadecimal digits = none := by
  unfold hexadecimal
  split
  · rename_i x s
    have hx := h x (by simp)
    rw [if_neg]
    rw [toLower_of_isDigit hx]
    exact ne_of_isDigit hx (by decide)
  · rfl

end Strtod

open Strtod GetTime in
/-- Digits are read as the number that they spell. -/
theorem strtod_digits {digits : List Char} (h : ∀ c ∈ digits, c.isDigit = true) (hne : digits ≠ []) :
    strtod digits = some (.finite (digitsValue digits)) := by
  have hhexadecimal := hexadecimal_digits h
  have hmantissa := mantissa_digits h hne
  have hvalue := valueOf_digits h
  obtain ⟨c, more, rfl⟩ := List.exists_cons_of_ne_nil hne
  have hc := h c List.mem_cons_self
  have hspace : (c :: more).dropWhile isSpace = c :: more := by
    refine List.dropWhile_cons_of_neg fun hspace => ?_
    rw [isDigit_eq_false_of_isSpace hspace] at hc
    cases hc
  have hinf := @startsWith_of_isDigit c more hc "inf" 'i' rfl (by decide)
  have hnan := @startsWith_of_isDigit c more hc "nan" 'n' rfl (by decide)
  unfold strtod
  simp only [hspace, sign_of_isDigit hc, hinf, hnan, hhexadecimal]
  simp [magnitude, hmantissa, hvalue, exponent]

end MacdTradingBot
