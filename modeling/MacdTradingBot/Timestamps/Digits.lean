import MacdTradingBot.Timestamps.Scan
import Mathlib.Data.List.Basic
import Mathlib.Data.List.Induction
import Mathlib.Tactic.IntervalCases
import Mathlib.Tactic.Ring

/-!
# Numbers of two and of four digits

What a field of a fixed width spells, and that reading it gives the number back.
-/

namespace MacdTradingBot

open GetTime

/-- The decimal digit of a number below ten. -/
def digit (n : ℕ) : Char := Char.ofNat (48 + n)

def twoDigits (n : ℕ) : List Char := [digit (n / 10), digit (n % 10)]

def fourDigits (n : ℕ) : List Char := twoDigits (n / 100) ++ twoDigits (n % 100)

/-- The code of a digit. -/
theorem toNat_digit {n : ℕ} (h : n < 10) : (digit n).toNat = 48 + n := by
  interval_cases n <;> rfl

/-- What is written for a number below ten is a digit. -/
theorem isDigit_digit {n : ℕ} (h : n < 10) : (digit n).isDigit = true := by
  rw [isDigit_iff, toNat_digit h]
  omega

/-- A digit is what is written for its value. -/
theorem digit_of_isDigit {c : Char} (h : c.isDigit = true) : digit (c.toNat - 48) = c := by
  rw [isDigit_iff] at h
  rw [digit, Nat.add_sub_cancel' h.1, Char.ofNat_toNat]

/-- Two digits are digits. -/
theorem isDigit_of_mem_twoDigits {n : ℕ} (h : n < 100) : ∀ c ∈ twoDigits n, c.isDigit = true := by
  simp only [twoDigits, List.forall_mem_cons, List.not_mem_nil, false_imp_iff, implies_true, and_true]
  exact ⟨isDigit_digit (by omega), isDigit_digit (by omega)⟩

/-- The first digits are worth more by a power of ten for each digit that follows. -/
theorem digitsValue_append (digits more : List Char) :
    digitsValue (digits ++ more) = digitsValue digits * 10 ^ more.length + digitsValue more := by
  induction more using List.reverseRecOn with
  | nil => simp [digitsValue]
  | append_singleton more c ih =>
    have hconcat : ∀ l : List Char,
        digitsValue (l ++ [c]) = digitsValue l * 10 + (c.toNat - '0'.toNat) := by
      intro l
      simp [digitsValue]
    rw [← List.append_assoc, hconcat, hconcat, ih, List.length_append, List.length_singleton, pow_succ]
    ring

/-- Two digits are read back. -/
theorem digitsValue_twoDigits {n : ℕ} (h : n < 100) : digitsValue (twoDigits n) = n := by
  have hlow := toNat_digit (show n % 10 < 10 by omega)
  have hhigh := toNat_digit (show n / 10 < 10 by omega)
  show (0 * 10 + ((digit (n / 10)).toNat - 48)) * 10 + ((digit (n % 10)).toNat - 48) = n
  omega

/-- Four digits are read back. -/
theorem digitsValue_fourDigits {n : ℕ} (h : n < 10000) : digitsValue (fourDigits n) = n := by
  rw [fourDigits, digitsValue_append, digitsValue_twoDigits (by omega), digitsValue_twoDigits (by omega)]
  show n / 100 * 10 ^ 2 + n % 100 = n
  omega

/-- Numbers that are written with the same two digits are equal. -/
theorem twoDigits_inj {m n : ℕ} (hm : m < 100) (hn : n < 100) (h : twoDigits m = twoDigits n) : m = n := by
  rw [← digitsValue_twoDigits hm, h, digitsValue_twoDigits hn]

/-- Numbers that are written with the same four digits are equal. -/
theorem fourDigits_inj {m n : ℕ} (hm : m < 10000) (hn : n < 10000) (h : fourDigits m = fourDigits n) :
    m = n := by
  rw [← digitsValue_fourDigits hm, h, digitsValue_fourDigits hn]

/-- Any two digits are those of their value. -/
theorem twoDigits_digitsValue {digits : List Char} (hlength : digits.length = 2)
    (h : ∀ c ∈ digits, c.isDigit = true) : twoDigits (digitsValue digits) = digits := by
  obtain ⟨a, b, rfl⟩ := List.length_eq_two.mp hlength
  have ha := (isDigit_iff a).mp (h a (by simp))
  have hb := (isDigit_iff b).mp (h b (by simp))
  have hvalue : digitsValue [a, b] = (a.toNat - 48) * 10 + (b.toNat - 48) := by
    show (0 * 10 + (a.toNat - 48)) * 10 + (b.toNat - 48) = _
    omega
  rw [twoDigits, hvalue, show ((a.toNat - 48) * 10 + (b.toNat - 48)) / 10 = a.toNat - 48 by omega,
    show ((a.toNat - 48) * 10 + (b.toNat - 48)) % 10 = b.toNat - 48 by omega,
    digit_of_isDigit (h a (by simp)), digit_of_isDigit (h b (by simp))]

/-- So many digits stay below that power of ten. -/
theorem digitsValue_lt {digits : List Char} (h : ∀ c ∈ digits, c.isDigit = true) :
    digitsValue digits < 10 ^ digits.length := by
  induction digits using List.reverseRecOn with
  | nil => simp [digitsValue]
  | append_singleton digits c ih =>
    have hc := (isDigit_iff c).mp (h c (by simp))
    have hdigits := ih fun d hd => h d (List.mem_append_left _ hd)
    have hone : digitsValue [c] = c.toNat - 48 := by
      show 0 * 10 + (c.toNat - 48) = _
      omega
    rw [digitsValue_append, hone, List.length_append, List.length_singleton, pow_succ]
    omega

/-- Any four digits are those of their value. -/
theorem fourDigits_digitsValue {digits : List Char} (hlength : digits.length = 4)
    (h : ∀ c ∈ digits, c.isDigit = true) : fourDigits (digitsValue digits) = digits := by
  have hsplit := List.take_append_drop 2 digits
  have hhigh := @twoDigits_digitsValue (digits.take 2) (by simp [hlength])
    fun c hc => h c (List.mem_of_mem_take hc)
  have hlow := @twoDigits_digitsValue (digits.drop 2) (by simp [hlength])
    fun c hc => h c (List.mem_of_mem_drop hc)
  have hlt := @digitsValue_lt (digits.drop 2) fun c hc => h c (List.mem_of_mem_drop hc)
  have hvalue : digitsValue digits = digitsValue (digits.take 2) * 100 + digitsValue (digits.drop 2) := by
    conv_lhs => rw [← hsplit, digitsValue_append]
    simp [hlength]
  simp only [List.length_drop, hlength] at hlt
  rw [fourDigits, hvalue,
    show (digitsValue (digits.take 2) * 100 + digitsValue (digits.drop 2)) / 100
      = digitsValue (digits.take 2) by omega,
    show (digitsValue (digits.take 2) * 100 + digitsValue (digits.drop 2)) % 100
      = digitsValue (digits.drop 2) by omega, hhigh, hlow, hsplit]

end MacdTradingBot
