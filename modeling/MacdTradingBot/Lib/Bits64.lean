import Mathlib.Algebra.Order.Group.Int
import Mathlib.Algebra.Ring.Nat
import Mathlib.Data.Int.Init

/-!
# Signed 64-bit arithmetic

Integer code is written over what becomes of the exact result of an operation: it is kept (`exact`), it
wraps around (`wraps`), or it must fit (`traps`). A run that does not trap is the same in any of them.
-/

namespace MacdTradingBot.Bits64

def Fits (n : ℤ) : Prop := -2 ^ 63 ≤ n ∧ n < 2 ^ 63

instance (n : ℤ) : Decidable (Fits n) :=
  inferInstanceAs (Decidable (_ ∧ _))

/-- The outcome of an operation with this exact result. -/
abbrev Arithmetic : Type := ℤ → Option ℤ

def exact : Arithmetic := some

def wraps : Arithmetic := fun n => some (n.bmod (2 ^ 64))

def traps : Arithmetic := fun n => if Fits n then some n else none

/-- Results that fit are kept. -/
def Faithful (fit : Arithmetic) : Prop := ∀ n, Fits n → fit n = some n

/-- Exact arithmetic changes nothing. -/
theorem faithful_exact : Faithful exact := fun _ _ => rfl

/-- What fits does not wrap around. -/
theorem bmod_of_fits {n : ℤ} (h : Fits n) : n.bmod (2 ^ 64) = n :=
  Int.bmod_eq_of_le (by have := h.1; omega) (by have := h.2; omega)

/-- What has wrapped around fits. -/
theorem fits_bmod (n : ℤ) : Fits (n.bmod (2 ^ 64)) :=
  ⟨Int.le_bmod (by decide), Int.bmod_lt (by decide)⟩

/-- Wrapping changes nothing that fits. -/
theorem faithful_wraps : Faithful wraps := fun _ h => congrArg some (bmod_of_fits h)

/-- Trapping arithmetic goes on exactly where the number fits. -/
theorem traps_eq_some_iff {n m : ℤ} : traps n = some m ↔ Fits n ∧ n = m := by
  unfold traps
  split <;> simp [*]

/-- A step that did not trap has an exact result. -/
theorem bind_traps_eq_some_iff {β : Type} {n : ℤ} {next : ℤ → Option β} {result : β} :
    (traps n).bind next = some result ↔ Fits n ∧ next n = some result := by
  unfold traps
  split <;> simp [*]

/-- Dividing by a positive number makes no number larger. -/
theorem fits_tdiv {n : ℤ} (h : Fits n) {m : ℤ} (hm : 0 < m) : Fits (n.tdiv m) := by
  obtain ⟨hlow, hhigh⟩ := h
  rcases le_or_gt 0 n with hn | hn
  · have hle := Int.ediv_le_self m hn
    have hnonneg := Int.ediv_nonneg hn hm.le
    rw [Fits, Int.tdiv_eq_ediv_of_nonneg hn]
    omega
  · have hneg : 0 ≤ -n := by omega
    have hle := Int.ediv_le_self m hneg
    have hnonneg := Int.ediv_nonneg hneg hm.le
    rw [Fits, ← neg_neg n, Int.neg_tdiv, Int.tdiv_eq_ediv_of_nonneg hneg]
    omega

end MacdTradingBot.Bits64
