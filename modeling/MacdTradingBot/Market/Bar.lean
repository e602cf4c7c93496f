import Mathlib.Data.Int.Init
import Mathlib.Order.Lattice
import Mathlib.Algebra.Group.Int.Defs
import Mathlib.Algebra.Order.Group.Int
import Mathlib.Tactic.NormNum

/-!
# Bars

`Bar.hpp`: price bars whose length is `Count` units of a `std::chrono` duration type. Ticks are
integers; the two template parameters are parameters of the type `Bar`. The type `P` of prices is a
parameter too: bars are only copied and compared, so everything here needs at most that prices are
linearly ordered. This leaves out `NaN`, which `std::stod` reads and which is below and above nothing.
-/

namespace MacdTradingBot

/-- `OHLCV`. -/
structure OHLCV (P : Type) where
  «open» : P
  high : P
  low : P
  close : P
  volume : UInt64
deriving DecidableEq, Repr

/-- The duration types that the concept `ChronoDuration` admits. -/
inductive ChronoDuration
  | nanoseconds | microseconds | milliseconds | seconds | minutes | hours | days | weeks | months
  | years
deriving DecidableEq, Repr

/-- One tick in nanoseconds, from the `std::ratio` of the duration type. -/
def ChronoDuration.nanos : ChronoDuration → ℤ
  | nanoseconds => 1
  | microseconds => 1000
  | milliseconds => 1000000
  | seconds => 1000000000
  | minutes => 60 * 1000000000
  | hours => 3600 * 1000000000
  | days => 86400 * 1000000000
  | weeks => 604800 * 1000000000
  | months => 2629746 * 1000000000
  | years => 31556952 * 1000000000

/-- A tick takes time. -/
theorem ChronoDuration.nanos_pos (u : ChronoDuration) : 0 < u.nanos := by
  cases u <;> norm_num [ChronoDuration.nanos]

/-- `std::chrono::duration_cast` of `ticks` from one unit to another; it truncates towards zero. Time
points are cast the same way. -/
def durationCast (source target : ChronoDuration) (ticks : ℤ) : ℤ :=
  (ticks * source.nanos).tdiv target.nanos

/-- A unit is a whole number of nanoseconds, so nothing is lost. -/
@[simp]
theorem durationCast_nanoseconds (u : ChronoDuration) (ticks : ℤ) :
    durationCast u .nanoseconds ticks = ticks * u.nanos := by
  simp [durationCast, ChronoDuration.nanos]

/-- The ticks of `TimeUnit{Count}`: a `std::size_t`, converted to the signed 64-bit count of the duration
types. -/
def durationTicks (Count : ℕ) : ℤ :=
  (Count : ℤ).bmod (2 ^ 64)

/-- A small count is converted to itself. -/
theorem durationTicks_of_lt {n : ℕ} (h : n < 2 ^ 63) : durationTicks n = n :=
  Int.bmod_eq_of_le (by omega) (by omega)

/-- `Bar<Count, TimeUnit>`. The timestamp counts ticks of the unit since the epoch. -/
structure Bar (P : Type) (Count : ℕ) (TimeUnit : ChronoDuration) where
  symbol : String
  ohlcv : OHLCV P
  timestamp : ℤ
deriving DecidableEq, Repr

namespace Bar

variable {P : Type} {Count : ℕ} {TimeUnit : ChronoDuration}

def «open» (b : Bar P Count TimeUnit) : P := b.ohlcv.open
def high (b : Bar P Count TimeUnit) : P := b.ohlcv.high
def low (b : Bar P Count TimeUnit) : P := b.ohlcv.low
def close (b : Bar P Count TimeUnit) : P := b.ohlcv.close
def volume (b : Bar P Count TimeUnit) : UInt64 := b.ohlcv.volume

/-- `Bar::duration()`, in ticks of the unit. -/
def duration (_ : Bar P Count TimeUnit) : ℤ := durationTicks Count

end Bar

/-- `Bar1min`. -/
abbrev Bar1min (P : Type) : Type := Bar P 1 .minutes

/-- `Bar5min`. -/
abbrev Bar5min (P : Type) : Type := Bar P 5 .minutes

/-- `isConsecutive`: the bars have one symbol and one of them starts where the other ends. -/
def isConsecutive {P : Type} {Count1 Count2 : ℕ} {TimeUnit1 TimeUnit2 : ChronoDuration}
    (left : Bar P Count1 TimeUnit1) (right : Bar P Count2 TimeUnit2) : Bool :=
  if left.symbol ≠ right.symbol then
    false
  else
    let leftStart := durationCast TimeUnit1 .nanoseconds left.timestamp
    let leftEnd := leftStart + durationCast TimeUnit1 .nanoseconds left.duration
    let rightStart := durationCast TimeUnit2 .nanoseconds right.timestamp
    let rightEnd := rightStart + durationCast TimeUnit2 .nanoseconds right.duration
    leftEnd == rightStart || rightEnd == leftStart

/-- Two minute bars are consecutive when they belong to neighbouring minutes, in either order. -/
theorem isConsecutive_minutes {P : Type} (a b : Bar1min P) :
    isConsecutive a b = true ↔
      a.symbol = b.symbol ∧ (b.timestamp = a.timestamp + 1 ∨ a.timestamp = b.timestamp + 1) := by
  by_cases hs : a.symbol = b.symbol
  · have hone : durationTicks 1 = 1 := durationTicks_of_lt (by norm_num)
    simp only [isConsecutive, hs, ne_eq, not_true_eq_false, if_false, durationCast_nanoseconds,
      Bar.duration, hone, Bool.or_eq_true, beq_iff_eq, true_and, ChronoDuration.nanos]
    omega
  · simp [isConsecutive, hs]

/-- Consecutive bars have one symbol. -/
theorem symbol_eq_of_isConsecutive {P : Type} {Count1 Count2 : ℕ}
    {TimeUnit1 TimeUnit2 : ChronoDuration} {left : Bar P Count1 TimeUnit1}
    {right : Bar P Count2 TimeUnit2} (h : isConsecutive left right = true) :
    left.symbol = right.symbol := by
  by_contra hne
  simp [isConsecutive, hne] at h

end MacdTradingBot
