import MacdTradingBot.Indicators.Basic
import Mathlib.Algebra.Field.Rat
import Mathlib.Algebra.Order.Ring.Rat
import Mathlib.Algebra.Order.Group.Abs
import Mathlib.Data.List.Induction
import Mathlib.Data.Rat.Cast.CharZero

/-!
# The average true range

`ATR.cpp`. A previous close of `-1` marks that there is none, so the first bar only sets it, and so
does every bar after one that closed at `-1`.
-/

namespace MacdTradingBot

/-- `ATR`. -/
structure ATR where
  val : ℚ := 0
  prevClose : ℚ := -1
  n : UInt64 := 0
  period : UInt64 := 14
deriving DecidableEq, Repr

namespace ATR

/-- `ATR::name`. -/
def name : String := "ATR"

/-- `ATR::ATR(std::size_t)`. -/
def ofPeriod (period : UInt64) : ATR := { period := period }

/-- `ATR::ATR(const IndicatorConfig&)`. -/
def ofConfig (config : IndicatorConfig) : Except Exception ATR :=
  match config.params.find? "period" with
  | some period => .ok (ofPeriod (staticCastSizeT period))
  | none => .error (.runtimeError "invalid config for ATR")

/-- What the factory makes has some period. -/
theorem exists_ofPeriod {config : IndicatorConfig} {a : ATR} (h : ofConfig config = .ok a) :
    ∃ period, a = ofPeriod period := by
  unfold ofConfig at h
  split at h
  · exact ⟨_, (Except.ok.inj h).symm⟩
  · cases h

def isReady (a : ATR) : Bool := a.n ≥ a.period

/-- `ATR::calc_tr`. -/
def calcTr (high low prevClose : ℚ) : ℚ :=
  max (max |high - low| |high - prevClose|) |low - prevClose|

def write (a : ATR) (ohlcv : OHLCV ℚ) : ATR :=
  if a.prevClose = -1 then
    { a with prevClose := ohlcv.close }
  else
    let tr := calcTr ohlcv.high ohlcv.low a.prevClose
    let n := if !a.isReady then a.n + 1 else a.n
    { a with
      n := n
      val := (a.val * ((n - 1).toNat : ℚ) + tr) / (n.toNat : ℚ)
      prevClose := ohlcv.close }

def read (a : ATR) : Except Exception Snapshot :=
  if !a.isReady then
    .error (.runtimeError "ATR::read(): no valid ATR data")
  else
    .ok (.ofList [("atr", a.val)])

/-! ## Readiness counts the bars after the first -/

/-- The ATR is ready when the counter has reached the period. -/
theorem isReady_iff (a : ATR) : a.isReady = true ↔ a.period.toNat ≤ a.n.toNat := by
  simp [isReady, UInt64.le_iff_toNat_le]

@[simp]
theorem period_write (a : ATR) (ohlcv : OHLCV ℚ) : (a.write ohlcv).period = a.period := by
  unfold write
  split <;> rfl

@[simp]
theorem prevClose_write (a : ATR) (ohlcv : OHLCV ℚ) : (a.write ohlcv).prevClose = ohlcv.close := by
  unfold write
  split <;> rfl

/-- The first bar is not counted. -/
theorem n_write_of_unset {a : ATR} (h : a.prevClose = -1) (ohlcv : OHLCV ℚ) :
    (a.write ohlcv).n = a.n := by
  unfold write
  rw [if_pos h]

/-- With a previous close, the counter moves by one until it reaches the period. -/
theorem toNat_n_write {a : ATR} (hclose : a.prevClose ≠ -1) (h : a.n.toNat ≤ a.period.toNat)
    (ohlcv : OHLCV ℚ) : (a.write ohlcv).n.toNat = min (a.n.toNat + 1) a.period.toNat := by
  unfold write
  rw [if_neg hclose]
  cases hready : a.isReady with
  | true =>
    have hle := a.isReady_iff.mp hready
    simp only [Bool.not_true, Bool.false_eq_true, if_false]
    omega
  | false =>
    have hnle : ¬ a.period.toNat ≤ a.n.toNat := by
      rw [← isReady_iff, hready]
      exact Bool.false_ne_true
    have hlt := a.period.toNat_lt
    simp only [Bool.not_false, if_true, UInt64.toNat_add, UInt64.toNat_one]
    omega

/-- Write the bars one after another. -/
def writeAll (a : ATR) (bars : List (OHLCV ℚ)) : ATR := bars.foldl write a

@[simp]
theorem writeAll_nil (a : ATR) : a.writeAll [] = a := rfl

/-- The last bar is written last. -/
theorem writeAll_concat (a : ATR) (bars : List (OHLCV ℚ)) (bar : OHLCV ℚ) :
    a.writeAll (bars ++ [bar]) = (a.writeAll bars).write bar := by
  simp [writeAll]

/-- The state after bars none of which closed at `-1`. -/
theorem counter_writeAll (period : UInt64) {bars : List (OHLCV ℚ)}
    (hclose : ∀ b ∈ bars, b.close ≠ -1) :
    ((ofPeriod period).writeAll bars).period = period ∧
      ((ofPeriod period).writeAll bars).n.toNat = min (bars.length - 1) period.toNat ∧
        (((ofPeriod period).writeAll bars).prevClose = -1 ↔ bars = []) := by
  induction bars using List.reverseRecOn with
  | nil => simp [ofPeriod]
  | append_singleton bars bar ih =>
    obtain ⟨hperiod, hn, hprev⟩ := ih fun b hb => hclose b (by simp [hb])
    rw [writeAll_concat, period_write, prevClose_write]
    refine ⟨hperiod, ?_, by simpa using hclose bar (by simp)⟩
    rw [List.length_append, List.length_singleton, Nat.add_sub_cancel]
    by_cases hnil : bars = []
    · rw [n_write_of_unset (hprev.mpr hnil), hn, hnil]
      simp
    · have hpos := List.length_pos_iff.mpr hnil
      rw [toNat_n_write (mt hprev.mp hnil) (by rw [hn, hperiod]; exact min_le_right _ _), hn,
        hperiod]
      omega

/-- An ATR of a positive period is ready exactly from the bar after the `period`-th on. -/
theorem isReady_writeAll {period : UInt64} (hperiod : 1 ≤ period.toNat) {bars : List (OHLCV ℚ)}
    (hclose : ∀ b ∈ bars, b.close ≠ -1) :
    ((ofPeriod period).writeAll bars).isReady = true ↔ period.toNat + 1 ≤ bars.length := by
  obtain ⟨hp, hn, -⟩ := counter_writeAll period hclose
  rw [isReady_iff, hp, hn]
  omega

end ATR

end MacdTradingBot
