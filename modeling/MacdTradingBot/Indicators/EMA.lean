import MacdTradingBot.Indicators.Basic
import Mathlib.Algebra.Field.Rat
import Mathlib.Data.List.Induction
import Mathlib.Data.Rat.Cast.CharZero

/-!
# The exponential moving average

`EMA.cpp`. The first `period` closes are averaged; every later one is mixed in with weight `alpha`.
-/

namespace MacdTradingBot

/-- `EMA`. -/
structure EMA where
  value : ℚ := 0
  n : UInt64 := 0
  alpha : ℚ
  period : UInt64
deriving DecidableEq, Repr

namespace EMA

/-- `EMA::name`. -/
def name : String := "EMA"

/-- `SMOOTHING_FACTOR`. -/
def smoothingFactor : ℕ := 2

/-- `EMA::EMA(std::size_t)`. -/
def ofPeriod (period : UInt64) : EMA :=
  { alpha := smoothingFactor / (1 + (period.toNat : ℚ)), period := period }

/-- `EMA::EMA(const IndicatorConfig&)`. -/
def ofConfig (config : IndicatorConfig) : Except Exception EMA :=
  match config.params.find? "period" with
  | some period => .ok (ofPeriod (staticCastSizeT period))
  | none => .error (.runtimeError "invalid config for EMA")

/-- What the factory makes has some period. -/
theorem exists_ofPeriod {config : IndicatorConfig} {e : EMA} (h : ofConfig config = .ok e) :
    ∃ period, e = ofPeriod period := by
  unfold ofConfig at h
  split at h
  · exact ⟨_, (Except.ok.inj h).symm⟩
  · cases h

def isReady (e : EMA) : Bool := e.n ≥ e.period

def read (e : EMA) : Except Exception Snapshot :=
  if !e.isReady then
    .error (.runtimeError "Not ready")
  else
    .ok (.ofList [("ema", e.value)])

/-- `EMA::write(double)`. -/
def writeClose (e : EMA) (close : ℚ) : EMA :=
  if e.isReady then
    { e with value := close * e.alpha + e.value * (1 - e.alpha) }
  else
    let n := e.n + 1
    { e with
      n := n
      value := (e.value * ((n - 1).toNat : ℚ) + close) / (n.toNat : ℚ) }

/-- `EMA::write(const OHLCV&)`. -/
def write (e : EMA) (ohlcv : OHLCV ℚ) : EMA := e.writeClose ohlcv.close

/-! ## Readiness counts the closes -/

/-- The EMA is ready when the counter has reached the period. -/
theorem isReady_iff (e : EMA) : e.isReady = true ↔ e.period.toNat ≤ e.n.toNat := by
  simp [isReady, UInt64.le_iff_toNat_le]

@[simp]
theorem period_writeClose (e : EMA) (close : ℚ) : (e.writeClose close).period = e.period := by
  unfold writeClose
  split <;> rfl

/-- The counter moves by one until it reaches the period. -/
theorem toNat_n_writeClose {e : EMA} (h : e.n.toNat ≤ e.period.toNat) (close : ℚ) :
    (e.writeClose close).n.toNat = min (e.n.toNat + 1) e.period.toNat := by
  unfold writeClose
  split
  · rename_i hready
    rw [isReady_iff] at hready
    simp only
    omega
  · rename_i hready
    rw [isReady_iff] at hready
    have hlt := e.period.toNat_lt
    simp only [UInt64.toNat_add, UInt64.toNat_one]
    omega

/-- Write the closes one after another. -/
def writeCloses (e : EMA) (closes : List ℚ) : EMA := closes.foldl writeClose e

@[simp]
theorem writeCloses_nil (e : EMA) : e.writeCloses [] = e := rfl

/-- The last close is written last. -/
theorem writeCloses_concat (e : EMA) (closes : List ℚ) (close : ℚ) :
    e.writeCloses (closes ++ [close]) = (e.writeCloses closes).writeClose close := by
  simp [writeCloses]

/-- The counter counts the closes, up to the period. -/
theorem counter_writeCloses (period : UInt64) (closes : List ℚ) :
    ((ofPeriod period).writeCloses closes).period = period ∧
      ((ofPeriod period).writeCloses closes).n.toNat = min closes.length period.toNat := by
  induction closes using List.reverseRecOn with
  | nil => simp [ofPeriod]
  | append_singleton closes close ih =>
    obtain ⟨hperiod, hn⟩ := ih
    rw [writeCloses_concat, period_writeClose]
    refine ⟨hperiod, ?_⟩
    rw [toNat_n_writeClose (by rw [hn, hperiod]; exact min_le_right _ _), hn, hperiod,
      List.length_append, List.length_singleton]
    omega

/-- An EMA is ready exactly from the `period`-th close on. -/
theorem isReady_writeCloses (period : UInt64) (closes : List ℚ) :
    ((ofPeriod period).writeCloses closes).isReady = true ↔ period.toNat ≤ closes.length := by
  obtain ⟨hperiod, hn⟩ := counter_writeCloses period closes
  rw [isReady_iff, hperiod, hn]
  omega

/-- A ready EMA gives its value to `read().begin()->second`. -/
theorem read_begin_of_isReady {e : EMA} (h : e.isReady = true) :
    e.read.bind Snapshot.beginSecond = .ok e.value := by
  simp [read, h, Except.bind, Snapshot.beginSecond, UnorderedMap.ofList,
    UnorderedMap.insertOrAssign, UnorderedMap.keys, UnorderedMap.empty]

/-- A ready EMA stays ready. -/
theorem isReady_writeClose {e : EMA} (h : e.isReady = true) (close : ℚ) :
    (e.writeClose close).isReady = true := by
  unfold writeClose
  rw [if_pos h]
  exact h

end EMA

end MacdTradingBot
