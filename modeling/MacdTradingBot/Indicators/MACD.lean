import MacdTradingBot.Indicators.EMA

/-!
# Moving average convergence / divergence

`MACD.cpp`: two EMAs of the closes, and a third one, the signal line, of their difference. The signal
line gets a value only at bars before which both EMAs were ready already.
-/

namespace MacdTradingBot

/-- `MACD`. -/
structure MACD where
  fastEma : EMA
  slowEma : EMA
  signalEma : EMA
deriving DecidableEq, Repr

namespace MACD

/-- `MACD::name`. -/
def name : String := "MACD"

/-- `extract_period`. -/
def extractPeriod (config : IndicatorConfig) (key : String) : Except Exception UInt64 :=
  match config.params.find? key with
  | none => .error (.runtimeError ("MACD config requires a " ++ key ++ " key"))
  | some period => .ok (staticCastSizeT period)

/-- `MACD::MACD(std::size_t, std::size_t, std::size_t)`. -/
def ofPeriods (fastPeriod slowPeriod signalPeriod : UInt64) : MACD :=
  { fastEma := .ofPeriod fastPeriod
    slowEma := .ofPeriod slowPeriod
    signalEma := .ofPeriod signalPeriod }

/-- `MACD::MACD(const IndicatorConfig&)`. -/
def ofConfig (config : IndicatorConfig) : Except Exception MACD := do
  let fastPeriod ← extractPeriod config "fast_period"
  let slowPeriod ← extractPeriod config "slow_period"
  let signalPeriod ← extractPeriod config "signal_period"
  return ofPeriods fastPeriod slowPeriod signalPeriod

def isReady (m : MACD) : Bool :=
  m.slowEma.isReady && m.fastEma.isReady && m.signalEma.isReady

/-- `MACD::write`. Its inner reads may throw. -/
def write (m : MACD) (ohlcv : OHLCV ℚ) : Except Exception MACD :=
  let shouldCalcSignal := m.fastEma.isReady && m.slowEma.isReady
  let m := { m with fastEma := m.fastEma.write ohlcv, slowEma := m.slowEma.write ohlcv }
  if shouldCalcSignal then do
    let fastEmaValue ← m.fastEma.read >>= Snapshot.beginSecond
    let slowEmaValue ← m.slowEma.read >>= Snapshot.beginSecond
    return { m with signalEma := m.signalEma.writeClose (fastEmaValue - slowEmaValue) }
  else
    return m

def read (m : MACD) : Except Exception Snapshot :=
  if !m.isReady then
    .error (.runtimeError "MACD is not ready")
  else do
    let fastEmaValue ← m.fastEma.read >>= Snapshot.beginSecond
    let slowEmaValue ← m.slowEma.read >>= Snapshot.beginSecond
    let signalLine ← m.signalEma.read >>= Snapshot.beginSecond
    let macdLine := fastEmaValue - slowEmaValue
    let histogram := macdLine - signalLine
    return .ofList [("macd", macdLine), ("signal", signalLine), ("histogram", histogram)]

/-- What the factory makes has some periods. -/
theorem exists_ofPeriods {config : IndicatorConfig} {m : MACD} (h : ofConfig config = .ok m) :
    ∃ fast slow signal, m = ofPeriods fast slow signal := by
  unfold ofConfig at h
  cases hf : extractPeriod config "fast_period" with
  | error e => simp [hf, bind, Except.bind] at h
  | ok fast =>
    cases hs : extractPeriod config "slow_period" with
    | error e => simp [hf, hs, bind, Except.bind] at h
    | ok slow =>
      cases hg : extractPeriod config "signal_period" with
      | error e => simp [hf, hs, hg, bind, Except.bind] at h
      | ok signal =>
        refine ⟨fast, slow, signal, ?_⟩
        simpa [hf, hs, hg, bind, Except.bind, pure, Except.pure] using h.symm

/-! ## The inner reads never throw -/

/-- What `write` does: the inner reads are reached only when both EMAs are ready. -/
def written (m : MACD) (ohlcv : OHLCV ℚ) : MACD :=
  let fastEma := m.fastEma.write ohlcv
  let slowEma := m.slowEma.write ohlcv
  { fastEma := fastEma
    slowEma := slowEma
    signalEma :=
      if m.fastEma.isReady && m.slowEma.isReady then
        m.signalEma.writeClose (fastEma.value - slowEma.value)
      else
        m.signalEma }

/-- Writing does not throw. -/
theorem write_eq (m : MACD) (ohlcv : OHLCV ℚ) : m.write ohlcv = .ok (m.written ohlcv) := by
  unfold write written
  cases hready : m.fastEma.isReady && m.slowEma.isReady with
  | false => rfl
  | true =>
    rw [Bool.and_eq_true] at hready
    have hfast : (m.fastEma.write ohlcv).read.bind Snapshot.beginSecond
        = .ok (m.fastEma.write ohlcv).value :=
      EMA.read_begin_of_isReady (EMA.isReady_writeClose hready.1 _)
    have hslow : (m.slowEma.write ohlcv).read.bind Snapshot.beginSecond
        = .ok (m.slowEma.write ohlcv).value :=
      EMA.read_begin_of_isReady (EMA.isReady_writeClose hready.2 _)
    simp only [if_true, bind, hfast, hslow]
    rfl

/-- A ready MACD can be read. -/
theorem read_of_isReady {m : MACD} (h : m.isReady = true) :
    m.read = .ok (.ofList
      [("macd", m.fastEma.value - m.slowEma.value), ("signal", m.signalEma.value),
        ("histogram", m.fastEma.value - m.slowEma.value - m.signalEma.value)]) := by
  have hready := h
  simp only [isReady, Bool.and_eq_true] at hready
  obtain ⟨⟨hslow, hfast⟩, hsignal⟩ := hready
  unfold read
  rw [h]
  simp only [Bool.not_true, Bool.false_eq_true, if_false, bind,
    EMA.read_begin_of_isReady hfast, EMA.read_begin_of_isReady hslow,
    EMA.read_begin_of_isReady hsignal]
  rfl

/-! ## Readiness counts the bars -/

/-- Write the bars one after another. -/
def writeAll (m : MACD) (bars : List (OHLCV ℚ)) : MACD := bars.foldl written m

@[simp]
theorem writeAll_nil (m : MACD) : m.writeAll [] = m := rfl

/-- The last bar is written last. -/
theorem writeAll_concat (m : MACD) (bars : List (OHLCV ℚ)) (bar : OHLCV ℚ) :
    m.writeAll (bars ++ [bar]) = (m.writeAll bars).written bar := by
  simp [writeAll]

section Counters

variable (fast slow signal : UInt64) (bars : List (OHLCV ℚ))

/-- The two inner EMAs see every close. -/
theorem fastEma_writeAll :
    ((ofPeriods fast slow signal).writeAll bars).fastEma
      = (EMA.ofPeriod fast).writeCloses (bars.map OHLCV.close) := by
  induction bars using List.reverseRecOn with
  | nil => rfl
  | append_singleton bars bar ih =>
    rw [writeAll_concat, List.map_append, List.map_singleton, EMA.writeCloses_concat, ← ih]
    rfl

/-- The slow EMA sees every close. -/
theorem slowEma_writeAll :
    ((ofPeriods fast slow signal).writeAll bars).slowEma
      = (EMA.ofPeriod slow).writeCloses (bars.map OHLCV.close) := by
  induction bars using List.reverseRecOn with
  | nil => rfl
  | append_singleton bars bar ih =>
    rw [writeAll_concat, List.map_append, List.map_singleton, EMA.writeCloses_concat, ← ih]
    rfl

/-- The signal EMA sees one value for each bar after the first `max fast slow`. -/
theorem signalEma_writeAll :
    let m := (ofPeriods fast slow signal).writeAll bars
    m.signalEma.period = signal ∧
      m.signalEma.n.toNat = min (bars.length - max fast.toNat slow.toNat) signal.toNat := by
  induction bars using List.reverseRecOn with
  | nil => simp [ofPeriods, EMA.ofPeriod]
  | append_singleton bars bar ih =>
    obtain ⟨hperiod, hn⟩ := ih
    have hfast := EMA.isReady_writeCloses fast (bars.map OHLCV.close)
    have hslow := EMA.isReady_writeCloses slow (bars.map OHLCV.close)
    rw [← fastEma_writeAll fast slow signal, List.length_map] at hfast
    rw [← slowEma_writeAll fast slow signal, List.length_map] at hslow
    rw [writeAll_concat, written, List.length_append, List.length_singleton]
    split
    · rename_i hready
      rw [Bool.and_eq_true, hfast, hslow] at hready
      simp only [EMA.period_writeClose]
      refine ⟨hperiod, ?_⟩
      rw [EMA.toNat_n_writeClose (by rw [hn, hperiod]; exact min_le_right _ _), hn, hperiod]
      omega
    · rename_i hready
      rw [Bool.and_eq_true, hfast, hslow] at hready
      refine ⟨hperiod, ?_⟩
      simp only [hn]
      omega

/-- A MACD is ready exactly from bar `max fast slow + signal` on, for a positive signal period. -/
theorem isReady_writeAll (hsignal : 1 ≤ signal.toNat) :
    ((ofPeriods fast slow signal).writeAll bars).isReady = true ↔
      max fast.toNat slow.toNat + signal.toNat ≤ bars.length := by
  obtain ⟨hperiod, hn⟩ := signalEma_writeAll fast slow signal bars
  rw [isReady, Bool.and_eq_true, Bool.and_eq_true, fastEma_writeAll, slowEma_writeAll,
    EMA.isReady_writeCloses, EMA.isReady_writeCloses, EMA.isReady_iff, hperiod, hn,
    List.length_map]
  omega

end Counters

end MACD

end MacdTradingBot
