import MacdTradingBot.Indicators.ATR
import MacdTradingBot.Indicators.MACD

/-!
# The indicator registry and the indicator engine

`IndicatorRegistry.hpp`, `IndicatorRegistrar.hpp` and `IndicatorEngine.hpp`, at the interface
`OHLCVIndicator` whose three implementations register themselves. The engine keeps its indicators and
its snapshots in two maps under the names that the registry returns.
-/

namespace MacdTradingBot

variable {σ : Type}

/-- `OHLCVIndicator`: the implementations behind the interface. -/
inductive OHLCVIndicator
  | ema (e : EMA)
  | atr (a : ATR)
  | macd (m : MACD)
deriving DecidableEq, Repr

namespace OHLCVIndicator

def isReady : OHLCVIndicator → Bool
  | ema e => e.isReady
  | atr a => a.isReady
  | macd m => m.isReady

def read : OHLCVIndicator → Except Exception Snapshot
  | ema e => e.read
  | atr a => a.read
  | macd m => m.read

def write (ohlcv : OHLCV ℚ) : OHLCVIndicator → Except Exception OHLCVIndicator
  | ema e => .ok (ema (e.write ohlcv))
  | atr a => .ok (atr (a.write ohlcv))
  | macd m => (m.write ohlcv).map macd

/-- An indicator on its own, written the bars one after another. -/
def writeBars (indicator : OHLCVIndicator) (bars : List (OHLCV ℚ)) :
    Except Exception OHLCVIndicator :=
  bars.foldlM (fun i ohlcv => i.write ohlcv) indicator

end OHLCVIndicator

/-- `IndicatorRegistry<OHLCVIndicator>::FactoryFn`. -/
abbrev FactoryFn : Type := IndicatorConfig → Except Exception (String × OHLCVIndicator)

namespace IndicatorRegistry

/-- The factories that the three `REGISTER_INDICATOR` lines leave in the registry. -/
def factories : UnorderedMap String FactoryFn :=
  .ofList
    [(ATR.name, fun config => (ATR.ofConfig config).map fun a => (ATR.name, .atr a)),
      (EMA.name, fun config => (EMA.ofConfig config).map fun e => (EMA.name, .ema e)),
      (MACD.name, fun config => (MACD.ofConfig config).map fun m => (MACD.name, .macd m))]

/-- `IndicatorRegistry::create`. -/
def create (config : IndicatorConfig) : Except Exception (String × OHLCVIndicator) :=
  match factories.find? config.name with
  | none => .error (.runtimeError ("Unknown indicator: " ++ config.name))
  | some factory => factory config

end IndicatorRegistry

/-- `IndicatorEngine::Snapshots`. -/
abbrev Snapshots : Type := UnorderedMap String Snapshot

/-- `IndicatorEngine<Count, TimeUnit, OHLCVIndicator>`; the signal is the `slot` argument of `onBar`. -/
structure IndicatorEngine where
  indicators : UnorderedMap String OHLCVIndicator := .empty
  snapshots : Snapshots := .empty

namespace IndicatorEngine

/-- One round of the constructor's loop. -/
def addConfig (engine : IndicatorEngine) (config : IndicatorConfig) :
    Except Exception IndicatorEngine := do
  let (name, indicator) ← IndicatorRegistry.create config
  return {
    indicators := engine.indicators.insertOrAssign name indicator
    snapshots := engine.snapshots.insertOrAssign name .empty }

/-- `IndicatorEngine::IndicatorEngine`. -/
def ofConfigs (configs : List IndicatorConfig) : Except Exception IndicatorEngine :=
  configs.foldlM addConfig {}

/-- `is_ready`. -/
def isReady (engine : IndicatorEngine) : Bool := engine.indicators.values.all (·.isReady)

/-- The loop of `update_snapshots`. -/
def updateSnapshotsLoop :
    List (String × OHLCVIndicator) → Snapshots → Except Exception Unit × Snapshots
  | [], snapshots => (.ok (), snapshots)
  | (name, indicator) :: entries, snapshots =>
    match indicator.read with
    | .error e => (.error e, snapshots)
    | .ok reading => updateSnapshotsLoop entries (snapshots.insertOrAssign name reading)

/-- `update_snapshots`. -/
def updateSnapshots (engine : IndicatorEngine) : Except Exception Unit × IndicatorEngine :=
  let (outcome, snapshots) := updateSnapshotsLoop engine.indicators.entries engine.snapshots
  (outcome, { engine with snapshots := snapshots })

/-- `on_bar`. The result is the outcome, the engine and the state of the subscribers. -/
def onBar {Count : ℕ} {TimeUnit : ChronoDuration} (slot : Subscriber Snapshots σ)
    (engine : IndicatorEngine) (world : σ) (bar : Bar ℚ Count TimeUnit) :
    Except Exception Unit × IndicatorEngine × σ :=
  match engine.indicators.forEach (OHLCVIndicator.write bar.ohlcv) with
  | (.error e, indicators) => (.error e, { engine with indicators := indicators }, world)
  | (.ok (), indicators) =>
    let engine := { engine with indicators := indicators }
    if engine.isReady then
      match engine.updateSnapshots with
      | (.error e, engine) => (.error e, engine, world)
      | (.ok (), engine) =>
        match slot engine.snapshots world with
        | (outcome, world) => (outcome, engine, world)
    else
      (.ok (), engine, world)

end IndicatorEngine

/-! ## The indicators never throw while they are written, nor when they are ready -/

namespace OHLCVIndicator

/-- What `write` does. -/
def written (ohlcv : OHLCV ℚ) : OHLCVIndicator → OHLCVIndicator
  | ema e => ema (e.write ohlcv)
  | atr a => atr (a.write ohlcv)
  | macd m => macd (m.written ohlcv)

/-- Writing does not throw. -/
theorem write_eq (ohlcv : OHLCV ℚ) (i : OHLCVIndicator) : i.write ohlcv = .ok (i.written ohlcv) := by
  cases i with
  | ema e => rfl
  | atr a => rfl
  | macd m =>
    rw [write, MACD.write_eq]
    rfl

/-- The indicator after the bars. -/
def after (i : OHLCVIndicator) (bars : List (OHLCV ℚ)) : OHLCVIndicator :=
  bars.foldl (fun i ohlcv => i.written ohlcv) i

/-- Writing bar after bar does not throw. -/
theorem writeBars_eq (i : OHLCVIndicator) (bars : List (OHLCV ℚ)) :
    i.writeBars bars = .ok (i.after bars) := by
  unfold writeBars after
  induction bars generalizing i with
  | nil => rfl
  | cons bar bars ih =>
    rw [List.foldlM_cons, write_eq, List.foldl_cons]
    exact ih (i.written bar)

@[simp]
theorem after_nil (i : OHLCVIndicator) : i.after [] = i := rfl

/-- The last bar is written last. -/
theorem after_concat (i : OHLCVIndicator) (bars : List (OHLCV ℚ)) (bar : OHLCV ℚ) :
    i.after (bars ++ [bar]) = (i.after bars).written bar := by
  simp [after]

/-- An EMA takes the closes of the bars. -/
theorem after_ema (e : EMA) (bars : List (OHLCV ℚ)) :
    (ema e).after bars = ema (e.writeCloses (bars.map OHLCV.close)) := by
  induction bars using List.reverseRecOn with
  | nil => rfl
  | append_singleton bars bar ih =>
    rw [after_concat, ih, List.map_append, List.map_singleton, EMA.writeCloses_concat]
    rfl

theorem after_atr (a : ATR) (bars : List (OHLCV ℚ)) : (atr a).after bars = atr (a.writeAll bars) := by
  induction bars using List.reverseRecOn with
  | nil => rfl
  | append_singleton bars bar ih =>
    rw [after_concat, ih, ATR.writeAll_concat]
    rfl

theorem after_macd (m : MACD) (bars : List (OHLCV ℚ)) :
    (macd m).after bars = macd (m.writeAll bars) := by
  induction bars using List.reverseRecOn with
  | nil => rfl
  | append_singleton bars bar ih =>
    rw [after_concat, ih, MACD.writeAll_concat]
    rfl

/-! The warm-up lengths of the indicators that the factories return. -/

/-- An EMA is ready from the bar on that fills its period. -/
theorem isReady_after_ema (period : UInt64) (bars : List (OHLCV ℚ)) :
    ((ema (.ofPeriod period)).after bars).isReady = true ↔ period.toNat ≤ bars.length := by
  rw [after_ema]
  show EMA.isReady _ = true ↔ _
  rw [EMA.isReady_writeCloses, List.length_map]

/-- An ATR is ready one bar later. -/
theorem isReady_after_atr {period : UInt64} (hperiod : 1 ≤ period.toNat) {bars : List (OHLCV ℚ)}
    (hclose : ∀ b ∈ bars, b.close ≠ -1) :
    ((atr (.ofPeriod period)).after bars).isReady = true ↔ period.toNat + 1 ≤ bars.length := by
  rw [after_atr]
  exact ATR.isReady_writeAll hperiod hclose

/-- A MACD is ready when the slower EMA has been for as long as the signal line takes. -/
theorem isReady_after_macd (fast slow : UInt64) {signal : UInt64} (hsignal : 1 ≤ signal.toNat)
    (bars : List (OHLCV ℚ)) :
    ((macd (.ofPeriods fast slow signal)).after bars).isReady = true ↔
      max fast.toNat slow.toNat + signal.toNat ≤ bars.length := by
  rw [after_macd]
  exact MACD.isReady_writeAll fast slow signal bars hsignal

/-- The readings of a ready indicator. -/
def reading : OHLCVIndicator → Snapshot
  | ema e => .ofList [("ema", e.value)]
  | atr a => .ofList [("atr", a.val)]
  | macd m =>
    .ofList
      [("macd", m.fastEma.value - m.slowEma.value), ("signal", m.signalEma.value),
        ("histogram", m.fastEma.value - m.slowEma.value - m.signalEma.value)]

/-- What is ready can be read. -/
theorem read_of_isReady {i : OHLCVIndicator} (h : i.isReady = true) : i.read = .ok i.reading := by
  cases i with
  | ema e =>
    have he : e.isReady = true := h
    rw [read, EMA.read, he]
    rfl
  | atr a =>
    have ha : a.isReady = true := h
    rw [read, ATR.read, ha]
    rfl
  | macd m => exact MACD.read_of_isReady h

end OHLCVIndicator

/-! ## What one bar does to the engine -/

namespace IndicatorEngine

/-- When all indicators are ready, their readings are assigned. -/
theorem updateSnapshotsLoop_of_ready {entries : List (String × OHLCVIndicator)}
    (h : ∀ e ∈ entries, e.2.isReady = true) (snapshots : Snapshots) :
    updateSnapshotsLoop entries snapshots =
      (.ok (), snapshots.assignAll (entries.map fun e => (e.1, e.2.reading))) := by
  induction entries generalizing snapshots with
  | nil => rfl
  | cons e entries ih =>
    obtain ⟨name, indicator⟩ := e
    rw [updateSnapshotsLoop, OHLCVIndicator.read_of_isReady (h (name, indicator) (by simp))]
    exact ih (fun e he => h e (by simp [he])) _

/-- No call throws, unless a slot does. -/
theorem onBar_ok {Count : ℕ} {TimeUnit : ChronoDuration} {slot : Subscriber Snapshots σ}
    (hslot : slot.NeverThrows) (engine : IndicatorEngine) (world : σ) (bar : Bar ℚ Count TimeUnit) :
    (engine.onBar slot world bar).1 = .ok () := by
  have hforEach : engine.indicators.forEach (OHLCVIndicator.write bar.ohlcv)
      = (.ok (), engine.indicators.mapValues (OHLCVIndicator.written bar.ohlcv)) :=
    UnorderedMap.forEach_of_ok fun i _ => OHLCVIndicator.write_eq bar.ohlcv i
  unfold onBar
  simp only [hforEach]
  split
  · rename_i hready
    unfold updateSnapshots
    rw [updateSnapshotsLoop_of_ready fun e he =>
      List.all_eq_true.mp hready e.2 (List.mem_map.mpr ⟨e, he, rfl⟩)]
    exact hslot _ _
  · rfl

/-- The constructor leaves a snapshot under the name of each indicator, and nothing else. -/
def SameNames (engine : IndicatorEngine) : Prop :=
  engine.snapshots.keys = engine.indicators.keys

/-- The snapshots of a ready engine after an update. -/
theorem updateSnapshots_of_ready {engine : IndicatorEngine} (hnames : engine.SameNames)
    (h : engine.isReady = true) :
    engine.updateSnapshots = (.ok (),
      { engine with snapshots := engine.indicators.mapValues OHLCVIndicator.reading }) := by
  have hready : ∀ e ∈ engine.indicators.entries, e.2.isReady = true := by
    intro e he
    exact List.all_eq_true.mp h e.2 (List.mem_map.mpr ⟨e, he, rfl⟩)
  have hassign : engine.snapshots.assignAll
      (engine.indicators.mapValues OHLCVIndicator.reading).entries
        = engine.indicators.mapValues OHLCVIndicator.reading :=
    UnorderedMap.assignAll_entries (by rw [UnorderedMap.keys_mapValues, hnames])
  unfold updateSnapshots
  rw [updateSnapshotsLoop_of_ready hready]
  exact congrArg (fun s => (Except.ok (), { engine with snapshots := s })) hassign

/-- The indicators of the engine after a bar. -/
def written (engine : IndicatorEngine) (ohlcv : OHLCV ℚ) : IndicatorEngine :=
  { engine with indicators := engine.indicators.mapValues (OHLCVIndicator.written ohlcv) }

/-- One bar: every indicator is written, and if all are ready their readings are emitted. Nothing
throws but the slots. -/
theorem onBar_eq {Count : ℕ} {TimeUnit : ChronoDuration} (slot : Subscriber Snapshots σ)
    {engine : IndicatorEngine} (hnames : engine.SameNames) (world : σ)
    (bar : Bar ℚ Count TimeUnit) :
    engine.onBar slot world bar =
      let engine := engine.written bar.ohlcv
      let snapshots := engine.indicators.mapValues OHLCVIndicator.reading
      if engine.isReady then
        ((slot snapshots world).1, { engine with snapshots := snapshots }, (slot snapshots world).2)
      else
        (.ok (), engine, world) := by
  have hnames' : (engine.written bar.ohlcv).SameNames := by
    unfold SameNames written
    rw [UnorderedMap.keys_mapValues]
    exact hnames
  have hforEach : engine.indicators.forEach (OHLCVIndicator.write bar.ohlcv)
      = (.ok (), (engine.written bar.ohlcv).indicators) :=
    UnorderedMap.forEach_of_ok fun i _ => OHLCVIndicator.write_eq bar.ohlcv i
  have hengine : ({ engine with indicators := (engine.written bar.ohlcv).indicators } :
      IndicatorEngine) = engine.written bar.ohlcv := rfl
  unfold onBar
  simp only [hforEach, hengine]
  split
  · rename_i hready
    rw [updateSnapshots_of_ready hnames' hready]
  · rfl

/-! ## Runs of the engine -/

/-- The indicators after the bars, from their first state. -/
def indicatorsAfter (first : UnorderedMap String OHLCVIndicator) (bars : List (OHLCV ℚ)) :
    UnorderedMap String OHLCVIndicator :=
  first.mapValues fun i => i.after bars

/-- A bar is written to every indicator. -/
theorem indicatorsAfter_concat (first : UnorderedMap String OHLCVIndicator) (bars : List (OHLCV ℚ))
    (bar : OHLCV ℚ) : indicatorsAfter first (bars ++ [bar])
      = (indicatorsAfter first bars).mapValues (OHLCVIndicator.written bar) := by
  rw [indicatorsAfter, indicatorsAfter, UnorderedMap.mapValues_mapValues]
  exact congrArg (fun f => first.mapValues f) (funext fun i => i.after_concat bars bar)

/-- The snapshot after the `i`-th of the bars, counted from zero, if all indicators are ready then. -/
def emission (first : UnorderedMap String OHLCVIndicator) (bars : List (OHLCV ℚ)) (i : ℕ) :
    Option Snapshots :=
  let indicators := indicatorsAfter first (bars.take (i + 1))
  if indicators.values.all (·.isReady) then
    some (indicators.mapValues OHLCVIndicator.reading)
  else
    none

/-- The snapshots emitted over the bars. -/
def emissions (first : UnorderedMap String OHLCVIndicator) (bars : List (OHLCV ℚ)) :
    List Snapshots :=
  (List.range bars.length).filterMap (emission first bars)

/-- A bar brings at most one more snapshot. -/
theorem emissions_concat (first : UnorderedMap String OHLCVIndicator) (bars : List (OHLCV ℚ))
    (bar : OHLCV ℚ) :
    emissions first (bars ++ [bar])
      = emissions first bars ++ (emission first (bars ++ [bar]) bars.length).toList := by
  unfold emissions
  have hold : (List.range bars.length).filterMap (emission first (bars ++ [bar]))
      = (List.range bars.length).filterMap (emission first bars) := by
    refine List.filterMap_congr fun i hi => ?_
    rw [List.mem_range] at hi
    unfold emission
    rw [List.take_append_of_le_length (by omega)]
  rw [List.length_append, List.length_singleton, List.range_succ, List.filterMap_append, hold]
  rfl

/-- A sequence of bars: the indicators are written all of them, and the slots see the emissions. -/
theorem foldl_onBar {Count : ℕ} {TimeUnit : ChronoDuration} (slot : Subscriber Snapshots σ)
    {engine : IndicatorEngine} (hnames : engine.SameNames) (world : σ)
    (bars : List (Bar ℚ Count TimeUnit)) :
    let s := bars.foldl (fun s bar => (onBar slot s.1 s.2 bar).2) (engine, world)
    s.1.SameNames ∧
      s.1.indicators = indicatorsAfter engine.indicators (bars.map Bar.ohlcv) ∧
        s.2 = (emissions engine.indicators (bars.map Bar.ohlcv)).foldl
          (fun w snapshots => (slot snapshots w).2) world := by
  induction bars using List.reverseRecOn with
  | nil =>
    refine ⟨hnames, ?_, rfl⟩
    exact (UnorderedMap.mapValues_id engine.indicators).symm
  | append_singleton bars bar ih =>
    simp only [List.foldl_append, List.foldl_cons, List.foldl_nil] at ih ⊢
    generalize bars.foldl (fun s bar => (onBar slot s.1 s.2 bar).2) (engine, world) = s at ih ⊢
    obtain ⟨hs, hindicators, hworld⟩ := ih
    rw [onBar_eq slot hs, List.map_append, List.map_singleton, emissions_concat]
    have hwritten : (s.1.written bar.ohlcv).indicators
        = indicatorsAfter engine.indicators (bars.map Bar.ohlcv ++ [bar.ohlcv]) := by
      rw [written, hindicators, indicatorsAfter_concat]
    have hnames' : (s.1.written bar.ohlcv).SameNames := by
      unfold SameNames written
      rw [UnorderedMap.keys_mapValues]
      exact hs
    have htake : (bars.map Bar.ohlcv ++ [bar.ohlcv]).take ((bars.map Bar.ohlcv).length + 1)
        = bars.map Bar.ohlcv ++ [bar.ohlcv] := List.take_of_length_le (by simp)
    unfold emission isReady
    simp only [htake, ← hwritten]
    split
    · refine ⟨?_, rfl, ?_⟩
      · exact UnorderedMap.keys_mapValues _ _
      · rw [List.foldl_append, ← hworld]
        rfl
    · refine ⟨hnames', rfl, ?_⟩
      rw [List.foldl_append, ← hworld]
      rfl

end IndicatorEngine

end MacdTradingBot
