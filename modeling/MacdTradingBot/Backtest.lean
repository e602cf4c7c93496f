import MacdTradingBot.Feed.Replay
import MacdTradingBot.Market.Replays
import MacdTradingBot.Pipeline

/-!
# From the file to snapshots

The whole bot against the historical endpoint: the feed brings the bars of the file, the five-minute
aggregator is its slot, and the indicator engine is the slot of the aggregator. Each part has its theorem;
here they are put together. `snapshots_of_replay` says what the slots of the engine have seen, over any
number of connections.
-/

namespace MacdTradingBot

open AlpacaWSMarketFeed HistoricalAlpacaWSEndpoint

variable {σ : Type} {py : Python} {endpoint : HistoricalAlpacaWSEndpoint py} {json : Nlohmann}
  {config : Config} {symbols : List String} {as : List Replay.Action}

/-! ## The wiring -/

/-- The aggregator as a slot of the feed. -/
def aggregatorSlot {Count : ℕ} {TimeUnit : ChronoDuration} (slot : Subscriber (Bar ℚ Count TimeUnit) σ) :
    Subscriber (Bar1min ℚ) (BarAggregator ℚ Count TimeUnit × σ) :=
  fun bar w => BarAggregator.onBar slot w.1 w.2 bar

theorem callSlots_aggregatorSlot {Count : ℕ} {TimeUnit : ChronoDuration}
    (slot : Subscriber (Bar ℚ Count TimeUnit) σ) (bars : List (Bar1min ℚ))
    (world : BarAggregator ℚ Count TimeUnit × σ) :
    callSlots (aggregatorSlot slot) bars world = BarAggregator.onBars slot world bars := rfl

/-- The bot: the feed, whose slot is the five-minute aggregator, whose slot is the engine. -/
def botSetting (json : Nlohmann) (config : Config) (slot : Subscriber Snapshots σ) :
    Setting (BarAggregator ℚ 5 .minutes × IndicatorEngine × σ) where
  json := json
  config := config
  slots := aggregatorSlot (engineSlot slot)

/-! ## The snapshots -/

/-- What the slots of the engine see of minute bars, of whatever minutes. -/
theorem log_of_bars {slot : Subscriber Snapshots σ} (hslot : slot.NeverThrows) (world : σ)
    {engine : IndicatorEngine} (hengine : engine.SameNames) (bars : List (Bar1min ℚ)) :
    (BarAggregator.onBars (engineSlot slot.logged) ({}, engine, [], world) bars).2.2.1
      = IndicatorEngine.emissions engine.indicators ((emissions 5 .minutes (accepted bars)).map Bar.ohlcv) := by
  have hworld := (onBars_spec (engineSlot_neverThrows hslot.logged) (engine, [], world) bars).2
  have hfold := (IndicatorEngine.foldl_onBar slot.logged hengine ([], world)
    (emissions 5 .minutes (accepted bars))).2.2
  rw [foldl_logged, List.nil_append] at hfold
  rw [hworld]
  exact congrArg Prod.fst hfold

/-- Let the file hold consecutive minutes, and let the engine be built from any configurations. Over every
run against the endpoint, with any number of connections, in which no read that fails leaves bytes, the
slots of the engine have seen the snapshots of the five-minute bars of what the aggregator accepts of the
replays: no bar is lost, and each reconnect repeats the last two. -/
theorem snapshots_of_replay {slot : Subscriber Snapshots σ} (hslot : slot.NeverThrows) (world : σ)
    {configs : List IndicatorConfig} {engine : IndicatorEngine}
    (hengine : IndicatorEngine.ofConfigs configs = .ok engine) (hunderstands : Understands json endpoint)
    (hminutes : ConsecutiveMinutes (barsRead json endpoint))
    {s : Replay (BarAggregator ℚ 5 .minutes × IndicatorEngine × List Snapshots × σ)}
    (h : Replay.Run (botSetting json config slot.logged) endpoint symbols ({}, engine, [], world) as s)
    (hclean : ∀ a ∈ as, a.Clean) :
    s.client.handlerState.world.2.2.1 = IndicatorEngine.emissions engine.indicators
      ((emissions 5 .minutes (replayed (barsRead json endpoint) 0 (s.barCounts json))).map Bar.ohlcv) := by
  have hcounts : ∀ n ∈ s.barCounts json, n ≤ (barsRead json endpoint).length :=
    (Replay.inStep_of_run hunderstands h hclean).barCounts_le
  rw [(Replay.bars_of_replay hunderstands h hclean).2, ← accepted_replays hminutes hcounts, botSetting,
    callSlots_aggregatorSlot]
  exact log_of_bars hslot world (IndicatorEngine.sameNames_of_ofConfigs hengine) _

/-- An `EMA` of period 1. -/
def promptEma : IndicatorConfig := { name := "EMA", params := .ofList [("period", 1)] }

/-- The file is read as a whole and then up to its fourth bar, which the aggregator takes twice; the first
five bars bring a snapshot. -/
theorem snapshots_of_replay_replayTwice : ∃ engine t,
    IndicatorEngine.ofConfigs [promptEma] = .ok engine ∧
      Replay.Run (botSetting Replay.exampleJson keyConfig Subscriber.ignore.logged) Replay.exampleEndpoint
        ["AAPL"] ({}, engine, [], ()) Replay.replayTwice t ∧
      t.barCounts Replay.exampleJson = [5, 4] ∧
      t.client.handlerState.world.2.2.1 = IndicatorEngine.emissions engine.indicators
        ((emissions 5 .minutes (replayed (barsRead Replay.exampleJson Replay.exampleEndpoint) 0
          [5, 4])).map Bar.ohlcv) := by
  obtain ⟨engine, hengine⟩ : ∃ engine, IndicatorEngine.ofConfigs [promptEma] = .ok engine := ⟨_, rfl⟩
  have hbars : barsRead Replay.exampleJson Replay.exampleEndpoint
      = [0, 1, 2, 3, 4].map fun minute => ⟨"AAPL", ⟨1, 1, 1, 1, 1⟩, 29127690 + minute⟩ := by
    decide +kernel
  have hminutes : ConsecutiveMinutes (barsRead Replay.exampleJson Replay.exampleEndpoint) := by
    rw [hbars]
    simp [ConsecutiveMinutes]
  have hrun : (Runs.run (Replay.step (botSetting Replay.exampleJson keyConfig Subscriber.ignore.logged)
      Replay.exampleEndpoint)
        (Replay.start (botSetting Replay.exampleJson keyConfig Subscriber.ignore.logged) ["AAPL"]
          ({}, engine, [], ())) Replay.replayTwice).map (·.barCounts Replay.exampleJson)
      = some [5, 4] := by
    obtain rfl := Except.ok.inj hengine
    decide +kernel
  obtain ⟨t, ht, hcounts⟩ := Option.map_eq_some_iff.mp hrun
  refine ⟨engine, t, hengine, ht, hcounts, ?_⟩
  rw [← hcounts]
  exact snapshots_of_replay Subscriber.ignore_neverThrows () hengine Replay.exampleJson_understands
    hminutes ht Replay.replayTwice_clean

end MacdTradingBot
