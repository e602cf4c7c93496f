import MacdTradingBot.Indicators.Configured
import MacdTradingBot.Market.AggregatorRuns

/-!
# From minute bars to snapshots

The wiring of the bot: the five-minute aggregator is subscribed by the indicator engine, which is built
from a list of configurations. `pipeline_snapshots` says which snapshots a sequence of accepted minute
bars brings: the warm-up lengths of the window and of the indicators add up without a gap.
-/

namespace MacdTradingBot

variable {σ : Type}

/-! ## Valid configurations and their warm-up lengths -/

/-- A configuration of one of the three indicators with positive periods, and the number of bars after
which the indicator is ready. -/
inductive ValidConfig : IndicatorConfig → ℕ → Prop
  | ema {config : IndicatorConfig} {p : Int32} (name : config.name = "EMA")
      (period : config.params.find? "period" = some p) (hp : 1 ≤ p.toInt) :
      ValidConfig config p.toInt.toNat
  | atr {config : IndicatorConfig} {a : Int32} (name : config.name = "ATR")
      (period : config.params.find? "period" = some a) (ha : 1 ≤ a.toInt) :
      ValidConfig config (a.toInt.toNat + 1)
  | macd {config : IndicatorConfig} {f s g : Int32} (name : config.name = "MACD")
      (fast : config.params.find? "fast_period" = some f)
      (slow : config.params.find? "slow_period" = some s)
      (signal : config.params.find? "signal_period" = some g)
      (hf : 1 ≤ f.toInt) (hs : 1 ≤ s.toInt) (hg : 1 ≤ g.toInt) :
      ValidConfig config (max f.toInt.toNat s.toInt.toNat + g.toInt.toNat)

/-- A valid configuration gives an indicator under the configured name, which is ready exactly from the
warm-up length on. -/
theorem ValidConfig.create {config : IndicatorConfig} {warmUp : ℕ}
    (h : ValidConfig config warmUp) :
    ∃ first, IndicatorRegistry.create config = .ok (config.name, first) ∧
      ∀ bars : List (OHLCV ℚ), (∀ b ∈ bars, b.close ≠ -1) →
        ((first.after bars).isReady = true ↔ warmUp ≤ bars.length) := by
  cases h with
  | @ema p name period hp =>
    refine ⟨.ema (.ofPeriod (staticCastSizeT p)), ?_, fun bars _ => ?_⟩
    · simp only [IndicatorRegistry.create, name, find?_factories_ema, EMA.ofConfig, period]
      rfl
    · rw [OHLCVIndicator.isReady_after_ema, toNat_staticCastSizeT (by omega)]
  | @atr a name period ha =>
    refine ⟨.atr (.ofPeriod (staticCastSizeT a)), ?_, fun bars hclose => ?_⟩
    · simp only [IndicatorRegistry.create, name, find?_factories_atr, ATR.ofConfig, period]
      rfl
    · have hperiod := toNat_staticCastSizeT (show 0 ≤ a.toInt by omega)
      rw [OHLCVIndicator.isReady_after_atr (by omega) hclose, hperiod]
  | @macd f s g name fast slow signal hf hs hg =>
    refine ⟨.macd (.ofPeriods (staticCastSizeT f) (staticCastSizeT s) (staticCastSizeT g)), ?_,
      fun bars _ => ?_⟩
    · simp only [IndicatorRegistry.create, name, find?_factories_macd, MACD.ofConfig,
        MACD.extractPeriod, fast, slow, signal]
      rfl
    · have hsignal := toNat_staticCastSizeT (show 0 ≤ g.toInt by omega)
      rw [OHLCVIndicator.isReady_after_macd _ _ (by omega), hsignal,
        toNat_staticCastSizeT (show 0 ≤ f.toInt by omega),
        toNat_staticCastSizeT (show 0 ≤ s.toInt by omega)]

/-! ## All indicators ready -/

/-- The indicators of valid configurations, and when all of them are ready. -/
theorem exists_create_of_valid {configs : List IndicatorConfig} {warmUps : List ℕ}
    (h : List.Forall₂ ValidConfig configs warmUps) :
    ∃ firsts, Created configs firsts ∧
      ∀ bars : List (OHLCV ℚ), (∀ b ∈ bars, b.close ≠ -1) →
        ((∀ i ∈ firsts, (i.after bars).isReady = true) ↔ ∀ w ∈ warmUps, w ≤ bars.length) := by
  induction h with
  | nil => exact ⟨[], .nil, by simp⟩
  | cons hvalid _ ih =>
    obtain ⟨first, hcreate, hready⟩ := hvalid.create
    obtain ⟨firsts, hcreates, hreadies⟩ := ih
    refine ⟨first :: firsts, .cons hcreate hcreates, fun bars hclose => ?_⟩
    rw [List.forall_mem_cons, List.forall_mem_cons, hready bars hclose, hreadies bars hclose]

/-- The first bar count at which all indicators are ready: the maximum of 1 and the warm-up lengths. -/
def barsUntilReady (warmUps : List ℕ) : ℕ := warmUps.foldr max 1

theorem barsUntilReady_pos (warmUps : List ℕ) : 1 ≤ barsUntilReady warmUps := by
  induction warmUps with
  | nil => exact le_rfl
  | cons w warmUps ih => exact ih.trans (le_max_right _ _)

theorem barsUntilReady_le_iff {warmUps : List ℕ} {n : ℕ} (hn : 1 ≤ n) :
    barsUntilReady warmUps ≤ n ↔ ∀ w ∈ warmUps, w ≤ n := by
  induction warmUps with
  | nil => simpa [barsUntilReady] using hn
  | cons w warmUps ih =>
    rw [List.forall_mem_cons, ← ih]
    exact max_le_iff

/-- A list that starts to have values at position `T - 1`. -/
private theorem filterMap_range_of_le {α : Type} (T : ℕ) (hT : 1 ≤ T) (f : ℕ → α) (n : ℕ) :
    (List.range n).filterMap (fun i => if T ≤ i + 1 then some (f (i + 1)) else none)
      = (List.range (n + 1 - T)).map fun j => f (T + j) := by
  induction n with
  | zero => simp [show 0 + 1 - T = 0 by omega]
  | succ n ih =>
    rw [List.range_succ, List.filterMap_append, ih]
    by_cases h : T ≤ n + 1
    · rw [show n + 1 + 1 - T = (n + 1 - T) + 1 by omega, List.range_succ, List.map_append]
      simp [h, show T + (n + 1 - T) = n + 1 by omega]
    · simp [h, show n + 1 + 1 - T = 0 by omega, show n + 1 - T = 0 by omega]

/-- The snapshots over a list of bars, when all indicators are ready exactly from bar `T` on. -/
theorem emissions_of_threshold {first : UnorderedMap String OHLCVIndicator} {bars : List (OHLCV ℚ)}
    {T : ℕ} (hT : 1 ≤ T)
    (hready : ∀ i < bars.length,
      ((IndicatorEngine.indicatorsAfter first (bars.take (i + 1))).values.all (·.isReady) = true ↔
        T ≤ i + 1)) :
    IndicatorEngine.emissions first bars
      = (List.range (bars.length + 1 - T)).map fun j =>
          (IndicatorEngine.indicatorsAfter first (bars.take (T + j))).mapValues
            OHLCVIndicator.reading := by
  rw [← filterMap_range_of_le T hT fun n =>
    (IndicatorEngine.indicatorsAfter first (bars.take n)).mapValues OHLCVIndicator.reading]
  unfold IndicatorEngine.emissions
  refine List.filterMap_congr fun i hi => ?_
  unfold IndicatorEngine.emission
  simp only [hready i (List.mem_range.mp hi)]

/-! ## The wiring -/

/-- The engine as the subscriber of the five-minute aggregator. -/
def engineSlot (slot : Subscriber Snapshots σ) : Subscriber (Bar5min ℚ) (IndicatorEngine × σ) :=
  fun bar w => w.1.onBar slot w.2 bar

theorem engineSlot_neverThrows {slot : Subscriber Snapshots σ} (hslot : slot.NeverThrows) :
    (engineSlot slot).NeverThrows :=
  fun bar w => IndicatorEngine.onBar_ok hslot w.1 w.2 bar

theorem barsNeeded_five : barsNeeded 5 .minutes = 5 := barsNeeded_minutes (by norm_num)

/-- What the slots of the engine see over a sequence of accepted minute bars. -/
theorem pipeline_log {slot : Subscriber Snapshots σ} (hslot : slot.NeverThrows) (world : σ)
    {engine : IndicatorEngine} (hengine : engine.SameNames) {bars : List (Bar1min ℚ)}
    (hbars : AcceptsAll 5 .minutes bars) :
    (BarAggregator.onBars (engineSlot slot.logged) ({}, engine, [], world) bars).2.2.1
      = IndicatorEngine.emissions engine.indicators ((emissions 5 .minutes bars).map Bar.ohlcv) := by
  have hk : 1 ≤ barsNeeded 5 .minutes := by rw [barsNeeded_five]; norm_num
  have hworld := (onBars_spec (engineSlot_neverThrows hslot.logged) (engine, [], world) bars).2
  rw [hbars.accepted_eq] at hworld
  have hfold := (IndicatorEngine.foldl_onBar slot.logged hengine ([], world)
    (emissions 5 .minutes bars)).2.2
  rw [foldl_logged, List.nil_append] at hfold
  exact congrArg (·.2.1) hworld |>.trans (congrArg Prod.fst hfold)

/-- No five-minute bar closes at the value that the ATR takes for "no previous close". -/
theorem close_ne_of_summarizes {bars : List (Bar1min ℚ)} {groups : List (Bar5min ℚ)}
    (hclose : ∀ b ∈ bars, b.close ≠ -1)
    (hgroups : List.Forall₂ Summarizes (Blocks.complete 5 bars) groups) :
    ∀ ohlcv ∈ groups.map Bar.ohlcv, ohlcv.close ≠ -1 := by
  intro ohlcv hmem
  obtain ⟨group, hgroup, rfl⟩ := List.mem_map.mp hmem
  obtain ⟨block, hblock, hsummary⟩ := Blocks.exists_left_of_mem hgroups hgroup
  obtain ⟨b, hb, heq⟩ := exists_close_of_getLast? hsummary.close
  have hne := hclose b ((Blocks.sublist_of_mem_complete hblock).subset hb)
  rw [heq] at hne
  exact hne

/-- What the engine emits over five-minute bars none of which closes at `-1`. -/
theorem emissions_of_create {configs : List IndicatorConfig} {warmUps : List ℕ}
    {firsts : List OHLCVIndicator} (hcreates : Created configs firsts)
    (hready : ∀ bars : List (OHLCV ℚ), (∀ b ∈ bars, b.close ≠ -1) →
      ((∀ i ∈ firsts, (i.after bars).isReady = true) ↔ ∀ w ∈ warmUps, w ≤ bars.length))
    {indicators : UnorderedMap String OHLCVIndicator}
    (hentries : indicators.entries = (configs.map IndicatorConfig.name).zip firsts)
    {bars : List (OHLCV ℚ)} (hclose : ∀ b ∈ bars, b.close ≠ -1) :
    IndicatorEngine.emissions indicators bars
      = (List.range (bars.length + 1 - barsUntilReady warmUps)).map fun j =>
          (IndicatorEngine.indicatorsAfter indicators
            (bars.take (barsUntilReady warmUps + j))).mapValues OHLCVIndicator.reading := by
  refine emissions_of_threshold (barsUntilReady_pos warmUps) fun i hi => ?_
  have htake : (bars.take (i + 1)).length = i + 1 := by
    rw [List.length_take]
    omega
  have hbefore := hready (bars.take (i + 1)) fun b hb => hclose b (List.mem_of_mem_take hb)
  rw [htake, ← barsUntilReady_le_iff (Nat.le_add_left 1 i)] at hbefore
  rw [← hbefore, values_indicatorsAfter_of_create hcreates hentries, List.all_map, List.all_eq_true]
  rfl

/-- The snapshots of the wired bot. Let the configurations be valid with distinct names, and let the
aggregator accept the minute bars, none of which closes at `-1`. Then the engine can be built, it emits
`n / 5 - T + 1` snapshots when that is positive and none otherwise, and the `j`-th of them has exactly
the configured names, each with what its indicator, run on its own, reads after the first `T + j - 1`
complete groups of five minute bars. -/
theorem pipeline_snapshots {slot : Subscriber Snapshots σ} (hslot : slot.NeverThrows) (world : σ)
    {configs : List IndicatorConfig} {warmUps : List ℕ}
    (hvalid : List.Forall₂ ValidConfig configs warmUps)
    (hnames : (configs.map IndicatorConfig.name).Nodup) {bars : List (Bar1min ℚ)}
    (hbars : AcceptsAll 5 .minutes bars) (hclose : ∀ b ∈ bars, b.close ≠ -1) :
    ∃ engine, IndicatorEngine.ofConfigs configs = .ok engine ∧
      ∃ groups : List (Bar5min ℚ), List.Forall₂ Summarizes (Blocks.complete 5 bars) groups ∧
        let T := barsUntilReady warmUps
        let log := (BarAggregator.onBars (engineSlot slot.logged) ({}, engine, [], world) bars).2.2.1
        (log.length : ℤ) = max 0 (((bars.length / 5 : ℕ) : ℤ) - T + 1) ∧
          ∀ j snapshot, 1 ≤ j → log[j - 1]? = some snapshot →
            snapshot.keys.Perm (configs.map IndicatorConfig.name) ∧
              ∀ config ∈ configs, ∃ first last reading,
                IndicatorRegistry.create config = .ok (config.name, first) ∧
                  first.writeBars ((groups.take (T + j - 1)).map Bar.ohlcv) = .ok last ∧
                    last.read = .ok reading ∧ snapshot.find? config.name = some reading := by
  have hk : 1 ≤ barsNeeded 5 .minutes := by rw [barsNeeded_five]; norm_num
  have hacc := hbars.accepted_eq
  obtain ⟨firsts, hcreates, hready⟩ := exists_create_of_valid hvalid
  obtain ⟨engine, hengine, hsame, hentries⟩ :=
    IndicatorEngine.ofConfigs_of_create hnames hcreates
  set groups : List (Bar5min ℚ) := emissions 5 .minutes bars with hdef
  have hgroups : List.Forall₂ Summarizes (Blocks.complete 5 bars) groups := by
    have h := forall₂_summarizes_emissions hk bars
    rw [hacc, barsNeeded_five] at h
    exact h
  have hlength : (groups.map Bar.ohlcv).length = bars.length / 5 := by
    rw [List.length_map, ← hgroups.length_eq, Blocks.length_complete]
  have hohlcv := close_ne_of_summarizes hclose hgroups
  refine ⟨engine, hengine, groups, hgroups, ?_⟩
  intro T log
  have hlog : log = (List.range (bars.length / 5 + 1 - T)).map fun j =>
      (IndicatorEngine.indicatorsAfter engine.indicators
        ((groups.map Bar.ohlcv).take (T + j))).mapValues OHLCVIndicator.reading := by
    rw [← hlength]
    exact (pipeline_log hslot world hsame hbars).trans
      (emissions_of_create hcreates hready hentries hohlcv)
  refine ⟨?_, fun j snapshot hj hsnapshot => ?_⟩
  · rw [hlog, List.length_map, List.length_range]
    omega
  · -- the `j`-th snapshot was taken after bar `T + (j - 1)`
    rw [hlog, List.getElem?_map, Option.map_eq_some_iff] at hsnapshot
    obtain ⟨i, hi, rfl⟩ := hsnapshot
    obtain ⟨hlt, hi⟩ := List.getElem?_eq_some_iff.mp hi
    rw [List.length_range] at hlt
    obtain rfl : j - 1 = i := by simpa using hi
    rw [show T + (j - 1) = T + j - 1 by omega]
    set before := (groups.map Bar.ohlcv).take (T + j - 1) with hbefore
    have hlengthBefore : before.length = T + j - 1 := by
      rw [hbefore, List.length_take, hlength]
      omega
    have hreadyBefore : ∀ i ∈ firsts, (i.after before).isReady = true := by
      have hpos : 1 ≤ T := barsUntilReady_pos warmUps
      have hle : T ≤ T + j - 1 := by omega
      rw [hready before fun b hb => hohlcv b (List.mem_of_mem_take hb), hlengthBefore,
        ← barsUntilReady_le_iff (hpos.trans hle)]
      exact hle
    refine ⟨?_, fun config hconfig => ?_⟩
    · rw [UnorderedMap.keys_mapValues, IndicatorEngine.indicatorsAfter,
        UnorderedMap.keys_mapValues, UnorderedMap.keys, hentries, hcreates.map_fst]
    · obtain ⟨first, last, reading, hcreate, hwrite, -, hread, hfind⟩ :=
        reading_of_create hcreates hentries hreadyBefore hconfig
      rw [hbefore, ← List.map_take] at hwrite
      exact ⟨first, last, reading, hcreate, hwrite, hread, hfind⟩

/-- An `EMA` of period 2. -/
def emaConfig : IndicatorConfig := { name := "EMA", params := .ofList [("period", 2)] }

/-- Ten minutes bring two five-minute bars, and an `EMA` of period 2 is ready with the second. -/
theorem pipeline_snapshots_ten_minutes :
    ∃ engine, IndicatorEngine.ofConfigs [emaConfig] = .ok engine ∧
      (BarAggregator.onBars (engineSlot Subscriber.ignore.logged) ({}, engine, [], ())
        ([0, 1, 2, 3, 4, 5, 6, 7, 8, 9].map flatBar)).2.2.1.length = 1 := by
  have hvalid : List.Forall₂ ValidConfig [emaConfig] [2] :=
    .cons (@ValidConfig.ema emaConfig 2 rfl rfl (by decide)) .nil
  have hminutes : ConsecutiveMinutes ([0, 1, 2, 3, 4, 5, 6, 7, 8, 9].map flatBar) := by
    simp [ConsecutiveMinutes, flatBar]
  have hbars : AcceptsAll 5 .minutes ([0, 1, 2, 3, 4, 5, 6, 7, 8, 9].map flatBar) :=
    acceptsAll_of_consecutiveMinutes hminutes
  have hclose : ∀ b ∈ [0, 1, 2, 3, 4, 5, 6, 7, 8, 9].map flatBar, b.close ≠ -1 := by
    simp only [List.forall_mem_map]
    rintro minute -
    show (1 : ℚ) ≠ -1
    norm_num
  obtain ⟨engine, hengine, groups, -, hlength, -⟩ :=
    pipeline_snapshots Subscriber.ignore_neverThrows () hvalid (by simp) hbars hclose
  refine ⟨engine, hengine, ?_⟩
  have hcount : max 0 (((10 / 5 : ℕ) : ℤ) - barsUntilReady [2] + 1) = 1 := by decide
  exact_mod_cast hlength.trans hcount

end MacdTradingBot
