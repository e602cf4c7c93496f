import MacdTradingBot.Indicators.Engine
import Mathlib.Data.List.Forall2
import Mathlib.Data.List.Perm.Subperm

/-!
# The engine that is built from configurations

The constructor of the engine stores each indicator under the name of its kind. `emits_iff` says when a
bar brings a snapshot and what is in it, and `keepsIndicators_iff` for which configurations no snapshot
lacks an indicator.
-/

namespace MacdTradingBot

variable {σ : Type}

theorem find?_factories_ema : IndicatorRegistry.factories.find? "EMA"
    = some fun config => (EMA.ofConfig config).map fun e => (EMA.name, .ema e) := rfl

theorem find?_factories_atr : IndicatorRegistry.factories.find? "ATR"
    = some fun config => (ATR.ofConfig config).map fun a => (ATR.name, .atr a) := rfl

theorem find?_factories_macd : IndicatorRegistry.factories.find? "MACD"
    = some fun config => (MACD.ofConfig config).map fun m => (MACD.name, .macd m) := rfl

/-- The factories make `firsts` of the configurations, under the configured names. -/
abbrev Created (configs : List IndicatorConfig) (firsts : List OHLCVIndicator) : Prop :=
  List.Forall₂ (fun c i => IndicatorRegistry.create c = .ok (c.name, i)) configs firsts

theorem Created.map_fst {configs : List IndicatorConfig} {firsts : List OHLCVIndicator}
    (h : Created configs firsts) :
    ((configs.map IndicatorConfig.name).zip firsts).map Prod.fst = configs.map IndicatorConfig.name :=
  List.map_fst_zip (by simp [h.length_eq])

namespace IndicatorEngine

/-- The constructor stores the indicators one after another under the configured names. -/
theorem foldlM_addConfig {configs : List IndicatorConfig} {firsts : List OHLCVIndicator}
    (h : Created configs firsts) (engine : IndicatorEngine) :
    configs.foldlM addConfig engine = .ok
      { indicators := engine.indicators.assignAll ((configs.map IndicatorConfig.name).zip firsts)
        snapshots := engine.snapshots.assignAll
          (configs.map fun c => (c.name, (UnorderedMap.empty : Snapshot))) } := by
  induction h generalizing engine with
  | nil => rfl
  | cons hcreate _ ih =>
    rw [List.foldlM_cons, addConfig, hcreate]
    exact ih _

/-- The two maps of the engine get the same names in the same order. -/
theorem sameNames_of_create {configs : List IndicatorConfig} {firsts : List OHLCVIndicator}
    (h : Created configs firsts) {engine : IndicatorEngine} (hengine : ofConfigs configs = .ok engine) :
    engine.SameNames := by
  obtain rfl := Except.ok.inj ((foldlM_addConfig h {}).symm.trans hengine)
  have hempty : (UnorderedMap.empty : Snapshots).keys
      = (UnorderedMap.empty : UnorderedMap String OHLCVIndicator).keys := rfl
  refine UnorderedMap.keys_assignAll_congr hempty ?_
  rw [h.map_fst, List.map_map]
  rfl

theorem sameNames_of_foldlM {configs : List IndicatorConfig} {engine₀ engine : IndicatorEngine}
    (hnames : engine₀.SameNames) (h : configs.foldlM addConfig engine₀ = .ok engine) :
    engine.SameNames := by
  induction configs generalizing engine₀ with
  | nil =>
    obtain rfl := Except.ok.inj h
    exact hnames
  | cons config configs ih =>
    rw [List.foldlM_cons] at h
    cases hcreate : IndicatorRegistry.create config with
    | error e =>
      rw [addConfig, hcreate] at h
      cases h
    | ok entry =>
      rw [addConfig, hcreate] at h
      refine ih ?_ h
      exact UnorderedMap.keys_insertOrAssign_congr hnames _ _ _

/-- Whatever the configurations are, an engine that is built has the same names in its two maps. -/
theorem sameNames_of_ofConfigs {configs : List IndicatorConfig} {engine : IndicatorEngine}
    (h : ofConfigs configs = .ok engine) : engine.SameNames := by
  have hempty : ({} : IndicatorEngine).SameNames := rfl
  exact sameNames_of_foldlM hempty h

/-- With distinct names the constructor keeps every indicator. -/
theorem ofConfigs_of_create {configs : List IndicatorConfig} {firsts : List OHLCVIndicator}
    (hnames : (configs.map IndicatorConfig.name).Nodup) (h : Created configs firsts) :
    ∃ engine, ofConfigs configs = .ok engine ∧ engine.SameNames ∧
      engine.indicators.entries = (configs.map IndicatorConfig.name).zip firsts := by
  have hengine := foldlM_addConfig h {}
  refine ⟨_, hengine, sameNames_of_create h hengine, UnorderedMap.entries_assignAll_of_nodup _ ?_⟩
  rwa [h.map_fst]

end IndicatorEngine

section Created

variable {configs : List IndicatorConfig} {firsts : List OHLCVIndicator}
  {indicators : UnorderedMap String OHLCVIndicator} (hcreates : Created configs firsts)
  (hentries : indicators.entries = (configs.map IndicatorConfig.name).zip firsts)

include hcreates hentries

/-- The names and the indicators of the engine, when it was built from the configurations. -/
theorem find?_of_create {config : IndicatorConfig} (hconfig : config ∈ configs) :
    ∃ first ∈ firsts, IndicatorRegistry.create config = .ok (config.name, first) ∧
      indicators.find? config.name = some first := by
  simp only [UnorderedMap.find?_eq_some_iff, hentries]
  clear hentries
  induction hcreates with
  | nil => simp at hconfig
  | cons hcreate _ ih =>
    rcases List.mem_cons.mp hconfig with rfl | hmem
    · exact ⟨_, List.mem_cons_self, hcreate, by simp⟩
    · obtain ⟨first, hfirst, hcreate', hentry⟩ := ih hmem
      exact ⟨first, List.mem_cons_of_mem _ hfirst, hcreate', List.mem_cons_of_mem _ hentry⟩

/-- What the snapshots of such an engine hold when all of its indicators are ready. -/
theorem reading_of_create {bars : List (OHLCV ℚ)} (hready : ∀ i ∈ firsts, (i.after bars).isReady = true)
    {config : IndicatorConfig} (hconfig : config ∈ configs) :
    ∃ first last reading, IndicatorRegistry.create config = .ok (config.name, first) ∧
      first.writeBars bars = .ok last ∧ last.isReady = true ∧ last.read = .ok reading ∧
        ((IndicatorEngine.indicatorsAfter indicators bars).mapValues OHLCVIndicator.reading).find?
          config.name = some reading := by
  obtain ⟨first, hfirst, hcreate, hfind⟩ := find?_of_create hcreates hentries hconfig
  refine ⟨first, _, _, hcreate, first.writeBars_eq bars, hready first hfirst,
    OHLCVIndicator.read_of_isReady (hready first hfirst), ?_⟩
  rw [UnorderedMap.find?_mapValues, IndicatorEngine.indicatorsAfter, UnorderedMap.find?_mapValues,
    hfind]
  rfl

theorem values_indicatorsAfter_of_create (bars : List (OHLCV ℚ)) :
    (IndicatorEngine.indicatorsAfter indicators bars).values = firsts.map (·.after bars) := by
  have hvalues : indicators.values = firsts := by
    rw [UnorderedMap.values, hentries]
    exact List.map_snd_zip (by simp [hcreates.length_eq])
  rw [IndicatorEngine.indicatorsAfter, UnorderedMap.values_mapValues, hvalues]

end Created

/-! ## Every constructed engine -/

/-- The indicators that the factories return. -/
inductive OHLCVIndicator.Fresh : OHLCVIndicator → Prop
  | ema (period : UInt64) : Fresh (.ema (.ofPeriod period))
  | atr (period : UInt64) : Fresh (.atr (.ofPeriod period))
  | macd (fast slow signal : UInt64) : Fresh (.macd (.ofPeriods fast slow signal))

/-- With enough bars a fresh indicator is ready, whatever its periods are. -/
theorem OHLCVIndicator.Fresh.exists_warmUp {first : OHLCVIndicator} (h : first.Fresh) :
    ∃ warmUp, ∀ bars : List (OHLCV ℚ), (∀ b ∈ bars, b.close ≠ -1) → warmUp ≤ bars.length →
      (first.after bars).isReady = true := by
  cases h with
  | ema period =>
    exact ⟨period.toNat, fun bars _ hlength => (isReady_after_ema period bars).mpr hlength⟩
  | atr period =>
    refine ⟨period.toNat + 1, fun bars hclose hlength => ?_⟩
    obtain ⟨hp, hn, -⟩ := ATR.counter_writeAll period hclose
    rw [after_atr]
    show ATR.isReady _ = true
    rw [ATR.isReady_iff, hp, hn]
    omega
  | macd fast slow signal =>
    refine ⟨max fast.toNat slow.toNat + signal.toNat, fun bars _ hlength => ?_⟩
    obtain ⟨hp, hn⟩ := MACD.signalEma_writeAll fast slow signal bars
    rw [after_macd]
    show MACD.isReady _ = true
    rw [MACD.isReady, Bool.and_eq_true, Bool.and_eq_true, MACD.fastEma_writeAll,
      MACD.slowEma_writeAll, EMA.isReady_writeCloses, EMA.isReady_writeCloses, EMA.isReady_iff,
      hp, hn, List.length_map]
    omega

/-- Enough bars for each are enough for all. -/
theorem exists_warmUp {indicators : List OHLCVIndicator} (h : ∀ i ∈ indicators, i.Fresh) :
    ∃ warmUp, ∀ i ∈ indicators, ∀ bars : List (OHLCV ℚ), (∀ b ∈ bars, b.close ≠ -1) →
      warmUp ≤ bars.length → (i.after bars).isReady = true := by
  induction indicators with
  | nil => exact ⟨0, by simp⟩
  | cons i indicators ih =>
    obtain ⟨hi, hothers⟩ := List.forall_mem_cons.mp h
    obtain ⟨warmUp, hready⟩ := hi.exists_warmUp
    obtain ⟨warmUps, hreadies⟩ := ih hothers
    refine ⟨max warmUp warmUps, List.forall_mem_cons.mpr ⟨fun bars hclose hlength => ?_, ?_⟩⟩
    · exact hready bars hclose ((le_max_left _ _).trans hlength)
    · intro j hj bars hclose hlength
      exact hreadies j hj bars hclose ((le_max_right _ _).trans hlength)

private theorem exists_of_map_eq_ok {ε α β : Type} {f : α → β} {x : Except ε α} {b : β}
    (h : x.map f = .ok b) : ∃ a, x = .ok a ∧ f a = b := by
  cases x with
  | error e => cases h
  | ok a => exact ⟨a, rfl, Except.ok.inj h⟩

/-- A factory returns a fresh indicator under the configured name. -/
theorem of_create {config : IndicatorConfig} {name : String} {first : OHLCVIndicator}
    (h : IndicatorRegistry.create config = .ok (name, first)) : name = config.name ∧ first.Fresh := by
  unfold IndicatorRegistry.create at h
  split at h
  · cases h
  · rename_i factory hfind
    have hentries : IndicatorRegistry.factories.entries
        = [(ATR.name, fun config => (ATR.ofConfig config).map fun a => (ATR.name, .atr a)),
          (EMA.name, fun config => (EMA.ofConfig config).map fun e => (EMA.name, .ema e)),
          (MACD.name, fun config => (MACD.ofConfig config).map fun m => (MACD.name, .macd m))] := rfl
    rw [UnorderedMap.find?_eq_some_iff, hentries] at hfind
    simp only [List.mem_cons, List.not_mem_nil, or_false, Prod.mk.injEq] at hfind
    rcases hfind with ⟨hname, rfl⟩ | ⟨hname, rfl⟩ | ⟨hname, rfl⟩
    · obtain ⟨a, ha, heq⟩ := exists_of_map_eq_ok h
      obtain ⟨rfl, rfl⟩ := Prod.mk.inj heq
      obtain ⟨period, rfl⟩ := ATR.exists_ofPeriod ha
      exact ⟨hname.symm, .atr period⟩
    · obtain ⟨e, he, heq⟩ := exists_of_map_eq_ok h
      obtain ⟨rfl, rfl⟩ := Prod.mk.inj heq
      obtain ⟨period, rfl⟩ := EMA.exists_ofPeriod he
      exact ⟨hname.symm, .ema period⟩
    · obtain ⟨m, hm, heq⟩ := exists_of_map_eq_ok h
      obtain ⟨rfl, rfl⟩ := Prod.mk.inj heq
      obtain ⟨fast, slow, signal, rfl⟩ := MACD.exists_ofPeriods hm
      exact ⟨hname.symm, .macd fast slow signal⟩

/-- The configurations that the constructor accepts are those whose factories succeed. -/
theorem IndicatorEngine.forall₂_create {configs : List IndicatorConfig} {first engine : IndicatorEngine}
    (h : configs.foldlM addConfig first = .ok engine) :
    ∃ firsts, Created configs firsts ∧ ∀ i ∈ firsts, i.Fresh := by
  induction configs generalizing first with
  | nil => exact ⟨[], .nil, by simp⟩
  | cons config configs ih =>
    rw [List.foldlM_cons] at h
    -- an exception of the factory ends the constructor
    cases hcreate : IndicatorRegistry.create config with
    | error e =>
      rw [addConfig, hcreate] at h
      cases h
    | ok created =>
      obtain ⟨name, indicator⟩ := created
      rw [addConfig, hcreate] at h
      obtain ⟨rfl, hfresh⟩ := of_create hcreate
      obtain ⟨firsts, hcreates, hall⟩ := ih h
      exact ⟨indicator :: firsts, .cons hcreate hcreates, List.forall_mem_cons.mpr ⟨hfresh, hall⟩⟩

namespace IndicatorEngine

/-- An engine that was built from configurations has indicators and snapshots under their names, and
its indicators come from the factories. -/
theorem of_ofConfigs {configs : List IndicatorConfig} {engine : IndicatorEngine}
    (h : ofConfigs configs = .ok engine) :
    engine.SameNames ∧ ∀ entry ∈ engine.indicators.entries,
      entry.1 ∈ configs.map IndicatorConfig.name ∧ entry.2.Fresh := by
  obtain ⟨firsts, hcreates, hfresh⟩ := forall₂_create h
  refine ⟨sameNames_of_create hcreates h, fun entry hentry => ?_⟩
  obtain rfl := Except.ok.inj ((foldlM_addConfig hcreates {}).symm.trans h)
  rcases UnorderedMap.mem_or_mem_of_mem_assignAll hentry with hnone | hzip
  · cases hnone
  · obtain ⟨hname, hfirst⟩ := List.of_mem_zip hzip
    exact ⟨hname, hfresh _ hfirst⟩

/-! ## Emissions -/

section Emissions

variable {Count : ℕ} {TimeUnit : ChronoDuration}

/-- At `bar`, after `bars`, the engine emits `snapshot`. -/
def Emits (slot : Subscriber Snapshots σ) (world : σ) (engine : IndicatorEngine)
    (bars : List (Bar ℚ Count TimeUnit)) (bar : Bar ℚ Count TimeUnit) (snapshot : Snapshots) : Prop :=
  let s := bars.foldl (fun s bar => (onBar slot.logged s.1 s.2 bar).2) (engine, [], world)
  (onBar slot.logged s.1 s.2 bar).2.2.1 = s.2.1 ++ [snapshot]

/-- The engine emits when all of its indicators are ready, and what it emits are their readings. -/
theorem emits_iff (slot : Subscriber Snapshots σ) (world : σ) {engine : IndicatorEngine}
    (hnames : engine.SameNames) (bars : List (Bar ℚ Count TimeUnit)) (bar : Bar ℚ Count TimeUnit)
    (snapshot : Snapshots) :
    Emits slot world engine bars bar snapshot ↔
      let indicators := indicatorsAfter engine.indicators ((bars ++ [bar]).map Bar.ohlcv)
      (∀ i ∈ indicators.values, i.isReady = true) ∧
        snapshot = indicators.mapValues OHLCVIndicator.reading := by
  obtain ⟨hs, hindicators, -⟩ := foldl_onBar slot.logged hnames ([], world) bars
  unfold Emits
  generalize bars.foldl (fun s bar => (onBar slot.logged s.1 s.2 bar).2) (engine, [], world) = s
    at hs hindicators
  -- the bar is written before the indicators are asked
  have hwritten : (s.1.written bar.ohlcv).indicators
      = indicatorsAfter engine.indicators ((bars ++ [bar]).map Bar.ohlcv) := by
    rw [written, hindicators, List.map_append, List.map_singleton]
    exact (indicatorsAfter_concat _ _ _).symm
  simp only [onBar_eq slot.logged hs, isReady, hwritten, List.all_eq_true]
  split
  · rename_i hready
    simp only [Subscriber.logged, List.append_cancel_left_eq, List.cons.injEq, and_true]
    exact ⟨fun h => ⟨hready, h.symm⟩, fun h => h.2.symm⟩
  · rename_i hready
    exact ⟨fun h => absurd h (by simp), fun h => absurd h.1 hready⟩

/-- A snapshot has one entry for each configuration, which is what its indicator, on its own, reads after
the bars; it was ready then. -/
structure Complete (configs : List IndicatorConfig) (bars : List (OHLCV ℚ)) (snapshot : Snapshots) :
    Prop where
  size : snapshot.entries.length = configs.length
  readings : ∀ config ∈ configs, ∃ name first last reading,
    IndicatorRegistry.create config = .ok (name, first) ∧ first.writeBars bars = .ok last ∧
      last.isReady = true ∧ last.read = .ok reading ∧ snapshot.find? name = some reading

/-- With distinct names every snapshot is complete. -/
theorem complete_of_nodup {slot : Subscriber Snapshots σ} {world : σ} {configs : List IndicatorConfig}
    {engine : IndicatorEngine} (h : ofConfigs configs = .ok engine)
    (hnames : (configs.map IndicatorConfig.name).Nodup) {bars : List (Bar ℚ Count TimeUnit)}
    {bar : Bar ℚ Count TimeUnit} {snapshot : Snapshots}
    (hemits : Emits slot world engine bars bar snapshot) :
    Complete configs ((bars ++ [bar]).map Bar.ohlcv) snapshot := by
  obtain ⟨firsts, hcreates, -⟩ := forall₂_create h
  obtain ⟨engine', hengine', hsame, hentries⟩ := ofConfigs_of_create hnames hcreates
  obtain rfl := Except.ok.inj (h.symm.trans hengine')
  obtain ⟨hready, rfl⟩ := (emits_iff slot world hsame bars bar snapshot).mp hemits
  refine ⟨?_, fun config hconfig => ?_⟩
  · simp [UnorderedMap.mapValues, indicatorsAfter, hentries, hcreates.length_eq]
  · rw [values_indicatorsAfter_of_create hcreates hentries, List.forall_mem_map] at hready
    exact ⟨config.name, reading_of_create hcreates hentries hready hconfig⟩

/-- Every engine that was built emits at last. -/
theorem exists_emits (slot : Subscriber Snapshots σ) (world : σ) {configs : List IndicatorConfig}
    {engine : IndicatorEngine} (h : ofConfigs configs = .ok engine) :
    ∃ (bars : List (Bar ℚ Count TimeUnit)) (bar : Bar ℚ Count TimeUnit) (snapshot : Snapshots),
      Emits slot world engine bars bar snapshot := by
  obtain ⟨hsame, hentries⟩ := of_ofConfigs h
  have hfresh : ∀ i ∈ engine.indicators.values, i.Fresh := by
    intro i hi
    obtain ⟨entry, hentry, rfl⟩ := List.mem_map.mp hi
    exact (hentries entry hentry).2
  obtain ⟨warmUp, hready⟩ := exists_warmUp hfresh
  -- any bars do that do not close at -1, which the ATR takes for no close
  let bar : Bar ℚ Count TimeUnit := ⟨"", ⟨0, 0, 0, 0, 0⟩, 0⟩
  refine ⟨List.replicate warmUp bar, bar, _,
    (emits_iff slot world hsame _ bar _).mpr ⟨fun i hi => ?_, rfl⟩⟩
  rw [indicatorsAfter, UnorderedMap.values_mapValues] at hi
  obtain ⟨first, hfirst, rfl⟩ := List.mem_map.mp hi
  apply hready first hfirst
  · intro b hb
    obtain ⟨c, hc, rfl⟩ := List.mem_map.mp hb
    rw [← List.replicate_succ', List.mem_replicate] at hc
    rw [hc.2]
    show (0 : ℚ) ≠ -1
    norm_num
  · simp

/-- For every list of configurations that the constructor accepts: every snapshot that the engine emits
is complete if and only if the configured names are distinct. -/
theorem keepsIndicators_iff (slot : Subscriber Snapshots σ) (world : σ) {configs : List IndicatorConfig}
    {engine : IndicatorEngine} (h : ofConfigs configs = .ok engine) :
    (∀ (bars : List (Bar ℚ Count TimeUnit)) bar snapshot, Emits slot world engine bars bar snapshot →
        Complete configs ((bars ++ [bar]).map Bar.ohlcv) snapshot) ↔
      (configs.map IndicatorConfig.name).Nodup := by
  constructor
  · intro hcomplete
    obtain ⟨bars, bar, snapshot, hemits⟩ := @exists_emits σ Count TimeUnit slot world _ _ h
    obtain ⟨hsame, hentries⟩ := of_ofConfigs h
    have hsize := (hcomplete bars bar snapshot hemits).size
    obtain ⟨-, rfl⟩ := (emits_iff slot world hsame bars bar snapshot).mp hemits
    -- the names of the engine are distinct, configured, and as many as the configurations
    have hsubset : engine.indicators.keys ⊆ configs.map IndicatorConfig.name := by
      intro name hname
      obtain ⟨entry, hentry, rfl⟩ := List.mem_map.mp hname
      exact (hentries entry hentry).1
    have hlength : (configs.map IndicatorConfig.name).length ≤ engine.indicators.keys.length := by
      rw [List.length_map, ← hsize]
      simp [UnorderedMap.mapValues, indicatorsAfter, UnorderedMap.keys]
    have hperm := (List.subperm_of_subset engine.indicators.nodup hsubset).perm_of_length_le hlength
    exact hperm.nodup_iff.mp engine.indicators.nodup
  · intro hnames bars bar snapshot hemits
    exact complete_of_nodup h hnames hemits

end Emissions

def emaOf (period : Int32) : IndicatorConfig := { name := "EMA", params := .ofList [("period", period)] }

/-- A five-minute bar of a single price. -/
def flatBar5min : Bar5min ℚ := ⟨"PLTR", ⟨1, 1, 1, 1, 1⟩, 0⟩

/-- What the constructor makes of two EMAs. -/
def secondEma : IndicatorEngine :=
  { indicators := .ofList [("EMA", .ema (.ofPeriod (staticCastSizeT 2)))]
    snapshots := .ofList [("EMA", .empty)] }

/-- Of two EMAs the engine keeps the second: its first snapshot, after two bars, has one entry. -/
theorem second_ema_replaces_first :
    ofConfigs [emaOf 1, emaOf 2] = .ok secondEma ∧
      ∃ snapshot, Emits Subscriber.ignore () secondEma [flatBar5min] flatBar5min snapshot ∧
        snapshot.entries.length = 1 ∧
          ¬ Complete [emaOf 1, emaOf 2] ([flatBar5min, flatBar5min].map Bar.ohlcv) snapshot := by
  have hsame : secondEma.SameNames := rfl
  refine ⟨rfl, _, (emits_iff _ _ hsame _ _ _).mpr ⟨by decide +kernel, rfl⟩, rfl, fun h => ?_⟩
  have hsize := h.size
  cases hsize

/-- One configuration of each kind. -/
def threeKinds : List IndicatorConfig :=
  [emaOf 2, { name := "ATR", params := .ofList [("period", 2)] },
    { name := "MACD", params := .ofList [("fast_period", 1), ("slow_period", 2), ("signal_period", 2)] }]

/-- Three kinds: there is a snapshot, and every snapshot has all three. -/
theorem keepsIndicators_threeKinds : ∃ engine, ofConfigs threeKinds = .ok engine ∧
    (∃ (bars : List (Bar5min ℚ)) (bar : Bar5min ℚ) (snapshot : Snapshots),
      Emits Subscriber.ignore () engine bars bar snapshot ∧ snapshot.entries.length = 3) ∧
      ∀ (bars : List (Bar5min ℚ)) bar snapshot, Emits Subscriber.ignore () engine bars bar snapshot →
        Complete threeKinds ((bars ++ [bar]).map Bar.ohlcv) snapshot := by
  have hnames : (threeKinds.map IndicatorConfig.name).Nodup := by decide
  have hcomplete := fun engine (h : ofConfigs threeKinds = .ok engine) =>
    (@keepsIndicators_iff Unit 5 .minutes Subscriber.ignore () _ _ h).mpr hnames
  refine ⟨_, rfl, ?_, hcomplete _ rfl⟩
  obtain ⟨bars, bar, snapshot, hemits⟩ :=
    @exists_emits Unit 5 .minutes Subscriber.ignore () threeKinds _ rfl
  exact ⟨bars, bar, snapshot, hemits, (hcomplete _ rfl bars bar snapshot hemits).size⟩

end IndicatorEngine

end MacdTradingBot
