import MacdTradingBot.Exception
import MacdTradingBot.Market.Bar

/-!
# The bar aggregator

`BarAggregator.hpp`: minute bars go in, and each full window of `barsNeeded` consecutive minute bars
comes out as one `Bar<Count, TimeUnit>`. `onBar` is cut where the source assigns its members:
`checkSequence` and `foldBar` come before the emission, and the window count is reset after it.
-/

namespace MacdTradingBot

variable {P : Type} [LinearOrder P] {σ : Type} {Count : ℕ} {TimeUnit : ChronoDuration}

/-- `BarAggregator<Count, TimeUnit>`; the signal is the `slot` argument of `onBar`. -/
structure BarAggregator (P : Type) (Count : ℕ) (TimeUnit : ChronoDuration) where
  currentAggregatedBar : Option (Bar P Count TimeUnit) := none
  barsInCurrentWindow : ℤ := 0
  lastInputBar : Option (Bar1min P) := none
deriving DecidableEq, Repr

/-- `bars_needed`: the quotient of the two durations, which truncates, converted to `int`. -/
def barsNeeded (Count : ℕ) (TimeUnit : ChronoDuration) : ℤ :=
  ((durationTicks Count * TimeUnit.nanos).tdiv ChronoDuration.minutes.nanos).bmod (2 ^ 32)

/-- A window of minutes needs as many bars as it has minutes, as long as that fits into an `int`. -/
theorem barsNeeded_minutes {n : ℕ} (h : n < 2 ^ 31) : barsNeeded n .minutes = n := by
  have hdiv : ((n * ChronoDuration.minutes.nanos).tdiv ChronoDuration.minutes.nanos) = (n : ℤ) :=
    Int.mul_tdiv_cancel _ (ChronoDuration.nanos_pos .minutes).ne'
  rw [barsNeeded, durationTicks_of_lt (by omega), hdiv]
  exact Int.bmod_eq_of_le (by omega) (by omega)

namespace BarAggregator

/-- The bar that starts a window: the input bar, with its timestamp cast to the aggregated unit. -/
def openWindow (inputBar : Bar1min P) : Bar P Count TimeUnit :=
  let aggregatedTimestamp := durationCast .minutes TimeUnit inputBar.timestamp
  { symbol := inputBar.symbol
    ohlcv :=
      { «open» := inputBar.open
        high := inputBar.high
        low := inputBar.low
        close := inputBar.close
        volume := inputBar.volume }
    timestamp := aggregatedTimestamp }

/-- The bar of a window that goes on: `current` with one more input bar folded in. -/
def extendWindow (current : Bar P Count TimeUnit) (inputBar : Bar1min P) : Bar P Count TimeUnit :=
  { symbol := current.symbol
    ohlcv :=
      { «open» := current.open
        high := max current.high inputBar.high
        low := min current.low inputBar.low
        close := inputBar.close
        volume := current.volume + inputBar.volume }
    timestamp := current.timestamp }

/-- The guard of `on_bar`: an input bar that does not adjoin the last one is refused. -/
def checkSequence (agg : BarAggregator P Count TimeUnit) (inputBar : Bar1min P) :
    Except Exception Unit :=
  match agg.lastInputBar with
  | none => .ok ()
  | some last =>
    if !isConsecutive last inputBar then
      .error (.runtimeError "Bar timestamp does not match expected sequence")
    else
      .ok ()

/-- The two branches of `on_bar` that open or extend the window. -/
def foldBar (agg : BarAggregator P Count TimeUnit) (inputBar : Bar1min P) :
    Except Exception (BarAggregator P Count TimeUnit) :=
  if agg.barsInCurrentWindow = 0 then
    .ok { agg with
      currentAggregatedBar := some (openWindow inputBar)
      barsInCurrentWindow := 1 }
  else
    -- `_current_aggregated_bar.value()`
    match agg.currentAggregatedBar with
    | none => .error .badOptionalAccess
    | some current =>
      .ok { agg with
        currentAggregatedBar := some (extendWindow current inputBar)
        barsInCurrentWindow := agg.barsInCurrentWindow + 1 }

/-- `emit_aggregated_bar`. -/
def emitAggregatedBar (slot : Subscriber (Bar P Count TimeUnit) σ)
    (agg : BarAggregator P Count TimeUnit) (world : σ) : Except Exception Unit × σ :=
  match agg.currentAggregatedBar with
  | some bar => slot bar world
  | none => (.ok (), world)

/-- `on_bar`. The result is the outcome, the aggregator and the state of the subscribers. -/
def onBar (slot : Subscriber (Bar P Count TimeUnit) σ) (agg : BarAggregator P Count TimeUnit)
    (world : σ) (inputBar : Bar1min P) :
    Except Exception Unit × BarAggregator P Count TimeUnit × σ :=
  match agg.checkSequence inputBar with
  | .error e => (.error e, agg, world)
  | .ok () =>
    match agg.foldBar inputBar with
    | .error e => (.error e, agg, world)
    | .ok folded =>
      let agg := { folded with lastInputBar := some inputBar }
      if agg.barsInCurrentWindow = barsNeeded Count TimeUnit then
        match agg.emitAggregatedBar slot world with
        | (.error e, world) => (.error e, agg, world)
        | (.ok (), world) => (.ok (), { agg with barsInCurrentWindow := 0 }, world)
      else
        (.ok (), agg, world)

/-- A sequence of `on_bar` calls whose exceptions the caller catches. -/
def onBars (slot : Subscriber (Bar P Count TimeUnit) σ)
    (start : BarAggregator P Count TimeUnit × σ) (bars : List (Bar1min P)) :
    BarAggregator P Count TimeUnit × σ :=
  bars.foldl (fun s inputBar => (onBar slot s.1 s.2 inputBar).2) start

@[simp]
theorem onBars_nil (slot : Subscriber (Bar P Count TimeUnit) σ)
    (start : BarAggregator P Count TimeUnit × σ) : onBars slot start [] = start := rfl

/-- Bars are taken one after another. -/
theorem onBars_append (slot : Subscriber (Bar P Count TimeUnit) σ)
    (start : BarAggregator P Count TimeUnit × σ) (bars more : List (Bar1min P)) :
    onBars slot start (bars ++ more) = onBars slot (onBars slot start bars) more :=
  List.foldl_append

/-- The last bar is taken last. -/
theorem onBars_concat (slot : Subscriber (Bar P Count TimeUnit) σ)
    (start : BarAggregator P Count TimeUnit × σ) (bars : List (Bar1min P)) (b : Bar1min P) :
    onBars slot start (bars ++ [b])
      = (onBar slot (onBars slot start bars).1 (onBars slot start bars).2 b).2 := by
  simp [onBars]

/-! ## What one call does -/

/-- A refused bar: nothing changes. -/
theorem onBar_of_rejected {slot : Subscriber (Bar P Count TimeUnit) σ}
    {agg : BarAggregator P Count TimeUnit} {last inputBar : Bar1min P} (world : σ)
    (hlast : agg.lastInputBar = some last) (h : isConsecutive last inputBar = false) :
    onBar slot agg world inputBar =
      (.error (.runtimeError "Bar timestamp does not match expected sequence"), agg, world) := by
  simp [onBar, checkSequence, hlast, h]

/-- The window after the input bar was folded in: `window` is the current bar of a window in progress,
and `none` when a window is to be opened. -/
def nextWindow (window : Option (Bar P Count TimeUnit)) (inputBar : Bar1min P) :
    Bar P Count TimeUnit :=
  match window with
  | none => openWindow inputBar
  | some current => extendWindow current inputBar

/-- The window in progress. -/
def window (agg : BarAggregator P Count TimeUnit) : Option (Bar P Count TimeUnit) :=
  if agg.barsInCurrentWindow = 0 then none else agg.currentAggregatedBar

/-- A bar that passes the guard is folded in, and a window that it fills is emitted; when a slot throws
there, the count stays as it is. The hypotheses are the guard, and that the current bar is there when the
source reads it. -/
theorem onBar_eq_of_accepted (slot : Subscriber (Bar P Count TimeUnit) σ)
    {agg : BarAggregator P Count TimeUnit} {inputBar : Bar1min P}
    (world : σ) (hcheck : agg.checkSequence inputBar = .ok ())
    (hcurrent : agg.barsInCurrentWindow ≠ 0 → agg.currentAggregatedBar.isSome) :
    onBar slot agg world inputBar =
      let bar := nextWindow agg.window inputBar
      let count := agg.barsInCurrentWindow + 1
      if count = barsNeeded Count TimeUnit then
        match slot bar world with
        | (.error e, world) => (.error e, ⟨some bar, count, some inputBar⟩, world)
        | (.ok (), world) => (.ok (), ⟨some bar, 0, some inputBar⟩, world)
      else
        (.ok (), ⟨some bar, count, some inputBar⟩, world) := by
  have hfold : agg.foldBar inputBar = .ok { agg with
      currentAggregatedBar := some (nextWindow agg.window inputBar)
      barsInCurrentWindow := agg.barsInCurrentWindow + 1 } := by
    by_cases h0 : agg.barsInCurrentWindow = 0
    · simp [foldBar, window, nextWindow, h0]
    · obtain ⟨current, hc⟩ := Option.isSome_iff_exists.mp (hcurrent h0)
      simp [foldBar, window, nextWindow, h0, hc]
  simp only [onBar, hcheck, hfold, emitAggregatedBar]

/-- What a call does: the outcome, the aggregator and the state of the slots afterwards. -/
inductive Call (slot : Subscriber (Bar P Count TimeUnit) σ) (agg : BarAggregator P Count TimeUnit)
    (world : σ) (inputBar : Bar1min P) :
    Except Exception Unit × BarAggregator P Count TimeUnit × σ → Prop
  | refused (hcheck : agg.checkSequence inputBar ≠ .ok ()) :
      Call slot agg world inputBar
        (.error (.runtimeError "Bar timestamp does not match expected sequence"), agg, world)
  | folded (hcheck : agg.checkSequence inputBar = .ok ())
      (hcount : agg.barsInCurrentWindow + 1 ≠ barsNeeded Count TimeUnit) :
      Call slot agg world inputBar
        (.ok (), ⟨some (nextWindow agg.window inputBar), agg.barsInCurrentWindow + 1, some inputBar⟩, world)
  | emitted {world' : σ} (hcheck : agg.checkSequence inputBar = .ok ())
      (hcount : agg.barsInCurrentWindow + 1 = barsNeeded Count TimeUnit)
      (hslot : slot (nextWindow agg.window inputBar) world = (.ok (), world')) :
      Call slot agg world inputBar
        (.ok (), ⟨some (nextWindow agg.window inputBar), 0, some inputBar⟩, world')
  | thrown {e : Exception} {world' : σ} (hcheck : agg.checkSequence inputBar = .ok ())
      (hcount : agg.barsInCurrentWindow + 1 = barsNeeded Count TimeUnit)
      (hslot : slot (nextWindow agg.window inputBar) world = (.error e, world')) :
      Call slot agg world inputBar
        (.error e, ⟨some (nextWindow agg.window inputBar), agg.barsInCurrentWindow + 1, some inputBar⟩,
          world')

/-- A call is one of the cases. -/
theorem call_onBar (slot : Subscriber (Bar P Count TimeUnit) σ) {agg : BarAggregator P Count TimeUnit}
    (world : σ) (inputBar : Bar1min P)
    (hcurrent : agg.barsInCurrentWindow ≠ 0 → agg.currentAggregatedBar.isSome) :
    Call slot agg world inputBar (onBar slot agg world inputBar) := by
  by_cases hcheck : agg.checkSequence inputBar = .ok ()
  · rw [onBar_eq_of_accepted slot world hcheck hcurrent]
    by_cases hcount : agg.barsInCurrentWindow + 1 = barsNeeded Count TimeUnit
    · simp only [if_pos hcount]
      cases hslot : slot (nextWindow agg.window inputBar) world with
      | mk outcome world' =>
        cases outcome with
        | error e => exact .thrown hcheck hcount hslot
        | ok u => exact .emitted hcheck hcount hslot
    · simp only [if_neg hcount]
      exact .folded hcheck hcount
  · unfold checkSequence at hcheck
    split at hcheck
    · exact absurd rfl hcheck
    · rename_i last hlast
      have hadjoins : isConsecutive last inputBar = false := by
        by_contra hc
        exact hcheck (by simp [hc])
      rw [onBar_of_rejected world hlast hadjoins]
      exact .refused (by simp [checkSequence, hlast, hadjoins])

end BarAggregator

end MacdTradingBot
