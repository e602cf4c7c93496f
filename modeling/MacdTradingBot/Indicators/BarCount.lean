import MacdTradingBot.Indicators.ATRValue
import MacdTradingBot.Indicators.Scaling

/-!
# Readiness and the number of bars

EMA and MACD are ready after a fixed number of bars. The ATR counts true ranges instead, and a bar that
closes at `-1` takes the true range of the next bar away: `ATR::write` reads `-1` as no close yet.
-/

namespace MacdTradingBot

namespace ATR

/-- The true ranges that one write folds into the average. -/
def contribution (a : ATR) (ohlcv : OHLCV ℚ) : List ℚ :=
  if a.prevClose = -1 then [] else [calcTr ohlcv.high ohlcv.low a.prevClose]

/-- The counter and the value after one true range. -/
def mixIn (a : ATR) (tr : ℚ) : ATR :=
  let n := if !a.isReady then a.n + 1 else a.n
  { a with n := n, val := (a.val * ((n - 1).toNat : ℚ) + tr) / (n.toNat : ℚ) }

/-- A write folds in its contribution, and takes the close. -/
theorem write_eq_contribution (a : ATR) (ohlcv : OHLCV ℚ) :
    a.write ohlcv = { (a.contribution ohlcv).foldl mixIn a with prevClose := ohlcv.close } := by
  unfold write contribution
  split <;> rfl

/-- The counter counts what is contributed, up to the period. -/
theorem toNat_n_write_eq {a : ATR} (h : a.n.toNat ≤ a.period.toNat) (ohlcv : OHLCV ℚ) :
    (a.write ohlcv).n.toNat = min (a.n.toNat + (a.contribution ohlcv).length) a.period.toNat := by
  by_cases hunset : a.prevClose = -1
  · rw [write_eq_contribution, contribution, if_pos hunset]
    exact (min_eq_left h).symm
  · rw [toNat_n_write hunset h, contribution, if_neg hunset, List.length_singleton]

/-- What the bar after `previous` contributes. -/
theorem contribution_after (period : UInt64) (before : List (OHLCV ℚ)) (previous bar : OHLCV ℚ) :
    ((ofPeriod period).writeAll (before ++ [previous])).contribution bar
      = if previous.close = -1 then [] else [trueRange previous bar] := by
  rw [contribution, writeAll_concat, prevClose_write]
  rfl

/-- The counter counts the bars after one that closed at anything but `-1`, up to the period. -/
theorem n_writeAll (period : UInt64) (bars : List (OHLCV ℚ)) :
    ((ofPeriod period).writeAll bars).period = period ∧
      ((ofPeriod period).writeAll bars).n.toNat
        = min (bars.dropLast.countP fun b => b.close ≠ -1) period.toNat := by
  induction bars using List.reverseRecOn with
  | nil => simp [ofPeriod]
  | append_singleton bars bar ih =>
    obtain ⟨hperiod, hn⟩ := ih
    rw [writeAll_concat, period_write, List.dropLast_concat]
    refine ⟨hperiod, ?_⟩
    rw [toNat_n_write_eq (by rw [hn, hperiod]; exact min_le_right _ _), hn, hperiod]
    rcases List.eq_nil_or_concat' bars with rfl | ⟨bars, previous, rfl⟩
    · rw [contribution, if_pos (by rfl)]
      simp
    · rw [contribution_after, List.dropLast_concat, List.countP_append, List.countP_singleton]
      by_cases hunset : previous.close = -1
      · simp [hunset]
      · simp only [hunset, if_false, List.length_singleton, ne_eq, not_false_eq_true, decide_true, if_true]
        omega

/-- An ATR is ready exactly when `period` bars came after one that closed at anything but `-1`. -/
theorem isReady_writeAll_iff (period : UInt64) (bars : List (OHLCV ℚ)) :
    ((ofPeriod period).writeAll bars).isReady = true ↔
      period.toNat ≤ bars.dropLast.countP fun b => b.close ≠ -1 := by
  obtain ⟨hperiod, hn⟩ := n_writeAll period bars
  rw [isReady_iff, hperiod, hn]
  omega

/-- Every bar after the first contributes one true range, its own. -/
def EachContributesOnce (period : UInt64) (bars : List (OHLCV ℚ)) : Prop :=
  ∀ before previous bar later, bars = before ++ previous :: bar :: later →
    ((ofPeriod period).writeAll (before ++ [previous])).contribution bar = [trueRange previous bar]

theorem eachContributesOnce_iff (period : UInt64) (bars : List (OHLCV ℚ)) :
    EachContributesOnce period bars ↔ ∀ b ∈ bars.dropLast, b.close ≠ -1 := by
  constructor
  · intro h b hb hunset
    obtain ⟨before, later, hsplit⟩ := List.append_of_mem hb
    have hne : bars ≠ [] := by
      rintro rfl
      cases hb
    -- some bar follows each of them
    have hbars : bars = before ++ b :: (later ++ [bars.getLast hne]) := by
      rw [← List.cons_append, ← List.append_assoc, ← hsplit, List.dropLast_append_getLast]
    obtain ⟨bar, later', hlater⟩ := List.exists_cons_of_ne_nil
      (show later ++ [bars.getLast hne] ≠ [] by simp)
    rw [hlater] at hbars
    have hone := h before b bar later' hbars
    rw [contribution_after, if_pos hunset] at hone
    cases hone
  · intro h before previous bar later hbars
    have hmem : previous ∈ bars.dropLast := by
      rw [hbars, List.dropLast_append_of_ne_nil (by simp), List.dropLast_cons_cons]
      simp
    rw [contribution_after, if_neg (h previous hmem)]

end ATR

/-- Each of the indicators is ready after both sequences or after neither, and under an ATR every bar
after the first contributes one true range. -/
def DependsOnBarCount (bars bars' : List (OHLCV ℚ)) : Prop :=
  (∀ i : OHLCVIndicator, i.Constructed →
    (i.writeBars bars).map OHLCVIndicator.isReady = (i.writeBars bars').map OHLCVIndicator.isReady) ∧
  ∀ period : UInt64, 1 ≤ period.toNat →
    ATR.EachContributesOnce period bars ∧ ATR.EachContributesOnce period bars'

theorem isReady_after_of_length_eq {bars bars' : List (OHLCV ℚ)} (hlength : bars.length = bars'.length)
    (h : ∀ b ∈ bars.dropLast, b.close ≠ -1) (h' : ∀ b ∈ bars'.dropLast, b.close ≠ -1)
    {i : OHLCVIndicator} (hi : i.Constructed) : (i.after bars).isReady = (i.after bars').isReady := by
  rw [Bool.eq_iff_iff]
  cases hi with
  | ema hperiod => rw [OHLCVIndicator.isReady_after_ema, OHLCVIndicator.isReady_after_ema, hlength]
  | atr hperiod =>
    rw [OHLCVIndicator.after_atr, OHLCVIndicator.after_atr]
    show ATR.isReady _ = true ↔ ATR.isReady _ = true
    rw [ATR.isReady_writeAll_iff, ATR.isReady_writeAll_iff,
      List.countP_eq_length.mpr (fun b hb => by simpa using h b hb),
      List.countP_eq_length.mpr (fun b hb => by simpa using h' b hb), List.length_dropLast,
      List.length_dropLast, hlength]
  | macd hfast hslow hsignal =>
    rw [OHLCVIndicator.isReady_after_macd _ _ hsignal, OHLCVIndicator.isReady_after_macd _ _ hsignal,
      hlength]

/-- Readiness depends on the number of bars alone, and every bar after the first contributes one true
range, if and only if no bar but the last of either sequence closes at `-1`. -/
theorem dependsOnBarCount_iff {bars bars' : List (OHLCV ℚ)} (hlength : bars.length = bars'.length) :
    DependsOnBarCount bars bars' ↔
      (∀ b ∈ bars.dropLast, b.close ≠ -1) ∧ ∀ b ∈ bars'.dropLast, b.close ≠ -1 := by
  constructor
  · rintro ⟨-, honce⟩
    obtain ⟨h, h'⟩ := honce 1 (by decide)
    exact ⟨(ATR.eachContributesOnce_iff 1 bars).mp h, (ATR.eachContributesOnce_iff 1 bars').mp h'⟩
  · rintro ⟨h, h'⟩
    refine ⟨fun i hi => ?_, fun period _ => ?_⟩
    · rw [OHLCVIndicator.writeBars_eq, OHLCVIndicator.writeBars_eq]
      exact congrArg Except.ok (isReady_after_of_length_eq hlength h h' hi)
    · exact ⟨(ATR.eachContributesOnce_iff period bars).mpr h,
        (ATR.eachContributesOnce_iff period bars').mpr h'⟩

/-- A last bar that closes at `-1` does no harm. -/
theorem dependsOnBarCount_two_bars :
    DependsOnBarCount [⟨1, 1, 1, 1, 0⟩, ⟨2, 2, 2, 2, 0⟩] [⟨3, 3, 3, 3, 0⟩, ⟨1, 1, 1, -1, 0⟩] :=
  (@dependsOnBarCount_iff [⟨1, 1, 1, 1, 0⟩, ⟨2, 2, 2, 2, 0⟩] [⟨3, 3, 3, 3, 0⟩, ⟨1, 1, 1, -1, 0⟩]
    rfl).mpr (by decide +kernel)

/-- Two bars, with an ATR of period 1: it is ready, but not if the first bar closes at `-1`. -/
theorem ready_or_not_by_close :
    (OHLCVIndicator.atr (.ofPeriod 1)).writeBars [⟨1, 1, 1, 1, 0⟩, ⟨1, 1, 1, 1, 0⟩]
        = .ok (.atr ((ATR.ofPeriod 1).writeAll [⟨1, 1, 1, 1, 0⟩, ⟨1, 1, 1, 1, 0⟩])) ∧
      ((ATR.ofPeriod 1).writeAll [⟨1, 1, 1, 1, 0⟩, ⟨1, 1, 1, 1, 0⟩]).isReady = true ∧
      ((ATR.ofPeriod 1).writeAll [⟨-1, 1, -1, -1, 0⟩, ⟨1, 1, 1, 1, 0⟩]).isReady = false ∧
      ¬ DependsOnBarCount [⟨1, 1, 1, 1, 0⟩, ⟨1, 1, 1, 1, 0⟩] [⟨-1, 1, -1, -1, 0⟩, ⟨1, 1, 1, 1, 0⟩] := by
  refine ⟨rfl, by decide +kernel, by decide +kernel, ?_⟩
  rintro ⟨hready, -⟩
  have hatr := hready (.atr (.ofPeriod 1)) (.atr (by decide))
  rw [OHLCVIndicator.writeBars_eq, OHLCVIndicator.writeBars_eq] at hatr
  exact absurd (Except.ok.inj hatr) (by decide +kernel)

end MacdTradingBot
