import MacdTradingBot.Indicators.Engine
import Mathlib.Algebra.Order.Field.Basic
import Mathlib.Data.Sign.Basic
import Mathlib.Tactic.NormNum
import Mathlib.Tactic.Ring

/-!
# Prices in another unit

Two runs of an indicator, one over the prices and one over their multiples by `k`, keep a state and its
multiple (`scaled`). EMA and MACD are linear, so any `k` does. The ATR takes absolute values, and knows
by the price `-1` that it has no close yet: there `k` and the closes have to be positive.
-/

namespace MacdTradingBot

/-- All prices multiplied by `k`. -/
def OHLCV.scaled (k : ℚ) (ohlcv : OHLCV ℚ) : OHLCV ℚ :=
  { «open» := k * ohlcv.open
    high := k * ohlcv.high
    low := k * ohlcv.low
    close := k * ohlcv.close
    volume := ohlcv.volume }

/-- All readings multiplied by `k`. -/
def Snapshot.scaled (k : ℚ) (snapshot : Snapshot) : Snapshot := snapshot.mapValues (k * ·)

/-- A member of a scaled snapshot is the scaled member. -/
theorem Snapshot.find?_scaled (k : ℚ) (snapshot : Snapshot) (name : String) :
    (snapshot.scaled k).find? name = (snapshot.find? name).map (k * ·) :=
  UnorderedMap.find?_mapValues _ _ _

variable {k : ℚ}

/-! ## The states of the two runs -/

namespace EMA

def scaled (k : ℚ) (e : EMA) : EMA := { e with value := k * e.value }

/-- The counters do not scale. -/
@[simp]
theorem isReady_scaled (k : ℚ) (e : EMA) : (e.scaled k).isReady = e.isReady := rfl

/-- A new EMA has no value to scale. -/
theorem scaled_ofPeriod (k : ℚ) (period : UInt64) : (ofPeriod period).scaled k = ofPeriod period := by
  simp [scaled, ofPeriod]

/-- Writing a scaled close scales the EMA: its steps are linear in value and close. -/
theorem writeClose_scaled (k : ℚ) (e : EMA) (close : ℚ) :
    (e.scaled k).writeClose (k * close) = (e.writeClose close).scaled k := by
  unfold writeClose
  rw [isReady_scaled]
  split
  · simp only [scaled, mk.injEq, and_true]
    ring
  · simp only [scaled, mk.injEq, and_true]
    ring

/-- So do scaled closes one after another. -/
theorem writeCloses_scaled (k : ℚ) (e : EMA) (closes : List ℚ) :
    (e.scaled k).writeCloses (closes.map (k * ·)) = (e.writeCloses closes).scaled k := by
  induction closes using List.reverseRecOn with
  | nil => rfl
  | append_singleton closes close ih =>
    rw [List.map_append, List.map_singleton, writeCloses_concat, writeCloses_concat, ih,
      writeClose_scaled]

end EMA

namespace MACD

def scaled (k : ℚ) (m : MACD) : MACD :=
  { fastEma := m.fastEma.scaled k
    slowEma := m.slowEma.scaled k
    signalEma := m.signalEma.scaled k }

/-- The three EMAs of a MACD scale, and so does the difference that the signal line reads. -/
theorem written_scaled (k : ℚ) (m : MACD) (ohlcv : OHLCV ℚ) :
    (m.scaled k).written (ohlcv.scaled k) = (m.written ohlcv).scaled k := by
  have hfast : (m.fastEma.scaled k).write (ohlcv.scaled k) = (m.fastEma.write ohlcv).scaled k :=
    EMA.writeClose_scaled k m.fastEma ohlcv.close
  have hslow : (m.slowEma.scaled k).write (ohlcv.scaled k) = (m.slowEma.write ohlcv).scaled k :=
    EMA.writeClose_scaled k m.slowEma ohlcv.close
  have hline : ((m.fastEma.write ohlcv).scaled k).value - ((m.slowEma.write ohlcv).scaled k).value
      = k * ((m.fastEma.write ohlcv).value - (m.slowEma.write ohlcv).value) :=
    (mul_sub _ _ _).symm
  unfold written
  simp only [scaled, hfast, hslow, hline, EMA.isReady_scaled, EMA.writeClose_scaled]
  split <;> rfl

end MACD

namespace ATR

/-- The close `-1` is no price, and stays. -/
def scaled (k : ℚ) (a : ATR) : ATR :=
  { a with
    val := k * a.val
    prevClose := if a.prevClose = -1 then -1 else k * a.prevClose }

/-- The counters do not scale. -/
@[simp]
theorem isReady_scaled (k : ℚ) (a : ATR) : (a.scaled k).isReady = a.isReady := rfl

/-- There is no close yet, or a positive one. -/
def PositiveClose (a : ATR) : Prop := a.prevClose = -1 ∨ 0 < a.prevClose

/-- A positive close is not taken for no close. -/
theorem ne_unset_of_pos {close : ℚ} (h : 0 < close) : close ≠ -1 :=
  (lt_trans (by norm_num) h).ne'

/-- The true range scales with its prices; the absolute values want a positive factor. -/
theorem calcTr_mul (hk : 0 < k) (high low prevClose : ℚ) :
    calcTr (k * high) (k * low) (k * prevClose) = k * calcTr high low prevClose := by
  unfold calcTr
  rw [← mul_sub, ← mul_sub, ← mul_sub, abs_mul, abs_mul, abs_mul, abs_of_pos hk,
    mul_max_of_nonneg _ _ hk.le, mul_max_of_nonneg _ _ hk.le]

/-- Writing a scaled bar scales the ATR, which has a positive close or none. -/
theorem write_scaled (hk : 0 < k) {a : ATR} (ha : a.PositiveClose) {ohlcv : OHLCV ℚ}
    (hclose : 0 < ohlcv.close) : (a.scaled k).write (ohlcv.scaled k) = (a.write ohlcv).scaled k := by
  have hnew := ne_unset_of_pos hclose
  by_cases hunset : a.prevClose = -1
  · -- both runs only take the close
    have hunset' : (a.scaled k).prevClose = -1 := if_pos hunset
    rw [write, write, if_pos hunset, if_pos hunset']
    simp [scaled, OHLCV.scaled, hnew]
  · have hpos : 0 < a.prevClose := ha.resolve_left hunset
    have hprev : (a.scaled k).prevClose = k * a.prevClose := if_neg hunset
    have hset : (a.scaled k).prevClose ≠ -1 := by
      rw [hprev]
      exact ne_unset_of_pos (mul_pos hk hpos)
    have htr : calcTr (ohlcv.scaled k).high (ohlcv.scaled k).low (a.scaled k).prevClose
        = k * calcTr ohlcv.high ohlcv.low a.prevClose := by
      rw [hprev]
      exact calcTr_mul hk _ _ _
    rw [write, write, if_neg hunset, if_neg hset, htr, isReady_scaled]
    simp only [scaled, OHLCV.scaled, hnew, if_false, mk.injEq, and_true]
    ring

/-- A positive close is kept. -/
theorem positiveClose_write (a : ATR) {ohlcv : OHLCV ℚ} (hclose : 0 < ohlcv.close) :
    (a.write ohlcv).PositiveClose := by
  right
  rwa [prevClose_write]

end ATR

/-! ## Any of the indicators -/

namespace OHLCVIndicator

def scaled (k : ℚ) : OHLCVIndicator → OHLCVIndicator
  | ema e => ema (e.scaled k)
  | atr a => atr (a.scaled k)
  | macd m => macd (m.scaled k)

/-- An indicator as its constructor leaves it, with positive periods. -/
inductive Constructed : OHLCVIndicator → Prop
  | ema {period : UInt64} (hperiod : 1 ≤ period.toNat) : Constructed (.ema (.ofPeriod period))
  | atr {period : UInt64} (hperiod : 1 ≤ period.toNat) : Constructed (.atr (.ofPeriod period))
  | macd {fast slow signal : UInt64} (hfast : 1 ≤ fast.toNat) (hslow : 1 ≤ slow.toNat)
      (hsignal : 1 ≤ signal.toNat) : Constructed (.macd (.ofPeriods fast slow signal))

/-- An ATR among them has no close yet, or a positive one. -/
def PositiveClose : OHLCVIndicator → Prop
  | atr a => a.PositiveClose
  | _ => True

/-- A new indicator has no close. -/
theorem Constructed.positiveClose {i : OHLCVIndicator} (h : i.Constructed) : i.PositiveClose := by
  cases h with
  | ema => trivial
  | atr => exact .inl rfl
  | macd => trivial

/-- A new indicator has nothing to scale. -/
theorem Constructed.scaled_eq {i : OHLCVIndicator} (h : i.Constructed) : i.scaled k = i := by
  cases h with
  | ema => exact congrArg OHLCVIndicator.ema (EMA.scaled_ofPeriod k _)
  | atr => simp [scaled, ATR.scaled, ATR.ofPeriod]
  | macd => simp [scaled, MACD.scaled, MACD.ofPeriods, EMA.scaled_ofPeriod]

/-- Readiness is a matter of counters, which do not scale. -/
theorem isReady_scaled (i : OHLCVIndicator) : (i.scaled k).isReady = i.isReady := by
  cases i <;> rfl

/-- A scaled indicator reads the scaled snapshot, or throws likewise. -/
theorem read_scaled (i : OHLCVIndicator) : (i.scaled k).read = i.read.map (Snapshot.scaled k) := by
  cases hready : i.isReady with
  | true =>
    rw [read_of_isReady hready, read_of_isReady ((isReady_scaled i).trans hready)]
    cases i with
    | ema e => rfl
    | atr a => rfl
    | macd m =>
      have hline : k * m.fastEma.value - k * m.slowEma.value
          = k * (m.fastEma.value - m.slowEma.value) := (mul_sub _ _ _).symm
      simp only [scaled, reading, MACD.scaled, EMA.scaled, hline, ← mul_sub]
      rfl
  | false =>
    cases i with
    | ema e =>
      have he : e.isReady = false := hready
      simp only [scaled, read, EMA.read, EMA.isReady_scaled, he]
      rfl
    | atr a =>
      have ha : a.isReady = false := hready
      simp only [scaled, read, ATR.read, ATR.isReady_scaled, ha]
      rfl
    | macd m =>
      have hm : m.isReady = false := hready
      have hm' : (m.scaled k).isReady = false := hready
      simp only [scaled, read, MACD.read, hm, hm']
      rfl

/-- Writing a scaled bar scales the indicator. -/
theorem written_scaled (hk : 0 < k) {i : OHLCVIndicator} (hi : i.PositiveClose) {ohlcv : OHLCV ℚ}
    (hclose : 0 < ohlcv.close) :
    (i.scaled k).written (ohlcv.scaled k) = (i.written ohlcv).scaled k ∧
      (i.written ohlcv).PositiveClose := by
  cases i with
  | ema e => exact ⟨congrArg OHLCVIndicator.ema (EMA.writeClose_scaled k e ohlcv.close), trivial⟩
  | atr a =>
    exact ⟨congrArg OHLCVIndicator.atr (ATR.write_scaled hk hi hclose), a.positiveClose_write hclose⟩
  | macd m => exact ⟨congrArg OHLCVIndicator.macd (MACD.written_scaled k m ohlcv), trivial⟩

/-- The two runs, from a state and its multiple. -/
theorem after_scaled (hk : 0 < k) {i : OHLCVIndicator} (hi : i.PositiveClose) {bars : List (OHLCV ℚ)}
    (hclose : ∀ b ∈ bars, 0 < b.close) :
    (i.scaled k).after (bars.map (OHLCV.scaled k)) = (i.after bars).scaled k ∧
      (i.after bars).PositiveClose := by
  induction bars using List.reverseRecOn with
  | nil => exact ⟨rfl, hi⟩
  | append_singleton bars bar ih =>
    obtain ⟨hafter, hpositive⟩ := ih fun b hb => hclose b (List.mem_append_left _ hb)
    rw [List.map_append, List.map_singleton, after_concat, after_concat, hafter]
    exact written_scaled hk hpositive (hclose bar (by simp))

end OHLCVIndicator

/-! ## What the strategy decides on -/

/-- What the entry and exit conditions of the README ask of the readings, at a bar with this close. -/
structure StrategyView where
  closeAboveEma : Option Bool
  macdSign : Option SignType
  macdOverSignal : Option SignType
  atrOverClose : Option ℚ
deriving DecidableEq

def strategyView (close : ℚ) (snapshot : Snapshot) : StrategyView :=
  { closeAboveEma := (snapshot.find? "ema").map fun ema => decide (ema < close)
    macdSign := (snapshot.find? "macd").map fun macd => SignType.sign macd
    macdOverSignal := (snapshot.find? "macd").bind fun macd =>
      (snapshot.find? "signal").map fun signal => SignType.sign (macd - signal)
    atrOverClose := (snapshot.find? "atr").map fun atr => atr / close }

/-- Comparisons, signs and quotients do not notice the factor. -/
theorem strategyView_scaled (hk : 0 < k) (close : ℚ) (snapshot : Snapshot) :
    strategyView (k * close) (snapshot.scaled k) = strategyView close snapshot := by
  have hsign : ∀ x : ℚ, SignType.sign (k * x) = SignType.sign x := by
    intro x
    rw [sign_mul, sign_pos hk, one_mul]
  unfold strategyView
  simp only [Snapshot.find?_scaled, Option.map_map, Option.bind_map, Function.comp_def,
    mul_lt_mul_iff_right₀ hk, hsign, ← mul_sub, mul_div_mul_left _ _ hk.ne']

/-- Bars with positive prices and the same bars with all prices multiplied by `k`, written to two equal
indicators: neither run throws, and at every step both are ready or neither is, and what one reads is
`k` times what the other reads. What the strategy asks of the readings is the same. -/
theorem scale_equivariant (hk : 0 < k) {i : OHLCVIndicator} (hi : i.Constructed)
    {bars : List (OHLCV ℚ)}
    (hpos : ∀ b ∈ bars, 0 < b.open ∧ 0 < b.high ∧ 0 < b.low ∧ 0 < b.close) :
    ∀ seen, seen <+: bars → ∃ j j', i.writeBars seen = .ok j ∧
      i.writeBars (seen.map (OHLCV.scaled k)) = .ok j' ∧ j'.isReady = j.isReady ∧
      j'.read = j.read.map (Snapshot.scaled k) ∧
      ∀ snapshot snapshot', j.read = .ok snapshot → j'.read = .ok snapshot' →
        ∀ close, strategyView (k * close) snapshot' = strategyView close snapshot := by
  intro seen hseen
  have hclose : ∀ b ∈ seen, 0 < b.close := fun b hb => (hpos b (hseen.subset hb)).2.2.2
  obtain ⟨hafter, -⟩ := OHLCVIndicator.after_scaled hk hi.positiveClose hclose
  rw [hi.scaled_eq] at hafter
  refine ⟨_, _, OHLCVIndicator.writeBars_eq i seen, OHLCVIndicator.writeBars_eq i _, ?_, ?_, ?_⟩
  · rw [hafter, OHLCVIndicator.isReady_scaled]
  · rw [hafter, OHLCVIndicator.read_scaled]
  · intro snapshot snapshot' h h' close
    rw [hafter, OHLCVIndicator.read_scaled, h] at h'
    cases h'
    exact strategyView_scaled hk close snapshot

/-- A split, one share into two, under an ATR of period 1, which reads half of what it read before. -/
theorem scale_equivariant_split :
    ∃ j j', (OHLCVIndicator.atr (.ofPeriod 1)).writeBars [⟨2, 4, 2, 4, 1⟩, ⟨4, 8, 4, 6, 1⟩] = .ok j ∧
      (OHLCVIndicator.atr (.ofPeriod 1)).writeBars
        ([⟨2, 4, 2, 4, 1⟩, ⟨4, 8, 4, 6, 1⟩].map (OHLCV.scaled (1 / 2))) = .ok j' ∧
      j.read = .ok (.ofList [("atr", 4)]) ∧ j'.read = .ok (.ofList [("atr", 2)]) := by
  obtain ⟨j, j', hj, hj', -, hread, -⟩ := @scale_equivariant (1 / 2) (by norm_num) _
    (@OHLCVIndicator.Constructed.atr 1 (by decide)) [⟨2, 4, 2, 4, 1⟩, ⟨4, 8, 4, 6, 1⟩] (by decide +kernel) _
    (List.prefix_refl _)
  have hready : ((ATR.ofPeriod 1).writeAll [⟨2, 4, 2, 4, 1⟩, ⟨4, 8, 4, 6, 1⟩]).isReady = true := by
    decide +kernel
  have hval : ((ATR.ofPeriod 1).writeAll [⟨2, 4, 2, 4, 1⟩, ⟨4, 8, 4, 6, 1⟩]).val = 4 := by
    decide +kernel
  have hreading : j.read = .ok (.ofList [("atr", 4)]) := by
    obtain rfl := Except.ok.inj ((OHLCVIndicator.writeBars_eq _ _).symm.trans hj)
    rw [OHLCVIndicator.after_atr]
    show ATR.read _ = _
    rw [ATR.read, hready, hval]
    rfl
  refine ⟨j, j', hj, hj', hreading, ?_⟩
  rw [hread, hreading]
  have hhalf : (1 / 2 : ℚ) * 4 = 2 := by norm_num
  exact congrArg (fun atr => Except.ok (UnorderedMap.ofList [("atr", atr)])) hhalf

end MacdTradingBot
