import MacdTradingBot.Indicators.Engine

/-!
# Which periods the indicators bear

The constructors cast the `int` parameters of a configuration to `std::size_t` and check nothing.
`constructors_sound_iff` says for which parameters the indicator warms up as configured and its
arithmetic stays defined: `write` subtracts one from a counter and divides by it.
-/

namespace MacdTradingBot

/-! ## The counters that `write` divides by -/

/-- The counter that `EMA::write` divides by, and subtracts one from, if it does. -/
def EMA.divisor (e : EMA) : Option UInt64 := if e.isReady then none else some (e.n + 1)

/-- While an EMA warms up, a write divides by the counter. -/
theorem EMA.writeClose_of_divisor {e : EMA} {n : UInt64} (h : e.divisor = some n) (close : ℚ) :
    e.writeClose close
      = { e with n := n, value := (e.value * ((n - 1).toNat : ℚ) + close) / (n.toNat : ℚ) } := by
  unfold divisor at h
  split at h
  · cases h
  · rename_i hready
    obtain rfl := Option.some.inj h
    rw [writeClose, if_neg hready]

/-- An EMA that is ready does not divide. -/
theorem EMA.writeClose_of_no_divisor {e : EMA} (h : e.divisor = none) (close : ℚ) :
    e.writeClose close = { e with value := close * e.alpha + e.value * (1 - e.alpha) } := by
  unfold divisor at h
  split at h
  · rename_i hready
    rw [writeClose, if_pos hready]
  · cases h

/-- The counter that `ATR::write` divides by, and subtracts one from, if it does. -/
def ATR.divisor (a : ATR) : Option UInt64 :=
  if a.prevClose = -1 then none else some (if !a.isReady then a.n + 1 else a.n)

/-- With a previous close, a write divides by the counter. -/
theorem ATR.write_of_divisor {a : ATR} {n : UInt64} (h : a.divisor = some n) (ohlcv : OHLCV ℚ) :
    a.write ohlcv = { a with
      n := n
      val := (a.val * ((n - 1).toNat : ℚ) + calcTr ohlcv.high ohlcv.low a.prevClose) / (n.toNat : ℚ)
      prevClose := ohlcv.close } := by
  unfold divisor at h
  split at h
  · cases h
  · rename_i hclose
    obtain rfl := Option.some.inj h
    rw [write, if_neg hclose]

/-- Without one it only takes the close. -/
theorem ATR.write_of_no_divisor {a : ATR} (h : a.divisor = none) (ohlcv : OHLCV ℚ) :
    a.write ohlcv = { a with prevClose := ohlcv.close } := by
  unfold divisor at h
  split at h
  · rename_i hclose
    rw [write, if_pos hclose]
  · cases h

namespace OHLCVIndicator

/-- The periods of an indicator. -/
def periods : OHLCVIndicator → List UInt64
  | ema e => [e.period]
  | atr a => [a.period]
  | macd m => [m.fastEma.period, m.slowEma.period, m.signalEma.period]

/-- The counters that the next `write` divides by. The signal line of a MACD is written only when the
other two EMAs were ready before. -/
def divisors : OHLCVIndicator → List UInt64
  | ema e => e.divisor.toList
  | atr a => a.divisor.toList
  | macd m =>
    m.fastEma.divisor.toList ++ m.slowEma.divisor.toList
      ++ if m.fastEma.isReady && m.slowEma.isReady then m.signalEma.divisor.toList else []

/-- The indicator has positive periods, it is not ready before any bar and ready from bar `readyAfter`
on, and on no bars does its `write` divide by zero. -/
structure WarmsUp (indicator : OHLCVIndicator) (readyAfter : ℤ) : Prop where
  periods : ∀ p ∈ indicator.periods, 1 ≤ p.toNat
  notReady : indicator.isReady = false
  ready : ∀ bars : List (OHLCV ℚ), (∀ b ∈ bars, b.close ≠ -1) →
    ((indicator.after bars).isReady = true ↔ readyAfter ≤ bars.length)
  divides : ∀ bars : List (OHLCV ℚ), ∀ n ∈ (indicator.after bars).divisors, n ≠ 0

end OHLCVIndicator

/-! ## Counters below the period do not wrap -/

/-- A counter below the period does not overflow. -/
theorem add_one_ne_zero_of_lt {n : UInt64} (period : UInt64) (h : n.toNat < period.toNat) :
    n + 1 ≠ 0 := by
  intro hzero
  have hadd : (n + 1).toNat = n.toNat + 1 := by
    have hlt := period.toNat_lt
    rw [UInt64.toNat_add, UInt64.toNat_one]
    omega
  rw [hzero] at hadd
  simp at hadd

/-- An EMA never divides by zero: it has counted up before. -/
theorem EMA.ne_zero_of_mem_divisor {e : EMA} {n : UInt64} (h : n ∈ e.divisor.toList) : n ≠ 0 := by
  unfold divisor at h
  split at h
  · cases h
  · rename_i hready
    rw [isReady_iff] at hready
    obtain rfl : n = e.n + 1 := by simpa using h
    exact add_one_ne_zero_of_lt e.period (by omega)

/-- An ATR of a positive period never divides by zero. -/
theorem ATR.ne_zero_of_mem_divisor {a : ATR} (hperiod : 1 ≤ a.period.toNat) {n : UInt64}
    (h : n ∈ a.divisor.toList) : n ≠ 0 := by
  unfold divisor at h
  split at h
  · cases h
  · obtain rfl : n = if !a.isReady then a.n + 1 else a.n := by simpa using h
    cases hready : a.isReady with
    | true =>
      -- the counter rests at the period
      have hle := a.isReady_iff.mp hready
      rintro hzero
      rw [Bool.not_true, if_neg Bool.false_ne_true] at hzero
      rw [hzero, UInt64.toNat_zero] at hle
      omega
    | false =>
      have hnle : ¬ a.period.toNat ≤ a.n.toNat := by
        rw [← isReady_iff, hready]
        exact Bool.false_ne_true
      exact add_one_ne_zero_of_lt a.period (by omega)

/-- The period stays. -/
theorem ATR.period_writeAll (a : ATR) (bars : List (OHLCV ℚ)) : (a.writeAll bars).period = a.period := by
  induction bars using List.reverseRecOn with
  | nil => rfl
  | append_singleton bars bar ih => rw [writeAll_concat, period_write, ih]

/-! ## The cast of a parameter -/

/-- A negative parameter becomes a huge period. -/
theorem le_toNat_staticCastSizeT {i : Int32} (h : i.toInt < 0) :
    2 ^ 63 ≤ (staticCastSizeT i).toNat := by
  have hle := i.le_toInt
  rw [staticCastSizeT, UInt64.ofInt, UInt64.toNat_ofNat']
  omega

theorem one_le_of_one_le_cast {i : Int32} (h : 1 ≤ (staticCastSizeT i).toNat) (hi : 0 ≤ i.toInt) :
    1 ≤ i.toInt := by
  rw [toNat_staticCastSizeT hi] at h
  omega

/-! ## Which parameters are sound -/

/-- Before any bar the indicator is not ready, so some bar must bring it. -/
theorem OHLCVIndicator.WarmsUp.one_le {indicator : OHLCVIndicator} {readyAfter : ℤ}
    (h : indicator.WarmsUp readyAfter) : 1 ≤ readyAfter := by
  have hready := h.ready [] (by simp)
  rw [after_nil, h.notReady] at hready
  by_contra hle
  exact Bool.false_ne_true (hready.mpr (by simp; omega))

/-- An indicator that needs a bar to be ready is not ready before any. -/
theorem OHLCVIndicator.WarmsUp.of_ready {indicator : OHLCVIndicator} {readyAfter : ℤ}
    (hone : 1 ≤ readyAfter) (hperiods : ∀ p ∈ indicator.periods, 1 ≤ p.toNat)
    (hready : ∀ bars : List (OHLCV ℚ), (∀ b ∈ bars, b.close ≠ -1) →
      ((indicator.after bars).isReady = true ↔ readyAfter ≤ bars.length))
    (hdivides : ∀ bars : List (OHLCV ℚ), ∀ n ∈ (indicator.after bars).divisors, n ≠ 0) :
    indicator.WarmsUp readyAfter := by
  refine ⟨hperiods, ?_, hready, hdivides⟩
  have hstart := hready [] (by simp)
  rw [after_nil] at hstart
  rw [← Bool.not_eq_true, hstart, List.length_nil]
  omega

open OHLCVIndicator

/-- An EMA warms up as configured if and only if its period is positive: a cast negative one is out of reach.
-/
theorem warmsUp_ema_iff (p : Int32) :
    WarmsUp (.ema (.ofPeriod (staticCastSizeT p))) p.toInt ↔ 1 ≤ p.toInt := by
  constructor
  · exact WarmsUp.one_le
  · intro hp
    have hcast := toNat_staticCastSizeT (show 0 ≤ p.toInt by omega)
    refine .of_ready hp ?_ (fun bars _ => ?_) fun bars n hn => ?_
    · simp only [OHLCVIndicator.periods, List.mem_singleton, forall_eq]
      show 1 ≤ (staticCastSizeT p).toNat
      omega
    · rw [isReady_after_ema, hcast]
      omega
    · rw [after_ema] at hn
      exact EMA.ne_zero_of_mem_divisor hn

/-- An ATR warms up as configured if and only if its period is positive. -/
theorem warmsUp_atr_iff (p : Int32) :
    WarmsUp (.atr (.ofPeriod (staticCastSizeT p))) (p.toInt + 1) ↔ 1 ≤ p.toInt := by
  constructor
  · intro h
    have hone := h.one_le
    exact one_le_of_one_le_cast (h.periods (staticCastSizeT p) List.mem_cons_self) (by omega)
  · intro hp
    have hcast := toNat_staticCastSizeT (show 0 ≤ p.toInt by omega)
    have hone : 1 ≤ (staticCastSizeT p).toNat := by omega
    refine .of_ready (by omega) ?_ (fun bars hclose => ?_) fun bars n hn => ?_
    · simp only [OHLCVIndicator.periods, List.mem_singleton, forall_eq]
      exact hone
    · rw [isReady_after_atr hone hclose, hcast]
      omega
    · rw [after_atr] at hn
      refine ATR.ne_zero_of_mem_divisor ?_ hn
      rw [ATR.period_writeAll]
      exact hone

/-- A MACD with a negative period is not ready after the configured number of bars. -/
theorem one_le_of_warmsUp_macd {f s g : Int32}
    (h : WarmsUp (.macd (.ofPeriods (staticCastSizeT f) (staticCastSizeT s) (staticCastSizeT g)))
      (max f.toInt s.toInt + g.toInt)) : 1 ≤ f.toInt ∧ 1 ≤ s.toInt ∧ 1 ≤ g.toInt := by
  have hone := h.one_le
  have hf := h.periods (staticCastSizeT f) List.mem_cons_self
  have hs := h.periods (staticCastSizeT s) (List.mem_cons_of_mem _ List.mem_cons_self)
  have hg := h.periods (staticCastSizeT g)
    (List.mem_cons_of_mem _ (List.mem_cons_of_mem _ List.mem_cons_self))
  obtain ⟨n, hn⟩ := Int.eq_ofNat_of_zero_le (show 0 ≤ max f.toInt s.toInt + g.toInt by omega)
  have hclose : ∀ b ∈ List.replicate n (⟨0, 0, 0, 0, 0⟩ : OHLCV ℚ), b.close ≠ -1 := by
    intro b hb
    rw [List.eq_of_mem_replicate hb]
    norm_num
  have hready := (h.ready _ hclose).mpr (by rw [List.length_replicate]; omega)
  rw [isReady_after_macd _ _ hg, List.length_replicate] at hready
  have hflt := f.toInt_lt
  have hslt := s.toInt_lt
  have hglt := g.toInt_lt
  -- the sum of two parameters stays far below what the cast makes of a negative one
  have hnonneg : ∀ i : Int32, (staticCastSizeT i).toNat ≤ n → 0 ≤ i.toInt := by
    intro i hi
    by_contra hneg
    have hle := le_toNat_staticCastSizeT (show i.toInt < 0 by omega)
    omega
  exact ⟨one_le_of_one_le_cast hf (hnonneg f (by omega)),
    one_le_of_one_le_cast hs (hnonneg s (by omega)), one_le_of_one_le_cast hg (hnonneg g (by omega))⟩

/-- A MACD warms up as configured if and only if all three periods are positive. -/
theorem warmsUp_macd_iff (f s g : Int32) :
    WarmsUp (.macd (.ofPeriods (staticCastSizeT f) (staticCastSizeT s) (staticCastSizeT g)))
        (max f.toInt s.toInt + g.toInt) ↔ 1 ≤ f.toInt ∧ 1 ≤ s.toInt ∧ 1 ≤ g.toInt := by
  refine ⟨one_le_of_warmsUp_macd, ?_⟩
  rintro ⟨hf, hs, hg⟩
  have hfcast := toNat_staticCastSizeT (show 0 ≤ f.toInt by omega)
  have hscast := toNat_staticCastSizeT (show 0 ≤ s.toInt by omega)
  have hgcast := toNat_staticCastSizeT (show 0 ≤ g.toInt by omega)
  refine .of_ready (by omega) ?_ (fun bars _ => ?_) fun bars n hn => ?_
  · simp only [OHLCVIndicator.periods, List.forall_mem_cons, List.not_mem_nil, false_implies,
      implies_true, and_true]
    show 1 ≤ (staticCastSizeT f).toNat ∧ 1 ≤ (staticCastSizeT s).toNat ∧ 1 ≤ (staticCastSizeT g).toNat
    omega
  · rw [isReady_after_macd _ _ (by omega)]
    omega
  · -- the signal line divides only at bars at which it is written
    rw [after_macd, OHLCVIndicator.divisors, List.mem_append, List.mem_append] at hn
    rcases hn with (hn | hn) | hn
    · exact EMA.ne_zero_of_mem_divisor hn
    · exact EMA.ne_zero_of_mem_divisor hn
    · split at hn
      · exact EMA.ne_zero_of_mem_divisor hn
      · cases hn

/-- The three constructors, for every configuration: an indicator that one of them builds warms up as
configured and writes without dividing by zero, if and only if the parameters are at least 1, or one is
missing, so that the constructor throws. -/
theorem constructors_sound_iff (config : IndicatorConfig) :
    ((∀ e, EMA.ofConfig config = .ok e →
        ∃ p, config.params.find? "period" = some p ∧ WarmsUp (.ema e) p.toInt) ↔
      ∀ p, config.params.find? "period" = some p → 1 ≤ p.toInt) ∧
    ((∀ a, ATR.ofConfig config = .ok a →
        ∃ p, config.params.find? "period" = some p ∧ WarmsUp (.atr a) (p.toInt + 1)) ↔
      ∀ p, config.params.find? "period" = some p → 1 ≤ p.toInt) ∧
    ((∀ m, MACD.ofConfig config = .ok m → ∃ f s g, config.params.find? "fast_period" = some f ∧
        config.params.find? "slow_period" = some s ∧ config.params.find? "signal_period" = some g ∧
          WarmsUp (.macd m) (max f.toInt s.toInt + g.toInt)) ↔
      ∀ f s g, config.params.find? "fast_period" = some f → config.params.find? "slow_period" = some s →
        config.params.find? "signal_period" = some g → 1 ≤ f.toInt ∧ 1 ≤ s.toInt ∧ 1 ≤ g.toInt) := by
  refine ⟨?_, ?_, ?_⟩
  · unfold EMA.ofConfig
    cases config.params.find? "period" with
    | none => simp
    | some p => simp [warmsUp_ema_iff]
  · unfold ATR.ofConfig
    cases config.params.find? "period" with
    | none => simp
    | some p => simp [warmsUp_atr_iff]
  · unfold MACD.ofConfig MACD.extractPeriod
    cases config.params.find? "fast_period" with
    | none => simp [bind, Except.bind]
    | some f =>
      cases config.params.find? "slow_period" with
      | none => simp [bind, Except.bind]
      | some s =>
        cases config.params.find? "signal_period" with
        | none => simp [bind, Except.bind]
        | some g => simp [bind, Except.bind, pure, Except.pure, warmsUp_macd_iff]

/-- Of period 0 an ATR is built. It is ready at once, and its second bar divides by zero. -/
def zeroPeriod : IndicatorConfig := { name := "ATR", params := .ofList [("period", 0)] }

/-- The ATR of period 0 is ready before any bar, and its second bar divides by zero. -/
theorem zero_period_divides_by_zero :
    ∃ a, ATR.ofConfig zeroPeriod = .ok a ∧ a.isReady = true ∧
      0 ∈ ((OHLCVIndicator.atr a).after [⟨1, 1, 1, 1, 1⟩]).divisors ∧
        ¬ ∃ p, zeroPeriod.params.find? "period" = some p ∧ WarmsUp (.atr a) (p.toInt + 1) := by
  refine ⟨.ofPeriod 0, rfl, rfl, by decide +kernel, ?_⟩
  rintro ⟨p, -, h⟩
  have hready := h.notReady
  cases hready

end MacdTradingBot
