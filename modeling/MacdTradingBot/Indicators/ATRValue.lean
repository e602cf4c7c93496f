import MacdTradingBot.Indicators.ATR
import MacdTradingBot.Lib.Averages
import Mathlib.Tactic.FieldSimp
import Mathlib.Tactic.Positivity

/-!
# What the average true range is

Wilder's definition of the average, and that `ATR::write` computes it: one formula of the code serves as
the mean of the first `period` true ranges and, with the counter at rest, as the smoothing of the later
ones.
-/

namespace MacdTradingBot

open Averages

/-! ## The definition -/

/-- The true range of a bar after `previous`. -/
def trueRange (previous bar : OHLCV ℚ) : ℚ :=
  max (max |bar.high - bar.low| |bar.high - previous.close|) |bar.low - previous.close|

/-- The true ranges of the bars from the second on. -/
def trueRanges : List (OHLCV ℚ) → List ℚ
  | previous :: bar :: bars => trueRange previous bar :: trueRanges (bar :: bars)
  | _ => []

/-- Wilder's average of period `p`: the mean of the first `p` true ranges, and then for each true range
`tr` the value `v` becomes `(v * (p - 1) + tr) / p`. -/
def wilderAverage (p : ℕ) (trs : List ℚ) : ℚ :=
  (trs.drop p).foldl (fun v tr => (v * (p - 1) + tr) / p) (mean (trs.take p))

/-- No true range is negative. -/
theorem trueRange_nonneg (previous bar : OHLCV ℚ) : 0 ≤ trueRange previous bar :=
  le_max_of_le_right (abs_nonneg _)

/-- The last bar adds the true range after the bar before it. -/
theorem trueRanges_concat (bars : List (OHLCV ℚ)) (previous bar : OHLCV ℚ) :
    trueRanges (bars ++ [previous, bar])
      = trueRanges (bars ++ [previous]) ++ [trueRange previous bar] := by
  induction bars with
  | nil => rfl
  | cons first bars ih =>
    cases bars with
    | nil => rfl
    | cons second bars => exact congrArg (trueRange first second :: ·) ih

/-- The first bar has no true range. -/
theorem length_trueRanges (bars : List (OHLCV ℚ)) : (trueRanges bars).length = bars.length - 1 := by
  induction bars with
  | nil => rfl
  | cons first bars ih =>
    cases bars with
    | nil => rfl
    | cons second bars =>
      rw [trueRanges, List.length_cons, ih]
      rfl

theorem nonneg_of_mem_trueRanges {bars : List (OHLCV ℚ)} {tr : ℚ} (h : tr ∈ trueRanges bars) :
    0 ≤ tr := by
  induction bars with
  | nil => cases h
  | cons first bars ih =>
    cases bars with
    | nil => cases h
    | cons second bars =>
      rcases List.mem_cons.mp h with rfl | h
      · exact trueRange_nonneg first second
      · exact ih h

section Wilder

variable {p : ℕ} {trs : List ℚ}

/-- The seed is the mean of the first true ranges. -/
theorem wilderAverage_of_length_le (h : trs.length ≤ p) : wilderAverage p trs = mean trs := by
  rw [wilderAverage, List.drop_eq_nil_of_le h, List.take_of_length_le h, List.foldl_nil]

/-- Wilder's recursion. -/
theorem wilderAverage_concat (h : p ≤ trs.length) (tr : ℚ) :
    wilderAverage p (trs ++ [tr]) = (wilderAverage p trs * (p - 1) + tr) / p := by
  rw [wilderAverage, List.drop_append_of_le_length h, List.take_append_of_le_length h,
    List.foldl_append]
  rfl

/-- Wilder's average is a smoothing with weight `1 / p`. -/
theorem wilderAverage_eq_smooth (hp : 1 ≤ p) :
    wilderAverage p trs = smooth (1 / p : ℚ) (mean (trs.take p)) (trs.drop p) := by
  have hp0 : (p : ℚ) ≠ 0 := by exact_mod_cast (by omega : p ≠ 0)
  have hstep : ∀ v tr : ℚ, (v * (p - 1) + tr) / p = (1 - 1 / p) * v + 1 / p * tr := by
    intro v tr
    field_simp
  unfold wilderAverage smooth
  simp only [hstep]

/-- The average is between the bounds of the true ranges. -/
theorem wilderAverage_mem_Icc (hp : 1 ≤ p) (hne : trs ≠ []) {lo hi : ℚ}
    (h : ∀ tr ∈ trs, tr ∈ Set.Icc lo hi) : wilderAverage p trs ∈ Set.Icc lo hi := by
  have hcast : (1 : ℚ) ≤ p := by exact_mod_cast hp
  have htake : trs.take p ≠ [] := by
    apply List.ne_nil_of_length_pos
    have hpos := List.length_pos_iff.mpr hne
    rw [List.length_take]
    omega
  rw [wilderAverage_eq_smooth hp]
  exact smooth_mem_Icc (by positivity) (div_le_one_of_le₀ hcast (by positivity))
    (mean_mem_Icc htake fun tr htr => h tr (List.mem_of_mem_take htr))
    fun tr htr => h tr (List.mem_of_mem_drop htr)

end Wilder

/-! ## The value of the code -/

namespace ATR

/-- While the ATR warms up, the new true range is the one with number `n + 1`. -/
theorem val_write_of_not_ready {a : ATR} (hclose : a.prevClose ≠ -1) (h : ¬ a.isReady = true)
    (ohlcv : OHLCV ℚ) :
    (a.write ohlcv).val
      = (a.val * a.n.toNat + calcTr ohlcv.high ohlcv.low a.prevClose) / (a.n.toNat + 1) := by
  have hlt : a.n.toNat < a.period.toNat := by
    rw [isReady_iff] at h
    omega
  have hn : (a.n + 1).toNat = a.n.toNat + 1 := by
    have hperiod := a.period.toNat_lt
    rw [UInt64.toNat_add, UInt64.toNat_one]
    omega
  rw [write, if_neg hclose, eq_false_of_ne_true h]
  simp only [Bool.not_false, if_true, UInt64.add_sub_cancel, hn, Nat.cast_add, Nat.cast_one]

/-- After the seed, a write is a step of the recursion. -/
theorem val_write_of_ready {a : ATR} (hclose : a.prevClose ≠ -1) (h : a.isReady = true)
    (hn : 1 ≤ a.n.toNat) (ohlcv : OHLCV ℚ) :
    (a.write ohlcv).val
      = (a.val * (a.n.toNat - 1) + calcTr ohlcv.high ohlcv.low a.prevClose) / a.n.toNat := by
  have hless : (a.n - 1).toNat = a.n.toNat - 1 := by
    rw [UInt64.toNat_sub_of_le _ _ (by rwa [UInt64.le_iff_toNat_le, UInt64.toNat_one]),
      UInt64.toNat_one]
  rw [write, if_neg hclose, h]
  simp only [Bool.not_true, Bool.false_eq_true, if_false, hless, Nat.cast_sub hn, Nat.cast_one]

/-- The value after bars none of which closed at `-1`. -/
theorem val_writeAll {period : UInt64} (hperiod : 1 ≤ period.toNat) {bars : List (OHLCV ℚ)}
    (hclose : ∀ b ∈ bars, b.close ≠ -1) :
    ((ofPeriod period).writeAll bars).val = wilderAverage period.toNat (trueRanges bars) := by
  induction bars using List.reverseRecOn with
  | nil => simp [ofPeriod, trueRanges, wilderAverage]
  | append_singleton bars bar ih =>
    -- the first bar only leaves its close behind
    rcases List.eq_nil_or_concat' bars with rfl | ⟨bars, previous, rfl⟩
    · simp [ofPeriod, writeAll, write, trueRanges, wilderAverage]
    · have hclose' : ∀ b ∈ bars ++ [previous], b.close ≠ -1 := fun b hb =>
        hclose b (List.mem_append_left _ hb)
      have hval := ih hclose'
      obtain ⟨hp, hn, -⟩ := counter_writeAll period hclose'
      have hready := isReady_writeAll hperiod hclose'
      have hprev : ((ofPeriod period).writeAll (bars ++ [previous])).prevClose = previous.close := by
        rw [writeAll_concat, prevClose_write]
      have hlength : (trueRanges (bars ++ [previous])).length = bars.length := by
        rw [length_trueRanges, List.length_append, List.length_singleton, Nat.add_sub_cancel]
      rw [List.length_append, List.length_singleton, Nat.add_sub_cancel] at hn
      rw [List.length_append, List.length_singleton] at hready
      have hset : ((ofPeriod period).writeAll (bars ++ [previous])).prevClose ≠ -1 := by
        rw [hprev]
        exact hclose' previous (by simp)
      rw [writeAll_concat, List.append_assoc]
      show _ = wilderAverage _ (trueRanges (bars ++ [previous, bar]))
      rw [trueRanges_concat]
      -- the counter has come to rest, or it goes on
      by_cases hfull : period.toNat ≤ bars.length
      · rw [val_write_of_ready hset (hready.mpr (by omega)) (by omega), hval, hn, min_eq_right hfull,
          hprev, wilderAverage_concat (by omega)]
        rfl
      · rw [val_write_of_not_ready hset (mt hready.mp (by omega)), hval, hn, min_eq_left (by omega),
          hprev, wilderAverage_of_length_le (by omega), wilderAverage_of_length_le, mean_concat, hlength]
        · rfl
        · rw [List.length_append, hlength, List.length_singleton]
          omega

/-- An ATR of a positive period is ready exactly from the bar after the `period`-th on, can be read
exactly when it is ready, and then reads Wilder's average of the true ranges, which is not negative and
lies between the least and the greatest true range. -/
theorem reads_wilderAverage {period : UInt64} (hperiod : 1 ≤ period.toNat) {bars : List (OHLCV ℚ)}
    (hclose : ∀ b ∈ bars, b.close ≠ -1) :
    let a := (ofPeriod period).writeAll bars
    let p := period.toNat
    let average := wilderAverage p (trueRanges bars)
    (a.isReady = true ↔ p + 1 ≤ bars.length) ∧
      ((∃ error, a.read = .error error) ↔ ¬ a.isReady = true) ∧
      (p + 1 ≤ bars.length → a.read = .ok (.ofList [("atr", average)]) ∧ 0 ≤ average ∧
        ∃ least ∈ trueRanges bars, ∃ greatest ∈ trueRanges bars,
          (∀ tr ∈ trueRanges bars, least ≤ tr ∧ tr ≤ greatest) ∧
            least ≤ average ∧ average ≤ greatest) := by
  intro a p average
  have hready : a.isReady = true ↔ p + 1 ≤ bars.length := isReady_writeAll hperiod hclose
  refine ⟨hready, ?_, fun hlength => ?_⟩
  · cases h : a.isReady with
    | true => simp [read, h]
    | false => simp [read, h]
  · have hne : trueRanges bars ≠ [] := by
      apply List.ne_nil_of_length_pos
      rw [length_trueRanges]
      omega
    obtain ⟨least, hleast, greatest, hgreatest, hbounds⟩ := exists_bounds hne
    obtain ⟨hlo, hhi⟩ := wilderAverage_mem_Icc hperiod hne hbounds
    refine ⟨?_, (nonneg_of_mem_trueRanges hleast).trans hlo, least, hleast, greatest, hgreatest,
      hbounds, hlo, hhi⟩
    have hval : a.val = average := val_writeAll hperiod hclose
    rw [read, hready.mpr hlength, hval]
    rfl

/-- Two bars of the ranges 2 and 5, after a first bar. -/
theorem reads_wilderAverage_period_two :
    ((ofPeriod 2).writeAll [⟨1, 1, 1, 1, 0⟩, ⟨1, 3, 1, 2, 0⟩, ⟨2, 6, 1, 4, 0⟩]).read
      = .ok (.ofList [("atr", 7 / 2)]) := by
  have h := ((@reads_wilderAverage 2 (by decide)
    [⟨1, 1, 1, 1, 0⟩, ⟨1, 3, 1, 2, 0⟩, ⟨2, 6, 1, 4, 0⟩] (by decide +kernel)).2.2 (by decide)).1
  have haverage : wilderAverage (2 : UInt64).toNat
      (trueRanges [⟨1, 1, 1, 1, 0⟩, ⟨1, 3, 1, 2, 0⟩, ⟨2, 6, 1, 4, 0⟩]) = 7 / 2 := by
    decide +kernel
  exact h.trans (by rw [← haverage])

end ATR

end MacdTradingBot
