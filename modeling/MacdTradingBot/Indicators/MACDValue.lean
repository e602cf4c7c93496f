import MacdTradingBot.Indicators.EMAValue
import MacdTradingBot.Indicators.Engine
import Mathlib.Tactic.FieldSimp

/-!
# What the MACD is

The MACD line is the difference of two exponential averages, from the first bar on at which both are
there. `MACD::write` looks at their readiness before it writes them, so the first value of the line is
never written to the signal EMA: the signal line of the code averages the line without its first value.
-/

namespace MacdTradingBot

/-! ## The definition -/

/-- The MACD line after the closes `c 1`, …, `c t`. -/
def macdLine (fast slow : ℕ) (c : ℕ → ℚ) (t : ℕ) : ℚ :=
  exponentialAverage fast c t - exponentialAverage slow c t

/-- The signal line after the closes `c 1`, …, `c n`: the average of the whole MACD line, whose first
value is the one after `max fast slow` closes. -/
def signalLine (fast slow signal : ℕ) (c : ℕ → ℚ) (n : ℕ) : ℚ :=
  exponentialAverage signal (fun i => macdLine fast slow c (max fast slow - 1 + i))
    (n - (max fast slow - 1))

/-! ## An average without its first sample -/

theorem exponentialAverage_congr {p n : ℕ} (hpn : p ≤ n) {c d : ℕ → ℚ}
    (h : ∀ i, 1 ≤ i → i ≤ n → c i = d i) : exponentialAverage p c n = exponentialAverage p d n := by
  rw [← sum_closeWeight_mul hpn, ← sum_closeWeight_mul hpn]
  refine Finset.sum_congr rfl fun i hi => ?_
  obtain ⟨h1, hn⟩ := Finset.mem_Icc.mp hi
  rw [h i h1 hn]

/-- The average with the first sample, and without it: only the two starting values differ. -/
theorem exponentialAverage_succ_sub {p n : ℕ} (hp : 1 ≤ p) (hpn : p ≤ n) (d : ℕ → ℚ) :
    exponentialAverage p (fun i => d (1 + i)) n - exponentialAverage p d (n + 1)
      = (1 - 2 / (p + 1)) ^ (n - p)
        * ((2 * ∑ i ∈ Finset.Icc 2 p, d i - (p - 1) * (d 1 + d (p + 1))) / (p * (p + 1))) := by
  obtain ⟨q, rfl⟩ : ∃ q, p = q + 1 := ⟨p - 1, by omega⟩
  have hlater : ∀ j ∈ Finset.range (n - (q + 1)),
      2 / (((q + 1 : ℕ) : ℚ) + 1) * (1 - 2 / (((q + 1 : ℕ) : ℚ) + 1)) ^ (n + 1 - (q + 1 + 1 + (j + 1)))
          * d (q + 1 + 1 + (j + 1))
        = 2 / (((q + 1 : ℕ) : ℚ) + 1) * (1 - 2 / (((q + 1 : ℕ) : ℚ) + 1)) ^ (n - (q + 1 + 1 + j))
          * d (1 + (q + 1 + 1 + j)) := by
    intro j _
    rw [show n + 1 - (q + 1 + 1 + (j + 1)) = n - (q + 1 + 1 + j) by omega,
      show q + 1 + 1 + (j + 1) = 1 + (q + 1 + 1 + j) by omega]
  have hwith : ∑ i ∈ Finset.Icc 1 (q + 1), d i = ∑ i ∈ Finset.Icc 2 (q + 1), d i + d 1 := by
    rw [Averages.sum_Icc_eq_sum_range _ 0, Averages.sum_Icc_eq_sum_range _ 1, Nat.sub_zero,
      Finset.sum_range_succ', Nat.add_sub_cancel]
    exact congrArg (· + d 1) (Finset.sum_congr rfl fun j _ => congrArg d (by omega))
  have hwithout : ∑ i ∈ Finset.Icc 1 (q + 1), d (1 + i)
      = ∑ i ∈ Finset.Icc 2 (q + 1), d i + d (q + 1 + 1) := by
    rw [Averages.sum_Icc_eq_sum_range _ 0, Averages.sum_Icc_eq_sum_range _ 1, Nat.sub_zero,
      Finset.sum_range_succ, Nat.add_sub_cancel]
    refine congrArg₂ (· + ·) (Finset.sum_congr rfl fun j _ => congrArg d (by omega)) ?_
    exact congrArg d (by omega)
  rw [exponentialAverage, exponentialAverage, Averages.sum_Icc_eq_sum_range _ (q + 1) (n + 1),
    Averages.sum_Icc_eq_sum_range _ (q + 1) n, show n + 1 - (q + 1) = n - (q + 1) + 1 by omega,
    Finset.sum_range_succ', Finset.sum_congr rfl hlater, hwith, hwithout,
    show n + 1 - (q + 1 + 1 + 0) = n - (q + 1) by omega, pow_succ]
  push_cast
  have hq : (q : ℚ) + 1 ≠ 0 := by positivity
  have hq' : (q : ℚ) + 1 + 1 ≠ 0 := by positivity
  field_simp
  ring

/-- Leaving out the first sample changes nothing exactly when the samples between the first and the
`(p + 1)`-th lie, on the average, halfway between these two. -/
theorem exponentialAverage_succ_iff {p n : ℕ} (hp : 1 ≤ p) (hpn : p ≤ n) (d : ℕ → ℚ) :
    exponentialAverage p (fun i => d (1 + i)) n = exponentialAverage p d (n + 1) ↔
      2 * ∑ i ∈ Finset.Icc 2 p, d i = (p - 1) * (d 1 + d (p + 1)) := by
  rw [← sub_eq_zero, exponentialAverage_succ_sub hp hpn, ← sub_eq_zero (a := 2 * _)]
  rcases Nat.eq_or_lt_of_le hp with rfl | hp2
  · simp
  · have hp0 : (0 : ℚ) < p := by exact_mod_cast hp
    have hcast : (2 : ℚ) ≤ p := by exact_mod_cast hp2
    have hr : (1 - 2 / (p + 1) : ℚ) ≠ 0 := by
      have hlt : (2 / (p + 1) : ℚ) < 1 := by
        rw [div_lt_one (by positivity)]
        linarith
      exact (sub_pos.mpr hlt).ne'
    rw [mul_eq_zero, div_eq_zero_iff]
    constructor
    · rintro (h | h | h)
      · exact absurd h (pow_ne_zero _ hr)
      · exact h
      · exact absurd h (by positivity)
    · intro h
      exact .inr (.inl h)

/-! ## The value of the code -/

namespace EMA

/-- The value of an EMA within a run. -/
theorem value_writeCloses_take {period : UInt64} {closes : List ℚ} {t : ℕ}
    (hp : period.toNat ≤ t) (ht : t ≤ closes.length) :
    ((ofPeriod period).writeCloses (closes.take t)).value
      = exponentialAverage period.toNat (fun i => closes.getD (i - 1) 0) t := by
  have hlength : (closes.take t).length = t := by
    rw [List.length_take, min_eq_left ht]
  have hclosed := exponentialAverage_getD (hp.trans_eq hlength.symm)
  rw [value_writeCloses period (hp.trans_eq hlength.symm), ← hclosed, hlength]
  refine exponentialAverage_congr hp fun i h1 hi => ?_
  rw [List.getD_eq_getElem?_getD, List.getD_eq_getElem?_getD, List.getElem?_take_of_lt (by omega)]

end EMA

namespace MACD

section Signal

variable (fast slow signal : UInt64)

/-- The values written to the signal EMA over the closes: one for each bar after the first
`max fast slow`. -/
def signalInputs (closes : List ℚ) : List ℚ :=
  let k := max fast.toNat slow.toNat
  (List.range' (k + 1) (closes.length - k)).map fun t =>
    ((EMA.ofPeriod fast).writeCloses (closes.take t)).value
      - ((EMA.ofPeriod slow).writeCloses (closes.take t)).value

theorem length_signalInputs (closes : List ℚ) :
    (signalInputs fast slow closes).length = closes.length - max fast.toNat slow.toNat := by
  rw [signalInputs, List.length_map, List.length_range']

theorem signalInputs_concat (closes : List ℚ) (close : ℚ) :
    signalInputs fast slow (closes ++ [close])
      = if max fast.toNat slow.toNat ≤ closes.length then
          signalInputs fast slow closes
            ++ [((EMA.ofPeriod fast).writeCloses (closes ++ [close])).value
                - ((EMA.ofPeriod slow).writeCloses (closes ++ [close])).value]
        else
          signalInputs fast slow closes := by
  unfold signalInputs
  simp only [List.length_append, List.length_singleton]
  split
  · rename_i hk
    rw [Nat.sub_add_comm hk, List.range'_1_concat, List.map_append, List.map_singleton,
      show max fast.toNat slow.toNat + 1 + (closes.length - max fast.toNat slow.toNat)
        = (closes ++ [close]).length by simp; omega, List.take_length]
    refine congrArg (· ++ _) (List.map_congr_left fun t ht => ?_)
    rw [List.mem_range'_1] at ht
    rw [List.take_append_of_le_length (by omega)]
  · rename_i hk
    rw [show closes.length + 1 - max fast.toNat slow.toNat = 0 by omega,
      show closes.length - max fast.toNat slow.toNat = 0 by omega]
    rfl

/-- The signal EMA is an EMA of these values. -/
theorem signalEma_eq (bars : List (OHLCV ℚ)) :
    ((ofPeriods fast slow signal).writeAll bars).signalEma
      = (EMA.ofPeriod signal).writeCloses (signalInputs fast slow (bars.map OHLCV.close)) := by
  induction bars using List.reverseRecOn with
  | nil => simp [ofPeriods, signalInputs]
  | append_singleton bars bar ih =>
    have hfast := EMA.isReady_writeCloses fast (bars.map OHLCV.close)
    have hslow := EMA.isReady_writeCloses slow (bars.map OHLCV.close)
    have hready : (((ofPeriods fast slow signal).writeAll bars).fastEma.isReady
        && ((ofPeriods fast slow signal).writeAll bars).slowEma.isReady) = true ↔
          max fast.toNat slow.toNat ≤ (bars.map OHLCV.close).length := by
      rw [Bool.and_eq_true, fastEma_writeAll, slowEma_writeAll, hfast, hslow]
      omega
    rw [writeAll_concat, List.map_append, List.map_singleton, signalInputs_concat]
    unfold written
    simp only [hready, ih]
    split
    · rw [EMA.writeCloses_concat, EMA.writeCloses_concat, EMA.writeCloses_concat, fastEma_writeAll,
        slowEma_writeAll]
      rfl
    · rfl

variable {fast slow signal}

/-- They are the MACD line from its second value on. -/
theorem getD_signalInputs {closes : List ℚ} {i : ℕ} (h1 : 1 ≤ i)
    (hi : i ≤ closes.length - max fast.toNat slow.toNat) :
    (signalInputs fast slow closes).getD (i - 1) 0
      = macdLine fast.toNat slow.toNat (fun i => closes.getD (i - 1) 0)
          (max fast.toNat slow.toNat + i) := by
  have hlt : i - 1 < (signalInputs fast slow closes).length := by
    rw [length_signalInputs]
    omega
  rw [List.getD_eq_getElem _ _ hlt]
  simp only [signalInputs, List.getElem_map, List.getElem_range']
  rw [show max fast.toNat slow.toNat + 1 + 1 * (i - 1) = max fast.toNat slow.toNat + i by omega,
    EMA.value_writeCloses_take (by omega) (by omega), EMA.value_writeCloses_take (by omega) (by omega)]
  rfl

/-- The values of a ready MACD. -/
theorem values_writeAll {bars : List (OHLCV ℚ)}
    (h : max fast.toNat slow.toNat + signal.toNat ≤ bars.length) :
    let m := (ofPeriods fast slow signal).writeAll bars
    let k := max fast.toNat slow.toNat
    let line := macdLine fast.toNat slow.toNat fun i => (bars.map OHLCV.close).getD (i - 1) 0
    m.fastEma.value - m.slowEma.value = line bars.length ∧
      m.signalEma.value = exponentialAverage signal.toNat (fun i => line (k + i)) (bars.length - k) := by
  intro m k line
  have hinputs : (signalInputs fast slow (bars.map OHLCV.close)).length = bars.length - k := by
    rw [length_signalInputs, List.length_map]
  have hline : m.fastEma.value - m.slowEma.value = line bars.length := by
    show ((ofPeriods fast slow signal).writeAll bars).fastEma.value
      - ((ofPeriods fast slow signal).writeAll bars).slowEma.value = _
    have htake : (bars.map OHLCV.close).take bars.length = bars.map OHLCV.close :=
      List.take_of_length_le (by simp)
    rw [fastEma_writeAll, slowEma_writeAll, ← htake,
      EMA.value_writeCloses_take (by omega) (by simp),
      EMA.value_writeCloses_take (by omega) (by simp)]
    rfl
  refine ⟨hline, ?_⟩
  have hle : signal.toNat ≤ (signalInputs fast slow (bars.map OHLCV.close)).length := by
    rw [hinputs]
    omega
  show ((ofPeriods fast slow signal).writeAll bars).signalEma.value = _
  rw [signalEma_eq, EMA.value_writeCloses signal hle, ← exponentialAverage_getD hle, hinputs]
  refine exponentialAverage_congr (by omega) fun i h1 hi => ?_
  exact getD_signalInputs h1 (by rw [List.length_map]; exact hi)

/-- The bars one after another: `write` never throws. -/
theorem writeBars_ofPeriods (bars : List (OHLCV ℚ)) :
    (OHLCVIndicator.macd (ofPeriods fast slow signal)).writeBars bars
      = .ok (.macd ((ofPeriods fast slow signal).writeAll bars)) := by
  rw [OHLCVIndicator.writeBars_eq, OHLCVIndicator.after_macd]

/-- Written any bars, a MACD does not throw, and its two inner EMAs are ready when they are read. It is
ready exactly from bar `max fast slow + signal` on, for a positive signal period, can be read exactly
when it is ready, and then reads the MACD line and the difference of the MACD line and the signal. -/
theorem reads_macdLine (hsignal : 1 ≤ signal.toNat) (bars : List (OHLCV ℚ)) :
    ∃ m, (OHLCVIndicator.macd (ofPeriods fast slow signal)).writeBars bars = .ok (.macd m) ∧
      (m.fastEma.isReady && m.slowEma.isReady → ∀ bar : OHLCV ℚ,
        (m.fastEma.write bar).isReady = true ∧ (m.slowEma.write bar).isReady = true) ∧
      (m.isReady = true ↔ max fast.toNat slow.toNat + signal.toNat ≤ bars.length) ∧
      ((∃ error, m.read = .error error) ↔ ¬ m.isReady = true) ∧
      (m.isReady = true → ∃ snapshot macd signal, m.read = .ok snapshot ∧
        snapshot.find? "macd" = some macd ∧ snapshot.find? "signal" = some signal ∧
        snapshot.find? "histogram" = some (macd - signal) ∧
        macd = exponentialAverage fast.toNat (fun i => (bars.map OHLCV.close).getD (i - 1) 0) bars.length
          - exponentialAverage slow.toNat (fun i => (bars.map OHLCV.close).getD (i - 1) 0)
              bars.length) := by
  refine ⟨_, writeBars_ofPeriods bars, ?_, isReady_writeAll fast slow signal bars hsignal, ?_, ?_⟩
  · intro hready bar
    rw [Bool.and_eq_true] at hready
    exact ⟨EMA.isReady_writeClose hready.1 _, EMA.isReady_writeClose hready.2 _⟩
  · constructor
    · rintro ⟨error, herror⟩ hready
      rw [read_of_isReady hready] at herror
      cases herror
    · intro hready
      exact ⟨_, by rw [read, eq_false_of_ne_true hready]; rfl⟩
  · intro hready
    have hlength := (isReady_writeAll fast slow signal bars hsignal).mp hready
    exact ⟨_, _, _, read_of_isReady hready, rfl, rfl, rfl, (values_writeAll hlength).1⟩

/-- Fast period 1, slow period 2, signal period 1. -/
theorem reads_macdLine_one_two_one :
    ∃ m, (OHLCVIndicator.macd (ofPeriods 1 2 1)).writeBars
        [⟨1, 1, 1, 1, 0⟩, ⟨3, 3, 3, 3, 0⟩, ⟨3, 3, 3, 3, 0⟩] = .ok (.macd m) ∧ m.isReady = true := by
  obtain ⟨m, hm, -, hready, -⟩ := @reads_macdLine 1 2 1 (by decide)
    [⟨1, 1, 1, 1, 0⟩, ⟨3, 3, 3, 3, 0⟩, ⟨3, 3, 3, 3, 0⟩]
  exact ⟨m, hm, hready.mpr (by decide)⟩

/-- The readings of `m` show the signal line of the closes, and the MACD line above it. -/
def ShowsSignalLine (fast slow signal : UInt64) (closes : List ℚ) (m : MACD) : Prop :=
  let c := fun i => closes.getD (i - 1) 0
  let whole := signalLine fast.toNat slow.toNat signal.toNat c closes.length
  ∃ snapshot, m.read = .ok snapshot ∧ snapshot.find? "signal" = some whole ∧
    snapshot.find? "histogram" = some (macdLine fast.toNat slow.toNat c closes.length - whole)

theorem showsSignalLine_iff {closes : List ℚ} {m : MACD} (hready : m.isReady = true)
    (hline : m.fastEma.value - m.slowEma.value
      = macdLine fast.toNat slow.toNat (fun i => closes.getD (i - 1) 0) closes.length) :
    m.ShowsSignalLine fast slow signal closes ↔
      m.signalEma.value = signalLine fast.toNat slow.toNat signal.toNat
        (fun i => closes.getD (i - 1) 0) closes.length := by
  constructor
  · rintro ⟨snapshot, hread, hsignal, -⟩
    rw [read_of_isReady hready] at hread
    cases hread
    exact Option.some.inj hsignal
  · intro hsignal
    refine ⟨_, read_of_isReady hready, ?_, ?_⟩
    · rw [← hsignal]
      rfl
    · rw [← hsignal, ← hline]
      rfl

/-- The signal line misses no value of the MACD line if and only if the `signal - 1` values after its
first one lie, on the average, halfway between the first one and the one after them. -/
theorem showsSignalLine_writeBars_iff (hfast : 1 ≤ fast.toNat) (hsignal : 1 ≤ signal.toNat)
    {bars : List (OHLCV ℚ)} {m : MACD}
    (hrun : (OHLCVIndicator.macd (ofPeriods fast slow signal)).writeBars bars = .ok (.macd m))
    (hready : m.isReady = true) :
    let line := macdLine fast.toNat slow.toNat fun i => (bars.map OHLCV.close).getD (i - 1) 0
    let k := max fast.toNat slow.toNat
    m.ShowsSignalLine fast slow signal (bars.map OHLCV.close) ↔
      2 * ∑ t ∈ Finset.Icc (k + 1) (k + signal.toNat - 1), line t
        = (signal.toNat - 1) * (line k + line (k + signal.toNat)) := by
  intro line k
  rw [writeBars_ofPeriods] at hrun
  cases hrun
  have hlength := (isReady_writeAll fast slow signal bars hsignal).mp hready
  obtain ⟨hline, hvalue⟩ := values_writeAll hlength
  have hbars : (bars.map OHLCV.close).length = bars.length := List.length_map _
  -- the `i`-th value of the MACD line, and the `i`-th that the signal EMA is written
  have hinput : ∀ i, k + i = k - 1 + (1 + i) := by
    intro i
    omega
  have hsum : ∑ i ∈ Finset.Icc 2 signal.toNat, line (k - 1 + i)
      = ∑ t ∈ Finset.Icc (k + 1) (k + signal.toNat - 1), line t := by
    rw [Averages.sum_Icc_eq_sum_range _ 1, Averages.sum_Icc_eq_sum_range _ k,
      show k + signal.toNat - 1 - k = signal.toNat - 1 by omega]
    exact Finset.sum_congr rfl fun j _ => congrArg line (by omega)
  have hdropped := exponentialAverage_succ_iff hsignal (by omega : signal.toNat ≤ bars.length - k)
    fun i => line (k - 1 + i)
  simp only [← hinput, hsum, show k - 1 + 1 = k by omega,
    show k - 1 + (signal.toNat + 1) = k + signal.toNat by omega] at hdropped
  rw [showsSignalLine_iff hready (by rw [hbars]; exact hline), hvalue, signalLine, hbars, ← hdropped,
    show bars.length - (k - 1) = bars.length - k + 1 by omega]

/-- On closes that stay the same the missing value does not show. -/
theorem showsSignalLine_constant :
    ((ofPeriods 1 2 2).writeAll (List.replicate 4 ⟨1, 1, 1, 1, 0⟩)).ShowsSignalLine 1 2 2
      [1, 1, 1, 1] := by
  have hready : ((ofPeriods 1 2 2).writeAll (List.replicate 4 ⟨1, 1, 1, 1, 0⟩)).isReady = true :=
    (isReady_writeAll 1 2 2 _ (by decide)).mpr (by decide)
  exact (@showsSignalLine_writeBars_iff 1 2 2 (by decide) (by decide)
    (List.replicate 4 ⟨1, 1, 1, 1, 0⟩) _ (writeBars_ofPeriods _) hready).mpr (by decide +kernel)

/-- The closes 1, 3, 3, 3 with the periods 1, 2 and 2. The MACD line is 1, 1/3, 1/9, and the signal EMA
is written 1/3 and 1/9 only. -/
theorem signal_misses_first_value :
    ∃ m, (OHLCVIndicator.macd (ofPeriods 1 2 2)).writeBars
        [⟨1, 1, 1, 1, 0⟩, ⟨3, 3, 3, 3, 0⟩, ⟨3, 3, 3, 3, 0⟩, ⟨3, 3, 3, 3, 0⟩] = .ok (.macd m) ∧
      m.isReady = true ∧ m.signalEma.value = 2 / 9 ∧
      signalLine 1 2 2 (fun i => [1, 3, 3, 3].getD (i - 1) 0) 4 = 8 / 27 ∧
      ¬ m.ShowsSignalLine 1 2 2 [1, 3, 3, 3] := by
  have hready : ((ofPeriods 1 2 2).writeAll
      [⟨1, 1, 1, 1, 0⟩, ⟨3, 3, 3, 3, 0⟩, ⟨3, 3, 3, 3, 0⟩, ⟨3, 3, 3, 3, 0⟩]).isReady = true :=
    (isReady_writeAll 1 2 2 _ (by decide)).mpr (by decide)
  refine ⟨_, writeBars_ofPeriods _, hready, by decide +kernel, by decide +kernel, ?_⟩
  rw [showsSignalLine_iff hready (by decide +kernel)]
  decide +kernel

end Signal

end MACD

end MacdTradingBot
