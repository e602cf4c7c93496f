import MacdTradingBot.Indicators.EMA
import MacdTradingBot.Lib.Averages
import Mathlib.Algebra.Order.Ring.Rat
import Mathlib.Tactic.Linarith
import Mathlib.Tactic.Positivity

/-!
# What the exponential moving average is

The textbook definition of the average, and that `EMA::write` computes it: the mean of the first
`period` closes, then one smoothing step for each later close.
-/

namespace MacdTradingBot

/-! ## The definition -/

/-- The exponential moving average of period `p` after the closes `c 1`, …, `c n`. -/
def exponentialAverage (p : ℕ) (c : ℕ → ℚ) (n : ℕ) : ℚ :=
  let a : ℚ := 2 / (p + 1)
  (1 - a) ^ (n - p) * ((∑ i ∈ Finset.Icc 1 p, c i) / p)
    + ∑ i ∈ Finset.Icc (p + 1) n, a * (1 - a) ^ (n - i) * c i

/-- The weight of the `i`-th close in it. -/
def closeWeight (p n i : ℕ) : ℚ :=
  let a : ℚ := 2 / (p + 1)
  if i ≤ p then (1 - a) ^ (n - p) / p else a * (1 - a) ^ (n - i)

/-- The smoothing factor is between 0 and 1. -/
theorem two_div_succ_mem (p : ℕ) (hp : 1 ≤ p) : 0 ≤ (2 / (p + 1) : ℚ) ∧ (2 / (p + 1) : ℚ) ≤ 1 := by
  have hpos : (0 : ℚ) < p + 1 := by positivity
  have hcast : (1 : ℚ) ≤ p := by exact_mod_cast hp
  refine ⟨by positivity, ?_⟩
  rw [div_le_one hpos]
  linarith

/-- No weight is negative. -/
theorem closeWeight_nonneg {p : ℕ} (hp : 1 ≤ p) (n i : ℕ) : 0 ≤ closeWeight p n i := by
  obtain ⟨h0, h1⟩ := two_div_succ_mem p hp
  have h1' : (0 : ℚ) ≤ 1 - 2 / (p + 1) := sub_nonneg.mpr h1
  unfold closeWeight
  split
  · exact div_nonneg (pow_nonneg h1' _) (Nat.cast_nonneg p)
  · exact mul_nonneg h0 (pow_nonneg h1' _)

/-- A weighted sum over all closes, cut at the `p`-th. -/
theorem sum_closeWeight_mul {p n : ℕ} (hpn : p ≤ n) (c : ℕ → ℚ) :
    ∑ i ∈ Finset.Icc 1 n, closeWeight p n i * c i = exponentialAverage p c n := by
  have hfirst : ∀ j ∈ Finset.range p, closeWeight p n (0 + 1 + j) * c (0 + 1 + j)
      = (1 - 2 / (p + 1)) ^ (n - p) / p * c (0 + 1 + j) := by
    intro j hj
    rw [Finset.mem_range] at hj
    rw [closeWeight, if_pos (by omega)]
  have hlater : ∀ j ∈ Finset.range (n - p), closeWeight p n (0 + 1 + (p + j)) * c (0 + 1 + (p + j))
      = 2 / (p + 1) * (1 - 2 / (p + 1)) ^ (n - (p + 1 + j)) * c (p + 1 + j) := by
    intro j hj
    rw [show 0 + 1 + (p + j) = p + 1 + j by omega, closeWeight, if_neg (by omega)]
  -- all sums from zero on, and the first one in two parts
  rw [exponentialAverage, Averages.sum_Icc_eq_sum_range _ 0 n, Averages.sum_Icc_eq_sum_range _ 0 p,
    Averages.sum_Icc_eq_sum_range _ p n, Nat.sub_zero, Nat.sub_zero, ← Nat.add_sub_cancel' hpn,
    Finset.sum_range_add, Nat.add_sub_cancel' hpn, Finset.sum_congr rfl hfirst,
    Finset.sum_congr rfl hlater, ← Finset.mul_sum]
  ring

/-- The weights add up to 1. -/
theorem sum_closeWeight {p n : ℕ} (hp : 1 ≤ p) (hpn : p ≤ n) :
    ∑ i ∈ Finset.Icc 1 n, closeWeight p n i = 1 := by
  have hp0 : (p : ℚ) ≠ 0 := by exact_mod_cast (by omega : p ≠ 0)
  have hone := sum_closeWeight_mul hpn fun _ => 1
  simp only [mul_one] at hone
  have hlater : ∀ j ∈ Finset.range (n - p),
      2 / (p + 1) * (1 - 2 / (p + 1) : ℚ) ^ (n - (p + 1 + j)) * 1
        = 2 / (p + 1) * (1 - 2 / (p + 1)) ^ (n - p - 1 - j) := by
    intro j _
    rw [mul_one, show n - (p + 1 + j) = n - p - 1 - j by omega]
  rw [hone, exponentialAverage, Averages.sum_Icc_eq_sum_range _ p n, Finset.sum_congr rfl hlater,
    Finset.sum_const, Nat.card_Icc, Nat.add_sub_cancel, nsmul_one, div_self hp0, mul_one]
  exact Averages.sum_smooth_weights _ _

/-- On a list of closes: the mean of the first `p`, smoothed over the others. -/
theorem exponentialAverage_getD {p : ℕ} {closes : List ℚ} (hp : p ≤ closes.length) :
    exponentialAverage p (fun i => closes.getD (i - 1) 0) closes.length
      = Averages.smooth (2 / (p + 1) : ℚ) (Averages.mean (closes.take p)) (closes.drop p) := by
  have hfirst : ∀ j ∈ Finset.range p, closes.getD (0 + 1 + j - 1) 0 = (closes.take p).getD j 0 := by
    intro j hj
    rw [Finset.mem_range] at hj
    rw [show 0 + 1 + j - 1 = j by omega, List.getD_eq_getElem?_getD, List.getD_eq_getElem?_getD,
      List.getElem?_take_of_lt hj]
  have hlater : ∀ j ∈ Finset.range (closes.length - p),
      2 / (p + 1) * (1 - 2 / (p + 1) : ℚ) ^ (closes.length - (p + 1 + j)) * closes.getD (p + 1 + j - 1) 0
        = 2 / (p + 1) * (1 - 2 / (p + 1)) ^ (closes.length - p - 1 - j) * (closes.drop p).getD j 0 := by
    intro j _
    rw [show closes.length - (p + 1 + j) = closes.length - p - 1 - j by omega,
      show p + 1 + j - 1 = p + j by omega, List.getD_eq_getElem?_getD, List.getD_eq_getElem?_getD,
      List.getElem?_drop]
  rw [exponentialAverage, Averages.smooth_eq_sum, Averages.mean, Averages.sum_eq_sum_getD,
    List.length_take, min_eq_left hp, List.length_drop, Averages.sum_Icc_eq_sum_range _ 0 p,
    Averages.sum_Icc_eq_sum_range _ p, Finset.sum_congr rfl hlater, Nat.sub_zero,
    Finset.sum_congr rfl hfirst]

/-! ## The value of the code -/

namespace EMA

/-- Closes are written one after another. -/
theorem writeCloses_append (e : EMA) (closes more : List ℚ) :
    e.writeCloses (closes ++ more) = (e.writeCloses closes).writeCloses more :=
  List.foldl_append

@[simp]
theorem alpha_writeClose (e : EMA) (close : ℚ) : (e.writeClose close).alpha = e.alpha := by
  unfold writeClose
  split <;> rfl

/-- The smoothing factor stays. -/
theorem alpha_writeCloses (e : EMA) (closes : List ℚ) :
    (e.writeCloses closes).alpha = e.alpha := by
  induction closes using List.reverseRecOn with
  | nil => rfl
  | append_singleton closes close ih => rw [writeCloses_concat, alpha_writeClose, ih]

/-- An EMA that is ready smooths. -/
theorem value_writeClose_of_ready {e : EMA} (h : e.isReady = true) (close : ℚ) :
    (e.writeClose close).value = (1 - e.alpha) * e.value + e.alpha * close := by
  rw [writeClose, if_pos h]
  ring

/-- While the EMA warms up, the new close is the one with number `n + 1`. -/
theorem value_writeClose_of_not_ready {e : EMA} (h : ¬ e.isReady = true) (close : ℚ) :
    (e.writeClose close).value = (e.value * e.n.toNat + close) / (e.n.toNat + 1) := by
  have hlt : e.n.toNat < e.period.toNat := by
    rw [isReady_iff] at h
    omega
  have hn : (e.n + 1).toNat = e.n.toNat + 1 := by
    have hperiod := e.period.toNat_lt
    rw [UInt64.toNat_add, UInt64.toNat_one]
    omega
  rw [writeClose, if_neg h]
  simp only [UInt64.add_sub_cancel, hn, Nat.cast_add, Nat.cast_one]

/-- Up to the `period`-th close the value is the mean. -/
theorem value_warmUp (period : UInt64) {closes : List ℚ} (h : closes.length ≤ period.toNat) :
    ((ofPeriod period).writeCloses closes).value = Averages.mean closes := by
  induction closes using List.reverseRecOn with
  | nil => simp [ofPeriod]
  | append_singleton closes close ih =>
    rw [List.length_append, List.length_singleton] at h
    obtain ⟨-, hn⟩ := counter_writeCloses period closes
    have hwarm : ¬ ((ofPeriod period).writeCloses closes).isReady = true := by
      rw [isReady_writeCloses]
      omega
    rw [writeCloses_concat, value_writeClose_of_not_ready hwarm, ih (by omega), hn,
      min_eq_left (by omega), Averages.mean_concat]

/-- From then on every close is a smoothing step. -/
theorem value_of_ready {e : EMA} (h : e.isReady = true) (closes : List ℚ) :
    (e.writeCloses closes).isReady = true ∧
      (e.writeCloses closes).value = Averages.smooth e.alpha e.value closes := by
  induction closes using List.reverseRecOn with
  | nil => exact ⟨h, rfl⟩
  | append_singleton closes close ih =>
    obtain ⟨hready, hvalue⟩ := ih
    rw [writeCloses_concat, value_writeClose_of_ready hready, hvalue, alpha_writeCloses,
      Averages.smooth_concat]
    exact ⟨isReady_writeClose hready close, rfl⟩

/-- The value is the mean of the first closes, smoothed with the others. -/
theorem value_writeCloses (period : UInt64) {closes : List ℚ} (h : period.toNat ≤ closes.length) :
    ((ofPeriod period).writeCloses closes).value
      = Averages.smooth (2 / (period.toNat + 1) : ℚ) (Averages.mean (closes.take period.toNat))
          (closes.drop period.toNat) := by
  have htake : (closes.take period.toNat).length = period.toNat := by
    rw [List.length_take, min_eq_left h]
  have hready := (isReady_writeCloses period (closes.take period.toNat)).mpr htake.ge
  have halpha : ((ofPeriod period).writeCloses (closes.take period.toNat)).alpha
      = 2 / (period.toNat + 1) := by
    rw [alpha_writeCloses, ofPeriod, smoothingFactor, add_comm (1 : ℚ), Nat.cast_ofNat]
  -- the EMA becomes ready in between
  have hall : (ofPeriod period).writeCloses closes
      = ((ofPeriod period).writeCloses (closes.take period.toNat)).writeCloses
          (closes.drop period.toNat) := by
    rw [← writeCloses_append, List.take_append_drop]
  rw [hall, (value_of_ready hready _).2, halpha, value_warmUp period htake.le]

/-- An EMA of a positive period is ready exactly from the `period`-th close on, can be read exactly when
it is ready, and then reads the exponential moving average of the closes: a weighted mean, with weights
that are not negative and sum to one, between the least and the greatest close. -/
theorem reads_exponentialAverage {period : UInt64} (hperiod : 1 ≤ period.toNat) (closes : List ℚ) :
    let e : EMA := (ofPeriod period).writeCloses closes
    let p := period.toNat
    let n := closes.length
    let c := fun i => closes.getD (i - 1) 0
    let average := exponentialAverage p c n
    (e.isReady = true ↔ p ≤ n) ∧ ((∃ error, e.read = .error error) ↔ ¬ e.isReady = true) ∧
      (p ≤ n → e.read = .ok (.ofList [("ema", average)]) ∧
        average = ∑ i ∈ Finset.Icc 1 n, closeWeight p n i * c i ∧
        (∀ i, 0 ≤ closeWeight p n i) ∧ ∑ i ∈ Finset.Icc 1 n, closeWeight p n i = 1 ∧
        ∃ least ∈ closes, ∃ greatest ∈ closes,
          (∀ close ∈ closes, least ≤ close ∧ close ≤ greatest) ∧
            least ≤ average ∧ average ≤ greatest) := by
  intro e p n c average
  have hready : e.isReady = true ↔ p ≤ n := isReady_writeCloses period closes
  refine ⟨hready, ?_, fun hpn => ?_⟩
  · cases h : e.isReady with
    | true => simp [read, h]
    | false => simp [read, h]
  · have haverage : average = Averages.smooth (2 / (p + 1) : ℚ) (Averages.mean (closes.take p))
        (closes.drop p) := exponentialAverage_getD hpn
    refine ⟨?_, (sum_closeWeight_mul hpn c).symm, closeWeight_nonneg hperiod n,
      sum_closeWeight hperiod hpn, ?_⟩
    · rw [read, hready.mpr hpn, haverage, ← value_writeCloses period hpn]
      rfl
    · have hne : closes ≠ [] := List.ne_nil_of_length_pos (by omega)
      obtain ⟨least, hleast, greatest, hgreatest, hbounds⟩ := Averages.exists_bounds hne
      obtain ⟨h0, h1⟩ := two_div_succ_mem p hperiod
      have htake : closes.take p ≠ [] := by
        apply List.ne_nil_of_length_pos
        rw [List.length_take]
        omega
      refine ⟨least, hleast, greatest, hgreatest, hbounds, ?_⟩
      rw [haverage]
      exact Averages.smooth_mem_Icc h0 h1
        (Averages.mean_mem_Icc htake fun x hx => hbounds x (List.mem_of_mem_take hx))
        fun x hx => hbounds x (List.mem_of_mem_drop hx)

/-- The EMA of period 2 of the closes 1, 2, 6 weighs them 1/6, 1/6 and 2/3. -/
theorem reads_exponentialAverage_period_two :
    ((ofPeriod 2).writeCloses [1, 2, 6]).read = .ok (.ofList [("ema", 9 / 2)]) := by
  have h := ((@reads_exponentialAverage 2 (by decide) [1, 2, 6]).2.2 (by decide)).1
  have haverage : exponentialAverage (2 : UInt64).toNat
      (fun i => ([1, 2, 6] : List ℚ).getD (i - 1) 0) 3 = 9 / 2 := by
    decide +kernel
  exact h.trans (by rw [← haverage]; rfl)

end EMA

end MacdTradingBot
