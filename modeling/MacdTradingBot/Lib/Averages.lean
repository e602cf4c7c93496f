import Mathlib.Algebra.BigOperators.Intervals
import Mathlib.Algebra.Order.BigOperators.Ring.Finset
import Mathlib.Algebra.Order.Field.Basic
import Mathlib.Data.Finset.Max
import Mathlib.Data.List.GetD
import Mathlib.Data.List.Induction
import Mathlib.Tactic.Ring

/-!
# Running averages

Two averages that are computed from one number and the next sample: the mean of a list (`mean_concat`),
and exponential smoothing (`smooth`), which mixes each sample in with a constant weight. `smooth_eq_sum`
is the closed form of the latter. Both stay between the bounds of what they average.
-/

namespace MacdTradingBot.Averages

variable {K : Type*} [Field K]

/-- The mean of a list, zero for the empty one. -/
def mean (l : List K) : K := l.sum / l.length

/-- Exponential smoothing with weight `a`, from the value `v`. -/
def smooth (a v : K) (l : List K) : K := l.foldl (fun v x => (1 - a) * v + a * x) v

@[simp]
theorem mean_nil : mean ([] : List K) = 0 := by
  simp [mean]

@[simp]
theorem smooth_nil (a v : K) : smooth a v [] = v := rfl

/-- The last value is mixed in last. -/
theorem smooth_concat (a v : K) (l : List K) (x : K) :
    smooth a v (l ++ [x]) = (1 - a) * smooth a v l + a * x := by
  simp [smooth]

/-- The closed form: the weight of a sample shrinks by `1 - a` with each sample after it. -/
theorem smooth_eq_sum (a v : K) (l : List K) :
    smooth a v l = (1 - a) ^ l.length * v
      + ∑ i ∈ Finset.range l.length, a * (1 - a) ^ (l.length - 1 - i) * l.getD i 0 := by
  induction l using List.reverseRecOn with
  | nil => simp
  | append_singleton l x ih =>
    have hold : ∑ i ∈ Finset.range l.length, a * (1 - a) ^ (l.length - i) * (l ++ [x]).getD i 0
        = (1 - a) * ∑ i ∈ Finset.range l.length, a * (1 - a) ^ (l.length - 1 - i) * l.getD i 0 := by
      rw [Finset.mul_sum]
      refine Finset.sum_congr rfl fun i hi => ?_
      rw [Finset.mem_range] at hi
      rw [List.getD_append _ _ _ _ hi, show l.length - i = (l.length - 1 - i) + 1 by omega, pow_succ]
      ring
    have hnew : (l ++ [x]).getD l.length 0 = x := by simp
    rw [smooth_concat, ih, List.length_append, List.length_singleton, Nat.add_sub_cancel,
      Finset.sum_range_succ, hold, hnew, Nat.sub_self, pow_zero, pow_succ]
    ring

/-- Smoothing what stays the same changes nothing. -/
theorem smooth_replicate (a v : K) (n : ℕ) : smooth a v (List.replicate n v) = v := by
  induction n with
  | zero => rfl
  | succ n ih =>
    rw [List.replicate_succ', smooth_concat, ih]
    ring

/-- The weights in the closed form sum to one. -/
theorem sum_smooth_weights (a : K) (n : ℕ) :
    (1 - a) ^ n + ∑ i ∈ Finset.range n, a * (1 - a) ^ (n - 1 - i) = 1 := by
  have hclosed := smooth_eq_sum a 1 (List.replicate n 1)
  rw [smooth_replicate, List.length_replicate, mul_one] at hclosed
  refine Eq.trans ?_ hclosed.symm
  refine congrArg ((1 - a) ^ n + ·) (Finset.sum_congr rfl fun i hi => ?_)
  rw [List.getD_replicate _ (Finset.mem_range.mp hi), mul_one]

/-! ## Samples counted from one -/

/-- A sum over an interval, counted from zero. -/
theorem sum_Icc_eq_sum_range (f : ℕ → K) (m n : ℕ) :
    ∑ i ∈ Finset.Icc (m + 1) n, f i = ∑ j ∈ Finset.range (n - m), f (m + 1 + j) := by
  rw [← Finset.Ico_add_one_right_eq_Icc, Finset.sum_Ico_eq_sum_range, Nat.add_sub_add_right]

/-- The sum of a list, over its indices. -/
theorem sum_eq_sum_getD (l : List K) : l.sum = ∑ i ∈ Finset.range l.length, l.getD i 0 := by
  induction l with
  | nil => simp
  | cons x l ih => simp [Finset.sum_range_succ', ih, add_comm]

variable [LinearOrder K] [IsStrictOrderedRing K] {a v lo hi : K} {l : List K}

/-- The mean from the mean so far. -/
theorem mean_concat (l : List K) (x : K) :
    mean (l ++ [x]) = (mean l * l.length + x) / (l.length + 1) := by
  have hsum : mean l * l.length = l.sum := by
    rcases List.eq_nil_or_concat' l with rfl | ⟨m, y, rfl⟩
    · simp
    · exact div_mul_cancel₀ _ (Nat.cast_ne_zero.mpr (by simp))
  rw [hsum]
  simp [mean]

/-! ## Bounds -/

omit [Field K] [IsStrictOrderedRing K] in
/-- A list that is not empty has a least and a greatest element. -/
theorem exists_bounds (hne : l ≠ []) :
    ∃ lo ∈ l, ∃ hi ∈ l, ∀ x ∈ l, lo ≤ x ∧ x ≤ hi := by
  obtain ⟨lo, hlo, hmin⟩ := l.toFinset.exists_min_image id (by simpa [List.toFinset_nonempty_iff])
  obtain ⟨hi, hhi, hmax⟩ := l.toFinset.exists_max_image id (by simpa [List.toFinset_nonempty_iff])
  simp only [List.mem_toFinset, id] at hlo hhi hmin hmax
  exact ⟨lo, hlo, hi, hhi, fun x hx => ⟨hmin x hx, hmax x hx⟩⟩

/-- The mean is between the bounds of the values. -/
theorem mean_mem_Icc (hne : l ≠ []) (h : ∀ x ∈ l, x ∈ Set.Icc lo hi) : mean l ∈ Set.Icc lo hi := by
  have hpos : (0 : K) < l.length := Nat.cast_pos.mpr (List.length_pos_iff.mpr hne)
  have hlo : l.length • lo ≤ l.sum := List.card_nsmul_le_sum l lo fun x hx => (h x hx).1
  have hhi : l.sum ≤ l.length • hi := List.sum_le_card_nsmul l hi fun x hx => (h x hx).2
  rw [nsmul_eq_mul] at hlo hhi
  constructor
  · rw [mean, le_div_iff₀ hpos, mul_comm]
    exact hlo
  · rw [mean, div_le_iff₀ hpos, mul_comm]
    exact hhi

/-- So is the smoothed value, whose weights are not negative. -/
theorem smooth_mem_Icc (h0 : 0 ≤ a) (h1 : a ≤ 1) (hv : v ∈ Set.Icc lo hi)
    (h : ∀ x ∈ l, x ∈ Set.Icc lo hi) : smooth a v l ∈ Set.Icc lo hi := by
  induction l using List.reverseRecOn with
  | nil => exact hv
  | append_singleton l x ih =>
    obtain ⟨hlo, hhi⟩ := ih fun y hy => h y (List.mem_append_left _ hy)
    obtain ⟨hxlo, hxhi⟩ := h x (by simp)
    have h1' : 0 ≤ 1 - a := sub_nonneg.mpr h1
    rw [smooth_concat]
    constructor
    · calc lo = (1 - a) * lo + a * lo := by ring
        _ ≤ (1 - a) * smooth a v l + a * x :=
          add_le_add (mul_le_mul_of_nonneg_left hlo h1') (mul_le_mul_of_nonneg_left hxlo h0)
    · calc (1 - a) * smooth a v l + a * x ≤ (1 - a) * hi + a * hi :=
          add_le_add (mul_le_mul_of_nonneg_left hhi h1') (mul_le_mul_of_nonneg_left hxhi h0)
        _ = hi := by ring

end MacdTradingBot.Averages
