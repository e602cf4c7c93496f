import MacdTradingBot.Indicators.MACDValue
import MacdTradingBot.Indicators.Scaling

/-!
# The MACD line follows the trend

Two EMAs over the same closes, a fast and a slow one, are compared write by write. Each write mixes the
close into the value with a weight (`EMA.weight`), and the weight of the fast EMA is never below that of
the slow one. On rising closes both values stay below the newest close, so the fast one, which takes
more of it, stays ahead.
-/

namespace MacdTradingBot

namespace EMA

/-- The weight with which the next close is mixed into the value. -/
def weight (e : EMA) : ℚ := if e.isReady then e.alpha else 1 / (e.n.toNat + 1)

/-- A write mixes the close in with its weight. -/
theorem value_writeClose (e : EMA) (close : ℚ) :
    (e.writeClose close).value = (1 - e.weight) * e.value + e.weight * close := by
  unfold weight
  split
  · rename_i hready
    exact value_writeClose_of_ready hready close
  · rename_i hready
    have hn : (e.n.toNat : ℚ) + 1 ≠ 0 := by positivity
    rw [value_writeClose_of_not_ready hready]
    field_simp
    ring

/-- The weight of the next close. -/
theorem weight_writeCloses (period : UInt64) (closes : List ℚ) :
    ((ofPeriod period).writeCloses closes).weight
      = if period.toNat ≤ closes.length then 2 / (period.toNat + 1 : ℚ) else 1 / (closes.length + 1) := by
  have hready := isReady_writeCloses period closes
  obtain ⟨-, hn⟩ := counter_writeCloses period closes
  unfold weight
  simp only [hready]
  split
  · rw [alpha_writeCloses, ofPeriod, smoothingFactor, add_comm (1 : ℚ), Nat.cast_ofNat]
  · rw [hn, min_eq_left (by omega)]

/-- A weight is positive, and at most one. -/
theorem weight_mem {period : UInt64} (hperiod : 1 ≤ period.toNat) (closes : List ℚ) :
    0 < ((ofPeriod period).writeCloses closes).weight ∧
      ((ofPeriod period).writeCloses closes).weight ≤ 1 := by
  rw [weight_writeCloses]
  split
  · exact ⟨by positivity, (two_div_succ_mem _ hperiod).2⟩
  · refine ⟨by positivity, ?_⟩
    rw [div_le_one (by positivity)]
    linarith [(Nat.cast_nonneg closes.length : (0 : ℚ) ≤ closes.length)]

/-- The weight of the faster EMA is not the smaller one, and is the greater one once that EMA is ready. -/
theorem weight_le_weight {fast slow : UInt64} (hlt : fast.toNat < slow.toNat) (closes : List ℚ) :
    ((ofPeriod slow).writeCloses closes).weight ≤ ((ofPeriod fast).writeCloses closes).weight ∧
      (fast.toNat ≤ closes.length →
        ((ofPeriod slow).writeCloses closes).weight < ((ofPeriod fast).writeCloses closes).weight) := by
  have hless : fast.toNat ≤ closes.length →
      ((ofPeriod slow).writeCloses closes).weight < ((ofPeriod fast).writeCloses closes).weight := by
    intro hfast
    rw [weight_writeCloses, weight_writeCloses, if_pos hfast]
    split
    · have hcast : (fast.toNat : ℚ) < slow.toNat := by exact_mod_cast hlt
      rw [div_lt_div_iff_of_pos_left two_pos (by positivity) (by positivity)]
      linarith
    · have hcast : (fast.toNat : ℚ) ≤ closes.length := by exact_mod_cast hfast
      rw [div_lt_div_iff₀ (by positivity) (by positivity)]
      linarith [(Nat.cast_nonneg closes.length : (0 : ℚ) ≤ closes.length)]
  refine ⟨?_, hless⟩
  by_cases hfast : fast.toNat ≤ closes.length
  · exact (hless hfast).le
  · rw [weight_writeCloses, weight_writeCloses, if_neg hfast, if_neg (by omega)]

/-- The first close counts for all. -/
theorem weight_ofPeriod {period : UInt64} (hperiod : 1 ≤ period.toNat) :
    (ofPeriod period).weight = 1 := by
  have hfirst := weight_writeCloses period []
  rw [writeCloses_nil, if_neg (by rw [List.length_nil]; omega)] at hfirst
  rw [hfirst]
  simp

end EMA

/-! ## One write -/

section Mixing

variable {a b u v x : ℚ}

/-- The value that takes more of a sample above both stays ahead. -/
theorem mix_le_mix (hb : b ≤ 1) (hba : b ≤ a) (huv : u ≤ v) (hvx : v ≤ x) :
    (1 - b) * u + b * x ≤ (1 - a) * v + a * x := by
  have hvalue : 0 ≤ (1 - b) * (v - u) := mul_nonneg (by linarith) (by linarith)
  have hsample : 0 ≤ (a - b) * (x - v) := mul_nonneg (by linarith) (by linarith)
  linarith

/-- Who weighs the greater sample more comes out ahead. -/
theorem mix_lt_mix (hb : b ≤ 1) (hba : b < a) (huv : u ≤ v) (hvx : v < x) :
    (1 - b) * u + b * x < (1 - a) * v + a * x := by
  have hvalue : 0 ≤ (1 - b) * (v - u) := mul_nonneg (by linarith) (by linarith)
  have hsample : 0 < (a - b) * (x - v) := mul_pos (by linarith) (by linarith)
  linarith

/-- A mix stays below a sample that is above it. -/
theorem mix_le_sample (ha : a ≤ 1) (hvx : v ≤ x) : (1 - a) * v + a * x ≤ x := by
  have hvalue : 0 ≤ (1 - a) * (x - v) := mul_nonneg (by linarith) (by linarith)
  linarith

end Mixing

/-! ## Rising closes -/

section Trend

variable {fast slow signal : UInt64} {closes : List ℚ}

/-- After rising closes the slow value is at most the fast one, and this at most the newest close. From
the close after the first `fast` on, the slow value is less. -/
theorem values_of_rising (hfast : 1 ≤ fast.toNat) (hlt : fast.toNat < slow.toNat)
    (hrising : closes.Pairwise (· < ·)) :
    let f := (EMA.ofPeriod fast).writeCloses closes
    let s := (EMA.ofPeriod slow).writeCloses closes
    s.value ≤ f.value ∧ (∀ newest ∈ closes.getLast?, f.value ≤ newest) ∧
      (fast.toNat < closes.length → s.value < f.value) := by
  induction closes using List.reverseRecOn with
  | nil => simp [EMA.ofPeriod]
  | append_singleton closes close ih =>
    rw [List.pairwise_append] at hrising
    obtain ⟨hold, -, hnew⟩ := hrising
    obtain ⟨hle, hnewest, -⟩ := ih hold
    obtain ⟨hf0, hf1⟩ := EMA.weight_mem hfast closes
    obtain ⟨-, hs1⟩ := @EMA.weight_mem slow (by omega) closes
    obtain ⟨hweight, hweight'⟩ := EMA.weight_le_weight hlt closes
    simp only [EMA.writeCloses_concat, EMA.value_writeClose, List.getLast?_append,
      List.getLast?_singleton, Option.some_or, Option.mem_def, Option.some.injEq, forall_eq']
    rcases List.eq_nil_or_concat' closes with rfl | ⟨closes, previous, rfl⟩
    · -- both values are the first close
      rw [EMA.writeCloses_nil, EMA.writeCloses_nil, EMA.weight_ofPeriod hfast,
        EMA.weight_ofPeriod (by omega)]
      refine ⟨by simp, by simp, fun hlength => ?_⟩
      rw [List.nil_append, List.length_singleton] at hlength
      omega
    · have hbelow : ((EMA.ofPeriod fast).writeCloses (closes ++ [previous])).value < close :=
        (hnewest previous (by simp)).trans_lt (hnew previous (by simp) close (by simp))
      refine ⟨mix_le_mix hs1 hweight hle hbelow.le, mix_le_sample hf1 hbelow.le, fun hlength => ?_⟩
      rw [List.length_append, List.length_singleton] at hlength
      exact mix_lt_mix hs1 (hweight' (by omega)) hle hbelow

/-! ## Falling closes and closes that stay the same -/

/-- Falling closes are rising ones with the opposite sign. -/
theorem values_of_falling (hfast : 1 ≤ fast.toNat) (hlt : fast.toNat < slow.toNat)
    (hfalling : closes.Pairwise (· > ·)) (hlength : fast.toNat < closes.length) :
    ((EMA.ofPeriod fast).writeCloses closes).value
      < ((EMA.ofPeriod slow).writeCloses closes).value := by
  have hrising : (closes.map (-1 * ·)).Pairwise (· < ·) := by
    rw [List.pairwise_map]
    exact hfalling.imp fun h => by linarith
  have hopposite : ∀ period : UInt64,
      ((EMA.ofPeriod period).writeCloses (closes.map (-1 * ·))).value
        = -1 * ((EMA.ofPeriod period).writeCloses closes).value := by
    intro period
    have hscaled := EMA.writeCloses_scaled (-1) (EMA.ofPeriod period) closes
    rw [EMA.scaled_ofPeriod] at hscaled
    rw [hscaled]
    rfl
  obtain ⟨-, -, hstrict⟩ := values_of_rising hfast hlt hrising
  have hvalues := hstrict (by rw [List.length_map]; exact hlength)
  rw [hopposite, hopposite] at hvalues
  linarith

/-- An EMA that holds `c` keeps it while it is written `c`. -/
theorem EMA.value_writeCloses_of_eq {e : EMA} {c : ℚ} (he : e.value = c)
    (hclose : ∀ close ∈ closes, close = c) : (e.writeCloses closes).value = c := by
  induction closes using List.reverseRecOn with
  | nil => exact he
  | append_singleton closes close ih =>
    have hvalue := ih fun x hx => hclose x (List.mem_append_left _ hx)
    rw [writeCloses_concat, value_writeClose, hvalue, hclose close (by simp)]
    ring

/-- On closes that stay the same the value is the close. -/
theorem EMA.value_of_constant {period : UInt64} (hperiod : 1 ≤ period.toNat) {c : ℚ}
    (hne : closes ≠ []) (hclose : ∀ close ∈ closes, close = c) :
    ((ofPeriod period).writeCloses closes).value = c := by
  obtain ⟨first, rest, rfl⟩ := List.exists_cons_of_ne_nil hne
  have hfirst : ((ofPeriod period).writeClose first).value = c := by
    rw [value_writeClose, weight_ofPeriod hperiod, hclose first (by simp)]
    ring
  have hrest : ∀ close ∈ rest, close = c := fun x hx => hclose x (List.mem_cons_of_mem _ hx)
  show (((ofPeriod period).writeClose first).writeCloses rest).value = c
  exact value_writeCloses_of_eq hfirst hrest

/-- On closes that stay the same the line is zero. -/
theorem MACD.eq_zero_of_mem_signalInputs (hfast : 1 ≤ fast.toNat) (hslow : 1 ≤ slow.toNat) {c : ℚ}
    (hclose : ∀ close ∈ closes, close = c) :
    ∀ value ∈ signalInputs fast slow closes, value = 0 := by
  intro value hvalue
  obtain ⟨t, ht, rfl⟩ := List.mem_map.mp hvalue
  rw [List.mem_range'_1] at ht
  have hne : closes.take t ≠ [] := by
    apply List.ne_nil_of_length_pos
    rw [List.length_take]
    omega
  have htake : ∀ close ∈ closes.take t, close = c := fun close h => hclose close (List.mem_of_mem_take h)
  rw [EMA.value_of_constant hfast hne htake, EMA.value_of_constant hslow hne htake, sub_self]

/-- A ready MACD whose fast period is the shorter one: after rising closes the MACD line is positive,
after falling ones negative, and after closes that stay the same all three readings are zero. -/
theorem macd_follows_trend (hfast : 1 ≤ fast.toNat) (hlt : fast.toNat < slow.toNat)
    (hsignal : 1 ≤ signal.toNat) {bars : List (OHLCV ℚ)} {m : MACD}
    (hrun : (OHLCVIndicator.macd (.ofPeriods fast slow signal)).writeBars bars = .ok (.macd m))
    (hready : m.isReady = true) :
    ∃ snapshot macd signal histogram, m.read = .ok snapshot ∧
      snapshot.find? "macd" = some macd ∧ snapshot.find? "signal" = some signal ∧
      snapshot.find? "histogram" = some histogram ∧
      ((bars.map OHLCV.close).Pairwise (· < ·) → 0 < macd) ∧
      ((bars.map OHLCV.close).Pairwise (· > ·) → macd < 0) ∧
      ∀ c, (∀ close ∈ bars.map OHLCV.close, close = c) → macd = 0 ∧ signal = 0 ∧ histogram = 0 := by
  rw [MACD.writeBars_ofPeriods] at hrun
  cases hrun
  have hlength := (MACD.isReady_writeAll fast slow signal bars hsignal).mp hready
  have hbars : (bars.map OHLCV.close).length = bars.length := List.length_map _
  refine ⟨_, _, _, _, MACD.read_of_isReady hready, rfl, rfl, rfl, ?_⟩
  rw [MACD.fastEma_writeAll, MACD.slowEma_writeAll, MACD.signalEma_eq]
  refine ⟨fun hrising => ?_, fun hfalling => ?_, fun c hclose => ?_⟩
  · obtain ⟨-, -, hstrict⟩ := values_of_rising hfast hlt hrising
    exact sub_pos.mpr (hstrict (by omega))
  · exact sub_neg.mpr (values_of_falling hfast hlt hfalling (by omega))
  · have hne : bars.map OHLCV.close ≠ [] := List.ne_nil_of_length_pos (by omega)
    have hline : ((EMA.ofPeriod fast).writeCloses (bars.map OHLCV.close)).value
        - ((EMA.ofPeriod slow).writeCloses (bars.map OHLCV.close)).value = 0 := by
      rw [EMA.value_of_constant hfast hne hclose, EMA.value_of_constant (by omega) hne hclose, sub_self]
    have hvalue : ((EMA.ofPeriod signal).writeCloses
        (MACD.signalInputs fast slow (bars.map OHLCV.close))).value = 0 :=
      EMA.value_writeCloses_of_eq rfl (MACD.eq_zero_of_mem_signalInputs hfast (by omega) hclose)
    rw [hline, hvalue]
    exact ⟨rfl, rfl, sub_zero 0⟩

/-- The closes 1, 2, 3 with the periods 1, 2 and 1. -/
theorem macd_follows_trend_rising :
    ∃ snapshot macd, ((MACD.ofPeriods 1 2 1).writeAll
      [⟨1, 1, 1, 1, 0⟩, ⟨2, 2, 2, 2, 0⟩, ⟨3, 3, 3, 3, 0⟩]).read = .ok snapshot ∧
        snapshot.find? "macd" = some macd ∧ 0 < macd := by
  have hready : ((MACD.ofPeriods 1 2 1).writeAll
      [⟨1, 1, 1, 1, 0⟩, ⟨2, 2, 2, 2, 0⟩, ⟨3, 3, 3, 3, 0⟩]).isReady = true :=
    (MACD.isReady_writeAll 1 2 1 _ (by decide)).mpr (by decide)
  obtain ⟨snapshot, macd, -, -, hread, hmacd, -, -, hrising, -⟩ := @macd_follows_trend 1 2 1 (by decide)
    (by decide) (by decide) _ _ (MACD.writeBars_ofPeriods _) hready
  exact ⟨snapshot, macd, hread, hmacd, hrising (by decide +kernel)⟩

end Trend

end MacdTradingBot
