import MacdTradingBot.Lib.Intervals
import MacdTradingBot.Market.Coverage
import MacdTradingBot.Timestamps.Overflow

/-!
# Adjacent bars

`isConsecutive` compares ends; what it is for is a relation of intervals (`Adjoin`). The two agree for the
bars whose ends fit in 64 bits, in the arithmetic of the source and, where the length of a bar fits too, in
any.
-/

namespace MacdTradingBot

open Bits64

variable {P : Type} {Count Count1 Count2 : ℕ} {TimeUnit TimeUnit1 TimeUnit2 : ChronoDuration}

namespace Bar

/-- The nanosecond in which the bar begins. -/
def start (b : Bar P Count TimeUnit) : ℤ := b.timestamp * TimeUnit.nanos

/-- The nanoseconds that the bar lasts. -/
def length (_ : Bar P Count TimeUnit) : ℤ := Count * TimeUnit.nanos

/-- The first nanosecond after the bar. -/
def finish (b : Bar P Count TimeUnit) : ℤ := b.start + b.length

/-- The time of the bar. -/
def span (b : Bar P Count TimeUnit) : Set ℤ := Set.Ico b.start b.finish

/-- Both ends are `int64_t` nanoseconds. -/
structure FitsClock (b : Bar P Count TimeUnit) : Prop where
  start : Fits b.start
  finish : Fits b.finish

theorem start_lt_finish (h : 0 < Count) (b : Bar P Count TimeUnit) : b.start < b.finish :=
  lt_add_of_pos_right _ (mul_pos (by exact_mod_cast h) TimeUnit.nanos_pos)

theorem durationTicks_of_fits {b : Bar P Count TimeUnit} (h : Fits b.length) :
    durationTicks Count = Count := by
  have hle : (Count : ℤ) ≤ b.length :=
    le_mul_of_one_le_right (Int.natCast_nonneg _) TimeUnit.nanos_pos
  have hlt := h.2
  exact durationTicks_of_lt (by omega)

end Bar

/-! ## The ends that are compared -/

/-- Nothing overflows when the length of the bar fits. -/
theorem spanWith_of_fits {fit : Arithmetic} (hfit : Faithful fit) {b : Bar P Count TimeUnit}
    (hb : b.FitsClock) (hlength : Fits b.length) : spanWith fit b = some (b.start, b.finish) := by
  rw [spanWith, durationCast_nanoseconds, durationCast_nanoseconds, Bar.duration,
    Bar.durationTicks_of_fits hlength]
  change (fit b.start).bind (fun start => (fit b.length).bind fun length => _) = _
  rw [hfit _ hb.start, Option.bind_some, hfit _ hlength, Option.bind_some]
  change (fit b.finish).bind _ = _
  rw [hfit _ hb.finish]
  rfl

theorem durationTicks_mul_bmod (n : ℕ) (ticks : ℤ) :
    (durationTicks n * ticks).bmod (2 ^ 64) = (n * ticks).bmod (2 ^ 64) :=
  Int.bmod_mul_bmod

/-- A length that wraps around is made up for by the sum. -/
theorem spanWith_wraps {b : Bar P Count TimeUnit} (hb : b.FitsClock) :
    spanWith wraps b = some (b.start, b.finish) := by
  have hsum : (b.start + (durationTicks Count * TimeUnit.nanos).bmod (2 ^ 64)).bmod (2 ^ 64)
      = b.finish.bmod (2 ^ 64) := by
    rw [Int.add_bmod_bmod, Int.add_bmod, durationTicks_mul_bmod, ← Int.add_bmod]
    rfl
  rw [bmod_of_fits hb.finish] at hsum
  rw [spanWith, durationCast_nanoseconds, durationCast_nanoseconds, Bar.duration]
  change (wraps b.start).bind _ = _
  rw [faithful_wraps _ hb.start, Option.bind_some]
  simp only [wraps, Option.bind_some, hsum]

/-- The comparison, of the ends that the bars have. -/
theorem isConsecutiveWith_of_span {fit : Arithmetic} {a : Bar P Count1 TimeUnit1}
    {b : Bar P Count2 TimeUnit2} (ha : spanWith fit a = some (a.start, a.finish))
    (hb : spanWith fit b = some (b.start, b.finish)) : isConsecutiveWith fit a b
      = some (decide (a.symbol = b.symbol ∧ (a.finish = b.start ∨ b.finish = a.start))) := by
  unfold isConsecutiveWith
  by_cases hsymbol : a.symbol = b.symbol
  · rw [if_neg (not_not.mpr hsymbol), ha, hb]
    simp [hsymbol, Bool.beq_eq_decide_eq]
  · rw [if_pos hsymbol]
    simp [hsymbol]

/-! ## Adjacency -/

/-- What `isConsecutive` is for: it says whether two bars of one symbol adjoin. -/
structure DecidesAdjacency (fit : Arithmetic) (a : Bar P Count1 TimeUnit1) (b : Bar P Count2 TimeUnit2) :
    Prop where
  adjoin : ∃ result, isConsecutiveWith fit a b = some result ∧
    (result = true ↔ a.symbol = b.symbol ∧ Adjoin a.span b.span)
  symm : isConsecutiveWith fit b a = isConsecutiveWith fit a b
  irrefl : isConsecutiveWith fit a a = some false
  overlapping : ¬ Disjoint a.span b.span → isConsecutiveWith fit a b = some false
  separated : a.finish < b.start ∨ b.finish < a.start → isConsecutiveWith fit a b = some false

theorem decidesAdjacency_of_span {fit : Arithmetic} (h1 : 0 < Count1) (h2 : 0 < Count2)
    {a : Bar P Count1 TimeUnit1} {b : Bar P Count2 TimeUnit2}
    (ha : spanWith fit a = some (a.start, a.finish)) (hb : spanWith fit b = some (b.start, b.finish)) :
    DecidesAdjacency fit a b := by
  have hapos := a.start_lt_finish h1
  have hbpos := b.start_lt_finish h2
  have hresult := isConsecutiveWith_of_span ha hb
  refine ⟨⟨_, hresult, ?_⟩, ?_, ?_, ?_, ?_⟩
  · rw [decide_eq_true_iff]
    exact and_congr_right' (adjoin_Ico_iff hapos hbpos).symm
  · rw [hresult, isConsecutiveWith_of_span hb ha, Option.some.injEq, decide_eq_decide, or_comm, eq_comm]
  · rw [isConsecutiveWith_of_span ha ha, Option.some.injEq, decide_eq_false_iff_not]
    rintro ⟨-, hends⟩
    omega
  · intro hoverlap
    rw [hresult, Option.some.injEq, decide_eq_false_iff_not]
    rintro ⟨-, hends⟩
    exact hoverlap ((adjoin_Ico_iff hapos hbpos).mpr hends).disjoint
  · intro hgap
    rw [hresult, Option.some.injEq, decide_eq_false_iff_not]
    rintro ⟨-, hends⟩
    omega

/-- For all bars whose ends fit in 64 bits, of any lengths and units: the source decides adjacency. Where
the lengths fit too it does so without an overflow, and is the comparison of the model. -/
theorem isConsecutive_decides_adjacency (h1 : 0 < Count1) (h2 : 0 < Count2) {a : Bar P Count1 TimeUnit1}
    {b : Bar P Count2 TimeUnit2} (ha : a.FitsClock) (hb : b.FitsClock) :
    DecidesAdjacency wraps a b ∧
      (Fits a.length → Fits b.length → DecidesAdjacency traps a b ∧
        isConsecutiveWith wraps a b = some (isConsecutive a b)) := by
  refine ⟨decidesAdjacency_of_span h1 h2 (spanWith_wraps ha) (spanWith_wraps hb), fun hla hlb => ?_⟩
  have htraps : Faithful traps := fun n hn => if_pos hn
  refine ⟨decidesAdjacency_of_span h1 h2 (spanWith_of_fits htraps ha hla)
    (spanWith_of_fits htraps hb hlb), ?_⟩
  rw [← isConsecutiveWith_exact, isConsecutiveWith_of_span (spanWith_wraps ha) (spanWith_wraps hb),
    isConsecutiveWith_of_span (spanWith_of_fits faithful_exact ha hla)
      (spanWith_of_fits faithful_exact hb hlb)]

/-- Five minutes and the hour after them. -/
theorem isConsecutive_five_minutes_hour :
    DecidesAdjacency wraps (⟨"AAPL", ⟨1, 1, 1, 1, 1⟩, 55⟩ : Bar ℕ 5 .minutes)
        (⟨"AAPL", ⟨1, 1, 1, 1, 1⟩, 1⟩ : Bar ℕ 1 .hours) ∧
      isConsecutive (⟨"AAPL", ⟨1, 1, 1, 1, 1⟩, 55⟩ : Bar ℕ 5 .minutes)
        (⟨"AAPL", ⟨1, 1, 1, 1, 1⟩, 1⟩ : Bar ℕ 1 .hours) = true :=
  ⟨(isConsecutive_decides_adjacency (by decide) (by decide) ⟨by decide, by decide⟩
    ⟨by decide, by decide⟩).1, by decide⟩

end MacdTradingBot
