import MacdTradingBot.Market.Chronology

/-!
# The divisibility check

`on_bar` asserts at compile time that the aggregated duration is a multiple of the input duration, but it
compares the tick counts of two durations in different units, and the count of `Bar1min` is 1.
`dividesEvenly` says that the assertion always holds, and `checkSound_iff` which windows have the length
that their type says.
-/

namespace MacdTradingBot

variable {P : Type} [LinearOrder P] {σ : Type} {Count : ℕ} {TimeUnit : ChronoDuration}

open BarAggregator

/-- The condition of the `static_assert`: `target_duration.count() % input_duration.count() == 0`. -/
def DividesEvenly (Count : ℕ) (_TimeUnit : ChronoDuration) : Prop :=
  (durationTicks Count).tmod (durationTicks 1) = 0

theorem dividesEvenly (Count : ℕ) (TimeUnit : ChronoDuration) : DividesEvenly Count TimeUnit := by
  have hone : durationTicks 1 = 1 := durationTicks_of_lt (by norm_num)
  rw [DividesEvenly, hone, Int.tmod_one]

/-- The duration is a positive whole number of minutes, and this number fits into an `int`. -/
structure WindowFits (Count : ℕ) (TimeUnit : ChronoDuration) : Prop where
  pos : 0 < durationCast TimeUnit .nanoseconds (durationTicks Count)
  dvd : ChronoDuration.minutes.nanos ∣ durationCast TimeUnit .nanoseconds (durationTicks Count)
  lt : durationCast TimeUnit .nanoseconds (durationTicks Count)
    < durationCast .minutes .nanoseconds (2 ^ 31)

/-- `barsNeeded` minute bars, at least one, last exactly the aggregated duration. -/
structure WindowLasts (Count : ℕ) (TimeUnit : ChronoDuration) : Prop where
  pos : 1 ≤ barsNeeded Count TimeUnit
  duration : durationCast .minutes .nanoseconds (barsNeeded Count TimeUnit)
    = durationCast TimeUnit .nanoseconds (durationTicks Count)

theorem windowLasts_iff : WindowLasts Count TimeUnit ↔ WindowFits Count TimeUnit := by
  have hminute : 0 < ChronoDuration.minutes.nanos := ChronoDuration.nanos_pos .minutes
  constructor
  · rintro ⟨hpos, hduration⟩
    have hint : barsNeeded Count TimeUnit < 2 ^ 31 := by
      have hbmod := @Int.bmod_lt ((durationTicks Count * TimeUnit.nanos).tdiv ChronoDuration.minutes.nanos)
        (2 ^ 32) (by norm_num)
      rw [barsNeeded]
      omega
    simp only [durationCast_nanoseconds] at hduration
    refine ⟨?_, ?_, ?_⟩ <;> simp only [durationCast_nanoseconds, ← hduration]
    · exact mul_pos (by omega) hminute
    · exact dvd_mul_left _ _
    · exact mul_lt_mul_of_pos_right hint hminute
  · rintro ⟨hpos, ⟨n, hn⟩, hlt⟩
    simp only [durationCast_nanoseconds] at hpos hn hlt
    rw [hn, Int.mul_comm] at hpos hlt
    have hn1 : 0 < n := pos_of_mul_pos_left hpos hminute.le
    have hn31 : n < 2 ^ 31 := lt_of_mul_lt_mul_right hlt hminute.le
    -- neither the division nor the conversion to `int` loses anything
    have hneeded : barsNeeded Count TimeUnit = n := by
      rw [barsNeeded, hn, Int.mul_tdiv_cancel_left _ hminute.ne']
      exact Int.bmod_eq_of_le (by omega) (by omega)
    exact ⟨by omega, by simp only [durationCast_nanoseconds]; rw [hneeded, hn, Int.mul_comm]⟩

/-! ## Emissions of a run -/

/-- A call emits one bar or nothing, whatever the members are. -/
theorem onBar_world (slot : Subscriber (Bar P Count TimeUnit) σ)
    (agg : BarAggregator P Count TimeUnit) (world : σ) (b : Bar1min P) :
    (onBar slot agg world b).2.2 = world ∨ ∃ bar, (onBar slot agg world b).2.2 = (slot bar world).2 := by
  unfold onBar emitAggregatedBar
  split
  · exact Or.inl rfl
  split
  · exact Or.inl rfl
  rename_i folded _
  dsimp only
  split_ifs
  · cases folded.currentAggregatedBar with
    | none => exact Or.inl rfl
    | some bar =>
      refine Or.inr ⟨bar, ?_⟩
      dsimp only
      generalize slot bar world = r
      obtain ⟨⟨_⟩ | ⟨_⟩, world'⟩ := r <;> rfl
  · exact Or.inl rfl

/-- What was emitted stays emitted. -/
theorem length_log_le (slot : Subscriber (Bar P Count TimeUnit) σ)
    (s : BarAggregator P Count TimeUnit × List (Bar P Count TimeUnit) × σ) (bars : List (Bar1min P)) :
    s.2.1.length ≤ (onBars slot.logged s bars).2.1.length := by
  induction bars using List.reverseRecOn with
  | nil => exact le_rfl
  | append_singleton bars b ih =>
    rw [onBars_concat]
    refine ih.trans ?_
    generalize onBars slot.logged s bars = t
    rcases onBar_world slot.logged t.1 t.2 b with hsame | ⟨bar, hbar⟩
    · rw [hsame]
    · rw [hbar]
      simp [Subscriber.logged]

/-- Bars that pass the guard, as many as the open window is short of, bring an emission. -/
theorem Represents.emits {slot : Subscriber (Bar P Count TimeUnit) σ}
    {s : BarAggregator P Count TimeUnit × List (Bar P Count TimeUnit) × σ} {acc : List (Bar1min P)}
    (h : Represents s.1 acc) (hk : 1 ≤ barsNeeded Count TimeUnit) {run : List (Bar1min P)}
    (hrun : (acc ++ run).IsChain fun a b => isConsecutive a b = true)
    (hlen : barsNeeded Count TimeUnit ≤ s.1.barsInCurrentWindow + run.length) :
    s.2.1.length < (onBars slot.logged s run).2.1.length := by
  induction run generalizing s acc with
  | nil =>
    -- an open window is short of at least one bar
    have hlt := Nat.mod_lt acc.length (show 0 < (barsNeeded Count TimeUnit).toNat by omega)
    rw [← Blocks.length_rest] at hlt
    have hcount := h.count
    simp only [List.length_nil] at hlen
    omega
  | cons b run ih =>
    have haccepts : accepts acc b = true := by
      unfold accepts
      split
      · rfl
      · rename_i last hlast
        exact (List.isChain_append.mp hrun).2.2 last hlast b (by simp)
    have hcall := h.call slot.logged s.2 b
    have hcheck := (checkSequence_of_getLast? h.lastInputBar b).mpr haccepts
    have hlater := length_log_le slot (onBar slot.logged s.1 s.2 b).2 run
    rw [onBars, List.foldl_cons, ← onBars]
    simp only [List.length_cons, Nat.cast_add, Nat.cast_one] at hlen
    generalize onBar slot.logged s.1 s.2 b = r at hcall hlater
    cases hcall with
    | refused hrefused => exact absurd hcheck hrefused
    -- the window is one bar closer to its end
    | folded _ hcount =>
      have hrun' : (acc ++ [b] ++ run).IsChain fun a b => isConsecutive a b = true := by
        rwa [List.append_assoc, List.singleton_append]
      exact @ih ⟨_, s.2⟩ (acc ++ [b]) (h.folded b hcount) hrun' (by simp only; omega)
    | emitted _ _ hslot =>
      have hnew := Subscriber.logged_eq hslot
      simp only [hnew, List.length_append, List.length_singleton] at hlater
      exact hlater
    | thrown _ _ hslot =>
      have hnew := Subscriber.logged_eq hslot
      simp only [hnew, List.length_append, List.length_singleton] at hlater
      exact hlater

/-! ## What the check promises -/

/-- The window has the length that its type says; in every run, whatever the slots do, each emitted bar
summarizes minutes that last its duration; and after any bars that brought no exception, a consecutive
run that lasts the duration brings an emission. -/
structure WindowSound (P σ : Type) [LinearOrder P] (Count : ℕ) (TimeUnit : ChronoDuration) : Prop where
  lasts : WindowLasts Count TimeUnit
  folds : ∀ (slot : Subscriber (Bar P Count TimeUnit) σ) world bars,
    let log := (onBars slot.logged ({}, [], world) bars).2.1
    List.Forall₂ (fun block bar => Summarizes block bar ∧
        durationCast .minutes .nanoseconds block.length = durationCast TimeUnit .nanoseconds bar.duration)
      ((Blocks.complete (barsNeeded Count TimeUnit).toNat (accepted bars)).take log.length) log
  emits : ∀ (slot : Subscriber (Bar P Count TimeUnit) σ) world history run,
    NothingThrows slot.logged ({}, [], world) history →
    (history ++ run).IsChain (fun a b => isConsecutive a b = true) →
    durationCast TimeUnit .nanoseconds (durationTicks Count)
      ≤ durationCast .minutes .nanoseconds run.length →
    let s := onBars slot.logged ({}, [], world) history
    s.2.1.length < (onBars slot.logged s run).2.1.length

theorem WindowLasts.sound (h : WindowLasts Count TimeUnit) : WindowSound P σ Count TimeUnit := by
  obtain ⟨hk, hduration⟩ := h
  refine ⟨⟨hk, hduration⟩, ?_, ?_⟩
  · intro slot world bars log
    have hlength : ∀ block ∈ (Blocks.complete (barsNeeded Count TimeUnit).toNat (accepted bars)).take
        log.length, (block.length : ℤ) = barsNeeded Count TimeUnit := by
      intro block hblock
      rw [Blocks.length_of_mem_complete (List.mem_of_mem_take hblock)]
      omega
    have hblocks := List.forall₂_and_left _ _ |>.mpr ⟨hlength, summarizes_log slot world bars⟩
    refine hblocks.imp fun block bar hb => ⟨hb.2, ?_⟩
    rw [hb.1, hduration]
    rfl
  · intro slot world history run hnothing hrun hlong s
    obtain ⟨-, hrep, -⟩ := hnothing.spec
    rw [← hduration] at hlong
    simp only [durationCast_nanoseconds] at hlong
    have hlen := le_of_mul_le_mul_right hlong (ChronoDuration.nanos_pos .minutes)
    have hcount := hrep.count
    exact hrep.emits hk hrun (by omega)

/-- For every count and every unit: what passes the check has the window that its type says if and only
if the duration is a positive whole number of minutes below `2 ^ 31`. -/
theorem checkSound_iff (P σ : Type) [LinearOrder P] (Count : ℕ) (TimeUnit : ChronoDuration) :
    (DividesEvenly Count TimeUnit → WindowSound P σ Count TimeUnit) ↔ WindowFits Count TimeUnit := by
  constructor
  · intro hsound
    exact windowLasts_iff.mp (hsound (dividesEvenly Count TimeUnit)).lasts
  · intro hfits _
    exact (windowLasts_iff.mpr hfits).sound

/-- 90 seconds pass the check, and one minute bar makes a window; so does one second, and no bar does. -/
theorem ninety_seconds_pass :
    DividesEvenly 90 .seconds ∧ barsNeeded 90 .seconds = 1 ∧
      ¬ (DividesEvenly 90 .seconds → WindowSound ℚ Unit 90 .seconds) ∧
      DividesEvenly 1 .seconds ∧ barsNeeded 1 .seconds = 0 := by
  refine ⟨dividesEvenly _ _, by decide +kernel, fun hsound => ?_, dividesEvenly _ _, by decide +kernel⟩
  have hduration := (hsound (dividesEvenly 90 .seconds)).lasts.duration
  exact absurd hduration (by decide +kernel)

end MacdTradingBot
