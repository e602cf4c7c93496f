import MacdTradingBot.Market.Windows
import Mathlib.Data.Int.ConditionallyCompleteOrder
import Mathlib.Data.Set.Lattice
import Mathlib.Order.Interval.Set.LinearOrder

/-!
# What a timestamp covers

A window starts with whichever bar comes first, and its timestamp is the one of that bar truncated to the
aggregated unit. `covers_iff` says for which consecutive minutes the interval that an aggregated bar
claims is the time of the bars it folds.
-/

namespace MacdTradingBot

variable {P : Type} [LinearOrder P] {σ : Type} {Count : ℕ} {TimeUnit : ChronoDuration}

open BarAggregator

/-- From the start of the bar to its end, in nanoseconds, as `isConsecutive` computes the two. -/
def Bar.interval (b : Bar P Count TimeUnit) : Set ℤ :=
  Set.Ico (durationCast TimeUnit .nanoseconds b.timestamp)
    (durationCast TimeUnit .nanoseconds b.timestamp + durationCast TimeUnit .nanoseconds b.duration)

/-- The aggregated bar summarizes the bars of the window, and its interval is their time. -/
structure Covers (block : List (Bar1min P)) (bar : Bar P Count TimeUnit) : Prop where
  summarizes : Summarizes block bar
  interval : bar.interval = ⋃ b ∈ block, b.interval

/-! ## Consecutive minutes -/

section Minutes

omit [LinearOrder P]

theorem interval_minute (b : Bar1min P) : b.interval =
    Set.Ico (b.timestamp * ChronoDuration.minutes.nanos)
      ((b.timestamp + 1) * ChronoDuration.minutes.nanos) := by
  have hone : durationTicks 1 = 1 := durationTicks_of_lt (by norm_num)
  simp only [Bar.interval, durationCast_nanoseconds, Bar.duration, hone, add_mul]

/-- The time of consecutive minutes has no gap. -/
theorem biUnion_interval {first : Bar1min P} {more : List (Bar1min P)}
    (h : ConsecutiveMinutes (first :: more)) : ⋃ b ∈ first :: more, b.interval =
      Set.Ico (first.timestamp * ChronoDuration.minutes.nanos)
        ((first.timestamp + (first :: more).length) * ChronoDuration.minutes.nanos) := by
  have hminute : 0 ≤ ChronoDuration.minutes.nanos := (ChronoDuration.nanos_pos .minutes).le
  induction more generalizing first with
  | nil => simp [interval_minute]
  | cons second more ih =>
    obtain ⟨⟨-, hts⟩, hrest⟩ := List.isChain_cons_cons.mp h
    have hsplit : ⋃ b ∈ first :: second :: more, b.interval
        = first.interval ∪ ⋃ b ∈ second :: more, b.interval := by
      ext t
      simp only [Set.mem_iUnion, Set.mem_union, exists_prop, List.mem_cons (b := first),
        or_and_right, exists_or, exists_eq_left]
    rw [hsplit, ih hrest, interval_minute, hts, Set.Ico_union_Ico_eq_Ico]
    · congr 2
      push_cast [List.length_cons]
      ring
    · exact mul_le_mul_of_nonneg_right (by omega) hminute
    · exact mul_le_mul_of_nonneg_right (by omega) hminute

theorem ConsecutiveMinutes.timestamp_getElem {first : Bar1min P} {more : List (Bar1min P)}
    (h : ConsecutiveMinutes (first :: more)) (j : ℕ) (hj : j < (first :: more).length) :
    (first :: more)[j].timestamp = first.timestamp + j := by
  induction j with
  | zero => simp
  | succ j ih =>
    have hnext := (List.isChain_iff_getElem.mp h j hj).2
    rw [hnext, ih (by omega)]
    push_cast
    ring

end Minutes

/-! ## Alignment -/

/-- The summary of consecutive minutes covers them exactly when the first one starts a tick of the
aggregated unit and there are as many as the aggregated bar lasts. -/
theorem Summarizes.covers_aligned_iff {first : Bar1min P} {more : List (Bar1min P)}
    {bar : Bar P Count TimeUnit} (h : Summarizes (first :: more) bar)
    (hrun : ConsecutiveMinutes (first :: more)) :
    Covers (first :: more) bar ↔
      TimeUnit.nanos ∣ durationCast .minutes .nanoseconds first.timestamp ∧
        durationCast .minutes .nanoseconds (first :: more).length
          = durationCast TimeUnit .nanoseconds (durationTicks Count) := by
  have hminute : 0 < ChronoDuration.minutes.nanos := ChronoDuration.nanos_pos .minutes
  have hts : bar.timestamp = (first.timestamp * ChronoDuration.minutes.nanos).tdiv TimeUnit.nanos := by
    simpa [durationCast] using h.timestamp.symm
  have hspan : first.timestamp * ChronoDuration.minutes.nanos
      < (first.timestamp + (first :: more).length) * ChronoDuration.minutes.nanos :=
    mul_lt_mul_of_pos_right (by simp) hminute
  have hinterval : bar.interval = ⋃ b ∈ first :: more, b.interval ↔
      bar.timestamp * TimeUnit.nanos = first.timestamp * ChronoDuration.minutes.nanos ∧
        bar.timestamp * TimeUnit.nanos + durationTicks Count * TimeUnit.nanos
          = (first.timestamp + (first :: more).length) * ChronoDuration.minutes.nanos := by
    rw [biUnion_interval hrun, Bar.interval, Set.Ico_eq_Ico_iff (Or.inr hspan)]
    simp only [durationCast_nanoseconds, Bar.duration]
  simp only [durationCast_nanoseconds]
  constructor
  · intro hcovers
    obtain ⟨hstart, hend⟩ := hinterval.mp hcovers.interval
    rw [hstart, add_mul] at hend
    exact ⟨Dvd.intro_left _ hstart, by omega⟩
  · rintro ⟨hdvd, hduration⟩
    have hstart : bar.timestamp * TimeUnit.nanos = first.timestamp * ChronoDuration.minutes.nanos := by
      rw [hts, Int.tdiv_mul_cancel hdvd]
    exact ⟨h, hinterval.mpr ⟨hstart, by rw [hstart, add_mul, hduration]⟩⟩

omit [LinearOrder P] in
/-- When a window lasts its duration, all windows of the run are aligned as the first one is. -/
theorem WindowLasts.block {bars block : List (Bar1min P)} (hlasts : WindowLasts Count TimeUnit)
    (h : ConsecutiveMinutes bars)
    (haligned : ∀ first ∈ bars.head?, TimeUnit.nanos ∣ durationCast .minutes .nanoseconds first.timestamp)
    (hblock : block ∈ Blocks.complete (barsNeeded Count TimeUnit).toNat bars) :
    ∃ first more, block = first :: more ∧ ConsecutiveMinutes (first :: more) ∧
      TimeUnit.nanos ∣ durationCast .minutes .nanoseconds first.timestamp ∧
        durationCast .minutes .nanoseconds (first :: more).length
          = durationCast TimeUnit .nanoseconds (durationTicks Count) := by
  obtain ⟨hk, hduration⟩ := hlasts
  have hlength := Blocks.length_of_mem_complete hblock
  obtain ⟨i, hi, rfl⟩ := Blocks.mem_complete.mp hblock
  generalize hkn : (barsNeeded Count TimeUnit).toNat = k at *
  have hkz : barsNeeded Count TimeUnit = k := by omega
  obtain ⟨k, rfl⟩ : ∃ j, k = j + 1 := ⟨k - 1, by omega⟩
  have hlt : i * (k + 1) < bars.length := by
    have hle := (Nat.mul_le_mul_right (k + 1) hi).trans (Nat.div_mul_le_self _ _)
    rw [Nat.succ_mul] at hle
    omega
  have hchain : ConsecutiveMinutes ((bars.drop (i * (k + 1))).take (k + 1)) := (h.drop _).take _
  rw [List.drop_eq_getElem_cons hlt, List.take_succ_cons] at hchain hlength ⊢
  refine ⟨_, _, rfl, hchain, ?_, ?_⟩
  · obtain ⟨first, more, rfl⟩ := List.exists_cons_of_length_pos (Nat.zero_lt_of_lt hlt)
    have hfirst := haligned first rfl
    simp only [durationCast_nanoseconds] at hfirst hduration ⊢
    -- window `i` starts `i` durations after the first one
    have hstart : (first.timestamp + (i * (k + 1) : ℕ)) * ChronoDuration.minutes.nanos
        = first.timestamp * ChronoDuration.minutes.nanos + i * durationTicks Count * TimeUnit.nanos := by
      rw [hkz] at hduration
      push_cast at hduration ⊢
      rw [mul_assoc (i : ℤ) (durationTicks Count), ← hduration]
      ring
    rw [h.timestamp_getElem _ hlt, hstart]
    exact Int.dvd_add hfirst (Int.dvd_mul_left _ _)
  · rw [hlength, ← hduration, hkz]

/-- A first window that is covered has the length that its type says, and starts a tick. -/
theorem Covers.fits_of_take {bars : List (Bar1min P)} {bar : Bar P Count TimeUnit}
    (h : ConsecutiveMinutes bars) (hk : 1 ≤ barsNeeded Count TimeUnit)
    (hlen : barsNeeded Count TimeUnit ≤ bars.length)
    (hcovers : Covers (bars.take (barsNeeded Count TimeUnit).toNat) bar) : WindowFits Count TimeUnit ∧
      ∀ first ∈ bars.head?, TimeUnit.nanos ∣ durationCast .minutes .nanoseconds first.timestamp := by
  obtain ⟨first, more, rfl⟩ := List.exists_cons_of_length_pos (show 0 < bars.length by omega)
  obtain ⟨k, hkn⟩ : ∃ j, (barsNeeded Count TimeUnit).toNat = j + 1 :=
    ⟨(barsNeeded Count TimeUnit).toNat - 1, by omega⟩
  rw [hkn, List.take_succ_cons] at hcovers
  have hrun : ConsecutiveMinutes (first :: more.take k) := h.take (k + 1)
  obtain ⟨hdvd, hduration⟩ := (hcovers.summarizes.covers_aligned_iff hrun).mp hcovers
  have hblock : (((first :: more.take k).length : ℕ) : ℤ) = barsNeeded Count TimeUnit := by
    simp only [List.length_cons, List.length_take] at hlen ⊢
    omega
  rw [hblock] at hduration
  exact ⟨windowLasts_iff.mp ⟨hk, hduration⟩, by simpa using hdvd⟩

/-- For every run of consecutive minutes, whatever the slots do: each emitted bar covers exactly the bars
it folds if and only if, should the run be long enough for a window at all, the window has the length that
its type says and the first bar of the run starts a tick of the aggregated unit. -/
theorem covers_iff (slot : Subscriber (Bar P Count TimeUnit) σ) (world : σ) {bars : List (Bar1min P)}
    (h : ConsecutiveMinutes bars) :
    let log := (onBars slot.logged ({}, [], world) bars).2.1
    List.Forall₂ Covers ((Blocks.complete (barsNeeded Count TimeUnit).toNat bars).take log.length) log ↔
      (1 ≤ barsNeeded Count TimeUnit → barsNeeded Count TimeUnit ≤ bars.length →
        WindowFits Count TimeUnit ∧
          ∀ first ∈ bars.head?, TimeUnit.nanos ∣ durationCast .minutes .nanoseconds first.timestamp) := by
  intro log
  have hsummaries : List.Forall₂ Summarizes (List.take log.length _) log := summarizes_log slot world bars
  have hnil : log = [] ↔ _ := log_eq_nil_iff slot world bars
  have hlength := (summarizes_emissions Count TimeUnit bars).length_eq
  rw [h.accepted_eq] at hsummaries hnil hlength
  have hemits : log ≠ [] ↔ 1 ≤ barsNeeded Count TimeUnit ∧ barsNeeded Count TimeUnit ≤ bars.length := by
    rw [ne_eq, hnil, ← List.length_eq_zero_iff, ← hlength, Blocks.length_complete, Nat.div_eq_zero_iff]
    omega
  clear_value log
  constructor
  -- the first emission decides, and the windows after it are aligned as it is
  · intro hcovers hk hlen
    obtain ⟨bar, log, rfl⟩ := List.exists_cons_of_ne_nil (hemits.mpr ⟨hk, hlen⟩)
    rw [Blocks.complete_eq_cons (by omega) (by omega), List.length_cons, List.take_succ_cons] at hcovers
    exact (List.forall₂_cons.mp hcovers).1.fits_of_take h hk hlen
  · intro hfits
    by_cases hlog : log = []
    · subst hlog
      exact .nil
    obtain ⟨hk, hlen⟩ := hemits.mp hlog
    obtain ⟨hwindow, haligned⟩ := hfits hk hlen
    have hlasts := windowLasts_iff.mpr hwindow
    have hblocks := List.forall₂_and_left _ _ |>.mpr
      ⟨fun block hblock => hlasts.block h haligned (List.mem_of_mem_take hblock), hsummaries⟩
    refine hblocks.imp fun block bar hb => ?_
    obtain ⟨⟨first, more, rfl, hrun, hcondition⟩, hsummarizes⟩ := hb
    exact (hsummarizes.covers_aligned_iff hrun).mpr hcondition

/-- Five minutes from minute 3: every alignment suits windows of minutes. -/
theorem covers_five_minutes :
    let bars := [3, 4, 5, 6, 7].map flatBar
    List.Forall₂ Covers ((Blocks.complete (barsNeeded 5 .minutes).toNat bars).take
        (onBars ignoreBar5min.logged ({}, [], ()) bars).2.1.length)
      (onBars ignoreBar5min.logged ({}, [], ()) bars).2.1 :=
  (covers_iff ignoreBar5min () (by simp [ConsecutiveMinutes, flatBar])).mpr fun _ _ =>
    ⟨windowLasts_iff.mp ⟨by decide +kernel, by decide +kernel⟩, by
      simp [flatBar, ChronoDuration.nanos]⟩

/-- An hour from 13:30: the aggregated bar says that it begins at 13:00. -/
theorem hour_from_half_past_one :
    let bars := (List.range 60).map fun i : ℕ => flatBar (810 + i)
    let log := (onBars (ignoreBar 1 .hours).logged ({}, [], ()) bars).2.1
    ConsecutiveMinutes bars ∧ log.map Bar.timestamp = [13] ∧
      ¬ List.Forall₂ Covers ((Blocks.complete (barsNeeded 1 .hours).toNat bars).take log.length) log := by
  intro bars log
  have hrun : ConsecutiveMinutes bars := by
    refine List.isChain_iff_getElem.mpr fun i hi => ?_
    simp only [bars, List.getElem_map, List.getElem_range, flatBar]
    exact ⟨trivial, by push_cast; ring⟩
  have htimestamp : log.map Bar.timestamp = [13] := by decide +kernel
  refine ⟨hrun, htimestamp, fun hcovers => ?_⟩
  obtain ⟨bar, hlog, -⟩ := List.map_eq_singleton_iff.mp htimestamp
  have hblocks : Blocks.complete (barsNeeded 1 .hours).toNat bars = [bars] := by decide +kernel
  rw [hlog, hblocks] at hcovers
  cases hcovers with
  | cons hfirst _ =>
    have hdvd := ((hfirst.summarizes.covers_aligned_iff hrun).mp hfirst).1
    exact absurd hdvd (by decide +kernel)

end MacdTradingBot
