import MacdTradingBot.Market.ThrowingSlots

/-!
# The direction of time

The guard of `on_bar` is the symmetric `isConsecutive`, so it lets a bar through that starts one minute
before the last one. `movesForward_iff` says which runs of accepted bars move forward: exactly those in
which no bar steps back.
-/

namespace MacdTradingBot

variable {P : Type} [LinearOrder P] {σ : Type} {Count : ℕ} {TimeUnit : ChronoDuration}

open BarAggregator

omit [LinearOrder P] in
/-- Neighbours among the accepted bars have passed the guard. -/
theorem isChain_accepted (bars : List (Bar1min P)) :
    (accepted bars).IsChain fun a b => isConsecutive a b = true := by
  induction bars using List.reverseRecOn with
  | nil => exact .nil
  | append_singleton bars b ih =>
    rw [accepted_concat]
    split
    · rename_i hb
      refine ih.append (.singleton b) fun last hlast c hc => ?_
      obtain rfl : b = c := by simpa using hc
      rw [Option.mem_def] at hlast
      rwa [accepts, hlast] at hb
    · exact ih

/-- The bars of the window are distinct minutes in increasing order, and the aggregated bar, which
summarizes them, closes with the latest one. -/
structure Chronological (block : List (Bar1min P)) (bar : Bar P Count TimeUnit) : Prop where
  summarizes : Summarizes block bar
  increasing : block.Pairwise fun a b => a.timestamp < b.timestamp
  close : ∀ last ∈ block, (∀ b ∈ block, b.timestamp ≤ last.timestamp) → bar.close = last.close

/-- Each bar is one minute after the one before it, and the bars that were emitted are chronological. -/
structure MovesForward (bars : List (Bar1min P)) (log : List (Bar P Count TimeUnit)) : Prop where
  minutes : bars.IsChain fun a b => b.timestamp = a.timestamp + 1
  windows : List.Forall₂ Chronological (Blocks.complete (barsNeeded Count TimeUnit).toNat bars) log

theorem Summarizes.chronological {block : List (Bar1min P)} {bar : Bar P Count TimeUnit}
    (h : Summarizes block bar) (hincreasing : block.Pairwise fun a b => a.timestamp < b.timestamp) :
    Chronological block bar := by
  refine ⟨h, hincreasing, fun last hlast hlatest => ?_⟩
  rcases List.eq_nil_or_concat' block with rfl | ⟨init, z, rfl⟩
  · simp at hlast
  have hclose : z.close = bar.close := by simpa using h.close
  -- only the bar at the end of the window is not before another one
  rcases List.mem_append.mp hlast with hinit | hz
  · have hlt := (List.pairwise_append.mp hincreasing).2.2 last hinit z (by simp)
    exact absurd (hlatest z (by simp)) (not_le.mpr hlt)
  · obtain rfl : last = z := by simpa using hz
    exact hclose.symm

omit [LinearOrder P] in
/-- The guard allows two directions; a run that never takes one of them takes the other. -/
theorem isChain_minutes_iff {bars : List (Bar1min P)}
    (h : bars.IsChain fun a b => isConsecutive a b = true) :
    (bars.IsChain fun a b => b.timestamp = a.timestamp + 1) ↔
      bars.IsChain fun a b => a.timestamp ≠ b.timestamp + 1 := by
  simp only [List.isChain_iff_getElem] at h ⊢
  refine forall_congr' fun i => forall_congr' fun hi => ?_
  obtain ⟨-, hdirection⟩ := (isConsecutive_minutes _ _).mp (h i hi)
  omega

/-- For every run in which no call throws: each bar is one minute after the one before it, and every
emitted bar folds distinct minutes in increasing order and closes with the latest, if and only if no bar
is fed that is one minute before the one fed last. -/
theorem movesForward_iff {slot : Subscriber (Bar P Count TimeUnit) σ} {world : σ}
    {bars : List (Bar1min P)} (h : NothingThrows slot.logged ({}, [], world) bars) :
    MovesForward bars (onBars slot.logged ({}, [], world) bars).2.1 ↔
      bars.IsChain fun a b => a.timestamp ≠ b.timestamp + 1 := by
  have hchain := isChain_accepted bars
  rw [h.spec.1] at hchain
  rw [← isChain_minutes_iff hchain]
  refine ⟨fun hforward => hforward.minutes, fun hminutes => ⟨hminutes, ?_⟩⟩
  have hincreasing : bars.Pairwise fun a b => a.timestamp < b.timestamp := by
    have : Trans (fun a b : Bar1min P => a.timestamp < b.timestamp)
        (fun a b : Bar1min P => a.timestamp < b.timestamp)
        (fun a b : Bar1min P => a.timestamp < b.timestamp) := ⟨fun hab hbc => hab.trans hbc⟩
    exact List.isChain_iff_pairwise.mp (hminutes.imp fun a b hab => by omega)
  have hblocks := List.forall₂_and_left _ _ |>.mpr
    ⟨fun block hblock => hincreasing.sublist (Blocks.sublist_of_mem_complete hblock), h.summarizes_log⟩
  exact hblocks.imp fun block bar hb => hb.2.chronological hb.1

/-- The minutes 0 to 4, in order. -/
theorem movesForward_five_minutes :
    MovesForward ([0, 1, 2, 3, 4].map flatBar)
      (onBars ignoreBar5min.logged ({}, [], ()) ([0, 1, 2, 3, 4].map flatBar)).2.1 :=
  (movesForward_iff (nothingThrows_of_accepted ignoreBar5min_neverThrows.logged
    (by decide +kernel))).mpr (by simp [flatBar])

/-- A minute bar that closes at its own minute. -/
def clockBar (minute : ℤ) : Bar1min ℚ :=
  ⟨"PLTR", ⟨1, 9, 0, minute, 1⟩, minute⟩

/-- The minutes 4, 3, 2, 1, 0, in this order: no call throws, and the aggregated bar closes with minute
0, though the latest bar it folds closes at 4. -/
theorem clock_runs_backwards :
    let bars := [4, 3, 2, 1, 0].map clockBar
    let log := (onBars ignoreBar5min.logged ({}, [], ()) bars).2.1
    NothingThrows ignoreBar5min.logged ({}, [], ()) bars ∧ log.map Bar.close = [0] ∧
      ¬ MovesForward bars log := by
  intro bars log
  have haccepted : accepted bars = bars := by decide +kernel
  refine ⟨nothingThrows_of_accepted ignoreBar5min_neverThrows.logged haccepted, by decide +kernel,
    fun hforward => ?_⟩
  have hfirst := List.isChain_iff_getElem.mp hforward.minutes 0 (by simp [bars])
  simp [bars, clockBar] at hfirst

end MacdTradingBot
