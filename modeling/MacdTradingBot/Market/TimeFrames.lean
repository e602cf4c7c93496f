import MacdTradingBot.Market.ThrowingSlots

/-!
# Time frames

Two aggregators read the same minutes, one with windows of `a` bars and one with windows of `a * m` bars.
`timeFrames_consistent` says that the larger one emits what merging the emissions of the smaller one gives,
`m` at a time, and at the same input bars: a block of `a * m` bars is `m` blocks of `a` bars, and a summary
of summaries is a summary.
-/

namespace MacdTradingBot

variable {P : Type} [LinearOrder P] {Count Count₁ Count₂ : ℕ} {TimeUnit TimeUnit₁ TimeUnit₂ : ChronoDuration}
  {σ₁ σ₂ : Type}

open BarAggregator

/-- `out` has the symbol and the OHLCV of the bars `parts` merged in order: the open of the first, the close
of the last, the greatest high, the least low, and the sum of the volumes modulo `2 ^ 64`. -/
structure Merges (parts : List (Bar P Count₁ TimeUnit₁)) (out : Bar P Count₂ TimeUnit₂) : Prop where
  symbol : ∀ b ∈ parts, b.symbol = out.symbol
  «open» : parts.head?.map Bar.open = some out.open
  close : parts.getLast?.map Bar.close = some out.close
  high : (parts.map Bar.high).max? = some out.high
  low : (parts.map Bar.low).min? = some out.low
  volume : out.volume.toNat = (parts.map fun b => b.volume.toNat).sum % 2 ^ 64

/-! ## A summary of summaries -/

/-- A bar summarizes at least one bar. -/
theorem Summarizes.ne_nil {block : List (Bar1min P)} {bar : Bar P Count TimeUnit}
    (h : Summarizes block bar) : block ≠ [] := by
  rintro rfl
  simpa using h.open

/-- The high is the greatest of the highs. -/
theorem Summarizes.high_mem {block : List (Bar1min P)} {bar : Bar P Count TimeUnit}
    (h : Summarizes block bar) : (∃ b ∈ block, b.high = bar.high) ∧ ∀ b ∈ block, b.high ≤ bar.high := by
  simpa using List.max?_eq_some_iff.mp h.high

/-- The low is the least of the lows. -/
theorem Summarizes.low_mem {block : List (Bar1min P)} {bar : Bar P Count TimeUnit}
    (h : Summarizes block bar) : (∃ b ∈ block, b.low = bar.low) ∧ ∀ b ∈ block, bar.low ≤ b.low := by
  simpa using List.min?_eq_some_iff.mp h.low

section Parts

variable {blocks : List (List (Bar1min P))} {parts : List (Bar P Count₁ TimeUnit₁)}

/-- Every bar of the blocks is in a block that some part summarizes. -/
theorem exists_part_of_mem (hparts : List.Forall₂ Summarizes blocks parts) {b : Bar1min P}
    (hb : b ∈ blocks.flatten) : ∃ part ∈ parts, ∃ block, b ∈ block ∧ Summarizes block part := by
  obtain ⟨block, hblock, hb⟩ := List.mem_flatten.mp hb
  obtain ⟨part, hpart, hsummarizes⟩ := Blocks.exists_right_of_mem hparts hblock
  exact ⟨part, hpart, block, hb, hsummarizes⟩

/-- Every part summarizes bars of the blocks. -/
theorem exists_block_of_mem (hparts : List.Forall₂ Summarizes blocks parts)
    {part : Bar P Count₁ TimeUnit₁} (hpart : part ∈ parts) :
    ∃ block, (∀ b ∈ block, b ∈ blocks.flatten) ∧ Summarizes block part := by
  obtain ⟨block, hblock, hsummarizes⟩ := Blocks.exists_left_of_mem hparts hpart
  exact ⟨block, fun b hb => List.mem_flatten.mpr ⟨block, hblock, hb⟩, hsummarizes⟩

/-- The first part opens where the first bar does. -/
theorem head?_open_of_parts (hparts : List.Forall₂ Summarizes blocks parts) :
    parts.head?.map Bar.open = blocks.flatten.head?.map Bar.open := by
  cases hparts with
  | nil => rfl
  | @cons block part blocks parts hpart _ =>
    obtain ⟨first, more, rfl⟩ := List.exists_cons_of_ne_nil hpart.ne_nil
    exact hpart.open.symm

/-- The last part closes where the last bar does. -/
theorem getLast?_close_of_parts (hparts : List.Forall₂ Summarizes blocks parts) :
    parts.getLast?.map Bar.close = blocks.flatten.getLast?.map Bar.close := by
  induction hparts with
  | nil => rfl
  | @cons block part blocks parts hpart hrest ih =>
    cases hrest with
    | nil => simpa using hpart.close.symm
    | @cons block' part' blocks parts hpart' _ =>
      have hne : (block' :: blocks).flatten ≠ [] := by simp [hpart'.ne_nil]
      rw [List.getLast?_cons_cons, ih, List.flatten_cons (l := block), List.getLast?_append_of_ne_nil _ hne]

/-- The volumes of the parts add up to those of the bars. -/
theorem sum_volume_of_parts (hparts : List.Forall₂ Summarizes blocks parts) :
    (parts.map fun b => b.volume.toNat).sum % 2 ^ 64
      = (blocks.flatten.map fun b => b.volume.toNat).sum % 2 ^ 64 := by
  induction hparts with
  | nil => rfl
  | @cons block part blocks parts hpart _ ih =>
    rw [List.map_cons, List.sum_cons, List.flatten_cons, List.map_append, List.sum_append, hpart.volume]
    omega

/-- The extreme of the extremes of the blocks is the extreme of all of them: for the highs with `≤`, and
for the lows with `≥`. -/
theorem extreme_of_parts {r : P → P → Prop} (hantisymm : ∀ x y, r x y → r y x → x = y)
    {f : Bar1min P → P} {g : Bar P Count₁ TimeUnit₁ → P}
    (hextreme : ∀ block part, Summarizes block part →
      (∃ b ∈ block, f b = g part) ∧ ∀ b ∈ block, r (f b) (g part))
    (hparts : List.Forall₂ Summarizes blocks parts) {x : P}
    (hx : (∃ b ∈ blocks.flatten, f b = x) ∧ ∀ b ∈ blocks.flatten, r (f b) x) :
    (∃ part ∈ parts, g part = x) ∧ ∀ part ∈ parts, r (g part) x := by
  obtain ⟨⟨b, hb, hfb⟩, hle⟩ := hx
  have hparts_le : ∀ part ∈ parts, r (g part) x := by
    intro part hpart
    obtain ⟨block, hmem, hsummarizes⟩ := exists_block_of_mem hparts hpart
    obtain ⟨c, hc, hfc⟩ := (hextreme block part hsummarizes).1
    rw [← hfc]
    exact hle c (hmem c hc)
  obtain ⟨part, hpart, block, hblock, hsummarizes⟩ := exists_part_of_mem hparts hb
  -- the block that has the extreme bar has the extreme part
  have hge : r x (g part) := by
    rw [← hfb]
    exact (hextreme block part hsummarizes).2 b hblock
  exact ⟨⟨part, hpart, hantisymm _ _ (hparts_le part hpart) hge⟩, hparts_le⟩

/-- The bar that summarizes all the blocks together merges the bars that summarize them one by one. -/
theorem merges_of_summarizes (hparts : List.Forall₂ Summarizes blocks parts)
    {out : Bar P Count₂ TimeUnit₂} (hout : Summarizes blocks.flatten out) : Merges parts out := by
  refine ⟨?_, ?_, ?_, ?_, ?_, ?_⟩
  · intro part hpart
    obtain ⟨block, hmem, hsummarizes⟩ := exists_block_of_mem hparts hpart
    obtain ⟨b, hb⟩ := List.exists_mem_of_ne_nil block hsummarizes.ne_nil
    rw [← hsummarizes.symbol b hb, hout.symbol b (hmem b hb)]
  · rw [head?_open_of_parts hparts, hout.open]
  · rw [getLast?_close_of_parts hparts, hout.close]
  · refine List.max?_eq_some_iff.mpr ?_
    simpa using extreme_of_parts (fun _ _ => le_antisymm) (fun _ _ h => h.high_mem) hparts hout.high_mem
  · refine List.min?_eq_some_iff.mpr ?_
    simpa using extreme_of_parts (fun _ _ h h' => le_antisymm h' h) (fun _ _ h => h.low_mem) hparts
      hout.low_mem
  · rw [hout.volume, sum_volume_of_parts hparts]

end Parts

/-! ## Two aggregators on the same bars -/

/-- One bar for each block of `a * m` minutes merges the bars for its `m` blocks of `a` minutes, and is there
as soon as the last of them is. -/
theorem merges_of_windows {a m : ℕ} (hm : 1 ≤ m) {bars : List (Bar1min P)}
    {small : List (Bar P Count₁ TimeUnit₁)} {large : List (Bar P Count₂ TimeUnit₂)}
    (hsmall : List.Forall₂ Summarizes (Blocks.complete a bars) small)
    (hlarge : List.Forall₂ Summarizes (Blocks.complete (a * m) bars) large) :
    (∀ i, ∀ out ∈ large[i]?, Merges ((small.drop (i * m)).take m) out) ∧
      ∀ i, i < large.length ↔ i * m + (m - 1) < small.length := by
  rw [Blocks.complete_mul, List.forall₂_map_left_iff] at hlarge
  have hgroups := Blocks.forall₂_complete hsmall m
  have hlength : large.length = small.length / m := by
    rw [← hlarge.length_eq, hgroups.length_eq, Blocks.length_complete]
  constructor
  · intro i out hout
    obtain ⟨hi, rfl⟩ := List.getElem?_eq_some_iff.mp hout
    have hi' : i < (Blocks.complete m (Blocks.complete a bars)).length := hlarge.length_eq ▸ hi
    have hgroup := hgroups.get hi' (hgroups.length_eq ▸ hi')
    have hblock : (Blocks.complete m small).get ⟨i, hgroups.length_eq ▸ hi'⟩
        = (small.drop (i * m)).take m := by simp [Blocks.complete]
    rw [hblock] at hgroup
    exact merges_of_summarizes hgroup (hlarge.get hi' hi)
  · intro i
    rw [hlength, Nat.lt_iff_add_one_le, Nat.le_div_iff_mul_le hm, Nat.succ_mul]
    omega

/-- For every sequence of bars at which no call of either aggregator throws, and after every bar of it: the
`i`-th emission of the aggregator with windows of `a * m` bars merges the emissions `i * m` to
`i * m + m - 1` of the one with windows of `a` bars, and is there as soon as the last of them is. -/
theorem timeFrames_consistent {slot₁ : Subscriber (Bar P Count₁ TimeUnit₁) σ₁}
    {slot₂ : Subscriber (Bar P Count₂ TimeUnit₂) σ₂} {world₁ : σ₁} {world₂ : σ₂} {a m : ℕ} (hm : 1 ≤ m)
    (hsmall : barsNeeded Count₁ TimeUnit₁ = a) (hlarge : barsNeeded Count₂ TimeUnit₂ = (a * m : ℕ))
    {bars : List (Bar1min P)} (h₁ : NothingThrows slot₁.logged ({}, [], world₁) bars)
    (h₂ : NothingThrows slot₂.logged ({}, [], world₂) bars) :
    ∀ pre, pre <+: bars →
      let small := (onBars slot₁.logged ({}, [], world₁) pre).2.1
      let large := (onBars slot₂.logged ({}, [], world₂) pre).2.1
      (∀ i, ∀ out ∈ large[i]?, Merges ((small.drop (i * m)).take m) out) ∧
        ∀ i, i < large.length ↔ i * m + (m - 1) < small.length := by
  intro pre hpre
  have hparts := (h₁.of_prefix hpre).summarizes_log
  have hwhole := (h₂.of_prefix hpre).summarizes_log
  rw [hsmall, Int.toNat_natCast] at hparts
  rw [hlarge, Int.toNat_natCast] at hwhole
  exact merges_of_windows hm hparts hwhole

/-- A minute in which the price rises by one. -/
def risingBar (minute : ℕ) : Bar1min ℚ := ⟨"PLTR", ⟨minute, minute + 2, minute, minute + 1, 1⟩, minute⟩

/-- Two hours and a quarter of minute bars: the one-hour aggregator has emitted two bars, and each merges
twelve bars of the five-minute one. -/
theorem hour_merges_five_minutes :
    let bars := (List.range 135).map risingBar
    let small := (onBars (ignoreBar 5 .minutes).logged ({}, [], ()) bars).2.1
    let large := (onBars (ignoreBar 1 .hours).logged ({}, [], ()) bars).2.1
    large = [⟨"PLTR", ⟨0, 61, 0, 60, 60⟩, 0⟩, ⟨"PLTR", ⟨60, 121, 60, 120, 60⟩, 1⟩] ∧
      (∀ i, ∀ out ∈ large[i]?, Merges ((small.drop (i * 12)).take 12) out) ∧
        ∀ i, i < large.length ↔ i * 12 + 11 < small.length := by
  intro bars small large
  have haccepted : accepted bars = bars := by decide +kernel
  have hfive : barsNeeded 5 .minutes = (5 : ℕ) := barsNeeded_minutes (by norm_num)
  have hhour : barsNeeded 1 .hours = (5 * 12 : ℕ) := by decide +kernel
  refine ⟨by decide +kernel, ?_⟩
  exact timeFrames_consistent (by norm_num) hfive hhour
    (nothingThrows_of_accepted (ignoreBar_neverThrows 5 .minutes).logged haccepted)
    (nothingThrows_of_accepted (ignoreBar_neverThrows 1 .hours).logged haccepted) bars List.prefix_rfl

end MacdTradingBot
