import MacdTradingBot.Lib.Runs
import MacdTradingBot.Market.AggregatorRuns

/-!
# Slots that throw

Runs of the aggregator with any slots. An exception of a slot leaves `on_bar` between the emission and
the reset of the count, so the count stays at `barsNeeded`, and since it is compared for equality later
the aggregator emits nothing any more. `windowOpen_iff` says which runs keep the count in its range, and
`log_cases` what the slots have seen after any run.
-/

namespace MacdTradingBot

variable {P : Type} [LinearOrder P] {σ : Type} {Count : ℕ} {TimeUnit : ChronoDuration}

namespace BarAggregator

variable {slot : Subscriber (Bar P Count TimeUnit) σ} {agg : BarAggregator P Count TimeUnit} {world : σ}

/-- A call of `on_bar`, whose exception the caller catches, as a step. -/
def step (slot : Subscriber (Bar P Count TimeUnit) σ) (s : BarAggregator P Count TimeUnit × σ)
    (b : Bar1min P) : Option (BarAggregator P Count TimeUnit × σ) :=
  some (onBar slot s.1 s.2 b).2

/-- Every call is possible. -/
theorem run_step (slot : Subscriber (Bar P Count TimeUnit) σ) (s : BarAggregator P Count TimeUnit × σ)
    (bars : List (Bar1min P)) : Runs.run (step slot) s bars = some (onBars slot s bars) := by
  induction bars generalizing s with
  | nil => rfl
  | cons b bars ih => exact ih (onBar slot s.1 s.2 b).2

/-- The count is in its range. -/
def WindowOpen (s : BarAggregator P Count TimeUnit × σ) : Prop :=
  0 ≤ s.1.barsInCurrentWindow ∧ s.1.barsInCurrentWindow < barsNeeded Count TimeUnit

/-- The bar passes the guard and fills the window, and a slot throws on the bar that is emitted. -/
def SlotThrows (slot : Subscriber (Bar P Count TimeUnit) σ) (s : BarAggregator P Count TimeUnit × σ)
    (b : Bar1min P) : Prop :=
  s.1.checkSequence b = .ok () ∧ s.1.barsInCurrentWindow + 1 = barsNeeded Count TimeUnit ∧
    ∃ e, (slot (nextWindow s.1.window b) s.2).1 = .error e

/-- The count is in its range, and the current bar is there when it is read. -/
structure Sound (s : BarAggregator P Count TimeUnit × σ) : Prop where
  range : WindowOpen s
  current : s.1.barsInCurrentWindow ≠ 0 → s.1.currentAggregatedBar.isSome

/-- While no slot throws, the window stays sound. -/
theorem Sound.onBar {s : BarAggregator P Count TimeUnit × σ} (h : Sound s) {b : Bar1min P}
    (hslot : ¬ SlotThrows slot s b) : Sound (BarAggregator.onBar slot s.1 s.2 b).2 := by
  obtain ⟨hnonneg, hlt⟩ := h.range
  have hcall := call_onBar slot s.2 b h.current
  generalize BarAggregator.onBar slot s.1 s.2 b = r at hcall
  cases hcall with
  | refused => exact h
  | folded _ hcount => exact ⟨⟨by simp only; omega, by simp only; omega⟩, fun _ => rfl⟩
  | emitted => exact ⟨⟨le_rfl, by simp only; omega⟩, fun hne => absurd rfl hne⟩
  | thrown hcheck hcount hthrow => exact absurd ⟨hcheck, hcount, _, by rw [hthrow]⟩ hslot

/-- A slot that throws leaves the window full. -/
theorem not_windowOpen_of_slotThrows {s : BarAggregator P Count TimeUnit × σ} (h : Sound s)
    {b : Bar1min P} (hslot : SlotThrows slot s b) : ¬ WindowOpen (onBar slot s.1 s.2 b).2 := by
  obtain ⟨hcheck, hcount, e, he⟩ := hslot
  have hcall := call_onBar slot s.2 b h.current
  generalize onBar slot s.1 s.2 b = r at hcall
  cases hcall with
  | refused hrefused => exact absurd hcheck hrefused
  | folded _ hne => exact absurd hcount hne
  | emitted _ _ hemit =>
    rw [hemit] at he
    cases he
  | thrown => exact fun hopen => absurd hopen.2 (by simp only; omega)

/-- Over every run with any slots: the count is in its range after each call if and only if a window
needs at least one bar and no slot throws on an emission. -/
theorem windowOpen_iff (slot : Subscriber (Bar P Count TimeUnit) σ) (world : σ)
    (bars : List (Bar1min P)) :
    Runs.Along (step slot) WindowOpen ({}, world) bars ↔
      1 ≤ barsNeeded Count TimeUnit ∧
        Runs.StepsMeet (step slot) (fun s b => ¬ SlotThrows slot s b) ({}, world) bars := by
  by_cases hk : 1 ≤ barsNeeded Count TimeUnit
  · rw [and_iff_right hk]
    have hstart : Sound (({}, world) : BarAggregator P Count TimeUnit × σ) :=
      ⟨⟨le_rfl, hk⟩, fun hne => absurd rfl hne⟩
    refine Runs.along_iff_stepsMeet Sound hstart (fun s hs => hs.range) ?_ ?_ (run_step slot _ bars)
    · rintro s b t hs hslot hstep
      obtain rfl := Option.some.inj hstep
      exact hs.onBar hslot
    · rintro s b t hs hslot hstep
      obtain rfl := Option.some.inj hstep
      exact not_windowOpen_of_slotThrows hs (not_not.mp hslot)
  · -- without a bar to need, no count is below it
    constructor
    · intro halong
      have hstart := halong [] _ (List.nil_prefix) rfl
      exact absurd hstart.2 (by simp only; omega)
    · exact fun h => absurd h.1 hk

/-! ## After an exception -/

/-- The state that an exception of a slot leaves: the count has reached `barsNeeded`. -/
structure Overfull (agg : BarAggregator P Count TimeUnit) : Prop where
  positive : 1 ≤ barsNeeded Count TimeUnit
  full : barsNeeded Count TimeUnit ≤ agg.barsInCurrentWindow
  current : agg.currentAggregatedBar.isSome

/-- From then on no call emits anything. -/
theorem Overfull.onBar (h : Overfull agg) (slot : Subscriber (Bar P Count TimeUnit) σ) (world : σ)
    (b : Bar1min P) : Overfull (BarAggregator.onBar slot agg world b).2.1 ∧
      (BarAggregator.onBar slot agg world b).2.2 = world := by
  have hfull := h.full
  have hpositive := h.positive
  have hcall := call_onBar slot world b fun _ => h.current
  generalize BarAggregator.onBar slot agg world b = r at hcall
  cases hcall with
  | refused => exact ⟨h, rfl⟩
  | folded _ hcount => exact ⟨⟨hpositive, by simp only; omega, rfl⟩, rfl⟩
  | emitted _ hcount => omega
  | thrown _ hcount => omega

/-- An overfull window never emits again. -/
theorem Overfull.onBars (h : Overfull agg) (slot : Subscriber (Bar P Count TimeUnit) σ) (world : σ)
    (bars : List (Bar1min P)) : Overfull (BarAggregator.onBars slot (agg, world) bars).1 ∧
      (BarAggregator.onBars slot (agg, world) bars).2 = world := by
  induction bars using List.reverseRecOn with
  | nil => exact ⟨h, rfl⟩
  | append_singleton bars b ih =>
    obtain ⟨hfull, hworld⟩ := ih
    obtain ⟨hfull', hworld'⟩ := hfull.onBar slot (BarAggregator.onBars slot (agg, world) bars).2 b
    rw [onBars_concat]
    exact ⟨hfull', hworld'.trans hworld⟩

end BarAggregator

open BarAggregator

omit [LinearOrder P] in
/-- A logged slot adds its argument to the log. -/
theorem Subscriber.logged_eq {α : Type} {slot : Subscriber α σ} {a : α} {w w' : List α × σ}
    {outcome : Except Exception Unit} (h : slot.logged a w = (outcome, w')) : w'.1 = w.1 ++ [a] :=
  (congrArg (fun r => r.2.1) h).symm

/-- One more bar leaves the emissions as they are, and may add one. -/
theorem emissions_prefix_concat (acc : List (Bar1min P)) (b : Bar1min P) :
    (emissions Count TimeUnit acc : List (Bar P Count TimeUnit))
      <+: emissions Count TimeUnit (acc ++ [b]) := by
  by_cases hfull : (Blocks.rest (barsNeeded Count TimeUnit).toNat acc).length + 1
      = (barsNeeded Count TimeUnit).toNat
  · rw [emissions_concat_of_eq hfull (mergeBars_concat _ _)]
    exact List.prefix_append _ _
  · rw [emissions_concat_of_ne hfull]

/-- What the slots have seen after any run: all aggregated bars of the accepted bars, or, when a slot has
thrown, the first few of them. -/
theorem log_cases (slot : Subscriber (Bar P Count TimeUnit) σ) (world : σ) (bars : List (Bar1min P)) :
    let s := onBars slot.logged ({}, [], world) bars
    (Represents s.1 (accepted bars) ∧ s.2.1 = emissions Count TimeUnit (accepted bars)) ∨
      (Overfull s.1 ∧ s.2.1 ≠ [] ∧ s.2.1 <+: emissions Count TimeUnit (accepted bars)) := by
  induction bars using List.reverseRecOn with
  | nil => exact Or.inl ⟨represents_init, by simp [emissions, accepted]⟩
  | append_singleton bars b ih =>
    rw [onBars_concat, accepted_concat]
    generalize onBars slot.logged ({}, [], world) bars = s at ih
    rcases ih with ⟨hrep, hlog⟩ | ⟨hfull, hne, hprefix⟩
    · have hcall := hrep.call slot.logged s.2 b
      have haccepts := checkSequence_of_getLast? hrep.lastInputBar b
      generalize onBar slot.logged s.1 s.2 b = r at hcall
      cases hcall with
      | refused hrefused =>
        rw [if_neg (mt haccepts.mpr hrefused)]
        exact Or.inl ⟨hrep, hlog⟩
      | folded hcheck hcount =>
        rw [if_pos (haccepts.mp hcheck), emissions_concat_of_ne (mt hrep.count_eq_iff.mpr hcount)]
        exact Or.inl ⟨hrep.folded b hcount, hlog⟩
      | emitted hcheck hcount hslot =>
        rw [if_pos (haccepts.mp hcheck), emissions_concat_of_eq (hrep.count_eq_iff.mp hcount)
          (hrep.mergeBars_rest b)]
        refine Or.inl ⟨hrep.emitted b hcount, ?_⟩
        rw [← hlog]
        exact Subscriber.logged_eq hslot
      -- the slots have seen the bar, but the window was not closed
      | @thrown e world' hcheck hcount hslot =>
        have hnew : world'.1 = s.2.1 ++ [nextWindow s.1.window b] := Subscriber.logged_eq hslot
        have hnonneg := hrep.count
        rw [if_pos (haccepts.mp hcheck), emissions_concat_of_eq (hrep.count_eq_iff.mp hcount)
          (hrep.mergeBars_rest b), ← hlog, ← hnew]
        refine Or.inr ⟨⟨by omega, hcount.ge, rfl⟩, ?_, List.prefix_rfl⟩
        show world'.1 ≠ []
        simp [hnew]
    · obtain ⟨hfull', hworld⟩ := hfull.onBar slot.logged s.2 b
      refine Or.inr ⟨hfull', by rwa [hworld], ?_⟩
      rw [hworld]
      split
      · exact hprefix.trans (emissions_prefix_concat _ b)
      · exact hprefix

/-- Each bar that was emitted summarizes its block, whatever the slots do. -/
theorem summarizes_log (slot : Subscriber (Bar P Count TimeUnit) σ) (world : σ)
    (bars : List (Bar1min P)) :
    let log := (onBars slot.logged ({}, [], world) bars).2.1
    List.Forall₂ Summarizes
      ((Blocks.complete (barsNeeded Count TimeUnit).toNat (accepted bars)).take log.length) log := by
  intro log
  have hprefix : log <+: emissions Count TimeUnit (accepted bars) := by
    rcases log_cases slot world bars with ⟨-, hlog⟩ | ⟨-, -, hlog⟩
    · exact hlog ▸ List.prefix_rfl
    · exact hlog
  have htake := List.forall₂_take log.length (summarizes_emissions Count TimeUnit bars)
  rwa [← List.prefix_iff_eq_take.mp hprefix] at htake

/-- Whatever the slots do, the first window that is filled is emitted. -/
theorem log_eq_nil_iff (slot : Subscriber (Bar P Count TimeUnit) σ) (world : σ)
    (bars : List (Bar1min P)) :
    (onBars slot.logged ({}, [], world) bars).2.1 = [] ↔
      emissions Count TimeUnit (accepted bars) = ([] : List (Bar P Count TimeUnit)) := by
  rcases log_cases slot world bars with ⟨-, hlog⟩ | ⟨-, hne, hlog⟩
  · rw [hlog]
  · exact ⟨fun hnil => absurd hnil hne, fun hnil => List.prefix_nil.mp (hnil ▸ hlog)⟩

/-! ## Runs in which nothing throws -/

/-- No call of the run throws. -/
def NothingThrows (slot : Subscriber (Bar P Count TimeUnit) σ) (s : BarAggregator P Count TimeUnit × σ)
    (bars : List (Bar1min P)) : Prop :=
  ∀ pre b post, bars = pre ++ b :: post →
    (onBar slot (onBars slot s pre).1 (onBars slot s pre).2 b).1 = .ok ()

/-- What throws nothing throws nothing before its end. -/
theorem NothingThrows.of_prefix {slot : Subscriber (Bar P Count TimeUnit) σ}
    {s : BarAggregator P Count TimeUnit × σ} {pre bars : List (Bar1min P)} (hpre : pre <+: bars)
    (h : NothingThrows slot s bars) : NothingThrows slot s pre := by
  obtain ⟨more, rfl⟩ := hpre
  exact fun p b post heq => h p b (post ++ more) (by simp [heq])

/-- Nothing throws when neither the first calls throw nor the last one. -/
theorem nothingThrows_concat {slot : Subscriber (Bar P Count TimeUnit) σ}
    {s : BarAggregator P Count TimeUnit × σ} {bars : List (Bar1min P)} {b : Bar1min P} :
    NothingThrows slot s (bars ++ [b]) ↔ NothingThrows slot s bars ∧
      (onBar slot (onBars slot s bars).1 (onBars slot s bars).2 b).1 = .ok () := by
  constructor
  · intro h
    exact ⟨h.of_prefix (List.prefix_append _ _), h bars b [] rfl⟩
  · rintro ⟨hbars, hb⟩ pre c post heq
    rcases List.eq_nil_or_concat' post with rfl | ⟨post, d, rfl⟩
    · obtain ⟨rfl, hc⟩ := List.append_inj' heq rfl
      obtain rfl : b = c := by simpa using hc
      exact hb
    · rw [← List.cons_append, ← List.append_assoc] at heq
      exact hbars pre c post (List.append_inj' heq rfl).1

/-- In such a run every bar is accepted, and the slots see all aggregated bars. -/
theorem NothingThrows.spec {slot : Subscriber (Bar P Count TimeUnit) σ} {world : σ}
    {bars : List (Bar1min P)} (h : NothingThrows slot ({}, world) bars) :
    accepted bars = bars ∧ Represents (onBars slot ({}, world) bars).1 bars ∧
      (onBars slot ({}, world) bars).2
        = (emissions Count TimeUnit bars).foldl (fun w bar => (slot bar w).2) world := by
  induction bars using List.reverseRecOn with
  | nil => exact ⟨rfl, represents_init, by simp [emissions]⟩
  | append_singleton bars b ih =>
    obtain ⟨hbars, hok⟩ := nothingThrows_concat.mp h
    obtain ⟨haccepted, hrep, hworld⟩ := ih hbars
    rw [onBars_concat]
    generalize onBars slot ({}, world) bars = s at hok hrep hworld
    have hcall := hrep.call slot s.2 b
    have haccepts := checkSequence_of_getLast? hrep.lastInputBar b
    generalize onBar slot s.1 s.2 b = r at hok hcall
    -- the two calls that throw are excluded
    cases hcall with
    | refused => cases hok
    | folded hcheck hcount =>
      rw [accepted_concat, haccepted, if_pos (haccepts.mp hcheck),
        emissions_concat_of_ne (mt hrep.count_eq_iff.mpr hcount)]
      exact ⟨rfl, hrep.folded b hcount, hworld⟩
    | emitted hcheck hcount hslot =>
      rw [accepted_concat, haccepted, if_pos (haccepts.mp hcheck),
        emissions_concat_of_eq (hrep.count_eq_iff.mp hcount) (hrep.mergeBars_rest b),
        List.foldl_append, ← hworld]
      exact ⟨rfl, hrep.emitted b hcount, (congrArg Prod.snd hslot).symm⟩
    | thrown => cases hok

/-- Where nothing throws, the slots see the emissions of all bars. -/
theorem NothingThrows.log {slot : Subscriber (Bar P Count TimeUnit) σ} {world : σ}
    {bars : List (Bar1min P)} (h : NothingThrows slot.logged ({}, [], world) bars) :
    (onBars slot.logged ({}, [], world) bars).2.1 = emissions Count TimeUnit bars := by
  rw [h.spec.2.2, foldl_logged, List.nil_append]

/-- Each emission summarizes its block of the bars. -/
theorem NothingThrows.summarizes_log {slot : Subscriber (Bar P Count TimeUnit) σ} {world : σ}
    {bars : List (Bar1min P)} (h : NothingThrows slot.logged ({}, [], world) bars) :
    List.Forall₂ Summarizes (Blocks.complete (barsNeeded Count TimeUnit).toNat bars)
      (onBars slot.logged ({}, [], world) bars).2.1 := by
  have hsummaries := summarizes_emissions Count TimeUnit bars
  rw [h.spec.1] at hsummaries
  rwa [h.log]

/-- Bars that are all accepted throw nothing, if the slots do not. -/
theorem nothingThrows_of_accepted {slot : Subscriber (Bar P Count TimeUnit) σ} (hslot : slot.NeverThrows)
    {world : σ} {bars : List (Bar1min P)} (h : accepted bars = bars) :
    NothingThrows slot ({}, world) bars := by
  induction bars using List.reverseRecOn with
  | nil =>
    intro pre b post heq
    simp at heq
  | append_singleton bars b ih =>
    have hle : (accepted bars).length ≤ bars.length := length_accepted_le bars
    rw [accepted_concat] at h
    split at h
    · rename_i hb
      have hbars := List.append_inj_left' h rfl
      have hrep := (onBars_spec hslot world bars).1
      exact nothingThrows_concat.mpr ⟨ih hbars, (hrep.onBar_accepted hslot _ hb).1⟩
    · rw [h, List.length_append, List.length_singleton] at hle
      omega

/-- A slot that throws whatever it is given. -/
def throwingSlot : Subscriber (Bar5min ℚ) Unit := fun _ w => (.error (.other "subscriber"), w)

/-- After the exception at the fifth minute the count is 5, and ten more minutes bring no emission. -/
theorem throwing_slot_silences_aggregator :
    let s := onBars throwingSlot.logged ({}, [], ()) ([0, 1, 2, 3, 4].map flatBar)
    s.1.barsInCurrentWindow = 5 ∧ s.2.1.length = 1 ∧
      (onBars throwingSlot.logged s ([5, 6, 7, 8, 9, 10, 11, 12, 13, 14].map flatBar)).2.1.length = 1 ∧
        ¬ Runs.Along (step throwingSlot) WindowOpen ({}, ()) ([0, 1, 2, 3, 4].map flatBar) := by
  refine ⟨by decide +kernel, by decide +kernel, by decide +kernel, fun halong => ?_⟩
  have hopen := halong _ _ List.prefix_rfl (run_step throwingSlot _ _)
  have hcount : (onBars throwingSlot ({}, ()) ([0, 1, 2, 3, 4].map flatBar)).1.barsInCurrentWindow = 5 := by
    decide +kernel
  have hlt := hopen.2
  rw [hcount, barsNeeded_minutes (by norm_num)] at hlt
  exact absurd hlt (by norm_num)

end MacdTradingBot
