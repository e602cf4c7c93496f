import MacdTradingBot.Market.AggregatorRefinement
import Mathlib.Data.List.Chain
import Mathlib.Data.Rat.Defs
import Mathlib.Algebra.Order.Ring.Rat

/-!
# Runs of the aggregator

Whole sequences of `on_bar` calls, for slots that do not throw. `onBar_refines` says what a sequence
emits and which calls throw. `emits_iff_adjoins` says when the aggregator still emits: the guard never
lets the sequence start over, so one missing minute ends it.
-/

namespace MacdTradingBot

variable {P : Type} [LinearOrder P] {σ : Type} {Count : ℕ} {TimeUnit : ChronoDuration}

open BarAggregator

/-- The aggregated bars of an accepted sequence: one for each complete block. -/
def emissions (Count : ℕ) (TimeUnit : ChronoDuration) (acc : List (Bar1min P)) :
    List (Bar P Count TimeUnit) :=
  (Blocks.complete (barsNeeded Count TimeUnit).toNat acc).filterMap mergeBars

theorem emissions_concat_of_ne {acc : List (Bar1min P)} {b : Bar1min P}
    (h : (Blocks.rest (barsNeeded Count TimeUnit).toNat acc).length + 1
      ≠ (barsNeeded Count TimeUnit).toNat) :
    emissions Count TimeUnit (acc ++ [b]) = emissions Count TimeUnit acc := by
  rw [emissions, Blocks.complete_concat_of_ne h, emissions]

theorem emissions_concat_of_eq {acc : List (Bar1min P)} {b : Bar1min P} {bar : Bar P Count TimeUnit}
    (h : (Blocks.rest (barsNeeded Count TimeUnit).toNat acc).length + 1
      = (barsNeeded Count TimeUnit).toNat)
    (hbar : mergeBars (Blocks.rest (barsNeeded Count TimeUnit).toNat acc ++ [b]) = some bar) :
    emissions Count TimeUnit (acc ++ [b]) = emissions Count TimeUnit acc ++ [bar] := by
  rw [emissions, Blocks.complete_concat_of_eq h, List.filterMap_append, emissions]
  simp [hbar]

/-- Every complete block gives one aggregated bar, its summary. -/
theorem forall₂_summarizes_emissions (hk : 1 ≤ barsNeeded Count TimeUnit) (bars : List (Bar1min P)) :
    List.Forall₂ Summarizes
      (Blocks.complete (barsNeeded Count TimeUnit).toNat (accepted bars))
      (emissions Count TimeUnit (accepted bars)) := by
  unfold emissions
  have hblocks : ∀ block ∈ Blocks.complete (barsNeeded Count TimeUnit).toNat (accepted bars),
      block ≠ [] ∧ ∀ b ∈ block, b ∈ accepted bars := by
    intro block hblock
    have hlen := Blocks.length_of_mem_complete hblock
    refine ⟨?_, fun b hb => (Blocks.sublist_of_mem_complete hblock).subset hb⟩
    rintro rfl
    simp at hlen
    omega
  generalize Blocks.complete (barsNeeded Count TimeUnit).toNat (accepted bars) = blocks at hblocks
  induction blocks with
  | nil => exact .nil
  | cons block blocks ih =>
    obtain ⟨hne, hmem⟩ := hblocks block (by simp)
    have hrest := ih fun c hc => hblocks c (by simp [hc])
    obtain ⟨bar, hbar⟩ := Option.ne_none_iff_exists'.mp
      (mt (@mergeBars_eq_none P _ Count TimeUnit block).mp hne)
    rw [List.filterMap_cons_some hbar]
    refine .cons (summarizes_of_mergeBars (fun b hb c hc => ?_) hbar) hrest
    exact symbol_eq_of_mem_accepted (hmem b hb) (hmem c hc)

/-- A window that needs no bar is never complete. -/
theorem summarizes_emissions (Count : ℕ) (TimeUnit : ChronoDuration) (bars : List (Bar1min P)) :
    List.Forall₂ Summarizes
      (Blocks.complete (barsNeeded Count TimeUnit).toNat (accepted bars))
      (emissions Count TimeUnit (accepted bars)) := by
  by_cases hk : 1 ≤ barsNeeded Count TimeUnit
  · exact forall₂_summarizes_emissions hk bars
  · have hzero : (barsNeeded Count TimeUnit).toNat = 0 := by omega
    simp [emissions, Blocks.complete, hzero]

theorem length_emissions (hk : 1 ≤ barsNeeded Count TimeUnit) (bars : List (Bar1min P)) :
    (emissions Count TimeUnit (accepted bars)).length
      = (accepted bars).length / (barsNeeded Count TimeUnit).toNat := by
  rw [← (forall₂_summarizes_emissions hk bars).length_eq, Blocks.length_complete]

/-- After any sequence of calls the members represent the accepted bars, and the slots have seen the
aggregated bars of the accepted bars. -/
theorem onBars_spec {slot : Subscriber (Bar P Count TimeUnit) σ} (hslot : slot.NeverThrows) (world : σ)
    (bars : List (Bar1min P)) :
    Represents (onBars slot ({}, world) bars).1 (accepted bars) ∧
      (onBars slot ({}, world) bars).2
        = (emissions Count TimeUnit (accepted bars)).foldl (fun w bar => (slot bar w).2) world := by
  induction bars using List.reverseRecOn with
  | nil => exact ⟨represents_init, by simp [emissions, accepted]⟩
  | append_singleton bars b ih =>
    obtain ⟨hrep, hworld⟩ := ih
    rw [onBars_concat, accepted_concat]
    cases hb : accepts (accepted bars) b with
    | false =>
      rw [hrep.onBar_rejected _ hb]
      exact ⟨hrep, hworld⟩
    | true =>
      obtain ⟨-, hrep', hemit⟩ := hrep.onBar_accepted hslot (onBars slot ({}, world) bars).2 hb
      refine ⟨hrep', ?_⟩
      rcases hemit with ⟨hne, hsame⟩ | ⟨heq, bar, hbar, hnew⟩
      · rw [if_pos rfl, emissions_concat_of_ne hne, hsame, hworld]
      · rw [if_pos rfl, emissions_concat_of_eq heq hbar, hnew, hworld, List.foldl_append]
        rfl

omit [LinearOrder P] in
theorem foldl_logged {α : Type} (slot : Subscriber α σ) (log : List α) (world : σ) (as : List α) :
    as.foldl (fun w a => (slot.logged a w).2) (log, world)
      = (log ++ as, as.foldl (fun w a => (slot a w).2) world) := by
  induction as generalizing log world with
  | nil => simp
  | cons a as ih =>
    rw [List.foldl_cons, Subscriber.logged, ih, List.append_assoc]
    rfl

/-- The record of the emissions is the list of the aggregated bars. -/
theorem onBars_log {slot : Subscriber (Bar P Count TimeUnit) σ} (hslot : slot.NeverThrows) (world : σ)
    (bars : List (Bar1min P)) :
    (onBars slot.logged ({}, [], world) bars).2.1 = emissions Count TimeUnit (accepted bars) := by
  rw [(onBars_spec hslot.logged ([], world) bars).2, foldl_logged, List.nil_append]

/-- No call of the sequence throws, whatever the signal is connected to later: the aggregator alone
accepts the bars. -/
def AcceptsAll (Count : ℕ) (TimeUnit : ChronoDuration) (bars : List (Bar1min P)) : Prop :=
  ∀ pre b post, bars = pre ++ b :: post →
    let slot : Subscriber (Bar P Count TimeUnit) Unit := Subscriber.ignore
    (onBar slot (onBars slot ({}, ()) pre).1 () b).1 = .ok ()

theorem AcceptsAll.accepted_eq {bars : List (Bar1min P)}
    (h : AcceptsAll Count TimeUnit bars) : accepted bars = bars := by
  induction bars using List.reverseRecOn with
  | nil => rfl
  | append_singleton bars b ih =>
    have hbars : accepted bars = bars := ih fun pre c post heq =>
      h pre c (post ++ [b]) (by simp [heq])
    have hignore : (Subscriber.ignore : Subscriber (Bar P Count TimeUnit) Unit).NeverThrows :=
      Subscriber.ignore_neverThrows
    have hrep := (onBars_spec hignore () bars).1
    have hok : (onBar Subscriber.ignore (onBars Subscriber.ignore ({}, ()) bars).1 () b).1 = .ok () :=
      h bars b [] rfl
    cases hb : accepts (accepted bars) b with
    | false =>
      rw [hrep.onBar_rejected () hb] at hok
      cases hok
    | true => rw [accepted_concat, hb, if_pos rfl, hbars]

/-- The aggregator refines filter, chunk and fold. For every sequence of calls: one emission for each
complete block of accepted bars, the summary of the block; the next call throws exactly on a bar that is
not accepted, and then changes and emits nothing; refused bars can be left out; and the partial bar is
there when it is read. -/
theorem onBar_refines {slot : Subscriber (Bar P Count TimeUnit) σ} (hslot : slot.NeverThrows)
    (hk : 1 ≤ barsNeeded Count TimeUnit) (world : σ) (bars : List (Bar1min P)) :
    let s := onBars slot.logged ({}, [], world) bars
    List.Forall₂ Summarizes (Blocks.complete (barsNeeded Count TimeUnit).toNat (accepted bars)) s.2.1 ∧
      (∀ b, ((∃ e, (onBar slot.logged s.1 s.2 b).1 = .error e) ↔ accepts (accepted bars) b = false) ∧
        ∀ e, (onBar slot.logged s.1 s.2 b).1 = .error e →
          e = .runtimeError "Bar timestamp does not match expected sequence" ∧
            (onBar slot.logged s.1 s.2 b).2 = s) ∧
      (∀ junk more, (∀ b ∈ junk, accepts (accepted bars) b = false) →
        onBars slot.logged s (junk ++ more) = onBars slot.logged s more) ∧
      (s.1.barsInCurrentWindow ≠ 0 → s.1.currentAggregatedBar.isSome) := by
  intro s
  have hrep : Represents s.1 (accepted bars) := (onBars_spec hslot.logged ([], world) bars).1
  have hrejected : ∀ {b}, accepts (accepted bars) b = false → onBar slot.logged s.1 s.2 b =
      (.error (.runtimeError "Bar timestamp does not match expected sequence"), s) :=
    fun hb => hrep.onBar_rejected s.2 hb
  refine ⟨?_, ?_, ?_, hrep.isSome_currentAggregatedBar⟩
  · rw [show s.2.1 = _ from onBars_log hslot world bars]
    exact forall₂_summarizes_emissions hk bars
  · intro b
    cases hb : accepts (accepted bars) b with
    | false =>
      rw [hrejected hb]
      refine ⟨by simp, fun e he => ?_⟩
      rw [Except.error.injEq] at he
      exact ⟨he.symm, rfl⟩
    | true =>
      obtain ⟨hok, -, -⟩ := hrep.onBar_accepted hslot.logged s.2 hb
      rw [hok]
      simp
  · intro junk more hjunk
    -- each refused bar leaves the state as it was
    have hstay : onBars slot.logged s junk = s := by
      induction junk using List.reverseRecOn with
      | nil => rfl
      | append_singleton junk b ih =>
        rw [onBars_concat, ih fun c hc => hjunk c (by simp [hc]), hrejected (hjunk b (by simp))]
    rw [onBars_append, hstay]

/-- The five-minute aggregator of the bot with nothing connected to its signal. -/
def ignoreBar5min : Subscriber (Bar5min ℚ) Unit := Subscriber.ignore

theorem ignoreBar5min_neverThrows : ignoreBar5min.NeverThrows := Subscriber.ignore_neverThrows

/-- An aggregator with nothing connected to its signal. -/
def ignoreBar (Count : ℕ) (TimeUnit : ChronoDuration) : Subscriber (Bar ℚ Count TimeUnit) Unit :=
  Subscriber.ignore

theorem ignoreBar_neverThrows (Count : ℕ) (TimeUnit : ChronoDuration) :
    (ignoreBar Count TimeUnit).NeverThrows :=
  Subscriber.ignore_neverThrows

/-- Eleven minutes of one symbol. Between them come a minute too early, a bar of another symbol and a bar
that has been there before. -/
def interruptedBars : List (Bar1min ℚ) :=
  [⟨"PLTR", ⟨1, 3, 1, 2, 7⟩, 0⟩, ⟨"PLTR", ⟨2, 4, 2, 3, 1⟩, 1⟩, ⟨"PLTR", ⟨8, 8, 8, 8, 8⟩, 7⟩,
    ⟨"PLTR", ⟨3, 3, 2, 2, 1⟩, 2⟩, ⟨"PLTR", ⟨2, 2, 2, 2, 1⟩, 3⟩, ⟨"AAPL", ⟨8, 8, 8, 8, 8⟩, 4⟩,
    ⟨"PLTR", ⟨2, 2, 0, 1, 2⟩, 4⟩, ⟨"PLTR", ⟨1, 6, 1, 5, 1⟩, 5⟩, ⟨"PLTR", ⟨5, 5, 5, 5, 1⟩, 6⟩,
    ⟨"PLTR", ⟨5, 5, 5, 5, 1⟩, 7⟩, ⟨"PLTR", ⟨8, 8, 8, 8, 8⟩, 3⟩, ⟨"PLTR", ⟨5, 5, 5, 5, 1⟩, 8⟩,
    ⟨"PLTR", ⟨5, 5, 4, 4, 1⟩, 9⟩, ⟨"PLTR", ⟨4, 4, 4, 4, 1⟩, 10⟩]

/-- A five-minute window: two blocks are complete, and three bars have been refused. -/
theorem onBar_refines_five_minutes :
    let s := onBars ignoreBar5min.logged ({}, [], ()) interruptedBars
    (accepted interruptedBars).map (·.timestamp) = [0, 1, 2, 3, 4, 5, 6, 7, 8, 9, 10] ∧
      s.2.1 = [⟨"PLTR", ⟨1, 4, 0, 1, 12⟩, 0⟩, ⟨"PLTR", ⟨1, 6, 1, 4, 5⟩, 5⟩] ∧
      List.Forall₂ Summarizes (Blocks.complete 5 (accepted interruptedBars)) s.2.1 ∧
      ∃ e, (onBar ignoreBar5min.logged s.1 s.2 ⟨"PLTR", ⟨1, 1, 1, 1, 1⟩, 12⟩).1 = .error e := by
  obtain ⟨hblocks, hthrows, -, -⟩ :=
    onBar_refines ignoreBar5min_neverThrows (by simp [barsNeeded_minutes (n := 5)]) () interruptedBars
  exact ⟨by decide, by decide +kernel, hblocks, (hthrows _).1.mpr (by decide)⟩

/-! ## Leaving a state -/

/-- A run of bars of one symbol at strictly consecutive minutes. -/
def ConsecutiveMinutes (run : List (Bar1min P)) : Prop :=
  run.IsChain fun a b => a.symbol = b.symbol ∧ b.timestamp = a.timestamp + 1

omit [LinearOrder P] in
/-- In a run of consecutive minutes no bar is earlier than the first one, and all have its symbol. -/
theorem ConsecutiveMinutes.of_mem_cons {first b : Bar1min P} {run : List (Bar1min P)}
    (h : ConsecutiveMinutes (first :: run)) (hb : b ∈ first :: run) :
    b.symbol = first.symbol ∧ first.timestamp ≤ b.timestamp := by
  induction run generalizing first with
  | nil =>
    obtain rfl : b = first := by simpa using hb
    exact ⟨rfl, le_rfl⟩
  | cons second run ih =>
    obtain ⟨⟨hsymbol, hts⟩, hrest⟩ := List.isChain_cons_cons.mp h
    rcases List.mem_cons.mp hb with rfl | hb
    · exact ⟨rfl, le_rfl⟩
    · obtain ⟨hsymbol', hle⟩ := ih hrest hb
      exact ⟨hsymbol'.trans hsymbol.symm, by omega⟩

omit [LinearOrder P] in
/-- A run of consecutive minutes whose first bar is accepted is accepted as a whole. -/
theorem accepted_append_of_adjoins {history run : List (Bar1min P)} (hrun : ConsecutiveMinutes run)
    (hfirst : ∀ first ∈ run.head?, accepts (accepted history) first = true) :
    accepted (history ++ run) = accepted history ++ run := by
  induction run using List.reverseRecOn with
  | nil => simp
  | append_singleton run b ih =>
    obtain ⟨hrun', -, hlast⟩ := List.isChain_append.mp hrun
    have hprefix : accepted (history ++ run) = accepted history ++ run :=
      ih hrun' fun first hf => hfirst first (by cases run <;> simp_all)
    have hb : accepts (accepted history ++ run) b = true := by
      rcases List.eq_nil_or_concat' run with rfl | ⟨init, prev, rfl⟩
      · simpa using hfirst b (by simp)
      · obtain ⟨hsymbol, hts⟩ := hlast prev (by simp) b (by simp)
        rw [accepts, ← List.append_assoc, List.getLast?_concat]
        exact (isConsecutive_minutes prev b).mpr ⟨hsymbol, Or.inl hts⟩
    rw [← List.append_assoc, accepted_concat, hprefix, if_pos hb, List.append_assoc]

omit [LinearOrder P] in
theorem ConsecutiveMinutes.accepted_eq {bars : List (Bar1min P)} (h : ConsecutiveMinutes bars) :
    accepted bars = bars :=
  @accepted_append_of_adjoins _ [] _ h fun _ _ => rfl

/-- Consecutive minutes are accepted from the start. -/
theorem acceptsAll_of_consecutiveMinutes {bars : List (Bar1min P)} (h : ConsecutiveMinutes bars) :
    AcceptsAll Count TimeUnit bars := by
  rintro pre b post rfl
  have hignore : (Subscriber.ignore : Subscriber (Bar P Count TimeUnit) Unit).NeverThrows :=
    Subscriber.ignore_neverThrows
  have hrep := (onBars_spec hignore () pre).1
  obtain ⟨hpre, -, hlast⟩ := List.isChain_append.mp h
  have hacc : accepted pre = pre := ConsecutiveMinutes.accepted_eq hpre
  have hb : accepts (accepted pre) b = true := by
    unfold accepts
    rw [hacc]
    split
    · rfl
    · rename_i last hl
      obtain ⟨hsymbol, hts⟩ := hlast last hl b (by simp)
      exact (isConsecutive_minutes last b).mpr ⟨hsymbol, Or.inl hts⟩
  exact (hrep.onBar_accepted hignore () hb).1

omit [LinearOrder P] in
/-- A later run of consecutive minutes whose first bar is refused is refused as a whole. -/
theorem not_accepts_of_gap {history run : List (Bar1min P)} {first : Bar1min P}
    (hrun : ConsecutiveMinutes (first :: run))
    (hlater : ∀ h ∈ accepted history, h.timestamp < first.timestamp)
    (hfirst : accepts (accepted history) first = false) :
    ∀ b ∈ first :: run, accepts (accepted history) b = false := by
  intro b hb
  obtain ⟨hsymbol, hle⟩ := hrun.of_mem_cons hb
  unfold accepts at hfirst ⊢
  split at hfirst
  · simp at hfirst
  · rename_i last hlast
    have hlt := hlater last (List.mem_of_getLast? hlast)
    by_contra hacc
    rw [Bool.not_eq_false, isConsecutive_minutes] at hacc
    rw [Bool.eq_false_iff, ne_eq, isConsecutive_minutes] at hfirst
    obtain ⟨hs, ht⟩ := hacc
    exact hfirst ⟨hs.trans hsymbol, Or.inl (by omega)⟩

omit [LinearOrder P] in
theorem mem_of_mem_accepted {bars : List (Bar1min P)} {b : Bar1min P} (hb : b ∈ accepted bars) :
    b ∈ bars := by
  induction bars using List.reverseRecOn with
  | nil => simp [accepted] at hb
  | append_singleton bars a ih =>
    rw [accepted_concat] at hb
    split at hb
    · rcases List.mem_append.mp hb with hb | hb
      · exact List.mem_append_left _ (ih hb)
      · exact List.mem_append_right _ hb
    · exact List.mem_append_left _ (ih hb)

/-- When the aggregator still emits: a following run of `2 * k` later consecutive minutes brings an
aggregated bar exactly if its first bar adjoins the last accepted bar, or none was accepted before. -/
theorem emits_iff_adjoins {slot : Subscriber (Bar P Count TimeUnit) σ} (hslot : slot.NeverThrows)
    (hk : 1 ≤ barsNeeded Count TimeUnit) (world : σ) (history run : List (Bar1min P))
    (hlen : run.length = 2 * (barsNeeded Count TimeUnit).toNat) (hrun : ConsecutiveMinutes run)
    (hlater : ∀ h ∈ history, ∀ b ∈ run, h.timestamp < b.timestamp) :
    let s := onBars slot.logged ({}, [], world) history
    s.2.1.length < (onBars slot.logged s run).2.1.length ↔
      ∀ last ∈ s.1.lastInputBar, ∀ first ∈ run.head?, isConsecutive last first = true := by
  intro s
  have hlog : s.2.1 = emissions Count TimeUnit (accepted history) := onBars_log hslot world history
  have hlog' : (onBars slot.logged s run).2.1
      = emissions Count TimeUnit (accepted (history ++ run)) := by
    rw [← onBars_log hslot world, onBars_append]
  have hlast : s.1.lastInputBar = (accepted history).getLast? :=
    (onBars_spec hslot.logged ([], world) history).1.lastInputBar
  rw [hlog, hlog', length_emissions hk, length_emissions hk, hlast]
  obtain ⟨first, more, rfl⟩ : ∃ first more, run = first :: more :=
    List.exists_cons_of_length_pos (by omega)
  have hguard : (∀ last ∈ (accepted history).getLast?, ∀ f ∈ (first :: more).head?,
      isConsecutive last f = true) ↔ accepts (accepted history) first = true := by
    unfold accepts
    cases (accepted history).getLast? <;> simp
  rw [hguard]
  cases hfirst : accepts (accepted history) first with
  -- the whole run is accepted, and completes two windows whatever was open
  | true =>
    rw [accepted_append_of_adjoins hrun (by simpa using hfirst), List.length_append, hlen,
      Nat.add_mul_div_right _ _ (by omega)]
    simp
  -- the first bar leaves a gap, and time only moves away from it
  | false =>
    have hgap := not_accepts_of_gap hrun
      (fun h hh => hlater h (mem_of_mem_accepted hh) first (by simp)) hfirst
    rw [accepted_append_of_rejected hgap]
    simp

/-- A minute bar of a single price. -/
def flatBar (minute : ℤ) : Bar1min ℚ :=
  ⟨"PLTR", ⟨1, 1, 1, 1, 1⟩, minute⟩

/-- One missing minute is enough: after the bar of minute 0, the ten bars of the minutes 2 to 11 are all
refused, and the five-minute aggregator emits nothing. -/
theorem gap_silences_aggregator :
    let run := [2, 3, 4, 5, 6, 7, 8, 9, 10, 11].map flatBar
    let s := onBars ignoreBar5min.logged ({}, [], ()) [flatBar 0]
    run.length = 2 * (barsNeeded 5 .minutes).toNat ∧ ConsecutiveMinutes run ∧
      (∀ h ∈ [flatBar 0], ∀ b ∈ run, h.timestamp < b.timestamp) ∧
      ¬ s.2.1.length < (onBars ignoreBar5min.logged s run).2.1.length := by
  refine ⟨by simp [barsNeeded_minutes (n := 5)], by simp [ConsecutiveMinutes, flatBar],
    by simp [flatBar], by decide +kernel⟩

/-- Adjoining the last accepted bar, ten minutes bring an aggregated bar. -/
theorem emits_after_adjoining_bar :
    let s := onBars ignoreBar5min.logged ({}, [], ()) [flatBar 1]
    s.2.1.length < (onBars ignoreBar5min.logged s
      ([2, 3, 4, 5, 6, 7, 8, 9, 10, 11].map flatBar)).2.1.length := by
  have h := emits_iff_adjoins ignoreBar5min_neverThrows
    (by simp [barsNeeded_minutes (n := 5)]) () [flatBar 1]
    ([2, 3, 4, 5, 6, 7, 8, 9, 10, 11].map flatBar) (by simp [barsNeeded_minutes (n := 5)])
    (by simp [ConsecutiveMinutes, flatBar]) (by simp [flatBar])
  exact h.mpr (by decide +kernel)

end MacdTradingBot
