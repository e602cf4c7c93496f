import MacdTradingBot.Lib.Blocks
import MacdTradingBot.Market.BarAggregator
import Mathlib.Data.List.Forall2
import Mathlib.Data.List.Induction

/-!
# The aggregator filters, cuts into blocks, and folds

What the aggregator is for, without its state: keep the input bars that continue the sequence
(`accepted`), cut them into complete blocks of `barsNeeded` bars, and summarize each block as one bar
(`Summarizes`). `Represents` ties the members of `BarAggregator` to the accepted history; it is kept by
every call, so the emitted bars are the summaries of the complete blocks, in order.
-/

namespace MacdTradingBot

variable {P : Type} [LinearOrder P] {σ : Type} {Count : ℕ} {TimeUnit : ChronoDuration}

open BarAggregator

/-! ## The abstract aggregator -/

/-- The bar continues the accepted sequence `acc`: it is the first one, or adjoins the last one. -/
def accepts (acc : List (Bar1min P)) (b : Bar1min P) : Bool :=
  match acc.getLast? with
  | none => true
  | some last => isConsecutive last b

/-- The first bar, and then every bar that is consecutive to the last bar kept. -/
def accepted (bars : List (Bar1min P)) : List (Bar1min P) :=
  bars.foldl (fun acc b => if accepts acc b then acc ++ [b] else acc) []

/-- `out` is the aggregated bar of `block`: the symbol of its bars, the open and the timestamp (cast to
the aggregated unit) of its first bar, the close of its last, the greatest high, the least low, and the
sum of the volumes modulo `2 ^ 64`. -/
structure Summarizes (block : List (Bar1min P)) (out : Bar P Count TimeUnit) : Prop where
  symbol : ∀ b ∈ block, b.symbol = out.symbol
  «open» : block.head?.map Bar.open = some out.open
  close : block.getLast?.map Bar.close = some out.close
  high : (block.map Bar.high).max? = some out.high
  low : (block.map Bar.low).min? = some out.low
  volume : out.volume.toNat = (block.map fun b => b.volume.toNat).sum % 2 ^ 64
  timestamp : block.head?.map (fun b => durationCast .minutes TimeUnit b.timestamp)
    = some out.timestamp

omit [LinearOrder P] in
theorem accepted_concat (bars : List (Bar1min P)) (b : Bar1min P) :
    accepted (bars ++ [b])
      = if accepts (accepted bars) b then accepted bars ++ [b] else accepted bars := by
  rw [accepted, List.foldl_append]
  rfl

omit [LinearOrder P] in
theorem length_accepted_le (bars : List (Bar1min P)) : (accepted bars).length ≤ bars.length := by
  induction bars using List.reverseRecOn with
  | nil => exact le_rfl
  | append_singleton bars b ih =>
    rw [accepted_concat, List.length_append]
    split
    · rw [List.length_append]
      omega
    · omega

omit [LinearOrder P] in
/-- A refused bar leaves no trace in the accepted sequence. -/
theorem accepted_append_of_rejected {bars junk : List (Bar1min P)}
    (h : ∀ b ∈ junk, accepts (accepted bars) b = false) : accepted (bars ++ junk) = accepted bars := by
  induction junk using List.reverseRecOn with
  | nil => simp
  | append_singleton junk b ih =>
    have hjunk := ih fun c hc => h c (by simp [hc])
    have hb := h b (by simp)
    rw [← List.append_assoc, accepted_concat, hjunk, hb]
    rfl

omit [LinearOrder P] in
theorem symbol_eq_of_mem_accepted {bars : List (Bar1min P)} {b c : Bar1min P}
    (hb : b ∈ accepted bars) (hc : c ∈ accepted bars) : b.symbol = c.symbol := by
  induction bars using List.reverseRecOn generalizing b c with
  | nil => simp [accepted] at hb
  | append_singleton bars a ih =>
    rw [accepted_concat] at hb hc
    split at hb
    · rename_i h
      rw [if_pos h] at hc
      -- the new bar has the symbol of the last one kept, hence of all of them
      have key : ∀ d ∈ accepted bars, d.symbol = a.symbol := by
        intro d hd
        rw [accepts] at h
        split at h
        · rename_i hlast
          rw [List.getLast?_eq_none_iff] at hlast
          simp [hlast] at hd
        · rename_i last hlast
          exact (ih hd (List.mem_of_getLast? hlast)).trans (symbol_eq_of_isConsecutive h)
      simp only [List.mem_append, List.mem_singleton] at hb hc
      rcases hb with hb | rfl <;> rcases hc with hc | rfl
      · exact ih hb hc
      · exact key b hb
      · exact (key c hc).symm
      · rfl
    · rename_i h
      rw [if_neg h] at hc
      exact ih hb hc

/-! ## Folding a block -/

/-- Fold the bars of a block as the aggregator does. -/
def mergeBars : List (Bar1min P) → Option (Bar P Count TimeUnit)
  | [] => none
  | first :: more => some (more.foldl extendWindow (openWindow first))

@[simp]
theorem mergeBars_eq_none {block : List (Bar1min P)} :
    (mergeBars block : Option (Bar P Count TimeUnit)) = none ↔ block = [] := by
  cases block <;> simp [mergeBars]

theorem mergeBars_concat (block : List (Bar1min P)) (b : Bar1min P) :
    mergeBars (block ++ [b])
      = some (nextWindow (mergeBars block : Option (Bar P Count TimeUnit)) b) := by
  cases block <;> simp [mergeBars, nextWindow]

omit [LinearOrder P] in
/-- No close is invented: the summary closes where one of its bars does. -/
theorem exists_close_of_getLast? {block : List (Bar1min P)} {out : Bar P Count TimeUnit}
    (h : block.getLast?.map Bar.close = some out.close) : ∃ b ∈ block, b.close = out.close := by
  obtain ⟨b, hb, hclose⟩ := Option.map_eq_some_iff.mp h
  exact ⟨b, List.mem_of_getLast? hb, hclose⟩

/-- Extending the summary of a block by a bar of the same symbol gives the summary of the longer
block. -/
theorem Summarizes.extendWindow {block : List (Bar1min P)} {out : Bar P Count TimeUnit}
    (h : Summarizes block out) {b : Bar1min P} (hb : b.symbol = out.symbol) :
    Summarizes (block ++ [b]) (extendWindow out b) := by
  have hne : block ≠ [] := by
    rintro rfl
    simpa using h.open
  obtain ⟨first, more, rfl⟩ := List.exists_cons_of_ne_nil hne
  refine ⟨?_, ?_, ?_, ?_, ?_, ?_, ?_⟩
  · intro c hc
    rcases List.mem_append.mp hc with hc | hc
    · exact h.symbol c hc
    · rw [List.mem_singleton.mp hc]
      exact hb
  · exact h.open
  · rw [List.getLast?_concat]
    rfl
  · have hh := h.high
    simp only [List.map_cons, List.max?_cons', Option.some.injEq] at hh
    simp only [List.cons_append, List.map_cons, List.map_append, List.map_nil, List.max?_cons',
      List.foldl_append, hh]
    rfl
  · have hl := h.low
    simp only [List.map_cons, List.min?_cons', Option.some.injEq] at hl
    simp only [List.cons_append, List.map_cons, List.map_append, List.map_nil, List.min?_cons',
      List.foldl_append, hl]
    rfl
  · have hv := h.volume
    have hsum : (BarAggregator.extendWindow out b).volume = out.volume + b.volume := rfl
    rw [hsum, UInt64.toNat_add, hv]
    simp [Nat.add_assoc]
  · exact h.timestamp

/-- The fold of a block of one symbol is its summary. -/
theorem summarizes_of_mergeBars {block : List (Bar1min P)} {out : Bar P Count TimeUnit}
    (hsymbol : ∀ b ∈ block, ∀ c ∈ block, b.symbol = c.symbol) (h : mergeBars block = some out) :
    Summarizes block out := by
  induction block using List.reverseRecOn generalizing out with
  | nil => simp [mergeBars] at h
  | append_singleton block b ih =>
    rw [mergeBars_concat, Option.some.injEq] at h
    subst h
    cases hm : (mergeBars block : Option (Bar P Count TimeUnit)) with
    | none =>
      rw [mergeBars_eq_none] at hm
      subst hm
      refine ⟨by simp [nextWindow, openWindow], rfl, rfl, rfl, rfl, ?_, rfl⟩
      simp [nextWindow, openWindow, Bar.volume, Nat.mod_eq_of_lt (UInt64.toNat_lt _)]
    | some current =>
      have hblock := ih (fun c hc d hd => hsymbol c (by simp [hc]) d (by simp [hd])) hm
      have hne : block ≠ [] := by
        rintro rfl
        simp [mergeBars] at hm
      have hb : b.symbol = current.symbol := by
        obtain ⟨c, hc⟩ := List.exists_mem_of_ne_nil block hne
        rw [hsymbol b (by simp) c (by simp [hc]), hblock.symbol c hc]
      exact hblock.extendWindow hb

/-! ## The representation invariant -/

/-- The members of the aggregator, when `acc` are the bars accepted so far. -/
structure Represents (agg : BarAggregator P Count TimeUnit) (acc : List (Bar1min P)) : Prop where
  lastInputBar : agg.lastInputBar = acc.getLast?
  count : agg.barsInCurrentWindow = (Blocks.rest (barsNeeded Count TimeUnit).toNat acc).length
  window : agg.window = mergeBars (Blocks.rest (barsNeeded Count TimeUnit).toNat acc)

omit [LinearOrder P] in
theorem checkSequence_of_getLast? {agg : BarAggregator P Count TimeUnit} {acc : List (Bar1min P)}
    (h : agg.lastInputBar = acc.getLast?) (b : Bar1min P) :
    agg.checkSequence b = .ok () ↔ accepts acc b = true := by
  unfold checkSequence accepts
  rw [h]
  cases acc.getLast? with
  | none => simp
  | some last => cases hc : isConsecutive last b <;> simp

theorem represents_init : Represents ({} : BarAggregator P Count TimeUnit) [] := by
  refine ⟨rfl, by simp, ?_⟩
  rw [Blocks.rest_nil]
  rfl

namespace Represents

variable {agg : BarAggregator P Count TimeUnit} {acc : List (Bar1min P)}

/-- The partial bar is there whenever the source reads it. -/
theorem isSome_currentAggregatedBar (h : Represents agg acc) (h0 : agg.barsInCurrentWindow ≠ 0) :
    agg.currentAggregatedBar.isSome := by
  have hw := h.window
  have hcount := h.count
  rw [BarAggregator.window, if_neg h0] at hw
  rw [hw, Option.isSome_iff_ne_none, ne_eq, mergeBars_eq_none]
  intro hnil
  rw [hnil] at hcount
  exact h0 (by simpa using hcount)

/-- What a call does. -/
theorem call (h : Represents agg acc) (slot : Subscriber (Bar P Count TimeUnit) σ) (world : σ)
    (b : Bar1min P) : Call slot agg world b (onBar slot agg world b) :=
  call_onBar slot world b h.isSome_currentAggregatedBar

/-- The window is full exactly when the block is. -/
theorem count_eq_iff (h : Represents agg acc) :
    agg.barsInCurrentWindow + 1 = barsNeeded Count TimeUnit ↔
      (Blocks.rest (barsNeeded Count TimeUnit).toNat acc).length + 1
        = (barsNeeded Count TimeUnit).toNat := by
  rw [h.count]
  omega

theorem mergeBars_rest (h : Represents agg acc) (b : Bar1min P) :
    mergeBars (Blocks.rest (barsNeeded Count TimeUnit).toNat acc ++ [b])
      = some (nextWindow agg.window b) := by
  rw [mergeBars_concat, h.window]

/-- A bar that does not fill the window. -/
theorem folded (h : Represents agg acc) (b : Bar1min P)
    (hcount : agg.barsInCurrentWindow + 1 ≠ barsNeeded Count TimeUnit) :
    Represents ⟨some (nextWindow agg.window b), agg.barsInCurrentWindow + 1, some b⟩ (acc ++ [b]) := by
  have hne := mt h.count_eq_iff.mpr hcount
  refine ⟨by simp, ?_, ?_⟩
  · rw [Blocks.rest_concat_of_ne hne, h.count, List.length_append, List.length_singleton, Nat.cast_add,
      Nat.cast_one]
  · have hcount0 : agg.barsInCurrentWindow + 1 ≠ 0 := by
      rw [h.count]
      omega
    rw [Blocks.rest_concat_of_ne hne, h.mergeBars_rest]
    simp only [BarAggregator.window]
    rw [if_neg hcount0]

/-- A bar that fills the window, which starts over. -/
theorem emitted (h : Represents agg acc) (b : Bar1min P)
    (hcount : agg.barsInCurrentWindow + 1 = barsNeeded Count TimeUnit) :
    Represents ⟨some (nextWindow agg.window b), 0, some b⟩ (acc ++ [b]) := by
  have hfull := h.count_eq_iff.mp hcount
  refine ⟨by simp, ?_, ?_⟩
  · simp [Blocks.rest_concat_of_eq hfull]
  · rw [Blocks.rest_concat_of_eq hfull]
    rfl

/-- A refused bar: the call throws, and changes and emits nothing. -/
theorem onBar_rejected (h : Represents agg acc) {slot : Subscriber (Bar P Count TimeUnit) σ}
    (world : σ) {b : Bar1min P} (hb : accepts acc b = false) :
    onBar slot agg world b =
      (.error (.runtimeError "Bar timestamp does not match expected sequence"), agg, world) := by
  have hcheck : agg.checkSequence b ≠ .ok () := by
    rw [ne_eq, checkSequence_of_getLast? h.lastInputBar, hb]
    exact Bool.false_ne_true
  have hcall := h.call slot world b
  generalize onBar slot agg world b = r at hcall
  cases hcall with
  | refused => rfl
  | folded hok | emitted hok | thrown hok => exact absurd hok hcheck

/-- An accepted bar: the call returns, the history grows by the bar, and the bar is the last one of a
complete block exactly when something is emitted, namely the fold of that block. -/
theorem onBar_accepted (h : Represents agg acc) {slot : Subscriber (Bar P Count TimeUnit) σ}
    (hslot : slot.NeverThrows) (world : σ) {b : Bar1min P} (hb : accepts acc b = true) :
    let k := (barsNeeded Count TimeUnit).toNat
    let r := onBar slot agg world b
    r.1 = .ok () ∧ Represents r.2.1 (acc ++ [b]) ∧
      (((Blocks.rest k acc).length + 1 ≠ k ∧ r.2.2 = world) ∨
        ((Blocks.rest k acc).length + 1 = k ∧
          ∃ bar, mergeBars (Blocks.rest k acc ++ [b]) = some bar ∧ r.2.2 = (slot bar world).2)) := by
  intro k r
  have hcall : Call slot agg world b r := h.call slot world b
  have hcheck := (checkSequence_of_getLast? h.lastInputBar b).mpr hb
  generalize r = r at hcall
  cases hcall with
  | refused hrefused => exact absurd hcheck hrefused
  | folded _ hcount =>
    exact ⟨rfl, h.folded b hcount, Or.inl ⟨mt h.count_eq_iff.mpr hcount, rfl⟩⟩
  | emitted _ hcount hemit =>
    exact ⟨rfl, h.emitted b hcount,
      Or.inr ⟨h.count_eq_iff.mp hcount, _, h.mergeBars_rest b, by rw [hemit]⟩⟩
  | thrown _ _ hthrow =>
    have hok := hslot (nextWindow agg.window b) world
    rw [hthrow] at hok
    cases hok

end Represents

end MacdTradingBot
