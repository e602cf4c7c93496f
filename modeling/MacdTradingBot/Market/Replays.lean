import MacdTradingBot.Market.AggregatorRuns

/-!
# Bars that are replayed

A feed that reconnects may bring the same minutes again from the first one on. The aggregator refuses
them up to the bar before the last one that it has accepted: that bar adjoins the last one as well as the
bar after it does. So each replay repeats the last two bars, and then continues (`emissions_of_replays`).
-/

namespace MacdTradingBot

open BarAggregator

variable {P : Type} {σ : Type} {Count : ℕ} {TimeUnit : ChronoDuration} {bars : List (Bar1min P)}

/-! ## Where a replay is taken up -/

/-- The first bar of a replay that is accepted, when the `q`-th bar was the last one. -/
def takenUp (q : ℕ) : ℕ := if q ≤ 1 then q else q - 2

/-- The last bar accepted, after a replay of the first `n` bars. -/
def reached (q n : ℕ) : ℕ := if takenUp q < n then n else q

/-- The bars accepted of replays, each of them of the first so many bars, from the `q`-th bar on. -/
def replayed (bars : List (Bar1min P)) (q : ℕ) : List ℕ → List (Bar1min P)
  | [] => []
  | n :: counts => (bars.take n).drop (takenUp q) ++ replayed bars (reached q n) counts

/-- Consecutive minutes are told apart by their positions. -/
theorem ConsecutiveMinutes.timestamp_eq (h : ConsecutiveMinutes bars) {i j : ℕ} {a b : Bar1min P}
    (hi : bars[i]? = some a) (hj : bars[i + j]? = some b) :
    a.symbol = b.symbol ∧ b.timestamp = a.timestamp + j := by
  induction j generalizing b with
  | zero =>
    rw [Nat.add_zero, hi, Option.some.injEq] at hj
    subst hj
    simp
  | succ j ih =>
    obtain ⟨hlt, hb⟩ := List.getElem?_eq_some_iff.mp hj
    have hbefore : i + j < bars.length := by omega
    obtain ⟨hsymbol, hts⟩ := ih (List.getElem?_eq_getElem hbefore)
    obtain ⟨hsymbol', hts'⟩ := List.isChain_iff_getElem.mp h (i + j) hlt
    subst hb
    refine ⟨hsymbol.trans hsymbol', hts'.trans ?_⟩
    rw [hts]
    push_cast
    ring

/-- The last bar accepted of the history is the `q`-th one; for 0 there is none. -/
structure At (bars : List (Bar1min P)) (history : List (Bar1min P)) (q : ℕ) : Prop where
  le : q ≤ bars.length
  last : (accepted history).getLast? = (bars.take q).getLast?

variable {history : List (Bar1min P)} {q : ℕ}

/-- After the `q`-th bar the aggregator accepts the next one, and the one before it. -/
theorem At.accepts_iff (h : At bars history q) (hbars : ConsecutiveMinutes bars) {i : ℕ} {b : Bar1min P}
    (hb : bars[i]? = some b) :
    accepts (accepted history) b = true ↔ q = 0 ∨ i = q ∨ i + 2 = q := by
  rw [accepts, h.last]
  cases q with
  | zero => simp
  | succ p =>
    have hp : p < bars.length := h.le
    have hlast : (bars.take (p + 1)).getLast? = some bars[p] := by
      rw [List.getLast?_take, if_neg (Nat.succ_ne_zero p), Nat.add_sub_cancel,
        List.getElem?_eq_getElem hp]
      rfl
    have hpth : bars[p]? = some bars[p] := List.getElem?_eq_getElem hp
    rw [hlast]
    dsimp only
    rw [isConsecutive_minutes]
    rcases Nat.le_total i p with hle | hle
    · obtain ⟨j, rfl⟩ := Nat.exists_eq_add_of_le hle
      obtain ⟨hsymbol, hts⟩ := hbars.timestamp_eq hb hpth
      rw [hts]
      constructor
      · intro hadjoin
        omega
      · intro hpos
        exact ⟨hsymbol.symm, by omega⟩
    · obtain ⟨j, rfl⟩ := Nat.exists_eq_add_of_le hle
      obtain ⟨hsymbol, hts⟩ := hbars.timestamp_eq hpth hb
      rw [hts]
      constructor
      · intro hadjoin
        omega
      · intro hpos
        exact ⟨hsymbol, by omega⟩

/-- A replay of the first bars is refused up to where it is taken up, and accepted from there on. -/
theorem At.replay (h : At bars history q) (hbars : ConsecutiveMinutes bars) {n : ℕ} (hn : n ≤ bars.length) :
    accepted (history ++ bars.take n) = accepted history ++ (bars.take n).drop (takenUp q) ∧
      At bars (history ++ bars.take n) (reached q n) := by
  have hskipped : accepted (history ++ (bars.take n).take (takenUp q)) = accepted history := by
    apply accepted_append_of_rejected
    intro b hb
    obtain ⟨i, hi, rfl⟩ := List.mem_iff_getElem.mp hb
    rw [List.length_take] at hi
    have hith : bars[i]? = some ((bars.take n).take (takenUp q))[i] := by
      rw [List.getElem_take, List.getElem_take, List.getElem?_eq_getElem]
    by_contra haccepts
    have hpos := (h.accepts_iff hbars hith).mp (Bool.eq_true_of_not_eq_false haccepts)
    unfold takenUp at hi
    split at hi <;> omega
  have hmore : accepted (history ++ bars.take n)
      = accepted history ++ (bars.take n).drop (takenUp q) := by
    have hchain : ConsecutiveMinutes ((bars.take n).drop (takenUp q)) :=
      (hbars.take n).drop (takenUp q)
    have hfirst : ∀ first ∈ ((bars.take n).drop (takenUp q)).head?,
        accepts (accepted (history ++ (bars.take n).take (takenUp q))) first = true := by
      intro first hmem
      rw [List.head?_drop, Option.mem_def] at hmem
      have hth : bars[takenUp q]? = some first := by
        rw [List.getElem?_take] at hmem
        split at hmem
        · exact hmem
        · cases hmem
      rw [hskipped, h.accepts_iff hbars hth]
      unfold takenUp
      split <;> omega
    have happend := accepted_append_of_adjoins hchain hfirst
    rwa [hskipped, List.append_assoc, List.take_append_drop] at happend
  refine ⟨hmore, ?_, ?_⟩
  · unfold reached
    split
    · exact hn
    · exact h.le
  · rw [hmore, List.getLast?_append, List.getLast?_drop, List.length_take, min_eq_left hn, reached, h.last]
    by_cases htaken : takenUp q < n
    · have hne : bars.take n ≠ [] := by
        rw [Ne, List.take_eq_nil_iff]
        rintro (rfl | rfl)
        · exact absurd htaken (Nat.not_lt_zero _)
        · exact absurd (htaken.trans_le hn) (Nat.not_lt_zero _)
      obtain ⟨last, hlast⟩ := Option.isSome_iff_exists.mp (List.getLast?_isSome.mpr hne)
      rw [if_neg (not_le.mpr htaken), if_pos htaken, hlast]
      rfl
    · rw [if_pos (not_lt.mp htaken), if_neg htaken]
      rfl

theorem At.replays (h : At bars history q) (hbars : ConsecutiveMinutes bars) {counts : List ℕ}
    (hcounts : ∀ n ∈ counts, n ≤ bars.length) :
    accepted (history ++ counts.flatMap fun n => bars.take n)
      = accepted history ++ replayed bars q counts := by
  induction counts generalizing history q with
  | nil => simp [replayed]
  | cons n counts ih =>
    obtain ⟨hn, hrest⟩ := List.forall_mem_cons.mp hcounts
    obtain ⟨haccepted, hat⟩ := h.replay hbars hn
    rw [List.flatMap_cons, ← List.append_assoc, ih hat hrest, haccepted, replayed, List.append_assoc]

/-- Of replays of consecutive minutes the aggregator accepts the first one; of each later one, what comes
after the last bar that it has accepted, and before it the last two bars once more. -/
theorem accepted_replays (hbars : ConsecutiveMinutes bars) {counts : List ℕ}
    (hcounts : ∀ n ∈ counts, n ≤ bars.length) :
    accepted (counts.flatMap fun n => bars.take n) = replayed bars 0 counts := by
  have hat : At bars [] 0 := ⟨Nat.zero_le _, rfl⟩
  exact hat.replays hbars hcounts

variable [LinearOrder P]

/-- Over any number of replays of consecutive minutes, each as far as it has come, the slots of the
aggregator see the aggregated bars of these. -/
theorem emissions_of_replays {slot : Subscriber (Bar P Count TimeUnit) σ} (hslot : slot.NeverThrows)
    (world : σ) (hbars : ConsecutiveMinutes bars) {counts : List ℕ}
    (hcounts : ∀ n ∈ counts, n ≤ bars.length) :
    (onBars slot.logged ({}, [], world) (counts.flatMap fun n => bars.take n)).2.1
      = emissions Count TimeUnit (replayed bars 0 counts) := by
  rw [onBars_log hslot, accepted_replays hbars hcounts]

/-- Ten minutes, and once more from the first one: minutes 8 and 9 come twice. -/
theorem emissions_of_replays_ten_minutes :
    (replayed (([0, 1, 2, 3, 4, 5, 6, 7, 8, 9] : List ℤ).map flatBar) 0 [10, 10]).map Bar.timestamp
        = [0, 1, 2, 3, 4, 5, 6, 7, 8, 9, 8, 9] ∧
      (onBars (Subscriber.ignore : Subscriber (Bar5min ℚ) Unit).logged ({}, [], ()) (([10, 10] : List ℕ).flatMap
        fun n => (([0, 1, 2, 3, 4, 5, 6, 7, 8, 9] : List ℤ).map flatBar).take n)).2.1
        = emissions 5 .minutes
          (replayed (([0, 1, 2, 3, 4, 5, 6, 7, 8, 9] : List ℤ).map flatBar) 0 [10, 10]) := by
  have hminutes : ConsecutiveMinutes (([0, 1, 2, 3, 4, 5, 6, 7, 8, 9] : List ℤ).map flatBar) := by
    simp [ConsecutiveMinutes, flatBar]
  exact ⟨rfl, emissions_of_replays Subscriber.ignore_neverThrows () hminutes (by simp)⟩

end MacdTradingBot
