import MacdTradingBot.Lib.Runs
import Mathlib.Algebra.Order.Ring.Nat
import Mathlib.Data.List.Range

/-!
# Endless runs

An endless run takes one action after the other, forever. `LeadsTo` says that a property, wherever it
holds from some time on, is followed by another one. Fairness turns a fact about one step into progress
(`leadsTo_of_fair`), and a rank that progress lowers brings it to an end (`leadsTo_of_rank`).
-/

namespace MacdTradingBot.Runs

variable {σ α : Type*}

/-- The states and the actions of a run without an end. -/
structure Endless (step : σ → α → Option σ) where
  state : ℕ → σ
  action : ℕ → α
  next : ∀ n, step (state n) (action n) = some (state (n + 1))

namespace Endless

variable {step : σ → α → Option σ} (r : Endless step) {N : ℕ} {P Q : σ → Prop}

/-- The beginning of an endless run is a run. -/
theorem run_range (n : ℕ) :
    run step (r.state 0) ((List.range n).map r.action) = some (r.state n) := by
  induction n with
  | zero => rfl
  | succ n ih =>
    rw [List.range_succ, List.map_append, List.map_singleton]
    exact run_concat.mpr ⟨r.state n, ih, r.next n⟩

/-- What one step keeps, from some time on, stays. -/
theorem stays {n : ℕ} (hn : N ≤ n)
    (hstep : ∀ k, N ≤ k → P (r.state k) → P (r.state (k + 1))) (h : P (r.state n)) {m : ℕ}
    (hm : n ≤ m) : P (r.state m) := by
  induction m, hm using Nat.le_induction with
  | base => exact h
  | succ m hm ih => exact hstep m (hn.trans hm) ih

variable (N) in
/-- From time `N` on, where `P` holds, `Q` holds then or later. -/
def LeadsTo (P Q : σ → Prop) : Prop :=
  ∀ n, N ≤ n → P (r.state n) → ∃ m, n ≤ m ∧ Q (r.state m)

variable {r}

variable (r) in
/-- Weak fairness: what is enabled does not stay enabled forever without an action of the kind `A`. -/
def Fair (enabled : σ → Prop) (A : α → Prop) : Prop :=
  ∀ n, ∃ m, n ≤ m ∧ (enabled (r.state m) → A (r.action m))

/-- What is not done any more is not enabled, again and again. -/
theorem Fair.exists_disabled {enabled : σ → Prop} {A : α → Prop} (h : r.Fair enabled A)
    (hnever : ∀ n, N ≤ n → ¬ A (r.action n)) {n : ℕ} (hn : N ≤ n) :
    ∃ m, n ≤ m ∧ ¬ enabled (r.state m) := by
  obtain ⟨m, hm, hA⟩ := h n
  exact ⟨m, hm, fun henabled => hnever m (hn.trans hm) (hA henabled)⟩

/-- `P` stays until an action of the kind `A` brings `Q` about, and this action is enabled meanwhile. -/
theorem leadsTo_of_fair {enabled : σ → Prop} {A : α → Prop} (hfair : r.Fair enabled A)
    (henabled : ∀ n, N ≤ n → P (r.state n) → enabled (r.state n))
    (hstep : ∀ n, N ≤ n → P (r.state n) →
      Q (r.state (n + 1)) ∨ ¬ A (r.action n) ∧ P (r.state (n + 1))) : r.LeadsTo N P Q := by
  intro n hn hP
  obtain ⟨m, hm, hA⟩ := hfair n
  -- the number of steps before the action
  induction hgap : m - n generalizing n with
  | zero =>
    obtain rfl : m = n := by omega
    rcases hstep m hn hP with hQ | ⟨hnot, -⟩
    · exact ⟨m + 1, Nat.le_succ m, hQ⟩
    · exact absurd (hA (henabled m hn hP)) hnot
  | succ gap ih =>
    rcases hstep n hn hP with hQ | ⟨-, hP'⟩
    · exact ⟨n + 1, Nat.le_succ n, hQ⟩
    · obtain ⟨k, hk, hQ⟩ := ih (n + 1) (by omega) hP' (by omega) (by omega)
      exact ⟨k, by omega, hQ⟩

/-- A rank that is lowered again and again, unless `Q` holds. -/
theorem leadsTo_of_rank (rank : σ → ℕ → Prop)
    (hrank : ∀ k, r.LeadsTo N (fun s => rank s k) fun s => Q s ∨ ∃ j < k, rank s j) (k : ℕ) :
    r.LeadsTo N (fun s => rank s k) Q := by
  induction k using Nat.strong_induction_on with
  | _ k ih =>
    intro n hn h
    obtain ⟨m, hm, hQ | ⟨j, hj, hlower⟩⟩ := hrank k n hn h
    · exact ⟨m, hm, hQ⟩
    · obtain ⟨l, hl, hQ⟩ := ih j hj m (hn.trans hm) hlower
      exact ⟨l, hm.trans hl, hQ⟩

/-- A number that does not fall and is bounded is constant in the end. -/
theorem exists_constant (f : σ → ℕ) {B : ℕ}
    (hmono : ∀ n, N ≤ n → f (r.state n) ≤ f (r.state (n + 1)))
    (hbound : ∀ n, N ≤ n → f (r.state n) ≤ B) :
    ∃ M, N ≤ M ∧ ∀ n, M ≤ n → f (r.state n) = f (r.state M) := by
  -- the induction is on what is left below the bound
  suffices h : ∀ gap n, N ≤ n → B - f (r.state n) = gap →
      ∃ M, N ≤ M ∧ ∀ m, M ≤ m → f (r.state m) = f (r.state M) from h _ N le_rfl rfl
  intro gap
  induction gap using Nat.strong_induction_on with
  | _ gap ih =>
    intro n hn hgap
    by_cases hconstant : ∀ m, n ≤ m → f (r.state m) = f (r.state n)
    · exact ⟨n, hn, hconstant⟩
    · push Not at hconstant
      obtain ⟨m, hm, hne⟩ := hconstant
      have hle : f (r.state n) ≤ f (r.state m) := by
        refine stays (P := fun s => f (r.state n) ≤ f s) r hn ?_ le_rfl hm
        intro k hk hle
        exact hle.trans (hmono k hk)
      have hlast := hbound m (hn.trans hm)
      exact ih (B - f (r.state m)) (by omega) m (hn.trans hm) rfl

/-! ## Other views of a run -/

section Views

variable {τ β : Type*} {step' : τ → β → Option τ}

/-- The run as another system sees it, which takes a step with each of its steps. -/
def map (r : Endless step) (f : σ → τ) (g : α → β)
    (hstep : ∀ s a t, step s a = some t → step' (f s) (g a) = some (f t)) : Endless step' where
  state n := f (r.state n)
  action n := g (r.action n)
  next n := hstep _ _ _ (r.next n)

/-- Fairness carries over to the mapped run. -/
theorem fair_map {f : σ → τ} {g : α → β}
    {hstep : ∀ s a t, step s a = some t → step' (f s) (g a) = some (f t)} {enabled : σ → Prop}
    {enabled' : τ → Prop} {A : α → Prop} {A' : β → Prop} (h : r.Fair enabled A)
    (henabled : ∀ s, enabled' (f s) → enabled s) (hA : ∀ a, A a → A' (g a)) :
    (r.map f g hstep).Fair enabled' A' := by
  intro n
  obtain ⟨m, hm, hfair⟩ := h n
  exact ⟨m, hm, fun h' => hA _ (hfair (henabled _ h'))⟩

/-- The run with one more step before it. -/
def cons (r : Endless step) {s : σ} {a : α} (hfirst : step s a = some (r.state 0)) : Endless step where
  state
    | 0 => s
    | n + 1 => r.state n
  action
    | 0 => a
    | n + 1 => r.action n
  next
    | 0 => hfirst
    | n + 1 => r.next n

/-- A step more at the start does not matter for fairness. -/
theorem fair_cons {s : σ} {a : α} {hfirst : step s a = some (r.state 0)} {enabled : σ → Prop}
    {A : α → Prop} (h : r.Fair enabled A) : (r.cons hfirst).Fair enabled A := by
  intro n
  obtain ⟨m, hm, hfair⟩ := h n
  exact ⟨m + 1, hm.trans (Nat.le_succ m), hfair⟩

end Views

/-! ## Runs that go round -/

section Lasso

variable {s t : σ} {as cycle : List α}

/-- The actions in order, and then those of the cycle, a number of times. -/
def unrolled (as cycle : List α) (rounds : ℕ) : List α := as ++ (List.replicate rounds cycle).flatten

/-- One more round comes last. -/
theorem unrolled_succ (as cycle : List α) (rounds : ℕ) : unrolled as cycle (rounds + 1) = unrolled as cycle rounds ++ cycle := by
  rw [unrolled, List.replicate_succ', List.flatten_append, List.flatten_singleton, ← List.append_assoc]
  rfl

/-- Fewer rounds are a prefix of more. -/
theorem unrolled_isPrefix (as cycle : List α) {j k : ℕ} (h : j ≤ k) : unrolled as cycle j <+: unrolled as cycle k := by
  induction k, h using Nat.le_induction with
  | base => exact List.prefix_rfl
  | succ k _ ih =>
    rw [unrolled_succ]
    exact ih.trans (List.prefix_append _ _)

/-- Each round adds its length. -/
theorem length_unrolled (as cycle : List α) (rounds : ℕ) :
    (unrolled as cycle rounds).length = as.length + rounds * cycle.length := by
  induction rounds with
  | zero => simp [unrolled]
  | succ rounds ih => rw [unrolled_succ, List.length_append, ih, Nat.succ_mul, Nat.add_assoc]

/-- Enough rounds are as long as one wants. -/
theorem le_length_unrolled (as : List α) (hne : cycle ≠ []) (n : ℕ) : n ≤ (unrolled as cycle n).length := by
  rw [length_unrolled]
  have hpos := List.length_pos_iff.mpr hne
  exact (Nat.le_mul_of_pos_right n hpos).trans (Nat.le_add_left _ _)

/-- The first actions do not depend on the number of rounds. -/
theorem take_unrolled (hne : cycle ≠ []) {m n : ℕ} (h : n ≤ m) :
    (unrolled as cycle m).take n = (unrolled as cycle n).take n := by
  obtain ⟨rest, hrest⟩ := unrolled_isPrefix as cycle h
  rw [← hrest, List.take_append_of_le_length (le_length_unrolled as hne n)]

/-- The cycle leads back to the state in which it begins. -/
theorem run_unrolled (hrun : run step s as = some t) (hcycle : run step t cycle = some t) (rounds : ℕ) :
    run step s (unrolled as cycle rounds) = some t := by
  induction rounds with
  | zero => simpa [unrolled] using hrun
  | succ rounds ih =>
    rw [unrolled_succ]
    exact run_append.mpr ⟨t, ih, hcycle⟩

variable (step) in
/-- The run that takes the actions in order, and then those of the cycle, forever. -/
def lasso (hrun : run step s as = some t) (hcycle : run step t cycle = some t) (hne : cycle ≠ []) :
    Endless step where
  state n := (run step s ((unrolled as cycle n).take n)).getD t
  action n := ((unrolled as cycle (n + 1))[n]?).getD (cycle.head hne)
  next n := by
    have hlt := le_length_unrolled as hne (n + 1)
    have hall := run_unrolled hrun hcycle (n + 1)
    rw [← List.take_append_drop (n + 1) (unrolled as cycle (n + 1))] at hall
    obtain ⟨u, hu, -⟩ := run_append.mp hall
    have hsplit := hu
    rw [List.take_succ_eq_append_getElem hlt, take_unrolled hne (Nat.le_succ n)] at hsplit
    obtain ⟨v, hv, hnext⟩ := run_concat.mp hsplit
    rw [hv, hu, List.getElem?_eq_getElem hlt]
    exact hnext

variable (hrun : run step s as = some t) (hcycle : run step t cycle = some t) (hne : cycle ≠ [])

/-- Up to the cycle the states are those of the run. -/
theorem lasso_state {n : ℕ} (hn : n ≤ as.length) :
    (lasso step hrun hcycle hne).state n = (run step s (as.take n)).getD t := by
  show (run step s ((unrolled as cycle n).take n)).getD t = _
  rw [unrolled, List.take_append_of_le_length hn]

/-- Each round ends where the cycle begins. -/
theorem lasso_state_round (rounds : ℕ) :
    (lasso step hrun hcycle hne).state (as.length + rounds * cycle.length) = t := by
  show (run step s ((unrolled as cycle _).take _)).getD t = t
  have hpos := List.length_pos_iff.mpr hne
  have hle : rounds ≤ as.length + rounds * cycle.length :=
    (Nat.le_mul_of_pos_right rounds hpos).trans (Nat.le_add_left _ _)
  obtain ⟨rest, hrest⟩ := unrolled_isPrefix as cycle hle
  rw [← hrest, ← length_unrolled, List.take_left, run_unrolled hrun hcycle]
  rfl

/-- Later actions are of the cycle, or of what comes before it. -/
theorem lasso_action_mem {k n : ℕ} (hn : k ≤ n) :
    (lasso step hrun hcycle hne).action n ∈ as.drop k ++ cycle := by
  show ((unrolled as cycle (n + 1))[n]?).getD (cycle.head hne) ∈ as.drop k ++ cycle
  have hlt := le_length_unrolled as hne (n + 1)
  rw [List.getElem?_eq_getElem hlt, Option.getD_some, List.mem_append]
  by_cases hin : n < as.length
  · left
    refine List.mem_iff_getElem.mpr ⟨n - k, by rw [List.length_drop]; omega, ?_⟩
    simp [unrolled, Nat.add_sub_cancel' hn, List.getElem_append_left hin]
  · right
    have hmem : (unrolled as cycle (n + 1)).get ⟨n, hlt⟩ ∈ (List.replicate (n + 1) cycle).flatten := by
      rw [List.get_eq_getElem]
      simp only [unrolled]
      rw [List.getElem_append_right (by omega)]
      exact List.getElem_mem _
    obtain ⟨round, hround, hmem⟩ := List.mem_flatten.mp hmem
    rw [List.eq_of_mem_replicate hround] at hmem
    exact hmem

/-- Before the cycle the actions are those of the list. -/
theorem lasso_action_mem_take {k m n : ℕ} (hk : k ≤ n) (hn : n < m) (hm : m ≤ as.length) :
    (lasso step hrun hcycle hne).action n ∈ (as.take m).drop k := by
  have hlt : n < as.length := hn.trans_le hm
  have haction : (lasso step hrun hcycle hne).action n = as.get ⟨n, hlt⟩ := by
    show ((as ++ _)[n]?).getD (cycle.head hne) = _
    rw [List.getElem?_append_left hlt, List.getElem?_eq_getElem hlt]
    rfl
  rw [haction, List.mem_iff_getElem]
  refine ⟨n - k, by rw [List.length_drop, List.length_take]; omega, ?_⟩
  simp [Nat.add_sub_cancel' hk]

/-- What is not enabled at the end of a round is no matter of fairness. -/
theorem lasso_fair {enabled : σ → Prop} (hend : ¬ enabled t) (A : α → Prop) :
    (lasso step hrun hcycle hne).Fair enabled A := by
  intro n
  have hpos := List.length_pos_iff.mpr hne
  refine ⟨as.length + n * cycle.length, ?_, fun h => ?_⟩
  · exact (Nat.le_mul_of_pos_right n hpos).trans (Nat.le_add_left _ _)
  · rw [lasso_state_round hrun hcycle hne n] at h
    exact absurd h hend

end Lasso

end Endless

end MacdTradingBot.Runs
