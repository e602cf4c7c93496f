import Mathlib.Data.List.Basic
import Mathlib.Data.List.Infix

/-!
# Runs of a partial step function

A system is a step function `step : σ → α → Option σ`, where `none` means that the action is not
enabled. `run` performs a list of actions. The rules below turn facts about one step into facts about
whole runs: `invariant_of_stepsMeet` for runs whose steps all meet a condition, `along_iff_stepsMeet`
when the condition is also necessary, `along_le_one_iff_separated` for a counter that some steps reset,
and `countP_le_of_potential` to bound a kind of step.
-/

namespace MacdTradingBot.Runs

variable {σ α : Type*} (step : σ → α → Option σ)

/-- Perform the actions in order. -/
def run (s : σ) : List α → Option σ
  | [] => some s
  | a :: as => (step s a).bind fun t => run t as

/-- `P` holds in every state that the run passes through, its two ends included. -/
def Along (P : σ → Prop) (s : σ) (as : List α) : Prop :=
  ∀ pre u, pre <+: as → run step s pre = some u → P u

/-- Every step of the run is taken from a state and by an action that meet `G`. -/
def StepsMeet (G : σ → α → Prop) (s : σ) (as : List α) : Prop :=
  ∀ pre a u, pre ++ [a] <+: as → run step s pre = some u → G u a

@[simp]
theorem run_nil (s : σ) : run step s [] = some s := rfl

variable {step}

/-- The first step, and the run from there. -/
theorem run_cons {s t : σ} {a : α} {as : List α} :
    run step s (a :: as) = some t ↔ ∃ u, step s a = some u ∧ run step u as = some t := by
  simp [run, Option.bind_eq_some_iff]

/-- A run goes through a state in between. -/
theorem run_append {s t : σ} {as bs : List α} :
    run step s (as ++ bs) = some t ↔ ∃ u, run step s as = some u ∧ run step u bs = some t := by
  induction as generalizing s with
  | nil => simp
  | cons a as ih =>
    simp only [List.cons_append, run_cons, ih]
    constructor
    · rintro ⟨u, hu, v, hv, ht⟩
      exact ⟨v, ⟨u, hu, hv⟩, ht⟩
    · rintro ⟨v, ⟨u, hu, hv⟩, ht⟩
      exact ⟨u, hu, v, hv, ht⟩

/-- The last step is taken at the end. -/
theorem run_concat {s t : σ} {as : List α} {a : α} :
    run step s (as ++ [a]) = some t ↔ ∃ u, run step s as = some u ∧ step u a = some t := by
  simp [run_append, run_cons]

/-- A run has one end. -/
theorem run_unique {s t u : σ} {as : List α} (ht : run step s as = some t)
    (hu : run step s as = some u) : t = u := by
  rw [ht, Option.some.injEq] at hu
  exact hu

/-- What does not hold at the start and holds at the end has come true in some step. -/
theorem exists_step_of_run (P : σ → Prop) {s t : σ} {as : List α} (h0 : ¬ P s)
    (h : run step s as = some t) (ht : P t) :
    ∃ pre a u v, pre ++ [a] <+: as ∧ run step s pre = some u ∧ step u a = some v ∧ ¬ P u ∧ P v := by
  induction as using List.reverseRecOn generalizing t with
  | nil =>
    obtain rfl : s = t := by simpa using h
    exact absurd ht h0
  | append_singleton as a ih =>
    obtain ⟨u, hu, hstep⟩ := run_concat.mp h
    by_cases hP : P u
    · obtain ⟨pre, b, v, w, hpre, hrest⟩ := ih hu hP
      exact ⟨pre, b, v, w, hpre.trans (List.prefix_append _ _), hrest⟩
    · exact ⟨as, a, u, t, List.prefix_rfl, hu, hstep, hP, ht⟩

/-! ## What a run puts out -/

section Outputs

variable {β : Type*} (out : σ → α → List β)

variable (step) in
/-- What the steps of the run put out, in order. -/
def collect (s : σ) : List α → List β
  | [] => []
  | a :: as => out s a ++ match step s a with
    | some t => collect t as
    | none => []

/-- The last step adds its outputs. -/
theorem collect_concat {s t : σ} {as : List α} (h : run step s as = some t) (a : α) :
    collect step out s (as ++ [a]) = collect step out s as ++ out t a := by
  induction as generalizing s with
  | nil =>
    obtain rfl : s = t := by simpa using h
    cases hstep : step s a <;> simp [collect, hstep]
  | cons b as ih =>
    obtain ⟨u, hu, hrest⟩ := run_cons.mp h
    rw [List.cons_append, collect, collect, hu]
    dsimp only
    rw [ih hrest, List.append_assoc]

/-- What holds at the start, of nothing put out, and is kept by every step together with what it puts
out, holds at the end of a run. -/
theorem invariant_of_collect (P : List β → σ → Prop) {s t : σ} {as : List α} (h0 : P [] s)
    (hstep : ∀ pre a u v, pre ++ [a] <+: as → ∀ os, P os u → step u a = some v → P (os ++ out u a) v)
    (h : run step s as = some t) : P (collect step out s as) t := by
  induction as using List.reverseRecOn generalizing t with
  | nil =>
    obtain rfl : s = t := by simpa using h
    exact h0
  | append_singleton as a ih =>
    obtain ⟨u, hu, ht⟩ := run_concat.mp h
    have hP := ih (fun pre b v w hpre => hstep pre b v w (hpre.trans (List.prefix_append _ _))) hu
    rw [collect_concat out hu]
    exact hstep as a u t List.prefix_rfl _ hP ht

end Outputs

/-! ## Invariants -/

/-- What holds at the start and is kept by the steps that meet `G` holds at the end of every run whose
steps all meet `G`. -/
theorem invariant_of_stepsMeet {G : σ → α → Prop} (I : σ → Prop) {s t : σ} {as : List α}
    (h0 : I s) (hstep : ∀ u a v, I u → G u a → step u a = some v → I v)
    (hG : StepsMeet step G s as) (h : run step s as = some t) : I t := by
  induction as using List.reverseRecOn generalizing t with
  | nil =>
    obtain rfl : s = t := by simpa using h
    exact h0
  | append_singleton as a ih =>
    obtain ⟨u, hu, ht⟩ := run_concat.mp h
    have hI : I u := ih (fun pre b v hpre => hG pre b v (hpre.trans (List.prefix_append _ _))) hu
    exact hstep u a t hI (hG as a u List.prefix_rfl hu) ht

/-- What the steps of a run meet, its first steps meet. -/
theorem StepsMeet.of_prefix {G : σ → α → Prop} {s : σ} {pre as : List α} (hpre : pre <+: as)
    (hG : StepsMeet step G s as) : StepsMeet step G s pre :=
  fun p a u hp => hG p a u (hp.trans hpre)

variable (step) in
/-- Whether `g` holds at every step of the run, by evaluation. -/
def checkSteps (g : σ → α → Bool) (s : σ) : List α → Bool
  | [] => true
  | a :: as =>
    g s a && match step s a with
      | none => true
      | some t => checkSteps g t as

/-- The steps of a concrete run can be checked. -/
theorem StepsMeet.of_checkSteps {g : σ → α → Bool} {G : σ → α → Prop}
    (hg : ∀ u a, g u a = true → G u a) {s : σ} {as : List α} (h : checkSteps step g s as = true) :
    StepsMeet step G s as := by
  induction as generalizing s with
  | nil =>
    intro pre a u hpre
    simp at hpre
  | cons b as ih =>
    rw [checkSteps, Bool.and_eq_true] at h
    obtain ⟨hb, hrest⟩ := h
    intro pre a u hpre hu
    cases pre with
    | nil =>
      obtain rfl : s = u := by simpa using hu
      obtain rfl : a = b := by simpa using hpre
      exact hg _ _ hb
    | cons c pre =>
      rw [List.cons_append, List.cons_prefix_cons] at hpre
      obtain ⟨rfl, hpre⟩ := hpre
      obtain ⟨t, ht, hu⟩ := run_cons.mp hu
      rw [ht] at hrest
      exact ih hrest pre a u hpre hu

variable (step) in
/-- Whether `p` holds in every state that the run passes through, by evaluation. -/
def checkAlong (p : σ → Bool) (s : σ) : List α → Bool
  | [] => p s
  | a :: as =>
    p s && match step s a with
      | none => true
      | some t => checkAlong p t as

/-- The states of a concrete run can be checked. -/
theorem Along.of_checkAlong {p : σ → Bool} {P : σ → Prop} (hp : ∀ u, p u = true → P u) {s : σ}
    {as : List α} (h : checkAlong step p s as = true) : Along step P s as := by
  induction as generalizing s with
  | nil =>
    intro pre u hpre hu
    obtain rfl : pre = [] := by simpa using hpre
    obtain rfl : s = u := by simpa using hu
    exact hp _ h
  | cons b as ih =>
    rw [checkAlong, Bool.and_eq_true] at h
    obtain ⟨hs, hrest⟩ := h
    intro pre u hpre hu
    cases pre with
    | nil =>
      obtain rfl : s = u := by simpa using hu
      exact hp _ hs
    | cons c pre =>
      rw [List.cons_prefix_cons] at hpre
      obtain ⟨rfl, hpre⟩ := hpre
      obtain ⟨t, ht, hu⟩ := run_cons.mp hu
      rw [ht] at hrest
      exact ih hrest pre u hpre hu

/-- The condition `G` on the steps is exactly what the property `P` of the states needs, when an
invariant `I` gives `P`, the steps that meet `G` keep `I`, and a step that does not meet `G` ends in a
state without `P`. -/
theorem along_iff_stepsMeet {G : σ → α → Prop} {P : σ → Prop} (I : σ → Prop) {s t : σ}
    {as : List α} (h0 : I s) (hP : ∀ u, I u → P u)
    (hstep : ∀ u a v, I u → G u a → step u a = some v → I v)
    (hbad : ∀ u a v, I u → ¬ G u a → step u a = some v → ¬ P v)
    (h : run step s as = some t) : Along step P s as ↔ StepsMeet step G s as := by
  constructor
  · intro hall
    induction as using List.reverseRecOn generalizing t with
    | nil =>
      intro pre a u hpre
      simp at hpre
    | append_singleton as a ih =>
      obtain ⟨u, hu, ht⟩ := run_concat.mp h
      have hG : StepsMeet step G s as :=
        ih hu fun pre v hpre => hall pre v (hpre.trans (List.prefix_append _ _))
      intro pre b v hpre hv
      -- the last step of a prefix is either a step of `as` or the step `a` itself
      rcases List.prefix_concat_iff.mp hpre with heq | hpre
      · obtain ⟨rfl, hab⟩ := List.append_inj' heq rfl
        obtain rfl : b = a := by simpa using hab
        obtain rfl : u = v := run_unique hu hv
        by_contra hnG
        exact hbad u b t (invariant_of_stepsMeet I h0 hstep hG hu) hnG ht
          (hall _ t List.prefix_rfl h)
      · exact hG pre b v hpre hv
  · intro hG pre u hpre hu
    exact hP u (invariant_of_stepsMeet I h0 hstep (hG.of_prefix hpre) hu)

/-! ## Counters -/

variable (step) in
/-- Between any two `inc` steps of the run there is a `reset` step. -/
def Separated (inc reset : σ → α → Prop) (s : σ) (as : List α) : Prop :=
  ∀ pre a mid b u v, pre ++ a :: mid ++ [b] <+: as → run step s pre = some u → inc u a →
    run step s (pre ++ a :: mid) = some v → inc v b →
      ∃ mid' c w, mid' ++ [c] <+: mid ∧ run step s (pre ++ a :: mid') = some w ∧ reset w c

/-- A part of a separated run is separated. -/
theorem Separated.of_prefix {inc reset : σ → α → Prop} {s : σ} {pre as : List α} (hpre : pre <+: as)
    (h : Separated step inc reset s as) : Separated step inc reset s pre :=
  fun p a mid b u v hp => h p a mid b u v (hp.trans hpre)

section Counter

variable {inc reset : σ → α → Prop} {n : σ → ℕ}
  (hinc : ∀ u a v, inc u a → step u a = some v → n v = n u + 1)
  (hreset : ∀ u a v, reset u a → step u a = some v → n v = 0)
  (hkeep : ∀ u a v, ¬ inc u a → ¬ reset u a → step u a = some v → n v = n u)

include hinc hkeep

/-- Without a `reset` step the counter does not fall. -/
theorem le_of_noReset {s t : σ} {as : List α} (hnone : StepsMeet step (fun u a => ¬ reset u a) s as)
    (h : run step s as = some t) : n s ≤ n t := by
  refine invariant_of_stepsMeet (fun u => n s ≤ n u) le_rfl ?_ hnone h
  intro u a v hu hr hstep
  by_cases hi : inc u a
  · have hone := hinc u a v hi hstep
    omega
  · have hsame := hkeep u a v hi hr hstep
    omega

include hreset

/-- Where a `reset` step separates any two `inc` steps, the counter is at most one, and when it is one,
an `inc` step has had no `reset` step after it. -/
theorem Separated.exists_inc {s t : σ} {as : List α} (h0 : n s = 0)
    (hsep : Separated step inc reset s as) (h : run step s as = some t) :
    n t ≤ 1 ∧ (0 < n t → ∃ pre a mid u, as = pre ++ a :: mid ∧ run step s pre = some u ∧ inc u a ∧
      ∀ mid' c v, mid' ++ [c] <+: mid → run step s (pre ++ a :: mid') = some v → ¬ reset v c) := by
  induction as using List.reverseRecOn generalizing t with
  | nil =>
    obtain rfl : s = t := by simpa using h
    omega
  | append_singleton as b ih =>
    obtain ⟨u, hu, hb⟩ := run_concat.mp h
    obtain ⟨hle, hopen⟩ := ih (hsep.of_prefix (List.prefix_append as [b])) hu
    by_cases hi : inc u b
    · have hzero : n u = 0 := by
        -- the last `inc` step has a `reset` step after it, since `b` is one too
        by_contra hne
        obtain ⟨pre, a, mid, w, rfl, hw, ha, hnone⟩ := hopen (Nat.pos_of_ne_zero hne)
        obtain ⟨mid', c, x, hmid', hx, hr⟩ := hsep pre a mid b w u List.prefix_rfl hw ha hu hi
        exact hnone mid' c x hmid' hx hr
      have hone := hinc u b t hi hb
      refine ⟨by omega, fun _ => ⟨as, b, [], u, rfl, hu, hi, ?_⟩⟩
      intro mid' c x hmid'
      simp at hmid'
    · by_cases hr : reset u b
      · have hzero := hreset u b t hr hb
        omega
      · have hsame := hkeep u b t hi hr hb
        refine ⟨by omega, fun hpos => ?_⟩
        obtain ⟨pre, a, mid, w, rfl, hw, ha, hnone⟩ := hopen (by omega)
        -- the same `inc` step, and `b` is no `reset` step either
        refine ⟨pre, a, mid ++ [b], w, by simp, hw, ha, ?_⟩
        intro mid' c x hmid' hx
        rcases List.prefix_concat_iff.mp hmid' with heq | hmid'
        · obtain ⟨rfl, hcb⟩ := List.append_inj' heq rfl
          obtain rfl : c = b := by simpa using hcb
          obtain rfl : u = x := run_unique hu hx
          exact hr
        · exact hnone mid' c x hmid' hx

/-- A counter that `inc` steps raise by one, `reset` steps set to zero and other steps leave alone is
never above one exactly when a `reset` step separates any two `inc` steps. -/
theorem along_le_one_iff_separated {s t : σ} {as : List α} (h0 : n s = 0)
    (h : run step s as = some t) :
    Along step (fun u => n u ≤ 1) s as ↔ Separated step inc reset s as := by
  constructor
  · intro hall pre a mid b u v hpre hu ha hv hb
    by_contra hnone
    obtain ⟨u', hu', hmid⟩ := run_append.mp hv
    obtain rfl : u = u' := run_unique hu hu'
    obtain ⟨u₁, ha₁, hmid⟩ := run_cons.mp hmid
    have hle : n u₁ ≤ n v := by
      have hnoReset : StepsMeet step (fun u a => ¬ reset u a) u₁ mid := by
        intro mid' c w hmid' hw hr
        exact hnone ⟨mid', c, w, hmid', run_append.mpr ⟨u, hu, run_cons.mpr ⟨u₁, ha₁, hw⟩⟩, hr⟩
      exact le_of_noReset hinc hkeep hnoReset hmid
    obtain ⟨rest, rfl⟩ := hpre
    obtain ⟨w, hw, -⟩ := run_append.mp h
    obtain ⟨v', hv', hlast⟩ := run_concat.mp hw
    obtain rfl : v = v' := run_unique hv hv'
    have htop := hall _ w (List.prefix_append _ rest) hw
    have hfirst := hinc u a u₁ ha ha₁
    have hsecond := hinc v b w hb hlast
    omega
  · intro hsep pre u hpre hu
    exact ((hsep.of_prefix hpre).exists_inc hinc hreset hkeep h0 hu).1

end Counter

/-! ## Progress -/

/-- Steps that raise a potential, and none that lowers it: a run takes at most as many of the former as
the potential has grown. -/
theorem countP_le_of_potential {G : σ → α → Prop} {I : σ → Prop} (ψ : σ → ℕ) (p : α → Bool)
    (hI : ∀ u a v, I u → G u a → step u a = some v → I v)
    (hψ : ∀ u a v, I u → G u a → step u a = some v → (if p a then ψ u + 1 else ψ u) ≤ ψ v)
    {s t : σ} {as : List α} (h0 : I s) (hG : StepsMeet step G s as) (h : run step s as = some t) :
    as.countP p + ψ s ≤ ψ t := by
  induction as using List.reverseRecOn generalizing t with
  | nil =>
    obtain rfl : s = t := by simpa using h
    simp
  | append_singleton as a ih =>
    obtain ⟨u, hu, ht⟩ := run_concat.mp h
    have hpre := hG.of_prefix (List.prefix_append as [a])
    have hu' : I u := invariant_of_stepsMeet I h0 hI hpre hu
    have hrest := ih hpre hu
    have hlast := hψ u a t hu' (hG as a u List.prefix_rfl hu) ht
    rw [List.countP_append, List.countP_singleton]
    cases hp : p a <;> simp only [hp, Bool.false_eq_true, if_true, if_false] at hlast ⊢ <;> omega

end MacdTradingBot.Runs
