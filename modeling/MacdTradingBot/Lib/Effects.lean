import Mathlib.Data.List.Basic

/-!
# Commands with output

What a command does to a state: the fault that ended it, if any, what it has put out until then, and the
state that it leaves. Loops end at the first fault, and `catching` is a `try` block around a command.

`Uniform.catching_forEach_iff` compares one `try` block around a loop with one around each turn of it, for a body
whose faults and outputs depend on its argument only.
-/

namespace MacdTradingBot

/-- The effect of a command with faults in `ε`, outputs in `ο` and states in `σ`. -/
structure Effect (ε ο σ : Type*) where
  fault : Option ε := none
  outputs : List ο := []
  state : σ

namespace Effect

variable {ε ο σ α : Type*}

/-- A fault skips what comes next. -/
def andThen (e : Effect ε ο σ) (next : σ → Effect ε ο σ) : Effect ε ο σ :=
  match e.fault with
  | some _ => e
  | none => { next e.state with outputs := e.outputs ++ (next e.state).outputs }

/-- A loop over a list. -/
def forEach (body : α → σ → Effect ε ο σ) : List α → σ → Effect ε ο σ
  | [], s => { state := s }
  | a :: as, s => (body a s).andThen (forEach body as)

/-- The faults that `caught` accepts go no further. -/
def catching (caught : ε → Bool) (e : Effect ε ο σ) : Effect ε ο σ :=
  { e with fault := e.fault.filter fun f => !caught f }

variable {e : Effect ε ο σ} {next : σ → Effect ε ο σ} {caught : ε → Bool}

/-- After a fault nothing is done. -/
theorem andThen_of_fault {f : ε} (h : e.fault = some f) : e.andThen next = e := by
  simp [andThen, h]

/-- Without a fault the next effect follows. -/
theorem andThen_of_none (h : e.fault = none) :
    e.andThen next = { next e.state with outputs := e.outputs ++ (next e.state).outputs } := by
  simp [andThen, h]

/-- Effects in a row may be grouped in any way. -/
theorem andThen_assoc (f g : σ → Effect ε ο σ) :
    (e.andThen f).andThen g = e.andThen fun s => (f s).andThen g := by
  obtain ⟨fault, outputs, state⟩ := e
  cases fault with
  | some fault => rfl
  | none => cases hf : (f state).fault <;> simp [andThen, hf]

@[simp] theorem catching_outputs : (e.catching caught).outputs = e.outputs := rfl

@[simp] theorem catching_state : (e.catching caught).state = e.state := rfl

/-- What is caught is no fault any more. -/
theorem catching_fault : (e.catching caught).fault = e.fault.filter fun f => !caught f := rfl

/-- No fault is left when every fault is caught. -/
theorem catching_fault_eq_none : (e.catching caught).fault = none ↔ ∀ f, e.fault = some f → caught f := by
  rw [catching_fault, Option.filter_eq_none_iff]
  simp

@[simp]
theorem forEach_singleton (body : α → σ → Effect ε ο σ) (a : α) (s : σ) :
    forEach body [a] s = body a s := by
  rw [forEach]
  cases hf : (body a s).fault with
  | some f => rw [andThen_of_fault hf]
  | none =>
    rw [andThen_of_none hf]
    simp [forEach, ← hf]

/-- A loop over two lists is a loop over the first, and then over the second. -/
theorem forEach_append (body : α → σ → Effect ε ο σ) (as bs : List α) :
    forEach body (as ++ bs) = fun s => (forEach body as s).andThen (forEach body bs) := by
  induction as with
  | nil =>
    funext s
    simp [forEach, andThen]
  | cons a as ih =>
    funext s
    rw [List.cons_append, forEach, forEach, andThen_assoc, ih]

/-- A turn that does nothing can be left out. -/
theorem forEach_cons_of_idle {body : α → σ → Effect ε ο σ} {a : α} {s : σ}
    (h : body a s = { state := s }) (as : List α) : forEach body (a :: as) s = forEach body as s := by
  rw [forEach, h]
  rfl

/-- What every turn keeps, of the outputs and the state together, the loop keeps. -/
theorem forEach_invariant {body : α → σ → Effect ε ο σ} (P : List ο → σ → Prop) {as : List α}
    (hbody : ∀ a ∈ as, ∀ os s, P os s → P (os ++ (body a s).outputs) (body a s).state) {os : List ο}
    {s : σ} (h : P os s) : P (os ++ (forEach body as s).outputs) (forEach body as s).state := by
  induction as generalizing os s with
  | nil => simpa [forEach] using h
  | cons a as ih =>
    obtain ⟨ha, has⟩ := List.forall_mem_cons.mp hbody
    have hfirst := ha os s h
    rw [forEach]
    cases hf : (body a s).fault with
    | some f =>
      rw [andThen_of_fault hf]
      exact hfirst
    | none =>
      rw [andThen_of_none hf]
      have hrest := ih has hfirst
      rwa [List.append_assoc] at hrest

/-- Loops whose turns have the same faults and states and put out the same, as `f` and `f'` see it. -/
theorem forEach_observed {ο' β : Type*} {body : α → σ → Effect ε ο σ} {body' : α → σ → Effect ε ο' σ}
    {f : ο → Option β} {f' : ο' → Option β}
    (h : ∀ a s, (body a s).fault = (body' a s).fault ∧ (body a s).state = (body' a s).state ∧
      (body a s).outputs.filterMap f = (body' a s).outputs.filterMap f') (as : List α) (s : σ) :
    (forEach body as s).fault = (forEach body' as s).fault ∧
      (forEach body as s).state = (forEach body' as s).state ∧
      (forEach body as s).outputs.filterMap f = (forEach body' as s).outputs.filterMap f' := by
  induction as generalizing s with
  | nil => exact ⟨rfl, rfl, rfl⟩
  | cons a as ih =>
    obtain ⟨hfault, hstate, houtputs⟩ := h a s
    rw [forEach, forEach]
    cases hf : (body a s).fault with
    | some fault =>
      rw [andThen_of_fault hf, andThen_of_fault (hfault.symm.trans hf)]
      exact ⟨hfault, hstate, houtputs⟩
    | none =>
      obtain ⟨hfaults, hstates, hrest⟩ := ih (body a s).state
      rw [andThen_of_none hf, andThen_of_none (hfault.symm.trans hf), ← hstate]
      refine ⟨hfaults, hstates, ?_⟩
      rw [List.filterMap_append, List.filterMap_append, houtputs, hrest]

/-- In the states of `I` the faults and the outputs of the body depend on its argument only, and the body
keeps to these states. -/
structure Uniform (body : α → σ → Effect ε ο σ) (I : σ → Prop) (faultOf : α → Option ε)
    (out : α → List ο) : Prop where
  fault : ∀ a s, I s → (body a s).fault = faultOf a
  outputs : ∀ a s, I s → (body a s).outputs = out a
  keeps : ∀ a s, I s → I (body a s).state

namespace Uniform

variable {body : α → σ → Effect ε ο σ} {I : σ → Prop} {faultOf : α → Option ε} {out : α → List ο}
  {s : σ} {as : List α}

/-- Catching faults leaves the body uniform. -/
theorem catching (h : Uniform body I faultOf out) (caught : ε → Bool) :
    Uniform (fun a s => (body a s).catching caught) I (fun a => (faultOf a).filter fun f => !caught f)
      out :=
  ⟨fun a s hs => by rw [catching_fault, h.fault a s hs], h.outputs, h.keeps⟩

/-- The first fault of the loop is its fault. -/
theorem forEach_fault (h : Uniform body I faultOf out) (hs : I s) :
    (forEach body as s).fault = as.findSome? faultOf := by
  induction as generalizing s with
  | nil => rfl
  | cons a as ih =>
    have hfault := h.fault a s hs
    rw [forEach, List.findSome?_cons]
    cases hf : faultOf a with
    | some f => rw [andThen_of_fault (hfault.trans hf), hfault, hf]
    | none =>
      rw [andThen_of_none (hfault.trans hf)]
      exact ih (h.keeps a s hs)

/-- The outputs of the first element come first, and those of the others if it is without a fault. -/
theorem forEach_outputs_cons (h : Uniform body I faultOf out) (hs : I s) (a : α) :
    (forEach body (a :: as) s).outputs = out a ++
      if (faultOf a).isSome then [] else (forEach body as (body a s).state).outputs := by
  have hfault := h.fault a s hs
  have hout := h.outputs a s hs
  rw [forEach]
  cases hf : faultOf a with
  | some f =>
    rw [andThen_of_fault (hfault.trans hf), hout]
    simp
  | none =>
    rw [andThen_of_none (hfault.trans hf), hout]
    simp

/-- A loop without faults puts out what its turns put out. -/
theorem forEach_outputs (h : Uniform body I faultOf out) (hs : I s) (hnone : ∀ a ∈ as, faultOf a = none) :
    (forEach body as s).outputs = as.flatMap out := by
  induction as generalizing s with
  | nil => rfl
  | cons a as ih =>
    obtain ⟨ha, has⟩ := List.forall_mem_cons.mp hnone
    rw [h.forEach_outputs_cons hs, ha, List.flatMap_cons]
    exact congrArg (out a ++ ·) (ih (h.keeps a s hs) has)

/-- Whether the `try` block is around the loop or around each turn makes no difference to what is put
out exactly when nothing comes after a fault that would have put something out. -/
theorem outputs_eq_iff (h : Uniform body I faultOf out) (hs : I s) :
    (forEach body as s).outputs = as.flatMap out ↔
      ∀ pre a post, as = pre ++ a :: post → (faultOf a).isSome → ∀ b ∈ post, out b = [] := by
  induction as generalizing s with
  | nil => simp [forEach]
  | cons a as ih =>
    rw [h.forEach_outputs_cons hs, List.flatMap_cons, List.append_cancel_left_eq]
    cases hf : faultOf a with
    | some f =>
      simp only [Option.isSome_some, if_true]
      constructor
      · intro hempty pre b post heq _ c hc
        -- what comes after `b` comes after `a`, whose fault has ended the loop
        have hmem : c ∈ as := by
          cases pre with
          | nil =>
            obtain ⟨-, rfl⟩ := List.cons.inj heq
            exact hc
          | cons b' pre =>
            obtain ⟨-, rfl⟩ := List.cons.inj heq
            simp [hc]
        exact List.flatMap_eq_nil_iff.mp hempty.symm c hmem
      · intro hall
        have hnil := hall [] a as rfl (by simp [hf])
        exact (List.flatMap_eq_nil_iff.mpr hnil).symm
    | none =>
      simp only [Option.isSome_none, Bool.false_eq_true, if_false]
      rw [ih (h.keeps a s hs)]
      constructor
      · intro hall pre b post heq hb
        cases pre with
        | nil =>
          obtain ⟨rfl, -⟩ := List.cons.inj heq
          simp [hf] at hb
        | cons b' pre =>
          obtain ⟨-, heq⟩ := List.cons.inj heq
          exact hall pre b post heq hb
      · intro hall pre b post heq
        exact hall (a :: pre) b post (by rw [heq, List.cons_append])

/-- One `try` block around the loop and one around each turn come to the same outputs without a fault that
is not caught, if and only if every fault is caught and none is followed by a turn with outputs. -/
theorem catching_forEach_iff (h : Uniform body I faultOf out) (caught : ε → Bool) (as : List α) (hs : I s) :
    (∃ os, (((forEach body as s).catching caught).fault = none ∧
          ((forEach body as s).catching caught).outputs = os) ∧
        (forEach (fun a s => (body a s).catching caught) as s).fault = none ∧
          (forEach (fun a s => (body a s).catching caught) as s).outputs = os) ↔
      (∀ a ∈ as, ∀ f, faultOf a = some f → caught f) ∧
        ∀ pre a post, as = pre ++ a :: post → (faultOf a).isSome → ∀ b ∈ post, out b = [] := by
  have hall : (forEach (fun a s => (body a s).catching caught) as s).fault = none ↔
      ∀ a ∈ as, ∀ f, faultOf a = some f → caught f := by
    rw [(h.catching caught).forEach_fault hs, List.findSome?_eq_none_iff]
    simp [Option.filter_eq_none_iff]
  have hcaught (hfaults : ∀ a ∈ as, ∀ f, faultOf a = some f → caught f) :
      ((forEach body as s).catching caught).fault = none := by
    rw [catching_fault_eq_none, h.forEach_fault hs]
    intro f hf
    obtain ⟨a, ha, hfa⟩ := List.exists_of_findSome?_eq_some hf
    exact hfaults a ha f hfa
  have houtputs (hfaults : ∀ a ∈ as, ∀ f, faultOf a = some f → caught f) :
      (forEach (fun a s => (body a s).catching caught) as s).outputs = as.flatMap out := by
    apply (h.catching caught).forEach_outputs hs
    intro a ha
    rw [Option.filter_eq_none_iff]
    simpa using hfaults a ha
  constructor
  · rintro ⟨os, ⟨-, hone⟩, hfaults, heach⟩
    rw [hall] at hfaults
    rw [houtputs hfaults] at heach
    exact ⟨hfaults, (h.outputs_eq_iff hs).mp (hone.trans heach.symm)⟩
  · rintro ⟨hfaults, hquiet⟩
    refine ⟨as.flatMap out, ⟨hcaught hfaults, ?_⟩, hall.mpr hfaults, houtputs hfaults⟩
    exact (h.outputs_eq_iff hs).mpr hquiet

end Uniform

end Effect

end MacdTradingBot
