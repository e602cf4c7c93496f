import Mathlib.Data.List.Forall2
import Mathlib.Data.List.Pairwise

/-!
# Lists of entries under keys

A list may have several entries under one key. Writing an entry replaces all of them, and the entry goes to
the end. Entries that are written one after another leave the last one under each key (`latest`).
-/

namespace MacdTradingBot.Keyed

variable {α κ : Type*} [DecidableEq κ] (key : α → κ)

/-- The entry, instead of all those under its key. -/
def set (l : List α) (a : α) : List α := l.filter (fun b => key b ≠ key a) ++ [a]

/-- The entries, written one after another. -/
def setAll (l as : List α) : List α := as.foldl (set key) l

/-- The last entry under each key. -/
def latest (as : List α) : List α := as.pwFilter fun a b => key a ≠ key b

variable {key} {l as : List α} {a : α}

/-- The latest elements are elements. -/
theorem latest_subset : latest key as ⊆ as := List.pwFilter_subset as

/-- Every element is the latest one of its key, when the keys are distinct. -/
theorem latest_eq_self_iff : latest key as = as ↔ as.Pairwise fun a b => key a ≠ key b :=
  List.pwFilter_eq_self

/-- Every key that occurs has a last entry. -/
theorem forall_mem_latest (a : α) :
    (∀ b ∈ latest key as, key a ≠ key b) ↔ ∀ b ∈ as, key a ≠ key b := by
  refine List.forall_mem_pwFilter (fun {x y z} hxz => ?_) a as
  by_contra hno
  rw [not_or, not_not, not_not] at hno
  exact hxz (hno.1.trans hno.2)

/-- An element is kept whose key does not come again. -/
theorem latest_cons_of_forall (h : ∀ b ∈ as, key a ≠ key b) : latest key (a :: as) = a :: latest key as :=
  List.pwFilter_cons_of_pos ((forall_mem_latest a).mpr h)

/-- An element is dropped whose key comes again. -/
theorem latest_cons_of_not (h : ¬ ∀ b ∈ as, key a ≠ key b) : latest key (a :: as) = latest key as :=
  List.pwFilter_cons_of_neg (mt (forall_mem_latest a).mp h)

/-- What is left of the list, and then the last entries. -/
theorem setAll_eq (l as : List α) :
    setAll key l as = l.filter (fun b => ∀ a ∈ as, key b ≠ key a) ++ latest key as := by
  induction as generalizing l with
  | nil =>
    have hall : l.filter (fun b => ∀ a ∈ ([] : List α), key b ≠ key a) = l :=
      List.filter_eq_self.mpr (by simp)
    rw [hall]
    exact (List.append_nil l).symm
  | cons a as ih =>
    have hsplit : (set key l a).filter (fun b => ∀ a ∈ as, key b ≠ key a)
        = l.filter (fun b => ∀ c ∈ a :: as, key b ≠ key c)
          ++ [a].filter (fun b => ∀ a ∈ as, key b ≠ key a) := by
      rw [set, List.filter_append, List.filter_filter]
      congr 2
      funext b
      simp [Bool.and_comm]
    show setAll key (set key l a) as = _
    rw [ih, hsplit, List.append_assoc]
    congr 1
    by_cases hlast : ∀ b ∈ as, key a ≠ key b
    · rw [latest_cons_of_forall hlast, List.filter_cons_of_pos (by simpa using hlast)]
      rfl
    · rw [latest_cons_of_not hlast, List.filter_cons_of_neg (by simpa using hlast)]
      rfl

/-- A choice that depends on the key alone commutes with taking the last entries. -/
theorem filter_latest {p : α → Bool} (hp : ∀ a b, key a = key b → p a = p b) (as : List α) :
    (latest key as).filter p = latest key (as.filter p) := by
  induction as with
  | nil => rfl
  | cons a as ih =>
    by_cases hpa : p a = true
    · rw [List.filter_cons_of_pos hpa]
      have hsame : (∀ b ∈ as.filter p, key a ≠ key b) ↔ ∀ b ∈ as, key a ≠ key b := by
        refine ⟨fun h b hb heq => ?_, fun h b hb => h b (List.mem_filter.mp hb).1⟩
        exact h b (List.mem_filter.mpr ⟨hb, (hp a b heq).symm.trans hpa⟩) heq
      by_cases hlast : ∀ b ∈ as, key a ≠ key b
      · rw [latest_cons_of_forall hlast, latest_cons_of_forall (hsame.mpr hlast),
          List.filter_cons_of_pos hpa, ih]
      · rw [latest_cons_of_not hlast, latest_cons_of_not (mt hsame.mp hlast), ih]
    · rw [List.filter_cons_of_neg hpa, ← ih]
      by_cases hlast : ∀ b ∈ as, key a ≠ key b
      · rw [latest_cons_of_forall hlast, List.filter_cons_of_neg hpa]
      · rw [latest_cons_of_not hlast]

/-! ## Different keys stay different -/

/-- Where no two entries have one key, an entry is found by its key. -/
theorem filter_key_eq (h : l.Pairwise fun a b => key a ≠ key b) (ha : a ∈ l) :
    l.filter (fun b => key b = key a) = [a] := by
  obtain ⟨l₁, l₂, rfl⟩ := List.append_of_mem ha
  have hothers := List.pairwise_append.mp h
  have hfront : l₁.filter (fun b => key b = key a) = [] := by
    refine List.filter_eq_nil_iff.mpr fun b hb => ?_
    simpa using hothers.2.2 b hb a List.mem_cons_self
  have hback : l₂.filter (fun b => key b = key a) = [] := by
    refine List.filter_eq_nil_iff.mpr fun b hb => ?_
    simpa using ((List.pairwise_cons.mp hothers.2.1).1 b hb).symm
  rw [List.filter_append, List.filter_cons_of_pos (by simp), hfront, hback, List.nil_append]

/-- Setting an element keeps the keys distinct. -/
theorem pairwise_set (h : l.Pairwise fun a b => key a ≠ key b) :
    (set key l a).Pairwise fun a b => key a ≠ key b := by
  rw [set, List.pairwise_append]
  refine ⟨h.filter _, List.pairwise_singleton _ _, fun b hb c hc => ?_⟩
  rw [List.mem_singleton.mp hc]
  simpa using (List.mem_filter.mp hb).2

/-- Setting elements keeps the keys distinct. -/
theorem pairwise_setAll (h : l.Pairwise fun a b => key a ≠ key b) :
    (setAll key l as).Pairwise fun a b => key a ≠ key b := by
  induction as generalizing l with
  | nil => exact h
  | cons a as ih => exact ih (pairwise_set h)

/-! ## Two lists, entry by entry -/

section Related

variable {R : α → α → Prop} {l' as' : List α} {a' : α}

/-- Entries that are related have one key, so the same are replaced. -/
theorem forall₂_set (hR : ∀ ⦃a b⦄, R a b → key a = key b) (hl : List.Forall₂ R l l') (ha : R a a') :
    List.Forall₂ R (set key l a) (set key l' a') := by
  refine List.rel_append (List.rel_filter ?_ hl) (.cons ha .nil)
  intro b b' hb
  dsimp only
  rw [hR hb, hR ha]

/-- Setting related elements of the same keys keeps lists related. -/
theorem forall₂_setAll (hR : ∀ ⦃a b⦄, R a b → key a = key b) (hl : List.Forall₂ R l l')
    (has : List.Forall₂ R as as') : List.Forall₂ R (setAll key l as) (setAll key l' as') := by
  induction has generalizing l l' with
  | nil => exact hl
  | cons ha _ ih => exact ih (forall₂_set hR hl ha)

end Related

end MacdTradingBot.Keyed
