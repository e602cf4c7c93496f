import Mathlib.Order.CompletePartialOrder
import Mathlib.Order.Interval.Set.Disjoint
import Mathlib.Order.Interval.Set.OrdConnected

/-!
# Adjoining intervals

Two sets of a linear order adjoin when they are disjoint and together one interval. For half-open
intervals that is a matter of their ends.
-/

namespace MacdTradingBot

variable {α : Type*} [LinearOrder α] {s t : Set α} {a b c d : α}

/-- Disjoint, and together one interval. -/
structure Adjoin (s t : Set α) : Prop where
  disjoint : Disjoint s t
  interval : (s ∪ t).OrdConnected

namespace Adjoin

theorem symm (h : Adjoin s t) : Adjoin t s where
  disjoint := h.disjoint.symm
  interval := by
    rw [Set.union_comm]
    exact h.interval

/-- Where the second interval does not start before the end of the first, it starts there: what lies
between would be missing. -/
theorem end_eq (h : Adjoin (Set.Ico a b) (Set.Ico c d)) (hab : a < b) (hcd : c < d) (hbc : b ≤ c) :
    b = c := by
  by_contra hne
  have hlt : b < c := lt_of_le_of_ne hbc hne
  have hmem : b ∈ Set.Ico a b ∪ Set.Ico c d :=
    h.interval.out (Or.inl ⟨le_rfl, hab⟩) (Or.inr ⟨le_rfl, hcd⟩) ⟨hab.le, hbc⟩
  rcases hmem with hfirst | hsecond
  · exact lt_irrefl b hfirst.2
  · exact absurd hsecond.1 (not_le.mpr hlt)

/-- Intervals that meet in an end. -/
theorem of_end (hab : a ≤ b) (hbc : b ≤ c) : Adjoin (Set.Ico a b) (Set.Ico b c) where
  disjoint := Set.Ico_disjoint_Ico_same
  interval := by
    rw [Set.Ico_union_Ico_eq_Ico hab hbc]
    exact Set.ordConnected_Ico

end Adjoin

/-- Disjoint intervals come one after the other. -/
theorem le_or_le_of_disjoint (hab : a < b) (hcd : c < d) (h : Disjoint (Set.Ico a b) (Set.Ico c d)) :
    b ≤ c ∨ d ≤ a := by
  by_contra hno
  rw [not_or, not_le, not_le] at hno
  have hmax : max a c ∈ Set.Ico a b ∩ Set.Ico c d :=
    ⟨⟨le_max_left _ _, max_lt hab hno.1⟩, le_max_right _ _, max_lt hno.2 hcd⟩
  rw [Set.disjoint_iff_inter_eq_empty.mp h] at hmax
  exact hmax

theorem adjoin_Ico_iff (hab : a < b) (hcd : c < d) :
    Adjoin (Set.Ico a b) (Set.Ico c d) ↔ b = c ∨ d = a := by
  constructor
  · intro h
    exact (le_or_le_of_disjoint hab hcd h.disjoint).imp (h.end_eq hab hcd) (h.symm.end_eq hcd hab)
  · rintro (rfl | rfl)
    · exact .of_end hab.le hcd.le
    · exact (Adjoin.of_end hcd.le hab.le).symm

end MacdTradingBot
