import Mathlib.Data.List.Basic
import Mathlib.Data.List.Forall2
import Mathlib.Tactic.Ring

/-!
# Complete blocks of a list

`Blocks.complete k l` cuts a list into its complete blocks of `k` consecutive elements, in order, and
`Blocks.rest k l` is what is left after the last of them. A consumer that reads a list element by
element meets the two `concat` rules: an element either extends the rest, or completes a block and
empties the rest.
-/

namespace MacdTradingBot.Blocks

variable {α : Type*}

/-- The complete blocks of `k` consecutive elements of `l`, in order. -/
def complete (k : ℕ) (l : List α) : List (List α) :=
  (List.range (l.length / k)).map fun i => (l.drop (i * k)).take k

/-- The elements after the last complete block. -/
def rest (k : ℕ) (l : List α) : List α :=
  l.drop (l.length / k * k)

@[simp]
theorem complete_nil (k : ℕ) : complete k ([] : List α) = [] := by
  simp [complete]

@[simp]
theorem rest_nil (k : ℕ) : rest k ([] : List α) = [] := by
  simp [rest]

/-- There is a complete block for each `k` elements. -/
@[simp]
theorem length_complete (k : ℕ) (l : List α) : (complete k l).length = l.length / k := by
  simp [complete]

/-- What is left over is shorter than a block. -/
theorem length_rest (k : ℕ) (l : List α) : (rest k l).length = l.length % k := by
  have h := Nat.div_add_mod l.length k
  rw [Nat.mul_comm] at h
  simp only [rest, List.length_drop]
  omega

/-- The complete blocks are the pieces at the multiples of `k`. -/
theorem mem_complete {k : ℕ} {l b : List α} :
    b ∈ complete k l ↔ ∃ i < l.length / k, (l.drop (i * k)).take k = b := by
  simp [complete]

/-- A complete block has `k` elements. -/
theorem length_of_mem_complete {k : ℕ} {l b : List α} (hb : b ∈ complete k l) : b.length = k := by
  obtain ⟨i, hi, rfl⟩ := mem_complete.mp hb
  have hk : (i + 1) * k ≤ l.length :=
    (Nat.mul_le_mul_right k hi).trans (Nat.div_mul_le_self _ _)
  rw [Nat.succ_mul] at hk
  simp only [List.length_take, List.length_drop]
  omega

/-- A block is part of the list. -/
theorem sublist_of_mem_complete {k : ℕ} {l b : List α} (hb : b ∈ complete k l) : b.Sublist l := by
  obtain ⟨i, -, rfl⟩ := mem_complete.mp hb
  exact (List.take_sublist _ _).trans (List.drop_sublist _ _)

/-- A list that is long enough starts with a complete block. -/
theorem complete_eq_cons {k : ℕ} {l : List α} (hk : 0 < k) (h : k ≤ l.length) :
    complete k l = l.take k :: complete k (l.drop k) := by
  rw [complete, Nat.div_eq_sub_div hk h, List.range_succ_eq_map, List.map_cons, List.map_map, complete,
    List.length_drop]
  congr 1
  · simp
  · refine List.map_congr_left fun i _ => ?_
    rw [Function.comp_apply, Nat.succ_mul, Nat.add_comm, List.drop_drop]

/-! ## Blocks of blocks -/

/-- Blocks in a row are a piece of the list. -/
private theorem flatten_take_drop_complete {k : ℕ} {l : List α} (n : ℕ) {s : ℕ}
    (h : s + n ≤ l.length / k) :
    (((complete k l).drop s).take n).flatten = (l.drop (s * k)).take (n * k) := by
  induction n generalizing s with
  | zero => simp
  | succ n ih =>
    have hs : s < (complete k l).length := by
      rw [length_complete]
      omega
    have hblock : (complete k l)[s] = (l.drop (s * k)).take k := by simp [complete]
    rw [List.drop_eq_getElem_cons hs, List.take_succ_cons, List.flatten_cons, hblock, ih (by omega),
      Nat.succ_mul s, Nat.succ_mul n, Nat.add_comm (n * k), List.take_add, List.drop_drop]

/-- Blocks of `k * m` elements are the blocks of `m` blocks of `k` elements, each in one piece. -/
theorem complete_mul (k m : ℕ) (l : List α) :
    complete (k * m) l = (complete m (complete k l)).map List.flatten := by
  rw [complete, complete, List.map_map, length_complete, Nat.div_div_eq_div_mul]
  refine List.map_congr_left fun i hi => ?_
  have hlt : i < l.length / k / m := by
    rw [Nat.div_div_eq_div_mul]
    exact List.mem_range.mp hi
  have hle : i * m + m ≤ l.length / k := by
    rw [← Nat.succ_mul]
    exact (Nat.mul_le_mul_right m hlt).trans (Nat.div_mul_le_self _ _)
  rw [Function.comp_apply, flatten_take_drop_complete m hle, Nat.mul_assoc, Nat.mul_comm m k]

/-! ## Lists that are related element by element -/

section Related

variable {β : Type*} {R : α → β → Prop} {l : List α} {l' : List β}

/-- They have related blocks. -/
theorem forall₂_complete (h : List.Forall₂ R l l') (k : ℕ) :
    List.Forall₂ (List.Forall₂ R) (complete k l) (complete k l') := by
  rw [complete, complete, h.length_eq, List.forall₂_map_left_iff, List.forall₂_map_right_iff,
    List.forall₂_same]
  exact fun i _ => List.forall₂_take k (List.forall₂_drop (i * k) h)

/-- Every element on the left has its partner. -/
theorem exists_right_of_mem (h : List.Forall₂ R l l') {a : α} (ha : a ∈ l) : ∃ b ∈ l', R a b := by
  induction h with
  | nil => cases ha
  | @cons a' b _ _ hab _ ih =>
    rcases List.mem_cons.mp ha with rfl | ha
    · exact ⟨b, List.mem_cons_self, hab⟩
    · obtain ⟨c, hc, hac⟩ := ih ha
      exact ⟨c, List.mem_cons_of_mem _ hc, hac⟩

/-- Every element on the right has its partner. -/
theorem exists_left_of_mem (h : List.Forall₂ R l l') {b : β} (hb : b ∈ l') : ∃ a ∈ l, R a b :=
  exists_right_of_mem (List.Forall₂.flip (R := flip R) h) hb

end Related

/-! ## Reading one more element -/

section Concat

variable {k : ℕ} {l : List α}

/-- A block stays when the list grows. -/
private theorem take_drop_concat {i : ℕ} (hi : i < l.length / k) (a : α) :
    ((l ++ [a]).drop (i * k)).take k = (l.drop (i * k)).take k := by
  have hk : (i + 1) * k ≤ l.length :=
    (Nat.mul_le_mul_right k hi).trans (Nat.div_mul_le_self _ _)
  rw [Nat.succ_mul] at hk
  rw [List.drop_append_of_le_length (by omega), List.take_append_of_le_length]
  simp only [List.length_drop]
  omega

/-- An element that does not fill the block completes none. -/
private theorem div_concat_of_lt (h : (rest k l).length + 1 < k) (a : α) :
    (l ++ [a]).length / k = l.length / k := by
  rw [length_rest] at h
  have hdm := Nat.div_add_mod l.length k
  rw [List.length_append, List.length_singleton, ← hdm, Nat.add_assoc,
    Nat.mul_add_div (by omega), Nat.mul_add_div (by omega), Nat.div_eq_of_lt h,
    Nat.mod_div_self]

/-- The element that fills the block completes it. -/
private theorem div_concat_of_eq (h : (rest k l).length + 1 = k) (a : α) :
    (l ++ [a]).length / k = l.length / k + 1 := by
  rw [length_rest] at h
  have hdm := Nat.div_add_mod l.length k
  rw [List.length_append, List.length_singleton]
  conv_lhs => rw [← hdm, Nat.add_assoc, h]
  rw [Nat.mul_add_div (by omega), Nat.div_self (by omega)]

/-- An element that does not fill a block leaves the blocks as they are. -/
theorem complete_concat_of_lt (h : (rest k l).length + 1 < k) (a : α) :
    complete k (l ++ [a]) = complete k l := by
  rw [complete, div_concat_of_lt h, complete]
  refine List.map_congr_left fun i hi => take_drop_concat (List.mem_range.mp hi) a

/-- An element that does not fill the block joins what is left over. -/
theorem rest_concat_of_lt (h : (rest k l).length + 1 < k) (a : α) :
    rest k (l ++ [a]) = rest k l ++ [a] := by
  rw [rest, div_concat_of_lt h, rest]
  exact List.drop_append_of_le_length (Nat.div_mul_le_self _ _)

private theorem lt_of_ne (hk : k ≠ 0) (h : (rest k l).length + 1 ≠ k) : (rest k l).length + 1 < k := by
  have hlt := Nat.mod_lt l.length (Nat.pos_of_ne_zero hk)
  rw [← length_rest] at hlt
  omega

/-- The two rules above hold for blocks of length zero too, of which there are none. -/
theorem complete_concat_of_ne (h : (rest k l).length + 1 ≠ k) (a : α) :
    complete k (l ++ [a]) = complete k l := by
  by_cases hk : k = 0
  · simp [complete, hk]
  · exact complete_concat_of_lt (lt_of_ne hk h) a

/-- An element that does not fill the block joins what is left over, also for blocks of length 0. -/
theorem rest_concat_of_ne (h : (rest k l).length + 1 ≠ k) (a : α) :
    rest k (l ++ [a]) = rest k l ++ [a] := by
  by_cases hk : k = 0
  · simp [rest, hk]
  · exact rest_concat_of_lt (lt_of_ne hk h) a

/-- An element that fills a block adds the rest and itself as the next block. -/
theorem complete_concat_of_eq (h : (rest k l).length + 1 = k) (a : α) :
    complete k (l ++ [a]) = complete k l ++ [rest k l ++ [a]] := by
  have hle : l.length / k * k ≤ l.length := Nat.div_mul_le_self _ _
  rw [complete, div_concat_of_eq h, List.range_succ, List.map_append, complete]
  congr 1
  · exact List.map_congr_left fun i hi => take_drop_concat (List.mem_range.mp hi) a
  · rw [List.map_singleton, List.drop_append_of_le_length hle, ← rest, List.take_of_length_le]
    simp only [List.length_append, List.length_singleton]
    omega

/-- After the element that fills the block nothing is left over. -/
theorem rest_concat_of_eq (h : (rest k l).length + 1 = k) (a : α) :
    rest k (l ++ [a]) = [] := by
  apply List.eq_nil_of_length_eq_zero
  have hk := length_rest k l
  rw [length_rest, List.length_append, List.length_singleton, Nat.add_mod, ← hk]
  by_cases h1 : k = 1
  · subst h1; simp [Nat.mod_one]
  · rw [Nat.mod_eq_of_lt (show 1 < k by omega), h, Nat.mod_self]

end Concat

end MacdTradingBot.Blocks
