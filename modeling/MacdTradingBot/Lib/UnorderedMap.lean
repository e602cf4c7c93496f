import Mathlib.Data.List.Basic
import Mathlib.Data.List.Nodup

/-!
# Maps as lists of entries with distinct keys

`UnorderedMap κ α` holds its entries in the order in which the keys were inserted; that no key occurs
twice is a field, so no operation has to be checked for it later. `forEach` runs a function that may
fail over the values and keeps what was done before a failure.
-/

namespace MacdTradingBot

/-- A map with keys in `κ` and values in `α`. -/
structure UnorderedMap (κ α : Type) where
  entries : List (κ × α)
  nodup : (entries.map Prod.fst).Nodup
deriving Repr

namespace UnorderedMap

variable {κ α β ε : Type}

def empty : UnorderedMap κ α := ⟨[], List.nodup_nil⟩

instance : Inhabited (UnorderedMap κ α) := ⟨empty⟩

def keys (m : UnorderedMap κ α) : List κ := m.entries.map Prod.fst

def values (m : UnorderedMap κ α) : List α := m.entries.map Prod.snd

/-- Apply a function to every value. -/
def mapValues (f : α → β) (m : UnorderedMap κ α) : UnorderedMap κ β :=
  ⟨m.entries.map fun e => (e.1, f e.2), by simpa [Function.comp_def] using m.nodup⟩

@[simp]
theorem keys_mapValues (f : α → β) (m : UnorderedMap κ α) : (m.mapValues f).keys = m.keys := by
  simp [keys, mapValues, Function.comp_def]

@[simp]
theorem values_mapValues (f : α → β) (m : UnorderedMap κ α) :
    (m.mapValues f).values = m.values.map f := by
  simp [values, mapValues, Function.comp_def]

/-- Values that are mapped twice are mapped by the composition. -/
theorem mapValues_mapValues {γ : Type} (f : α → β) (g : β → γ) (m : UnorderedMap κ α) :
    (m.mapValues f).mapValues g = m.mapValues (g ∘ f) := by
  simp [mapValues, Function.comp_def]

theorem mapValues_id (m : UnorderedMap κ α) : m.mapValues id = m := by
  simp [mapValues]

/-! ## Lookup and insertion -/

variable [DecidableEq κ]

def find? (m : UnorderedMap κ α) (k : κ) : Option α := m.entries.lookup k

/-- Under distinct keys an entry is found by its key. -/
private theorem lookup_of_mem {l : List (κ × α)} {k : κ} {a : α} (hl : (l.map Prod.fst).Nodup)
    (h : (k, a) ∈ l) : l.lookup k = some a := by
  induction l with
  | nil => simp at h
  | cons e l ih =>
    rw [List.map_cons, List.nodup_cons] at hl
    rcases List.mem_cons.mp h with rfl | h
    · simp
    · have hne : k ≠ e.1 := by
        rintro rfl
        exact hl.1 (List.mem_map.mpr ⟨_, h, rfl⟩)
      rw [List.lookup_cons, beq_eq_false_iff_ne.mpr hne]
      exact ih hl.2 h

/-- Lookup finds exactly the entries. -/
theorem find?_eq_some_iff {m : UnorderedMap κ α} {k : κ} {a : α} :
    m.find? k = some a ↔ (k, a) ∈ m.entries := by
  constructor
  · intro h
    obtain ⟨l₁, l₂, hl, -⟩ := List.lookup_eq_some_iff.mp h
    rw [hl]
    simp
  · exact lookup_of_mem m.nodup

/-- A mapped value is found where the value was. -/
theorem find?_mapValues (f : α → β) (m : UnorderedMap κ α) (k : κ) :
    (m.mapValues f).find? k = (m.find? k).map f := by
  simp only [find?, mapValues]
  induction m.entries with
  | nil => rfl
  | cons e l ih =>
    obtain ⟨k', a⟩ := e
    simp only [List.map_cons, List.lookup_cons, ih]
    cases k == k' <;> rfl

/-- Replacing a value keeps the keys. -/
private theorem keys_replace (l : List (κ × α)) (k : κ) (a : α) :
    (l.map fun e => if e.1 = k then (k, a) else e).map Prod.fst = l.map Prod.fst := by
  rw [List.map_map]
  refine List.map_congr_left fun e _ => ?_
  by_cases h : e.1 = k <;> simp [h]

/-- `map[k] = a`: replace the value of a key that is there, or add an entry. -/
def insertOrAssign (m : UnorderedMap κ α) (k : κ) (a : α) : UnorderedMap κ α :=
  if h : k ∈ m.keys then
    ⟨m.entries.map fun e => if e.1 = k then (k, a) else e, by
      rw [keys_replace]
      exact m.nodup⟩
  else
    ⟨m.entries ++ [(k, a)], by
      rw [List.map_append, List.nodup_append]
      refine ⟨m.nodup, by simp, ?_⟩
      rintro k' hk' _ hb rfl
      simp only [List.map_cons, List.map_nil, List.mem_singleton] at hb
      exact h (hb ▸ hk')⟩

/-- The entries given one after another; of two with one key the first counts, as in the
initializer-list constructor of the standard library. -/
def ofList (l : List (κ × α)) : UnorderedMap κ α :=
  l.foldl (fun m e => if e.1 ∈ m.keys then m else m.insertOrAssign e.1 e.2) empty

/-- A new key comes last. -/
theorem entries_insertOrAssign_of_notMem {m : UnorderedMap κ α} {k : κ} (h : k ∉ m.keys) (a : α) :
    (m.insertOrAssign k a).entries = m.entries ++ [(k, a)] := by
  unfold insertOrAssign
  rw [dif_neg h]

/-- Assigning to a key adds none. -/
theorem keys_insertOrAssign_of_mem {m : UnorderedMap κ α} {k : κ} (h : k ∈ m.keys) (a : α) :
    (m.insertOrAssign k a).keys = m.keys := by
  unfold insertOrAssign
  rw [dif_pos h]
  exact keys_replace _ _ _

/-- A new key is added. -/
theorem keys_insertOrAssign_of_notMem {m : UnorderedMap κ α} {k : κ} (h : k ∉ m.keys) (a : α) :
    (m.insertOrAssign k a).keys = m.keys ++ [k] := by
  rw [keys, entries_insertOrAssign_of_notMem h, List.map_append]
  rfl

/-- Which keys a map has after an insertion does not depend on the values. -/
theorem keys_insertOrAssign_congr {m : UnorderedMap κ α} {m' : UnorderedMap κ β}
    (h : m.keys = m'.keys) (k : κ) (a : α) (b : β) :
    (m.insertOrAssign k a).keys = (m'.insertOrAssign k b).keys := by
  by_cases hk : k ∈ m.keys
  · rw [keys_insertOrAssign_of_mem hk, keys_insertOrAssign_of_mem (h ▸ hk), h]
  · rw [keys_insertOrAssign_of_notMem hk, keys_insertOrAssign_of_notMem (h ▸ hk), h]

/-- After an assignment there is the new entry, and those under other keys. -/
theorem mem_entries_insertOrAssign {m : UnorderedMap κ α} {k k' : κ} {a a' : α} :
    (k', a') ∈ (m.insertOrAssign k a).entries ↔
      (k' = k ∧ a' = a) ∨ (k' ≠ k ∧ (k', a') ∈ m.entries) := by
  by_cases h : k ∈ m.keys
  · have hentries : (m.insertOrAssign k a).entries
        = m.entries.map fun e => if e.1 = k then (k, a) else e := by
      unfold insertOrAssign
      rw [dif_pos h]
    rw [hentries, List.mem_map]
    constructor
    · rintro ⟨e, he, heq⟩
      by_cases hk : e.1 = k
      · rw [if_pos hk, Prod.mk.injEq] at heq
        exact Or.inl ⟨heq.1.symm, heq.2.symm⟩
      · rw [if_neg hk] at heq
        subst heq
        exact Or.inr ⟨hk, he⟩
    · rintro (⟨rfl, rfl⟩ | ⟨hne, hmem⟩)
      · obtain ⟨e, he, hek⟩ := List.mem_map.mp h
        exact ⟨e, he, by rw [if_pos hek]⟩
      · exact ⟨_, hmem, by rw [if_neg hne]⟩
  · rw [entries_insertOrAssign_of_notMem h, List.mem_append, List.mem_singleton, Prod.mk.injEq]
    constructor
    · rintro (hmem | hnew)
      · refine Or.inr ⟨?_, hmem⟩
        rintro rfl
        exact h (List.mem_map.mpr ⟨_, hmem, rfl⟩)
      · exact Or.inl hnew
    · rintro (hnew | ⟨-, hmem⟩)
      · exact Or.inr hnew
      · exact Or.inl hmem

@[simp]
theorem find?_insertOrAssign_self (m : UnorderedMap κ α) (k : κ) (a : α) :
    (m.insertOrAssign k a).find? k = some a := by
  rw [find?_eq_some_iff, mem_entries_insertOrAssign]
  exact Or.inl ⟨rfl, rfl⟩

/-- The other keys keep their values. -/
theorem find?_insertOrAssign_of_ne (m : UnorderedMap κ α) {k k' : κ} (h : k' ≠ k) (a : α) :
    (m.insertOrAssign k a).find? k' = m.find? k' := by
  refine Option.ext fun b => ?_
  rw [find?_eq_some_iff, mem_entries_insertOrAssign, find?_eq_some_iff]
  simp [h]

/-- Maps with the same keys in the same order and the same lookups are equal. -/
theorem ext_of_find? {m m' : UnorderedMap κ α} (hkeys : m.keys = m'.keys)
    (h : ∀ k ∈ m.keys, m.find? k = m'.find? k) : m = m' := by
  obtain ⟨l, hl⟩ := m
  obtain ⟨l', hl'⟩ := m'
  simp only [keys, find?, mk.injEq] at hkeys h ⊢
  induction l generalizing l' with
  | nil =>
    rw [List.map_nil] at hkeys
    exact (List.map_eq_nil_iff.mp hkeys.symm).symm
  | cons e l ih =>
    cases l' with
    | nil => simp at hkeys
    | cons e' l' =>
      obtain ⟨k, a⟩ := e
      obtain ⟨k', a'⟩ := e'
      simp only [List.map_cons, List.cons.injEq] at hkeys
      obtain ⟨rfl, hkeys⟩ := hkeys
      rw [List.map_cons, List.nodup_cons] at hl hl'
      have ha : a = a' := by simpa using h k (by simp)
      rw [ha, ih hl.2 l' hl'.2 hkeys fun k₁ hk₁ => ?_]
      have hne : k₁ ≠ k := fun heq => hl.1 (heq ▸ hk₁)
      have hk := h k₁ (by simp [hk₁])
      simpa [List.lookup_cons, beq_eq_false_iff_ne.mpr hne] using hk

/-- Assign a list of entries, one after another. -/
def assignAll (m : UnorderedMap κ α) (l : List (κ × α)) : UnorderedMap κ α :=
  l.foldl (fun m e => m.insertOrAssign e.1 e.2) m

/-- Keys that are not assigned keep their values. -/
theorem find?_assignAll_of_notMem (m : UnorderedMap κ α) {l : List (κ × α)} {k : κ}
    (h : k ∉ l.map Prod.fst) : (m.assignAll l).find? k = m.find? k := by
  unfold assignAll
  induction l generalizing m with
  | nil => rfl
  | cons e l ih =>
    rw [List.map_cons, List.mem_cons, not_or] at h
    rw [List.foldl_cons, ih _ h.2, find?_insertOrAssign_of_ne _ h.1]

/-- Keys that are assigned once have that value. -/
theorem find?_assignAll_of_mem (m : UnorderedMap κ α) {l : List (κ × α)}
    (hl : (l.map Prod.fst).Nodup) {k : κ} {a : α} (h : (k, a) ∈ l) :
    (m.assignAll l).find? k = some a := by
  induction l generalizing m with
  | nil => simp at h
  | cons e l ih =>
    rw [List.map_cons, List.nodup_cons] at hl
    rcases List.mem_cons.mp h with rfl | h
    · exact (find?_assignAll_of_notMem _ hl.1).trans (find?_insertOrAssign_self _ _ _)
    · exact ih (m.insertOrAssign e.1 e.2) hl.2 h

/-- The keys after assignments depend on keys alone. -/
theorem keys_assignAll_congr {m : UnorderedMap κ α} {m' : UnorderedMap κ β}
    (h : m.keys = m'.keys) {l : List (κ × α)} {l' : List (κ × β)}
    (hl : l.map Prod.fst = l'.map Prod.fst) : (m.assignAll l).keys = (m'.assignAll l').keys := by
  unfold assignAll
  induction l generalizing m m' l' with
  | nil =>
    obtain rfl : l' = [] := List.map_eq_nil_iff.mp hl.symm
    exact h
  | cons e l ih =>
    cases l' with
    | nil => simp at hl
    | cons e' l' =>
      rw [List.map_cons, List.map_cons, List.cons.injEq] at hl
      rw [List.foldl_cons, List.foldl_cons, ← hl.1]
      exact ih (keys_insertOrAssign_congr h _ _ _) hl.2

/-- Assignments make no other entries. -/
theorem mem_or_mem_of_mem_assignAll {m : UnorderedMap κ α} {l : List (κ × α)} {k : κ} {a : α}
    (h : (k, a) ∈ (m.assignAll l).entries) : (k, a) ∈ m.entries ∨ (k, a) ∈ l := by
  unfold assignAll at h
  induction l generalizing m with
  | nil => exact Or.inl h
  | cons e l ih =>
    rw [List.foldl_cons] at h
    rcases ih h with h | h
    · rcases mem_entries_insertOrAssign.mp h with ⟨rfl, rfl⟩ | ⟨-, h⟩
      · exact Or.inr List.mem_cons_self
      · exact Or.inl h
    · exact Or.inr (List.mem_cons_of_mem _ h)

/-- Assigning to keys that are there adds none. -/
theorem keys_assignAll_of_mem (m : UnorderedMap κ α) {l : List (κ × α)}
    (h : ∀ e ∈ l, e.1 ∈ m.keys) : (m.assignAll l).keys = m.keys := by
  unfold assignAll
  induction l generalizing m with
  | nil => rfl
  | cons e l ih =>
    have hkeys := keys_insertOrAssign_of_mem (h e (by simp)) e.2
    rw [List.foldl_cons, ih _ fun e' he' => ?_, hkeys]
    rw [hkeys]
    exact h e' (by simp [he'])

/-- Assigning new values to all keys of a map, from the entries of another with the same keys. -/
theorem assignAll_entries {m m' : UnorderedMap κ α} (hkeys : m.keys = m'.keys) :
    m.assignAll m'.entries = m' := by
  have hmem : ∀ e ∈ m'.entries, e.1 ∈ m.keys := by
    intro e he
    rw [hkeys]
    exact List.mem_map.mpr ⟨e, he, rfl⟩
  refine ext_of_find? ((keys_assignAll_of_mem m hmem).trans hkeys) fun k hk => ?_
  rw [keys_assignAll_of_mem m hmem, hkeys] at hk
  obtain ⟨⟨k', a⟩, he, rfl⟩ := List.mem_map.mp hk
  rw [find?_assignAll_of_mem m m'.nodup he, find?_eq_some_iff.mpr he]

/-- Inserting entries with new and distinct keys appends them. -/
theorem entries_assignAll_of_nodup (m : UnorderedMap κ α) {l : List (κ × α)}
    (h : (m.keys ++ l.map Prod.fst).Nodup) : (m.assignAll l).entries = m.entries ++ l := by
  unfold assignAll
  induction l generalizing m with
  | nil => simp
  | cons e l ih =>
    rw [List.map_cons, List.nodup_append] at h
    have hnew : e.1 ∉ m.keys := fun hmem => h.2.2 e.1 hmem e.1 (by simp) rfl
    rw [List.foldl_cons, ih, entries_insertOrAssign_of_notMem hnew, List.append_assoc]
    · rfl
    · rw [keys_insertOrAssign_of_notMem hnew, List.append_assoc]
      exact List.nodup_append.mpr h

/-! ## Running a function that may fail over the values -/

omit [DecidableEq κ]

/-- Replace the values by their images, one after another, until the function fails. -/
def forEachEntry (f : α → Except ε α) : List (κ × α) → Except ε Unit × List (κ × α)
  | [] => (.ok (), [])
  | (k, a) :: l =>
    match f a with
    | .error e => (.error e, (k, a) :: l)
    | .ok b => ((forEachEntry f l).1, (k, b) :: (forEachEntry f l).2)

/-- Calls on the values keep the keys. -/
theorem keys_forEachEntry (f : α → Except ε α) (l : List (κ × α)) :
    (forEachEntry f l).2.map Prod.fst = l.map Prod.fst := by
  induction l with
  | nil => rfl
  | cons e l ih =>
    obtain ⟨k, a⟩ := e
    unfold forEachEntry
    split
    · rfl
    · simp [ih]

/-- `for (auto& value : map | std::views::values)` with a body that may throw. -/
def forEach (m : UnorderedMap κ α) (f : α → Except ε α) : Except ε Unit × UnorderedMap κ α :=
  ((forEachEntry f m.entries).1,
    ⟨(forEachEntry f m.entries).2, by rw [keys_forEachEntry]; exact m.nodup⟩)

/-- A body that never fails is applied to every value. -/
theorem forEach_of_ok {m : UnorderedMap κ α} {f : α → Except ε α} {g : α → α}
    (h : ∀ a ∈ m.values, f a = .ok (g a)) : m.forEach f = (.ok (), m.mapValues g) := by
  suffices hs : forEachEntry f m.entries = (.ok (), m.entries.map fun e => (e.1, g e.2)) by
    simp [forEach, mapValues, hs]
  unfold values at h
  generalize m.entries = l at h
  induction l with
  | nil => rfl
  | cons e l ih =>
    obtain ⟨k, a⟩ := e
    have ha : f a = .ok (g a) := h a (by simp)
    have hl := ih fun b hb => h b (by simp only [List.map_cons, List.mem_cons]; exact Or.inr hb)
    simp [forEachEntry, ha, hl]

end UnorderedMap

end MacdTradingBot
