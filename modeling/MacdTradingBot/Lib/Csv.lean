import Mathlib.Data.List.Nodup

/-!
# Comma-separated values

The reader of Python's module `csv` in its dialect `excel`, character by character, and `csv.DictReader`
over it. What is written without quotes is read back (`read_write`).
-/

namespace MacdTradingBot.Csv

/-! ## The reader -/

/-- Where the reader stands in a record. -/
inductive State
  | startRecord | startField | inField | inQuotedField | quoteInQuotedField
deriving DecidableEq, Repr

/-- The field and the record that are being read, and the records before. -/
structure Reader where
  state : State := .startRecord
  field : List Char := []
  fields : List String := []
  rows : List (List String) := []

/-- `csv.field_size_limit()`. -/
def fieldSizeLimit : ℕ := 131072

namespace Reader

/-- A longer field raises. -/
def addChar (r : Reader) (state : State) (c : Char) : Option Reader :=
  if r.field.length < fieldSizeLimit then some { r with state := state, field := r.field ++ [c] } else none

def saveField (r : Reader) : Reader :=
  { r with state := .startField, field := [], fields := r.fields ++ [String.ofList r.field] }

def endRecord (r : Reader) : Reader := { rows := r.rows ++ [r.fields] }

/-- The first character of a field, which does not end the line. -/
def startField (r : Reader) (c : Char) : Option Reader :=
  if c = '"' then some { r with state := .inQuotedField }
  else if c = ',' then some r.saveField
  else r.addChar .inField c

def processChar (r : Reader) (c : Char) : Option Reader :=
  match r.state with
  | .startRecord => if c = '\n' then some r.endRecord else r.startField c
  | .startField => if c = '\n' then some r.saveField.endRecord else r.startField c
  | .inField =>
    if c = '\n' then some r.saveField.endRecord
    else if c = ',' then some r.saveField
    else r.addChar .inField c
  | .inQuotedField =>
    if c = '"' then some { r with state := .quoteInQuotedField } else r.addChar .inQuotedField c
  | .quoteInQuotedField =>
    if c = '"' then r.addChar .inQuotedField c
    else if c = ',' then some r.saveField
    else if c = '\n' then some r.saveField.endRecord
    else r.addChar .inField c

/-- The records at the end of the text. The last line needs no end of its own. -/
def finish (r : Reader) : List (List String) :=
  match r.state with
  | .startRecord => r.rows
  | .startField | .inField | .inQuotedField | .quoteInQuotedField => r.saveField.endRecord.rows

end Reader

/-- The records of a text whose lines end in newlines. -/
def read (text : List Char) : Option (List (List String)) :=
  (text.foldlM Reader.processChar {}).map Reader.finish

/-- The text of a file that is opened as text. -/
def universalNewlines : List Char → List Char
  | '\r' :: '\n' :: s => '\n' :: universalNewlines s
  | '\r' :: s => '\n' :: universalNewlines s
  | c :: s => c :: universalNewlines s
  | [] => []

/-- The `dict` of a row: the last of equal names counts, what the row is short of is `None`, and what it
has over is under no name. -/
def dictRow (fieldnames row : List String) : List (String × Option String) :=
  (fieldnames.zip (row.map some ++ List.replicate (fieldnames.length - row.length) none)).reverse

/-- `csv.DictReader`: the first row has the names, and blank rows are skipped. -/
def dictReader (text : List Char) : Option (List (List (String × Option String))) :=
  (read (universalNewlines text)).map fun
    | [] => []
    | fieldnames :: rows => (rows.filter (· ≠ [])).map (dictRow fieldnames)

example : dictReader "a,b\r\n1,\"2,\"\"\n\"\r\n\r\n3".toList
    = some [[("b", some "2,\"\n"), ("a", some "1")], [("b", none), ("a", some "3")]] := by
  decide

/-! ## Writing without quotes -/

/-- The field needs no quotes and is not too long. -/
structure IsPlain (field : String) : Prop where
  chars : ∀ c ∈ field.toList, c ≠ ',' ∧ c ≠ '"' ∧ c ≠ '\n' ∧ c ≠ '\r'
  length_le : field.toList.length ≤ fieldSizeLimit

instance (field : String) : Decidable (IsPlain field) :=
  decidable_of_iff
    ((field.toList.all fun c => c ≠ ',' ∧ c ≠ '"' ∧ c ≠ '\n' ∧ c ≠ '\r') = true ∧
      field.toList.length ≤ fieldSizeLimit)
    ⟨fun h => ⟨fun c hc => of_decide_eq_true (List.all_eq_true.mp h.1 c hc), h.2⟩,
      fun h => ⟨List.all_eq_true.mpr fun c hc => decide_eq_true (h.chars c hc), h.length_le⟩⟩

/-- A record of fields that need no quotes. A single field is not empty: its line would be blank. -/
structure IsPlainRow (row : List String) : Prop where
  plain : ∀ field ∈ row, IsPlain field
  ne_nil : row ≠ []
  ne_blank : row ≠ [""]

def writeRow : List String → List Char
  | [] => []
  | [field] => field.toList
  | field :: fields => field.toList ++ ',' :: writeRow fields

def write (rows : List (List String)) : List Char := rows.flatMap fun row => writeRow row ++ ['\n']

/-- The first field of a row is followed by a comma, if there are more. -/
theorem writeRow_cons {field : String} {fields : List String} (h : fields ≠ []) :
    writeRow (field :: fields) = field.toList ++ ',' :: writeRow fields := by
  obtain ⟨next, more, rfl⟩ := List.exists_cons_of_ne_nil h
  rfl

/-- The characters of a row are those of its fields, and commas. -/
theorem mem_writeRow {row : List String} {c : Char} (h : c ∈ writeRow row) :
    c = ',' ∨ ∃ field ∈ row, c ∈ field.toList := by
  induction row with
  | nil => cases h
  | cons field fields ih =>
    by_cases hne : fields = []
    · subst hne
      exact Or.inr ⟨field, List.mem_cons_self, h⟩
    · rw [writeRow_cons hne, List.mem_append, List.mem_cons] at h
      rcases h with hfield | hcomma | hrest
      · exact Or.inr ⟨field, List.mem_cons_self, hfield⟩
      · exact Or.inl hcomma
      · obtain hcomma | ⟨other, hother, hc⟩ := ih hrest
        · exact Or.inl hcomma
        · exact Or.inr ⟨other, List.mem_cons_of_mem _ hother, hc⟩

/-- A plain row is one line. -/
theorem IsPlainRow.not_mem_writeRow {row : List String} (h : IsPlainRow row) :
    '\n' ∉ writeRow row ∧ '\r' ∉ writeRow row := by
  constructor
  · intro hmem
    obtain hcomma | ⟨field, hfield, hc⟩ := mem_writeRow hmem
    · revert hcomma
      decide
    · exact ((h.plain field hfield).chars _ hc).2.2.1 rfl
  · intro hmem
    obtain hcomma | ⟨field, hfield, hc⟩ := mem_writeRow hmem
    · revert hcomma
      decide
    · exact ((h.plain field hfield).chars _ hc).2.2.2 rfl

/-- A plain row is no blank line. -/
theorem IsPlainRow.writeRow_ne_nil {row : List String} (h : IsPlainRow row) : writeRow row ≠ [] := by
  obtain ⟨field, fields, rfl⟩ := List.exists_cons_of_ne_nil h.ne_nil
  by_cases hne : fields = []
  · subst hne
    intro hempty
    exact h.ne_blank (congrArg (fun s => [s]) (String.toList_eq_nil_iff.mp hempty))
  · rw [writeRow_cons hne]
    simp

/-! ## Reading it back -/

namespace Reader

/-- The reader is not in quotes. -/
def IsUnquoted (state : State) : Prop := state = .startRecord ∨ state = .startField ∨ state = .inField

variable {r : Reader}

/-- A plain character goes to the field. -/
theorem processChar_plain (hstate : IsUnquoted r.state) (hlength : r.field.length < fieldSizeLimit)
    {c : Char} (hc : c ≠ ',' ∧ c ≠ '"' ∧ c ≠ '\n') :
    r.processChar c = some { r with state := .inField, field := r.field ++ [c] } := by
  rcases hstate with h | h | h <;> simp [processChar, startField, addChar, h, hc, hlength]

/-- A comma ends the field. -/
theorem processChar_comma (hstate : IsUnquoted r.state) : r.processChar ',' = some r.saveField := by
  rcases hstate with h | h | h <;> simp [processChar, startField, h]

/-- A newline ends the row. -/
theorem processChar_newline (hstate : IsUnquoted r.state) (hstarted : r.state ≠ .startRecord) :
    r.processChar '\n' = some r.saveField.endRecord := by
  rcases hstate with h | h | h
  · exact absurd h hstarted
  · simp [processChar, h]
  · simp [processChar, h]

/-- A field is read whole; an empty one leaves the reader where it is. -/
theorem foldlM_field {chars : List Char} (hstate : IsUnquoted r.state)
    (hchars : ∀ c ∈ chars, c ≠ ',' ∧ c ≠ '"' ∧ c ≠ '\n')
    (hlength : r.field.length + chars.length ≤ fieldSizeLimit) :
    chars.foldlM processChar r = some
      { r with state := if chars = [] then r.state else .inField, field := r.field ++ chars } := by
  induction chars generalizing r with
  | nil => simp
  | cons c chars ih =>
    rw [List.length_cons] at hlength
    rw [List.foldlM_cons, processChar_plain hstate (by omega) (hchars c List.mem_cons_self)]
    have hrest := @ih { r with state := .inField, field := r.field ++ [c] } (Or.inr (Or.inr rfl))
      (fun d hd => hchars d (List.mem_cons_of_mem _ hd))
      (by simp only [List.length_append, List.length_singleton]; omega)
    refine hrest.trans ?_
    simp

/-- A record is read whole, from where no character of it has been read. -/
theorem foldlM_row {row : List String} (hstate : IsUnquoted r.state) (hfield : r.field = [])
    (hplain : ∀ field ∈ row, IsPlain field) (hne : row ≠ [])
    (hstarted : r.state = .startRecord → row ≠ [""]) :
    (writeRow row ++ ['\n']).foldlM processChar r = some { rows := r.rows ++ [r.fields ++ row] } := by
  induction row generalizing r with
  | nil => exact absurd rfl hne
  | cons field fields ih =>
    have hfieldPlain := hplain field List.mem_cons_self
    have hread := @foldlM_field r field.toList hstate
      (fun c hc => ⟨(hfieldPlain.chars c hc).1, (hfieldPlain.chars c hc).2.1,
        (hfieldPlain.chars c hc).2.2.1⟩)
      (by simpa [hfield] using hfieldPlain.length_le)
    have hafter : IsUnquoted (if field.toList = [] then r.state else .inField) := by
      split
      · exact hstate
      · exact Or.inr (Or.inr rfl)
    rw [hfield, List.nil_append] at hread
    by_cases hlast : fields = []
    · -- the newline saves the field, since something of the record has been read
      subst hlast
      rw [writeRow, List.foldlM_append, hread]
      show List.foldlM processChar _ ['\n'] = _
      rw [List.foldlM_cons, processChar_newline hafter]
      · simp [saveField, endRecord]
      · show (if field.toList = [] then r.state else .inField) ≠ .startRecord
        split
        · rename_i hempty
          intro hrecord
          exact hstarted hrecord (congrArg (fun s => [s]) (String.toList_eq_nil_iff.mp hempty))
        · exact State.noConfusion
    · rw [writeRow_cons hlast, List.append_assoc, List.cons_append, List.foldlM_append, hread]
      show List.foldlM processChar _ (',' :: _) = _
      rw [List.foldlM_cons, processChar_comma hafter]
      have hrest := @ih { r with state := .startField, field := [], fields := r.fields ++ [field] }
        (Or.inr (Or.inl rfl)) rfl (fun f hf => hplain f (List.mem_cons_of_mem _ hf)) hlast
        (fun h => State.noConfusion h)
      rw [List.append_assoc, List.singleton_append] at hrest
      rw [← hrest, saveField, String.ofList_toList]
      rfl

/-- What is written is read row by row. -/
theorem foldlM_write {rows : List (List String)} (h : ∀ row ∈ rows, IsPlainRow row)
    (earlier : List (List String)) :
    (write rows).foldlM processChar { rows := earlier } = some { rows := earlier ++ rows } := by
  induction rows generalizing earlier with
  | nil => simp [write]
  | cons row rows ih =>
    have hrow := h row List.mem_cons_self
    have hread := @foldlM_row { rows := earlier } row (Or.inl rfl) rfl hrow.plain hrow.ne_nil
      (fun _ => hrow.ne_blank)
    rw [write, List.flatMap_cons, List.foldlM_append, hread]
    refine (ih (fun r hr => h r (List.mem_cons_of_mem _ hr)) _).trans ?_
    simp

end Reader

/-- What is written is read. -/
theorem read_write {rows : List (List String)} (h : ∀ row ∈ rows, IsPlainRow row) :
    read (write rows) = some rows := by
  rw [read, Reader.foldlM_write h []]
  rfl

/-- A text without carriage returns stays as it is. -/
theorem universalNewlines_eq_self {text : List Char} (h : '\r' ∉ text) :
    universalNewlines text = text := by
  fun_induction universalNewlines text with
  | case1 => simp at h
  | case2 => simp at h
  | case3 c s _ _ ih =>
    rw [ih]
    exact fun hs => h (List.mem_cons_of_mem _ hs)
  | case4 => rfl

/-- The rows of a table that is written come back under the names in its first row. -/
theorem dictReader_write {fieldnames : List String} {rows : List (List String)}
    (hnames : IsPlainRow fieldnames) (hrows : ∀ row ∈ rows, IsPlainRow row) :
    dictReader (write (fieldnames :: rows)) = some (rows.map (dictRow fieldnames)) := by
  have hall : ∀ row ∈ fieldnames :: rows, IsPlainRow row := List.forall_mem_cons.mpr ⟨hnames, hrows⟩
  have hreturn : '\r' ∉ write (fieldnames :: rows) := by
    intro hmem
    obtain ⟨row, hrow, hc⟩ := List.mem_flatMap.mp hmem
    rw [List.mem_append, List.mem_singleton] at hc
    rcases hc with hc | hc
    · exact (hall row hrow).not_mem_writeRow.2 hc
    · revert hc
      decide
  have hblank : rows.filter (· ≠ []) = rows := by
    rw [List.filter_eq_self]
    exact fun row hrow => by simpa using (hrows row hrow).ne_nil
  rw [dictReader, universalNewlines_eq_self hreturn, read_write hall]
  show some ((rows.filter (· ≠ [])).map (dictRow fieldnames)) = _
  rw [hblank]

/-- With different keys, every pair is found. -/
theorem lookup_of_mem {β : Type} {pairs : List (String × β)} (hnodup : (pairs.map Prod.fst).Nodup)
    {key : String} {value : β} (h : (key, value) ∈ pairs) : pairs.lookup key = some value := by
  induction pairs with
  | nil => cases h
  | cons pair pairs ih =>
    rw [List.map_cons, List.nodup_cons] at hnodup
    rcases List.mem_cons.mp h with rfl | hrest
    · exact List.lookup_cons_self
    · have hne : (key == pair.1) = false := by
        rw [beq_eq_false_iff_ne]
        rintro rfl
        exact hnodup.1 (List.mem_map.mpr ⟨_, hrest, rfl⟩)
      rw [List.lookup_cons, hne]
      exact ih hnodup.2 hrest

/-- Under each of different names is its own field. -/
theorem lookup_dictRow {fieldnames row : List String} (hnodup : fieldnames.Nodup)
    (hlength : row.length = fieldnames.length) {name field : String}
    (h : (name, field) ∈ fieldnames.zip row) : (dictRow fieldnames row).lookup name = some (some field) := by
  have hpairs : dictRow fieldnames row = ((fieldnames.zip row).map fun p => (p.1, some p.2)).reverse := by
    rw [dictRow, hlength, Nat.sub_self, List.replicate_zero, List.append_nil, List.zip_map_right]
    rfl
  rw [hpairs]
  apply lookup_of_mem
  · have hfst : (fieldnames.zip row).map (Prod.fst ∘ fun p => (p.1, some p.2)) = fieldnames :=
      List.map_fst_zip (Nat.le_of_eq hlength.symm)
    rw [List.map_reverse, List.nodup_reverse, List.map_map, hfst]
    exact hnodup
  · rw [List.mem_reverse, List.mem_map]
    exact ⟨_, h, rfl⟩

end MacdTradingBot.Csv
