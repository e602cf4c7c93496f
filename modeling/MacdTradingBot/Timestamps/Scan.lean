import MacdTradingBot.Utils
import Mathlib.Data.List.TakeWhile

/-!
# What the scanner reads

The texts that `std::get_time` takes for the two formats, told as a grammar: every piece of the format
matches a chunk of the text, a field as many digits as its width allows. A character at which no piece can
go on (`IsStop`) keeps the scanner from the end of the text, where it would leave out the rest of the
format; both suffixes have one. `get_eq_some_iff` says that the scanner and the grammar agree.
-/

namespace MacdTradingBot

namespace GetTime

/-- The digits at the front of `s`, at most `width` of them. -/
theorem takeDigits_eq_iff {width : ℕ} {s digits rest : List Char} :
    ((s.take width).takeWhile Char.isDigit = digits ∧ s.drop digits.length = rest) ↔
      s = digits ++ rest ∧ (∀ c ∈ digits, c.isDigit = true) ∧ digits.length ≤ width ∧
        (digits.length = width ∨ ∀ c ∈ rest.head?, c.isDigit = false) := by
  induction s generalizing width digits with
  | nil =>
    simp only [List.take_nil, List.takeWhile_nil, List.drop_nil, List.nil_eq_append_iff]
    constructor
    · rintro ⟨rfl, rfl⟩
      simp
    · rintro ⟨⟨rfl, rfl⟩, -⟩
      simp
  | cons c s ih =>
    cases width with
    | zero =>
      simp only [List.take_zero, List.takeWhile_nil, Nat.le_zero, List.length_eq_zero_iff]
      constructor
      · rintro ⟨rfl, rfl⟩
        simp
      · rintro ⟨hs, -, rfl, -⟩
        exact ⟨rfl, hs⟩
    | succ width =>
      rw [List.take_succ_cons]
      cases hc : c.isDigit with
      | false =>
        rw [List.takeWhile_cons_of_neg (by simp [hc])]
        constructor
        · rintro ⟨rfl, rfl⟩
          simp [hc]
        · rintro ⟨hs, hdigits, -⟩
          cases digits with
          | nil => exact ⟨rfl, hs⟩
          | cons d digits =>
            obtain ⟨rfl, -⟩ := List.cons.inj hs
            rw [hdigits c List.mem_cons_self] at hc
            cases hc
      | true =>
        rw [List.takeWhile_cons_of_pos hc]
        cases digits with
        | nil =>
          constructor
          · rintro ⟨hcons, -⟩
            cases hcons
          · rintro ⟨rfl, -, -, hwidth | hhead⟩
            · cases hwidth
            · rw [hhead c rfl] at hc
              cases hc
        | cons d digits =>
          simp only [List.cons.injEq, List.length_cons, List.drop_succ_cons, List.cons_append,
            List.forall_mem_cons, Nat.add_le_add_iff_right, Nat.add_right_cancel_iff]
          have hrest := @ih width digits
          constructor
          · rintro ⟨⟨rfl, hdigits⟩, hdrop⟩
            obtain ⟨hs, hall, hle, hgreedy⟩ := hrest.mp ⟨hdigits, hdrop⟩
            exact ⟨⟨rfl, hs⟩, ⟨hc, hall⟩, hle, hgreedy⟩
          · rintro ⟨⟨rfl, hs⟩, ⟨-, hall⟩, hle, hgreedy⟩
            obtain ⟨hdigits, hdrop⟩ := hrest.mpr ⟨hs, hall, hle, hgreedy⟩
            exact ⟨⟨rfl, hdigits⟩, hdrop⟩

/-! ## The grammar of the formats -/

/-- The digits of a field, before the text `following`. -/
structure IsField (f : Field) (digits following : List Char) : Prop where
  all_digits : ∀ c ∈ digits, c.isDigit = true
  ne_nil : digits ≠ []
  length_le : digits.length ≤ f.range.2.2
  greedy : digits.length = f.range.2.2 ∨ ∀ c ∈ following.head?, c.isDigit = false
  least : f.range.1 ≤ digitsValue digits
  greatest : digitsValue digits ≤ f.range.2.1

/-- What may stand before the digits of a field: a space before a day. -/
def IsPad (f : Field) (pad : List Char) : Prop := pad = [] ∨ f = .day ∧ ∃ c, isSpace c ∧ pad = [c]

/-- A chunk that the piece matches, before the text `following`. -/
def Piece.Matches (chunk following : List Char) : Piece → Prop
  | field f => ∃ pad digits, chunk = pad ++ digits ∧ IsPad f pad ∧ IsField f digits following
  | space => (∀ c ∈ chunk, isSpace c = true) ∧ ∀ c ∈ following.head?, isSpace c = false
  | literal l => ∃ c, chunk = [c] ∧ c.toLower = l.toLower

/-- Chunks that the pieces match one after another, before the text `rest`. -/
def Matches (rest : List Char) : List Piece → List (List Char) → Prop
  | [], [] => True
  | piece :: format, chunk :: chunks =>
    piece.Matches chunk (chunks.flatten ++ rest) ∧ Matches rest format chunks
  | _, _ => False

/-- What a chunk sets. White space counts for nothing in the value. -/
def Piece.set (chunk : List Char) (tm : Tm) : Piece → Tm
  | field f => f.set (digitsValue chunk) tm
  | _ => tm

def setAll : List Piece → List (List Char) → Tm → Tm
  | piece :: format, chunk :: chunks, tm => setAll format chunks (piece.set chunk tm)
  | _, _, tm => tm

/-- No piece of the formats reads it. -/
def IsStop (c : Char) : Prop := c = 'Z' ∨ c = 'z' ∨ c = '+'

def HasStop (s : List Char) : Prop := ∃ c ∈ s, IsStop c

/-- The codes of the digits. -/
theorem isDigit_iff (c : Char) : c.isDigit = true ↔ 48 ≤ c.toNat ∧ c.toNat ≤ 57 := by
  rw [Char.isDigit, Bool.and_eq_true, decide_eq_true_eq, decide_eq_true_eq]
  exact and_congr UInt32.le_iff_toNat_le UInt32.le_iff_toNat_le

/-- Characters before the letters have no case. -/
theorem toLower_of_lt {c : Char} (h : c.toNat < 65) : c.toLower = c := by
  delta Char.toLower
  rw [dif_neg]
  rintro ⟨hupper, -⟩
  have hle : 65 ≤ c.toNat := UInt32.le_iff_toNat_le.mp hupper
  omega

/-- A space is no digit. -/
theorem isDigit_eq_false_of_isSpace {c : Char} (h : isSpace c = true) : c.isDigit = false := by
  rw [← Bool.not_eq_true, isDigit_iff]
  simp only [isSpace, Bool.or_eq_true, decide_eq_true_eq, Bool.and_eq_true] at h
  rcases h with rfl | h
  · decide
  · omega

/-- A digit is no white space. -/
theorem isSpace_eq_false {c : Char} (h : c.isDigit = true) : isSpace c = false := by
  by_contra hspace
  rw [isDigit_eq_false_of_isSpace (by simpa using hspace)] at h
  cases h

/-- A digit stops no scan. -/
theorem not_isStop_of_isDigit {c : Char} (h : c.isDigit = true) : ¬ IsStop c := by
  rintro (rfl | rfl | rfl) <;> revert h <;> decide

/-- A space stops no scan. -/
theorem not_isStop_of_isSpace {c : Char} (h : isSpace c = true) : ¬ IsStop c := by
  rintro (rfl | rfl | rfl) <;> revert h <;> decide

/-! ## One piece -/

/-- A space before digits counts for nothing. -/
theorem digitsValue_append_of_space {c : Char} (h : isSpace c = true) (digits : List Char) :
    digitsValue (c :: digits) = digitsValue digits := by
  have hzero : c.toNat - '0'.toNat = 0 := by
    simp only [isSpace, Bool.or_eq_true, decide_eq_true_eq, Bool.and_eq_true] at h
    rcases h with rfl | h
    · rfl
    · show c.toNat - 48 = 0
      omega
  rw [digitsValue, List.foldl_cons, hzero]
  rfl

/-- The padding of a field counts for nothing. -/
theorem digitsValue_pad {f : Field} {pad : List Char} (h : IsPad f pad) (digits : List Char) :
    digitsValue (pad ++ digits) = digitsValue digits := by
  rcases h with rfl | ⟨-, c, hc, rfl⟩
  · rfl
  · exact digitsValue_append_of_space hc digits

/-- The digits of a field, read with no pad before them. -/
theorem readDigits_eq_some_iff {f : Field} {s following : List Char} {value : ℕ} :
    (let digits := (s.take f.range.2.2).takeWhile Char.isDigit
     if digits ≠ [] ∧ f.range.1 ≤ digitsValue digits ∧ digitsValue digits ≤ f.range.2.1 then
       some (digitsValue digits, s.drop digits.length)
     else none) = some (value, following) ↔
      ∃ digits, s = digits ++ following ∧ IsField f digits following ∧ value = digitsValue digits := by
  dsimp only
  split
  · rename_i hrange
    simp only [Option.some.injEq, Prod.mk.injEq]
    constructor
    · rintro ⟨rfl, hdrop⟩
      obtain ⟨hs, hall, hle, hgreedy⟩ := takeDigits_eq_iff.mp ⟨rfl, hdrop⟩
      exact ⟨_, hs, ⟨hall, hrange.1, hle, hgreedy, hrange.2.1, hrange.2.2⟩, rfl⟩
    · rintro ⟨digits, hs, hfield, rfl⟩
      obtain ⟨htake, hdrop⟩ := takeDigits_eq_iff.mpr
        ⟨hs, hfield.all_digits, hfield.length_le, hfield.greedy⟩
      rw [htake]
      exact ⟨rfl, hdrop⟩
  · rename_i hrange
    simp only [reduceCtorEq, false_iff]
    rintro ⟨digits, hs, hfield, rfl⟩
    obtain ⟨htake, -⟩ := takeDigits_eq_iff.mpr
      ⟨hs, hfield.all_digits, hfield.length_le, hfield.greedy⟩
    rw [htake] at hrange
    exact hrange ⟨hfield.ne_nil, hfield.least, hfield.greatest⟩

/-- `extract` takes a pad and the digits of the field. -/
theorem extract_eq_some_iff {f : Field} {s following : List Char} {value : ℕ} :
    f.extract s = some (value, following) ↔
      ∃ chunk, s = chunk ++ following ∧ (Piece.field f).Matches chunk following ∧
        value = digitsValue chunk := by
  have hextract : f.extract s = some (value, following) ↔ ∃ digits,
      (if f = .day ∧ (s.head?.any isSpace) then s.tail else s) = digits ++ following ∧
        IsField f digits following ∧ value = digitsValue digits := readDigits_eq_some_iff
  rw [hextract]
  constructor
  · rintro ⟨digits, hs, hfield, rfl⟩
    split at hs
    · rename_i hpad
      obtain ⟨hday, hspace⟩ := hpad
      cases s with
      | nil => simp at hspace
      | cons c s =>
        have hc : isSpace c = true := by simpa using hspace
        have hispad : IsPad f [c] := Or.inr ⟨hday, c, hc, rfl⟩
        refine ⟨c :: digits, congrArg (c :: ·) hs, ⟨[c], digits, rfl, hispad, hfield⟩, ?_⟩
        exact (digitsValue_append_of_space hc digits).symm
    · exact ⟨digits, hs, ⟨[], digits, rfl, Or.inl rfl, hfield⟩, rfl⟩
  · rintro ⟨_, rfl, ⟨pad, digits, rfl, hpad, hfield⟩, rfl⟩
    refine ⟨digits, ?_, hfield, digitsValue_pad hpad digits⟩
    rcases hpad with rfl | ⟨hday, c, hc, rfl⟩
    · -- a field starts with a digit, so no pad is taken
      obtain ⟨first, more, rfl⟩ := List.exists_cons_of_ne_nil hfield.ne_nil
      have hfirst := isSpace_eq_false (hfield.all_digits first List.mem_cons_self)
      rw [if_neg (by simp [hfirst])]
      rfl
    · rw [if_pos ⟨hday, by simpa using hc⟩]
      rfl

/-- Space in a format skips all space that is there. -/
theorem space_eq_iff {s following : List Char} : s.dropWhile isSpace = following ↔
    ∃ chunk, s = chunk ++ following ∧ Piece.space.Matches chunk following := by
  constructor
  · rintro rfl
    refine ⟨s.takeWhile isSpace, List.takeWhile_append_dropWhile.symm, ?_, ?_⟩
    · intro c hc
      exact List.mem_takeWhile_imp hc
    · intro c hc
      have hhead := List.head?_dropWhile_not isSpace s
      rw [hc] at hhead
      simpa using hhead
  · rintro ⟨chunk, rfl, hchunk, hfollowing⟩
    rw [List.dropWhile_append_of_pos hchunk]
    cases following with
    | nil => rfl
    | cons c following => exact List.dropWhile_cons_of_neg (by simp [hfollowing c rfl])

/-- No literal of the format is a stop. -/
def Plain (format : List Piece) : Prop :=
  ∀ l, .literal l ∈ format → ∀ c, IsStop c → c.toLower ≠ l.toLower

/-- A plain piece matches no stop. -/
theorem Piece.Matches.not_isStop {piece : Piece} {chunk following : List Char}
    (h : piece.Matches chunk following) (hplain : Plain [piece]) : ∀ c ∈ chunk, ¬ IsStop c := by
  intro c hc
  cases piece with
  | field f =>
    obtain ⟨pad, digits, rfl, hpad, hfield⟩ := h
    rcases List.mem_append.mp hc with hc | hc
    · rcases hpad with rfl | ⟨-, space, hspace, rfl⟩
      · cases hc
      · rw [List.mem_singleton.mp hc]
        exact not_isStop_of_isSpace hspace
    · exact not_isStop_of_isDigit (hfield.all_digits c hc)
  | space => exact not_isStop_of_isSpace (h.1 c hc)
  | literal l =>
    obtain ⟨d, rfl, hd⟩ := h
    rw [List.mem_singleton.mp hc]
    exact fun hstop => hplain l (by simp) d hstop hd

/-- The stop is in what follows. -/
theorem HasStop.of_append {chunk following : List Char} (h : HasStop (chunk ++ following))
    (hchunk : ∀ c ∈ chunk, ¬ IsStop c) : HasStop following := by
  obtain ⟨c, hc, hstop⟩ := h
  rcases List.mem_append.mp hc with hc | hc
  · exact absurd hstop (hchunk c hc)
  · exact ⟨c, hc, hstop⟩

/-- One turn of the loop over the format. -/
theorem get_cons_iff {piece : Piece} {format : List Piece} {s : List Char} {tm tm' : Tm}
    (hplain : Plain [piece]) (hstop : HasStop s) :
    get (piece :: format) s tm = some tm' ↔ ∃ chunk following, s = chunk ++ following ∧
      piece.Matches chunk following ∧ HasStop following ∧
        get format following (piece.set chunk tm) = some tm' := by
  have hleft : ∀ chunk following, s = chunk ++ following → piece.Matches chunk following →
      HasStop following := by
    rintro chunk following rfl hmatches
    exact hstop.of_append (hmatches.not_isStop hplain)
  obtain ⟨c, t, rfl⟩ : ∃ c t, s = c :: t := by
    obtain ⟨c, hc, -⟩ := hstop
    exact List.exists_cons_of_ne_nil (List.ne_nil_of_mem hc)
  cases piece with
  | field f =>
    simp only [get]
    constructor
    · intro h
      cases hextract : f.extract (c :: t) with
      | none => simp [hextract] at h
      | some read =>
        obtain ⟨value, following⟩ := read
        obtain ⟨chunk, hs, hmatches, rfl⟩ := extract_eq_some_iff.mp hextract
        have hrest := hleft chunk following hs hmatches
        refine ⟨chunk, following, hs, hmatches, hrest, ?_⟩
        cases following with
        | nil =>
          obtain ⟨_, hmem, -⟩ := hrest
          cases hmem
        | cons d following =>
          rw [hextract] at h
          exact h
    · rintro ⟨chunk, following, hs, hmatches, hrest, hget⟩
      rw [extract_eq_some_iff.mpr ⟨chunk, hs, hmatches, rfl⟩]
      cases following with
      | nil =>
        obtain ⟨_, hmem, -⟩ := hrest
        cases hmem
      | cons d following => exact hget
  | space =>
    simp only [get]
    constructor
    · intro h
      obtain ⟨chunk, hs, hmatches⟩ := space_eq_iff.mp (rfl : (c :: t).dropWhile isSpace = _)
      exact ⟨chunk, _, hs, hmatches, hleft chunk _ hs hmatches, h⟩
    · rintro ⟨chunk, following, hs, hmatches, -, hget⟩
      rw [space_eq_iff.mpr ⟨chunk, hs, hmatches⟩]
      exact hget
  | literal l =>
    rw [get]
    constructor
    · intro h
      split at h
      · rename_i heq
        have hmatches : (Piece.literal l).Matches [c] t := ⟨c, rfl, heq⟩
        exact ⟨[c], t, rfl, hmatches, hleft [c] t rfl hmatches, h⟩
      · cases h
    · rintro ⟨_, following, hs, ⟨d, rfl, hd⟩, -, hget⟩
      obtain ⟨rfl, rfl⟩ := List.cons.inj hs
      rw [if_pos hd]
      exact hget

/-- The scanner succeeds on the texts that start with chunks that the pieces match, and sets what they
say. -/
theorem get_eq_some_iff {format : List Piece} {s : List Char} {tm tm' : Tm} (hplain : Plain format)
    (hstop : HasStop s) : get format s tm = some tm' ↔ ∃ chunks rest, s = chunks.flatten ++ rest ∧
      Matches rest format chunks ∧ setAll format chunks tm = tm' := by
  induction format generalizing s tm with
  | nil =>
    rw [get, Option.some.injEq]
    constructor
    · rintro rfl
      exact ⟨[], s, rfl, trivial, rfl⟩
    · rintro ⟨chunks, rest, -, hmatches, htm⟩
      cases chunks with
      | nil => exact htm
      | cons chunk chunks => cases hmatches
  | cons piece format ih =>
    have hpiece : Plain [piece] := fun l hl => hplain l (by simpa using Or.inl (List.mem_singleton.mp hl))
    have hformat : Plain format := fun l hl => hplain l (List.mem_cons_of_mem _ hl)
    rw [get_cons_iff hpiece hstop]
    constructor
    · rintro ⟨chunk, following, rfl, hmatches, hrest, hget⟩
      obtain ⟨chunks, rest, rfl, hall, htm⟩ := (ih hformat hrest).mp hget
      exact ⟨chunk :: chunks, rest, by simp, ⟨hmatches, hall⟩, htm⟩
    · rintro ⟨chunks, rest, hs, hall, htm⟩
      cases chunks with
      | nil => cases hall
      | cons chunk chunks =>
        obtain ⟨hmatches, hall⟩ := hall
        rw [List.flatten_cons, List.append_assoc] at hs
        have hrest : HasStop (chunks.flatten ++ rest) := by
          rw [hs] at hstop
          exact hstop.of_append (hmatches.not_isStop hpiece)
        exact ⟨chunk, _, hs, hmatches, hrest, (ih hformat hrest).mpr ⟨chunks, rest, rfl, hall, htm⟩⟩

/-! ## A text is scanned in one way -/

/-- A piece matches in one way only. -/
theorem Piece.Matches.unique {piece : Piece} {chunk chunk' following following' : List Char}
    (h : piece.Matches chunk following) (h' : piece.Matches chunk' following')
    (heq : chunk ++ following = chunk' ++ following') : chunk = chunk' ∧ following = following' := by
  have hfollowing : following = following' → chunk = chunk' ∧ following = following' := by
    rintro rfl
    exact ⟨List.append_cancel_right heq, rfl⟩
  apply hfollowing
  cases piece with
  | field f =>
    have hread := extract_eq_some_iff.mpr ⟨chunk, rfl, h, rfl⟩
    have hread' := extract_eq_some_iff.mpr ⟨chunk', rfl, h', rfl⟩
    rw [heq, hread', Option.some.injEq, Prod.mk.injEq] at hread
    exact hread.2.symm
  | space =>
    have hread := space_eq_iff.mpr ⟨chunk, rfl, h⟩
    have hread' := space_eq_iff.mpr ⟨chunk', rfl, h'⟩
    rw [← hread, heq, hread']
  | literal l =>
    obtain ⟨c, rfl, -⟩ := h
    obtain ⟨c', rfl, -⟩ := h'
    exact (List.cons.inj heq).2

/-- A format matches in one way only. -/
theorem Matches.unique {format : List Piece} {chunks chunks' : List (List Char)} {rest rest' : List Char}
    (h : Matches rest format chunks) (h' : Matches rest' format chunks')
    (heq : chunks.flatten ++ rest = chunks'.flatten ++ rest') : chunks = chunks' ∧ rest = rest' := by
  induction format generalizing chunks chunks' with
  | nil =>
    cases chunks <;> cases chunks' <;> simp_all [Matches]
  | cons piece format ih =>
    cases chunks with
    | nil => cases h
    | cons chunk chunks =>
      cases chunks' with
      | nil => cases h'
      | cons chunk' chunks' =>
        rw [List.flatten_cons, List.flatten_cons, List.append_assoc, List.append_assoc] at heq
        obtain ⟨rfl, hfollowing⟩ := h.1.unique h'.1 heq
        obtain ⟨rfl, rfl⟩ := ih h.2 h'.2 hfollowing
        exact ⟨rfl, rfl⟩

end GetTime

end MacdTradingBot
