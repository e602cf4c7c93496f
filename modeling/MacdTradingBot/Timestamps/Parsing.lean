import MacdTradingBot.Lib.Calendar
import MacdTradingBot.Timestamps.Digits

/-!
# What a timestamp is taken for

`parseRFC3339UTCTimestamp`, told by the grammar of its scanner: a string is accepted exactly when it can be
scanned (`Scan.Reads`), in one way, and the result comes of the seconds that the calendar gives to the
fields of the scan.
-/

namespace MacdTradingBot

open GetTime

/-! ## The calendar of the C library -/

/-- Seconds since the epoch. A day past the end of its month is one of the next month. -/
def epochSeconds (year month day hour minute second : ℕ) : ℤ :=
  ((((Calendar.dayNumber year month day : ℤ) - Calendar.dayNumber 1970 1 1) * 24 + hour) * 60 + minute) * 60
    + second

/-- The day on which the epoch begins. -/
theorem dayNumber_epoch : Calendar.dayNumber 1970 1 1 = 719528 := by
  simp [Calendar.dayNumber, Calendar.daysBeforeYear_eq, Calendar.daysBeforeMonth]

/-- The days of `timegm` before a year are those of the calendar since the epoch. -/
theorem daysBeforeYear_eq_calendar (year : ℕ) :
    daysBeforeYear year = (Calendar.daysBeforeYear year : ℤ) - Calendar.dayNumber 1970 1 1 := by
  rw [daysBeforeYear, dayNumber_epoch, Calendar.daysBeforeYear_eq]
  omega

/-- Its days before a month are those of the calendar. -/
theorem daysBeforeMonth_eq_calendar (year : ℕ) {month : ℕ} (h1 : 1 ≤ month) (h12 : month ≤ 12) :
    daysBeforeMonth year (month - 1) = Calendar.daysBeforeMonth year month := by
  have hleap : (isLeap year && 2 ≤ month - 1) = true ↔ Calendar.IsLeap year ∧ 3 ≤ month := by
    simp only [isLeap, Calendar.IsLeap, Bool.and_eq_true, Bool.or_eq_true, decide_eq_true_eq]
    omega
  rw [daysBeforeMonth, Calendar.daysBeforeMonth_eq year h1 h12]
  simp only [hleap]

/-- `timegm` counts the seconds since the epoch. -/
theorem timegm_eq {year month day : ℕ} (h1 : 1 ≤ month) (h12 : month ≤ 12) (hday : 1 ≤ day)
    (hour minute second : ℕ) :
    timegm { year := (year : ℤ) - 1900, mon := month - 1, mday := day, hour := hour, min := minute,
             sec := second }
      = epochSeconds year month day hour minute second := by
  have hnumber : Calendar.dayNumber year month day
      = Calendar.daysBeforeYear year + Calendar.daysBeforeMonth year month + (day - 1) := rfl
  rw [timegm, epochSeconds]
  dsimp only
  rw [sub_add_cancel, daysBeforeYear_eq_calendar, daysBeforeMonth_eq_calendar year h1 h12]
  omega

/-! ## Scans -/

/-- A text taken apart by the scanner, less the hyphens and colons. White space may come before the year,
and the chunk of the day may start with one. -/
structure Scan where
  lead : List Char
  year : List Char
  month : List Char
  day : List Char
  separator : List Char
  hour : List Char
  minute : List Char
  second : List Char
  rest : List Char

namespace Scan

def chunks (p : Scan) : List (List Char) :=
  [p.lead, p.year, ['-'], p.month, ['-'], p.day, p.separator, p.hour, [':'], p.minute, [':'], p.second]

/-- What `timegm` gets. -/
def tm (p : Scan) : Tm :=
  { year := (digitsValue p.year : ℤ) - 1900
    mon := digitsValue p.month - 1
    mday := digitsValue p.day
    hour := digitsValue p.hour
    min := digitsValue p.minute
    sec := digitsValue p.second }

def seconds (p : Scan) : ℤ :=
  epochSeconds (digitsValue p.year) (digitsValue p.month) (digitsValue p.day) (digitsValue p.hour)
    (digitsValue p.minute) (digitsValue p.second)

end Scan

/-- What the end of a text makes the parser expect between the date and the time. -/
def separatorOf (s : List Char) : Option Piece :=
  if s.getLast? = some 'Z' ∨ s.getLast? = some 'z' then some (.literal 'T')
  else if "+00:00".toList.isSuffixOf s then some .space
  else none

/-- The scan is one of this text. -/
structure Scan.Reads (p : Scan) (s : List Char) : Prop where
  text : s = p.chunks.flatten ++ p.rest
  pieces : ∃ separator, separatorOf s = some separator ∧
    Matches p.rest (.space :: dateTimeFormat separator) p.chunks

/-- The parser chooses the format by the end of the text. -/
theorem parse_eq (s : String) : parseRFC3339UTCTimestamp s = match separatorOf s.toList with
    | some separator => parseHelper s.toList (dateTimeFormat separator)
    | none => .error ⟨"timestamp must be UTC (end with 'Z' or '+00:00')"⟩ := by
  unfold parseRFC3339UTCTimestamp separatorOf
  dsimp only
  split
  · rfl
  · split <;> rfl

/-- A text with one of the endings has a character at which a scan stops. -/
theorem hasStop_of_separatorOf {s : List Char} {separator : Piece} (h : separatorOf s = some separator) :
    HasStop s := by
  unfold separatorOf at h
  split at h
  · rename_i hlast
    rcases hlast with hlast | hlast
    · exact ⟨'Z', List.mem_of_getLast? hlast, Or.inl rfl⟩
    · exact ⟨'z', List.mem_of_getLast? hlast, Or.inr (Or.inl rfl)⟩
  · split at h
    · rename_i hsuffix
      rw [List.isSuffixOf_iff_suffix] at hsuffix
      exact ⟨'+', hsuffix.subset (by decide), Or.inr (Or.inr rfl)⟩
    · cases h

/-- The separator is a `T` or space. -/
theorem separatorOf_cases {s : List Char} {separator : Piece} (h : separatorOf s = some separator) :
    separator = .literal 'T' ∨ separator = .space := by
  unfold separatorOf at h
  split at h
  · exact Or.inl (Option.some.inj h).symm
  · split at h
    · exact Or.inr (Option.some.inj h).symm
    · cases h

/-- The formats match no stop. -/
theorem plain_dateTimeFormat {s : List Char} {separator : Piece} (h : separatorOf s = some separator) :
    Plain (.space :: dateTimeFormat separator) := by
  intro l hl c hc
  have hliteral : l = '-' ∨ l = ':' ∨ l = 'T' := by
    rcases separatorOf_cases h with rfl | rfl <;> simp [dateTimeFormat] at hl <;> tauto
  rcases hc with rfl | rfl | rfl <;> rcases hliteral with rfl | rfl | rfl <;> decide

/-- Literals without case match themselves alone. -/
theorem toLower_eq_iff {l : Char} (hl : l.toNat < 65) (c : Char) : c.toLower = l.toLower ↔ c = l := by
  have hsame := toLower_of_lt hl
  constructor
  · intro h
    rw [hsame] at h
    delta Char.toLower at h
    split at h
    · rename_i hupper
      have hlow : 65 ≤ c.toNat := UInt32.le_iff_toNat_le.mp hupper.1
      have hhigh : c.toNat ≤ 90 := UInt32.le_iff_toNat_le.mp hupper.2
      have hnat : (c.val + ('a'.val - 'A'.val)).toNat = l.toNat := congrArg Char.toNat h
      have hshift : (c.val + ('a'.val - 'A'.val)).toNat = c.toNat + 32 := by
        rw [UInt32.toNat_add]
        show (c.toNat + 32) % 2 ^ 32 = c.toNat + 32
        omega
      omega
    · exact h
  · rintro rfl
    rfl

/-! ## The parser accepts what can be scanned -/

/-- The first piece matches the first chunk. -/
theorem matches_cons_iff {rest : List Char} {piece : Piece} {format : List Piece}
    {chunks : List (List Char)} : Matches rest (piece :: format) chunks ↔ ∃ chunk more,
      chunks = chunk :: more ∧ piece.Matches chunk (more.flatten ++ rest) ∧ Matches rest format more := by
  cases chunks with
  | nil => simp [Matches]
  | cons chunk more => simp [Matches]

/-- The empty format matches nothing. -/
theorem matches_nil_iff {rest : List Char} {chunks : List (List Char)} :
    Matches rest [] chunks ↔ chunks = [] := by
  cases chunks <;> simp [Matches]

/-- A literal that is no letter is matched by itself alone. -/
theorem matches_literal_cons_iff {rest : List Char} {l : Char} (hl : l.toNat < 65) {format : List Piece}
    {chunks : List (List Char)} : Matches rest (.literal l :: format) chunks ↔
      ∃ more, chunks = [l] :: more ∧ Matches rest format more := by
  rw [matches_cons_iff]
  constructor
  · rintro ⟨_, more, hchunks, ⟨c, rfl, hc⟩, hmore⟩
    rw [toLower_eq_iff hl] at hc
    exact ⟨more, by rw [hchunks, hc], hmore⟩
  · rintro ⟨more, hchunks, hmore⟩
    exact ⟨[l], more, hchunks, ⟨l, rfl, rfl⟩, hmore⟩

/-- The chunks of a date-time format are those of a scan. -/
theorem exists_scan_of_matches {separator : Piece} {rest : List Char} {chunks : List (List Char)}
    (h : Matches rest (.space :: dateTimeFormat separator) chunks) :
    ∃ p : Scan, chunks = p.chunks ∧ p.rest = rest := by
  have hdash : '-'.toNat < 65 := by decide
  have hcolon : ':'.toNat < 65 := by decide
  obtain ⟨lead, _, rfl, -, hyear⟩ := matches_cons_iff.mp h
  obtain ⟨year, _, rfl, -, hdash1⟩ := matches_cons_iff.mp hyear
  obtain ⟨_, rfl, hmonth⟩ := (matches_literal_cons_iff hdash).mp hdash1
  obtain ⟨month, _, rfl, -, hdash2⟩ := matches_cons_iff.mp hmonth
  obtain ⟨_, rfl, hday⟩ := (matches_literal_cons_iff hdash).mp hdash2
  obtain ⟨day, _, rfl, -, hgap⟩ := matches_cons_iff.mp hday
  obtain ⟨gap, _, rfl, -, hhour⟩ := matches_cons_iff.mp hgap
  obtain ⟨hour, _, rfl, -, hcolon1⟩ := matches_cons_iff.mp hhour
  obtain ⟨_, rfl, hminute⟩ := (matches_literal_cons_iff hcolon).mp hcolon1
  obtain ⟨minute, _, rfl, -, hcolon2⟩ := matches_cons_iff.mp hminute
  obtain ⟨_, rfl, hsecond⟩ := (matches_literal_cons_iff hcolon).mp hcolon2
  obtain ⟨second, _, rfl, -, hend⟩ := matches_cons_iff.mp hsecond
  rw [matches_nil_iff.mp hend]
  exact ⟨⟨lead, year, month, day, gap, hour, minute, second, rest⟩, rfl, rfl⟩

/-- The fields are set to the values of their chunks. -/
theorem setAll_chunks (p : Scan) {separator : Piece} (h : separator = .literal 'T' ∨ separator = .space) :
    setAll (.space :: dateTimeFormat separator) p.chunks {} = p.tm := by
  rcases h with rfl | rfl <;> rfl

/-- White space before the timestamp is read as a piece of its own. -/
theorem getTime_eq {s : List Char} (h : HasStop s) (format : List Piece) :
    getTime format s = get (.space :: format) s {} := by
  obtain ⟨c, hc, -⟩ := h
  obtain ⟨first, more, rfl⟩ := List.exists_cons_of_ne_nil (List.ne_nil_of_mem hc)
  simp only [getTime, GetTime.get]

/-- The text is scanned exactly when it has a scan. -/
theorem getTime_eq_some_iff {s : List Char} {separator : Piece} (h : separatorOf s = some separator)
    {tm : Tm} : getTime (dateTimeFormat separator) s = some tm ↔ ∃ p : Scan, p.Reads s ∧ p.tm = tm := by
  rw [getTime_eq (hasStop_of_separatorOf h),
    get_eq_some_iff (plain_dateTimeFormat h) (hasStop_of_separatorOf h)]
  constructor
  · rintro ⟨chunks, rest, rfl, hmatches, htm⟩
    obtain ⟨p, rfl, rfl⟩ := exists_scan_of_matches hmatches
    rw [setAll_chunks p (separatorOf_cases h)] at htm
    exact ⟨p, ⟨rfl, separator, h, hmatches⟩, htm⟩
  · rintro ⟨p, ⟨htext, separator', hseparator, hmatches⟩, htm⟩
    rw [h, Option.some.injEq] at hseparator
    subst hseparator
    exact ⟨p.chunks, p.rest, htext, hmatches, (setAll_chunks p (separatorOf_cases h)).trans htm⟩

namespace Scan

/-- A text has one scan. -/
theorem Reads.unique {p q : Scan} {s : List Char} (hp : p.Reads s) (hq : q.Reads s) : p = q := by
  obtain ⟨htext, separator, hseparator, hmatches⟩ := hp
  obtain ⟨htext', separator', hseparator', hmatches'⟩ := hq
  rw [hseparator, Option.some.injEq] at hseparator'
  subst hseparator'
  obtain ⟨hchunks, hrest⟩ := hmatches.unique hmatches' (htext.symm.trans htext')
  cases p
  cases q
  simp_all [chunks]

/-- The fields of a scan are in their ranges. -/
theorem Reads.ranges {p : Scan} {s : List Char} (h : p.Reads s) :
    digitsValue p.year ≤ 9999 ∧ (1 ≤ digitsValue p.month ∧ digitsValue p.month ≤ 12) ∧
      (1 ≤ digitsValue p.day ∧ digitsValue p.day ≤ 31) ∧ digitsValue p.hour ≤ 23 ∧
        digitsValue p.minute ≤ 59 ∧ digitsValue p.second ≤ 60 := by
  have hfield : ∀ {f : Field} {chunk following : List Char},
      (Piece.field f).Matches chunk following →
        f.range.1 ≤ digitsValue chunk ∧ digitsValue chunk ≤ f.range.2.1 := by
    rintro f _ following ⟨pad, digits, rfl, hpad, hdigits⟩
    rw [digitsValue_pad hpad]
    exact ⟨hdigits.least, hdigits.greatest⟩
  obtain ⟨-, separator, -, -, hyear, -, hmonth, -, hday, -, hhour, -, hminute, -, hsecond, -⟩ := h
  exact ⟨(hfield hyear).2, hfield hmonth, hfield hday, (hfield hhour).2, (hfield hminute).2,
    (hfield hsecond).2⟩

/-- A scan gives the seconds of its date-time. -/
theorem Reads.timegm_tm {p : Scan} {s : List Char} (h : p.Reads s) : timegm p.tm = p.seconds := by
  obtain ⟨-, ⟨h1, h12⟩, ⟨hday, -⟩, -⟩ := h.ranges
  exact timegm_eq h1 h12 hday _ _ _

/-- What the parser returns for a scanned string. -/
theorem Reads.parse_eq {p : Scan} {s : String} (h : p.Reads s.toList) : parseRFC3339UTCTimestamp s
    = .ok (durationCast .nanoseconds .minutes (fromTimeT p.seconds)) := by
  obtain ⟨separator, hseparator, -⟩ := h.pieces
  have hread := (getTime_eq_some_iff hseparator).mpr ⟨p, h, rfl⟩
  rw [MacdTradingBot.parse_eq, hseparator]
  show parseHelper s.toList (dateTimeFormat separator) = _
  rw [parseHelper, hread]
  show Except.ok (durationCast _ _ (fromTimeT (timegm p.tm))) = _
  rw [h.timegm_tm]

end Scan

/-- The parser accepts the strings that can be scanned, and no others. -/
theorem parse_ok_iff (s : String) :
    (∃ minute, parseRFC3339UTCTimestamp s = .ok minute) ↔ ∃ p : Scan, p.Reads s.toList := by
  constructor
  · rintro ⟨minute, h⟩
    rw [parse_eq] at h
    cases hseparator : separatorOf s.toList with
    | none => simp [hseparator] at h
    | some separator =>
      cases hread : getTime (dateTimeFormat separator) s.toList with
      | none => simp [hseparator, parseHelper, hread] at h
      | some tm =>
        obtain ⟨p, hp, -⟩ := (getTime_eq_some_iff hseparator).mp hread
        exact ⟨p, hp⟩
  · rintro ⟨p, hp⟩
    exact ⟨_, hp.parse_eq⟩

/-- What is not scanned is refused. -/
theorem parse_error_iff (s : String) :
    (∃ e, parseRFC3339UTCTimestamp s = .error e) ↔ ∀ p : Scan, ¬ p.Reads s.toList := by
  rw [← not_exists, ← parse_ok_iff]
  cases parseRFC3339UTCTimestamp s <;> simp

/-! ## Seconds and minutes -/

/-- The ticks of the clock hold a time that is not too far from the epoch. -/
theorem fromTimeT_eq {t : ℤ} (hlow : -9223372036 ≤ t) (hhigh : t ≤ 9223372036) :
    fromTimeT t = t * 1000000000 := by
  rw [fromTimeT]
  exact Int.bmod_eq_of_le (by simp only [ChronoDuration.nanos]; omega)
    (by simp only [ChronoDuration.nanos]; omega)

/-- In the range of the clock the minutes are the seconds divided by 60. -/
theorem minutes_fromTimeT {t : ℤ} (hlow : -9223372036 ≤ t) (hhigh : t ≤ 9223372036) :
    durationCast .nanoseconds .minutes (fromTimeT t) = t.tdiv 60 := by
  rw [fromTimeT_eq hlow hhigh, durationCast]
  simp only [ChronoDuration.nanos, mul_one]
  exact Int.mul_tdiv_mul_of_pos_left t 60 (by decide)

/-- A later time wraps around, and at least `2 ^ 64` nanoseconds are lost. -/
theorem minutes_fromTimeT_ne {t : ℤ} (h : 9223372036 < t) :
    durationCast .nanoseconds .minutes (fromTimeT t) ≠ t / 60 := by
  have hwrap : fromTimeT t ≤ t * 1000000000 - 2 ^ 64 := by
    obtain ⟨rounds, hrounds⟩ : ∃ rounds, 2 ^ 64 * rounds + fromTimeT t = t * 1000000000 :=
      ⟨_, Int.bdiv_add_bmod (t * ChronoDuration.seconds.nanos) (2 ^ 64)⟩
    have hlt : fromTimeT t < 2 ^ 63 := Int.bmod_lt (by decide)
    omega
  have hcast : durationCast .nanoseconds .minutes (fromTimeT t) ≤ max 0 (fromTimeT t / 60000000000) := by
    rw [durationCast]
    simp only [ChronoDuration.nanos, mul_one]
    rcases le_or_gt 0 (fromTimeT t) with hnonneg | hneg
    · rw [Int.tdiv_eq_ediv_of_nonneg hnonneg]
      exact le_max_right _ _
    · have hopposite := Int.tdiv_nonneg (neg_nonneg.mpr hneg.le) (show (0 : ℤ) ≤ 60 * 1000000000 by decide)
      rw [Int.neg_tdiv] at hopposite
      exact le_max_of_le_left (neg_nonneg.mp hopposite)
  omega

end MacdTradingBot
