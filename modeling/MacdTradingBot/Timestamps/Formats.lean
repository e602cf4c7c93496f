import MacdTradingBot.Timestamps.Parsing

/-!
# The two timestamp formats

The documented formats as a grammar of date-times (`IsSpelled`), and what `parseRFC3339UTCTimestamp` takes
instead: it tests the end of the text and scans its front, but not that the two meet, and the fields of a
scan are looser than those of the formats. `Scan.InFormat` says what is not looser, and
`parsesFormats_iff` that nothing but it and the range of the clock is missing.
-/

namespace MacdTradingBot

open GetTime

/-! ## Date-times -/

/-- A valid date-time of the Gregorian calendar, from 1970 on. -/
structure DateTime where
  year : ℕ
  month : ℕ
  day : ℕ
  hour : ℕ
  minute : ℕ
  second : ℕ
  year_mem : 1970 ≤ year ∧ year ≤ 9999
  month_mem : 1 ≤ month ∧ month ≤ 12
  day_mem : 1 ≤ day ∧ day ≤ Calendar.daysInMonth year month
  hour_lt : hour < 24
  minute_lt : minute < 60
  second_lt : second < 60

def DateTime.seconds (d : DateTime) : ℤ :=
  epochSeconds d.year d.month d.day d.hour d.minute d.second

/-- `YYYY-MM-DDTHH:MM:SS`, with a separator for the `T`. -/
def DateTime.spell (d : DateTime) (separator : Char) : List Char :=
  fourDigits d.year ++ '-' :: twoDigits d.month ++ '-' :: twoDigits d.day ++ separator :: twoDigits d.hour
    ++ ':' :: twoDigits d.minute ++ ':' :: twoDigits d.second

/-- Nothing, or a point and digits. -/
def IsFraction (fraction : List Char) : Prop :=
  fraction = [] ∨ ∃ digits, digits ≠ [] ∧ (∀ c ∈ digits, c.isDigit = true) ∧ fraction = '.' :: digits

/-- The suffixes, with the separator that each goes with. -/
def IsEnding (separator : Char) (suffix : List Char) : Prop :=
  separator = 'T' ∧ (suffix = ['Z'] ∨ suffix = ['z']) ∨ separator = ' ' ∧ suffix = "+00:00".toList

/-- The string is the date-time in one of the two formats. -/
def IsSpelled (s : String) (d : DateTime) : Prop :=
  ∃ separator fraction suffix, IsEnding separator suffix ∧ IsFraction fraction ∧
    s.toList = d.spell separator ++ fraction ++ suffix

/-- What the documentation of the parser promises for a string: the whole minutes of a date-time, or an
exception. -/
def ParsesFormats (s : String) : Prop :=
  (∀ d, IsSpelled s d → parseRFC3339UTCTimestamp s = .ok (d.seconds / 60)) ∧
    ((∀ d, ¬ IsSpelled s d) → ∃ e, parseRFC3339UTCTimestamp s = .error e)

/-- The time is not before the epoch. -/
theorem DateTime.seconds_nonneg (d : DateTime) : 0 ≤ d.seconds := by
  have hyears : Calendar.daysBeforeYear 1970 ≤ Calendar.daysBeforeYear d.year :=
    Calendar.daysBeforeYear_mono d.year_mem.1
  have hepoch : Calendar.dayNumber 1970 1 1 = Calendar.daysBeforeYear 1970 := by
    simp [Calendar.dayNumber, Calendar.daysBeforeMonth]
  have hday : Calendar.dayNumber 1970 1 1 ≤ Calendar.dayNumber d.year d.month d.day := by
    rw [hepoch, Calendar.dayNumber]
    omega
  rw [seconds, epochSeconds]
  omega

/-! ## Scans in the formats -/

namespace Scan

/-- What the formats ask of a scan and the scanner does not: nothing before the year, fields of full width,
a day of its month, a time from the epoch on, and an end that is a suffix, with a fraction before it at
most. -/
structure InFormat (p : Scan) : Prop where
  lead : p.lead = []
  year : p.year.length = 4 ∧ 1970 ≤ digitsValue p.year
  month : p.month.length = 2
  day : p.day.length = 2 ∧ ∀ c ∈ p.day, c.isDigit = true
  day_le : digitsValue p.day ≤ Calendar.daysInMonth (digitsValue p.year) (digitsValue p.month)
  hour : p.hour.length = 2
  minute : p.minute.length = 2
  second : p.second.length = 2 ∧ digitsValue p.second < 60
  ending : ∃ separator fraction suffix, IsEnding separator suffix ∧ IsFraction fraction ∧
    p.separator = [separator] ∧ p.rest = fraction ++ suffix

end Scan

namespace DateTime

/-- The scan of a date-time in a format. -/
def scan (d : DateTime) (separator : Char) (rest : List Char) : Scan where
  lead := []
  year := fourDigits d.year
  month := twoDigits d.month
  day := twoDigits d.day
  separator := [separator]
  hour := twoDigits d.hour
  minute := twoDigits d.minute
  second := twoDigits d.second
  rest := rest

variable (d : DateTime) {separator : Char} {rest : List Char}

/-- The fields are in the ranges of the scanner. -/
theorem ranges : d.year ≤ 9999 ∧ (1 ≤ d.month ∧ d.month ≤ 12) ∧ (1 ≤ d.day ∧ d.day ≤ 31) ∧ d.hour ≤ 23 ∧
    d.minute ≤ 59 ∧ d.second ≤ 59 :=
  ⟨d.year_mem.2, d.month_mem, ⟨d.day_mem.1, d.day_mem.2.trans (Calendar.daysInMonth_le _ _)⟩,
    Nat.le_of_lt_succ d.hour_lt, Nat.le_of_lt_succ d.minute_lt, Nat.le_of_lt_succ d.second_lt⟩

/-- The fields have the widths that they are written in. -/
theorem lt_of_width : d.year < 10000 ∧ d.month < 100 ∧ d.day < 100 ∧ d.hour < 100 ∧ d.minute < 100 ∧
    d.second < 100 := by
  have hranges := d.ranges
  omega

theorem digitsValue_year : digitsValue (d.scan separator rest).year = d.year :=
  digitsValue_fourDigits d.lt_of_width.1

theorem digitsValue_month : digitsValue (d.scan separator rest).month = d.month :=
  digitsValue_twoDigits d.lt_of_width.2.1

theorem digitsValue_day : digitsValue (d.scan separator rest).day = d.day :=
  digitsValue_twoDigits d.lt_of_width.2.2.1

theorem digitsValue_second : digitsValue (d.scan separator rest).second = d.second :=
  digitsValue_twoDigits d.lt_of_width.2.2.2.2.2

/-- A spelled date-time is scanned in the format. -/
theorem inFormat_scan {fraction suffix : List Char} (hending : IsEnding separator suffix)
    (hfraction : IsFraction fraction) : (d.scan separator (fraction ++ suffix)).InFormat where
  lead := rfl
  year := by
    rw [d.digitsValue_year]
    exact ⟨rfl, d.year_mem.1⟩
  month := rfl
  day := ⟨rfl, isDigit_of_mem_twoDigits d.lt_of_width.2.2.1⟩
  day_le := by
    rw [d.digitsValue_year, d.digitsValue_month, d.digitsValue_day]
    exact d.day_mem.2
  hour := rfl
  minute := rfl
  second := by
    rw [d.digitsValue_second]
    exact ⟨rfl, d.second_lt⟩
  ending := ⟨separator, fraction, suffix, hending, hfraction, rfl, rfl⟩

/-- The scan has the seconds of the date-time. -/
theorem seconds_scan : (d.scan separator rest).seconds = d.seconds := by
  obtain ⟨-, -, -, hhour, hminute, -⟩ := d.lt_of_width
  rw [Scan.seconds, d.digitsValue_year, d.digitsValue_month, d.digitsValue_day, d.digitsValue_second]
  simp only [scan, digitsValue_twoDigits hhour, digitsValue_twoDigits hminute, seconds]

end DateTime

/-- A field matches as many digits as it may have, within its range. -/
theorem matches_field {f : Field} {digits : List Char} {value : ℕ} (following : List Char)
    (hdigits : ∀ c ∈ digits, c.isDigit = true) (hlength : digits.length = f.range.2.2)
    (hvalue : digitsValue digits = value) (hrange : f.range.1 ≤ value ∧ value ≤ f.range.2.1) :
    (Piece.field f).Matches digits following := by
  have hpos : 0 < f.range.2.2 := by cases f <;> decide
  refine ⟨[], digits, rfl, Or.inl rfl, hdigits, ?_, hlength.le, Or.inl hlength, ?_, ?_⟩
  · rintro rfl
    exact hpos.ne hlength
  · rw [hvalue]
    exact hrange.1
  · rw [hvalue]
    exact hrange.2

/-- The year matches its four digits. -/
theorem matches_fourDigits {f : Field} {n : ℕ} (following : List Char) (hwidth : f.range.2.2 = 4)
    (hrange : f.range.1 ≤ n ∧ n ≤ f.range.2.1) (hn : n < 10000) :
    (Piece.field f).Matches (fourDigits n) following := by
  refine matches_field following ?_ hwidth.symm (digitsValue_fourDigits hn) hrange
  rw [fourDigits, List.forall_mem_append]
  exact ⟨isDigit_of_mem_twoDigits (by omega), isDigit_of_mem_twoDigits (by omega)⟩

/-- The other fields match their two digits. -/
theorem matches_twoDigits {f : Field} {n : ℕ} (following : List Char) (hwidth : f.range.2.2 = 2)
    (hrange : f.range.1 ≤ n ∧ n ≤ f.range.2.1) (hn : n < 100) :
    (Piece.field f).Matches (twoDigits n) following :=
  matches_field following (isDigit_of_mem_twoDigits hn) hwidth.symm (digitsValue_twoDigits hn) hrange

/-- The end of a format tells its separator. -/
theorem separatorOf_ending {separator : Char} {suffix : List Char} (h : IsEnding separator suffix)
    (text : List Char) : ∃ piece, separatorOf (text ++ suffix) = some piece ∧
      ∀ following : List Char, (∀ c ∈ following.head?, c.isDigit = true) →
        piece.Matches [separator] following := by
  rcases h with ⟨rfl, rfl | rfl⟩ | ⟨rfl, rfl⟩
  · refine ⟨.literal 'T', ?_, fun _ _ => ⟨'T', rfl, rfl⟩⟩
    rw [separatorOf, if_pos (Or.inl (List.getLast?_concat))]
  · refine ⟨.literal 'T', ?_, fun _ _ => ⟨'T', rfl, rfl⟩⟩
    rw [separatorOf, if_pos (Or.inr (List.getLast?_concat))]
  · refine ⟨.space, ?_, fun following hfollowing => ⟨List.forall_mem_singleton.mpr rfl, fun c hc => ?_⟩⟩
    · have hlast : (text ++ "+00:00".toList).getLast? = some '0' := by
        rw [List.getLast?_append]
        rfl
      rw [separatorOf, hlast, if_neg (by decide), if_pos]
      exact List.isSuffixOf_iff_suffix.mpr (List.suffix_append _ _)
    · exact isSpace_eq_false (hfollowing c hc)

/-- Two digits begin with a digit. -/
theorem isDigit_head_twoDigits {n : ℕ} (hn : n < 100) (more : List Char) :
    ∀ c ∈ (twoDigits n ++ more).head?, c.isDigit = true := by
  rintro c hc
  rw [twoDigits, List.cons_append, List.head?_cons, Option.mem_some_iff] at hc
  rw [← hc]
  exact isDigit_digit (by omega)

/-- The format matches a spelled date-time, piece by piece. -/
theorem DateTime.matches_scan (d : DateTime) {separator : Char} {piece : Piece}
    (hpiece : ∀ following : List Char, (∀ c ∈ following.head?, c.isDigit = true) →
      piece.Matches [separator] following) (rest : List Char) :
    Matches rest (.space :: dateTimeFormat piece) (d.scan separator rest).chunks := by
  have hranges := d.ranges
  have hlead : ∀ c ∈ ([] : List Char), isSpace c = true := by simp
  refine ⟨⟨hlead, fun c hc => ?_⟩, ?_, ⟨'-', rfl, rfl⟩, ?_, ⟨'-', rfl, rfl⟩, ?_, ?_, ?_,
    ⟨':', rfl, rfl⟩, ?_, ⟨':', rfl, rfl⟩, ?_, trivial⟩
  · exact isSpace_eq_false (isDigit_head_twoDigits (by omega) _ c hc)
  · exact matches_fourDigits _ rfl (by simp only [Field.range]; omega) (by omega)
  · exact matches_twoDigits _ rfl (by simp only [Field.range]; omega) (by omega)
  · exact matches_twoDigits _ rfl (by simp only [Field.range]; omega) (by omega)
  · exact hpiece _ (isDigit_head_twoDigits (by omega) _)
  · exact matches_twoDigits _ rfl (by simp only [Field.range]; omega) (by omega)
  · exact matches_twoDigits _ rfl (by simp only [Field.range]; omega) (by omega)
  · exact matches_twoDigits _ rfl (by simp only [Field.range]; omega) (by omega)

/-- What a format spells is scanned, field by field. -/
theorem IsSpelled.reads {s : String} {d : DateTime} (h : IsSpelled s d) :
    ∃ p : Scan, p.Reads s.toList ∧ p.InFormat ∧ p.seconds = d.seconds := by
  obtain ⟨separator, fraction, suffix, hending, hfraction, htext⟩ := h
  refine ⟨d.scan separator (fraction ++ suffix), ⟨?_, ?_⟩, ?_, ?_⟩
  · rw [htext]
    simp [DateTime.scan, Scan.chunks, DateTime.spell]
  · obtain ⟨piece, hpiece, hmatches⟩ := separatorOf_ending hending (d.spell separator ++ fraction)
    rw [← htext] at hpiece
    exact ⟨piece, hpiece, d.matches_scan hmatches _⟩
  · exact d.inFormat_scan hending hfraction
  · exact d.seconds_scan

/-! ## From a scan to a date-time -/

/-- Only the field of the day may be padded. -/
theorem all_digits_of_matches {f : Field} {chunk following : List Char}
    (h : (Piece.field f).Matches chunk following) (hf : f ≠ .day) : ∀ c ∈ chunk, c.isDigit = true := by
  obtain ⟨pad, digits, rfl, rfl | ⟨hday, -⟩, hfield⟩ := h
  · exact hfield.all_digits
  · exact absurd hday hf

/-- A scan in a format is the one of a date-time. -/
theorem Scan.Reads.isSpelled {p : Scan} {s : String} (h : p.Reads s.toList) (hformat : p.InFormat) :
    ∃ d, IsSpelled s d ∧ d.seconds = p.seconds := by
  obtain ⟨hyear, hmonth, hday, hhour, hminute, hsecond⟩ := h.ranges
  refine ⟨⟨digitsValue p.year, digitsValue p.month, digitsValue p.day, digitsValue p.hour,
    digitsValue p.minute, digitsValue p.second, ⟨hformat.year.2, hyear⟩, hmonth,
    ⟨hday.1, hformat.day_le⟩, by omega, by omega, hformat.second.2⟩, ?_, rfl⟩
  obtain ⟨separator, fraction, suffix, hending, hfraction, hseparator, hrest⟩ := hformat.ending
  refine ⟨separator, fraction, suffix, hending, hfraction, ?_⟩
  obtain ⟨htext, piece, -, -, hyears, -, hmonths, -, -, -, hhours, -, hminutes, -, hseconds, -⟩ := h
  rw [htext, hrest]
  simp only [Scan.chunks, DateTime.spell, hformat.lead, hseparator,
    fourDigits_digitsValue hformat.year.1 (all_digits_of_matches hyears (by decide)),
    twoDigits_digitsValue hformat.month (all_digits_of_matches hmonths (by decide)),
    twoDigits_digitsValue hformat.day.1 hformat.day.2,
    twoDigits_digitsValue hformat.hour (all_digits_of_matches hhours (by decide)),
    twoDigits_digitsValue hformat.minute (all_digits_of_matches hminutes (by decide)),
    twoDigits_digitsValue hformat.second.1 (all_digits_of_matches hseconds (by decide))]
  simp

/-- The parser takes the date-times of the two formats and nothing else for the strings whose scan is in
a format and not past the range of the clock. -/
theorem parsesFormats_iff (s : String) :
    ParsesFormats s ↔ ∀ p : Scan, p.Reads s.toList → p.InFormat ∧ p.seconds ≤ 9223372036 := by
  constructor
  · rintro ⟨hspelled, hother⟩ p hp
    obtain ⟨minute, hok⟩ := (parse_ok_iff s).mpr ⟨p, hp⟩
    obtain ⟨d, hd⟩ : ∃ d, IsSpelled s d := by
      by_contra hnone
      obtain ⟨e, herror⟩ := hother (not_exists.mp hnone)
      rw [hok] at herror
      cases herror
    obtain ⟨q, hq, hformat, hseconds⟩ := hd.reads
    obtain rfl := hp.unique hq
    refine ⟨hformat, le_of_not_gt fun hlate => minutes_fromTimeT_ne hlate ?_⟩
    rw [hseconds]
    have hminutes := hspelled d hd
    rw [hp.parse_eq, hseconds, Except.ok.injEq] at hminutes
    exact hminutes
  · intro h
    constructor
    · intro d hd
      obtain ⟨p, hp, -, hseconds⟩ := hd.reads
      have hnonneg := d.seconds_nonneg
      have hlate := (h p hp).2
      rw [hseconds] at hlate
      rw [hp.parse_eq, hseconds, minutes_fromTimeT (by omega) hlate,
        Int.tdiv_eq_ediv_of_nonneg hnonneg]
    · intro hnone
      rw [parse_error_iff]
      intro p hp
      obtain ⟨d, hd, -⟩ := hp.isSpelled (h p hp).1
      exact hnone d hd

/-- February 31 is taken for March 2. -/
theorem not_parsesFormats_february : ¬ ParsesFormats "2024-02-31T00:00:00Z" := by
  have hread : parseRFC3339UTCTimestamp "2024-02-31T00:00:00Z" = .ok 28488960 := by decide +kernel
  rintro ⟨-, hother⟩
  have hnone : ∀ d, ¬ IsSpelled "2024-02-31T00:00:00Z" d := by
    rintro d ⟨separator, fraction, suffix, -, -, htext⟩
    have hyear : fourDigits 2024 = fourDigits d.year := congrArg (List.take 4) htext
    have hmonth : twoDigits 2 = twoDigits d.month := congrArg (fun s => (s.drop 5).take 2) htext
    have hday : twoDigits 31 = twoDigits d.day := congrArg (fun s => (s.drop 8).take 2) htext
    obtain ⟨hyearlt, hmonthlt, hdaylt, -⟩ := d.lt_of_width
    have hlast := d.day_mem.2
    rw [← fourDigits_inj (by norm_num) hyearlt hyear, ← twoDigits_inj (by norm_num) hmonthlt hmonth,
      ← twoDigits_inj (by norm_num) hdaylt hday] at hlast
    exact absurd hlast (by decide)
  obtain ⟨e, herror⟩ := hother hnone
  rw [hread] at herror
  cases herror

end MacdTradingBot
