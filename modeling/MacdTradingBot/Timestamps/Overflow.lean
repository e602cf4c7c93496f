import MacdTradingBot.Lib.Bits64
import MacdTradingBot.Timestamps.Formats

/-!
# Timestamps in 64 bits

The conversions of the parser and of `isConsecutive`, written over the arithmetic they run in. The parser
of the source wraps around (`parseWith_wraps`), and the comparison of the model is the exact one
(`isConsecutiveWith_exact`). `arithmeticExact_iff` says which timestamps keep every step in range.
-/

namespace MacdTradingBot

open GetTime Bits64

/-! ## The conversions over any arithmetic -/

/-- From the `time_t` to minutes. -/
def minutesWith (fit : Arithmetic) (t : ℤ) : Option ℤ :=
  (fit t).bind fun time =>
  (fit (time * ChronoDuration.seconds.nanos)).bind fun ticks =>
  fit (durationCast .nanoseconds .minutes ticks)

def parseHelperWith (fit : Arithmetic) (timestamp : List Char) (format : List GetTime.Piece) :
    Except InvalidArgument (Option ℤ) :=
  match getTime format timestamp with
  | none => .error ⟨"Invalid timestamp format"⟩
  | some tm => .ok (minutesWith fit (timegm tm))

/-- `parseRFC3339UTCTimestamp`; the minutes are missing when the arithmetic fails. -/
def parseWith (fit : Arithmetic) (timestamp : String) : Except InvalidArgument (Option ℤ) :=
  match separatorOf timestamp.toList with
  | some separator => parseHelperWith fit timestamp.toList (dateTimeFormat separator)
  | none => .error ⟨"timestamp must be UTC (end with 'Z' or '+00:00')"⟩

/-- The start of a bar and its end. -/
def spanWith (fit : Arithmetic) {P : Type} {Count : ℕ} {TimeUnit : ChronoDuration}
    (bar : Bar P Count TimeUnit) : Option (ℤ × ℤ) :=
  (fit (durationCast TimeUnit .nanoseconds bar.timestamp)).bind fun start =>
  (fit (durationCast TimeUnit .nanoseconds bar.duration)).bind fun length =>
  (fit (start + length)).bind fun finish =>
  some (start, finish)

/-- `isConsecutive`. -/
def isConsecutiveWith (fit : Arithmetic) {P : Type} {Count1 Count2 : ℕ}
    {TimeUnit1 TimeUnit2 : ChronoDuration} (left : Bar P Count1 TimeUnit1)
    (right : Bar P Count2 TimeUnit2) : Option Bool :=
  if left.symbol ≠ right.symbol then
    some false
  else
    (spanWith fit left).bind fun (leftStart, leftEnd) =>
    (spanWith fit right).bind fun (rightStart, rightEnd) =>
    some (leftEnd == rightStart || rightEnd == leftStart)

theorem isConsecutiveWith_exact {P : Type} {Count1 Count2 : ℕ} {TimeUnit1 TimeUnit2 : ChronoDuration}
    (left : Bar P Count1 TimeUnit1) (right : Bar P Count2 TimeUnit2) :
    isConsecutiveWith exact left right = some (isConsecutive left right) := by
  unfold isConsecutiveWith isConsecutive
  split <;> rfl

/-! ## The minutes of a scan -/

theorem Scan.Reads.parseWith_eq {p : Scan} {s : String} (h : p.Reads s.toList) (fit : Arithmetic) :
    parseWith fit s = .ok (minutesWith fit p.seconds) := by
  obtain ⟨separator, hseparator, -⟩ := h.pieces
  have hread := (getTime_eq_some_iff hseparator).mpr ⟨p, h, rfl⟩
  rw [parseWith, hseparator]
  show parseHelperWith fit s.toList (dateTimeFormat separator) = _
  rw [parseHelperWith, hread]
  show Except.ok (minutesWith fit (timegm p.tm)) = _
  rw [h.timegm_tm]

/-- Years of four digits do not reach far. -/
theorem Scan.Reads.fits_seconds {p : Scan} {s : List Char} (h : p.Reads s) : Fits p.seconds := by
  obtain ⟨hyear, ⟨-, hmonth⟩, ⟨-, hday⟩, hhour, hminute, hsecond⟩ := h.ranges
  have hyears := Calendar.daysBeforeYear_mono hyear
  have hmonths := Calendar.daysBeforeMonth_le (digitsValue p.year) (digitsValue p.month)
  rw [Calendar.daysBeforeYear_eq 9999] at hyears
  rw [Fits, Scan.seconds, epochSeconds, dayNumber_epoch, Calendar.dayNumber]
  omega

theorem fits_minutes {ticks : ℤ} (h : Fits ticks) : Fits (durationCast .nanoseconds .minutes ticks) := by
  rw [durationCast]
  simp only [ChronoDuration.nanos, mul_one]
  exact fits_tdiv h (by norm_num)

theorem minutesWith_wraps {t : ℤ} (ht : Fits t) :
    minutesWith wraps t = some (durationCast .nanoseconds .minutes (fromTimeT t)) := by
  rw [minutesWith, faithful_wraps t ht]
  exact faithful_wraps _ (fits_minutes (fits_bmod _))

/-- The parser of the source runs in arithmetic that wraps around. -/
theorem parseWith_wraps (s : String) :
    parseWith wraps s = (parseRFC3339UTCTimestamp s).map some := by
  rw [parse_eq, parseWith]
  cases hseparator : separatorOf s.toList with
  | none => rfl
  | some separator =>
    show parseHelperWith wraps s.toList (dateTimeFormat separator) = (parseHelper s.toList _).map some
    rw [parseHelperWith, parseHelper]
    cases hread : getTime (dateTimeFormat separator) s.toList with
    | none => rfl
    | some tm =>
      obtain ⟨p, hp, rfl⟩ := (getTime_eq_some_iff hseparator).mp hread
      show Except.ok (minutesWith wraps (timegm p.tm)) = Except.ok (some _)
      rw [hp.timegm_tm, minutesWith_wraps hp.fits_seconds]

/-- The times whose nanoseconds fit. -/
def InClock (t : ℤ) : Prop := -9223372036 ≤ t ∧ t ≤ 9223372036

instance (t : ℤ) : Decidable (InClock t) :=
  inferInstanceAs (Decidable (_ ∧ _))

theorem fits_ticks_iff {t : ℤ} : Fits (t * ChronoDuration.seconds.nanos) ↔ InClock t := by
  simp only [Fits, ChronoDuration.nanos, InClock]
  omega

/-- No step leaves the range for the times whose nanoseconds fit. -/
theorem minutesWith_traps_iff {t minute : ℤ} (ht : Fits t) :
    minutesWith traps t = some minute ↔ InClock t ∧ t.tdiv 60 = minute := by
  rw [minutesWith, bind_traps_eq_some_iff, bind_traps_eq_some_iff, traps_eq_some_iff, fits_ticks_iff]
  constructor
  · rintro ⟨-, ⟨hlow, hhigh⟩, -, rfl⟩
    refine ⟨⟨hlow, hhigh⟩, ?_⟩
    rw [← minutes_fromTimeT hlow hhigh, fromTimeT_eq hlow hhigh]
    rfl
  · rintro ⟨⟨hlow, hhigh⟩, rfl⟩
    refine ⟨ht, ⟨hlow, hhigh⟩, fits_minutes (fits_ticks_iff.mpr ⟨hlow, hhigh⟩), ?_⟩
    rw [← minutes_fromTimeT hlow hhigh, fromTimeT_eq hlow hhigh]
    rfl

/-- Arithmetic that keeps what fits cannot be told from the exact one by a run that does not trap. -/
theorem minutesWith_of_traps {t minute : ℤ} (h : minutesWith traps t = some minute) {fit : Arithmetic}
    (hfit : Faithful fit) : minutesWith fit t = some minute := by
  simp only [minutesWith, bind_traps_eq_some_iff, traps_eq_some_iff] at h
  obtain ⟨htime, hticks, hminutes, rfl⟩ := h
  rw [minutesWith, hfit _ htime, Option.bind_some, hfit _ hticks]
  exact hfit _ hminutes

/-! ## The comparison -/

variable {P : Type}

theorem spanWith_of_traps {Count : ℕ} {TimeUnit : ChronoDuration} {bar : Bar P Count TimeUnit}
    {span : ℤ × ℤ} (h : spanWith traps bar = some span) {fit : Arithmetic} (hfit : Faithful fit) :
    spanWith fit bar = some span := by
  simp only [spanWith, bind_traps_eq_some_iff] at h
  obtain ⟨hstart, hlength, hfinish, hspan⟩ := h
  rw [spanWith, hfit _ hstart, Option.bind_some, hfit _ hlength, Option.bind_some, hfit _ hfinish]
  exact hspan

/-- A minute bar whose end fits. -/
theorem spanWith_traps_minutes (bar : Bar1min P) : (∃ span, spanWith traps bar = some span) ↔
    -153722867 ≤ bar.timestamp ∧ bar.timestamp ≤ 153722866 := by
  have hone : durationTicks 1 = 1 := durationTicks_of_lt (by norm_num)
  simp only [spanWith, bind_traps_eq_some_iff, durationCast_nanoseconds, Bar.duration, hone, Fits,
    ChronoDuration.nanos, exists_and_left, Option.some.injEq, exists_eq', and_true]
  omega

/-- A comparison that does not trap is the exact one. -/
theorem isConsecutiveWith_of_traps {a b : Bar1min P} {result : Bool}
    (h : isConsecutiveWith traps a b = some result) {fit : Arithmetic} (hfit : Faithful fit) :
    isConsecutiveWith fit a b = some result := by
  unfold isConsecutiveWith at h ⊢
  split at h
  · rw [if_pos ‹_›]
    exact h
  · rw [if_neg ‹_›]
    obtain ⟨left, hleft, h⟩ := Option.bind_eq_some_iff.mp h
    obtain ⟨right, hright, h⟩ := Option.bind_eq_some_iff.mp h
    rw [spanWith_of_traps hleft hfit, Option.bind_some, spanWith_of_traps hright hfit]
    exact h

/-- Bars of different symbols are not looked at. -/
theorem isConsecutiveWith_traps_iff (a b : Bar1min P) :
    isConsecutiveWith traps a b = some (isConsecutive a b) ↔ (a.symbol = b.symbol →
      (∃ span, spanWith traps a = some span) ∧ ∃ span, spanWith traps b = some span) := by
  constructor
  · intro h hsymbol
    rw [isConsecutiveWith, if_neg (not_not.mpr hsymbol)] at h
    obtain ⟨left, hleft, h⟩ := Option.bind_eq_some_iff.mp h
    obtain ⟨right, hright, -⟩ := Option.bind_eq_some_iff.mp h
    exact ⟨⟨left, hleft⟩, right, hright⟩
  · intro h
    rw [← isConsecutiveWith_exact]
    by_cases hsymbol : a.symbol = b.symbol
    · obtain ⟨⟨left, hleft⟩, right, hright⟩ := h hsymbol
      unfold isConsecutiveWith
      rw [if_neg (not_not.mpr hsymbol), if_neg (not_not.mpr hsymbol), hleft, hright,
        spanWith_of_traps hleft faithful_exact, spanWith_of_traps hright faithful_exact]
    · unfold isConsecutiveWith
      rw [if_pos hsymbol, if_pos hsymbol]

/-- Converting the two strings and comparing the bars stays in the range of 64 bits at every step, and the
results of the source, which wraps around, are the mathematical ones. -/
structure ArithmeticExact (s s' : String) (a b : Bar1min P) : Prop where
  left : parseWith traps s = .ok (some a.timestamp) ∧ parseWith exact s = .ok (some a.timestamp)
  right : parseWith traps s' = .ok (some b.timestamp) ∧ parseWith exact s' = .ok (some b.timestamp)
  comparison : isConsecutiveWith traps a b = some (isConsecutive a b) ∧
    isConsecutiveWith wraps a b = some (isConsecutive a b)

theorem Scan.Reads.inClock_iff {p : Scan} {s : String} (h : p.Reads s.toList) {minute : ℤ}
    (hminute : parseRFC3339UTCTimestamp s = .ok minute) :
    (parseWith traps s = .ok (some minute) ∧ parseWith exact s = .ok (some minute)) ↔
      InClock p.seconds := by
  rw [h.parseWith_eq, h.parseWith_eq, Except.ok.injEq, Except.ok.injEq,
    minutesWith_traps_iff h.fits_seconds]
  constructor
  · rintro ⟨⟨hclock, -⟩, -⟩
    exact hclock
  · intro hclock
    rw [h.parse_eq, Except.ok.injEq, minutes_fromTimeT hclock.1 hclock.2] at hminute
    have htraps := (minutesWith_traps_iff h.fits_seconds).mpr ⟨hclock, hminute⟩
    exact ⟨⟨hclock, hminute⟩, minutesWith_of_traps htraps faithful_exact⟩

/-- For accepted strings and their bars: nothing overflows exactly for the times from
1677-09-21T00:12:44Z to 2262-04-11T23:47:16Z, and, when the bars are of one symbol, up to the minute before
the last of these. -/
theorem arithmeticExact_iff {s s' : String} {p q : Scan} (hp : p.Reads s.toList) (hq : q.Reads s'.toList)
    {a b : Bar1min P} (ha : parseRFC3339UTCTimestamp s = .ok a.timestamp)
    (hb : parseRFC3339UTCTimestamp s' = .ok b.timestamp) : ArithmeticExact s s' a b ↔
      InClock p.seconds ∧ InClock q.seconds ∧
        (a.symbol = b.symbol → p.seconds ≤ 9223372019 ∧ q.seconds ≤ 9223372019) := by
  have hend : ∀ {r : Scan} {t : String} {c : Bar1min P}, r.Reads t.toList →
      parseRFC3339UTCTimestamp t = .ok c.timestamp → InClock r.seconds →
        ((∃ span, spanWith traps c = some span) ↔ r.seconds ≤ 9223372019) := by
    rintro r t c hr hc ⟨hlow, hhigh⟩
    rw [hr.parse_eq, Except.ok.injEq, minutes_fromTimeT hlow hhigh] at hc
    rw [spanWith_traps_minutes, ← hc]
    rcases le_total 0 r.seconds with hpos | hneg
    · rw [Int.tdiv_eq_ediv_of_nonneg hpos]
      omega
    · rw [← neg_neg r.seconds, Int.neg_tdiv, Int.tdiv_eq_ediv_of_nonneg (neg_nonneg.mpr hneg)]
      omega
  constructor
  · rintro ⟨hleft, hright, hcomparison, -⟩
    have hpclock := (hp.inClock_iff ha).mp hleft
    have hqclock := (hq.inClock_iff hb).mp hright
    refine ⟨hpclock, hqclock, fun hsymbol => ?_⟩
    rw [← hend hp ha hpclock, ← hend hq hb hqclock]
    exact (isConsecutiveWith_traps_iff a b).mp hcomparison hsymbol
  · rintro ⟨hpclock, hqclock, hlast⟩
    have htraps := (isConsecutiveWith_traps_iff a b).mpr fun hsymbol =>
      ⟨(hend hp ha hpclock).mpr (hlast hsymbol).1, (hend hq hb hqclock).mpr (hlast hsymbol).2⟩
    exact ⟨(hp.inClock_iff ha).mpr hpclock, (hq.inClock_iff hb).mpr hqclock, htraps,
      isConsecutiveWith_of_traps htraps faithful_wraps⟩

/-- Two minutes of one day. -/
theorem arithmeticExact_neighbours : ArithmeticExact "2025-05-19T13:30:00Z" "2025-05-19T13:31:00Z"
    (⟨"AAPL", ⟨1, 1, 1, 1, 1⟩, 29127690⟩ : Bar1min ℕ) ⟨"AAPL", ⟨1, 1, 1, 1, 1⟩, 29127691⟩ := by
  have hreads : ∀ d : DateTime, ∀ s : String, s.toList = (d.scan 'T' ['Z']).chunks.flatten ++ ['Z'] →
      separatorOf s.toList = some (.literal 'T') → (d.scan 'T' ['Z']).Reads s.toList := by
    intro d s htext hseparator
    have hpiece : ∀ following, (Piece.literal 'T').Matches ['T'] following := fun _ => ⟨'T', rfl, rfl⟩
    exact ⟨htext, _, hseparator, d.matches_scan (fun following _ => hpiece following) _⟩
  have hleft := hreads ⟨2025, 5, 19, 13, 30, 0, by decide, by decide, by decide, by decide, by decide,
    by decide⟩ "2025-05-19T13:30:00Z" rfl rfl
  have hright := hreads ⟨2025, 5, 19, 13, 31, 0, by decide, by decide, by decide, by decide, by decide,
    by decide⟩ "2025-05-19T13:31:00Z" rfl rfl
  refine (arithmeticExact_iff hleft hright (by decide +kernel) (by decide +kernel)).mpr ?_
  rw [← hleft.timegm_tm, ← hright.timegm_tm]
  decide

/-- A year 3000 is accepted and becomes 1830. -/
theorem year_3000_wraps : parseRFC3339UTCTimestamp "3000-01-01T00:00:00Z" = .ok (-73163469) ∧
    ¬ ArithmeticExact "3000-01-01T00:00:00Z" "3000-01-01T00:00:00Z"
      (⟨"AAPL", ⟨1, 1, 1, 1, 1⟩, -73163469⟩ : Bar1min ℕ) ⟨"AAPL", ⟨1, 1, 1, 1, 1⟩, -73163469⟩ := by
  refine ⟨by decide +kernel, ?_⟩
  rintro ⟨⟨htraps, -⟩, -⟩
  have htrapped : parseWith traps "3000-01-01T00:00:00Z" = .ok none := by decide +kernel
  rw [htrapped] at htraps
  cases htraps

end MacdTradingBot
