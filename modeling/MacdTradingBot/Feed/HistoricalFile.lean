import MacdTradingBot.Csv.Volumes
import MacdTradingBot.Feed.Replay
import MacdTradingBot.Timestamps.Formats

/-!
# One file, read by both

The files that `historical_bars_to_csv` writes are read by `createBarsFromCSV`, and by the historical
endpoint, which streams their bars to the feed. Both give the same bars (`bars_of_file`).
-/

namespace MacdTradingBot

/-! ## The cells -/

/-- A number written in digits, with a fraction or without one. -/
structure Decimal where
  whole : List Char
  fraction : List Char
  whole_ne_nil : whole ≠ []
  whole_digits : ∀ c ∈ whole, c.isDigit = true
  fraction_digits : ∀ c ∈ fraction, c.isDigit = true

namespace Decimal

open Strtod

def chars (d : Decimal) : List Char :=
  d.whole ++ if d.fraction = [] then [] else '.' :: d.fraction

def text (d : Decimal) : String := String.ofList d.chars

def value (d : Decimal) : ℚ :=
  GetTime.digitsValue (d.whole ++ d.fraction) / 10 ^ d.fraction.length

/-- A number is written with digits and a point. -/
theorem mem_chars {d : Decimal} {c : Char} (h : c ∈ d.chars) : c.isDigit = true ∨ c = '.' := by
  rw [chars, List.mem_append] at h
  rcases h with hwhole | hrest
  · exact Or.inl (d.whole_digits c hwhole)
  · split at hrest
    · cases hrest
    · rcases List.mem_cons.mp hrest with rfl | hfraction
      · exact Or.inr rfl
      · exact Or.inl (d.fraction_digits c hfraction)

/-- The mantissa is the whole number. -/
theorem mantissa_chars (d : Decimal) : mantissa 10 d.chars = some (d.whole, d.fraction, []) := by
  have hwhole : ∀ c ∈ d.whole, isDigitOf 10 c = true :=
    fun c hc => isDigitOf_of_isDigit (d.whole_digits c hc)
  have hfraction : ∀ c ∈ d.fraction, isDigitOf 10 c = true :=
    fun c hc => isDigitOf_of_isDigit (d.fraction_digits c hc)
  by_cases hempty : d.fraction = []
  · rw [chars, if_pos hempty, List.append_nil, hempty]
    exact mantissa_digits d.whole_digits d.whole_ne_nil
  · have hpoint : isDigitOf 10 '.' = false := by decide
    have htake : d.chars.takeWhile (isDigitOf 10) = d.whole := by
      rw [chars, if_neg hempty, List.takeWhile_append_of_pos hwhole,
        List.takeWhile_cons_of_neg (by simp [hpoint]), List.append_nil]
    have hdrop : d.chars.dropWhile (isDigitOf 10) = '.' :: d.fraction := by
      rw [chars, if_neg hempty, List.dropWhile_append_of_pos hwhole,
        List.dropWhile_cons_of_neg (by simp [hpoint])]
    rw [mantissa]
    simp only [htake, hdrop, List.takeWhile_eq_self_iff.mpr hfraction,
      List.dropWhile_eq_nil_iff.mpr hfraction]
    rw [if_neg]
    exact fun happend => d.whole_ne_nil (List.append_eq_nil_iff.mp happend).1

/-- There is no `x` in it. -/
theorem hexadecimal_chars (d : Decimal) : hexadecimal d.chars = none := by
  have hmem := @mem_chars d
  revert hmem
  generalize d.chars = chars
  intro hmem
  unfold hexadecimal
  split
  · rename_i x s
    rw [if_neg]
    rcases hmem (c := x) (by simp) with hx | rfl
    · rw [toLower_of_isDigit hx]
      exact ne_of_isDigit hx (by decide)
    · decide
  · rfl

/-- `strtod` reads the number that is written. -/
theorem strtod_chars (d : Decimal) : strtod d.chars = some (.finite d.value) := by
  have hhexadecimal := d.hexadecimal_chars
  have hmantissa := d.mantissa_chars
  have hvalue := @valueOf_digits (d.whole ++ d.fraction)
    (List.forall_mem_append.mpr ⟨d.whole_digits, d.fraction_digits⟩)
  have hmagnitude : magnitude 10 10 'e' d.chars = some d.value := by
    rw [magnitude, hmantissa]
    simp [exponent, hvalue, value]
  obtain ⟨c, more, hcons⟩ := List.exists_cons_of_ne_nil d.whole_ne_nil
  have hc : c.isDigit = true := d.whole_digits c (by rw [hcons]; exact List.mem_cons_self)
  obtain ⟨rest, hchars⟩ : ∃ rest, d.chars = c :: rest := by
    rw [chars, hcons]
    exact ⟨_, rfl⟩
  rw [hchars] at hhexadecimal hmagnitude ⊢
  have hspace : (c :: rest).dropWhile isSpace = c :: rest :=
    List.dropWhile_cons_of_neg (by simp [GetTime.isSpace_eq_false hc])
  have hinf := @startsWith_of_isDigit c rest hc "inf" 'i' rfl (by decide)
  have hnan := @startsWith_of_isDigit c rest hc "nan" 'n' rfl (by decide)
  unfold strtod
  simp [hspace, sign_of_isDigit hc, hinf, hnan, hhexadecimal, hmagnitude]

/-- `std::stod` rounds it. -/
theorem stod_chars (d : Decimal) {toDouble : ℚ → Option ℚ} {x : ℚ} (h : toDouble d.value = some x) :
    stod toDouble d.chars = .ok (.finite x) := by
  rw [stod, d.strtod_chars]
  dsimp only
  rw [h]

end Decimal

/-! ## The timestamps -/

/-- A time as pandas writes it, and with a `T` as `isoformat` does. -/
def DateTime.text (d : DateTime) (separator : Char) : String :=
  String.ofList (d.spell separator ++ "+00:00".toList)

/-- The minute that the parser of the bot makes of a date-time. -/
def DateTime.timePoint (d : DateTime) : ℤ := durationCast .nanoseconds .minutes (fromTimeT d.seconds)

/-- The parser reads the minute of a spelled date-time. -/
theorem parse_of_isSpelled {s : String} {d : DateTime} (h : IsSpelled s d) :
    parseRFC3339UTCTimestamp s = .ok d.timePoint := by
  obtain ⟨p, hp, -, hseconds⟩ := h.reads
  rw [hp.parse_eq, hseconds]
  rfl

attribute [irreducible] DateTime.timePoint

theorem parse_toList {s : String} {d : DateTime} (h : IsSpelled s d) :
    parseRFC3339UTCTimestamp (String.ofList s.toList) = .ok d.timePoint := by
  rw [String.ofList_toList]
  exact parse_of_isSpelled h

/-- Replacing one character by another one goes character by character. -/
theorem pyReplaceAfter_singleton (old new : Char) (s : List Char) :
    pyReplaceAfter [old] [new] 0 s = s.map fun c => if c = old then new else c := by
  induction s with
  | nil => rfl
  | cons c s ih =>
    rw [pyReplaceAfter, List.map_cons]
    by_cases hc : c = old
    · subst hc
      rw [if_pos (by simp), if_pos rfl]
      exact congrArg (new :: ·) ih
    · rw [if_neg (by simpa using Ne.symm hc), if_neg hc, ih]

/-- A text that starts at the end of another one, and nowhere before, is replaced there. -/
theorem pyReplaceAfter_suffix {first : Char} {old front : List Char} (new : List Char)
    (h : first ∉ front) :
    pyReplaceAfter (first :: old) new 0 (front ++ first :: old) = front ++ new := by
  have hskip : ∀ s : List Char, pyReplaceAfter (first :: old) new s.length s = [] := by
    intro s
    induction s with
    | nil => rfl
    | cons c s ih => exact ih
  induction front with
  | nil =>
    rw [List.nil_append, List.nil_append, pyReplaceAfter, if_pos (List.isPrefixOf_iff_prefix.mpr List.prefix_rfl)]
    exact (congrArg (new ++ ·) (hskip old)).trans (List.append_nil new)
  | cons c front ih =>
    rw [List.mem_cons, not_or] at h
    rw [List.cons_append, pyReplaceAfter, if_neg (by simp [h.1]), ih h.2, List.cons_append]

namespace DateTime

variable (d : DateTime)

/-- The characters of a date-time are digits, but for its separators. -/
theorem mem_spell {separator c : Char} (h : c ∈ d.spell separator) :
    c.isDigit = true ∨ c = '-' ∨ c = ':' ∨ c = separator := by
  obtain ⟨hyear, hmonth, hday, hhour, hminute, hsecond⟩ := d.lt_of_width
  have hdigits : ∀ {n : ℕ}, n < 100 → c ∈ twoDigits n → c.isDigit = true :=
    fun hn hc => isDigit_of_mem_twoDigits hn c hc
  simp only [spell, fourDigits, List.mem_append, List.mem_cons] at h
  rcases h with (((((hc | hc) | rfl | hc) | rfl | hc) | rfl | hc) | rfl | hc) | rfl | hc
  all_goals first
    | exact Or.inl (hdigits (by omega) hc)
    | simp

/-- The space between date and time is the only one. -/
theorem replace_separator :
    (d.spell ' ').map (fun c => if c = ' ' then 'T' else c) = d.spell 'T' := by
  obtain ⟨hyear, hmonth, hday, hhour, hminute, hsecond⟩ := d.lt_of_width
  have hdigits : ∀ {n : ℕ}, n < 100 →
      (twoDigits n).map (fun c => if c = ' ' then 'T' else c) = twoDigits n := by
    intro n hn
    refine (List.map_congr_left fun c hc => ?_).trans (List.map_id _)
    rw [if_neg]
    · rfl
    · rintro rfl
      exact absurd (isDigit_of_mem_twoDigits hn ' ' hc) (by decide)
  simp only [spell, fourDigits, List.map_append, List.map_cons, hdigits hmonth, hdigits hday,
    hdigits hhour, hdigits hminute, hdigits hsecond, hdigits (show d.year / 100 < 100 by omega),
    hdigits (show d.year % 100 < 100 by omega)]
  rfl

/-- The format of pandas. -/
theorem isSpelled_pandas : IsSpelled (d.text ' ') d :=
  ⟨' ', [], "+00:00".toList, Or.inr ⟨rfl, rfl⟩, Or.inl rfl, by simp [text]⟩

/-- The format of the endpoint. -/
theorem isSpelled_rfc3339 : IsSpelled (String.ofList (d.spell 'T' ++ ['Z'])) d :=
  ⟨'T', [], ['Z'], Or.inl ⟨rfl, Or.inl rfl⟩, Or.inl rfl, by simp⟩

end DateTime

open HistoricalAlpacaWSEndpoint AlpacaWSMarketFeed

variable {toDouble : ℚ → Option ℚ} {castOutOfRange : Double → UInt64} {py : Python}

/-- What Python makes of the cells: `float` rounds as `std::stod` does, and a time in UTC keeps its
spelling. -/
structure Python.Reads (py : Python) (toDouble : ℚ → Option ℚ) : Prop where
  float : ∀ (d : Decimal) x, toDouble d.value = some x → py.float d.text = some x
  utcIsoformat : ∀ d : DateTime, py.utcIsoformat (d.text 'T') = some (d.text 'T')

/-- The endpoint writes the time in the other format. -/
theorem timestampRfc3339_text (hpy : py.Reads toDouble) (d : DateTime) :
    timestampRfc3339 py (d.text ' ') = some (String.ofList (d.spell 'T' ++ ['Z'])) := by
  have hspace : pyReplace " " "T" (d.text ' ') = d.text 'T' := by
    have hreplace := pyReplaceAfter_singleton ' ' 'T' (d.spell ' ' ++ "+00:00".toList)
    rw [List.map_append, d.replace_separator] at hreplace
    rw [pyReplace, DateTime.text, show " ".toList = [' '] from rfl, show "T".toList = ['T'] from rfl,
      String.toList_ofList, hreplace]
    rfl
  have hplus : '+' ∉ d.spell 'T' := by
    intro hmem
    rcases d.mem_spell hmem with hdigit | hc | hc | hc
    · exact absurd hdigit (by decide)
    all_goals exact absurd hc (by decide)
  have hsuffix : pyReplace "+00:00" "Z" (d.text 'T') = String.ofList (d.spell 'T' ++ ['Z']) := by
    rw [pyReplace, DateTime.text, show "Z".toList = ['Z'] from rfl,
      show "+00:00".toList = ['+', '0', '0', ':', '0', '0'] from rfl, String.toList_ofList,
      pyReplaceAfter_suffix ['Z'] hplus]
  simp only [timestampRfc3339, hspace, hpy.utcIsoformat, Option.bind_eq_bind, Option.bind_some, hsuffix]
  rfl

/-! ## Rows and files -/

/-- A row of the file. Other columns may come after these. -/
structure HistoricalRow where
  symbol : String
  timestamp : DateTime
  «open» : Decimal
  high : Decimal
  low : Decimal
  close : Decimal
  volume : Decimal
  tradeCount : Decimal
  vwap : Decimal
  more : List String

namespace HistoricalRow

def fields (row : HistoricalRow) : List String :=
  row.symbol :: row.timestamp.text ' ' :: row.open.text :: row.high.text :: row.low.text ::
    row.close.text :: row.volume.text :: row.tradeCount.text :: row.vwap.text :: row.more

def numbers (row : HistoricalRow) : List Decimal :=
  [row.open, row.high, row.low, row.close, row.volume, row.tradeCount, row.vwap]

/-- The numbers are in the range of `double`, and the volume is in that of `uint64_t`. -/
structure Representable (toDouble : ℚ → Option ℚ) (row : HistoricalRow) : Prop where
  numbers : ∀ d ∈ row.numbers, ∃ x, toDouble d.value = some x
  volume : ∀ x, toDouble row.volume.value = some x → 0 ≤ truncate x ∧ truncate x < 2 ^ 64

/-- The `double` of a cell. -/
def double (toDouble : ℚ → Option ℚ) (d : Decimal) : ℚ := (toDouble d.value).getD 0

/-- The bar of the row. -/
def bar (toDouble : ℚ → Option ℚ) (row : HistoricalRow) : Bar1min ℚ where
  symbol := row.symbol
  ohlcv :=
    ⟨double toDouble row.open, double toDouble row.high, double toDouble row.low,
      double toDouble row.close, UInt64.ofNat (truncate (double toDouble row.volume)).toNat⟩
  timestamp := row.timestamp.timePoint

/-- The message of the row. -/
def message (toDouble : ℚ → Option ℚ) (row : HistoricalRow) : Json :=
  .object
    [("T", .string "b"), ("S", .string row.symbol), ("o", .numberFloat (double toDouble row.open)),
      ("h", .numberFloat (double toDouble row.high)), ("l", .numberFloat (double toDouble row.low)),
      ("c", .numberFloat (double toDouble row.close)), ("v", .numberFloat (double toDouble row.volume)),
      ("t", .string (String.ofList (row.timestamp.spell 'T' ++ ['Z']))),
      ("n", .numberFloat (double toDouble row.tradeCount)),
      ("vw", .numberFloat (double toDouble row.vwap))]

/-- Every number of a representable row has its `double`. -/
theorem Representable.toDouble_eq {row : HistoricalRow} (h : row.Representable toDouble) :
    ∀ d ∈ row.numbers, toDouble d.value = some (double toDouble d) := by
  intro d hmem
  obtain ⟨x, hx⟩ := h.numbers d hmem
  rw [double, hx]
  rfl

end HistoricalRow

/-- The names of the columns. -/
def historicalColumns (more : List String) : List String :=
  "symbol" :: "timestamp" :: "open" :: "high" :: "low" :: "close" :: "volume" :: "trade_count" :: "vwap" ::
    more

/-- A file that `fetch_historical_data` writes: the columns of the bars, and those that it adds. No cell
needs quotes. -/
structure HistoricalFile where
  more : List String
  rows : List HistoricalRow
  columns_nodup : (historicalColumns more).Nodup
  columns_plain : ∀ name ∈ historicalColumns more, Csv.IsPlain name
  rows_plain : ∀ row ∈ rows, ∀ field ∈ row.fields, Csv.IsPlain field
  rows_length : ∀ row ∈ rows, row.more.length = more.length
  rows_ne_nil : rows ≠ []

namespace HistoricalFile

/-- What `to_csv` writes. -/
def text (file : HistoricalFile) : List Char :=
  Csv.write (historicalColumns file.more :: file.rows.map HistoricalRow.fields)

variable (file : HistoricalFile)

/-- The header needs no quotes. -/
theorem isPlainRow_columns : Csv.IsPlainRow (historicalColumns file.more) :=
  ⟨file.columns_plain, by simp [historicalColumns], by simp [historicalColumns]⟩

/-- No row needs quotes. -/
theorem isPlainRow_fields {row : HistoricalRow} (h : row ∈ file.rows) : Csv.IsPlainRow row.fields :=
  ⟨file.rows_plain row h, by simp [HistoricalRow.fields], by simp [HistoricalRow.fields]⟩

end HistoricalFile

/-! ## The file in C++ -/

/-- A piece without the delimiter ends where the delimiter comes. -/
theorem getlines_append {delimiter : Char} {piece : List Char} (h : delimiter ∉ piece) (rest : List Char) :
    getlines delimiter (piece ++ delimiter :: rest) = piece :: getlines delimiter rest := by
  induction piece with
  | nil => rw [List.nil_append, getlines, if_pos rfl]
  | cons c piece ih =>
    rw [List.mem_cons, not_or] at h
    rw [List.cons_append, getlines, if_neg (Ne.symm h.1), ih h.2]

/-- The lines of a file that is written are those that were written. -/
theorem getlines_write {rows : List (List String)} (h : ∀ row ∈ rows, Csv.IsPlainRow row) :
    getlines '\n' (Csv.write rows) = rows.map Csv.writeRow := by
  induction rows with
  | nil => rfl
  | cons row rows ih =>
    obtain ⟨hrow, hrows⟩ := List.forall_mem_cons.mp h
    rw [Csv.write, List.flatMap_cons, List.append_assoc, List.singleton_append,
      getlines_append hrow.not_mem_writeRow.1, List.map_cons]
    exact congrArg (_ :: ·) (ih hrows)

/-- The first cell of a line. -/
theorem getlines_writeRow {field : String} {fields : List String} (hplain : Csv.IsPlain field)
    (hne : fields ≠ []) : getlines ',' (Csv.writeRow (field :: fields))
      = field.toList :: getlines ',' (Csv.writeRow fields) := by
  rw [Csv.writeRow_cons hne]
  exact getlines_append (fun hmem => (hplain.chars _ hmem).1 rfl) _

/-- Cut at the commas, a line has its first seven cells again. -/
theorem csvColumns_fields {row : HistoricalRow} (h : ∀ field ∈ row.fields, Csv.IsPlain field) :
    csvColumns (Csv.writeRow row.fields) = some ⟨row.symbol.toList, (row.timestamp.text ' ').toList,
      row.open.chars, row.high.chars, row.low.chars, row.close.chars, row.volume.chars⟩ := by
  simp only [HistoricalRow.fields, List.forall_mem_cons] at h
  obtain ⟨hsymbol, htimestamp, hopen, hhigh, hlow, hclose, hvolume, -⟩ := h
  rw [csvColumns, HistoricalRow.fields, getlines_writeRow hsymbol (List.cons_ne_nil _ _),
    getlines_writeRow htimestamp (List.cons_ne_nil _ _), getlines_writeRow hopen (List.cons_ne_nil _ _),
    getlines_writeRow hhigh (List.cons_ne_nil _ _), getlines_writeRow hlow (List.cons_ne_nil _ _),
    getlines_writeRow hclose (List.cons_ne_nil _ _), getlines_writeRow hvolume (List.cons_ne_nil _ _)]
  simp only [Decimal.text, String.toList_ofList]

/-! ## One row, read by both -/

/-- The line of a row gives its bar. -/
theorem createBarFromCSVLine_fields {row : HistoricalRow} (hrow : row.Representable toDouble)
    (hplain : ∀ field ∈ row.fields, Csv.IsPlain field) (castOutOfRange : Double → UInt64) :
    createBarFromCSVLine toDouble castOutOfRange (Csv.writeRow row.fields)
      = .ok (row.bar toDouble).doubles := by
  have hnumbers := hrow.toDouble_eq
  simp only [HistoricalRow.numbers, List.forall_mem_cons] at hnumbers
  obtain ⟨hopen, hhigh, hlow, hclose, hvolume, -⟩ := hnumbers
  have htimestamp := parse_toList row.timestamp.isSpelled_pandas
  rw [createBarFromCSVLine_eq_ok_iff]
  refine ⟨_, csvColumns_fields hplain, row.open.stod_chars hopen, row.high.stod_chars hhigh,
    row.low.stod_chars hlow, row.close.stod_chars hclose, ⟨_, row.volume.stod_chars hvolume, ?_⟩,
    htimestamp, String.ofList_toList⟩
  rw [castDouble, castUInt64, if_pos (hrow.volume _ hvolume)]
  rfl

/-- The row under its names gives its message. -/
theorem convertCsvRowToAlpacaFormat_fields {row : HistoricalRow} (hrow : row.Representable toDouble)
    (hpy : py.Reads toDouble) {more : List String} (hnodup : (historicalColumns more).Nodup)
    (hlength : row.more.length = more.length) :
    convertCsvRowToAlpacaFormat py (Csv.dictRow (historicalColumns more) row.fields)
      = some (row.message toDouble) := by
  have hnumbers : ∀ d ∈ row.numbers, py.float d.text = some (HistoricalRow.double toDouble d) :=
    fun d hmem => hpy.float d _ (hrow.toDouble_eq d hmem)
  simp only [HistoricalRow.numbers, List.forall_mem_cons, List.not_mem_nil, false_imp_iff, implies_true,
    and_true] at hnumbers
  obtain ⟨ho, hh, hl, hc, hv, hn, hvw⟩ := hnumbers
  have hfields : row.fields.length = (historicalColumns more).length := by
    simp [HistoricalRow.fields, historicalColumns, hlength]
  have hlookup : ∀ cell ∈ ("symbol", row.symbol) :: ("timestamp", row.timestamp.text ' ') ::
      ("open", row.open.text) :: ("high", row.high.text) :: ("low", row.low.text) ::
      ("close", row.close.text) :: ("volume", row.volume.text) :: ("trade_count", row.tradeCount.text) ::
      ("vwap", row.vwap.text) :: more.zip row.more,
      (Csv.dictRow (historicalColumns more) row.fields).lookup cell.1 = some (some cell.2) :=
    fun cell hmem => Csv.lookup_dictRow hnodup hfields hmem
  simp only [List.forall_mem_cons] at hlookup
  obtain ⟨hsymbol, htimestamp, hopen, hhigh, hlow, hclose, hvolume, htrades, hvwap, -⟩ := hlookup
  simp only [convertCsvRowToAlpacaFormat, hsymbol, htimestamp, hopen, hhigh, hlow, hclose, hvolume, htrades,
    hvwap, Option.bind_eq_bind, Option.bind_some, ho, hh, hl, hc, hv, hn, hvw,
    timestampRfc3339_text hpy row.timestamp]
  rfl

/-- The message of a row brings its bar. -/
theorem messageBars_message {row : HistoricalRow} (hrow : row.Representable toDouble) (json : Nlohmann) :
    messageBars json (row.message toDouble) = [row.bar toDouble] := by
  have hvolume := hrow.volume _ (hrow.toDouble_eq row.volume (by simp [HistoricalRow.numbers]))
  have hkind : ∀ members, kind (.object (("T", .string "b") :: members)) = .bar := fun members => rfl
  rw [messageBars, HistoricalRow.message, if_pos (hkind _)]
  refine congrArg Option.toList (congrArg Except.toOption ((readBar_eq_ok_iff json).mpr ?_))
  have htimestamp := parse_of_isSpelled row.timestamp.isSpelled_rfc3339
  refine ⟨⟨_, rfl, rfl⟩, ⟨_, rfl, rfl⟩, ⟨_, rfl, rfl⟩, ⟨_, rfl, rfl⟩, ⟨_, rfl, rfl⟩, ⟨_, rfl, ?_⟩, ?_⟩
  · exact congrArg Except.ok (if_pos hvolume)
  · exact ⟨_, rfl, htimestamp⟩

/-! ## The whole file -/

namespace HistoricalFile

variable (file : HistoricalFile)

/-- In C++ the file gives the bars of its rows. -/
theorem createBarsFromCSV_text (hrows : ∀ row ∈ file.rows, row.Representable toDouble)
    (castOutOfRange : Double → UInt64) (csvPath : String) :
    createBarsFromCSV toDouble castOutOfRange csvPath (some file.text)
      = .ok (file.rows.map fun row => (row.bar toDouble).doubles) := by
  have hplain : ∀ fields ∈ historicalColumns file.more :: file.rows.map HistoricalRow.fields,
      Csv.IsPlainRow fields := by
    rw [List.forall_mem_cons, List.forall_mem_map]
    exact ⟨file.isPlainRow_columns, fun row hrow => file.isPlainRow_fields hrow⟩
  have hlines : ((getlines '\n' file.text).drop 1).filter (· ≠ [])
      = file.rows.map fun row => Csv.writeRow row.fields := by
    rw [text, getlines_write hplain, List.map_cons, List.drop_one, List.tail_cons, List.map_map]
    refine List.filter_eq_self.mpr fun line hline => ?_
    obtain ⟨row, hrow, rfl⟩ := List.mem_map.mp hline
    exact decide_eq_true (file.isPlainRow_fields hrow).writeRow_ne_nil
  rw [createBarsFromCSV_eq_ok_iff, hlines, List.forall₂_map_left_iff, List.forall₂_map_right_iff,
    List.forall₂_same]
  exact fun row hrow => createBarFromCSVLine_fields (hrows row hrow) (file.rows_plain row hrow) _

/-- In Python it gives their messages. -/
theorem loadBars_text (hrows : ∀ row ∈ file.rows, row.Representable toDouble)
    (hpy : py.Reads toDouble) :
    loadBars py (some file.text) = some (file.rows.map (·.message toDouble)) := by
  have hplain : ∀ fields ∈ file.rows.map HistoricalRow.fields, Csv.IsPlainRow fields := by
    rw [List.forall_mem_map]
    exact fun row hrow => file.isPlainRow_fields hrow
  rw [loadBars, Option.bind_some, text, Csv.dictReader_write file.isPlainRow_columns hplain,
    Option.bind_some, List.map_map]
  have hconvert : ∀ row ∈ file.rows, convertCsvRowToAlpacaFormat py
      (Csv.dictRow (historicalColumns file.more) row.fields) = some (row.message toDouble) :=
    fun row hrow => convertCsvRowToAlpacaFormat_fields (hrows row hrow) hpy file.columns_nodup
      (file.rows_length row hrow)
  generalize file.rows = rows at hconvert
  induction rows with
  | nil => rfl
  | cons row rows ih =>
    obtain ⟨hrow, hrest⟩ := List.forall_mem_cons.mp hconvert
    rw [List.map_cons, List.mapM_cons, List.map_cons, Function.comp_apply, hrow, ih hrest]
    rfl

end HistoricalFile

/-- A file that `fetch_historical_data` writes, with numbers in range, is read by both. The endpoint loads
it, and the feed reads one bar for each of its rows from the messages of the endpoint, the bar of the row;
`createBarsFromCSV` returns these very bars. -/
theorem bars_of_file (file : HistoricalFile) (hrows : ∀ row ∈ file.rows, row.Representable toDouble)
    (hpy : py.Reads toDouble) : ∃ endpoint, init py (some file.text) = some endpoint ∧
      ∀ json castOutOfRange csvPath, barsRead json endpoint = file.rows.map (·.bar toDouble) ∧
        createBarsFromCSV toDouble castOutOfRange csvPath (some file.text)
          = .ok ((barsRead json endpoint).map Bar.doubles) := by
  obtain ⟨first, rest, hfirst⟩ := List.exists_cons_of_ne_nil file.rows_ne_nil
  have hsymbol : (file.rows.map (·.message toDouble)).head?.bind (·.find? "S")
      = some (.string first.symbol) := by
    rw [hfirst]
    rfl
  obtain ⟨endpoint, hinit, hbars⟩ := init_eq_some (file.loadBars_text hrows hpy) hsymbol
  refine ⟨endpoint, hinit, fun json castOutOfRange csvPath => ?_⟩
  have hread : barsRead json endpoint = file.rows.map (·.bar toDouble) := by
    rw [barsRead, hbars, List.flatMap_map, ← List.flatMap_pure_eq_map]
    exact List.flatMap_congr fun row hrow => messageBars_message (hrows row hrow) json
  rw [hread, List.map_map]
  exact ⟨rfl, file.createBarsFromCSV_text hrows castOutOfRange csvPath⟩

/-! ### An example -/

/-- Half past one on a day of May, and some minutes. -/
def exampleTime (minutes : Fin 30) : DateTime where
  year := 2025
  month := 5
  day := 19
  hour := 13
  minute := 30 + minutes
  second := 0
  year_mem := by decide
  month_mem := by decide
  day_mem := by decide
  hour_lt := by decide
  minute_lt := by omega
  second_lt := by decide

def exampleDecimal (whole fraction : Fin 10) : Decimal where
  whole := [whole.val.digitChar]
  fraction := [fraction.val.digitChar]
  whole_ne_nil := List.cons_ne_nil _ _
  whole_digits := by simp [Nat.isDigit_digitChar]
  fraction_digits := by simp [Nat.isDigit_digitChar]

/-- A bar at some minute, with some closing price. -/
def exampleRow (minutes : Fin 30) (close : Decimal) : HistoricalRow where
  symbol := "AAPL"
  timestamp := exampleTime minutes
  «open» := exampleDecimal 1 0
  high := exampleDecimal 3 0
  low := exampleDecimal 0 5
  close := close
  volume := exampleDecimal 7 0
  tradeCount := exampleDecimal 2 0
  vwap := exampleDecimal 1 5
  more := ["09:30"]

def exampleFile : HistoricalFile where
  more := ["timestamp_et"]
  rows := [exampleRow 0 (exampleDecimal 1 5), exampleRow 1 (exampleDecimal 2 5)]
  columns_nodup := by decide
  columns_plain := by decide
  rows_plain := by decide
  rows_length := by simp [exampleRow]
  rows_ne_nil := List.cons_ne_nil _ _

example : (exampleRow 1 (exampleDecimal 2 5)).fields
    = ["AAPL", "2025-05-19 13:31:00+00:00", "1.0", "3.0", "0.5", "2.5", "7.0", "2.0", "1.5", "09:30"] := by
  decide

/-- A Python with exact numbers. -/
def exactPython : Python where
  float := fun text =>
    match strtod text.toList with
    | some (.finite x) => some x
    | _ => none
  utcIsoformat := some
  dumps := fun _ => []
  loads := fun _ => none

/-- Without rounding, both read the number that is written. -/
theorem exactPython_reads : exactPython.Reads some where
  float := by
    intro d x hx
    obtain rfl := Option.some.inj hx
    simp only [exactPython, Decimal.text, String.toList_ofList, d.strtod_chars]
  utcIsoformat := fun _ => rfl

/-- Everything is in range. -/
theorem exampleRow_representable (minutes : Fin 30) (close : Decimal) :
    (exampleRow minutes close).Representable some where
  numbers := fun d _ => ⟨_, rfl⟩
  volume := by
    rintro x hx
    obtain rfl := Option.some.inj hx
    have hvolume : truncate (exampleDecimal 7 0).value = 7 := by decide +kernel
    change 0 ≤ truncate (exampleDecimal 7 0).value ∧ truncate (exampleDecimal 7 0).value < 2 ^ 64
    rw [hvolume]
    decide

/-- The bars of the two rows close at 1.5 and 2.5. -/
theorem bars_of_file_exampleFile : ∃ endpoint,
    init exactPython (some exampleFile.text) = some endpoint ∧
      ∀ json castOutOfRange csvPath,
        (barsRead json endpoint).map (fun bar => bar.ohlcv.close) = [3 / 2, 5 / 2] ∧
          createBarsFromCSV some castOutOfRange csvPath (some exampleFile.text)
            = .ok ((barsRead json endpoint).map Bar.doubles) := by
  obtain ⟨endpoint, hinit, hbars⟩ := bars_of_file exampleFile
    (by
      rintro row hrow
      obtain rfl | rfl : row = _ ∨ row = _ := by simpa [exampleFile] using hrow
      all_goals exact exampleRow_representable _ _)
    exactPython_reads
  refine ⟨endpoint, hinit, fun json castOutOfRange csvPath => ?_⟩
  obtain ⟨hread, hcreate⟩ := hbars json castOutOfRange csvPath
  refine ⟨?_, hcreate⟩
  rw [hread]
  decide +kernel

end MacdTradingBot
