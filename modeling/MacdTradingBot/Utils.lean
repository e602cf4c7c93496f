import MacdTradingBot.Market.Bar

/-!
# Timestamps

`Utils.cpp`: the RFC 3339 timestamps of the feed and of the CSV files. `getTime` is `std::get_time` for the
conversions of the two formats, and `timegm` is the calendar of the C library.
-/

namespace MacdTradingBot

/-- `std::invalid_argument`. -/
structure InvalidArgument where
  what : String
deriving DecidableEq, Repr

/-- `std::tm`, less the fields that `timegm` does not read. `year` counts from 1900, `mon` from January. -/
structure Tm where
  year : ℤ := 0
  mon : ℕ := 0
  mday : ℕ := 0
  hour : ℕ := 0
  min : ℕ := 0
  sec : ℕ := 0
deriving DecidableEq, Repr

/-- `isspace`. -/
def isSpace (c : Char) : Bool := c = ' ' || (9 ≤ c.toNat && c.toNat ≤ 13)

namespace GetTime

/-- The conversions `%Y`, `%m`, `%d`, `%H`, `%M` and `%S`. -/
inductive Field
  | year | month | day | hour | minute | second
deriving DecidableEq, Repr

/-- A piece of a format: a conversion, white space, or any other character. -/
inductive Piece
  | field (f : Field)
  | space
  | literal (c : Char)
deriving DecidableEq, Repr

/-- The least and the greatest value of a field, and its greatest number of digits. -/
def Field.range : Field → ℕ × ℕ × ℕ
  | year => (0, 9999, 4)
  | month => (1, 12, 2)
  | day => (1, 31, 2)
  | hour => (0, 23, 2)
  | minute => (0, 59, 2)
  | second => (0, 60, 2)

def Field.set (value : ℕ) (tm : Tm) : Field → Tm
  | year => { tm with year := value - 1900 }
  | month => { tm with mon := value - 1 }
  | day => { tm with mday := value }
  | hour => { tm with hour := value }
  | minute => { tm with min := value }
  | second => { tm with sec := value }

def digitsValue (digits : List Char) : ℕ :=
  digits.foldl (fun value c => value * 10 + (c.toNat - '0'.toNat)) 0

/-- The digits of a field are read as far as they go. `%d` may have a space before it. -/
def Field.extract (f : Field) (s : List Char) : Option (ℕ × List Char) :=
  let s := if f = day ∧ (s.head?.any isSpace) then s.tail else s
  let (least, greatest, width) := f.range
  let digits := (s.take width).takeWhile Char.isDigit
  let value := digitsValue digits
  if digits ≠ [] ∧ least ≤ value ∧ value ≤ greatest then
    some (value, s.drop digits.length)
  else
    none

/-- `std::time_get::get`; `none` when it sets `failbit`. Characters after the last piece stay unread. -/
def get : List Piece → List Char → Tm → Option Tm
  | [], _, tm => some tm
  | _ :: _, [], _ => none
  | .field f :: format, s, tm =>
    match f.extract s with
    | none => none
    -- the end of the text sets `eofbit`, which ends the loop over the format, but not `failbit`
    | some (value, []) => some (f.set value tm)
    | some (value, rest) => get format rest (f.set value tm)
  | .space :: format, s, tm => get format (s.dropWhile isSpace) tm
  | .literal l :: format, c :: s, tm => if c.toLower = l.toLower then get format s tm else none

end GetTime

/-- `ss >> std::get_time(&tm, format)`, which skips leading white space first. -/
def getTime (format : List GetTime.Piece) (text : List Char) : Option Tm :=
  GetTime.get format (text.dropWhile isSpace) {}

def isLeap (year : ℤ) : Bool := year % 4 = 0 && (year % 100 ≠ 0 || year % 400 = 0)

/-- The days of the year before the first of the month, which counts from January. -/
def daysBeforeMonth (year : ℤ) (mon : ℕ) : ℕ :=
  [0, 31, 59, 90, 120, 151, 181, 212, 243, 273, 304, 334].getD mon 0
    + if isLeap year && 2 ≤ mon then 1 else 0

/-- The days from the epoch to January 1 of the year. -/
def daysBeforeYear (year : ℤ) : ℤ :=
  365 * (year - 1) + (year - 1) / 4 - (year - 1) / 100 + (year - 1) / 400 - 719162

/-- `timegm`: seconds since the epoch. A day after the end of the month is a day of the next one. -/
def timegm (tm : Tm) : ℤ :=
  let year := tm.year + 1900
  let days := daysBeforeYear year + daysBeforeMonth year tm.mon + (tm.mday - 1)
  ((days * 24 + tm.hour) * 60 + tm.min) * 60 + tm.sec

/-- `std::chrono::system_clock::from_time_t`. The ticks of the clock are nanoseconds in 64 bits. -/
def fromTimeT (t : ℤ) : ℤ := (t * ChronoDuration.seconds.nanos).bmod (2 ^ 64)

def parseHelper (timestamp : List Char) (format : List GetTime.Piece) : Except InvalidArgument ℤ :=
  match getTime format timestamp with
  | none => .error ⟨"Invalid timestamp format"⟩
  | some tm => .ok (durationCast .nanoseconds .minutes (fromTimeT (timegm tm)))

/-- The format `%Y-%m-%dT%H:%M:%S`, or the same with another separator than `T`. -/
def dateTimeFormat (separator : GetTime.Piece) : List GetTime.Piece :=
  [.field .year, .literal '-', .field .month, .literal '-', .field .day, separator,
    .field .hour, .literal ':', .field .minute, .literal ':', .field .second]

/-- `parseRFC3339UTCTimestamp`: minutes since the epoch. -/
def parseRFC3339UTCTimestamp (timestamp : String) : Except InvalidArgument ℤ :=
  let s := timestamp.toList
  if s.getLast? = some 'Z' ∨ s.getLast? = some 'z' then
    parseHelper s (dateTimeFormat (.literal 'T'))
  else if "+00:00".toList.isSuffixOf s then
    parseHelper s (dateTimeFormat .space)
  else
    .error ⟨"timestamp must be UTC (end with 'Z' or '+00:00')"⟩

example : parseRFC3339UTCTimestamp "2025-05-19T13:30:00Z" = .ok (1747661400 / 60) := by
  decide +kernel

end MacdTradingBot
