import MacdTradingBot.Csv.Strtod
import MacdTradingBot.Exception
import Mathlib.Data.List.Forall2

/-!
# Bars from CSV files

`createBarFromCSVLine` and `createBarsFromCSV`. How a number is rounded to a `double`, and what a cast to
`uint64_t` gives for a `double` out of the range of the type, are parameters.
-/

namespace MacdTradingBot

/-- What the functions throw. -/
inductive CsvError
  | invalidArgument (e : InvalidArgument)
  | outOfRange (what : String)
  | runtimeError (what : String)
deriving DecidableEq, Repr

/-- What `std::getline` reads until the end of the text. The last piece needs no delimiter after it. -/
def getlines (delimiter : Char) : List Char → List (List Char)
  | [] => []
  | c :: s =>
    if c = delimiter then [] :: getlines delimiter s
    else
      match getlines delimiter s with
      | [] => [[c]]
      | line :: lines => (c :: line) :: lines

/-- `std::stod`. -/
def stod (toDouble : ℚ → Option ℚ) (text : List Char) : Except CsvError Double :=
  match strtod text with
  | none => .error (.invalidArgument ⟨"stod"⟩)
  | some (.finite x) =>
    match toDouble x with
    | some d => .ok (.finite d)
    | none => .error (.outOfRange "stod")
  | some other => .ok other

/-- The integer part. -/
def truncate (x : ℚ) : ℤ := if 0 ≤ x then x.floor else x.ceil

/-- `static_cast<uint64_t>` of a finite `double`, and its outcome out of the range of the type. -/
def castUInt64 (outOfRange : UInt64) (x : ℚ) : UInt64 :=
  if 0 ≤ truncate x ∧ truncate x < 2 ^ 64 then UInt64.ofNat (truncate x).toNat else outOfRange

def castDouble (castOutOfRange : Double → UInt64) (d : Double) : UInt64 :=
  match d with
  | .finite x => castUInt64 (castOutOfRange d) x
  | _ => castOutOfRange d

/-- The seven columns that are used. -/
structure CsvColumns where
  symbol : List Char
  timestamp : List Char
  «open» : List Char
  high : List Char
  low : List Char
  close : List Char
  volume : List Char

def csvColumns (line : List Char) : Option CsvColumns :=
  match getlines ',' line with
  | symbol :: timestamp :: «open» :: high :: low :: close :: volume :: _ =>
    some ⟨symbol, timestamp, «open», high, low, close, volume⟩
  | _ => none

def createBarFromCSVLine (toDouble : ℚ → Option ℚ) (castOutOfRange : Double → UInt64) (line : List Char) :
    Except CsvError (Bar1min Double) :=
  match csvColumns line with
  | none => .error (.invalidArgument ⟨"CSV line must have at least 7 columns"⟩)
  | some columns => do
    let «open» ← stod toDouble columns.open
    let high ← stod toDouble columns.high
    let low ← stod toDouble columns.low
    let close ← stod toDouble columns.close
    let volume := castDouble castOutOfRange (← stod toDouble columns.volume)
    match parseRFC3339UTCTimestamp (String.ofList columns.timestamp) with
    | .error e => .error (.invalidArgument e)
    | .ok ts =>
      return { symbol := String.ofList columns.symbol, ohlcv := ⟨«open», high, low, close, volume⟩,
               timestamp := ts }

/-- `createBarsFromCSV`; `content` is missing when the file cannot be opened. The header is skipped. -/
def createBarsFromCSV (toDouble : ℚ → Option ℚ) (castOutOfRange : Double → UInt64) (csvPath : String)
    (content : Option (List Char)) : Except CsvError (List (Bar1min Double)) :=
  match content with
  | none => .error (.runtimeError ("Failed to open CSV file: " ++ csvPath))
  | some text =>
    (((getlines '\n' text).drop 1).filter (· ≠ [])).mapM (createBarFromCSVLine toDouble castOutOfRange)

variable {toDouble : ℚ → Option ℚ} {castOutOfRange : Double → UInt64}

/-- A line gives a bar when it has its columns, four prices and a volume that are numbers, and a
timestamp. -/
theorem createBarFromCSVLine_eq_ok_iff {line : List Char} {bar : Bar1min Double} :
    createBarFromCSVLine toDouble castOutOfRange line = .ok bar ↔
      ∃ columns, csvColumns line = some columns ∧ stod toDouble columns.open = .ok bar.open ∧
        stod toDouble columns.high = .ok bar.high ∧ stod toDouble columns.low = .ok bar.low ∧
        stod toDouble columns.close = .ok bar.close ∧
        (∃ d, stod toDouble columns.volume = .ok d ∧ castDouble castOutOfRange d = bar.volume) ∧
        parseRFC3339UTCTimestamp (String.ofList columns.timestamp) = .ok bar.timestamp ∧
        String.ofList columns.symbol = bar.symbol := by
  unfold createBarFromCSVLine
  cases csvColumns line with
  | none => simp
  | some columns =>
    simp only [bind_eq_ok_iff, Option.some.injEq, exists_eq_left']
    constructor
    · rintro ⟨«open», hopen, high, hhigh, low, hlow, close, hclose, d, hvolume, hbar⟩
      cases hts : parseRFC3339UTCTimestamp (String.ofList columns.timestamp) with
      | error e => simp [hts] at hbar
      | ok ts =>
        rw [hts] at hbar
        obtain rfl := Except.ok.inj hbar
        exact ⟨hopen, hhigh, hlow, hclose, ⟨d, hvolume, rfl⟩, rfl, rfl⟩
    · rintro ⟨hopen, hhigh, hlow, hclose, ⟨d, hvolume, hcast⟩, hts, hsymbol⟩
      refine ⟨_, hopen, _, hhigh, _, hlow, _, hclose, d, hvolume, ?_⟩
      rw [hts, hcast, hsymbol]
      rfl

theorem mapM_eq_ok_iff {ε α β : Type} {f : α → Except ε β} {as : List α} {bs : List β} :
    as.mapM f = .ok bs ↔ List.Forall₂ (fun a b => f a = .ok b) as bs := by
  induction as generalizing bs with
  | nil =>
    rw [List.mapM_nil, List.forall₂_nil_left_iff]
    exact ⟨fun h => (Except.ok.inj h).symm, fun h => congrArg Except.ok h.symm⟩
  | cons a as ih =>
    simp only [List.mapM_cons, bind_eq_ok_iff, ih]
    constructor
    · rintro ⟨b, hb, bs, hbs, h⟩
      obtain rfl := Except.ok.inj h
      exact .cons hb hbs
    · rintro (_ | ⟨hb, hbs⟩)
      exact ⟨_, hb, _, hbs, rfl⟩

/-- A file gives the bars of its lines, in order, if each of them gives one. -/
theorem createBarsFromCSV_eq_ok_iff {csvPath : String} {text : List Char} {bars : List (Bar1min Double)} :
    createBarsFromCSV toDouble castOutOfRange csvPath (some text) = .ok bars ↔
      List.Forall₂ (fun line bar => createBarFromCSVLine toDouble castOutOfRange line = .ok bar)
        (((getlines '\n' text).drop 1).filter (· ≠ [])) bars :=
  mapM_eq_ok_iff

end MacdTradingBot
