import MacdTradingBot.Csv.Bars
import MacdTradingBot.Feed.Messages

/-!
# Volumes

A volume reaches a bar through a `double` from a CSV file, and through a JSON number from the feed. Which
numbers come through unchanged, and when both ways give the same bar (`volumesExact_iff`).
-/

namespace MacdTradingBot

/-! ## Casts -/

/-- A number that the type of a volume holds. -/
def IsVolume (x : ℚ) : Prop := ∃ n : ℕ, n < 2 ^ 64 ∧ (n : ℚ) = x

/-- The number has at most 53 significant bits. -/
def FitsSignificand (n : ℕ) : Prop := 2 ^ (n.log2 - 52) ∣ n

instance (n : ℕ) : Decidable (FitsSignificand n) :=
  inferInstanceAs (Decidable (_ ∣ _))

/-- Every `uint64_t` is a volume. -/
theorem isVolume_toNat (volume : UInt64) : IsVolume volume.toNat :=
  ⟨volume.toNat, volume.toNat_lt, rfl⟩

/-- Rounding changes the other numbers. -/
theorem roundSignificand_eq_iff (n : ℕ) : roundSignificand n = n ↔ FitsSignificand n := by
  unfold roundSignificand FitsSignificand
  dsimp only
  constructor
  · intro h
    have hdvd : 2 ^ (n.log2 - 52) ∣ roundSignificand n := by
      unfold roundSignificand
      dsimp only
      split
      · exact Nat.dvd_mul_left _ _
      · exact Nat.dvd_mul_left _ _
    unfold roundSignificand at hdvd
    rwa [h] at hdvd
  · intro h
    have hrest : n % 2 ^ (n.log2 - 52) = 0 := Nat.mod_eq_zero_of_dvd h
    rw [hrest, if_neg]
    · exact Nat.div_mul_cancel h
    · have hpos : 0 < 2 ^ (n.log2 - 52) := by positivity
      omega

/-- Up to `2 ^ 53` nothing is lost. -/
theorem fitsSignificand_of_lt {n : ℕ} (h : n < 2 ^ 53) : FitsSignificand n :=
  (roundSignificand_eq_iff n).mp (roundSignificand_of_lt h)

/-- A whole number is not truncated. -/
theorem truncate_natCast (n : ℕ) : truncate n = n := by
  have hnonneg : (0 : ℚ) ≤ n := Nat.cast_nonneg n
  rw [truncate, if_pos hnonneg]
  exact @Int.floor_natCast ℚ _ _ _ _ n

/-- In range the truncated number is converted to itself. -/
theorem toNat_ofNat_truncate {d : ℚ} (h : 0 ≤ truncate d ∧ truncate d < 2 ^ 64) :
    ((UInt64.ofNat (truncate d).toNat).toNat : ℚ) = truncate d := by
  obtain ⟨n, hn⟩ := Int.eq_ofNat_of_zero_le h.1
  rw [hn] at h ⊢
  rw [Int.toNat_natCast, UInt64.toNat_ofNat_of_lt']
  · rfl
  · have hlt := h.2
    rw [UInt64.size]
    omega

/-- A cast is exact, whatever it gives out of range, when the number is in range and has no fraction. -/
theorem castUInt64_exact_iff {d x : ℚ} : (∀ outOfRange, ((castUInt64 outOfRange d).toNat : ℚ) = x) ↔
    (0 ≤ truncate d ∧ truncate d < 2 ^ 64) ∧ (truncate d : ℚ) = x := by
  constructor
  · intro h
    have hrange : 0 ≤ truncate d ∧ truncate d < 2 ^ 64 := by
      by_contra hout
      have hzero := h 0
      have hone := h 1
      rw [castUInt64, if_neg hout] at hzero hone
      rw [← hzero, Nat.cast_inj] at hone
      cases hone
    have hcast := h 0
    rw [castUInt64, if_pos hrange, toNat_ofNat_truncate hrange] at hcast
    exact ⟨hrange, hcast⟩
  · rintro ⟨hrange, hx⟩ outOfRange
    rw [castUInt64, if_pos hrange, toNat_ofNat_truncate hrange, hx]

/-- A volume is cast to itself. -/
theorem toNat_castUInt64 {x : ℚ} (h : IsVolume x) (outOfRange : UInt64) :
    ((castUInt64 outOfRange x).toNat : ℚ) = x := by
  obtain ⟨n, hn, rfl⟩ := h
  rw [castUInt64_exact_iff.mpr]
  rw [truncate_natCast]
  exact ⟨by omega, Int.cast_natCast n⟩

/-- The cast of the rounded number is the number itself, whatever happens out of range. -/
theorem castUInt64_round_iff {n : ℕ} (hn : n < 2 ^ 64) :
    (∀ outOfRange, ((castUInt64 outOfRange (roundSignificand n)).toNat : ℚ) = n) ↔ FitsSignificand n := by
  rw [← roundSignificand_eq_iff]
  constructor
  · intro h
    obtain ⟨-, htruncate⟩ := castUInt64_exact_iff.mp h
    rwa [truncate_natCast, Int.cast_natCast, Nat.cast_inj] at htruncate
  · intro h outOfRange
    rw [h]
    exact toNat_castUInt64 ⟨n, hn, rfl⟩ outOfRange

/-! ## Messages -/

/-- The number that a JSON number stands for. -/
def Json.number? : Json → Option ℚ
  | numberUnsigned n => some n.toNat
  | numberInteger n => some n.toInt
  | numberFloat x => some x
  | _ => none

/-- A volume that is signed is converted to itself. -/
theorem toNat_toUInt64 {n : Int64} (h : IsVolume n.toInt) : (n.toUInt64.toNat : ℚ) = n.toInt := by
  obtain ⟨m, hm, hmn⟩ := h
  have hint : n.toInt = m := by exact_mod_cast hmn.symm
  have hbits : n.toInt = if 2 * n.toUInt64.toNat < 2 ^ 64 then (n.toUInt64.toNat : ℤ)
      else (n.toUInt64.toNat : ℤ) - (2 ^ 64 : ℕ) := BitVec.toInt_eq_toNat_cond n.toBitVec
  have hlt := n.toUInt64.toNat_lt
  have heq : n.toUInt64.toNat = m := by
    split at hbits <;> omega
  rw [hint, heq]
  rfl

/-- Reading a number as a volume is exact for the numbers that are volumes. -/
theorem toNat_of_getUInt64 {value : Json} {x : ℚ} (hnumber : value.number? = some x) (hx : IsVolume x)
    {json : Nlohmann} {volume : UInt64} (h : value.getUInt64 json = .ok volume) :
    (volume.toNat : ℚ) = x := by
  cases value with
  | numberUnsigned n =>
    obtain rfl := Option.some.inj hnumber
    rw [← Except.ok.inj h]
  | numberInteger n =>
    obtain rfl := Option.some.inj hnumber
    rw [← Except.ok.inj h]
    exact toNat_toUInt64 hx
  | numberFloat y =>
    obtain rfl := Option.some.inj hnumber
    rw [← Except.ok.inj h]
    exact toNat_castUInt64 hx _
  | _ => cases hnumber

open AlpacaWSMarketFeed in
/-- The bars that the message brings have the number of the message as their volume. -/
def MessageVolumeExact {ω : Type} (setting : Setting ω) (feed : AlpacaWSMarketFeed ω) (message : Json) :
    Prop :=
  ∀ bar, .bar bar ∈ (parseBarMessage setting message feed).outputs →
    (message.find? "v").bind Json.number? = some (bar.volume.toNat : ℚ)

open AlpacaWSMarketFeed in
/-- A message that has a bar is taken exactly when its volume is a non-negative integer below `2 ^ 64`. -/
theorem messageVolume_iff {ω : Type} (setting : Setting ω) (feed : AlpacaWSMarketFeed ω)
    (message : Json) : MessageVolumeExact setting feed message ↔
      (HasBar message → ∃ x, (message.find? "v").bind Json.number? = some x ∧ IsVolume x) := by
  constructor
  · intro h hbar
    obtain ⟨bar, hread⟩ := (readBar_ok_iff setting.json).mpr hbar
    have hexact := h bar
    rw [parseBarMessage_of_ok setting feed message hread, List.mem_singleton] at hexact
    exact ⟨_, hexact rfl, isVolume_toNat _⟩
  · intro h bar hbar
    cases hread : readBar setting.json message with
    | error f =>
      rw [parseBarMessage_of_error setting feed message hread] at hbar
      cases hbar
    | ok read =>
      rw [parseBarMessage_of_ok setting feed message hread, List.mem_singleton] at hbar
      obtain rfl := Output.bar.inj hbar
      obtain ⟨x, hx, hvolume⟩ := h ((readBar_ok_iff setting.json).mp ⟨bar, hread⟩)
      obtain ⟨-, -, -, -, -, ⟨value, hfind, hget⟩, -⟩ := (readBar_eq_ok_iff setting.json).mp hread
      rw [hfind, Option.bind_some] at hx ⊢
      rw [hx, toNat_of_getUInt64 hx hvolume hget]

/-! ## Lines -/

/-- Whatever an undefined cast gives, the bar of a line has the number in its seventh column as its
volume. -/
def LineVolumeExact (toDouble : ℚ → Option ℚ) (line : List Char) : Prop :=
  ∀ castOutOfRange bar, createBarFromCSVLine toDouble castOutOfRange line = .ok bar →
    ∃ columns, csvColumns line = some columns ∧
      strtod columns.volume = some (.finite (bar.volume.toNat : ℚ))

/-- The columns give a bar: prices and a volume that `std::stod` takes, and a timestamp. -/
def CsvColumns.HasBar (toDouble : ℚ → Option ℚ) (columns : CsvColumns) : Prop :=
  (∀ text ∈ [columns.open, columns.high, columns.low, columns.close, columns.volume],
    ∃ d, stod toDouble text = .ok d) ∧
  ∃ minute, parseRFC3339UTCTimestamp (String.ofList columns.timestamp) = .ok minute

/-- Volumes are rounded to a significand of 53 bits. -/
def RoundsVolumes (toDouble : ℚ → Option ℚ) : Prop :=
  ∀ n : ℕ, n < 2 ^ 64 → toDouble n = some (roundSignificand n : ℚ)

/-- `std::stod` rounds a volume to 53 bits. -/
theorem RoundsVolumes.stod_eq {toDouble : ℚ → Option ℚ} (hround : RoundsVolumes toDouble)
    {text : List Char} {n : ℕ} (hn : n < 2 ^ 64) (h : strtod text = some (.finite n)) :
    stod toDouble text = .ok (.finite (roundSignificand n)) := by
  rw [stod, h]
  dsimp only
  rw [hround n hn]

/-- A line whose columns can be read has a bar. -/
theorem CsvColumns.HasBar.exists_bar {toDouble : ℚ → Option ℚ} {columns : CsvColumns}
    (h : columns.HasBar toDouble) {line : List Char} (hcolumns : csvColumns line = some columns)
    (castOutOfRange : Double → UInt64) :
    ∃ bar, createBarFromCSVLine toDouble castOutOfRange line = .ok bar ∧
      ∃ d, stod toDouble columns.volume = .ok d ∧ castDouble castOutOfRange d = bar.volume := by
  obtain ⟨hnumbers, ts, hts⟩ := h
  simp only [List.forall_mem_cons, List.not_mem_nil, false_imp_iff, implies_true, and_true] at hnumbers
  obtain ⟨⟨«open», hopen⟩, ⟨high, hhigh⟩, ⟨low, hlow⟩, ⟨close, hclose⟩, d, hd⟩ := hnumbers
  refine ⟨⟨String.ofList columns.symbol, ⟨«open», high, low, close, castDouble castOutOfRange d⟩, ts⟩,
    ?_, d, hd, rfl⟩
  rw [createBarFromCSVLine_eq_ok_iff]
  exact ⟨columns, hcolumns, hopen, hhigh, hlow, hclose, ⟨d, hd, rfl⟩, hts, rfl⟩

/-- Only a line whose columns can be read has a bar. -/
theorem hasBar_of_createBarFromCSVLine {toDouble : ℚ → Option ℚ} {castOutOfRange : Double → UInt64}
    {line : List Char} {bar : Bar1min Double}
    (h : createBarFromCSVLine toDouble castOutOfRange line = .ok bar) :
    ∃ columns, csvColumns line = some columns ∧ columns.HasBar toDouble ∧
      ∃ d, stod toDouble columns.volume = .ok d ∧ castDouble castOutOfRange d = bar.volume := by
  obtain ⟨columns, hcolumns, hopen, hhigh, hlow, hclose, ⟨d, hd, hcast⟩, hts, -⟩ :=
    createBarFromCSVLine_eq_ok_iff.mp h
  refine ⟨columns, hcolumns, ⟨?_, _, hts⟩, d, hd, hcast⟩
  simp only [List.forall_mem_cons, List.not_mem_nil, false_imp_iff, implies_true, and_true]
  exact ⟨⟨_, hopen⟩, ⟨_, hhigh⟩, ⟨_, hlow⟩, ⟨_, hclose⟩, d, hd⟩

/-- A line that has a bar is taken exactly when its volume is a non-negative integer below `2 ^ 64` with at
most 53 significant bits. -/
theorem lineVolume_iff {toDouble : ℚ → Option ℚ} (hround : RoundsVolumes toDouble) (line : List Char) :
    LineVolumeExact toDouble line ↔ ∀ columns, csvColumns line = some columns → columns.HasBar toDouble →
      ∃ n : ℕ, n < 2 ^ 64 ∧ FitsSignificand n ∧ strtod columns.volume = some (.finite n) := by
  constructor
  · intro h columns hcolumns hbar
    have hexact : ∀ castOutOfRange, ∃ d, stod toDouble columns.volume = .ok d ∧
        strtod columns.volume = some (.finite ((castDouble castOutOfRange d).toNat : ℚ)) := by
      intro castOutOfRange
      obtain ⟨bar, hread, d, hd, hcast⟩ := hbar.exists_bar hcolumns castOutOfRange
      obtain ⟨columns', hcolumns', hnumber⟩ := h castOutOfRange bar hread
      rw [hcolumns, Option.some.injEq] at hcolumns'
      subst hcolumns'
      exact ⟨d, hd, by rw [hcast, hnumber]⟩
    obtain ⟨d, -, hnumber⟩ := hexact fun _ => 0
    obtain ⟨n, hn, hvalue⟩ := isVolume_toNat (castDouble (fun _ => 0) d)
    rw [← hvalue] at hnumber
    have hstod := hround.stod_eq hn hnumber
    refine ⟨n, hn, ?_, hnumber⟩
    rw [← castUInt64_round_iff hn]
    intro outOfRange
    obtain ⟨d', hd', hnumber'⟩ := hexact fun _ => outOfRange
    rw [hstod, Except.ok.injEq] at hd'
    subst hd'
    rw [hnumber, Option.some.injEq, Double.finite.injEq] at hnumber'
    exact hnumber'.symm
  · intro h castOutOfRange bar hread
    obtain ⟨columns, hcolumns, hbar, d, hd, hcast⟩ := hasBar_of_createBarFromCSVLine hread
    obtain ⟨n, hn, hfits, hnumber⟩ := h columns hcolumns hbar
    rw [hround.stod_eq hn hnumber, (roundSignificand_eq_iff n).mpr hfits, Except.ok.injEq] at hd
    subst hd
    refine ⟨columns, hcolumns, ?_⟩
    rw [hnumber, ← hcast, castDouble, toNat_castUInt64 ⟨n, hn, rfl⟩]

/-! ## Both ways -/

/-- The bar, with prices that may be any doubles. -/
def Bar.doubles (bar : Bar1min ℚ) : Bar1min Double where
  symbol := bar.symbol
  ohlcv := ⟨.finite bar.open, .finite bar.high, .finite bar.low, .finite bar.close, bar.volume⟩
  timestamp := bar.timestamp

/-- The columns and the message say the same, with the volume written in digits. -/
structure SameData (toDouble : ℚ → Option ℚ) (columns : CsvColumns) (message : Json) (n : ℕ) : Prop where
  symbol : message.find? "S" = some (.string (String.ofList columns.symbol))
  prices : ∀ price ∈ [("o", columns.open), ("h", columns.high), ("l", columns.low), ("c", columns.close)],
    ∃ value x, message.find? price.1 = some value ∧ value.getDouble = .ok x ∧
      stod toDouble price.2 = .ok (.finite x)
  timestamp : ∃ text minute, message.find? "t" = some (.string text) ∧
    parseRFC3339UTCTimestamp text = .ok minute ∧
    parseRFC3339UTCTimestamp (String.ofList columns.timestamp) = .ok minute
  message_volume : message.find? "v" = some (.numberUnsigned (UInt64.ofNat n))
  column_volume : columns.volume ≠ [] ∧ (∀ c ∈ columns.volume, c.isDigit = true) ∧
    GetTime.digitsValue columns.volume = n
  lt : n < 2 ^ 64

open AlpacaWSMarketFeed in
/-- What both ways make of the same data. -/
theorem SameData.bars {toDouble : ℚ → Option ℚ} (hround : RoundsVolumes toDouble) {columns : CsvColumns}
    {message : Json} {n : ℕ} (h : SameData toDouble columns message n) {line : List Char}
    (hcolumns : csvColumns line = some columns) : ∃ bar : Bar1min ℚ, bar.volume.toNat = n ∧
      (∀ json, readBar json message = .ok bar) ∧
      ∀ castOutOfRange, createBarFromCSVLine toDouble castOutOfRange line
        = .ok { bar.doubles with ohlcv := { bar.doubles.ohlcv with
            volume := castDouble castOutOfRange (.finite (roundSignificand n)) } } := by
  have hprices := h.prices
  simp only [List.forall_mem_cons, List.not_mem_nil, false_imp_iff, implies_true, and_true] at hprices
  obtain ⟨⟨o, «open», ho, hopen, hopen'⟩, ⟨hi, high, hhi, hhigh, hhigh'⟩, ⟨l, low, hl, hlow, hlow'⟩,
    c, close, hc, hclose, hclose'⟩ := hprices
  obtain ⟨text, minute, htext, hminute, hminute'⟩ := h.timestamp
  obtain ⟨hne, hdigits, hvalue⟩ := h.column_volume
  refine ⟨⟨String.ofList columns.symbol, ⟨«open», high, low, close, UInt64.ofNat n⟩, minute⟩,
    UInt64.toNat_ofNat_of_lt' h.lt, fun json => ?_, fun castOutOfRange => ?_⟩
  · rw [readBar_eq_ok_iff]
    exact ⟨⟨_, h.symbol, rfl⟩, ⟨o, ho, hopen⟩, ⟨hi, hhi, hhigh⟩, ⟨l, hl, hlow⟩, ⟨c, hc, hclose⟩,
      ⟨_, h.message_volume, rfl⟩, text, htext, hminute⟩
  · have hvolume := strtod_digits hdigits hne
    rw [hvalue] at hvolume
    rw [createBarFromCSVLine_eq_ok_iff]
    exact ⟨columns, hcolumns, hopen', hhigh', hlow', hclose',
      ⟨_, hround.stod_eq h.lt hvolume, rfl⟩, hminute', rfl⟩

open AlpacaWSMarketFeed in
/-- The feed emits one bar for the message, and the line gives the same one. -/
def SameBar {ω : Type} (setting : Setting ω) (feed : AlpacaWSMarketFeed ω) (message : Json)
    (toDouble : ℚ → Option ℚ) (line : List Char) : Prop :=
  ∃ bar, (parseBarMessage setting message feed).outputs = [.bar bar] ∧
    ∀ castOutOfRange, createBarFromCSVLine toDouble castOutOfRange line = .ok bar.doubles

open AlpacaWSMarketFeed in
/-- The two ways agree exactly on the volumes of at most 53 significant bits. -/
theorem sameBar_iff {toDouble : ℚ → Option ℚ} (hround : RoundsVolumes toDouble) {columns : CsvColumns}
    {message : Json} {n : ℕ} (h : SameData toDouble columns message n) {line : List Char}
    (hcolumns : csvColumns line = some columns) {ω : Type} (setting : Setting ω)
    (feed : AlpacaWSMarketFeed ω) :
    SameBar setting feed message toDouble line ↔ FitsSignificand n := by
  obtain ⟨bar, hvolume, hread, hcreate⟩ := h.bars hround hcolumns
  have houtputs : (parseBarMessage setting message feed).outputs = [.bar bar] := by
    rw [parseBarMessage_of_ok setting feed message (hread setting.json)]
  rw [← castUInt64_round_iff h.lt]
  constructor
  · rintro ⟨bar', hbar', hline⟩ outOfRange
    obtain rfl : bar = bar' := by simpa [houtputs] using hbar'
    have hsame := hline fun _ => outOfRange
    rw [hcreate, Except.ok.injEq] at hsame
    have hcast : castUInt64 outOfRange (roundSignificand n) = bar.volume :=
      congrArg (fun b => b.ohlcv.volume) hsame
    rw [hcast, hvolume]
  · intro hcast
    refine ⟨bar, houtputs, fun castOutOfRange => ?_⟩
    have hsame : castDouble castOutOfRange (.finite (roundSignificand n)) = bar.volume := by
      refine UInt64.toNat_inj.mp ?_
      have htoNat := hcast (castOutOfRange (.finite (roundSignificand n)))
      rw [Nat.cast_inj] at htoNat
      rw [hvolume]
      exact htoNat
    rw [hcreate, hsame]
    rfl

open AlpacaWSMarketFeed in
/-- The volume of a bar is the number in its source: for the messages exactly when this is a volume, for
the lines exactly when it also has at most 53 significant bits; and the same data gives the same bar both
ways in the latter case only. -/
theorem volumesExact_iff {toDouble : ℚ → Option ℚ} (hround : RoundsVolumes toDouble) {ω : Type}
    (setting : Setting ω) (feed : AlpacaWSMarketFeed ω) :
    (∀ message, MessageVolumeExact setting feed message ↔
      (HasBar message → ∃ x, (message.find? "v").bind Json.number? = some x ∧ IsVolume x)) ∧
    (∀ line, LineVolumeExact toDouble line ↔
      ∀ columns, csvColumns line = some columns → columns.HasBar toDouble →
        ∃ n : ℕ, n < 2 ^ 64 ∧ FitsSignificand n ∧ strtod columns.volume = some (.finite n)) ∧
    ∀ line columns message n, csvColumns line = some columns → SameData toDouble columns message n →
      (SameBar setting feed message toDouble line ↔ FitsSignificand n) :=
  ⟨messageVolume_iff setting feed, lineVolume_iff hround,
    fun _ _ _ _ hcolumns hdata => sameBar_iff hround hdata hcolumns setting feed⟩

/-- A rounding that is the one of `double` on the integers of these examples. -/
def roundIntegers (x : ℚ) : Option ℚ :=
  some (if x.den = 1 ∧ 0 ≤ x then (roundSignificand x.num.toNat : ℚ) else x)

/-- Rounding whole numbers alone rounds volumes. -/
theorem roundsVolumes_roundIntegers : RoundsVolumes roundIntegers := by
  intro n _
  simp [roundIntegers]

/-- A bar message of Alpaca, and a line with the same data. -/
def exampleMessage (volume : Json) : Json :=
  .object [("T", .string "b"), ("S", .string "AAPL"), ("o", .numberUnsigned 17), ("h", .numberUnsigned 18),
    ("l", .numberUnsigned 16), ("c", .numberFloat (35 / 2)), ("v", volume),
    ("t", .string "2025-05-19T13:30:00Z")]

def exampleColumns (volume : String) : CsvColumns :=
  ⟨"AAPL".toList, "2025-05-19 13:30:00+00:00".toList, "17".toList, "18".toList, "16".toList, "17.5".toList,
    volume.toList⟩

theorem sameData_example : SameData roundIntegers (exampleColumns "2165968")
    (exampleMessage (.numberUnsigned 2165968)) 2165968 where
  symbol := rfl
  prices := by
    simp only [List.forall_mem_cons, List.not_mem_nil, false_imp_iff, implies_true, and_true]
    exact ⟨⟨_, 17, rfl, by decide +kernel, by decide +kernel⟩,
      ⟨_, 18, rfl, by decide +kernel, by decide +kernel⟩,
      ⟨_, 16, rfl, by decide +kernel, by decide +kernel⟩, _, 35 / 2, rfl, rfl, by decide +kernel⟩
  timestamp := ⟨"2025-05-19T13:30:00Z", 29127690, rfl, by decide +kernel, by decide +kernel⟩
  message_volume := rfl
  column_volume := ⟨by decide, List.all_eq_true.mp (by decide), by decide⟩
  lt := by decide

open AlpacaWSMarketFeed in
theorem sameBar_example : SameBar ⟨⟨fun _ => none, fun _ => none, fun _ => 0⟩, {}, Subscriber.ignore⟩
    { world := () } (exampleMessage (.numberUnsigned 2165968)) roundIntegers
    "AAPL,2025-05-19 13:30:00+00:00,17,18,16,17.5,2165968".toList :=
  ((volumesExact_iff roundsVolumes_roundIntegers _ _).2.2 _ (exampleColumns "2165968") _ 2165968 rfl
    sameData_example).mpr (fitsSignificand_of_lt (by decide))

open AlpacaWSMarketFeed in
/-- An odd number past `2 ^ 53` loses its last bit, and a negative number wraps around. -/
theorem volumes_lost : ¬ LineVolumeExact roundIntegers
      "AAPL,2025-05-19 13:30:00+00:00,17,18,16,17.5,9007199254740993".toList ∧
    ¬ MessageVolumeExact ⟨⟨fun _ => none, fun _ => none, fun _ => 0⟩, {}, Subscriber.ignore⟩
      { world := () } (exampleMessage (.numberInteger (-1))) := by
  constructor
  · rw [lineVolume_iff roundsVolumes_roundIntegers]
    intro h
    have hbar : (exampleColumns "9007199254740993").HasBar roundIntegers := by
      refine ⟨?_, 29127690, by decide +kernel⟩
      simp only [List.forall_mem_cons, List.not_mem_nil, false_imp_iff, implies_true, and_true]
      exact ⟨⟨.finite 17, by decide +kernel⟩, ⟨.finite 18, by decide +kernel⟩,
        ⟨.finite 16, by decide +kernel⟩, ⟨.finite (35 / 2), by decide +kernel⟩,
        .finite 9007199254740992, by decide +kernel⟩
    obtain ⟨n, -, hfits, hnumber⟩ := h (exampleColumns "9007199254740993") rfl hbar
    rw [show strtod (exampleColumns "9007199254740993").volume = some (.finite 9007199254740993) by
      decide +kernel, Option.some.injEq, Double.finite.injEq] at hnumber
    have hn : n = 9007199254740993 := by exact_mod_cast hnumber.symm
    rw [hn] at hfits
    exact absurd hfits (by decide +kernel)
  · rw [messageVolume_iff]
    intro h
    have hbar : HasBar (exampleMessage (.numberInteger (-1))) := by
      refine ⟨?_, "2025-05-19T13:30:00Z", 29127690, rfl, by decide +kernel⟩
      simp only [barMembers, List.forall_mem_cons, List.not_mem_nil, false_imp_iff, implies_true, and_true]
      exact ⟨⟨_, rfl, rfl⟩, ⟨_, rfl, rfl⟩, ⟨_, rfl, rfl⟩, ⟨_, rfl, rfl⟩, ⟨_, rfl, rfl⟩, ⟨_, rfl, rfl⟩,
        _, rfl, rfl⟩
    obtain ⟨x, hx, n, -, hn⟩ := h hbar
    have hnegative : (-1 : ℚ) = x := Option.some.inj hx
    rw [← hnegative] at hn
    have hnonneg : (0 : ℚ) ≤ n := Nat.cast_nonneg n
    rw [hn] at hnonneg
    norm_num at hnonneg

end MacdTradingBot
