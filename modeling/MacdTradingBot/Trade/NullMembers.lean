import MacdTradingBot.Trade.RoundTrip

/-!
# Members that are null

For a decoder, a member that it does not require may be null as well as absent. The decoders say so member
by member (`optional`), and one of them forgets it once: `toleratesNull_iff`.
-/

namespace MacdTradingBot

open JsonValue JsonObject

/-! ## The decoders -/

/-- The decoders of objects with optional members, and of a closed position, which holds an order. -/
inductive Decoder
  | tradeAccount | position | order | positionClosed | notionalOrder
deriving DecidableEq, Repr

namespace Decoder

def Value : Decoder → Type
  | tradeAccount => TradeAccount
  | position => Position
  | order => Order
  | positionClosed => PositionClosed
  | notionalOrder => NotionalOrder

def decode : (d : Decoder) → JsonValue → Except JsonError d.Value
  | tradeAccount => TradeAccount.valueToTag
  | position => Position.valueToTag
  | order => Order.valueToTag
  | positionClosed => PositionClosed.valueToTag
  | notionalOrder => NotionalOrder.valueToTag

/-- The members without which the decoder fails. -/
def required : Decoder → List String
  | tradeAccount => ["id", "status", "currency"]
  | position =>
    ["asset_id", "symbol", "exchange", "asset_class", "avg_entry_price", "qty", "side", "market_value",
      "cost_basis", "unrealized_pl", "unrealized_plpc", "unrealized_intraday_pl",
      "unrealized_intraday_plpc", "current_price", "lastday_price", "change_today", "asset_marginable"]
  | order =>
    ["id", "client_order_id", "created_at", "asset_id", "symbol", "asset_class", "filled_qty",
      "order_class", "order_type", "side", "time_in_force", "status", "extended_hours"]
  | positionClosed => ["symbol", "status", "body"]
  | notionalOrder => ["symbol", "notional", "side", "extended_hours"]

end Decoder

/-- The same value, or failure in both cases. -/
def SameOutcome {α : Type} (outcome outcome' : Except JsonError α) : Prop :=
  outcome.toOption = outcome'.toOption

/-- The objects have the same members, but for one key. -/
def AgreeOff (key : String) (obj obj' : JsonObject) : Prop := ∀ k, k ≠ key → obj.lookup k = obj'.lookup k

/-- An optional member under `key` that is absent is set to null, or one that is null is removed: in the
object itself, in a leg of an order at any depth, or in the order of a closed position. -/
inductive NullStep : Decoder → String → JsonValue → JsonValue → Prop
  | set {d : Decoder} {key : String} {obj obj' : JsonObject} (hkey : key ∉ d.required)
      (hagree : AgreeOff key obj obj') (habsent : obj.lookup key = none)
      (hnull : obj'.lookup key = some .null) : NullStep d key (.object obj) (.object obj')
  | remove {d : Decoder} {key : String} {obj obj' : JsonObject} (hkey : key ∉ d.required)
      (hagree : AgreeOff key obj obj') (hnull : obj.lookup key = some .null)
      (habsent : obj'.lookup key = none) : NullStep d key (.object obj) (.object obj')
  | leg {key : String} {obj obj' : JsonObject} {before after : List JsonValue} {leg leg' : JsonValue}
      (hleg : NullStep .order key leg leg') (hagree : AgreeOff "legs" obj obj')
      (hlegs : obj.lookup "legs" = some (.array (before ++ leg :: after)))
      (hlegs' : obj'.lookup "legs" = some (.array (before ++ leg' :: after))) :
      NullStep .order key (.object obj) (.object obj')
  | body {key : String} {obj obj' : JsonObject} {body body' : JsonValue}
      (hbody : NullStep .order key body body') (hagree : AgreeOff "body" obj obj')
      (hlookup : obj.lookup "body" = some body) (hlookup' : obj'.lookup "body" = some body') :
      NullStep .positionClosed key (.object obj) (.object obj')

/-- One member has one key. -/
theorem lookup_singleton_of_ne {key k : String} (h : k ≠ key) (jv : JsonValue) :
    List.lookup k [(key, jv)] = none := by
  simp [h]

/-- What follows under one key does not matter for the others. -/
theorem agreeOff_append (key : String) (obj : JsonObject) (members members' : JsonObject)
    (h : AgreeOff key members members') : AgreeOff key (obj ++ members) (obj ++ members') := by
  intro k hk
  rw [List.lookup_append, List.lookup_append, h k hk]

/-- Two values under one key do not matter for the others. -/
theorem agreeOff_singleton (key : String) (jv jv' : JsonValue) : AgreeOff key [(key, jv)] [(key, jv')] := by
  intro k hk
  rw [lookup_singleton_of_ne hk, lookup_singleton_of_ne hk]

/-- `obj[key] = nullptr` on an object without the key is a step. -/
theorem NullStep.setNull {d : Decoder} {key : String} {obj : JsonObject} (hkey : key ∉ d.required)
    (h : obj.lookup key = none) : NullStep d key (.object obj) (.object (obj ++ [(key, .null)])) := by
  refine .set hkey (fun k hk => ?_) h ?_
  · rw [List.lookup_append, lookup_singleton_of_ne hk, Option.or_none]
  · simp [List.lookup_append, h]

/-- An erased key is not found, and the others are. -/
theorem lookup_erase (key k : String) (obj : JsonObject) :
    (obj.filter fun member => member.1 ≠ key).lookup k = if k = key then none else obj.lookup k := by
  induction obj with
  | nil => simp
  | cons member obj ih =>
    obtain ⟨k', jv⟩ := member
    by_cases hkey : k' = key
    · rw [List.filter_cons_of_neg (by simpa using hkey), ih]
      split
      · rfl
      · rename_i hk
        have hne : (k == k') = false := beq_eq_false_iff_ne.mpr fun h => hk (h.trans hkey)
        rw [List.lookup_cons, hne]
    · rw [List.filter_cons_of_pos (by simpa using hkey), List.lookup_cons, ih, List.lookup_cons]
      by_cases hk : k = k'
      · simp [hk, hkey]
      · rw [beq_eq_false_iff_ne.mpr hk]

/-- `obj.erase(key)` of a null member is a step. -/
theorem NullStep.erase {d : Decoder} {key : String} {obj : JsonObject} (hkey : key ∉ d.required)
    (h : obj.lookup key = some .null) :
    NullStep d key (.object obj) (.object (obj.filter fun member => member.1 ≠ key)) := by
  refine .remove hkey (fun k hk => ?_) h ?_
  · rw [lookup_erase, if_neg hk]
  · rw [lookup_erase, if_pos rfl]

/-! ## The required members -/

/-- The object has what the decoder requires. -/
def Decoder.Complete (d : Decoder) (obj : JsonObject) : Prop :=
  ∀ key ∈ d.required, ∃ jv, obj.lookup key = some jv

/-- A member that is read has to be there, and so have the keys that are read after it. -/
theorem complete_cons {obj : JsonObject} {α β : Type} [ValueTo α] {key : String} {keys : List String}
    {next : α → Except JsonError β} {b : β}
    (h : (obj.at key >>= fun jv => valueTo α jv >>= next) = .ok b)
    (hkeys : ∀ a, next a = .ok b → ∀ k ∈ keys, ∃ jv, obj.lookup k = some jv) :
    ∀ k ∈ key :: keys, ∃ jv, obj.lookup k = some jv := by
  obtain ⟨jv, hat, h⟩ := bind_eq_ok_iff.mp h
  obtain ⟨a, -, h⟩ := bind_eq_ok_iff.mp h
  rw [List.forall_mem_cons]
  refine ⟨?_, hkeys a h⟩
  cases hlookup : obj.lookup key with
  | none => simp [JsonObject.at, hlookup] at hat
  | some jv => exact ⟨jv, rfl⟩

theorem TradeAccount.complete {obj : JsonObject} {account : TradeAccount}
    (h : valueToTag (.object obj) = .ok account) :
    Decoder.Complete .tradeAccount obj := by
  rw [valueToTag, asObject, ok_bind] at h
  iterate 3 refine complete_cons h fun _ h => ?_
  exact List.forall_mem_nil _

theorem Position.complete {obj : JsonObject} {pos : Position}
    (h : valueToTag (.object obj) = .ok pos) :
    Decoder.Complete .position obj := by
  rw [valueToTag, asObject, ok_bind] at h
  iterate 17 refine complete_cons h fun _ h => ?_
  exact List.forall_mem_nil _

theorem Order.complete {obj : JsonObject} {order : Order}
    (h : valueToTag (.object obj) = .ok order) :
    Decoder.Complete .order obj := by
  rw [valueToTag, withObject] at h
  iterate 13 refine complete_cons h fun _ h => ?_
  exact List.forall_mem_nil _

theorem PositionClosed.complete {obj : JsonObject} {pc : PositionClosed}
    (h : valueToTag (.object obj) = .ok pc) :
    Decoder.Complete .positionClosed obj := by
  rw [valueToTag, asObject, ok_bind] at h
  iterate 3 refine complete_cons h fun _ h => ?_
  exact List.forall_mem_nil _

theorem NotionalOrder.complete {obj : JsonObject} {order : NotionalOrder}
    (h : valueToTag (.object obj) = .ok order) :
    Decoder.Complete .notionalOrder obj := by
  rw [valueToTag, asObject, ok_bind] at h
  iterate 4 refine complete_cons h fun _ h => ?_
  exact List.forall_mem_nil _

/-- An order, with any optional members. -/
def exampleOrder (more : JsonObject) : JsonObject :=
  [("id", .string (bytes "61e69015")), ("client_order_id", .string (bytes "eb9e2aaa")),
    ("created_at", .string (bytes "2021-03-16T18:38:01Z")), ("asset_id", .string (bytes "b0b6dd9d")),
    ("symbol", .string (bytes "AAPL")), ("asset_class", .string (bytes "us_equity")),
    ("filled_qty", .string (bytes "0")), ("order_class", .string (bytes "mleg")),
    ("order_type", .string (bytes "limit")), ("side", .string (bytes "buy")),
    ("time_in_force", .string (bytes "day")), ("status", .string (bytes "accepted")),
    ("extended_hours", .bool false)] ++ more

/-- A notional order, with any further members. -/
def exampleRequest (more : JsonObject) : JsonObject :=
  [("symbol", .string (bytes "AAPL")), ("notional", .string (bytes "100")), ("side", .string (bytes "buy")),
    ("extended_hours", .bool false)] ++ more

/-- What a writer makes of a record is decoded; a member that it leaves out is not required. -/
theorem exists_decoded {α : Type} {write : α → Except JsonError JsonValue}
    {read : JsonValue → Except JsonError α} {a : α} (h : ReadBack write read a) {key : String}
    (hwrite : ∃ members, write a = .ok (.object (assign members)) ∧ lastValue key members = none) :
    ∃ obj : JsonObject, obj.lookup key = none ∧ ∃ value, read (.object obj) = .ok value := by
  obtain ⟨jv, hfrom, -, hto⟩ := h
  obtain ⟨members, hmembers, habsent⟩ := hwrite
  rw [hmembers] at hfrom
  obtain rfl := Except.ok.inj hfrom
  exact ⟨assign members, by rw [lookup_assign, habsent], a, hto⟩

/-- A key that is not required may be missing. -/
theorem Decoder.exists_decoded {d : Decoder} {key : String} (h : key ∉ d.required) :
    ∃ obj : JsonObject, obj.lookup key = none ∧ ∃ value, d.decode (.object obj) = .ok value := by
  cases d with
  | tradeAccount =>
    simp only [required, List.mem_cons, not_or] at h
    refine MacdTradingBot.exists_decoded (TradeAccount.roundTrip {}) ⟨_, rfl, ?_⟩
    simp [lastValue, @eq_comm _ _ key, h]
  | position =>
    simp only [required, List.mem_cons, not_or] at h
    refine MacdTradingBot.exists_decoded (Position.roundTrip {}) ⟨_, rfl, ?_⟩
    simp [lastValue, @eq_comm _ _ key, h]
  | order =>
    simp only [required, List.mem_cons, not_or] at h
    refine MacdTradingBot.exists_decoded (Order.roundTrip {}) ?_
    rw [Order.valueFromTag]
    refine ⟨_, rfl, ?_⟩
    simp [lastValue, @eq_comm _ _ key, h]
  | positionClosed =>
    simp only [required, List.mem_cons, not_or] at h
    obtain ⟨jv, hfrom, -⟩ := LawfulCodec.roundTrip ({} : PositionClosed).orderDetails
    refine MacdTradingBot.exists_decoded (PositionClosed.roundTrip {}) ?_
    rw [PositionClosed.valueFromTag, hfrom, ok_bind]
    refine ⟨_, rfl, ?_⟩
    simp [lastValue, @eq_comm _ _ key, h]
  | notionalOrder =>
    -- the writer adds members that the reader does not look at
    simp only [required, List.mem_cons, not_or] at h
    refine ⟨exampleRequest [], ?_, _, rfl⟩
    rw [List.lookup_eq_none_iff]
    simp [exampleRequest, h]

/-- The required members are exactly those without which no object can be decoded. -/
theorem Decoder.mem_required_iff (d : Decoder) (key : String) : key ∈ d.required ↔
    ∀ obj : JsonObject, obj.lookup key = none → ∀ value, d.decode (.object obj) ≠ .ok value := by
  constructor
  · intro hkey obj habsent value hvalue
    have hcomplete : d.Complete obj := by
      cases d with
      | tradeAccount => exact TradeAccount.complete hvalue
      | position => exact Position.complete hvalue
      | order => exact Order.complete hvalue
      | positionClosed => exact PositionClosed.complete hvalue
      | notionalOrder => exact NotionalOrder.complete hvalue
    obtain ⟨jv, hjv⟩ := hcomplete key hkey
    rw [habsent] at hjv
    cases hjv
  · intro h
    by_contra hkey
    obtain ⟨obj, habsent, value, hvalue⟩ := d.exists_decoded hkey
    exact h obj habsent value hvalue

/-! ## Reads that a step does not change -/

/-- Absent or null. -/
def Blank (member : Option JsonValue) : Prop := member = none ∨ member = some .null

/-- A blank member is read as none. -/
theorem readOptional_blank {α : Type} {memberTo : JsonValue → Except JsonError α}
    {member : Option JsonValue} (h : Blank member) : readOptional memberTo member = .ok none := by
  rcases h with rfl | rfl
  · rfl
  · rfl

section Reads

variable {key : String} {obj obj' : JsonObject}

/-- The other members are read the same. -/
theorem AgreeOff.at_eq (h : AgreeOff key obj obj') {k : String} (hk : k ≠ key) : obj.at k = obj'.at k := by
  rw [JsonObject.at, JsonObject.at, h k hk]

/-- A blank optional member is read the same as another blank one. -/
theorem AgreeOff.optional_eq (h : AgreeOff key obj obj') (hblank : Blank (obj.lookup key))
    (hblank' : Blank (obj'.lookup key)) (α : Type) [ValueTo α] (k : String) :
    obj.optional α k = obj'.optional α k := by
  rw [JsonObject.optional, JsonObject.optional, optionalMember_eq, optionalMember_eq]
  by_cases hk : k = key
  · rw [hk, readOptional_blank hblank, readOptional_blank hblank']
  · rw [h k hk]

end Reads

/-! ## The decoders after a step -/

section Congruences

variable {obj obj' : JsonObject}

theorem TradeAccount.valueToTag_congr
    (hat : ∀ k ∈ Decoder.required .tradeAccount, obj.at k = obj'.at k)
    (hoptional : ∀ (α : Type) [ValueTo α] k, obj.optional α k = obj'.optional α k) :
    valueToTag (.object obj) = valueToTag (.object obj') := by
  simp only [Decoder.required, List.forall_mem_cons] at hat
  simp only [TradeAccount.valueToTag, asObject, ok_bind, hat, hoptional]

theorem Position.valueToTag_congr
    (hat : ∀ k ∈ Decoder.required .position, obj.at k = obj'.at k)
    (hoptional : ∀ (α : Type) [ValueTo α] k, obj.optional α k = obj'.optional α k) :
    valueToTag (.object obj) = valueToTag (.object obj') := by
  simp only [Decoder.required, List.forall_mem_cons] at hat
  simp only [Position.valueToTag, asObject, ok_bind, hat, hoptional]

/-- The legs of an order. -/
def Order.readLegs (member : Option JsonValue) : Except JsonError (Option (List Order)) :=
  readOptional (fun legs => legs.toVector fun leg _ => Order.valueToTag leg) member

/-- The legs are read by a function of their own. -/
theorem Order.valueToTag_congr
    (hat : ∀ k ∈ Decoder.required .order, obj.at k = obj'.at k)
    (hoptional : ∀ (α : Type) [ValueTo α] k, k ≠ "legs" → obj.optional α k = obj'.optional α k)
    (hlegs : readLegs (obj.lookup "legs") = readLegs (obj'.lookup "legs")) :
    valueToTag (.object obj) = valueToTag (.object obj') := by
  simp only [Decoder.required, List.forall_mem_cons] at hat
  rw [readLegs, readLegs] at hlegs
  rw [Order.valueToTag, Order.valueToTag]
  simp (disch := decide) only [withObject, optionalMember_eq, hat, hoptional, hlegs]

/-- The legs are decoded one by one. -/
theorem Order.readLegs_congr {before after : List JsonValue} {leg leg' : JsonValue}
    (h : valueToTag leg = valueToTag leg') :
    readLegs (some (.array (before ++ leg :: after)))
      = readLegs (some (.array (before ++ leg' :: after))) := by
  simp only [readLegs, readOptional, isNull, toVector_array, List.mapM_append, List.mapM_cons, h]

/-- A member that is there is read. -/
theorem JsonObject.at_of_lookup {key : String} {jv : JsonValue} (h : obj.lookup key = some jv) :
    obj.at key = .ok jv := by
  rw [JsonObject.at, h]

theorem PositionClosed.valueToTag_congr
    (hsymbol : obj.at "symbol" = obj'.at "symbol") (hstatus : obj.at "status" = obj'.at "status")
    {body body' : JsonValue} (hlookup : obj.lookup "body" = some body)
    (hlookup' : obj'.lookup "body" = some body') (hbody : valueTo Order body = valueTo Order body') :
    valueToTag (.object obj) = valueToTag (.object obj') := by
  simp only [PositionClosed.valueToTag, asObject, ok_bind, hsymbol, hstatus, at_of_lookup hlookup,
    at_of_lookup hlookup', hbody]

/-- A closed position has no optional members of its own. -/
theorem PositionClosed.valueToTag_congr_at
    (hat : ∀ k ∈ Decoder.required .positionClosed, obj.at k = obj'.at k) :
    valueToTag (.object obj) = valueToTag (.object obj') := by
  simp only [Decoder.required, List.forall_mem_cons] at hat
  simp only [PositionClosed.valueToTag, asObject, ok_bind, hat]

theorem NotionalOrder.valueToTag_congr
    (hat : ∀ k ∈ Decoder.required .notionalOrder, obj.at k = obj'.at k)
    (hid : obj.lookup "client_order_id" = obj'.lookup "client_order_id") :
    valueToTag (.object obj) = valueToTag (.object obj') := by
  simp only [Decoder.required, List.forall_mem_cons] at hat
  simp only [NotionalOrder.valueToTag, asObject, ok_bind, hat, hid]

end Congruences

/-- An object with a blank optional member, in either way, is decoded the same, where the decoder tests for
null. -/
theorem Decoder.decode_congr {d : Decoder} {key : String} {obj obj' : JsonObject}
    (hkey : key ∉ d.required) (hagree : AgreeOff key obj obj') (hblank : Blank (obj.lookup key))
    (hblank' : Blank (obj'.lookup key)) (htested : ¬ (d = .notionalOrder ∧ key = "client_order_id")) :
    d.decode (.object obj) = d.decode (.object obj') := by
  have hat : ∀ k ∈ d.required, obj.at k = obj'.at k :=
    fun k hk => hagree.at_eq (ne_of_mem_of_not_mem hk hkey)
  have hoptional : ∀ (α : Type) [ValueTo α] k, obj.optional α k = obj'.optional α k :=
    hagree.optional_eq hblank hblank'
  cases d with
  | tradeAccount => exact TradeAccount.valueToTag_congr hat hoptional
  | position => exact Position.valueToTag_congr hat hoptional
  | order =>
    refine Order.valueToTag_congr hat (fun α _ k _ => hoptional α k) ?_
    by_cases hlegs : key = "legs"
    · rw [← hlegs, Order.readLegs, Order.readLegs, readOptional_blank hblank, readOptional_blank hblank']
    · rw [hagree "legs" (Ne.symm hlegs)]
  | positionClosed => exact PositionClosed.valueToTag_congr_at hat
  | notionalOrder =>
    refine NotionalOrder.valueToTag_congr hat (hagree _ fun hid => htested ⟨rfl, hid.symm⟩)

/-- Where the decoder tests for null, a step changes nothing. -/
theorem NullStep.decode_eq {d : Decoder} {key : String} {jv jv' : JsonValue} (h : NullStep d key jv jv')
    (htested : ¬ (d = .notionalOrder ∧ key = "client_order_id")) : d.decode jv = d.decode jv' := by
  induction h with
  | set hkey hagree habsent hnull =>
    exact Decoder.decode_congr hkey hagree (Or.inl habsent) (Or.inr hnull) htested
  | remove hkey hagree hnull habsent =>
    exact Decoder.decode_congr hkey hagree (Or.inr hnull) (Or.inl habsent) htested
  | leg hleg hagree hlegs hlegs' ih =>
    have hdecode := ih (by simp)
    refine Order.valueToTag_congr (fun k hk => hagree.at_eq ?_) (fun α _ k hk => ?_) ?_
    · rintro rfl
      simp [Decoder.required] at hk
    · rw [JsonObject.optional, JsonObject.optional, optionalMember_eq, optionalMember_eq, hagree k hk]
    · rw [hlegs, hlegs']
      exact Order.readLegs_congr hdecode
  | body hbody hagree hlookup hlookup' ih =>
    have hdecode := ih (by simp)
    exact PositionClosed.valueToTag_congr (hagree.at_eq (by decide)) (hagree.at_eq (by decide)) hlookup
      hlookup' hdecode

/-! ## The untested member -/

/-- The object has the required members of a notional order, of their types. -/
def NotionalOrder.HasRequired (jv : JsonValue) : Prop :=
  ∃ obj : JsonObject, jv = .object obj ∧ (∃ symbol, (obj.at "symbol" >>= valueTo Bytes) = .ok symbol) ∧
    (∃ notional, (obj.at "notional" >>= valueTo Bytes) = .ok notional) ∧
    (∃ side, (obj.at "side" >>= valueTo OrderSide) = .ok side) ∧
    ∃ extendedHours, (obj.at "extended_hours" >>= valueTo Bool) = .ok extendedHours

/-- The identifier is not required. -/
theorem NotionalOrder.HasRequired.congr {obj obj' : JsonObject}
    (hagree : AgreeOff "client_order_id" obj obj') (h : HasRequired (.object obj)) : HasRequired (.object obj') := by
  obtain ⟨obj, heq, hrequired⟩ := h
  obtain rfl := JsonValue.object.inj heq
  rw [hagree.at_eq (by decide), hagree.at_eq (by decide), hagree.at_eq (by decide),
    hagree.at_eq (by decide)] at hrequired
  exact ⟨obj', rfl, hrequired⟩

/-- Without an identifier the required members are enough. -/
theorem NotionalOrder.exists_ok_iff {obj : JsonObject} (habsent : obj.lookup "client_order_id" = none) :
    (∃ order, valueToTag (.object obj) = .ok order) ↔ HasRequired (.object obj) := by
  simp only [valueToTag, asObject, ok_bind, habsent, bind_eq_ok_iff]
  constructor
  · rintro ⟨order, jv₁, hsymbol, symbol, hsymbolTo, jv₂, hnotional, notional, hnotionalTo, jv₃, hside,
      side, hsideTo, jv₄, hhours, hours, hhoursTo, -⟩
    refine ⟨obj, rfl, ⟨symbol, ?_⟩, ⟨notional, ?_⟩, ⟨side, ?_⟩, hours, ?_⟩
    · rw [hsymbol, ok_bind, hsymbolTo]
    · rw [hnotional, ok_bind, hnotionalTo]
    · rw [hside, ok_bind, hsideTo]
    · rw [hhours, ok_bind, hhoursTo]
  · rintro ⟨obj, heq, ⟨symbol, hsymbol⟩, ⟨notional, hnotional⟩, ⟨side, hside⟩, hours, hhours⟩
    obtain rfl := JsonValue.object.inj heq
    rw [bind_eq_ok_iff] at hsymbol hnotional hside hhours
    obtain ⟨jv₁, hsymbol, hsymbolTo⟩ := hsymbol
    obtain ⟨jv₂, hnotional, hnotionalTo⟩ := hnotional
    obtain ⟨jv₃, hside, hsideTo⟩ := hside
    obtain ⟨jv₄, hhours, hhoursTo⟩ := hhours
    exact ⟨⟨symbol, notional, side, hours, []⟩, jv₁, hsymbol, symbol, hsymbolTo, jv₂, hnotional, notional,
      hnotionalTo, jv₃, hside, side, hsideTo, jv₄, hhours, hours, hhoursTo, [], rfl, rfl⟩

/-- A null identifier is no string. -/
theorem NotionalOrder.ne_ok_of_null {obj : JsonObject}
    (hnull : obj.lookup "client_order_id" = some .null) (order : NotionalOrder) : valueToTag (.object obj) ≠ .ok order := by
  intro h
  simp only [valueToTag, asObject, ok_bind, hnull, bind_eq_ok_iff] at h
  obtain ⟨-, -, -, -, -, -, -, -, -, -, -, -, -, -, -, -, id, hid, -⟩ := h
  cases hid

/-- A failure has no value. -/
theorem toOption_eq_none_iff {α : Type} {outcome : Except JsonError α} :
    outcome.toOption = none ↔ ∀ a, outcome ≠ .ok a := by
  cases outcome <;> simp [Except.toOption]

/-- The identifier of a notional order makes a difference when it is null. -/
theorem NotionalOrder.sameOutcome_iff {obj obj' : JsonObject}
    (habsent : obj.lookup "client_order_id" = none)
    (hnull : obj'.lookup "client_order_id" = some .null) :
    SameOutcome (valueToTag (.object obj)) (valueToTag (.object obj')) ↔ ¬ HasRequired (.object obj) := by
  rw [SameOutcome, toOption_eq_none_iff.mpr (ne_ok_of_null hnull), toOption_eq_none_iff,
    ← exists_ok_iff habsent, not_exists]

/-- A null step leaves the outcome as it is, unless it is one of a notional order, at the identifier, and
nothing else is wrong with the order. -/
theorem toleratesNull_iff {d : Decoder} {key : String} {jv jv' : JsonValue} (h : NullStep d key jv jv') :
    SameOutcome (d.decode jv) (d.decode jv') ↔
      ¬ (d = .notionalOrder ∧ key = "client_order_id" ∧ NotionalOrder.HasRequired jv) := by
  by_cases htested : d = .notionalOrder ∧ key = "client_order_id"
  · obtain ⟨rfl, rfl⟩ := htested
    simp only [true_and]
    cases h with
    | set hkey hagree habsent hnull => exact NotionalOrder.sameOutcome_iff habsent hnull
    | remove hkey hagree hnull habsent =>
      have hsame := NotionalOrder.sameOutcome_iff habsent hnull
      rw [SameOutcome, eq_comm] at hsame
      refine hsame.trans (not_congr ⟨fun hrequired => ?_, fun hrequired => ?_⟩)
      · exact hrequired.congr fun k hk => (hagree k hk).symm
      · exact hrequired.congr hagree
  · rw [h.decode_eq htested]
    refine iff_of_true rfl fun hbroken => htested ⟨hbroken.1, hbroken.2.1⟩

/-- A closed position whose order has one leg. -/
def exampleClosed (leg : JsonObject) : JsonObject :=
  [("symbol", .string (bytes "AAPL")), ("status", .int64 200)] ++
    [("body", .object (exampleOrder [("legs", .array [.object leg])]))]

/-- A member of the leg is set to null, and one of an order is erased that is null. -/
theorem toleratesNull_leg :
    SameOutcome (Decoder.decode .positionClosed (.object (exampleClosed (exampleOrder []))))
      (Decoder.decode .positionClosed
        (.object (exampleClosed (exampleOrder [] ++ [("limit_price", .null)])))) ∧
    SameOutcome (Decoder.decode .order (.object (exampleOrder [("limit_price", .null)])))
      (Decoder.decode .order (.object
        ((exampleOrder [("limit_price", .null)]).filter fun member => member.1 ≠ "limit_price"))) := by
  refine ⟨?_, (toleratesNull_iff (.erase (by decide) rfl)).mpr (by simp)⟩
  have hleg : NullStep .order "limit_price" (.object (exampleOrder []))
      (.object (exampleOrder [] ++ [("limit_price", .null)])) := .setNull (by decide) rfl
  have horder : NullStep .order "limit_price"
      (.object (exampleOrder [("legs", .array [.object (exampleOrder [])])]))
      (.object (exampleOrder [("legs", .array [.object (exampleOrder [] ++ [("limit_price", .null)])])])) :=
    @NullStep.leg _ _ _ [] [] _ _ hleg (agreeOff_append _ _ _ _ (agreeOff_singleton _ _ _)) rfl rfl
  refine (toleratesNull_iff (.body horder ?_ rfl rfl)).mpr (by simp)
  exact agreeOff_append _ _ _ _ (agreeOff_singleton _ _ _)

/-- A request to buy for 100 dollars: with a null identifier it cannot be decoded. -/
theorem null_identifier_fails :
    NullStep .notionalOrder "client_order_id" (.object (exampleRequest []))
      (.object (exampleRequest [] ++ [("client_order_id", .null)])) ∧
    ¬ SameOutcome (Decoder.decode .notionalOrder (.object (exampleRequest [])))
      (Decoder.decode .notionalOrder (.object (exampleRequest [] ++ [("client_order_id", .null)]))) := by
  refine ⟨.setNull (by decide) rfl, (not_congr (NotionalOrder.sameOutcome_iff rfl rfl)).mpr ?_⟩
  rw [not_not]
  exact ⟨_, rfl, ⟨_, rfl⟩, ⟨_, rfl⟩, ⟨_, rfl⟩, _, rfl⟩

end MacdTradingBot
