import MacdTradingBot.Trade.Account
import MacdTradingBot.Trade.Orders
import MacdTradingBot.Trade.Position

/-!
# The codecs are inverse to each other

For every record of the trade client, reading what was written gives the record back. The keys that a
writer assigns are distinct, so a reader finds under each key what was assigned there, and an optional
member is written exactly when it has a value.
-/

namespace MacdTradingBot

open JsonValue JsonObject

/-! ## Members -/

/-- The conversion of a member, when it is there and is not null. -/
def readOptional {α : Type} (memberTo : JsonValue → Except JsonError α) :
    Option JsonValue → Except JsonError (Option α)
  | none => .ok none
  | some jv => if jv.isNull then .ok none else some <$> memberTo jv

/-- An optional member is read from what the object has under its key. -/
theorem optionalMember_eq {α : Type} (obj : JsonObject) (key : String)
    (memberTo : JsonValue → Except JsonError α) :
    (obj.optionalMember key fun jv _ => memberTo jv) = readOptional memberTo (obj.lookup key) := by
  unfold optionalMember
  split <;> rename_i h <;> simp only [h, readOptional]

@[simp]
theorem at_assign (members : List (String × Option JsonValue)) (key : String) :
    (assign members).at key =
      match lastValue key members with
      | some jv => .ok jv
      | none => .error .outOfRange := by
  cases h : lastValue key members <;> simp only [JsonObject.at, lookup_assign, h]

@[simp]
theorem optional_assign (members : List (String × Option JsonValue)) (α : Type) [ValueTo α]
    (key : String) :
    (assign members).optional α key = readOptional (valueTo α) (lastValue key members) := by
  rw [JsonObject.optional, optionalMember_eq, lookup_assign]

/-- An optional member whose value is written without fail. -/
theorem readOptional_map {α : Type} {write : α → JsonValue} {read : JsonValue → Except JsonError α}
    (hnull : ∀ a, (write a).isNull = false) (hread : ∀ a, read (write a) = .ok a) (member : Option α) :
    readOptional read (member.map write) = .ok member := by
  cases member with
  | none => rfl
  | some a =>
    simp only [Option.map_some, readOptional, hnull, Bool.false_eq_true, if_false, hread]
    rfl

@[simp]
theorem readOptional_string (member : Option Bytes) :
    readOptional (valueTo Bytes) (member.map .string) = .ok member :=
  readOptional_map (fun _ => rfl) valueTo_string member

@[simp]
theorem readOptional_bool (member : Option Bool) :
    readOptional (valueTo Bool) (member.map .bool) = .ok member :=
  readOptional_map (fun _ => rfl) valueTo_bool member

@[simp]
theorem readOptional_ofInt (member : Option Int32) :
    readOptional (valueTo Int32) (member.map .ofInt) = .ok member :=
  readOptional_map (fun _ => rfl) valueTo_ofInt member

/-- An optional member of a type with a lawful codec. -/
theorem readOptional_mapM {α : Type} [ValueFrom α] [ValueTo α] [LawfulCodec α] (member : Option α) :
    ∃ value, member.mapM valueFrom = .ok value ∧ readOptional (valueTo α) value = .ok member := by
  cases member with
  | none => exact ⟨none, rfl, rfl⟩
  | some a =>
    obtain ⟨jv, hfrom, hnull, hto⟩ := LawfulCodec.roundTrip a
    refine ⟨some jv, ?_, ?_⟩
    · rw [Option.mapM_some, hfrom]
      rfl
    · simp only [readOptional, hnull, Bool.false_eq_true, if_false, hto]
      rfl

/-- A vector, if its elements are read back. -/
theorem mapM_roundTrip {α : Type} {elementFrom : α → Except JsonError JsonValue}
    {elementTo : JsonValue → Except JsonError α} {elements : List α}
    (h : ∀ a ∈ elements, ReadBack elementFrom elementTo a) :
    ∃ values, elements.mapM elementFrom = .ok values ∧ values.mapM elementTo = .ok elements := by
  induction elements with
  | nil => exact ⟨[], rfl, rfl⟩
  | cons a elements ih =>
    obtain ⟨jv, hfrom, -, hto⟩ := h a (by simp)
    obtain ⟨values, hvalues, helements⟩ := ih fun b hb => h b (by simp [hb])
    refine ⟨jv :: values, ?_, ?_⟩
    · rw [List.mapM_cons, hfrom, ok_bind, hvalues]
      rfl
    · rw [List.mapM_cons, hto, ok_bind, helements]
      rfl

/-- A vector is written element by element. -/
theorem vectorFrom_eq {α : Type} (elements : List α) (elementFrom : α → Except JsonError JsonValue) :
    (vectorFrom elements fun a _ => elementFrom a) = .array <$> elements.mapM elementFrom := by
  rw [vectorFrom, List.mapM_subtype fun _ _ => rfl, List.unattach_attach]

/-- An array is read element by element. -/
theorem toVector_array {α : Type} (elements : List JsonValue)
    (elementTo : JsonValue → Except JsonError α) :
    ((array elements).toVector fun element _ => elementTo element) = elements.mapM elementTo := by
  rw [toVector, List.mapM_subtype fun _ _ => rfl, List.unattach_attach]

/-! ## Records -/

theorem TradeAccount.roundTrip (account : TradeAccount) : ReadBack valueFromTag valueToTag account := by
  obtain ⟨status, hstatus, -, hstatusTo⟩ := LawfulCodec.roundTrip account.status
  refine ⟨.object ?members, ?write, rfl, ?read⟩
  case write =>
    rw [TradeAccount.valueFromTag, hstatus, ok_bind]
    rfl
  case read =>
    simp [TradeAccount.valueToTag, asObject, lastValue, hstatusTo]

instance : LawfulCodec TradeAccount := ⟨TradeAccount.roundTrip⟩

theorem Position.roundTrip (pos : Position) : ReadBack valueFromTag valueToTag pos := by
  obtain ⟨exchange, hexchange, -, hexchangeTo⟩ := LawfulCodec.roundTrip pos.exchange
  obtain ⟨assetClass, hassetClass, -, hassetClassTo⟩ := LawfulCodec.roundTrip pos.assetClassType
  obtain ⟨side, hside, -, hsideTo⟩ := LawfulCodec.roundTrip pos.side
  refine ⟨.object ?members, ?write, rfl, ?read⟩
  case write =>
    rw [Position.valueFromTag, hexchange, ok_bind, hassetClass, ok_bind, hside, ok_bind]
    rfl
  case read =>
    simp [Position.valueToTag, asObject, lastValue, hexchangeTo, hassetClassTo, hsideTo]

instance : LawfulCodec Position := ⟨Position.roundTrip⟩

/-- The legs, if each of them is read back. -/
theorem legs_roundTrip (legs : Option (List Order))
    (h : ∀ l, legs = some l → ∀ leg ∈ l,
      ReadBack Order.valueFromTag Order.valueToTag leg) :
    ∃ value, (writeOptional legs fun l _ => vectorFrom l fun leg _ => leg.valueFromTag) = .ok value ∧
      readOptional (fun jv => jv.toVector fun leg _ => Order.valueToTag leg) value = .ok legs := by
  cases legs with
  | none => exact ⟨none, rfl, rfl⟩
  | some l =>
    obtain ⟨values, hfrom, hto⟩ := mapM_roundTrip (h l rfl)
    refine ⟨some (.array values), ?_, ?_⟩
    · rw [writeOptional, vectorFrom_eq, hfrom]
      rfl
    · have hnull : (array values).isNull = false := rfl
      simp only [readOptional, hnull, Bool.false_eq_true, if_false, toVector_array, hto]
      rfl

/-- The legs are orders again: the induction is on the size of the order. -/
theorem Order.roundTrip (o : Order) : ReadBack valueFromTag valueToTag o := by
  obtain ⟨assetClass, hassetClass, -, hassetClassTo⟩ := LawfulCodec.roundTrip o.assetClassType
  obtain ⟨orderClass, horderClass, -, horderClassTo⟩ := LawfulCodec.roundTrip o.orderClassType
  obtain ⟨type, htype, -, htypeTo⟩ := LawfulCodec.roundTrip o.type
  obtain ⟨side, hside, -, hsideTo⟩ := LawfulCodec.roundTrip o.side
  obtain ⟨timeInForce, htimeInForce, -, htimeInForceTo⟩ := LawfulCodec.roundTrip o.timeInForceType
  obtain ⟨status, hstatus, -, hstatusTo⟩ := LawfulCodec.roundTrip o.status
  obtain ⟨intent, hintent, hintentTo⟩ := readOptional_mapM o.positionIntentType
  -- the legs by recursion: each is smaller than the order
  obtain ⟨legs, hlegs, hlegsTo⟩ := legs_roundTrip o.legs fun l hl leg hleg => by
    have hlt := Order.sizeOf_lt_of_mem_legs hl hleg
    exact Order.roundTrip leg
  refine ⟨.object ?members, ?write, rfl, ?read⟩
  case write =>
    rw [Order.valueFromTag, hassetClass, ok_bind, horderClass, ok_bind, htype, ok_bind, hside, ok_bind,
      htimeInForce, ok_bind, hstatus, ok_bind, hintent, ok_bind, hlegs, ok_bind]
    rfl
  case read =>
    rw [Order.valueToTag]
    simp [withObject, lastValue, optionalMember_eq, lookup_assign, hassetClassTo, horderClassTo, htypeTo,
      hsideTo, htimeInForceTo, hstatusTo, hintentTo, hlegsTo]
    cases o
    rfl
termination_by sizeOf o

instance : LawfulCodec Order := ⟨Order.roundTrip⟩

/-- The order of a closed position is read back as orders are. -/
theorem PositionClosed.roundTrip (pc : PositionClosed) : ReadBack valueFromTag valueToTag pc := by
  obtain ⟨body, hbody, -, hbodyTo⟩ := LawfulCodec.roundTrip pc.orderDetails
  refine ⟨.object ?members, ?write, rfl, ?read⟩
  case write =>
    rw [PositionClosed.valueFromTag, hbody, ok_bind]
    rfl
  case read =>
    simp [PositionClosed.valueToTag, asObject, lastValue, hbodyTo]

instance : LawfulCodec PositionClosed := ⟨PositionClosed.roundTrip⟩

theorem OrderDeleted.roundTrip (od : OrderDeleted) : ReadBack valueFromTag valueToTag od := by
  refine ⟨_, rfl, rfl, ?_⟩
  simp [OrderDeleted.valueToTag, asObject, lastValue]

instance : LawfulCodec OrderDeleted := ⟨OrderDeleted.roundTrip⟩

theorem NotionalOrder.roundTrip (order : NotionalOrder) : ReadBack valueFromTag valueToTag order := by
  obtain ⟨side, hside, -, hsideTo⟩ := LawfulCodec.roundTrip order.side
  refine ⟨.object ?members, ?write, rfl, ?read⟩
  case write =>
    rw [NotionalOrder.valueFromTag, hside, ok_bind]
    rfl
  case read =>
    -- an empty identifier is not written, and is what a reader leaves that does not find one
    by_cases hid : order.clientOrderId = []
    · simp [NotionalOrder.valueToTag, asObject, lastValue, lookup_assign, hsideTo, hid]
      rw [← hid]
    · simp [NotionalOrder.valueToTag, asObject, lastValue, lookup_assign, hsideTo, hid]

instance : LawfulCodec NotionalOrder := ⟨NotionalOrder.roundTrip⟩

/-- What a lawful codec writes it reads. -/
theorem valueTo_valueFrom {α : Type} [ValueFrom α] [ValueTo α] [LawfulCodec α] (a : α) :
    (valueFrom a >>= valueTo α) = .ok a := by
  obtain ⟨jv, hfrom, -, hto⟩ := LawfulCodec.roundTrip a
  rw [hfrom, ok_bind, hto]

/-- The codecs round-trip: every record is written, and read back as it was. -/
theorem codecs_roundTrip :
    (∀ o : Order, (valueFrom o >>= valueTo Order) = .ok o) ∧
      (∀ account : TradeAccount, (valueFrom account >>= valueTo TradeAccount) = .ok account) ∧
      (∀ pos : Position, (valueFrom pos >>= valueTo Position) = .ok pos) ∧
      (∀ pc : PositionClosed, (valueFrom pc >>= valueTo PositionClosed) = .ok pc) ∧
      (∀ od : OrderDeleted, (valueFrom od >>= valueTo OrderDeleted) = .ok od) ∧
      ∀ order : NotionalOrder, (valueFrom order >>= valueTo NotionalOrder) = .ok order :=
  ⟨valueTo_valueFrom, valueTo_valueFrom, valueTo_valueFrom, valueTo_valueFrom, valueTo_valueFrom,
    valueTo_valueFrom⟩

end MacdTradingBot
