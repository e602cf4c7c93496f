import MacdTradingBot.Trade.Json

/-!
# Enumerations as strings

`enum_serialization.hpp`: each enumeration of the trade client has a table of its enumerators and their
texts. An enumerator is written as the text of its first row, and a text is read as the enumerator of its
first row; a table that has every enumerator and no text twice makes the two inverse to each other.
-/

namespace MacdTradingBot

/-- `account_status`. -/
inductive AccountStatus
  | accountClosed | accountUpdated | actionRequired | active | amlReview | approvalPending
  | approved | disabled | disablePending | edited | inactive | kycSubmitted | limited | onboarding
  | paperOnly | reapprovalPending | rejected | resubmitted | signedUp | submissionFailed | submitted
deriving DecidableEq, Repr

/-- `asset_exchange`. -/
inductive AssetExchange
  | amex | arca | bats | nyse | nasdaq | nysearca | ftxu | cbse | gnss | ersx | otc | crypto | empty
deriving DecidableEq, Repr

/-- `asset_class`. -/
inductive AssetClass
  | usEquity | usOption | crypto
deriving DecidableEq, Repr

/-- `position_side`. -/
inductive PositionSide
  | long | short
deriving DecidableEq, Repr

/-- `order_class`. -/
inductive OrderClass
  | simple | bracket | oco | oto | mleg
deriving DecidableEq, Repr

/-- `order_type`. -/
inductive OrderType
  | market | limit | stop | stopLimit | trailingStop
deriving DecidableEq, Repr

/-- `time_in_force`. -/
inductive TimeInForce
  | day | gtc | opg | cls | ioc | fok
deriving DecidableEq, Repr

/-- `order_status`. -/
inductive OrderStatus
  | new | partiallyFilled | filled | doneForDay | canceled | expired | replaced | pendingCancel
  | pendingReplace | accepted | pendingNew | acceptedForBidding | stopped | rejected | suspended
  | calculated
deriving DecidableEq, Repr

/-- `position_intent`. -/
inductive PositionIntent
  | buyToOpen | buyToClose | sellToOpen | sellToClose
deriving DecidableEq, Repr

/-- `order_side`. -/
inductive OrderSide
  | buy | sell
deriving DecidableEq, Repr

/-! ## The tables -/

/-- `enum_mapping<EnumType>::mappings`. -/
class EnumMapping (E : Type) where
  mappings : List (E × String)

open EnumMapping (mappings)
open JsonValue

instance : EnumMapping AccountStatus where
  mappings :=
    [(.accountClosed, "ACCOUNT_CLOSED"), (.accountUpdated, "ACCOUNT_UPDATED"),
     (.actionRequired, "ACTION_REQUIRED"), (.active, "ACTIVE"), (.amlReview, "AML_REVIEW"),
     (.approvalPending, "APPROVAL_PENDING"), (.approved, "APPROVED"), (.disabled, "DISABLED"),
     (.disablePending, "DISABLE_PENDING"), (.edited, "EDITED"), (.inactive, "INACTIVE"),
     (.kycSubmitted, "KYC_SUBMITTED"), (.limited, "LIMITED"), (.onboarding, "ONBOARDING"),
     (.paperOnly, "PAPER_ONLY"), (.reapprovalPending, "REAPPROVAL_PENDING"),
     (.rejected, "REJECTED"), (.resubmitted, "RESUBMITTED"), (.signedUp, "SIGNED_UP"),
     (.submissionFailed, "SUBMISSION_FAILED"), (.submitted, "SUBMITTED")]

instance : EnumMapping AssetExchange where
  mappings :=
    [(.amex, "AMEX"), (.arca, "ARCA"), (.bats, "BATS"), (.nyse, "NYSE"), (.nasdaq, "NASDAQ"),
     (.nysearca, "NYSEARCA"), (.otc, "OTC"), (.ftxu, "FTXU"), (.cbse, "CBSE"), (.gnss, "GNSS"),
     (.ersx, "ERSX"), (.crypto, "CRYPTO"), (.empty, "")]

instance : EnumMapping AssetClass where
  mappings :=
    [(.usEquity, "us_equity"), (.usOption, "us_option"), (.crypto, "crypto")]

instance : EnumMapping PositionSide where
  mappings :=
    [(.long, "long"), (.short, "short")]

instance : EnumMapping OrderSide where
  mappings :=
    [(.buy, "buy"), (.sell, "sell")]

instance : EnumMapping OrderClass where
  mappings :=
    [(.simple, "simple"), (.bracket, "bracket"), (.oco, "oco"), (.oto, "oto"), (.mleg, "mleg")]

instance : EnumMapping OrderType where
  mappings :=
    [(.market, "market"), (.limit, "limit"), (.stop, "stop"), (.stopLimit, "stop_limit"),
     (.trailingStop, "trailing_stop")]

instance : EnumMapping TimeInForce where
  mappings :=
    [(.day, "day"), (.gtc, "gtc"), (.opg, "opg"), (.cls, "cls"), (.ioc, "ioc"), (.fok, "fok")]

instance : EnumMapping OrderStatus where
  mappings :=
    [(.new, "new"), (.partiallyFilled, "partially_filled"), (.filled, "filled"),
     (.doneForDay, "done_for_day"), (.canceled, "canceled"), (.expired, "expired"),
     (.replaced, "replaced"), (.pendingCancel, "pending_cancel"),
     (.pendingReplace, "pending_replace"), (.accepted, "accepted"), (.pendingNew, "pending_new"),
     (.acceptedForBidding, "accepted_for_bidding"), (.stopped, "stopped"), (.rejected, "rejected"),
     (.suspended, "suspended"), (.calculated, "calculated")]

instance : EnumMapping PositionIntent where
  mappings :=
    [(.buyToOpen, "buy_to_open"), (.buyToClose, "buy_to_close"), (.sellToOpen, "sell_to_open"),
     (.sellToClose, "sell_to_close")]

/-! ## Reading and writing -/

section Tags

variable {E : Type} [EnumMapping E]

/-- `enum_value_from_tag`. -/
def enumValueFromTag [DecidableEq E] (value : E) : Except JsonError JsonValue :=
  match (mappings : List (E × String)).find? fun mapping => mapping.1 = value with
  | some mapping => .ok (.string (bytes mapping.2))
  | none => .error (.invalidArgument (bytes "Invalid enum value for serialization"))

/-- `enum_value_to_tag`. -/
def enumValueToTag (jv : JsonValue) : Except JsonError E := do
  let valueStr ← valueTo Bytes jv
  match (mappings : List (E × String)).find? fun mapping => bytes mapping.2 = valueStr with
  | some mapping => return mapping.1
  | none => throw (.invalidArgument (bytes "Invalid enum string: " ++ valueStr))

/-- `enum_value_to_tag_with_fallback`. -/
def enumValueToTagWithFallback (jv : JsonValue) (fallback : E) : Except JsonError E := do
  let valueStr ← valueTo Bytes jv
  match (mappings : List (E × String)).find? fun mapping => bytes mapping.2 = valueStr with
  | some mapping => return mapping.1
  | none =>
    if valueStr = [] then return fallback
    else throw (.invalidArgument (bytes "Invalid enum string: " ++ valueStr))

/-- The table has a row for every enumerator, and no text twice. -/
class LawfulEnumMapping (E : Type) [EnumMapping E] : Prop where
  complete (value : E) : value ∈ (mappings : List (E × String)).map Prod.fst
  distinct : ((mappings : List (E × String)).map fun mapping => bytes mapping.2).Nodup

omit [EnumMapping E] in
/-- What is in the table is found, or something before it that fits as well. -/
theorem exists_find?_of_mem {rows : List (E × String)} {p : E × String → Bool} {row : E × String}
    (hrow : row ∈ rows) (hp : p row = true) :
    ∃ found ∈ rows, rows.find? p = some found ∧ p found = true := by
  obtain ⟨found, hfound⟩ := Option.isSome_iff_exists.mp (List.find?_isSome.mpr ⟨row, hrow, hp⟩)
  exact ⟨found, List.mem_of_find?_eq_some hfound, hfound, List.find?_some hfound⟩

/-- An enumerator has a text, and the first row with that text is the one of the enumerator. -/
theorem exists_text [DecidableEq E] [LawfulEnumMapping E] (value : E) :
    ∃ name : String, enumValueFromTag value = .ok (.string (bytes name)) ∧
      (mappings : List (E × String)).find? (fun mapping => bytes mapping.2 = bytes name)
        = some (value, name) := by
  obtain ⟨row, hrow, hvalue⟩ := List.mem_map.mp (LawfulEnumMapping.complete value)
  obtain ⟨⟨value', name⟩, hmem, hfind, hvalue'⟩ := exists_find?_of_mem
    (p := fun mapping => decide (mapping.1 = value)) hrow (decide_eq_true hvalue)
  obtain rfl : value' = value := of_decide_eq_true hvalue'
  -- no other row has the text, so the reader finds this one
  refine ⟨name, by rw [enumValueFromTag, hfind], ?_⟩
  obtain ⟨other, hother, hfind', htext⟩ := exists_find?_of_mem
    (p := fun mapping => decide (bytes mapping.2 = bytes name)) hmem (decide_eq_true rfl)
  have hinj := List.inj_on_of_nodup_map (LawfulEnumMapping.distinct (E := E))
  rw [hfind', hinj hother hmem (of_decide_eq_true htext)]

/-- Both readers take the enumerator from the first row with the text. -/
theorem enumValueToTag_string {name : String} {row : E × String}
    (h : (mappings : List (E × String)).find? (fun mapping => bytes mapping.2 = bytes name) = some row) :
    enumValueToTag (.string (bytes name)) = .ok row.1 ∧
      ∀ fallback, enumValueToTagWithFallback (.string (bytes name)) fallback = .ok row.1 := by
  constructor
  · rw [enumValueToTag, valueTo_string, ok_bind, h]
    rfl
  · intro fallback
    rw [enumValueToTagWithFallback, valueTo_string, ok_bind, h]
    rfl

/-- A value is read back from its name. -/
theorem enumValueToTag_roundTrip [DecidableEq E] [LawfulEnumMapping E] (value : E) :
    ReadBack enumValueFromTag enumValueToTag value := by
  obtain ⟨name, hfrom, hfind⟩ := exists_text value
  exact ⟨_, hfrom, rfl, (enumValueToTag_string hfind).1⟩

/-- The reader with a fallback reads it back too. -/
theorem enumValueToTagWithFallback_roundTrip [DecidableEq E] [LawfulEnumMapping E] (fallback value : E) :
    ReadBack enumValueFromTag (fun jv => enumValueToTagWithFallback jv fallback) value := by
  obtain ⟨name, hfrom, hfind⟩ := exists_text value
  exact ⟨_, hfrom, rfl, (enumValueToTag_string hfind).2 fallback⟩

end Tags

instance : ValueFrom AccountStatus := ⟨enumValueFromTag⟩
instance : ValueTo AccountStatus := ⟨enumValueToTag⟩

instance : ValueFrom AssetExchange := ⟨enumValueFromTag⟩
instance : ValueTo AssetExchange := ⟨enumValueToTag⟩

instance : ValueFrom AssetClass := ⟨enumValueFromTag⟩
instance : ValueTo AssetClass := ⟨enumValueToTag⟩

instance : ValueFrom PositionSide := ⟨enumValueFromTag⟩
instance : ValueTo PositionSide := ⟨enumValueToTag⟩

instance : ValueFrom OrderSide := ⟨enumValueFromTag⟩
instance : ValueTo OrderSide := ⟨enumValueToTag⟩

instance : ValueFrom OrderClass := ⟨enumValueFromTag⟩
instance : ValueTo OrderClass := ⟨fun jv => enumValueToTagWithFallback jv .simple⟩

instance : ValueFrom OrderType := ⟨enumValueFromTag⟩
instance : ValueTo OrderType := ⟨enumValueToTag⟩

instance : ValueFrom TimeInForce := ⟨enumValueFromTag⟩
instance : ValueTo TimeInForce := ⟨enumValueToTag⟩

instance : ValueFrom OrderStatus := ⟨enumValueFromTag⟩
instance : ValueTo OrderStatus := ⟨enumValueToTag⟩

instance : ValueFrom PositionIntent := ⟨enumValueFromTag⟩
instance : ValueTo PositionIntent := ⟨enumValueToTag⟩

instance : LawfulEnumMapping AccountStatus where
  complete value := by cases value <;> decide
  distinct := by decide +kernel

instance : LawfulEnumMapping AssetExchange where
  complete value := by cases value <;> decide
  distinct := by decide +kernel

instance : LawfulEnumMapping AssetClass where
  complete value := by cases value <;> decide
  distinct := by decide +kernel

instance : LawfulEnumMapping PositionSide where
  complete value := by cases value <;> decide
  distinct := by decide +kernel

instance : LawfulEnumMapping OrderSide where
  complete value := by cases value <;> decide
  distinct := by decide +kernel

instance : LawfulEnumMapping OrderClass where
  complete value := by cases value <;> decide
  distinct := by decide +kernel

instance : LawfulEnumMapping OrderType where
  complete value := by cases value <;> decide
  distinct := by decide +kernel

instance : LawfulEnumMapping TimeInForce where
  complete value := by cases value <;> decide
  distinct := by decide +kernel

instance : LawfulEnumMapping OrderStatus where
  complete value := by cases value <;> decide
  distinct := by decide +kernel

instance : LawfulEnumMapping PositionIntent where
  complete value := by cases value <;> decide
  distinct := by decide +kernel

instance : LawfulCodec AccountStatus := ⟨enumValueToTag_roundTrip⟩
instance : LawfulCodec AssetExchange := ⟨enumValueToTag_roundTrip⟩
instance : LawfulCodec AssetClass := ⟨enumValueToTag_roundTrip⟩
instance : LawfulCodec PositionSide := ⟨enumValueToTag_roundTrip⟩
instance : LawfulCodec OrderSide := ⟨enumValueToTag_roundTrip⟩
instance : LawfulCodec OrderClass := ⟨enumValueToTagWithFallback_roundTrip OrderClass.simple⟩
instance : LawfulCodec OrderType := ⟨enumValueToTag_roundTrip⟩
instance : LawfulCodec TimeInForce := ⟨enumValueToTag_roundTrip⟩
instance : LawfulCodec OrderStatus := ⟨enumValueToTag_roundTrip⟩
instance : LawfulCodec PositionIntent := ⟨enumValueToTag_roundTrip⟩

end MacdTradingBot
