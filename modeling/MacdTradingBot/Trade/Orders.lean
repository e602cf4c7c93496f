import MacdTradingBot.Trade.Enums

/-!
# Orders

`orders.hpp` and its part of `json_utils.cpp`. An order has its legs, again orders.
-/

namespace MacdTradingBot

/-- `order`. -/
structure Order where
  id : Bytes := []
  clientOrderId : Bytes := []
  createdAt : Bytes := []
  updatedAt : Option Bytes := none
  submittedAt : Option Bytes := none
  filledAt : Option Bytes := none
  expiredAt : Option Bytes := none
  canceledAt : Option Bytes := none
  failedAt : Option Bytes := none
  replacedAt : Option Bytes := none
  replacedBy : Option Bytes := none
  replaces : Option Bytes := none
  assetId : Bytes := []
  symbol : Bytes := []
  assetClassType : AssetClass := .usEquity
  notional : Option Bytes := none
  qty : Option Bytes := none
  filledQty : Bytes := []
  filledAvgPrice : Option Bytes := none
  orderClassType : OrderClass := .simple
  type : OrderType := .market
  side : OrderSide := .buy
  timeInForceType : TimeInForce := .day
  limitPrice : Option Bytes := none
  stopPrice : Option Bytes := none
  status : OrderStatus := .new
  extendedHours : Bool := false
  legs : Option (List Order) := none
  trailPercent : Option Bytes := none
  trailPrice : Option Bytes := none
  hwm : Option Bytes := none
  positionIntentType : Option PositionIntent := none

/-- A leg is smaller than its order. -/
theorem Order.sizeOf_lt_of_mem_legs {o leg : Order} {legs : List Order} (hlegs : o.legs = some legs)
    (hleg : leg ∈ legs) : sizeOf leg < sizeOf o := by
  have hlt : sizeOf leg < sizeOf legs := List.sizeOf_lt_of_mem hleg
  cases o
  simp only at hlegs
  subst hlegs
  simp only [Order.mk.sizeOf_spec, Option.some.sizeOf_spec]
  omega

/-- `tag_invoke(value_to_tag<order>)`. The legs are parts of the object, so the recursion ends. -/
def Order.valueToTag (jv : JsonValue) : Except JsonError Order :=
  jv.withObject fun obj _ => do
    return {
      id := ← valueTo Bytes (← obj.at "id")
      clientOrderId := ← valueTo Bytes (← obj.at "client_order_id")
      createdAt := ← valueTo Bytes (← obj.at "created_at")
      assetId := ← valueTo Bytes (← obj.at "asset_id")
      symbol := ← valueTo Bytes (← obj.at "symbol")
      assetClassType := ← valueTo AssetClass (← obj.at "asset_class")
      filledQty := ← valueTo Bytes (← obj.at "filled_qty")
      orderClassType := ← valueTo OrderClass (← obj.at "order_class")
      type := ← valueTo OrderType (← obj.at "order_type")
      side := ← valueTo OrderSide (← obj.at "side")
      timeInForceType := ← valueTo TimeInForce (← obj.at "time_in_force")
      status := ← valueTo OrderStatus (← obj.at "status")
      extendedHours := ← valueTo Bool (← obj.at "extended_hours")
      updatedAt := ← obj.optional Bytes "updated_at"
      submittedAt := ← obj.optional Bytes "submitted_at"
      filledAt := ← obj.optional Bytes "filled_at"
      expiredAt := ← obj.optional Bytes "expired_at"
      canceledAt := ← obj.optional Bytes "canceled_at"
      failedAt := ← obj.optional Bytes "failed_at"
      replacedAt := ← obj.optional Bytes "replaced_at"
      replacedBy := ← obj.optional Bytes "replaced_by"
      replaces := ← obj.optional Bytes "replaces"
      notional := ← obj.optional Bytes "notional"
      qty := ← obj.optional Bytes "qty"
      filledAvgPrice := ← obj.optional Bytes "filled_avg_price"
      limitPrice := ← obj.optional Bytes "limit_price"
      stopPrice := ← obj.optional Bytes "stop_price"
      trailPercent := ← obj.optional Bytes "trail_percent"
      trailPrice := ← obj.optional Bytes "trail_price"
      hwm := ← obj.optional Bytes "hwm"
      positionIntentType := ← obj.optional PositionIntent "position_intent"
      legs := ← obj.optionalMember "legs" fun legs _ => legs.toVector fun leg _ => Order.valueToTag leg }
termination_by sizeOf jv
decreasing_by
  rename_i hobj hlegs hleg
  rw [hobj]
  exact hleg.trans hlegs

/-- `tag_invoke(value_from_tag, order)`. -/
def Order.valueFromTag (o : Order) : Except JsonError JsonValue := do
  return .object (JsonObject.assign
    [("id", some (.string o.id)),
     ("client_order_id", some (.string o.clientOrderId)),
     ("created_at", some (.string o.createdAt)),
     ("asset_id", some (.string o.assetId)),
     ("symbol", some (.string o.symbol)),
     ("asset_class", some (← valueFrom o.assetClassType)),
     ("filled_qty", some (.string o.filledQty)),
     ("order_class", some (← valueFrom o.orderClassType)),
     ("order_type", some (← valueFrom o.type)),
     ("side", some (← valueFrom o.side)),
     ("time_in_force", some (← valueFrom o.timeInForceType)),
     ("status", some (← valueFrom o.status)),
     ("extended_hours", some (.bool o.extendedHours)),
     ("updated_at", o.updatedAt.map .string),
     ("submitted_at", o.submittedAt.map .string),
     ("filled_at", o.filledAt.map .string),
     ("expired_at", o.expiredAt.map .string),
     ("canceled_at", o.canceledAt.map .string),
     ("failed_at", o.failedAt.map .string),
     ("replaced_at", o.replacedAt.map .string),
     ("replaced_by", o.replacedBy.map .string),
     ("replaces", o.replaces.map .string),
     ("notional", o.notional.map .string),
     ("qty", o.qty.map .string),
     ("filled_avg_price", o.filledAvgPrice.map .string),
     ("limit_price", o.limitPrice.map .string),
     ("stop_price", o.stopPrice.map .string),
     ("trail_percent", o.trailPercent.map .string),
     ("trail_price", o.trailPrice.map .string),
     ("hwm", o.hwm.map .string),
     ("position_intent", ← o.positionIntentType.mapM valueFrom),
     ("legs", ← JsonValue.writeOptional o.legs fun legs _ =>
       JsonValue.vectorFrom legs fun leg _ => Order.valueFromTag leg)])
termination_by sizeOf o
decreasing_by
  rename_i hlegs hleg
  exact Order.sizeOf_lt_of_mem_legs hlegs hleg

instance : ValueTo Order := ⟨Order.valueToTag⟩
instance : ValueFrom Order := ⟨Order.valueFromTag⟩

/-- `position_closed`. -/
structure PositionClosed where
  symbol : Bytes := []
  status : Int32 := 0
  orderDetails : Order := {}

/-- `tag_invoke(value_to_tag<position_closed>)`. -/
def PositionClosed.valueToTag (jv : JsonValue) : Except JsonError PositionClosed := do
  let obj ← jv.asObject
  return {
    symbol := ← valueTo Bytes (← obj.at "symbol")
    status := ← valueTo Int32 (← obj.at "status")
    orderDetails := ← valueTo Order (← obj.at "body") }

instance : ValueTo PositionClosed := ⟨PositionClosed.valueToTag⟩

/-- `tag_invoke(value_from_tag, position_closed)`. -/
def PositionClosed.valueFromTag (pc : PositionClosed) : Except JsonError JsonValue := do
  return .object (JsonObject.assign
    [("symbol", some (.string pc.symbol)),
     ("status", some (.ofInt pc.status)),
     ("body", some (← valueFrom pc.orderDetails))])

instance : ValueFrom PositionClosed := ⟨PositionClosed.valueFromTag⟩

/-- `order_deleted`. -/
structure OrderDeleted where
  id : Bytes := []
  status : Int32 := 0

/-- `tag_invoke(value_to_tag<order_deleted>)`. -/
def OrderDeleted.valueToTag (jv : JsonValue) : Except JsonError OrderDeleted := do
  let obj ← jv.asObject
  return {
    id := ← valueTo Bytes (← obj.at "id")
    status := ← valueTo Int32 (← obj.at "status") }

instance : ValueTo OrderDeleted := ⟨OrderDeleted.valueToTag⟩

/-- `tag_invoke(value_from_tag, order_deleted)`. -/
def OrderDeleted.valueFromTag (od : OrderDeleted) : Except JsonError JsonValue := do
  return .object (JsonObject.assign
    [("id", some (.string od.id)),
     ("status", some (.ofInt od.status))])

instance : ValueFrom OrderDeleted := ⟨OrderDeleted.valueFromTag⟩

/-- `notional_order`. -/
structure NotionalOrder where
  symbol : Bytes := []
  notional : Bytes := []
  side : OrderSide := .buy
  extendedHours : Bool := false
  clientOrderId : Bytes := []

/-- `tag_invoke(value_to_tag<notional_order>)`. -/
def NotionalOrder.valueToTag (jv : JsonValue) : Except JsonError NotionalOrder := do
  let obj ← jv.asObject
  return {
    symbol := ← valueTo Bytes (← obj.at "symbol")
    notional := ← valueTo Bytes (← obj.at "notional")
    side := ← valueTo OrderSide (← obj.at "side")
    extendedHours := ← valueTo Bool (← obj.at "extended_hours")
    clientOrderId := ←
      -- a member that is there is read, also when it is null
      match obj.lookup "client_order_id" with
      | some jv => valueTo Bytes jv
      | none => pure [] }

instance : ValueTo NotionalOrder := ⟨NotionalOrder.valueToTag⟩

/-- `tag_invoke(value_from_tag, notional_order)`. -/
def NotionalOrder.valueFromTag (order : NotionalOrder) : Except JsonError JsonValue := do
  return .object (JsonObject.assign
    [("symbol", some (.string order.symbol)),
     ("notional", some (.string order.notional)),
     ("side", some (← valueFrom order.side)),
     ("type", some (.string (bytes "market"))),
     ("time_in_force", some (.string (bytes "day"))),
     ("extended_hours", some (.bool order.extendedHours)),
     ("client_order_id",
       if order.clientOrderId ≠ [] then some (.string order.clientOrderId) else none)])

instance : ValueFrom NotionalOrder := ⟨NotionalOrder.valueFromTag⟩

end MacdTradingBot
