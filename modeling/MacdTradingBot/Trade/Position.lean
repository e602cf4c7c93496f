import MacdTradingBot.Trade.Enums

/-!
# Positions

`position.hpp` and its part of `json_utils.cpp`.
-/

namespace MacdTradingBot

/-- `position`. -/
structure Position where
  assetId : Bytes := []
  symbol : Bytes := []
  exchange : AssetExchange := .amex
  assetClassType : AssetClass := .usEquity
  avgEntryPrice : Bytes := []
  qty : Bytes := []
  qtyAvailable : Option Bytes := none
  side : PositionSide := .long
  marketValue : Bytes := []
  costBasis : Bytes := []
  unrealizedPl : Bytes := []
  unrealizedPlpc : Bytes := []
  unrealizedIntradayPl : Bytes := []
  unrealizedIntradayPlpc : Bytes := []
  currentPrice : Bytes := []
  lastdayPrice : Bytes := []
  changeToday : Bytes := []
  assetMarginable : Bool := false

/-- `tag_invoke(value_to_tag<position>)`. -/
def Position.valueToTag (jv : JsonValue) : Except JsonError Position := do
  let obj ← jv.asObject
  return {
    assetId := ← valueTo Bytes (← obj.at "asset_id")
    symbol := ← valueTo Bytes (← obj.at "symbol")
    exchange := ← valueTo AssetExchange (← obj.at "exchange")
    assetClassType := ← valueTo AssetClass (← obj.at "asset_class")
    avgEntryPrice := ← valueTo Bytes (← obj.at "avg_entry_price")
    qty := ← valueTo Bytes (← obj.at "qty")
    side := ← valueTo PositionSide (← obj.at "side")
    marketValue := ← valueTo Bytes (← obj.at "market_value")
    costBasis := ← valueTo Bytes (← obj.at "cost_basis")
    unrealizedPl := ← valueTo Bytes (← obj.at "unrealized_pl")
    unrealizedPlpc := ← valueTo Bytes (← obj.at "unrealized_plpc")
    unrealizedIntradayPl := ← valueTo Bytes (← obj.at "unrealized_intraday_pl")
    unrealizedIntradayPlpc := ← valueTo Bytes (← obj.at "unrealized_intraday_plpc")
    currentPrice := ← valueTo Bytes (← obj.at "current_price")
    lastdayPrice := ← valueTo Bytes (← obj.at "lastday_price")
    changeToday := ← valueTo Bytes (← obj.at "change_today")
    assetMarginable := ← valueTo Bool (← obj.at "asset_marginable")
    qtyAvailable := ← obj.optional Bytes "qty_available" }

instance : ValueTo Position := ⟨Position.valueToTag⟩

/-- `tag_invoke(value_from_tag, position)`. -/
def Position.valueFromTag (pos : Position) : Except JsonError JsonValue := do
  return .object (JsonObject.assign
    [("asset_id", some (.string pos.assetId)),
     ("symbol", some (.string pos.symbol)),
     ("exchange", some (← valueFrom pos.exchange)),
     ("asset_class", some (← valueFrom pos.assetClassType)),
     ("avg_entry_price", some (.string pos.avgEntryPrice)),
     ("qty", some (.string pos.qty)),
     ("side", some (← valueFrom pos.side)),
     ("market_value", some (.string pos.marketValue)),
     ("cost_basis", some (.string pos.costBasis)),
     ("unrealized_pl", some (.string pos.unrealizedPl)),
     ("unrealized_plpc", some (.string pos.unrealizedPlpc)),
     ("unrealized_intraday_pl", some (.string pos.unrealizedIntradayPl)),
     ("unrealized_intraday_plpc", some (.string pos.unrealizedIntradayPlpc)),
     ("current_price", some (.string pos.currentPrice)),
     ("lastday_price", some (.string pos.lastdayPrice)),
     ("change_today", some (.string pos.changeToday)),
     ("asset_marginable", some (.bool pos.assetMarginable)),
     ("qty_available", pos.qtyAvailable.map .string)])

instance : ValueFrom Position := ⟨Position.valueFromTag⟩

end MacdTradingBot
