import MacdTradingBot.Trade.Enums

/-!
# The trade account

`account.hpp` and its part of `json_utils.cpp`. The reader and the writer are two lists of members, each in
the order of the source.
-/

namespace MacdTradingBot

/-- `trade_account`. -/
structure TradeAccount where
  id : Bytes := []
  currency : Bytes := bytes "USD"
  status : AccountStatus := .accountClosed
  accountNumber : Option Bytes := none
  cash : Option Bytes := none
  portfolioValue : Option Bytes := none
  nonMarginableBuyingPower : Option Bytes := none
  accruedFees : Option Bytes := none
  pendingTransferIn : Option Bytes := none
  pendingTransferOut : Option Bytes := none
  createdAt : Option Bytes := none
  longMarketValue : Option Bytes := none
  shortMarketValue : Option Bytes := none
  equity : Option Bytes := none
  lastEquity : Option Bytes := none
  multiplier : Option Bytes := none
  buyingPower : Option Bytes := none
  initialMargin : Option Bytes := none
  maintenanceMargin : Option Bytes := none
  sma : Option Bytes := none
  balanceAsof : Option Bytes := none
  lastMaintenanceMargin : Option Bytes := none
  daytradingBuyingPower : Option Bytes := none
  regtBuyingPower : Option Bytes := none
  optionsBuyingPower : Option Bytes := none
  intradayAdjustments : Option Bytes := none
  pendingRegTafFees : Option Bytes := none
  daytradeCount : Option Int32 := none
  optionsApprovedLevel : Option Int32 := none
  optionsTradingLevel : Option Int32 := none
  patternDayTrader : Option Bool := none
  tradeSuspendedByUser : Option Bool := none
  tradingBlocked : Option Bool := none
  transfersBlocked : Option Bool := none
  accountBlocked : Option Bool := none
  shortingEnabled : Option Bool := none

/-- `tag_invoke(value_to_tag<trade_account>)`. -/
def TradeAccount.valueToTag (jv : JsonValue) : Except JsonError TradeAccount := do
  let obj ← jv.asObject
  return {
    id := ← valueTo Bytes (← obj.at "id")
    status := ← valueTo AccountStatus (← obj.at "status")
    currency := ← valueTo Bytes (← obj.at "currency")
    accountNumber := ← obj.optional Bytes "account_number"
    cash := ← obj.optional Bytes "cash"
    portfolioValue := ← obj.optional Bytes "portfolio_value"
    nonMarginableBuyingPower := ← obj.optional Bytes "non_marginable_buying_power"
    accruedFees := ← obj.optional Bytes "accrued_fees"
    pendingTransferIn := ← obj.optional Bytes "pending_transfer_in"
    pendingTransferOut := ← obj.optional Bytes "pending_transfer_out"
    createdAt := ← obj.optional Bytes "created_at"
    longMarketValue := ← obj.optional Bytes "long_market_value"
    shortMarketValue := ← obj.optional Bytes "short_market_value"
    equity := ← obj.optional Bytes "equity"
    lastEquity := ← obj.optional Bytes "last_equity"
    multiplier := ← obj.optional Bytes "multiplier"
    buyingPower := ← obj.optional Bytes "buying_power"
    initialMargin := ← obj.optional Bytes "initial_margin"
    maintenanceMargin := ← obj.optional Bytes "maintenance_margin"
    sma := ← obj.optional Bytes "sma"
    balanceAsof := ← obj.optional Bytes "balance_asof"
    lastMaintenanceMargin := ← obj.optional Bytes "last_maintenance_margin"
    daytradingBuyingPower := ← obj.optional Bytes "daytrading_buying_power"
    regtBuyingPower := ← obj.optional Bytes "regt_buying_power"
    optionsBuyingPower := ← obj.optional Bytes "options_buying_power"
    intradayAdjustments := ← obj.optional Bytes "intraday_adjustments"
    pendingRegTafFees := ← obj.optional Bytes "pending_reg_taf_fees"
    daytradeCount := ← obj.optional Int32 "daytrade_count"
    optionsApprovedLevel := ← obj.optional Int32 "options_approved_level"
    optionsTradingLevel := ← obj.optional Int32 "options_trading_level"
    patternDayTrader := ← obj.optional Bool "pattern_day_trader"
    tradeSuspendedByUser := ← obj.optional Bool "trade_suspended_by_user"
    tradingBlocked := ← obj.optional Bool "trading_blocked"
    transfersBlocked := ← obj.optional Bool "transfers_blocked"
    accountBlocked := ← obj.optional Bool "account_blocked"
    shortingEnabled := ← obj.optional Bool "shorting_enabled" }

instance : ValueTo TradeAccount := ⟨TradeAccount.valueToTag⟩

/-- `tag_invoke(value_from_tag, trade_account)`. -/
def TradeAccount.valueFromTag (account : TradeAccount) : Except JsonError JsonValue := do
  return .object (JsonObject.assign
    [("id", some (.string account.id)),
     ("currency", some (.string account.currency)),
     ("status", some (← valueFrom account.status)),
     ("account_number", account.accountNumber.map .string),
     ("cash", account.cash.map .string),
     ("portfolio_value", account.portfolioValue.map .string),
     ("non_marginable_buying_power", account.nonMarginableBuyingPower.map .string),
     ("accrued_fees", account.accruedFees.map .string),
     ("pending_transfer_in", account.pendingTransferIn.map .string),
     ("pending_transfer_out", account.pendingTransferOut.map .string),
     ("created_at", account.createdAt.map .string),
     ("long_market_value", account.longMarketValue.map .string),
     ("short_market_value", account.shortMarketValue.map .string),
     ("equity", account.equity.map .string),
     ("last_equity", account.lastEquity.map .string),
     ("multiplier", account.multiplier.map .string),
     ("buying_power", account.buyingPower.map .string),
     ("initial_margin", account.initialMargin.map .string),
     ("maintenance_margin", account.maintenanceMargin.map .string),
     ("sma", account.sma.map .string),
     ("balance_asof", account.balanceAsof.map .string),
     ("last_maintenance_margin", account.lastMaintenanceMargin.map .string),
     ("daytrading_buying_power", account.daytradingBuyingPower.map .string),
     ("regt_buying_power", account.regtBuyingPower.map .string),
     ("options_buying_power", account.optionsBuyingPower.map .string),
     ("intraday_adjustments", account.intradayAdjustments.map .string),
     ("pending_reg_taf_fees", account.pendingRegTafFees.map .string),
     ("daytrade_count", account.daytradeCount.map .ofInt),
     ("options_approved_level", account.optionsApprovedLevel.map .ofInt),
     ("options_trading_level", account.optionsTradingLevel.map .ofInt),
     ("pattern_day_trader", account.patternDayTrader.map .bool),
     ("trade_suspended_by_user", account.tradeSuspendedByUser.map .bool),
     ("trading_blocked", account.tradingBlocked.map .bool),
     ("transfers_blocked", account.transfersBlocked.map .bool),
     ("account_blocked", account.accountBlocked.map .bool),
     ("shorting_enabled", account.shortingEnabled.map .bool)])

instance : ValueFrom TradeAccount := ⟨TradeAccount.valueFromTag⟩

end MacdTradingBot
