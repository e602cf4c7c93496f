import MacdTradingBot.Feed.Authentication
import MacdTradingBot.Pipeline
import MacdTradingBot.Rest.Connecting
import MacdTradingBot.Rest.Deadline
import MacdTradingBot.Rest.Handshakes
import MacdTradingBot.Rest.Progress
import MacdTradingBot.Rest.Spawning
import MacdTradingBot.WebSocket.Frames
import MacdTradingBot.WebSocket.Queue
import MacdTradingBot.WebSocket.Stopping
import MacdTradingBot.Indicators.EMAValue
import MacdTradingBot.Indicators.ATRValue
import MacdTradingBot.Indicators.Periods
import MacdTradingBot.Market.ThrowingSlots
import MacdTradingBot.Market.Chronology
import MacdTradingBot.Market.Windows
import MacdTradingBot.Market.Coverage
import MacdTradingBot.Market.TimeFrames
import MacdTradingBot.Trade.Json
import MacdTradingBot.Trade.Enums
import MacdTradingBot.Trade.Account
import MacdTradingBot.Trade.Orders
import MacdTradingBot.Trade.Position
import MacdTradingBot.Trade.RoundTrip
import MacdTradingBot.Indicators.MACDValue
import MacdTradingBot.Indicators.Scaling
import MacdTradingBot.Indicators.Trend
import MacdTradingBot.Indicators.BarCount
import MacdTradingBot.Feed.Subscriptions
import MacdTradingBot.Lib.Calendar
import MacdTradingBot.Timestamps.Scan
import MacdTradingBot.Timestamps.Digits
import MacdTradingBot.Timestamps.Formats
import MacdTradingBot.Timestamps.Parsing
import MacdTradingBot.Lib.Bits64
import MacdTradingBot.Timestamps.Overflow
import MacdTradingBot.Csv.Strtod
import MacdTradingBot.Csv.Bars
import MacdTradingBot.Csv.Volumes
import MacdTradingBot.Trade.NullMembers
import MacdTradingBot.Lib.Intervals
import MacdTradingBot.Market.Adjacency
import MacdTradingBot.Rest.Formatter
import MacdTradingBot.Lib.Keyed
import MacdTradingBot.Rest.Requests
import MacdTradingBot.Lib.Uri
import MacdTradingBot.Rest.Normalization
import MacdTradingBot.Rest.Expired
import MacdTradingBot.Rest.OneOrigin
import MacdTradingBot.Trade.Client
import MacdTradingBot.Trade.Calls
import MacdTradingBot.Rest.Destroy
import MacdTradingBot.Lib.Endless
import MacdTradingBot.WebSocket.Recovery
import MacdTradingBot.WebSocket.Liveness
import MacdTradingBot.Feed.Delivery
import MacdTradingBot.Feed.HistoricalEndpoint
import MacdTradingBot.Feed.Replay
import MacdTradingBot.Feed.FirstHandshake
import MacdTradingBot.Market.Replays
import MacdTradingBot.Backtest
import MacdTradingBot.Feed.WholeFile
import MacdTradingBot.Feed.HistoricalFile
