import MacdTradingBot.Feed.Json
import MacdTradingBot.Lib.Effects
import MacdTradingBot.Utils

/-!
# The market feed

`AlpacaWSMarketFeed`, over a WebSocket session. The functions of the feed are commands: they put out the
bars that they emit and the texts that they send, in order, and may end in a fault. `start` creates the
session, and a run of the feed is a run of this session whose frame handler is `onWebsocketFrame`.
-/

namespace MacdTradingBot

namespace AlpacaWSMarketFeed

/-- `AlpacaWSMarketFeed::config`. -/
structure Config where
  apiKey : String := ""
  apiSecret : String := ""
  feed : String := "iex"
  host : String := ""
  port : String := ""
  sandbox : Bool := false
  testMode : Bool := true

/-- A bar emitted, or a text handed to the session. -/
inductive Output
  | bar (b : Bar1min ℚ)
  | sent (text : Bytes)
deriving DecidableEq, Repr

/-- What a run does not change: the JSON library, `_config`, and the slots of `_bar_signal`. The slots work
on a state of their own: they do not call the feed, and throw nothing but exceptions of the standard
library. -/
structure Setting (ω : Type) where
  json : Nlohmann
  config : Config
  slots : Subscriber (Bar1min ℚ) ω

end AlpacaWSMarketFeed

open AlpacaWSMarketFeed in
/-- The members of the feed that change, and the state of the slots. `wsSession` says whether
`_ws_session` is set. For the record, `receivedOn` is the number of the connection that the frame at hand
came from, `authenticatedOn` are the connections on which an "authenticated" message has been processed,
and `broken` is set by a fault that no exception reports. -/
structure AlpacaWSMarketFeed (ω : Type) where
  wsSession : Bool := false
  subscribedSymbols : List String := []
  authenticated : Bool := false
  subscribed : Bool := false
  world : ω
  receivedOn : ℕ := 0
  authenticatedOn : List ℕ := []
  broken : Bool := false

namespace AlpacaWSMarketFeed

variable {ω : Type}

abbrev Command (ω : Type) := Effect Fault Output (AlpacaWSMarketFeed ω)

/-- A `std::exception` is caught; the other fault is not one. -/
def isException : Fault → Bool
  | .exception _ => true
  | .missingMember _ => false

/-- `_ws_session->send(message.dump())`. -/
def sendDump (setting : Setting ω) (message : Json) (feed : AlpacaWSMarketFeed ω) : Command ω :=
  match setting.json.dump message with
  | some text => { outputs := [.sent text], state := feed }
  | none => { fault := some (.exception (.other "type_error.316")), state := feed }

def authMessage (config : Config) : Json :=
  .object [("action", .string "auth"), ("key", .string config.apiKey), ("secret", .string config.apiSecret)]

def subscribeMessage (symbols : List String) : Json :=
  .object [("action", .string "subscribe"), ("bars", .array (symbols.map .string))]

def sendAuthMessage (setting : Setting ω) (feed : AlpacaWSMarketFeed ω) : Command ω :=
  if feed.wsSession then sendDump setting (authMessage setting.config) feed else { state := feed }

def sendSubscriptionMessage (setting : Setting ω) (feed : AlpacaWSMarketFeed ω) : Command ω :=
  if feed.wsSession then
    (sendDump setting (subscribeMessage feed.subscribedSymbols) feed).andThen fun feed =>
      { state := { feed with subscribed := true } }
  else
    { state := feed }

def subscribeToBars (setting : Setting ω) (symbols : List String) (feed : AlpacaWSMarketFeed ω) :
    Command ω :=
  let feed := { feed with subscribedSymbols := symbols }
  if feed.authenticated && feed.wsSession then sendSubscriptionMessage setting feed else { state := feed }

def subscribeToAllBars (setting : Setting ω) (feed : AlpacaWSMarketFeed ω) : Command ω :=
  let feed := { feed with subscribedSymbols := ["*"] }
  if feed.authenticated && feed.wsSession then sendSubscriptionMessage setting feed else { state := feed }

/-! ## Frames -/

/-- The bar in a message, read member by member. -/
def readBar (json : Nlohmann) (message : Json) : Except Fault (Bar1min ℚ) := do
  let symbol ← (← message.subscript "S").getString
  let «open» ← (← message.subscript "o").getDouble
  let high ← (← message.subscript "h").getDouble
  let low ← (← message.subscript "l").getDouble
  let close ← (← message.subscript "c").getDouble
  let volume ← (← message.subscript "v").getUInt64 json
  let timestampStr ← (← message.subscript "t").getString
  match parseRFC3339UTCTimestamp timestampStr with
  | .error e => .error (.exception (.other e.what))
  | .ok timestamp =>
    return { symbol := symbol, ohlcv := ⟨«open», high, low, close, volume⟩, timestamp := timestamp }

/-- `_bar_signal(bar)`. The feed is as before when the slots return; a slot that throws stops the call. -/
def emitBar (setting : Setting ω) (bar : Bar1min ℚ) (feed : AlpacaWSMarketFeed ω) : Command ω :=
  { fault := match (setting.slots bar feed.world).1 with
      | .ok () => none
      | .error e => some (.exception e)
    outputs := [.bar bar]
    state := { feed with world := (setting.slots bar feed.world).2 } }

def parseBarMessage (setting : Setting ω) (message : Json) (feed : AlpacaWSMarketFeed ω) : Command ω :=
  (match readBar setting.json message with
  | .error f => { fault := some f, state := feed }
  | .ok bar => emitBar setting bar feed : Command ω).catching isException

/-- The body of the loop in `on_websocket_frame`. -/
def handleMessage (setting : Setting ω) (message : Json) (feed : AlpacaWSMarketFeed ω) : Command ω :=
  if !message.contains "T" then
    { state := feed }
  else
    match message.subscript "T" >>= Json.getString with
    | .error f => { fault := some f, state := feed }
    | .ok msgType =>
      if msgType = "success" && message.contains "msg" then
        match message.subscript "msg" >>= Json.getString with
        | .error f => { fault := some f, state := feed }
        | .ok msg =>
          if msg = "connected" then
            sendAuthMessage setting feed
          else if msg = "authenticated" then
            let feed := { feed with
              authenticated := true
              authenticatedOn := feed.authenticatedOn ++ [feed.receivedOn] }
            -- what was asked for before the authentication
            if feed.subscribedSymbols ≠ [] then sendSubscriptionMessage setting feed
            else { state := feed }
          else
            { state := feed }
      else if msgType = "b" then
        parseBarMessage setting message feed
      else
        { state := feed }

def onWebsocketFrame (setting : Setting ω) (frame : Bytes) (feed : AlpacaWSMarketFeed ω) : Command ω :=
  (match setting.json.parse frame with
  | none => { fault := some (.exception (.other "parse_error")), state := feed }
  | some (.array messages) => Effect.forEach (handleMessage setting) messages feed
  | some _ => { state := feed } : Command ω).catching isException

/-! ## The feed over its session -/

/-- The configuration that `start` gives to the session. -/
def sessionConfig (config : Config) : WebSocketSessionConfig :=
  let (host, port) :=
    if config.host ≠ "" then
      (config.host, if config.port = "" then "8765" else config.port)
    else if config.sandbox then
      ("stream.data.sandbox.alpaca.markets", "443")
    else
      ("stream.data.alpaca.markets", "443")
  let endpoint := if config.testMode then "/v2/test" else "/v2/" ++ config.feed
  { host := host, port := port, endpoint := endpoint, authMsg := [], subMsg := [] }

/-- The calls of the session in the outputs. -/
def calls (outputs : List Output) : List WebSocketSession.Call :=
  outputs.filterMap fun
    | .bar _ => none
    | .sent text => some (.send text)

/-- What the session sees of a command: its calls, and the feed afterwards. -/
def Command.perform (command : Command ω) : List WebSocketSession.Call × AlpacaWSMarketFeed ω :=
  (calls command.outputs,
    { command.state with broken := command.fault.any fun f => !isException f })

/-- The frame handler that `start` gives to the session. -/
def frameHandler (setting : Setting ω) : WebSocketSession.FrameHandler (AlpacaWSMarketFeed ω) :=
  fun connection frame feed =>
    Command.perform (onWebsocketFrame setting frame { feed with receivedOn := connection })

/-- What happens to the feed after `start`: calls by its user, and the steps of its session. -/
inductive Action
  | subscribeToBars (symbols : List String)
  | subscribeToAllBars
  | stop (isOpen : Bool)
  | wake
  | complete (operation : WebSocketSession.Operation) (outcome : WebSocketSession.Outcome)
deriving DecidableEq, Repr

/-- The step of the session. -/
def Action.onSession (setting : Setting ω) :
    Action → WebSocketSession.Action (AlpacaWSMarketFeed ω)
  | subscribeToBars symbols => .call fun feed =>
      Command.perform (AlpacaWSMarketFeed.subscribeToBars setting symbols feed)
  | subscribeToAllBars => .call fun feed =>
      Command.perform (AlpacaWSMarketFeed.subscribeToAllBars setting feed)
  | stop isOpen => .stop isOpen
  | wake => .wake
  | complete operation outcome => .complete operation outcome

/-- `start`: the session is created and started. -/
def start (setting : Setting ω) (feed : AlpacaWSMarketFeed ω) :
    WebSocketSession (AlpacaWSMarketFeed ω) :=
  WebSocketSession.start (sessionConfig setting.config)
    { handlerState := { feed with wsSession := true } }

/-- One step of the feed. After a fault that no exception reports there is none. -/
def step (setting : Setting ω) (s : WebSocketSession (AlpacaWSMarketFeed ω)) (a : Action) :
    Option (WebSocketSession (AlpacaWSMarketFeed ω)) :=
  if s.handlerState.broken then none
  else
    WebSocketSession.step (sessionConfig setting.config) (frameHandler setting) s (a.onSession setting)

/-- A run of the feed from its one `start`. Before it there is no session, and `subscribe_to_bars` and
`subscribe_to_all_bars` have only left `symbols`. -/
abbrev Run (setting : Setting ω) (symbols : List String) (world : ω) (as : List Action)
    (s : WebSocketSession (AlpacaWSMarketFeed ω)) : Prop :=
  Runs.run (step setting) (start setting { subscribedSymbols := symbols, world := world }) as = some s

end AlpacaWSMarketFeed

end MacdTradingBot
