import MacdTradingBot.Feed.Delivery
import MacdTradingBot.Lib.Csv

/-!
# The historical endpoint

`HistoricalAlpacaWSEndpoint`, the server that streams the bars of a CSV file to the feed. A connection is
served by one coroutine: it sends and receives the messages of the handshake, whose assertions end it, and
then sends the bars and returns. When the coroutine has ended, the server closes the connection. What has
been sent is always a beginning of the same messages (`Follows`).
-/

namespace MacdTradingBot

/-- The part of Python that the endpoint uses: `float`, for finite numbers; `datetime.fromisoformat`, then
`astimezone(timezone.utc)` and `isoformat(timespec="seconds")`; `json.dumps` and `json.loads`. -/
structure Python where
  float : String → Option ℚ
  utcIsoformat : String → Option String
  dumps : Json → Bytes
  loads : Bytes → Option Json

/-- `str.replace` from the front on, once the next characters have been skipped. -/
def pyReplaceAfter (old new : List Char) : ℕ → List Char → List Char
  | _, [] => []
  | skip + 1, _ :: s => pyReplaceAfter old new skip s
  | 0, c :: s =>
    if old.isPrefixOf (c :: s) then new ++ pyReplaceAfter old new (old.length - 1) s
    else c :: pyReplaceAfter old new 0 s

/-- `str.replace`, for a text that is not empty. -/
def pyReplace (old new s : String) : String :=
  String.ofList (pyReplaceAfter old.toList new.toList 0 s.toList)

namespace Json

/-- `key in value`; where Python raises a `TypeError`, it is false. -/
def pyContains (key : String) : Json → Bool
  | object members => (members.lookup key).isSome
  | array elements => elements.any fun
    | string s => s == key
    | _ => false
  | string s => decide (key.toList <:+: s.toList)
  | null | boolean _ | numberUnsigned _ | numberInteger _ | numberFloat _ => false

/-- Two objects with the same members, in any order. -/
def SameMembers (a b : Json) : Prop := ∀ key, a.find? key = b.find? key

end Json

namespace HistoricalAlpacaWSEndpoint

/-! ## The bars of the file -/

/-- The `try` block of the conversion. -/
def timestampRfc3339 (py : Python) (timestampStr : String) : Option String := do
  let timestampIso := pyReplace " " "T" timestampStr
  let timestampRfc3339 ← py.utcIsoformat timestampIso
  return pyReplace "+00:00" "Z" timestampRfc3339

/-- `_convert_csv_row_to_alpaca_format`. A column that the header lacks, and one without a number where
there should be one, raise; a timestamp that cannot be read is `None`, as is a symbol that the row lacks. -/
def convertCsvRowToAlpacaFormat (py : Python) (row : List (String × Option String)) : Option Json := do
  let number (column : String) : Option ℚ := do py.float (← ← row.lookup column)
  let timestampStr ← row.lookup "timestamp"
  let symbol ← row.lookup "symbol"
  let «open» ← number "open"
  let high ← number "high"
  let low ← number "low"
  let close ← number "close"
  let volume ← number "volume"
  let tradeCount ← number "trade_count"
  let vwap ← number "vwap"
  return .object
    [("T", .string "b"), ("S", symbol.elim .null .string), ("o", .numberFloat «open»),
      ("h", .numberFloat high), ("l", .numberFloat low), ("c", .numberFloat close),
      ("v", .numberFloat volume), ("t", (timestampStr.bind (timestampRfc3339 py)).elim .null .string),
      ("n", .numberFloat tradeCount), ("vw", .numberFloat vwap)]

/-- `_load_bars`; `content` is missing when there is no file. -/
def loadBars (py : Python) (content : Option (List Char)) : Option (List Json) :=
  content.bind fun text =>
    (Csv.dictReader text).bind fun rows => rows.mapM (convertCsvRowToAlpacaFormat py)

end HistoricalAlpacaWSEndpoint

open HistoricalAlpacaWSEndpoint in
/-- The members of the endpoint that its coroutines read. The bars are rows of the file. -/
structure HistoricalAlpacaWSEndpoint (py : Python) where
  bars : List Json
  symbol : String
  converted : ∀ bar ∈ bars, ∃ row, convertCsvRowToAlpacaFormat py row = some bar

namespace HistoricalAlpacaWSEndpoint

open AlpacaWSMarketFeed

variable {py : Python}

/-- Every converted row comes from one. -/
theorem exists_row_of_mapM {rows : List (List (String × Option String))} {bars : List Json}
    (h : rows.mapM (convertCsvRowToAlpacaFormat py) = some bars) :
    ∀ bar ∈ bars, ∃ row, convertCsvRowToAlpacaFormat py row = some bar := by
  induction rows generalizing bars with
  | nil =>
    obtain rfl : [] = bars := by simpa using h
    simp
  | cons row rows ih =>
    simp only [List.mapM_cons, Option.bind_eq_bind, Option.bind_eq_some_iff] at h
    obtain ⟨bar, hbar, rest, hrest, heq⟩ := h
    obtain rfl : bar :: rest = bars := by simpa using heq
    exact List.forall_mem_cons.mpr ⟨⟨row, hbar⟩, ih hrest⟩

/-- Every bar of the file comes from a row. -/
theorem exists_row_of_loadBars {content : Option (List Char)} {bars : List Json}
    (h : loadBars py content = some bars) :
    ∀ bar ∈ bars, ∃ row, convertCsvRowToAlpacaFormat py row = some bar := by
  obtain ⟨text, -, hload⟩ := Option.bind_eq_some_iff.mp h
  obtain ⟨rows, -, hrows⟩ := Option.bind_eq_some_iff.mp hload
  exact exists_row_of_mapM hrows

/-- `__init__`, for a file whose first row has a symbol. A file without rows raises. -/
def init (py : Python) (content : Option (List Char)) : Option (HistoricalAlpacaWSEndpoint py) :=
  match h : loadBars py content with
  | none => none
  | some bars =>
    match bars.head?.bind (·.find? "S") with
    | some (.string symbol) => some ⟨bars, symbol, exists_row_of_loadBars h⟩
    | _ => none

/-- A file whose first bar has a symbol makes an endpoint. -/
theorem init_eq_some {content : Option (List Char)} {bars : List Json} {symbol : String}
    (hbars : loadBars py content = some bars)
    (hsymbol : bars.head?.bind (·.find? "S") = some (.string symbol)) :
    ∃ endpoint, init py content = some endpoint ∧ endpoint.bars = bars := by
  unfold init
  split
  · rename_i hnone
    rw [hbars] at hnone
    cases hnone
  · rename_i bars' hsome
    rw [hbars, Option.some.injEq] at hsome
    subst hsome
    rw [hsymbol]
    exact ⟨_, rfl, rfl⟩

/-- A converted row is a bar message that lacks no member. -/
theorem bar_of_convert {row : List (String × Option String)} {bar : Json}
    (h : convertCsvRowToAlpacaFormat py row = some bar) : kind bar = .bar ∧ ¬ ReadsMissing bar := by
  simp only [convertCsvRowToAlpacaFormat, Option.bind_eq_bind, Option.bind_eq_some_iff,
    Option.pure_def, Option.some.injEq] at h
  obtain ⟨timestampStr, -, symbol, -, «open», -, high, -, low, -, close, -, volume, -, tradeCount, -,
    vwap, -, rfl⟩ := h
  have hkind : ∀ members, kind (.object (("T", .string "b") :: members)) = .bar := fun members => rfl
  refine ⟨hkind _, fun hmissing => ?_⟩
  have hsome := hmissing.2
  revert hsome
  cases symbol <;> cases timestampStr.bind (timestampRfc3339 py) <;>
    simp [firstMissing, barMembers, Json.find?, List.lookup_cons, Json.isString, Json.isNumber]

/-! ## The coroutine of a connection -/

/-- Where `run` stands: before a send or a receive of the handshake, in `_stream_bars` with the bars that
it has not sent, or at its end, which it has returned to or raised to. -/
inductive Coroutine
  | sendConnected
  | recvAuth
  | sendAuthenticated
  | recvSubscribe
  | sendSubscribed
  | streamBars (rest : List Json)
  | returned
  | raised

def subscriptionMessage (symbol : String) : Json :=
  .object
    [("T", .string "subscription"), ("trades", .array []), ("quotes", .array []),
      ("bars", .array [.string symbol]), ("updatedBars", .array []), ("dailyBars", .array []),
      ("statuses", .array []), ("lulds", .array []), ("corrections", .array []),
      ("cancelErrors", .array [])]

/-- The text of a message: an array with this message alone. -/
def frame (py : Python) (message : Json) : Bytes := py.dumps (.array [message])

/-- The message that the coroutine sends next, and where it stands then. -/
def sends (endpoint : HistoricalAlpacaWSEndpoint py) : Coroutine → Option (Json × Coroutine)
  | .sendConnected => some (successMessage "connected", .recvAuth)
  | .sendAuthenticated => some (successMessage "authenticated", .recvSubscribe)
  | .sendSubscribed => some (subscriptionMessage endpoint.symbol, .streamBars endpoint.bars)
  | .streamBars (bar :: rest) => some (bar, .streamBars rest)
  | .streamBars [] | .recvAuth | .recvSubscribe | .returned | .raised => none

/-- Where the coroutine stands once it goes on without sending or receiving: after the sleep that follows
the last bar it returns. -/
def Coroutine.ends : Coroutine → Option Coroutine
  | .streamBars [] => some .returned
  | .streamBars (_ :: _) | .sendConnected | .recvAuth | .sendAuthenticated | .recvSubscribe
  | .sendSubscribed | .returned | .raised => none

/-- The coroutine has ended, and the server closes the connection. What has been sent on it can still be
read. -/
def Coroutine.Ended (coroutine : Coroutine) : Prop := coroutine = .returned ∨ coroutine = .raised

/-- The `assert` on the message that should authenticate. -/
def assertAuth (py : Python) (text : Bytes) : Bool :=
  match py.loads text with
  | some authMsg => ["action", "key", "secret"].all (authMsg.pyContains ·)
  | none => false

/-- The `assert` on the message that should subscribe. -/
def assertSubscribe (py : Python) (symbol : String) (text : Bytes) : Bool :=
  match py.loads text with
  | some subscribeMsg =>
    (match subscribeMsg.find? "action" with
      | some (.string action) => action == "subscribe"
      | _ => false) &&
    match subscribeMsg.find? "bars" with
      | some bars => bars.pyContains symbol
      | none => false
  | none => false

/-- Where the coroutine stands once it has received a text. -/
def receives (endpoint : HistoricalAlpacaWSEndpoint py) (text : Bytes) : Coroutine → Option Coroutine
  | .recvAuth => some (if assertAuth py text then .sendAuthenticated else .raised)
  | .recvSubscribe =>
    some (if assertSubscribe py endpoint.symbol text then .sendSubscribed else .raised)
  | _ => none

/-- Where the coroutine stands once the connection is closed under it. Only `_stream_bars` catches. -/
def Coroutine.closed : Coroutine → Coroutine
  | .streamBars _ | .returned => .returned
  | .sendConnected | .recvAuth | .sendAuthenticated | .recvSubscribe | .sendSubscribed | .raised =>
    .raised

/-- What a connection is sent if nothing goes wrong. -/
def messages (endpoint : HistoricalAlpacaWSEndpoint py) : List Json :=
  successMessage "connected" :: successMessage "authenticated" ::
    subscriptionMessage endpoint.symbol :: endpoint.bars

/-- One connection: where its coroutine stands, the messages that it has sent, and how many texts it has
received. `read` is how many of the messages the client has read. -/
structure Peer where
  coroutine : Coroutine := .sendConnected
  sent : List Json := []
  received : ℕ := 0
  read : ℕ := 0

/-- What the coroutine will still send if nothing goes wrong. -/
def Coroutine.toSend (endpoint : HistoricalAlpacaWSEndpoint py) : Coroutine → Option (List Json)
  | .sendConnected => some endpoint.messages
  | .recvAuth | .sendAuthenticated => some (endpoint.messages.drop 1)
  | .recvSubscribe | .sendSubscribed => some (endpoint.messages.drop 2)
  | .streamBars rest => some rest
  | .returned | .raised => none

/-- What has been sent is a beginning of the messages, and the coroutine stands where it has come to. -/
structure Peer.Follows (endpoint : HistoricalAlpacaWSEndpoint py) (peer : Peer) : Prop where
  sent : peer.sent <+: endpoint.messages
  next : ∀ rest, peer.coroutine.toSend endpoint = some rest → endpoint.messages = peer.sent ++ rest
  read : peer.read ≤ peer.sent.length

variable {endpoint : HistoricalAlpacaWSEndpoint py} {peer : Peer}

/-- A new coroutine has sent nothing. -/
theorem follows_init : ({} : Peer).Follows endpoint where
  sent := List.nil_prefix
  next := by
    intro rest hrest
    obtain rfl := Option.some.inj hrest
    rfl
  read := le_rfl

/-- The next message is the first one that has not been sent. -/
theorem toSend_of_sends {coroutine next : Coroutine} {message : Json}
    (h : endpoint.sends coroutine = some (message, next)) :
    ∃ rest, coroutine.toSend endpoint = some (message :: rest) ∧ next.toSend endpoint = some rest := by
  cases coroutine with
  | sendConnected | sendAuthenticated | sendSubscribed =>
    cases h
    exact ⟨_, rfl, rfl⟩
  | streamBars rest =>
    cases rest with
    | nil => cases h
    | cons bar rest =>
      cases h
      exact ⟨rest, rfl, rfl⟩
  | recvAuth | recvSubscribe | returned | raised => cases h

/-- What is sent is the next message. -/
theorem Peer.Follows.send (h : peer.Follows endpoint) {message : Json} {next : Coroutine}
    (hsends : endpoint.sends peer.coroutine = some (message, next)) :
    ({ peer with coroutine := next, sent := peer.sent ++ [message] } : Peer).Follows endpoint := by
  obtain ⟨rest, hrest, hnext⟩ := toSend_of_sends hsends
  have hmessages := h.next _ hrest
  refine ⟨⟨rest, ?_⟩, fun rest' hrest' => ?_, ?_⟩
  · rw [hmessages, List.append_assoc, List.singleton_append]
  · rw [hnext, Option.some.injEq] at hrest'
    rw [hmessages, ← hrest', List.append_assoc, List.singleton_append]
  · rw [List.length_append]
    exact h.read.trans (Nat.le_add_right _ _)

/-- A message that is received changes nothing about what is still to be sent, unless it is refused. -/
theorem toSend_of_receives {coroutine next : Coroutine} {text : Bytes}
    (h : endpoint.receives text coroutine = some next) :
    next.toSend endpoint = coroutine.toSend endpoint ∨ next.toSend endpoint = none := by
  cases coroutine with
  | recvAuth | recvSubscribe =>
    obtain rfl := Option.some.inj h
    split
    · exact Or.inl rfl
    · exact Or.inr rfl
  | sendConnected | sendAuthenticated | sendSubscribed | streamBars | returned | raised => cases h

/-- A coroutine that goes on has the same to send, or nothing any more. -/
theorem Peer.Follows.move (h : peer.Follows endpoint) {next : Coroutine} (received : ℕ)
    (hnext : next.toSend endpoint = peer.coroutine.toSend endpoint ∨ next.toSend endpoint = none) :
    ({ peer with coroutine := next, received := received } : Peer).Follows endpoint := by
  refine ⟨h.sent, fun rest hrest => h.next rest ?_, h.read⟩
  rcases hnext with hsame | hnone
  · exact hsame.symm.trans hrest
  · rw [hnone] at hrest
    cases hrest

/-- The coroutine ends of itself only when it has sent every bar. -/
theorem Coroutine.ends_eq_some {coroutine next : Coroutine} (h : coroutine.ends = some next) :
    coroutine = .streamBars [] ∧ next = .returned := by
  cases coroutine with
  | streamBars rest =>
    cases rest with
    | nil => exact ⟨rfl, (Option.some.inj h).symm⟩
    | cons bar rest => cases h
  | sendConnected | recvAuth | sendAuthenticated | recvSubscribe | sendSubscribed | returned | raised =>
    cases h

/-- A closed connection has no more to send. -/
theorem Peer.Follows.close (h : peer.Follows endpoint) :
    ({ peer with coroutine := peer.coroutine.closed } : Peer).Follows endpoint := by
  refine h.move peer.received (Or.inr ?_)
  cases peer.coroutine <;> rfl

/-- The client reads the next message. -/
theorem Peer.Follows.readNext (h : peer.Follows endpoint) {message : Json}
    (hmessage : peer.sent[peer.read]? = some message) :
    ({ peer with read := peer.read + 1 } : Peer).Follows endpoint := by
  obtain ⟨hlt, -⟩ := List.getElem?_eq_some_iff.mp hmessage
  exact ⟨h.sent, h.next, hlt⟩

/-! ## The bars that a client reads -/

/-- The parser of the feed reads what the endpoint prints. -/
def Understands (json : Nlohmann) (endpoint : HistoricalAlpacaWSEndpoint py) : Prop :=
  ∀ message ∈ endpoint.messages, ∃ read, json.parse (frame py message) = some (.array [read]) ∧
    read.SameMembers message

/-- The parser of the endpoint reads what the feed prints. -/
def IsUnderstood (json : Nlohmann) (py : Python) : Prop :=
  ∀ message text, json.dump message = some text →
    (∃ config, message = authMessage config) ∨ (∃ symbols, message = subscribeMessage symbols) →
      ∃ read, py.loads text = some read ∧ read.SameMembers message

/-- The bars of the file, as the feed reads them. -/
def barsRead (json : Nlohmann) (endpoint : HistoricalAlpacaWSEndpoint py) : List (Bar1min ℚ) :=
  endpoint.bars.flatMap (messageBars json)

/-- The kind is a matter of the members. -/
theorem kind_congr {a b : Json} (h : a.SameMembers b) : kind a = kind b := by
  unfold kind
  rw [h "T", h "msg"]

/-- A bar is read from the members alone. -/
theorem messageBars_congr {a b : Json} (h : a.SameMembers b) (json : Nlohmann) :
    messageBars json a = messageBars json b := by
  have hread : (readBar json a).toOption = (readBar json b).toOption := by
    have hok : ∀ bar, readBar json a = .ok bar ↔ readBar json b = .ok bar := by
      intro bar
      simp only [readBar_eq_ok_iff, h "S", h "o", h "h", h "l", h "c", h "v", h "t"]
    cases ha : readBar json a with
    | ok bar => rw [(hok bar).mp ha]
    | error f =>
      cases hb : readBar json b with
      | ok bar =>
        rw [(hok bar).mpr hb] at ha
        cases ha
      | error f' => rfl
  rw [messageBars, messageBars, kind_congr h, hread]

/-- What is missing is a matter of the members. -/
theorem readsMissing_congr {a b : Json} (h : a.SameMembers b) : ReadsMissing a ↔ ReadsMissing b := by
  have hfirst : ∀ members, firstMissing a members = firstMissing b members := by
    intro members
    induction members with
    | nil => rfl
    | cons member members ih =>
      obtain ⟨key, ok⟩ := member
      rw [firstMissing, firstMissing, h key, ih]
  rw [ReadsMissing, ReadsMissing, kind_congr h, hfirst]

variable {json : Nlohmann}

/-- A frame of the endpoint brings the bar of its message. -/
theorem frameBars_of_mem (hunderstands : Understands json endpoint) {message : Json}
    (mem : message ∈ endpoint.messages) : frameBars json (frame py message) = messageBars json message := by
  obtain ⟨read, hparse, hsame⟩ := hunderstands message mem
  rw [frameBars, hparse, ← messageBars_congr hsame]

/-- No message of the endpoint makes the feed read a missing member. -/
theorem not_readsMissing_of_mem {message : Json} (mem : message ∈ endpoint.messages) :
    ¬ ReadsMissing message := by
  rw [messages, List.mem_cons, List.mem_cons, List.mem_cons] at mem
  rcases mem with rfl | rfl | rfl | mem
  · exact fun hmissing => nomatch hmissing.1
  · exact fun hmissing => nomatch hmissing.1
  · exact fun hmissing => nomatch hmissing.1
  · obtain ⟨row, hrow⟩ := endpoint.converted message mem
    exact (bar_of_convert hrow).2

/-- The first messages bring the first bars. -/
theorem flatMap_take_messages (endpoint : HistoricalAlpacaWSEndpoint py) (json : Nlohmann) (n : ℕ) :
    (endpoint.messages.take n).flatMap (messageBars json) <+: barsRead json endpoint := by
  have hall : endpoint.messages.flatMap (messageBars json) = barsRead json endpoint := rfl
  have hsplit : (endpoint.messages.take n).flatMap (messageBars json)
      ++ (endpoint.messages.drop n).flatMap (messageBars json) = barsRead json endpoint := by
    rw [← List.flatMap_append, List.take_append_drop, hall]
  exact ⟨_, hsplit⟩

end HistoricalAlpacaWSEndpoint

end MacdTradingBot
