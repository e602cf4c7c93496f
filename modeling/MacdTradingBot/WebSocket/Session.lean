import MacdTradingBot.Exception
import MacdTradingBot.Lib.Runs
import Mathlib.Data.List.Perm.Basic

/-!
# The WebSocket session

`WebSocketSession` as a step function. One thread runs the io_context, so a step is one completion
handler, or one call from outside. The environment chooses which outstanding operation completes next and
how; an operation never completes inside its initiating call. While `reconnect` sleeps no handler runs,
but other threads may still call `start`, `stop` and `send`.
-/

namespace MacdTradingBot

/-- `WebSocketSessionConfig`, less the TLS context. -/
structure WebSocketSessionConfig where
  host : String := ""
  port : String := ""
  endpoint : String := ""
  authMsg : Bytes := []
  subMsg : Bytes := []

namespace WebSocketSession

/-- An asynchronous operation that has not completed. `connection` is the number of the WebSocket
connection that it runs on. -/
inductive Operation
  | resolve (host port : String)
  | connect
  | sslHandshake
  | handshake (hostPort endpoint : String)
  | read (connection : ℕ)
  | write (connection : ℕ) (text : Bytes)
  | heartbeat
  | ping (connection : ℕ)
  | close
deriving DecidableEq, Repr

/-- How an operation completes: with an error code or not; for `async_read` the bytes that it has
appended to the buffer (a message, or on failure what came of one), for `async_connect` the port of the
endpoint and the outcome of `SSL_set_tlsext_host_name`. -/
structure Outcome where
  ec : Bool := false
  bytes : Bytes := []
  port : ℕ := 443
  hostName : Bool := true
deriving DecidableEq, Repr

/-- A call of the session by the frame handler or from outside. `isOpen` is what `_ws.is_open()` says. -/
inductive Call
  | send (text : Bytes)
  | stop (isOpen : Bool)
deriving DecidableEq, Repr

/-- What the run records: calls of `send` and of `async_resolve`, the start of a write, the `pop` after a
write of `text`, with what was at the front of the queue, and the strings passed to the frame handler. -/
inductive Event
  | sent (text : Bytes)
  | resolveStarted
  | writeStarted (connection : ℕ) (text : Bytes)
  | popped (text : Bytes) (front : Option Bytes)
  | frame (connection : ℕ) (data : Bytes)
deriving DecidableEq, Repr

end WebSocketSession

open WebSocketSession in
/-- The members of the session, and what the frame handler keeps. `operations` are the outstanding
operations, `connection` counts the WebSocket handshakes that have succeeded, and `sleeping` says that a
completion handler is in the `sleep_for` of `reconnect`. -/
structure WebSocketSession (σ : Type) where
  connected : Bool := false
  shouldReconnect : Bool := true
  hostPort : String := ""
  buffer : Bytes := []
  writeQueue : List Bytes := []
  operations : List Operation := []
  connection : ℕ := 0
  sleeping : Bool := false
  handlerState : σ
  log : List WebSocketSession.Event := []

namespace WebSocketSession

variable {σ : Type}

/-- A frame handler: from the frame and from what it keeps, its calls of the session and what it keeps
then. The number of the connection is for the record only. -/
abbrev FrameHandler (σ : Type) := ℕ → Bytes → σ → List Call × σ

/-- What can happen next: `start` is called; code outside of the handlers makes calls, and may read and
change what the frame handler keeps; the sleep of `reconnect` ends; an operation completes. -/
inductive Action (σ : Type)
  | start
  | call (f : σ → List Call × σ)
  | wake
  | complete (operation : Operation) (outcome : Outcome)

/-- A call of `send` from outside. -/
abbrev Action.send (text : Bytes) : Action σ := .call fun kept => ([.send text], kept)

/-- A call of `stop` from outside. -/
abbrev Action.stop (isOpen : Bool) : Action σ := .call fun kept => ([.stop isOpen], kept)

def record (s : WebSocketSession σ) (e : Event) : WebSocketSession σ := { s with log := s.log ++ [e] }

/-- An asynchronous operation is started. -/
def launch (operation : Operation) (s : WebSocketSession σ) : WebSocketSession σ :=
  { s with operations := s.operations ++ [operation] }

def resolve (cfg : WebSocketSessionConfig) (s : WebSocketSession σ) : WebSocketSession σ :=
  (s.launch (.resolve cfg.host cfg.port)).record .resolveStarted

def start (cfg : WebSocketSessionConfig) (s : WebSocketSession σ) : WebSocketSession σ :=
  if s.connected then s else s.resolve cfg

/-- `stop`. The wait of the cancelled timer completes later, with an error code. -/
def stop (isOpen : Bool) (s : WebSocketSession σ) : WebSocketSession σ :=
  let s := { s with shouldReconnect := false, connected := false }
  if isOpen then s.launch .close else s

def doWrite (s : WebSocketSession σ) : WebSocketSession σ :=
  match s.writeQueue with
  | [] => s
  | text :: _ =>
    if s.connected then
      (s.launch (.write s.connection text)).record (.writeStarted s.connection text)
    else
      s

def send (text : Bytes) (s : WebSocketSession σ) : WebSocketSession σ :=
  let s := { s with writeQueue := s.writeQueue ++ [text] }.record (.sent text)
  if s.connected && s.writeQueue.length = 1 then s.doWrite else s

/-- `reconnect`, up to the sleep. -/
def reconnect (s : WebSocketSession σ) : WebSocketSession σ :=
  if s.shouldReconnect then { s with sleeping := true } else s

/-- `reconnect`, after the sleep. -/
def wake (cfg : WebSocketSessionConfig) (s : WebSocketSession σ) : WebSocketSession σ :=
  let s := { s with sleeping := false }
  if s.shouldReconnect then s.start cfg else s

def fail (s : WebSocketSession σ) : WebSocketSession σ :=
  let s := { s with connected := false }
  if s.shouldReconnect then s.reconnect else s

def armHeartbeat (s : WebSocketSession σ) : WebSocketSession σ := s.launch .heartbeat

def doRead (s : WebSocketSession σ) : WebSocketSession σ := s.launch (.read s.connection)

/-- The calls of the session, in order. -/
def performAll (calls : List Call) (s : WebSocketSession σ) : WebSocketSession σ :=
  calls.foldl (fun s call =>
    match call with
    | .send text => s.send text
    | .stop isOpen => s.stop isOpen) s

/-! ## The completion handlers -/

def onResolve (s : WebSocketSession σ) (outcome : Outcome) : WebSocketSession σ :=
  if outcome.ec then s.fail else s.launch .connect

def onConnect (cfg : WebSocketSessionConfig) (s : WebSocketSession σ) (outcome : Outcome) :
    WebSocketSession σ :=
  if outcome.ec then
    s.fail
  else if !outcome.hostName then
    s.fail
  else
    { s with hostPort := cfg.host ++ ":" ++ toString outcome.port }.launch .sslHandshake

def onSslHandshake (cfg : WebSocketSessionConfig) (s : WebSocketSession σ) (outcome : Outcome) :
    WebSocketSession σ :=
  if outcome.ec then s.fail else s.launch (.handshake s.hostPort cfg.endpoint)

def onHandshake (cfg : WebSocketSessionConfig) (s : WebSocketSession σ) (outcome : Outcome) :
    WebSocketSession σ :=
  if outcome.ec then
    s.fail
  else
    let s := { s with connected := true, connection := s.connection + 1 }
    let s := if cfg.authMsg ≠ [] then s.send cfg.authMsg else s
    let s := if cfg.subMsg ≠ [] then s.send cfg.subMsg else s
    -- `send` has started a write already, if the queue was empty before it
    let s := if s.writeQueue ≠ [] then s.doWrite else s
    s.armHeartbeat.doRead

/-- `on_read`, after `async_read` has appended to the buffer. -/
def onRead (handler : FrameHandler σ) (connection : ℕ) (s : WebSocketSession σ) (outcome : Outcome) :
    WebSocketSession σ :=
  if outcome.ec then
    s.fail
  else
    let (calls, kept) := handler connection s.buffer s.handlerState
    let s := { s with handlerState := kept }.record (.frame connection s.buffer)
    { s.performAll calls with buffer := [] }.doRead

def onWrite (text : Bytes) (s : WebSocketSession σ) (outcome : Outcome) : WebSocketSession σ :=
  if outcome.ec then
    s.fail
  else
    let s := { s with writeQueue := s.writeQueue.tail }.record (.popped text s.writeQueue.head?)
    if s.writeQueue ≠ [] then s.doWrite else s

def onPingTimer (s : WebSocketSession σ) (outcome : Outcome) : WebSocketSession σ :=
  if outcome.ec || !s.connected then s else s.launch (.ping s.connection)

/-- The completion handler of `async_ping`. -/
def onPing (s : WebSocketSession σ) (outcome : Outcome) : WebSocketSession σ :=
  if outcome.ec then s.fail else s.armHeartbeat

/-- The completion handler of `async_close`. -/
def onClose (s : WebSocketSession σ) (outcome : Outcome) : WebSocketSession σ :=
  if outcome.ec then s.fail else s

/-- The operation is no longer outstanding, and its bytes are in the buffer. -/
def finish (operation : Operation) (outcome : Outcome) (s : WebSocketSession σ) : WebSocketSession σ :=
  { s with
    operations := s.operations.erase operation
    buffer := match operation with
      | .read _ => s.buffer ++ outcome.bytes
      | _ => s.buffer }

/-- The completion handler of the operation runs. -/
def dispatch (cfg : WebSocketSessionConfig) (handler : FrameHandler σ) (operation : Operation)
    (outcome : Outcome) (s : WebSocketSession σ) : WebSocketSession σ :=
  match operation with
  | .resolve _ _ => s.onResolve outcome
  | .connect => s.onConnect cfg outcome
  | .sslHandshake => s.onSslHandshake cfg outcome
  | .handshake _ _ => s.onHandshake cfg outcome
  | .read connection => s.onRead handler connection outcome
  | .write _ text => s.onWrite text outcome
  | .heartbeat => s.onPingTimer outcome
  | .ping _ => s.onPing outcome
  | .close => s.onClose outcome

/-- One step, if the action can happen. -/
def step (cfg : WebSocketSessionConfig) (handler : FrameHandler σ) (s : WebSocketSession σ) :
    Action σ → Option (WebSocketSession σ)
  | .start => some (s.start cfg)
  | .call f =>
    let (calls, kept) := f s.handlerState
    some ({ s with handlerState := kept }.performAll calls)
  | .wake => if s.sleeping then some (s.wake cfg) else none
  | .complete operation outcome =>
    -- no handler runs while another one sleeps
    if !s.sleeping && operation ∈ s.operations then
      some ((s.finish operation outcome).dispatch cfg handler operation outcome)
    else
      none

/-- A run from the constructor's state, where the frame handler keeps `kept`. -/
abbrev Run (cfg : WebSocketSessionConfig) (handler : FrameHandler σ) (kept : σ) (as : List (Action σ))
    (s : WebSocketSession σ) : Prop :=
  Runs.run (step cfg handler) { handlerState := kept } as = some s

end WebSocketSession

end MacdTradingBot
