import MacdTradingBot.Rest.Url
import Mathlib.Algebra.Ring.Nat

/-!
# The connection of the REST client

The members of `async_rest_client` that describe its connection, and the coroutines `connect` and
`graceful_shutdown` on them. A coroutine is cut at its suspension points: `connect` runs up to the first
one, `resumeConnect` from one to the next. The clock counts nanoseconds.
-/

namespace MacdTradingBot

/-- A `beast::tcp_stream`, or a `beast::ssl_stream` over one. `id` tells the stream objects apart;
`peer` is the URL whose host it was last connected to, `secured` says that a handshake succeeded on this
connection, `ioError` that a write or a read failed on it. -/
structure Stream where
  id : ℕ
  peer : Option Url := none
  expiry : Option ℕ := none
  handshakes : ℕ := 0
  secured : Bool := false
  ioError : Bool := false
deriving DecidableEq, Repr

namespace Stream

/-- `std::chrono::seconds(30)`. -/
def thirtySeconds : ℕ := 30 * 10 ^ 9

/-- `expires_after(std::chrono::seconds(30))`. -/
def expiresAfter (now : ℕ) (stream : Stream) : Stream :=
  { stream with expiry := some (now + thirtySeconds) }

/-- The expiry has passed: an operation that starts now fails with a timeout. -/
def expired (now : ℕ) (stream : Stream) : Bool :=
  match stream.expiry with
  | none => false
  | some expiry => expiry ≤ now

/-- The start of `async_connect`: what the socket was connected to is gone. -/
def startConnect (stream : Stream) : Stream :=
  { stream with peer := none, secured := false, ioError := false }

/-- A successful `async_connect`. -/
def connected (url : Url) (stream : Stream) : Stream := { stream with peer := some url }

/-- The start of `async_handshake`. -/
def startHandshake (stream : Stream) : Stream :=
  { stream with handshakes := stream.handshakes + 1 }

end Stream

/-- `async_rest_client::connection_state`. -/
inductive ConnectionState
  | notConnected
  | connecting
  | connected
deriving DecidableEq, Repr

/-- The members of `async_rest_client` from `_tcp_stream` to `_is_tls`. A cleared URL is `none`, and
`buffer` counts bytes. The last three fields are a record of what happened: the number of stream objects
created, the stream of the last successful `connect`, and the time of the last `expires_after`. -/
structure Connection where
  tcpStream : Stream := { id := 0 }
  sslStream : Stream := { id := 1 }
  buffer : ℕ := 0
  currentOrigin : Option Url := none
  connectionState : ConnectionState := .notConnected
  isTls : Bool := false
  nextStream : ℕ := 2
  lastConnected : Option (Bool × ℕ) := none
  armedAt : ℕ := 0
deriving DecidableEq, Repr

/-- The outcome of an asynchronous operation: its error code, and for `async_read` the response that was
parsed or the bytes that a failure leaves in the buffer. -/
structure Completion (Response : Type) where
  ec : Option ErrorCode := none
  response : Response
  leftover : ℕ := 0

/-- Where a `connect` that has passed its guard is suspended: in `async_resolve`, in `async_connect` or
in `async_handshake`, the last two on the stream of the given `id`. -/
inductive ConnectPoint
  | resolving
  | tcpConnecting (tls : Bool) (stream : ℕ)
  | handshaking (stream : ℕ)
deriving DecidableEq, Repr

/-- The locals of a suspended `connect`. -/
structure ConnectFrame where
  url : Url
  point : ConnectPoint
deriving DecidableEq, Repr

inductive ConnectResult
  | returned (ec : Option ErrorCode)
  | suspended (frame : ConnectFrame)
deriving DecidableEq, Repr

inductive ShutdownResult
  | returned
  | threw (ec : ErrorCode)
  | suspended
deriving DecidableEq, Repr

namespace Connection

/-- The stream that `_is_tls` selects. -/
def stream (c : Connection) (tls : Bool) : Stream := if tls then c.sslStream else c.tcpStream

/-- `connect`, up to its first suspension. `sni` is the outcome of `SSL_set_tlsext_host_name`. -/
def connect (B : BoostUrl) (url_sv : String) (sni : Bool) (c : Connection) :
    ConnectResult × Connection :=
  if c.connectionState = .connecting then
    (.returned (some .operationInProgress), c)
  else
    let c := { c with connectionState := .connecting }
    match B.makeHttpHttpsUrl url_sv with
    | .error ec => (.returned (some ec), { c with connectionState := .notConnected })
    | .ok url =>
      let c := { c with isTls := url.scheme == "https" }
      if c.isTls && !sni then
        (.returned (some .sslHostName), { c with connectionState := .notConnected })
      else
        (.suspended ⟨url, .resolving⟩, c)

/-- Every `co_return` of an error after the guard. -/
def connectFailed (ec : ErrorCode) (c : Connection) : ConnectResult × Connection :=
  (.returned (some ec), { c with connectionState := .notConnected })

/-- The end of `connect`. `tls` is the branch that was taken. -/
def connectSucceeded (url : Url) (tls : Bool) (c : Connection) : ConnectResult × Connection :=
  (.returned none,
    { c with
      connectionState := .connected
      currentOrigin := some url
      lastConnected := some (tls, (c.stream tls).id) })

/-- `connect`, from the completion of the operation it is suspended in. The operation succeeds only on a
stream object that is still there. -/
def resumeConnect {Response : Type} (now : ℕ) (c : Connection) (frame : ConnectFrame)
    (completion : Completion Response) : Option (ConnectResult × Connection) :=
  match completion.ec with
  | some ec => some (c.connectFailed ec)
  | none =>
    -- each operation of a stream has a deadline of its own
    match frame.point with
    | .resolving =>
      if c.isTls then
        some (.suspended { frame with point := .tcpConnecting true c.sslStream.id },
          { c with
            sslStream := (c.sslStream.expiresAfter now).startConnect
            armedAt := now })
      else
        some (.suspended { frame with point := .tcpConnecting false c.tcpStream.id },
          { c with
            tcpStream := (c.tcpStream.expiresAfter now).startConnect
            armedAt := now })
    | .tcpConnecting true id =>
      if c.sslStream.id = id then
        some (.suspended { frame with point := .handshaking id },
          { c with
            sslStream := ((c.sslStream.connected frame.url).expiresAfter now).startHandshake
            armedAt := now })
      else
        none
    | .tcpConnecting false id =>
      if c.tcpStream.id = id then
        some ({ c with tcpStream := c.tcpStream.connected frame.url }.connectSucceeded frame.url false)
      else
        none
    | .handshaking id =>
      if c.sslStream.id = id then
        some ({ c with sslStream := { c.sslStream with secured := true } }.connectSucceeded frame.url
          true)
      else
        none

/-- The end of `graceful_shutdown`. -/
def shutdownDone (c : Connection) : Connection :=
  { c with
    buffer := 0
    currentOrigin := none
    isTls := false
    connectionState := .notConnected }

/-- `graceful_shutdown`, up to `async_shutdown`. -/
def gracefulShutdown (c : Connection) : ShutdownResult × Connection :=
  if c.connectionState ≠ .connected then
    (.returned, c)
  else if c.isTls then
    (.suspended, c)
  else
    (.returned,
      shutdownDone { c with tcpStream := { id := c.nextStream }, nextStream := c.nextStream + 1 })

/-- `graceful_shutdown`, from the completion of `async_shutdown`. -/
def resumeShutdown (ec : Option ErrorCode) (c : Connection) : ShutdownResult × Connection :=
  let ec := if ec = some .streamTruncated then none else ec
  let c := { c with sslStream := { id := c.nextStream }, nextStream := c.nextStream + 1 }
  match ec with
  | some ec => (.threw ec, c)
  | none => (.returned, c.shutdownDone)

/-- A write or a read failed on the stream; `leftover` bytes are in the buffer. -/
def ioFailed (tls : Bool) (leftover : ℕ) (c : Connection) : Connection :=
  if tls then
    { c with sslStream := { c.sslStream with ioError := true }, buffer := leftover }
  else
    { c with tcpStream := { c.tcpStream with ioError := true }, buffer := leftover }

section IoFailed

variable (tls : Bool) (leftover : ℕ) (c : Connection)

@[simp] theorem ioFailed_connectionState : (c.ioFailed tls leftover).connectionState = c.connectionState := by
  unfold ioFailed
  split <;> rfl

@[simp] theorem ioFailed_isTls : (c.ioFailed tls leftover).isTls = c.isTls := by
  unfold ioFailed
  split <;> rfl

@[simp] theorem ioFailed_currentOrigin : (c.ioFailed tls leftover).currentOrigin = c.currentOrigin := by
  unfold ioFailed
  split <;> rfl

@[simp] theorem ioFailed_lastConnected : (c.ioFailed tls leftover).lastConnected = c.lastConnected := by
  unfold ioFailed
  split <;> rfl

@[simp] theorem ioFailed_armedAt : (c.ioFailed tls leftover).armedAt = c.armedAt := by
  unfold ioFailed
  split <;> rfl

/-- Only the stream of the operation is marked. -/
theorem stream_ioFailed (b : Bool) :
    (c.ioFailed tls leftover).stream b
      = if b = tls then { c.stream b with ioError := true } else c.stream b := by
  cases tls <;> cases b <;> rfl

end IoFailed

end Connection

end MacdTradingBot
