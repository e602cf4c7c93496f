import MacdTradingBot.Lib.Runs
import MacdTradingBot.Rest.Connection

/-!
# The REST client on its io_context

`async_rest_client` and `typed_task` as a step function. All coroutines of the client run on one
io_context thread, so a step is what runs between two points where another coroutine can come in: a
suspension, or the continuation of a request that a handler resumes inside `process_queue`. The
environment chooses the calls and the outcomes of the asynchronous operations; an operation never
completes inside its initiating call, and a write or a read that starts on an expired stream fails with a
timeout.
-/

namespace MacdTradingBot

/-- A `typed_task` in the queue. `hasHandler` is `static_cast<bool>(_handler)`. -/
structure Task where
  id : ℕ
  endpoint : Url
  hasHandler : Bool := false
deriving DecidableEq, Repr

/-- What the run records. `sent` has the connection and the time when `send` is called; `completed` is
the invocation of a handler. -/
inductive Event (Response : Type)
  | enqueued (id : ℕ)
  | sent (task : Task) (conn : Connection) (now : ℕ)
  | completed (id : ℕ) (ec : Option ErrorCode) (response : Response)
  | failedWithoutHandler (id : ℕ)
  | waitOnDestroyed (id : ℕ)
  | badFunctionCall (id : ℕ)
  | shutdownThrew (ec : ErrorCode)
deriving DecidableEq

/-- Where `process_queue` is. It runs at `loopTop`, at `connectNext` (about to call `connect`) and at
`popping` (about to call `pop_front`, after a handler ran if `resumed`), and is suspended at the others;
`expired` says that the pending operation started on an expired stream. -/
inductive ProcessQueue
  | idle
  | loopTop
  | shuttingDown
  | connectNext
  | connecting (frame : ConnectFrame)
  | writing (tls : Bool) (expired : Bool)
  | reading (tls : Bool) (expired : Bool)
  | popping (resumed : Bool)
deriving DecidableEq, Repr

/-- No code of `process_queue` is on the stack. -/
def ProcessQueue.suspended : ProcessQueue → Bool
  | idle | shuttingDown | connecting _ | writing _ _ | reading _ _ => true
  | loopTop | connectNext | popping _ => false

/-- The client and its coroutines: `connects` are the suspended calls of `connect` from outside, and
`spawner` is the task of a `request` whose `co_spawn` has not returned to it yet. -/
structure State (Response : Type) where
  tasks : List Task := []
  isProcessing : Bool := false
  conn : Connection := {}
  processQueue : ProcessQueue := .idle
  connects : List ConnectFrame := []
  spawner : Option ℕ := none
  now : ℕ := 0
  nextTask : ℕ := 0
  log : List (Event Response) := []
deriving DecidableEq

/-- What can happen next: time passes; a caller calls `request` or `connect`; the spawning `request`
reaches `async_wait`; `process_queue` goes on running; the operation that `process_queue`, or the `i`-th
`connect` from outside, is suspended in completes. -/
inductive Action (Response : Type)
  | tick (d : ℕ)
  | request (url : String)
  | connect (url : String) (sni : Bool)
  | asyncWait
  | resume (sni : Bool)
  | complete (completion : Completion Response)
  | completeConnect (i : ℕ) (completion : Completion Response)

namespace State

variable {Response : Type}

/-- The io_context may dispatch the completion of an operation. -/
def dispatches (s : State Response) : Bool := s.spawner.isNone && s.processQueue.suspended

/-- Code outside the client may run: the io_context dispatches it, or a handler resumed it. -/
def callable (s : State Response) : Bool :=
  s.spawner.isNone && (s.processQueue.suspended || s.processQueue = .popping true)

def record (s : State Response) (e : Event Response) : State Response :=
  { s with log := s.log ++ [e] }

/-! ## Tasks -/

/-- `request`, up to `async_wait` or, if it spawns `process_queue`, up to the `co_spawn`. -/
def request (B : BoostUrl) (url : String) (s : State Response) : State Response :=
  match B.makeHttpHttpsUrl url with
  | .error _ => s
  | .ok endpoint =>
    let task : Task := { id := s.nextTask, endpoint := endpoint }
    let s := { s with nextTask := s.nextTask + 1 }.record (.enqueued task.id)
    if s.isProcessing then
      -- `async_wait` follows at once
      { s with tasks := s.tasks ++ [{ task with hasHandler := true }] }
    else
      { s with
        tasks := s.tasks ++ [task]
        isProcessing := true
        processQueue := .loopTop
        spawner := some task.id }

/-- `async_wait`, called on the task that `request` has enqueued before. -/
def asyncWait (id : ℕ) (s : State Response) : State Response :=
  if s.tasks.any (·.id = id) then
    { s with
      tasks := s.tasks.map fun t => if t.id = id then { t with hasHandler := true } else t
      spawner := none }
  else
    { s with spawner := none }.record (.waitOnDestroyed id)

/-- `send`, up to `async_write`. -/
def send (task : Task) (s : State Response) : State Response :=
  { s with
    processQueue := .writing s.conn.isTls ((s.conn.stream s.conn.isTls).expired s.now) }.record
      (.sent task s.conn s.now)

/-- `std::move(_handler)(ec, response)` in `run_impl`; an empty handler throws out of `process_queue`. -/
def invokeHandler (task : Task) (ec : Option ErrorCode) (response : Response) (s : State Response) :
    State Response :=
  if task.hasHandler then
    { s with processQueue := .popping true }.record (.completed task.id ec response)
  else
    { s with processQueue := .idle }.record (.badFunctionCall task.id)

variable [Inhabited Response]

/-- `fail`. -/
def fail (task : Task) (ec : ErrorCode) (s : State Response) : State Response :=
  if task.hasHandler then
    { s with processQueue := .popping true }.record (.completed task.id (some ec) default)
  else
    { s with processQueue := .popping false }.record (.failedWithoutHandler task.id)

/-! What a task does to the other members: `send`, `invokeHandler` and `fail` move `process_queue` on and
add one event to the record. -/

section Members

variable (task : Task) (s : State Response)

omit [Inhabited Response]

@[simp] theorem send_tasks : (s.send task).tasks = s.tasks := rfl
@[simp] theorem send_isProcessing : (s.send task).isProcessing = s.isProcessing := rfl
@[simp] theorem send_conn : (s.send task).conn = s.conn := rfl
@[simp] theorem send_connects : (s.send task).connects = s.connects := rfl
@[simp] theorem send_spawner : (s.send task).spawner = s.spawner := rfl
@[simp] theorem send_now : (s.send task).now = s.now := rfl
@[simp] theorem send_nextTask : (s.send task).nextTask = s.nextTask := rfl
@[simp] theorem send_log : (s.send task).log = s.log ++ [.sent task s.conn s.now] := rfl
@[simp] theorem send_processQueue : (s.send task).processQueue
    = .writing s.conn.isTls ((s.conn.stream s.conn.isTls).expired s.now) := rfl

@[simp] theorem invokeHandler_tasks (ec : Option ErrorCode) (response : Response) :
    (s.invokeHandler task ec response).tasks = s.tasks := by
  unfold invokeHandler
  split <;> rfl

@[simp] theorem invokeHandler_isProcessing (ec : Option ErrorCode) (response : Response) :
    (s.invokeHandler task ec response).isProcessing = s.isProcessing := by
  unfold invokeHandler
  split <;> rfl

@[simp] theorem invokeHandler_conn (ec : Option ErrorCode) (response : Response) :
    (s.invokeHandler task ec response).conn = s.conn := by
  unfold invokeHandler
  split <;> rfl

@[simp] theorem invokeHandler_connects (ec : Option ErrorCode) (response : Response) :
    (s.invokeHandler task ec response).connects = s.connects := by
  unfold invokeHandler
  split <;> rfl

@[simp] theorem invokeHandler_spawner (ec : Option ErrorCode) (response : Response) :
    (s.invokeHandler task ec response).spawner = s.spawner := by
  unfold invokeHandler
  split <;> rfl

@[simp] theorem invokeHandler_now (ec : Option ErrorCode) (response : Response) :
    (s.invokeHandler task ec response).now = s.now := by
  unfold invokeHandler
  split <;> rfl

@[simp] theorem invokeHandler_nextTask (ec : Option ErrorCode) (response : Response) :
    (s.invokeHandler task ec response).nextTask = s.nextTask := by
  unfold invokeHandler
  split <;> rfl

/-- With a handler registered, it runs and `process_queue` goes on to `pop_front`. -/
theorem invokeHandler_of_hasHandler {task : Task} (h : task.hasHandler = true)
    (ec : Option ErrorCode) (response : Response) :
    s.invokeHandler task ec response
      = { s with
          processQueue := .popping true
          log := s.log ++ [.completed task.id ec response] } := by
  rw [invokeHandler, if_pos h]
  rfl

variable [Inhabited Response]

@[simp] theorem fail_tasks (ec : ErrorCode) : (s.fail task ec).tasks = s.tasks := by
  unfold fail
  split <;> rfl

@[simp] theorem fail_isProcessing (ec : ErrorCode) : (s.fail task ec).isProcessing = s.isProcessing := by
  unfold fail
  split <;> rfl

@[simp] theorem fail_conn (ec : ErrorCode) : (s.fail task ec).conn = s.conn := by
  unfold fail
  split <;> rfl

@[simp] theorem fail_connects (ec : ErrorCode) : (s.fail task ec).connects = s.connects := by
  unfold fail
  split <;> rfl

@[simp] theorem fail_spawner (ec : ErrorCode) : (s.fail task ec).spawner = s.spawner := by
  unfold fail
  split <;> rfl

@[simp] theorem fail_now (ec : ErrorCode) : (s.fail task ec).now = s.now := by
  unfold fail
  split <;> rfl

@[simp] theorem fail_nextTask (ec : ErrorCode) : (s.fail task ec).nextTask = s.nextTask := by
  unfold fail
  split <;> rfl

theorem fail_of_hasHandler {task : Task} (h : task.hasHandler = true) (ec : ErrorCode) :
    s.fail task ec
      = { s with
          processQueue := .popping true
          log := s.log ++ [.completed task.id (some ec) default] } := by
  rw [fail, if_pos h]
  rfl

/-- Without a handler nobody is told. -/
theorem fail_of_noHandler {task : Task} (h : task.hasHandler = false) (ec : ErrorCode) :
    s.fail task ec
      = { s with
          processQueue := .popping false
          log := s.log ++ [.failedWithoutHandler task.id] } := by
  rw [fail, h]
  rfl

end Members

/-! ## `process_queue` -/

omit [Inhabited Response] in
/-- The head of the loop. -/
def loopTop (B : BoostUrl) (s : State Response) : State Response :=
  match s.tasks with
  | [] => { s with isProcessing := false, processQueue := .idle }
  | task :: _ =>
    if s.conn.connectionState ≠ .connected then
      { s with processQueue := .connectNext }
    else if B.originText s.conn.currentOrigin ≠ B.encodedOrigin task.endpoint then
      -- connected to another origin
      match s.conn.gracefulShutdown with
      | (.returned, conn) => { s with conn := conn, processQueue := .connectNext }
      | (.suspended, conn) =>
        { s with conn := conn, processQueue := .shuttingDown }
      | (.threw ec, conn) =>
        { s with conn := conn, processQueue := .idle }.record (.shutdownThrew ec)
    else
      s.send task

/-- What follows `co_await connect(new_origin)`, or what it is suspended in. -/
def afterConnect (task : Task) (s : State Response) :
    ConnectResult × Connection → State Response
  | (.suspended frame, conn) => { s with conn := conn, processQueue := .connecting frame }
  | (.returned none, conn) => { s with conn := conn }.send task
  | (.returned (some ec), conn) => { s with conn := conn }.fail task ec

/-- `process_queue` goes on. -/
def resume (B : BoostUrl) (sni : Bool) (s : State Response) : Option (State Response) :=
  match s.processQueue, s.tasks with
  | .loopTop, _ => some (s.loopTop B)
  | .connectNext, task :: _ =>
    some (s.afterConnect task (s.conn.connect B (B.encodedOrigin task.endpoint) sni))
  | .popping _, _ :: tasks => some { s with tasks := tasks, processQueue := .loopTop }
  | _, _ => none

/-- The operation that `process_queue` is suspended in completes. -/
def complete (completion : Completion Response) (s : State Response) : Option (State Response) :=
  match s.processQueue, s.tasks with
  | .shuttingDown, _ =>
    match s.conn.resumeShutdown completion.ec with
    | (.threw ec, conn) =>
      some ({ s with conn := conn, processQueue := .idle }.record (.shutdownThrew ec))
    | (_, conn) => some { s with conn := conn, processQueue := .connectNext }
  | .connecting frame, task :: _ =>
    (s.conn.resumeConnect s.now frame completion).map (s.afterConnect task)
  | .writing tls expired, task :: _ =>
    -- on an expired stream an operation can only time out
    if expired && completion.ec ≠ some .timeout then
      none
    else
      match completion.ec with
      | some ec =>
        some ({ s with conn := s.conn.ioFailed tls s.conn.buffer }.invokeHandler task ec default)
      | none => some { s with processQueue := .reading tls ((s.conn.stream tls).expired s.now) }
  | .reading tls expired, task :: _ =>
    if expired && completion.ec ≠ some .timeout then
      none
    else
      match completion.ec with
      | some ec =>
        some ({ s with conn := s.conn.ioFailed tls completion.leftover }.invokeHandler task ec
          default)
      | none =>
        some ({ s with conn := { s.conn with buffer := 0 } }.invokeHandler task none
          completion.response)
  | _, _ => none

/-! ## Calls of `connect` from outside -/

omit [Inhabited Response] in
def callConnect (B : BoostUrl) (url : String) (sni : Bool) (s : State Response) : State Response :=
  match s.conn.connect B url sni with
  | (.returned _, conn) => { s with conn := conn }
  | (.suspended frame, conn) => { s with conn := conn, connects := s.connects ++ [frame] }

omit [Inhabited Response] in
def completeConnect (i : ℕ) (completion : Completion Response) (s : State Response) :
    Option (State Response) :=
  match s.connects[i]? with
  | none => none
  | some frame =>
    match s.conn.resumeConnect s.now frame completion with
    | none => none
    | some (.returned _, conn) => some { s with conn := conn, connects := s.connects.eraseIdx i }
    | some (.suspended frame', conn) =>
      some { s with conn := conn, connects := s.connects.set i frame' }

/-! ## The step function -/

/-- One step, if the action can happen. -/
def step (B : BoostUrl) (s : State Response) : Action Response → Option (State Response)
  | .tick d => some { s with now := s.now + d }
  | .request url => if s.callable then some (s.request B url) else none
  | .connect url sni => if s.callable then some (s.callConnect B url sni) else none
  | .asyncWait =>
    match s.spawner with
    | some id => if s.processQueue.suspended then some (s.asyncWait id) else none
    | none => none
  | .resume sni => s.resume B sni
  | .complete completion => if s.dispatches then s.complete completion else none
  | .completeConnect i completion => if s.dispatches then s.completeConnect i completion else none

/-- A run from the constructor's state. -/
abbrev Run (B : BoostUrl) (as : List (Action Response)) (s : State Response) : Prop :=
  Runs.run (step B) {} as = some s

end State

end MacdTradingBot
