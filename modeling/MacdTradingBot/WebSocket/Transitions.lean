import MacdTradingBot.WebSocket.Session

/-!
# What one step of the session can do

`Transition` lists the steps of the session, one constructor for each branch of a completion handler, and
`transition_of_step` says that there are no others. The lemmas before it say what `send`, `stop` and
`fail` do to the members.
-/

namespace MacdTradingBot

namespace WebSocketSession

variable {σ : Type}

/-! ## Operations of one kind -/

/-- The stages of `resolve` .. `on_handshake`. -/
def Operation.isChain : Operation → Bool
  | .resolve _ _ | .connect | .sslHandshake | .handshake _ _ => true
  | .read _ | .write _ _ | .heartbeat | .ping _ | .close => false

def Operation.isRead : Operation → Bool
  | .read _ => true
  | .resolve _ _ | .connect | .sslHandshake | .handshake _ _ | .write _ _ | .heartbeat | .ping _
  | .close => false

def Operation.writeText : Operation → Option Bytes
  | .write _ text => some text
  | .resolve _ _ | .connect | .sslHandshake | .handshake _ _ | .read _ | .heartbeat | .ping _
  | .close => none

/-- The number of outstanding operations of a resolve/connect/handshake chain. -/
def chains (s : WebSocketSession σ) : ℕ := s.operations.countP Operation.isChain

/-- The number of outstanding reads. -/
def reads (s : WebSocketSession σ) : ℕ := s.operations.countP Operation.isRead

/-- The texts of the outstanding writes. -/
def writes (s : WebSocketSession σ) : List Bytes := s.operations.filterMap Operation.writeText

/-- The strings passed to the frame handler so far, with their connections. -/
def frames (s : WebSocketSession σ) : List (ℕ × Bytes) :=
  s.log.filterMap fun
    | .frame connection data => some (connection, data)
    | _ => none

section Members

variable (s : WebSocketSession σ) (operation : Operation) (e : Event)

@[simp] theorem launch_connected : (s.launch operation).connected = s.connected := rfl
@[simp] theorem launch_shouldReconnect : (s.launch operation).shouldReconnect = s.shouldReconnect := rfl
@[simp] theorem launch_buffer : (s.launch operation).buffer = s.buffer := rfl
@[simp] theorem launch_writeQueue : (s.launch operation).writeQueue = s.writeQueue := rfl
@[simp] theorem launch_operations :
    (s.launch operation).operations = s.operations ++ [operation] := rfl
@[simp] theorem launch_connection : (s.launch operation).connection = s.connection := rfl
@[simp] theorem launch_sleeping : (s.launch operation).sleeping = s.sleeping := rfl
@[simp] theorem launch_handlerState : (s.launch operation).handlerState = s.handlerState := rfl
@[simp] theorem launch_log : (s.launch operation).log = s.log := rfl

@[simp] theorem record_connected : (s.record e).connected = s.connected := rfl
@[simp] theorem record_shouldReconnect : (s.record e).shouldReconnect = s.shouldReconnect := rfl
@[simp] theorem record_buffer : (s.record e).buffer = s.buffer := rfl
@[simp] theorem record_writeQueue : (s.record e).writeQueue = s.writeQueue := rfl
@[simp] theorem record_operations : (s.record e).operations = s.operations := rfl
@[simp] theorem record_connection : (s.record e).connection = s.connection := rfl
@[simp] theorem record_sleeping : (s.record e).sleeping = s.sleeping := rfl
@[simp] theorem record_handlerState : (s.record e).handlerState = s.handlerState := rfl
@[simp] theorem record_log : (s.record e).log = s.log ++ [e] := rfl

@[simp] theorem chains_launch :
    (s.launch operation).chains = s.chains + if operation.isChain then 1 else 0 := by
  simp [chains, List.countP_append, List.countP_singleton]

@[simp] theorem reads_launch :
    (s.launch operation).reads = s.reads + if operation.isRead then 1 else 0 := by
  simp [reads, List.countP_append, List.countP_singleton]

@[simp] theorem writes_launch :
    (s.launch operation).writes = s.writes ++ operation.writeText.toList := by
  cases operation <;> simp [writes, List.filterMap_append, Operation.writeText]

@[simp] theorem chains_record : (s.record e).chains = s.chains := rfl
@[simp] theorem reads_record : (s.record e).reads = s.reads := rfl
@[simp] theorem writes_record : (s.record e).writes = s.writes := rfl

end Members

/-- `fail` starts nothing; it sets the connection aside, and sleeps if it may reconnect. -/
theorem fail_eq (s : WebSocketSession σ) :
    s.fail = { s with connected := false, sleeping := s.sleeping || s.shouldReconnect } := by
  unfold fail reconnect
  cases s.shouldReconnect <;> simp

section Members

variable (s : WebSocketSession σ) (cfg : WebSocketSessionConfig)

@[simp] theorem fail_connected : s.fail.connected = false := by rw [fail_eq]
@[simp] theorem fail_shouldReconnect : s.fail.shouldReconnect = s.shouldReconnect := by rw [fail_eq]
@[simp] theorem fail_buffer : s.fail.buffer = s.buffer := by rw [fail_eq]
@[simp] theorem fail_writeQueue : s.fail.writeQueue = s.writeQueue := by rw [fail_eq]
@[simp] theorem fail_connection : s.fail.connection = s.connection := by rw [fail_eq]
@[simp] theorem fail_handlerState : s.fail.handlerState = s.handlerState := by rw [fail_eq]
@[simp] theorem fail_log : s.fail.log = s.log := by rw [fail_eq]
@[simp] theorem fail_chains : s.fail.chains = s.chains := by rw [fail_eq]; rfl
@[simp] theorem fail_reads : s.fail.reads = s.reads := by rw [fail_eq]; rfl
@[simp] theorem fail_writes : s.fail.writes = s.writes := by rw [fail_eq]; rfl
@[simp] theorem fail_frames : s.fail.frames = s.frames := by rw [fail_eq]; rfl

/-- `start` begins a chain unless the session is connected. -/
theorem start_chains : (s.start cfg).chains = s.chains + if s.connected then 0 else 1 := by
  unfold start
  split <;> simp [resolve, Operation.isChain]

@[simp] theorem start_reads : (s.start cfg).reads = s.reads := by
  unfold start
  split <;> simp [resolve, Operation.isRead]

@[simp] theorem start_writes : (s.start cfg).writes = s.writes := by
  unfold start
  split <;> simp [resolve, Operation.writeText]

@[simp] theorem start_connected : (s.start cfg).connected = s.connected := by
  unfold start
  split <;> simp [resolve]

@[simp] theorem start_shouldReconnect : (s.start cfg).shouldReconnect = s.shouldReconnect := by
  unfold start
  split <;> simp [resolve]

@[simp] theorem start_buffer : (s.start cfg).buffer = s.buffer := by
  unfold start
  split <;> simp [resolve]

@[simp] theorem start_writeQueue : (s.start cfg).writeQueue = s.writeQueue := by
  unfold start
  split <;> simp [resolve]

@[simp] theorem start_connection : (s.start cfg).connection = s.connection := by
  unfold start
  split <;> simp [resolve]

@[simp] theorem start_sleeping : (s.start cfg).sleeping = s.sleeping := by
  unfold start
  split <;> simp [resolve]

@[simp] theorem start_handlerState : (s.start cfg).handlerState = s.handlerState := by
  unfold start
  split <;> simp [resolve]

@[simp] theorem start_frames : (s.start cfg).frames = s.frames := by
  unfold start
  split <;> simp [resolve, frames, List.filterMap_append]

/-- After `stop` the end of the sleep does nothing. -/
theorem wake_of_stopped {s : WebSocketSession σ} (h : s.shouldReconnect = false)
    (cfg : WebSocketSessionConfig) : s.wake cfg = { s with sleeping := false } := by
  simp [wake, h]

theorem wake_of_reconnecting {s : WebSocketSession σ} (h : s.shouldReconnect = true)
    (cfg : WebSocketSessionConfig) : s.wake cfg = { s with sleeping := false }.start cfg := by
  simp [wake, h]

/-- What waking and `start` keep, the end of the sleep keeps. -/
theorem wake_induction (P : WebSocketSession σ → Prop) {s : WebSocketSession σ}
    (cfg : WebSocketSessionConfig) (hawake : P { s with sleeping := false })
    (hstart : ∀ u, P u → P (u.start cfg)) : P (s.wake cfg) := by
  by_cases hreconnect : s.shouldReconnect = true
  · rw [wake_of_reconnecting hreconnect]
    exact hstart _ hawake
  · rw [wake_of_stopped (Bool.not_eq_true _ ▸ hreconnect)]
    exact hawake

end Members

/-! ## Calls of the session -/

section Calls

variable (s : WebSocketSession σ) (text : Bytes) (isOpen : Bool)

/-- A write of the front starts, if there is one and the session is connected. -/
theorem doWrite_cases : s.doWrite = s ∧ (s.writeQueue = [] ∨ s.connected = false) ∨
    ∃ text rest, s.writeQueue = text :: rest ∧ s.connected = true ∧
      s.doWrite = (s.launch (.write s.connection text)).record (.writeStarted s.connection text) := by
  unfold doWrite
  cases hqueue : s.writeQueue with
  | nil => exact Or.inl ⟨rfl, Or.inl rfl⟩
  | cons text rest =>
    cases hconnected : s.connected with
    | false => exact Or.inl ⟨by simp, Or.inr rfl⟩
    | true => exact Or.inr ⟨text, rest, rfl, rfl, by simp⟩

/-- `send` starts a write exactly when the session is connected and the queue was empty. -/
theorem send_cases : s.send text
      = if s.connected = true ∧ s.writeQueue = [] then
          (({ s with writeQueue := [text] }.record (.sent text)).launch
            (.write s.connection text)).record (.writeStarted s.connection text)
        else
          { s with writeQueue := s.writeQueue ++ [text] }.record (.sent text) := by
  unfold send
  cases s.connected with
  | false => simp
  | true =>
    cases hqueue : s.writeQueue with
    | nil => simp [doWrite]
    | cons front rest => simp

@[simp] theorem doWrite_connected : s.doWrite.connected = s.connected := by
  rcases s.doWrite_cases with ⟨h, -⟩ | ⟨front, rest, -, -, h⟩ <;> rw [h]
  simp

@[simp] theorem doWrite_shouldReconnect : s.doWrite.shouldReconnect = s.shouldReconnect := by
  rcases s.doWrite_cases with ⟨h, -⟩ | ⟨front, rest, -, -, h⟩ <;> rw [h]
  simp

@[simp] theorem doWrite_buffer : s.doWrite.buffer = s.buffer := by
  rcases s.doWrite_cases with ⟨h, -⟩ | ⟨front, rest, -, -, h⟩ <;> rw [h]
  simp

@[simp] theorem doWrite_writeQueue : s.doWrite.writeQueue = s.writeQueue := by
  rcases s.doWrite_cases with ⟨h, -⟩ | ⟨front, rest, -, -, h⟩ <;> rw [h]
  simp

@[simp] theorem doWrite_connection : s.doWrite.connection = s.connection := by
  rcases s.doWrite_cases with ⟨h, -⟩ | ⟨front, rest, -, -, h⟩ <;> rw [h]
  simp

@[simp] theorem doWrite_sleeping : s.doWrite.sleeping = s.sleeping := by
  rcases s.doWrite_cases with ⟨h, -⟩ | ⟨front, rest, -, -, h⟩ <;> rw [h]
  simp

@[simp] theorem doWrite_handlerState : s.doWrite.handlerState = s.handlerState := by
  rcases s.doWrite_cases with ⟨h, -⟩ | ⟨front, rest, -, -, h⟩ <;> rw [h]
  simp

@[simp] theorem doWrite_chains : s.doWrite.chains = s.chains := by
  rcases s.doWrite_cases with ⟨h, -⟩ | ⟨front, rest, -, -, h⟩ <;> rw [h]
  simp [Operation.isChain]

@[simp] theorem doWrite_reads : s.doWrite.reads = s.reads := by
  rcases s.doWrite_cases with ⟨h, -⟩ | ⟨front, rest, -, -, h⟩ <;> rw [h]
  simp [Operation.isRead]

@[simp] theorem doWrite_frames : s.doWrite.frames = s.frames := by
  rcases s.doWrite_cases with ⟨h, -⟩ | ⟨front, rest, -, -, h⟩ <;> rw [h]
  simp [frames, List.filterMap_append]

@[simp] theorem send_connected : (s.send text).connected = s.connected := by
  rw [send_cases]
  split <;> rfl

@[simp] theorem send_shouldReconnect : (s.send text).shouldReconnect = s.shouldReconnect := by
  rw [send_cases]
  split <;> rfl

@[simp] theorem send_buffer : (s.send text).buffer = s.buffer := by
  rw [send_cases]
  split <;> rfl

@[simp] theorem send_connection : (s.send text).connection = s.connection := by
  rw [send_cases]
  split <;> rfl

@[simp] theorem send_sleeping : (s.send text).sleeping = s.sleeping := by
  rw [send_cases]
  split <;> rfl

@[simp] theorem send_handlerState : (s.send text).handlerState = s.handlerState := by
  rw [send_cases]
  split <;> rfl

@[simp] theorem send_writeQueue : (s.send text).writeQueue = s.writeQueue ++ [text] := by
  rw [send_cases]
  split
  · rename_i h
    simp [h.2]
  · rfl

@[simp] theorem send_chains : (s.send text).chains = s.chains := by
  rw [send_cases]
  split <;> simp [chains, List.countP_append, Operation.isChain]

@[simp] theorem send_reads : (s.send text).reads = s.reads := by
  rw [send_cases]
  split <;> simp [reads, List.countP_append, Operation.isRead]

theorem doWrite_writes : s.doWrite.writes
      = s.writes ++ if s.connected then s.writeQueue.head?.toList else [] := by
  rcases s.doWrite_cases with ⟨h, hnone | hnone⟩ | ⟨front, rest, hqueue, hconnected, h⟩
  · rw [h]
    simp [hnone]
  · rw [h]
    simp [hnone]
  · rw [h]
    simp [hqueue, hconnected, Operation.writeText]

theorem send_writes : (s.send text).writes
      = s.writes ++ if s.connected = true ∧ s.writeQueue = [] then [text] else [] := by
  rw [send_cases]
  split
  · simp [writes, List.filterMap_append, Operation.writeText]
  · simp [writes]

theorem send_log : (s.send text).log = s.log ++ .sent text ::
      if s.connected = true ∧ s.writeQueue = [] then [.writeStarted s.connection text] else [] := by
  rw [send_cases]
  split <;> simp

theorem doWrite_log : s.doWrite.log = s.log ++
      if s.connected then s.writeQueue.head?.toList.map (Event.writeStarted s.connection) else [] := by
  rcases s.doWrite_cases with ⟨h, hnone | hnone⟩ | ⟨front, rest, hqueue, hconnected, h⟩
  · rw [h]
    simp [hnone]
  · rw [h]
    simp [hnone]
  · rw [h]
    simp [hqueue, hconnected]

@[simp] theorem send_frames : (s.send text).frames = s.frames := by
  rw [send_cases]
  split <;> simp [frames, List.filterMap_append]

@[simp] theorem stop_connected : (s.stop isOpen).connected = false := by
  unfold stop
  split <;> rfl

@[simp] theorem stop_shouldReconnect : (s.stop isOpen).shouldReconnect = false := by
  unfold stop
  split <;> rfl

@[simp] theorem stop_buffer : (s.stop isOpen).buffer = s.buffer := by
  unfold stop
  split <;> rfl

@[simp] theorem stop_connection : (s.stop isOpen).connection = s.connection := by
  unfold stop
  split <;> rfl

@[simp] theorem stop_sleeping : (s.stop isOpen).sleeping = s.sleeping := by
  unfold stop
  split <;> rfl

@[simp] theorem stop_handlerState : (s.stop isOpen).handlerState = s.handlerState := by
  unfold stop
  split <;> rfl

@[simp] theorem stop_writeQueue : (s.stop isOpen).writeQueue = s.writeQueue := by
  unfold stop
  split <;> rfl

@[simp] theorem stop_log : (s.stop isOpen).log = s.log := by
  unfold stop
  split <;> rfl

@[simp] theorem stop_chains : (s.stop isOpen).chains = s.chains := by
  unfold stop
  split <;> simp [chains, List.countP_append, Operation.isChain]

@[simp] theorem stop_reads : (s.stop isOpen).reads = s.reads := by
  unfold stop
  split <;> simp [reads, List.countP_append, Operation.isRead]

@[simp] theorem stop_writes : (s.stop isOpen).writes = s.writes := by
  unfold stop
  split <;> simp [writes, List.filterMap_append, Operation.writeText]

@[simp] theorem stop_frames : (s.stop isOpen).frames = s.frames := by
  rw [frames, stop_log, frames]

end Calls

/-- What `send` and `stop` keep, a list of calls keeps. -/
theorem performAll_induction (P : WebSocketSession σ → Prop) {calls : List Call}
    (hsend : ∀ text, .send text ∈ calls → ∀ u, P u → P (u.send text))
    (hstop : ∀ isOpen, .stop isOpen ∈ calls → ∀ u, P u → P (u.stop isOpen))
    {s : WebSocketSession σ} (h : P s) : P (s.performAll calls) := by
  induction calls generalizing s with
  | nil => exact h
  | cons call calls ih =>
    have hrest : ∀ u, P u → P (u.performAll calls) := fun u hu =>
      ih (fun text hmem => hsend text (List.mem_cons_of_mem _ hmem))
        (fun isOpen hmem => hstop isOpen (List.mem_cons_of_mem _ hmem)) hu
    cases call with
    | send text => exact hrest _ (hsend text List.mem_cons_self s h)
    | stop isOpen => exact hrest _ (hstop isOpen List.mem_cons_self s h)

/-- What `send` and `stop` leave alone, a list of calls leaves alone. -/
theorem performAll_eq {α : Type} (f : WebSocketSession σ → α) (calls : List Call)
    (hsend : ∀ text u, f (u.send text) = f u) (hstop : ∀ isOpen u, f (u.stop isOpen) = f u)
    (s : WebSocketSession σ) : f (s.performAll calls) = f s :=
  performAll_induction (fun u => f u = f s) (fun text _ u hu => (hsend text u).trans hu)
    (fun isOpen _ u hu => (hstop isOpen u).trans hu) rfl

section PerformAll

variable (s : WebSocketSession σ) (calls : List Call)

@[simp] theorem performAll_buffer : (s.performAll calls).buffer = s.buffer :=
  performAll_eq buffer calls (by simp) (by simp) s

@[simp] theorem performAll_connection : (s.performAll calls).connection = s.connection :=
  performAll_eq connection calls (by simp) (by simp) s

@[simp] theorem performAll_sleeping : (s.performAll calls).sleeping = s.sleeping :=
  performAll_eq sleeping calls (by simp) (by simp) s

@[simp] theorem performAll_handlerState : (s.performAll calls).handlerState = s.handlerState :=
  performAll_eq handlerState calls (by simp) (by simp) s

@[simp] theorem performAll_chains : (s.performAll calls).chains = s.chains :=
  performAll_eq chains calls (by simp) (by simp) s

@[simp] theorem performAll_reads : (s.performAll calls).reads = s.reads :=
  performAll_eq reads calls (by simp) (by simp) s

@[simp] theorem performAll_frames : (s.performAll calls).frames = s.frames :=
  performAll_eq frames calls (by simp) (by simp) s

end PerformAll

/-! ## Completions -/

section Finish

variable {s : WebSocketSession σ} {operation : Operation}

section Members

variable (s operation) (outcome : Outcome)

@[simp] theorem finish_connected : (s.finish operation outcome).connected = s.connected := rfl
@[simp] theorem finish_shouldReconnect :
    (s.finish operation outcome).shouldReconnect = s.shouldReconnect := rfl
@[simp] theorem finish_writeQueue : (s.finish operation outcome).writeQueue = s.writeQueue := rfl
@[simp] theorem finish_connection : (s.finish operation outcome).connection = s.connection := rfl
@[simp] theorem finish_sleeping : (s.finish operation outcome).sleeping = s.sleeping := rfl
@[simp] theorem finish_handlerState :
    (s.finish operation outcome).handlerState = s.handlerState := rfl
@[simp] theorem finish_log : (s.finish operation outcome).log = s.log := rfl
@[simp] theorem finish_frames : (s.finish operation outcome).frames = s.frames := rfl

end Members

/-- A completed operation is no longer counted. -/
theorem chains_finish (hmem : operation ∈ s.operations) (outcome : Outcome) :
    (s.finish operation outcome).chains + (if operation.isChain then 1 else 0) = s.chains := by
  have hperm := List.perm_cons_erase hmem
  rw [chains, chains, hperm.countP_eq, List.countP_cons]
  rfl

theorem reads_finish (hmem : operation ∈ s.operations) (outcome : Outcome) :
    (s.finish operation outcome).reads + (if operation.isRead then 1 else 0) = s.reads := by
  have hperm := List.perm_cons_erase hmem
  rw [reads, reads, hperm.countP_eq, List.countP_cons]
  rfl

theorem writes_finish (hmem : operation ∈ s.operations) (outcome : Outcome) :
    s.writes.Perm (operation.writeText.toList ++ (s.finish operation outcome).writes) := by
  have hperm := (List.perm_cons_erase hmem).filterMap Operation.writeText
  rw [List.filterMap_cons] at hperm
  cases htext : operation.writeText with
  | none =>
    rw [htext] at hperm
    exact hperm
  | some text =>
    rw [htext] at hperm
    exact hperm

/-- The completion of another operation leaves the writes as they are. -/
theorem writes_finish_of_none (htext : operation.writeText = none) (outcome : Outcome) :
    (s.finish operation outcome).writes = s.writes := by
  show (s.operations.erase operation).filterMap _ = s.operations.filterMap _
  induction s.operations with
  | nil => rfl
  | cons first rest ih =>
    by_cases hfirst : first = operation
    · rw [hfirst, List.erase_cons_head, List.filterMap_cons, htext]
    · rw [List.erase_cons_tail (by simpa using hfirst), List.filterMap_cons, List.filterMap_cons, ih]

end Finish

/-! ## The steps -/

/-- What `on_handshake` sends by itself. -/
def greeting (cfg : WebSocketSessionConfig) : List Bytes := [cfg.authMsg, cfg.subMsg].filter (· ≠ [])

def greet (cfg : WebSocketSessionConfig) (s : WebSocketSession σ) : WebSocketSession σ :=
  let s := if cfg.authMsg ≠ [] then s.send cfg.authMsg else s
  if cfg.subMsg ≠ [] then s.send cfg.subMsg else s

/-- The session once a WebSocket handshake has succeeded. -/
def opened (cfg : WebSocketSessionConfig) (s : WebSocketSession σ) : WebSocketSession σ :=
  let s := { s with connected := true, connection := s.connection + 1 }.greet cfg
  let s := if s.writeQueue ≠ [] then s.doWrite else s
  s.armHeartbeat.doRead

/-- The session once a frame has been passed to the handler, which then keeps `kept`. -/
def delivered (connection : ℕ) (calls : List Call) (kept : σ) (s : WebSocketSession σ) :
    WebSocketSession σ :=
  let s := { s with handlerState := kept }.record (.frame connection s.buffer)
  { s.performAll calls with buffer := [] }.doRead

/-- The session once a write of `text` has succeeded. -/
def wrote (text : Bytes) (s : WebSocketSession σ) : WebSocketSession σ :=
  let s := { s with writeQueue := s.writeQueue.tail }.record (.popped text s.writeQueue.head?)
  if s.writeQueue ≠ [] then s.doWrite else s

section Outcomes

variable (s : WebSocketSession σ) (cfg : WebSocketSessionConfig) (connection : ℕ) (calls : List Call)
  (kept : σ) (text : Bytes)

/-- The greeting is sent message by message. -/
theorem greet_eq : s.greet cfg = s.performAll ((greeting cfg).map .send) := by
  by_cases hauth : cfg.authMsg = [] <;> by_cases hsub : cfg.subMsg = [] <;>
    simp [greet, greeting, performAll, hauth, hsub]

@[simp] theorem greet_connected : (s.greet cfg).connected = s.connected := by
  simp [greet, apply_ite WebSocketSession.connected]

@[simp] theorem greet_shouldReconnect : (s.greet cfg).shouldReconnect = s.shouldReconnect := by
  simp [greet, apply_ite shouldReconnect]

@[simp] theorem greet_writeQueue : (s.greet cfg).writeQueue = s.writeQueue ++ greeting cfg := by
  by_cases hauth : cfg.authMsg = [] <;> by_cases hsub : cfg.subMsg = [] <;>
    simp [greet, greeting, hauth, hsub]

/-- Over an empty queue the first message of the greeting is written. -/
theorem greet_writes (hconnected : s.connected = true) : (s.greet cfg).writes
      = s.writes ++ if s.writeQueue = [] then (greeting cfg).head?.toList else [] := by
  by_cases hauth : cfg.authMsg = [] <;> by_cases hsub : cfg.subMsg = [] <;>
    simp [greet, greeting, hauth, hsub, send_writes, hconnected]

/-- `do_write` checks for an empty queue by itself. -/
theorem opened_eq : s.opened cfg
      = ({ s with connected := true
                  connection := s.connection + 1 }.greet cfg).doWrite.armHeartbeat.doRead := by
  unfold opened
  dsimp only
  split
  · rfl
  · rename_i hempty
    rw [doWrite, not_not.mp hempty]

@[simp] theorem opened_connected : (s.opened cfg).connected = true := by
  simp [opened_eq, doRead, armHeartbeat]

@[simp] theorem opened_shouldReconnect : (s.opened cfg).shouldReconnect = s.shouldReconnect := by
  simp [opened_eq, doRead, armHeartbeat]

@[simp] theorem opened_buffer : (s.opened cfg).buffer = s.buffer := by
  simp [opened_eq, doRead, armHeartbeat, greet_eq]

@[simp] theorem opened_writeQueue : (s.opened cfg).writeQueue = s.writeQueue ++ greeting cfg := by
  simp [opened_eq, doRead, armHeartbeat]

@[simp] theorem opened_connection : (s.opened cfg).connection = s.connection + 1 := by
  simp [opened_eq, doRead, armHeartbeat, greet_eq]

@[simp] theorem opened_sleeping : (s.opened cfg).sleeping = s.sleeping := by
  simp [opened_eq, doRead, armHeartbeat, greet_eq]

@[simp] theorem opened_handlerState : (s.opened cfg).handlerState = s.handlerState := by
  simp [opened_eq, doRead, armHeartbeat, greet_eq]

@[simp] theorem opened_chains : (s.opened cfg).chains = s.chains := by
  simp [opened_eq, doRead, armHeartbeat, greet_eq, Operation.isChain]
  rfl

@[simp] theorem opened_reads : (s.opened cfg).reads = s.reads + 1 := by
  simp [opened_eq, doRead, armHeartbeat, greet_eq, Operation.isRead]
  rfl

/-- The front of the queue is written, even when it is the greeting that `send` has begun to write. -/
theorem opened_writes : (s.opened cfg).writes = s.writes ++
      (if s.writeQueue = [] then (greeting cfg).head?.toList else []) ++
        (s.writeQueue ++ greeting cfg).head?.toList := by
  rw [opened_eq, doRead, armHeartbeat, writes_launch, writes_launch, doWrite_writes, greet_connected,
    greet_writeQueue, greet_writes _ _ rfl]
  simp only [Operation.writeText, Option.toList_none, List.append_nil, if_true]
  rfl

@[simp] theorem opened_frames : (s.opened cfg).frames = s.frames := by
  rw [opened_eq]
  refine (doWrite_frames _).trans ?_
  rw [greet_eq]
  exact performAll_frames _ _

@[simp] theorem delivered_chains : (s.delivered connection calls kept).chains = s.chains := by
  simp only [delivered, doRead, chains_launch]
  exact performAll_chains _ _

@[simp] theorem delivered_reads : (s.delivered connection calls kept).reads = s.reads + 1 := by
  simp only [delivered, doRead, reads_launch]
  exact congrArg (· + 1) (performAll_reads _ _)

@[simp] theorem delivered_buffer : (s.delivered connection calls kept).buffer = [] := rfl

@[simp] theorem delivered_connection :
    (s.delivered connection calls kept).connection = s.connection :=
  performAll_connection _ _

@[simp] theorem delivered_sleeping : (s.delivered connection calls kept).sleeping = s.sleeping :=
  performAll_sleeping _ _

@[simp] theorem delivered_handlerState :
    (s.delivered connection calls kept).handlerState = kept :=
  performAll_handlerState _ _

/-- A frame is recorded, the calls of its handler are performed, and the next read starts over an empty
buffer. -/
theorem delivered_induction (P : WebSocketSession σ → Prop)
    (hframe : P ({ s with handlerState := kept }.record (.frame connection s.buffer)))
    (hcalls : ∀ u, P u → P (u.performAll calls))
    (hread : ∀ u : WebSocketSession σ, P u → P { u with buffer := [] }.doRead) :
    P (s.delivered connection calls kept) :=
  hread _ (hcalls _ hframe)

theorem delivered_frames :
    (s.delivered connection calls kept).frames = s.frames ++ [(connection, s.buffer)] := by
  refine (performAll_frames _ _).trans ?_
  simp [frames, List.filterMap_append]

@[simp] theorem wrote_connected : (s.wrote text).connected = s.connected := by
  unfold wrote
  dsimp only
  split <;> simp

@[simp] theorem wrote_shouldReconnect : (s.wrote text).shouldReconnect = s.shouldReconnect := by
  unfold wrote
  dsimp only
  split <;> simp

@[simp] theorem wrote_buffer : (s.wrote text).buffer = s.buffer := by
  unfold wrote
  dsimp only
  split <;> simp

@[simp] theorem wrote_writeQueue : (s.wrote text).writeQueue = s.writeQueue.tail := by
  unfold wrote
  dsimp only
  split <;> simp

@[simp] theorem wrote_connection : (s.wrote text).connection = s.connection := by
  unfold wrote
  dsimp only
  split <;> simp

@[simp] theorem wrote_sleeping : (s.wrote text).sleeping = s.sleeping := by
  unfold wrote
  dsimp only
  split <;> simp

@[simp] theorem wrote_handlerState : (s.wrote text).handlerState = s.handlerState := by
  unfold wrote
  dsimp only
  split <;> simp

@[simp] theorem wrote_chains : (s.wrote text).chains = s.chains := by
  unfold wrote
  dsimp only
  split <;> simp <;> rfl

@[simp] theorem wrote_reads : (s.wrote text).reads = s.reads := by
  unfold wrote
  dsimp only
  split <;> simp <;> rfl

/-- After a pop the next message is written, if the session is still connected. -/
theorem wrote_writes : (s.wrote text).writes
      = s.writes ++ if s.connected then s.writeQueue.tail.head?.toList else [] := by
  unfold wrote
  dsimp only
  split
  · rw [doWrite_writes]
    rfl
  · rename_i hempty
    have htail : s.writeQueue.tail = [] := by simpa using hempty
    rw [htail]
    simp [writes]

theorem wrote_log : (s.wrote text).log = s.log ++ .popped text s.writeQueue.head? ::
      if s.connected then s.writeQueue.tail.head?.toList.map (Event.writeStarted s.connection)
      else [] := by
  unfold wrote
  dsimp only
  split
  · rw [doWrite_log]
    simp
  · rename_i hempty
    have htail : s.writeQueue.tail = [] := by simpa using hempty
    rw [htail]
    simp

@[simp] theorem wrote_frames : (s.wrote text).frames = s.frames := by
  unfold wrote
  dsimp only
  split
  · rw [doWrite_frames]
    simp [frames, List.filterMap_append]
  · simp [frames, List.filterMap_append]

end Outcomes

/-- The steps of the session. -/
inductive Transition (cfg : WebSocketSessionConfig) (handler : FrameHandler σ)
    (s : WebSocketSession σ) : Action σ → WebSocketSession σ → Prop
  | started : Transition cfg handler s .start (s.start cfg)
  | called {f : σ → List Call × σ} :
      Transition cfg handler s (.call f)
        ({ s with handlerState := (f s.handlerState).2 }.performAll (f s.handlerState).1)
  | woken (sleeping : s.sleeping = true) : Transition cfg handler s .wake (s.wake cfg)
  | failed {operation : Operation} {outcome : Outcome} (awake : s.sleeping = false)
      (mem : operation ∈ s.operations)
      (error : outcome.ec = true ∨ operation = .connect ∧ outcome.hostName = false)
      (noTimer : operation ≠ .heartbeat) :
      Transition cfg handler s (.complete operation outcome) (s.finish operation outcome).fail
  | resolved {host port : String} {outcome : Outcome} (awake : s.sleeping = false)
      (mem : .resolve host port ∈ s.operations) (ok : outcome.ec = false) :
      Transition cfg handler s (.complete (.resolve host port) outcome)
        ((s.finish (.resolve host port) outcome).launch .connect)
  | connected {outcome : Outcome} (awake : s.sleeping = false) (mem : .connect ∈ s.operations)
      (ok : outcome.ec = false) (hostName : outcome.hostName = true) :
      Transition cfg handler s (.complete .connect outcome)
        ({ s.finish .connect outcome with
          hostPort := cfg.host ++ ":" ++ toString outcome.port }.launch .sslHandshake)
  | secured {outcome : Outcome} (awake : s.sleeping = false) (mem : .sslHandshake ∈ s.operations)
      (ok : outcome.ec = false) :
      Transition cfg handler s (.complete .sslHandshake outcome)
        ((s.finish .sslHandshake outcome).launch (.handshake s.hostPort cfg.endpoint))
  | opened {hostPort endpoint : String} {outcome : Outcome} (awake : s.sleeping = false)
      (mem : .handshake hostPort endpoint ∈ s.operations) (ok : outcome.ec = false) :
      Transition cfg handler s (.complete (.handshake hostPort endpoint) outcome)
        ((s.finish (.handshake hostPort endpoint) outcome).opened cfg)
  | delivered {connection : ℕ} {outcome : Outcome} {calls : List Call} {kept : σ}
      (awake : s.sleeping = false) (mem : .read connection ∈ s.operations) (ok : outcome.ec = false)
      (handled : handler connection (s.buffer ++ outcome.bytes) s.handlerState = (calls, kept)) :
      Transition cfg handler s (.complete (.read connection) outcome)
        ((s.finish (.read connection) outcome).delivered connection calls kept)
  | wrote {connection : ℕ} {text : Bytes} {outcome : Outcome} (awake : s.sleeping = false)
      (mem : .write connection text ∈ s.operations) (ok : outcome.ec = false) :
      Transition cfg handler s (.complete (.write connection text) outcome)
        ((s.finish (.write connection text) outcome).wrote text)
  | pinged {outcome : Outcome} (awake : s.sleeping = false) (mem : .heartbeat ∈ s.operations)
      (ok : outcome.ec = false) (connected : s.connected = true) :
      Transition cfg handler s (.complete .heartbeat outcome)
        ((s.finish .heartbeat outcome).launch (.ping s.connection))
  | timerDropped {outcome : Outcome} (awake : s.sleeping = false) (mem : .heartbeat ∈ s.operations)
      (ignored : outcome.ec = true ∨ s.connected = false) :
      Transition cfg handler s (.complete .heartbeat outcome) (s.finish .heartbeat outcome)
  | armed {connection : ℕ} {outcome : Outcome} (awake : s.sleeping = false)
      (mem : .ping connection ∈ s.operations) (ok : outcome.ec = false) :
      Transition cfg handler s (.complete (.ping connection) outcome)
        ((s.finish (.ping connection) outcome).launch .heartbeat)
  | closed {outcome : Outcome} (awake : s.sleeping = false) (mem : .close ∈ s.operations)
      (ok : outcome.ec = false) :
      Transition cfg handler s (.complete .close outcome) (s.finish .close outcome)

variable {cfg : WebSocketSessionConfig} {handler : FrameHandler σ} {s t : WebSocketSession σ}
  {a : Action σ}

private theorem transition_complete {operation : Operation} {outcome : Outcome}
    (awake : s.sleeping = false) (mem : operation ∈ s.operations) :
    Transition cfg handler s (.complete operation outcome)
      ((s.finish operation outcome).dispatch cfg handler operation outcome) := by
  cases hec : outcome.ec with
  | true =>
    -- every handler but `on_ping_timer` calls `fail`
    by_cases htimer : operation = .heartbeat
    · subst htimer
      simp only [dispatch, onPingTimer, hec, Bool.true_or, if_true]
      exact .timerDropped awake mem (Or.inl hec)
    · cases operation with
      | heartbeat => exact absurd rfl htimer
      | _ =>
        simp only [dispatch, onResolve, onConnect, onSslHandshake, onHandshake, onRead, onWrite, onPing,
          onClose, hec, if_true]
        exact .failed awake mem (Or.inl hec) htimer
  | false =>
    cases operation with
    | resolve host port =>
      simp only [dispatch, onResolve, hec, Bool.false_eq_true, if_false]
      exact .resolved awake mem hec
    | connect =>
      cases hname : outcome.hostName with
      | false =>
        simp only [dispatch, onConnect, hec, hname, Bool.not_false, Bool.false_eq_true, if_false, if_true]
        exact .failed awake mem (Or.inr ⟨rfl, hname⟩) (by simp)
      | true =>
        simp only [dispatch, onConnect, hec, hname, Bool.not_true, Bool.false_eq_true, if_false]
        exact .connected awake mem hec hname
    | sslHandshake =>
      simp only [dispatch, onSslHandshake, hec, Bool.false_eq_true, if_false]
      exact .secured awake mem hec
    | handshake hostPort endpoint =>
      simp only [dispatch, onHandshake, hec, Bool.false_eq_true, if_false]
      exact .opened awake mem hec
    | read connection =>
      simp only [dispatch, onRead, hec, Bool.false_eq_true, if_false]
      exact .delivered awake mem hec rfl
    | write connection text =>
      simp only [dispatch, onWrite, hec, Bool.false_eq_true, if_false]
      exact .wrote awake mem hec
    | heartbeat =>
      cases hconnected : s.connected with
      | false =>
        have hfinish : (s.finish .heartbeat outcome).connected = false := hconnected
        simp only [dispatch, onPingTimer, hec, hfinish, Bool.not_false, Bool.or_true, if_true]
        exact .timerDropped awake mem (Or.inr hconnected)
      | true =>
        have hfinish : (s.finish .heartbeat outcome).connected = true := hconnected
        simp only [dispatch, onPingTimer, hec, hfinish, Bool.not_true, Bool.or_false,
          Bool.false_eq_true, if_false]
        exact .pinged awake mem hec hconnected
    | ping connection =>
      simp only [dispatch, onPing, hec, Bool.false_eq_true, if_false]
      exact .armed awake mem hec
    | close =>
      simp only [dispatch, onClose, hec, Bool.false_eq_true, if_false]
      exact .closed awake mem hec

/-- The step function does nothing else. -/
theorem transition_of_step (h : step cfg handler s a = some t) : Transition cfg handler s a t := by
  cases a with
  | start =>
    cases h
    exact .started
  | call f =>
    cases h
    exact .called
  | wake =>
    simp only [step] at h
    split at h
    · rename_i sleeping
      cases h
      exact .woken sleeping
    · cases h
  | complete operation outcome =>
    simp only [step] at h
    split at h
    · rename_i enabled
      rw [Bool.and_eq_true, Bool.not_eq_true', decide_eq_true_eq] at enabled
      cases h
      exact transition_complete enabled.1 enabled.2
    · cases h

/-- A WebSocket handshake succeeds. -/
def Action.Opens : Action σ → Prop
  | .complete (.handshake _ _) outcome => outcome.ec = false
  | _ => False

theorem opened_of_step (h : step cfg handler s a = some t) (ha : a.Opens) :
    ∃ hostPort endpoint outcome, .handshake hostPort endpoint ∈ s.operations ∧
      t = (s.finish (.handshake hostPort endpoint) outcome).opened cfg := by
  cases transition_of_step h with
  | @opened hostPort endpoint outcome _ mem => exact ⟨hostPort, endpoint, outcome, mem, rfl⟩
  | @failed operation outcome _ _ error =>
    cases operation with
    | handshake hostPort endpoint =>
      have hok : outcome.ec = false := ha
      simp [hok] at error
    | _ => exact absurd ha id
  | _ => exact absurd ha id

end WebSocketSession

end MacdTradingBot
