import MacdTradingBot.WebSocket.Transitions

/-!
# What a step starts

Without a greeting every step starts at most one write: of the front of the queue when a connection
opens, of the next message after a write, or of the first message sent over an empty queue. `nextWrite`
and `nextKept` tell from the state before a step what it writes and what the frame handler keeps.
-/

namespace MacdTradingBot

namespace WebSocketSession

variable {σ : Type}

def Event.started : Event → Option (ℕ × Bytes)
  | .writeStarted connection text => some (connection, text)
  | .sent _ | .resolveStarted | .popped _ _ | .frame _ _ => none

/-- The writes started, with their connections, in order. -/
def starts (s : WebSocketSession σ) : List (ℕ × Bytes) := s.log.filterMap Event.started

def firstSend : List Call → Option Bytes
  | .send text :: _ => some text
  | .stop _ :: _ => none
  | [] => none

/-- The write that the calls start: of the first message, over an empty queue. -/
def callWrite (s : WebSocketSession σ) (calls : List Call) : Option (ℕ × Bytes) :=
  if s.connected = true ∧ s.writeQueue = [] then (firstSend calls).map fun text => (s.connection, text)
  else none

/-- The write that a step starts. -/
def nextWrite (handler : FrameHandler σ) (s : WebSocketSession σ) : Action σ → Option (ℕ × Bytes)
  | .start | .wake => none
  | .call f => s.callWrite (f s.handlerState).1
  | .complete operation outcome =>
    if outcome.ec then none
    else
      match operation with
      | .handshake _ _ => s.writeQueue.head?.map fun text => (s.connection + 1, text)
      | .read connection =>
        s.callWrite (handler connection (s.buffer ++ outcome.bytes) s.handlerState).1
      | .write _ _ =>
        if s.connected then s.writeQueue.tail.head?.map fun text => (s.connection, text) else none
      | _ => none

/-- What the frame handler keeps after a step. -/
def nextKept (handler : FrameHandler σ) (s : WebSocketSession σ) : Action σ → σ
  | .call f => (f s.handlerState).2
  | .complete (.read connection) outcome =>
    if outcome.ec then s.handlerState
    else (handler connection (s.buffer ++ outcome.bytes) s.handlerState).2
  | _ => s.handlerState

section Operations

variable (s : WebSocketSession σ) (cfg : WebSocketSessionConfig) (text : Bytes) (calls : List Call)
  (operation : Operation) (outcome : Outcome)

/-- What is recorded adds the writes that it starts. -/
theorem starts_of_log {s t : WebSocketSession σ} {events : List Event} (h : t.log = s.log ++ events) :
    t.starts = s.starts ++ events.filterMap Event.started := by
  rw [starts, h, List.filterMap_append, starts]

@[simp] theorem launch_starts : (s.launch operation).starts = s.starts := rfl

@[simp] theorem finish_starts : (s.finish operation outcome).starts = s.starts := rfl

@[simp] theorem fail_starts : s.fail.starts = s.starts := by
  rw [starts, fail_log, starts]

@[simp] theorem start_starts : (s.start cfg).starts = s.starts := by
  unfold start
  split
  · rfl
  · simp [resolve, starts, List.filterMap_append, Event.started]

@[simp] theorem stop_starts (isOpen : Bool) : (s.stop isOpen).starts = s.starts := by
  rw [starts, stop_log, starts]

/-- A call of `send` starts a write when the queue was empty and the session is connected. -/
theorem send_starts : (s.send text).starts = s.starts ++ (s.callWrite [.send text]).toList := by
  rw [starts_of_log (send_log s text), callWrite]
  split <;> rfl

/-- `do_write` starts a write of the front of the queue. -/
theorem doWrite_starts : s.doWrite.starts = s.starts ++
      if s.connected then (s.writeQueue.head?.map fun text => (s.connection, text)).toList else [] := by
  rw [starts_of_log (doWrite_log s)]
  cases s.connected <;> cases s.writeQueue <;> rfl

/-- After the first call there is nothing left to start: the queue is not empty, or the session is not
connected. -/
theorem performAll_starts : (s.performAll calls).starts = s.starts ++ (s.callWrite calls).toList := by
  induction calls generalizing s with
  | nil => simp [performAll, callWrite, firstSend]
  | cons call calls ih =>
    cases call with
    | send text =>
      have hrest : (s.send text).callWrite calls = none := by simp [callWrite]
      refine (ih (s.send text)).trans ?_
      rw [hrest, send_starts]
      simp [callWrite, firstSend]
    | stop isOpen =>
      have hrest : (s.stop isOpen).callWrite calls = none := by simp [callWrite]
      refine (ih (s.stop isOpen)).trans ?_
      rw [hrest, stop_starts]
      simp [callWrite, firstSend]

/-- A handshake that succeeds starts a write of what has waited, on the new connection. -/
theorem opened_starts (hgreeting : greeting cfg = []) : (s.opened cfg).starts
      = s.starts ++ (s.writeQueue.head?.map fun text => (s.connection + 1, text)).toList := by
  rw [opened_eq, greet_eq, hgreeting]
  exact doWrite_starts _

/-- A frame starts the write that the calls of its handler ask for. -/
theorem delivered_starts (connection : ℕ) (kept : σ) : (s.delivered connection calls kept).starts
      = s.starts ++ (s.callWrite calls).toList := by
  have hrecorded : ({ s with handlerState := kept }.record (.frame connection s.buffer)).starts
      = s.starts := by
    simp [starts, List.filterMap_append, Event.started]
  refine (performAll_starts _ calls).trans ?_
  rw [hrecorded]
  rfl

/-- A write that is done starts the next one. -/
theorem wrote_starts : (s.wrote text).starts = s.starts ++
      if s.connected then (s.writeQueue.tail.head?.map fun text => (s.connection, text)).toList else [] := by
  rw [starts_of_log (wrote_log s text)]
  cases s.connected <;> cases s.writeQueue.tail <;> rfl

end Operations

variable {cfg : WebSocketSessionConfig} {handler : FrameHandler σ} {s t : WebSocketSession σ}
  {a : Action σ}

/-- A step starts the write that `nextWrite` tells, and no other. -/
theorem starts_of_step (hgreeting : greeting cfg = []) (hstep : step cfg handler s a = some t) :
    t.starts = s.starts ++ (s.nextWrite handler a).toList := by
  cases transition_of_step hstep with
  | started => simp [nextWrite]
  | called => exact performAll_starts _ _
  | woken =>
    rw [nextWrite, Option.toList_none, List.append_nil]
    apply wake_induction (fun u => u.starts = s.starts)
    · rfl
    · intro u hu
      exact (start_starts u cfg).trans hu
  | @failed operation outcome _ _ error =>
    rcases error with hec | ⟨rfl, -⟩
    · simp [nextWrite, hec]
    · simp [nextWrite]
  | opened _ _ ok => simp [nextWrite, ok, opened_starts, hgreeting]
  | delivered _ _ ok handled =>
    rw [delivered_starts]
    simp only [nextWrite, ok, handled, Bool.false_eq_true, if_false]
    rfl
  | wrote _ _ ok =>
    rw [wrote_starts]
    cases hconnected : s.connected <;> simp [nextWrite, ok, hconnected]
  | resolved | secured | pinged | armed | closed => simp [nextWrite]
  | timerDropped => simp [nextWrite]
  | connected => simp [nextWrite, starts]

/-- A step hands the state of the handler on, or runs the handler. -/
theorem handlerState_of_step (hstep : step cfg handler s a = some t) :
    t.handlerState = s.nextKept handler a := by
  cases transition_of_step hstep with
  | started => simp [nextKept]
  | called => simp [nextKept]
  | woken =>
    apply wake_induction (fun u => u.handlerState = s.handlerState)
    · rfl
    · intro u hu
      exact (start_handlerState u cfg).trans hu
  | @failed operation outcome _ _ error =>
    rcases error with hec | ⟨rfl, -⟩
    · cases operation <;> simp [nextKept, hec]
    · simp [nextKept]
  | delivered _ _ ok handled => simp [nextKept, ok, handled]
  | opened | wrote | resolved | connected | secured | pinged | armed | closed | timerDropped =>
    simp [nextKept]

/-- Only what is under way is completed. -/
theorem mem_of_complete {operation : Operation} {outcome : Outcome}
    (hstep : step cfg handler s (.complete operation outcome) = some t) : operation ∈ s.operations := by
  simp only [step] at hstep
  split at hstep
  · rename_i enabled
    rw [Bool.and_eq_true, decide_eq_true_eq] at enabled
    exact enabled.2
  · cases hstep

/-! ## Reads and their connections -/

section Reads

variable (connection : ℕ)

/-- No call but `do_read` puts a read under way. -/
theorem send_read_mem (s : WebSocketSession σ) (text : Bytes) :
    (.read connection ∈ (s.send text).operations) = (.read connection ∈ s.operations) := by
  rw [send_cases]
  split <;> simp

/-- Stopping leaves the reads under way. -/
theorem stop_read_mem (s : WebSocketSession σ) (isOpen : Bool) :
    (.read connection ∈ (s.stop isOpen).operations) = (.read connection ∈ s.operations) := by
  unfold stop
  split <;> simp

/-- The calls of a handler leave the reads under way. -/
theorem performAll_read_mem (s : WebSocketSession σ) (calls : List Call) :
    (.read connection ∈ (s.performAll calls).operations) = (.read connection ∈ s.operations) :=
  performAll_eq (fun u => .read connection ∈ u.operations) calls
    (fun text u => send_read_mem connection u text) (fun isOpen u => stop_read_mem connection u isOpen) s

theorem doWrite_read_mem (s : WebSocketSession σ) :
    (.read connection ∈ s.doWrite.operations) = (.read connection ∈ s.operations) := by
  rcases s.doWrite_cases with ⟨h, -⟩ | ⟨front, rest, -, -, h⟩ <;> rw [h]
  simp

theorem start_read_mem (s : WebSocketSession σ) (cfg : WebSocketSessionConfig) :
    (.read connection ∈ (s.start cfg).operations) = (.read connection ∈ s.operations) := by
  unfold start
  split <;> simp [resolve]

theorem wrote_read_mem (s : WebSocketSession σ) (text : Bytes) :
    (.read connection ∈ (s.wrote text).operations) = (.read connection ∈ s.operations) := by
  unfold wrote
  dsimp only
  split
  · exact doWrite_read_mem connection _
  · rfl

/-- A read is on the connection that is open when it starts. -/
theorem read_mem_of_step (hstep : step cfg handler s a = some t)
    (h : .read connection ∈ t.operations) :
    .read connection ∈ s.operations ∨ connection = t.connection := by
  cases transition_of_step hstep with
  | started =>
    rw [start_read_mem] at h
    exact Or.inl h
  | called =>
    rw [performAll_read_mem] at h
    exact Or.inl h
  | woken =>
    left
    revert h
    apply wake_induction (fun u => .read connection ∈ u.operations → .read connection ∈ s.operations)
    · exact id
    · intro u hu
      rwa [start_read_mem]
  | failed =>
    rw [fail_eq] at h
    exact Or.inl (List.mem_of_mem_erase h)
  | @opened hostPort endpoint outcome _ _ _ =>
    -- of what the handshake starts, the last operation is the read
    rw [opened_eq, greet_eq, doRead, armHeartbeat, launch_operations, launch_operations, List.mem_append,
      List.mem_append, doWrite_read_mem, performAll_read_mem] at h
    rcases h with (h | h) | h
    · exact Or.inl (List.mem_of_mem_erase h)
    · simp at h
    · right
      simpa [opened_connection] using h
  | @delivered c outcome calls kept _ _ _ _ =>
    rw [delivered, doRead, launch_operations, List.mem_append] at h
    rcases h with h | h
    · left
      have hcalls : .read connection ∈ ((({ s.finish (.read c) outcome with handlerState := kept }).record
          (.frame c (s.finish (.read c) outcome).buffer)).performAll calls).operations := h
      rw [performAll_read_mem] at hcalls
      exact List.mem_of_mem_erase hcalls
    · right
      simpa using h
  | wrote =>
    rw [wrote_read_mem] at h
    exact Or.inl (List.mem_of_mem_erase h)
  | timerDropped | closed => exact Or.inl (List.mem_of_mem_erase h)
  | resolved | connected | secured | pinged | armed =>
    rw [launch_operations, List.mem_append] at h
    rcases h with h | h
    · exact Or.inl (List.mem_of_mem_erase h)
    · simp at h

end Reads

end WebSocketSession

end MacdTradingBot
