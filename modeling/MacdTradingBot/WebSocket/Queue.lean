import MacdTradingBot.WebSocket.Writing

/-!
# First in, first out

With `auth_msg` and `sub_msg` empty, as the market feed has them, every message sent on one connection is
written once and in order: what has been sent is what has been written, followed by what is in the queue
(`Fifo`), and only the front of the queue is ever under way.
-/

namespace MacdTradingBot

namespace WebSocketSession

variable {σ : Type}

/-- The messages passed to `send`, in order. -/
def sentTexts (s : WebSocketSession σ) : List Bytes :=
  s.log.filterMap fun
    | .sent text => some text
    | _ => none

/-- The messages whose write was started, in order. -/
def begun (s : WebSocketSession σ) : List Bytes :=
  s.log.filterMap fun
    | .writeStarted _ text => some text
    | _ => none

/-- The messages whose write has completed with success, in order. -/
def written (s : WebSocketSession σ) : List Bytes := s.pops.map Prod.fst

/-- What has been sent is what has been written, then what is queued. What was begun is what has been
written, then the write under way; after a failed write this is the front of the queue. -/
structure Fifo (s : WebSocketSession σ) : Prop where
  inFlight : s.InFlight
  sent : s.sentTexts = s.written ++ s.writeQueue
  begun : s.begun = s.written ++ s.writes ∨ s.connected = false ∧ s.connection ≠ 0 ∧ s.writes = [] ∧
    ∃ front rest, s.writeQueue = front :: rest ∧ s.begun = s.written ++ [front]

variable {cfg : WebSocketSessionConfig} {handler : FrameHandler σ} {s t : WebSocketSession σ}
  {a : Action σ} {kept : σ}

/-- Steps that touch neither the queue nor the record of what was sent, begun and written. -/
theorem Fifo.of_eq (h : s.Fifo) (hin : t.InFlight) (hsent : t.sentTexts = s.sentTexts)
    (hbegun : t.begun = s.begun) (hwritten : t.written = s.written)
    (hqueue : t.writeQueue = s.writeQueue) (hwrites : t.writes = s.writes)
    (hconnection : t.connection = s.connection) (hconnected : s.connected = false → t.connected = false) :
    t.Fifo where
  inFlight := hin
  sent := by rw [hsent, hwritten, hqueue, h.sent]
  begun := by
    rw [hbegun, hwritten, hqueue, hwrites, hconnection]
    exact h.begun.imp_right (And.imp_left hconnected)

theorem send_sentTexts (s : WebSocketSession σ) (text : Bytes) :
    (s.send text).sentTexts = s.sentTexts ++ [text] := by
  rw [sentTexts, send_log, sentTexts, List.filterMap_append]
  split <;> rfl

/-- A message that is sent goes to the end. -/
theorem Fifo.send (h : s.Fifo) (text : Bytes) : (s.send text).Fifo := by
  have hwritten : (s.send text).written = s.written := congrArg (List.map Prod.fst) (send_pops s text)
  have hbegun : (s.send text).begun
      = s.begun ++ if s.connected = true ∧ s.writeQueue = [] then [text] else [] := by
    rw [WebSocketSession.begun, send_log, WebSocketSession.begun, List.filterMap_append]
    split <;> rfl
  refine ⟨h.inFlight.send text, ?_, ?_⟩
  · rw [send_sentTexts, hwritten, send_writeQueue, h.sent, List.append_assoc]
  · rw [hbegun, hwritten, send_writes, send_connected, send_connection, send_writeQueue]
    rcases h.begun with hbegun | ⟨hdisconnected, hconnection, hnone, front, rest, hqueue, hfront⟩
    · left
      rw [hbegun, List.append_assoc]
    · right
      refine ⟨hdisconnected, hconnection, by simp [hnone, hdisconnected], front, rest ++ [text], ?_, ?_⟩
      · rw [hqueue]
        rfl
      · simp [hdisconnected, hfront]

theorem Fifo.stop (h : s.Fifo) (isOpen : Bool) : (s.stop isOpen).Fifo := by
  apply h.of_eq (h.inFlight.stop isOpen)
  · rw [sentTexts, stop_log, sentTexts]
  · rw [WebSocketSession.begun, stop_log, WebSocketSession.begun]
  · rw [written, pops, stop_log, written, pops]
  · exact stop_writeQueue s isOpen
  · exact stop_writes s isOpen
  · exact stop_connection s isOpen
  · intro _
    exact stop_connected s isOpen

/-- The calls of a handler are made in order. -/
theorem Fifo.performAll (h : s.Fifo) (calls : List Call) : (s.performAll calls).Fifo := by
  apply performAll_induction Fifo
  · intro text _ u hu
    exact hu.send text
  · intro isOpen _ u hu
    exact hu.stop isOpen
  · exact h

/-- The completion of a write or of another operation, before its handler runs. -/
theorem Fifo.finish (h : s.Fifo) {operation : Operation} (hno : operation.writeText = none)
    (outcome : Outcome) : (s.finish operation outcome).Fifo :=
  h.of_eq (h.inFlight.finish hno outcome) rfl rfl rfl rfl (writes_finish_of_none hno outcome) rfl id

/-- An operation that writes nothing leaves the queue alone. -/
theorem Fifo.launch (h : s.Fifo) {operation : Operation} (hno : operation.writeText = none) :
    (s.launch operation).Fifo := by
  refine h.of_eq (h.inFlight.launch hno) rfl rfl rfl rfl ?_ rfl id
  rw [writes_launch, hno]
  simp

theorem Fifo.fail (h : s.Fifo) : s.fail.Fifo := by
  apply h.of_eq h.inFlight.fail
  · rw [sentTexts, fail_log, sentTexts]
  · rw [WebSocketSession.begun, fail_log, WebSocketSession.begun]
  · rw [written, pops, fail_log, written, pops]
  · exact fail_writeQueue s
  · exact fail_writes s
  · exact fail_connection s
  · intro _
    exact fail_connected s

theorem Fifo.start (h : s.Fifo) (cfg : WebSocketSessionConfig) : (s.start cfg).Fifo := by
  have hlog : ∀ {α : Type} (f : Event → Option α), f .resolveStarted = none →
      (s.start cfg).log.filterMap f = s.log.filterMap f := by
    intro α f hf
    unfold WebSocketSession.start
    split
    · rfl
    · simp [resolve, List.filterMap_append, hf]
  apply h.of_eq (h.inFlight.start cfg)
  · exact hlog _ rfl
  · exact hlog _ rfl
  · exact congrArg (List.map Prod.fst) (hlog _ rfl)
  · exact start_writeQueue s cfg
  · exact start_writes s cfg
  · exact start_connection s cfg
  · rw [start_connected]
    exact id

theorem Fifo.wake (h : s.Fifo) (cfg : WebSocketSessionConfig) : (s.wake cfg).Fifo := by
  apply wake_induction Fifo
  · exact h.of_eq (h.inFlight.of_eq rfl rfl rfl rfl id) rfl rfl rfl rfl rfl rfl id
  · intro u hu
    exact hu.start cfg

/-- A message under way was begun last. -/
theorem Fifo.of_write (h : s.Fifo) {connection : ℕ} {text : Bytes}
    (mem : .write connection text ∈ s.operations) :
    s.connection ≠ 0 ∧ s.begun = s.written ++ [text] ∧ ∃ rest, s.writeQueue = text :: rest := by
  have hmem : text ∈ s.writes := List.mem_filterMap.mpr ⟨_, mem, rfl⟩
  obtain ⟨hqueue, -⟩ := h.inFlight.of_write mem {}
  obtain ⟨front, rest, -, hone⟩ := h.inFlight.front.resolve_left (List.ne_nil_of_mem hmem)
  have hfront : text = front := by simpa [hone] using hmem
  refine ⟨fun hzero => ?_, ?_, hqueue⟩
  · rw [(h.inFlight.fresh hzero).2] at hmem
    cases hmem
  · rw [hfront, ← hone]
    refine h.begun.resolve_right ?_
    rintro ⟨-, -, hnone, -⟩
    rw [hnone] at hmem
    cases hmem

/-- The message that was written is the front of the queue, and is popped. -/
theorem Fifo.wrote (h : s.Fifo) {connection : ℕ} {text : Bytes}
    (mem : .write connection text ∈ s.operations) (outcome : Outcome) :
    ((s.finish (.write connection text) outcome).wrote text).Fifo := by
  obtain ⟨-, hbegun, rest, hqueue⟩ := h.of_write mem
  obtain ⟨-, hnone⟩ := h.inFlight.of_write mem outcome
  have hwritten : ((s.finish (.write connection text) outcome).wrote text).written
      = s.written ++ [text] := by
    rw [written, pops, wrote_log, finish_log, finish_writeQueue, finish_connection, written, pops,
      List.filterMap_append, List.map_append]
    split
    · cases s.writeQueue.tail <;> rfl
    · rfl
  -- the message moves from the front of the queue to the end of what is written
  refine ⟨h.inFlight.wrote mem outcome, ?_, Or.inl ?_⟩
  · have hsent : ((s.finish (.write connection text) outcome).wrote text).sentTexts = s.sentTexts := by
      rw [sentTexts, wrote_log, finish_log, finish_writeQueue, sentTexts, List.filterMap_append]
      split
      · cases s.writeQueue.tail <;> simp
      · simp
    rw [hsent, hwritten, wrote_writeQueue, finish_writeQueue, h.sent, hqueue]
    simp
  · have hmore : ((s.finish (.write connection text) outcome).wrote text).begun
        = s.begun ++ if s.connected then s.writeQueue.tail.head?.toList else [] := by
      rw [WebSocketSession.begun, wrote_log, finish_log, WebSocketSession.begun, List.filterMap_append,
        finish_connected, finish_writeQueue, finish_connection]
      split
      · cases s.writeQueue.tail <;> rfl
      · rfl
    rw [hmore, hbegun, hwritten, wrote_writes, hnone, finish_connected, finish_writeQueue]
    rfl

/-- A write that fails takes the connection with it; its message stays at the front. -/
theorem Fifo.writeFailed (h : s.Fifo) {connection : ℕ} {text : Bytes}
    (mem : .write connection text ∈ s.operations) (outcome : Outcome)
    (hin : (s.finish (.write connection text) outcome).fail.InFlight) :
    (s.finish (.write connection text) outcome).fail.Fifo := by
  obtain ⟨hconnection, hbegun, rest, hqueue⟩ := h.of_write mem
  obtain ⟨-, hnone⟩ := h.inFlight.of_write mem outcome
  have hwritten : (s.finish (.write connection text) outcome).fail.written = s.written := by
    rw [written, pops, fail_log, finish_log, written, pops]
  refine ⟨hin, ?_, Or.inr ⟨fail_connected _, ?_, ?_, text, rest, ?_, ?_⟩⟩
  · rw [hwritten, fail_writeQueue, finish_writeQueue, ← h.sent, sentTexts, fail_log, finish_log,
      sentTexts]
  · rw [fail_connection]
    exact hconnection
  · rw [fail_writes]
    exact hnone
  · rw [fail_writeQueue]
    exact hqueue
  · rw [hwritten, ← hbegun, WebSocketSession.begun, fail_log, finish_log, WebSocketSession.begun]

/-- The first handshake, without a greeting, begins to write the front of the queue. -/
theorem Fifo.opened (h : s.Fifo) (hgreeting : greeting cfg = []) (hfirst : s.connection = 0) :
    (s.opened cfg).Fifo := by
  obtain ⟨-, hnone⟩ := h.inFlight.fresh hfirst
  have hbegun : s.begun = s.written := by
    have hwrites := h.begun.resolve_right fun hfailed => hfailed.2.1 hfirst
    rwa [hnone, List.append_nil] at hwrites
  have hlog : (s.opened cfg).log
      = s.log ++ s.writeQueue.head?.toList.map (Event.writeStarted (s.connection + 1)) := by
    rw [opened_eq, greet_eq, hgreeting]
    exact doWrite_log _
  have hwritten : (s.opened cfg).written = s.written := congrArg (List.map Prod.fst) (opened_pops s cfg)
  have hsent : (s.opened cfg).sentTexts = s.sentTexts := by
    rw [sentTexts, hlog, List.filterMap_append, sentTexts]
    cases s.writeQueue <;> simp
  have hmore : (s.opened cfg).begun = s.begun ++ s.writeQueue.head?.toList := by
    rw [WebSocketSession.begun, hlog, List.filterMap_append, WebSocketSession.begun]
    cases s.writeQueue <;> rfl
  refine ⟨h.inFlight.opened hnone fun _ => hgreeting, ?_, Or.inl ?_⟩
  · rw [hsent, hwritten, opened_writeQueue, hgreeting, List.append_nil, h.sent]
  · rw [hmore, hbegun, hwritten, opened_writes, hnone, hgreeting]
    simp

/-- A frame makes the calls of its handler. -/
theorem Fifo.delivered (h : s.Fifo) (connection : ℕ) (calls : List Call) (kept : σ) :
    (s.delivered connection calls kept).Fifo := by
  apply delivered_induction _ _ _ _ Fifo
  · refine h.of_eq (h.inFlight.of_eq rfl rfl ?_ rfl id) ?_ ?_ ?_ rfl rfl rfl id
    all_goals simp [pops, sentTexts, WebSocketSession.begun, written, List.filterMap_append]
  · intro u hu
    exact hu.performAll calls
  · intro u hu
    apply Fifo.launch _ rfl
    exact hu.of_eq (hu.inFlight.of_eq rfl rfl rfl rfl id) rfl rfl rfl rfl rfl rfl id

/-- Every step of one connection keeps the order. -/
theorem Fifo.step (h : s.Fifo) (hgreeting : greeting cfg = []) (hfirst : a.Opens → s.connection = 0)
    (hstep : WebSocketSession.step cfg handler s a = some t) : t.Fifo := by
  -- without a greeting the first handshake cannot start a second write
  have hin : t.InFlight := by
    refine h.inFlight.step (fun hbad => ?_) hstep
    rcases hbad.2 with hne | ⟨-, hne⟩
    · exact hne (h.inFlight.fresh (hfirst hbad.1)).2
    · exact hne hgreeting
  cases transition_of_step hstep with
  | started => exact h.start cfg
  | called =>
    apply Fifo.performAll
    exact h.of_eq (h.inFlight.of_eq rfl rfl rfl rfl id) rfl rfl rfl rfl rfl rfl id
  | woken => exact h.wake cfg
  | @failed operation outcome _ mem =>
    cases operation with
    | write connection text => exact h.writeFailed mem outcome hin
    | _ => exact (h.finish rfl outcome).fail
  | @opened hostPort endpoint outcome _ mem ok =>
    exact (h.finish rfl outcome).opened hgreeting (hfirst ok)
  | delivered => exact (h.finish rfl _).delivered _ _ _
  | wrote _ mem => exact h.wrote mem _
  | timerDropped | closed => exact h.finish rfl _
  | resolved | secured | pinged | armed => exact (h.finish rfl _).launch rfl
  | @connected outcome =>
    have hno : Operation.connect.writeText = none := rfl
    have hfinish := h.finish hno outcome
    apply Fifo.launch _ rfl
    exact hfinish.of_eq (hfinish.inFlight.of_eq rfl rfl rfl rfl id) rfl rfl rfl rfl rfl rfl id

/-- The order is kept over every run of one connection. -/
theorem fifo_of_run {as : List (Action σ)} (hgreeting : greeting cfg = []) (h : Run cfg handler kept as s)
    (hone : s.connection ≤ 1) : s.Fifo := by
  induction as using List.reverseRecOn generalizing s with
  | nil =>
    cases h
    exact ⟨inFlight_init, rfl, Or.inl rfl⟩
  | append_singleton as a ih =>
    obtain ⟨u, hu, hstep⟩ := Runs.run_concat.mp h
    refine (ih hu ((connection_le_of_step hstep).trans hone)).step hgreeting (fun hopens => ?_) hstep
    have hadded := connection_of_opens hstep hopens
    omega

/-- With `auth_msg` and `sub_msg` empty, on one connection: the messages written, and the messages whose
write was begun, are a prefix of the messages sent; while connected, the queue is not empty exactly when
one write is outstanding, and that is a write of its front; and when none is, all has been written. -/
theorem fifo {as : List (Action σ)} (hauth : cfg.authMsg = []) (hsub : cfg.subMsg = [])
    (h : Run cfg handler kept as s) (hone : s.connection ≤ 1) :
    s.written <+: s.sentTexts ∧ s.begun <+: s.sentTexts ∧ (s.connected = true →
      (s.writeQueue ≠ [] ↔ s.writes.length = 1) ∧
      (∀ text ∈ s.writes, s.writeQueue.head? = some text) ∧
      (s.writes = [] → s.written = s.sentTexts)) := by
  have hfifo := fifo_of_run (by simp [greeting, hauth, hsub]) h hone
  refine ⟨?_, ?_, fun hconnected => ⟨?_, ?_, ?_⟩⟩
  · rw [hfifo.sent]
    exact List.prefix_append _ _
  · rw [hfifo.sent]
    rcases hfifo.begun with hbegun | ⟨-, -, -, front, rest, hqueue, hbegun⟩
    · rw [hbegun, List.prefix_append_right_inj]
      rcases hfifo.inFlight.front with hnone | ⟨text, rest, hqueue, hwrite⟩
      · rw [hnone]
        exact List.nil_prefix
      · rw [hwrite, hqueue]
        exact ⟨rest, rfl⟩
    · rw [hbegun, hqueue, List.prefix_append_right_inj]
      exact ⟨rest, rfl⟩
  · constructor
    · intro hne
      obtain ⟨text, rest, -, hwrite⟩ :=
        hfifo.inFlight.front.resolve_left (hfifo.inFlight.writing hconnected hne)
      rw [hwrite]
      rfl
    · intro hlength hempty
      rw [hfifo.inFlight.writes_of_queue hempty] at hlength
      cases hlength
  · intro text htext
    obtain ⟨front, rest, hqueue, hwrite⟩ :=
      hfifo.inFlight.front.resolve_left (List.ne_nil_of_mem htext)
    rw [hwrite, List.mem_singleton] at htext
    rw [hqueue, htext]
    rfl
  · intro hnone
    rw [hfifo.sent, hfifo.inFlight.idle hconnected hnone, List.append_nil]

/-! ## What a step sends -/

/-- The messages that the calls send. -/
def callTexts (calls : List Call) : List Bytes :=
  calls.filterMap fun
    | .send text => some text
    | .stop _ => none

/-- What a step sends, told from the state before it. -/
def nextSends (handler : FrameHandler σ) (s : WebSocketSession σ) : Action σ → List Bytes
  | .call f => callTexts (f s.handlerState).1
  | .complete (.read connection) outcome =>
    if outcome.ec then []
    else callTexts (handler connection (s.buffer ++ outcome.bytes) s.handlerState).1
  | _ => []

/-- What is recorded and is no call of `send` adds no text. -/
theorem sentTexts_of_log {events : List Event} (h : t.log = s.log ++ events)
    (hnone : ∀ text, .sent text ∉ events) : t.sentTexts = s.sentTexts := by
  rw [sentTexts, h, List.filterMap_append, sentTexts]
  refine List.append_right_eq_self.mpr (List.filterMap_eq_nil_iff.mpr fun event hmem => ?_)
  cases event with
  | sent text => exact absurd hmem (hnone text)
  | _ => rfl

/-- The calls of a handler send their texts. -/
theorem performAll_sentTexts (s : WebSocketSession σ) (calls : List Call) :
    (s.performAll calls).sentTexts = s.sentTexts ++ callTexts calls := by
  induction calls generalizing s with
  | nil => simp [performAll, callTexts]
  | cons call calls ih =>
    cases call with
    | send text =>
      refine (ih (s.send text)).trans ?_
      rw [send_sentTexts, List.append_assoc]
      rfl
    | stop isOpen =>
      refine (ih (s.stop isOpen)).trans ?_
      rw [sentTexts, stop_log, sentTexts]
      rfl

theorem start_sentTexts (s : WebSocketSession σ) (cfg : WebSocketSessionConfig) :
    (s.start cfg).sentTexts = s.sentTexts := by
  unfold WebSocketSession.start
  split
  · rfl
  · have hlog : (s.resolve cfg).log = s.log ++ [.resolveStarted] := rfl
    exact sentTexts_of_log hlog (by simp)

/-- A step sends what `nextSends` tells, and nothing else. -/
theorem sentTexts_of_step (hgreeting : greeting cfg = []) (hstep : step cfg handler s a = some t) :
    t.sentTexts = s.sentTexts ++ s.nextSends handler a := by
  cases transition_of_step hstep with
  | started => simp [nextSends, start_sentTexts]
  | called => exact performAll_sentTexts _ _
  | woken =>
    have hwake : (s.wake cfg).sentTexts = s.sentTexts := by
      apply wake_induction (fun u => u.sentTexts = s.sentTexts)
      · rfl
      · intro u hu
        exact (start_sentTexts u cfg).trans hu
    simp [nextSends, hwake]
  | @failed operation outcome _ _ error =>
    have hsent : (s.finish operation outcome).fail.sentTexts = s.sentTexts := by
      rw [sentTexts, fail_log, finish_log, sentTexts]
    rw [hsent]
    rcases error with hec | ⟨rfl, -⟩
    · cases operation <;> simp [nextSends, hec]
    · simp [nextSends]
  | @opened hostPort endpoint outcome =>
    have hopened : ((s.finish (.handshake hostPort endpoint) outcome).opened cfg).sentTexts
        = s.sentTexts := by
      rw [opened_eq, greet_eq, hgreeting]
      refine sentTexts_of_log (doWrite_log _) fun text hmem => ?_
      split at hmem
      · simp at hmem
      · cases hmem
    simp [nextSends, hopened]
  | delivered _ _ ok handled =>
    simp only [nextSends, ok, handled, Bool.false_eq_true, if_false]
    refine (performAll_sentTexts _ _).trans (congrArg (· ++ _) ?_)
    exact sentTexts_of_log (s := s) rfl (by simp)
  | @wrote connection text outcome =>
    have hwrote : ((s.finish (.write connection text) outcome).wrote text).sentTexts = s.sentTexts := by
      refine sentTexts_of_log (wrote_log _ _) fun other hmem => ?_
      rcases List.mem_cons.mp hmem with hmem | hmem
      · cases hmem
      · split at hmem
        · simp at hmem
        · cases hmem
    simp [nextSends, hwrote]
  | resolved | secured | pinged | armed | closed | timerDropped | connected =>
    simp [nextSends, sentTexts]

/-- One message before the handshake, one while a write is under way, one after the queue has drained. -/
def threePhases : List (Action Unit) :=
  [.start, .send [104]] ++ chain ++ [.send [105], .complete (.write 1 [104]) {},
    .complete (.write 1 [105]) {}, .send [106], .complete (.write 1 [106]) {}]

/-- Everything that was sent has been written. -/
theorem fifo_threePhases : ∃ t, Run exampleConfig ignoreFrames () threePhases t ∧
    t.written = t.sentTexts := by
  have hrun : (Runs.run (step exampleConfig ignoreFrames) { handlerState := () } threePhases).map
      (fun t => (t.connection, t.connected, t.writes)) = some (1, true, []) := by decide +kernel
  obtain ⟨t, ht, hobserved⟩ := Option.map_eq_some_iff.mp hrun
  simp only [Prod.mk.injEq] at hobserved
  obtain ⟨hone, hconnected, hnone⟩ := hobserved
  exact ⟨t, ht, ((fifo rfl rfl ht hone.le).2.2 hconnected).2.2 hnone⟩

end WebSocketSession

end MacdTradingBot
