import MacdTradingBot.Rest.Fifo

/-!
# Requests complete once, in order

No task waits forever: as long as `process_queue` is alive the client can go on, and `effort` grows with
every step that it takes on its own, by a bounded amount for each task. Together with the order of the
queue this gives the contract of `request`.
-/

namespace MacdTradingBot

/-- The client goes on: code of its own runs, or an operation that it waits for completes. -/
def Action.internal {Response : Type} : Action Response → Bool
  | .asyncWait | .resume _ | .complete _ | .completeConnect _ _ => true
  | .tick _ | .request _ | .connect _ _ => false

namespace State

open Connection

variable {Response : Type}

/-! ## The client stops only when it is done -/

/-- How far `process_queue` has come with its current task. After `popping` it starts over with the
next one. -/
def stage (s : State Response) : ℕ :=
  match s.processQueue with
  | .popping _ => 0
  | .loopTop => if s.tasks = [] then 1 else 3
  | .idle => 2
  | .shuttingDown => 4
  | .connectNext => 5
  | .connecting ⟨_, .resolving⟩ => 6
  | .connecting ⟨_, .tcpConnecting _ _⟩ => 7
  | .connecting ⟨_, .handshaking _⟩ => 8
  | .writing _ _ => 9
  | .reading _ _ => 10

/-- The stages of all tasks so far, and the `async_wait` of the last `request`. -/
def effort (s : State Response) : ℕ :=
  11 * (completedIds s.log).length + s.stage + if s.spawner = none then 1 else 0

/-- The stages are numbered up to ten. -/
theorem stage_le (s : State Response) : s.stage ≤ 10 := by
  unfold stage
  split
  case h_2 => split <;> omega
  all_goals omega

/-- The effort is bounded by the number of completed tasks. -/
theorem effort_le (s : State Response) : s.effort ≤ 11 * (completedIds s.log).length + 11 := by
  have hstage := s.stage_le
  unfold effort
  split <;> omega

/-- A longer queue does not set `process_queue` back. -/
theorem stage_append {s t : State Response} {more : List Task}
    (hpc : t.processQueue = s.processQueue) (htasks : t.tasks = s.tasks ++ more) :
    s.stage ≤ t.stage := by
  unfold stage
  rw [hpc, htasks]
  split
  case h_2 =>
    by_cases hempty : s.tasks = []
    · rw [if_pos hempty]
      split <;> omega
    · rw [if_neg hempty, if_neg (by simp [hempty])]
  all_goals exact le_rfl

/-- The stages of `connect`. -/
theorem stage_connecting {s : State Response} {frame : ConnectFrame}
    (pc : s.processQueue = .connecting frame) :
    s.stage = match frame.point with
      | .resolving => 6
      | .tcpConnecting _ _ => 7
      | .handshaking _ => 8 := by
  obtain ⟨url, point⟩ := frame
  unfold stage
  rw [pc]
  cases point <;> rfl

/-- The effort at the start. -/
theorem effort_init : ({} : State Response).effort = 3 := rfl

variable [Inhabited Response] {B : BoostUrl} {s t : State Response} {a : Action Response}

omit [Inhabited Response] in
/-- A step that completes no task, by its stages. -/
theorem effort_of_stage {k : ℕ} {more : List (Event Response)} (hlog : t.log = s.log ++ more)
    (hmore : completedIds more = []) (hspawner : t.spawner = s.spawner)
    (hstage : s.stage + k ≤ t.stage) : s.effort + k ≤ t.effort := by
  have hcompleted : completedIds t.log = completedIds s.log := by
    rw [hlog, completedIds_append, hmore, List.append_nil]
  unfold effort
  rw [hcompleted, hspawner]
  omega

omit [Inhabited Response] in
/-- A step that completes a task. -/
theorem effort_of_completed {id : ℕ} {ec : Option ErrorCode} {response : Response}
    (hlog : t.log = s.log ++ [.completed id ec response]) (hspawner : t.spawner = s.spawner) :
    s.effort + 1 ≤ t.effort := by
  have hcompleted : completedIds t.log = completedIds s.log ++ [id] := by simp [hlog, completedIds]
  have hstage := s.stage_le
  unfold effort
  rw [hcompleted, hspawner, List.length_append, List.length_singleton]
  omega

omit [Inhabited Response] in
/-- A step that records nothing, by its stages. -/
theorem effort_of_silent {k : ℕ} (hlog : t.log = s.log) (hspawner : t.spawner = s.spawner)
    (hstage : s.stage + k ≤ t.stage) : s.effort + k ≤ t.effort :=
  effort_of_stage (hlog.trans (List.append_nil _).symm) rfl hspawner hstage

omit [Inhabited Response] in
/-- `async_wait` is a step of its own. -/
theorem effort_asyncWait {id : ℕ} {more : List (Event Response)} (hspawner : s.spawner = some id)
    (hlog : t.log = s.log ++ more) (hmore : completedIds more = []) (hspawner' : t.spawner = none)
    (hstage : t.stage = s.stage) : s.effort + 1 ≤ t.effort := by
  have hcompleted : completedIds t.log = completedIds s.log := by
    rw [hlog, completedIds_append, hmore, List.append_nil]
  unfold effort
  rw [hcompleted, hspawner, hspawner', hstage]
  simp

omit [Inhabited Response] in
/-- Running a handler is progress. -/
theorem effort_invokeHandler {task : Task} (hhandler : task.hasHandler = true) (conn : Connection)
    (ec : Option ErrorCode) (response : Response) :
    s.effort + 1 ≤ ({ s with conn := conn }.invokeHandler task ec response).effort := by
  rw [invokeHandler_of_hasHandler _ hhandler]
  exact effort_of_completed rfl rfl

/-- So is failing, which runs the handler too. -/
theorem effort_fail {task : Task} (hhandler : task.hasHandler = true) (conn : Connection)
    (ec : ErrorCode) : s.effort + 1 ≤ ({ s with conn := conn }.fail task ec).effort := by
  rw [fail_of_hasHandler _ hhandler]
  exact effort_of_completed rfl rfl

/-- The steps that the client takes on its own raise the effort, the others do not lower it. -/
theorem effort_step (h : s.Orderly B) (hB : B.Lawful) (ha : s.Admissible a)
    (hstep : State.step B s a = some t) :
    (if a.internal then s.effort + 1 else s.effort) ≤ t.effort := by
  cases transition_of_step hstep with
  | tick | requestRefused => exact le_rfl
  | requestQueued => exact effort_of_stage (k := 0) rfl rfl rfl (stage_append rfl rfl)
  | requestSpawned callable _ processing =>
    -- `process_queue` starts, and the `async_wait` is still to come
    have hidle := h.served.idle processing
    have hspawner := spawner_of_callable callable
    simp [effort, completedIds, stage, hidle, hspawner, Action.internal]
  | callReturned => exact absurd rfl (ha.1 _ _)
  | callSuspended => exact absurd rfl (ha.1 _ _)
  | handlerSet spawner =>
    refine effort_asyncWait spawner (List.append_nil _).symm rfl rfl ?_
    simp only [stage, List.map_eq_nil_iff]
  | handlerLost spawner => exact effort_asyncWait spawner rfl rfl rfl rfl
  | finished pc tasks =>
    exact effort_of_silent rfl rfl (by simp [stage, pc, tasks])
  | newConnection pc tasks | shutdownTls pc tasks | shutdownTcp pc tasks =>
    exact effort_of_silent rfl rfl (by simp [stage, pc, tasks])
  | reused pc tasks => exact effort_of_stage rfl rfl rfl (by simp [stage, pc, tasks])
  | connectSuspended pc _ connects =>
    refine effort_of_silent rfl rfl ?_
    cases connects
    simp [stage, pc]
  | connectRefused pc tasks connects => exact absurd connects (h.not_returned hB pc tasks ha)
  | popped pc =>
    refine effort_of_silent rfl rfl ?_
    simp only [stage, pc]
    split <;> omega
  | shutdownReturned _ pc => exact effort_of_silent rfl rfl (by simp [stage, pc])
  | shutdownThrew _ pc outcome notTruncated =>
    exact absurd ⟨pc, _, _, rfl, outcome, notTruncated⟩ ha.2.2
  | connectAdvanced _ pc _ resumes =>
    refine effort_of_silent rfl rfl ?_
    rw [stage_connecting pc, stage_connecting rfl]
    cases resumes with
    | resolvedTls _ point => simp [point]
    | resolvedTcp _ point => simp [point]
    | connectedTls _ point => simp [point]
  | connectSucceeded _ pc =>
    refine effort_of_stage rfl rfl rfl ?_
    rw [stage_connecting pc]
    show _ + 1 ≤ 9
    split <;> omega
  | connectFailed dispatches _ tasks =>
    exact effort_fail (h.served.hasHandler_of_tasks dispatches tasks) _ _
  | written _ pc => exact effort_of_silent rfl rfl (by simp [stage, pc])
  | writeFailed dispatches _ tasks | answered dispatches _ tasks | readFailed dispatches _ tasks =>
    exact effort_invokeHandler (h.served.hasHandler_of_tasks dispatches tasks) _ _ _
  | callAdvanced _ call | callDone _ call =>
    rw [h.linked.noCalls] at call
    cases call

omit [Inhabited Response] in
/-- The steps that the client takes on its own are no calls. -/
theorem isNoCall_of_internal (h : a.internal = true) : IsNoCall a := by
  rintro url sni rfl
  cases h

omit [Inhabited Response] in
/-- Going on is admissible, if the host name can be set. -/
theorem admissible_resume : s.Admissible (.resume true) := by
  refine ⟨isNoCall_of_internal rfl, by simp, ?_⟩
  rintro ⟨-, completion, ec, hcomplete, -⟩
  cases hcomplete

omit [Inhabited Response] in
/-- Setting the handler is admissible. -/
theorem admissible_asyncWait : s.Admissible .asyncWait := by
  refine ⟨isNoCall_of_internal rfl, by simp, ?_⟩
  rintro ⟨-, completion, ec, hcomplete, -⟩
  cases hcomplete

omit [Inhabited Response] in
/-- A completion is admissible, but for that of a shutdown with an error. -/
theorem admissible_complete {completion : Completion Response}
    (h : s.processQueue = .shuttingDown → completion.ec = none) :
    s.Admissible (.complete completion) := by
  refine ⟨isNoCall_of_internal rfl, by simp, ?_⟩
  rintro ⟨pc, completion', ec, hcomplete, hec, -⟩
  obtain rfl : completion = completion' := by simpa using hcomplete
  rw [h pc] at hec
  cases hec

/-- The client can go on. -/
def CanGoOn (B : BoostUrl) (s : State Response) : Prop :=
  ∃ a : Action Response, a.internal = true ∧ s.Admissible a ∧ (State.step B s a).isSome = true

/-- A client that can be resumed can go on. -/
theorem canGoOn_of_resume (h : (s.resume B true).isSome = true) : s.CanGoOn B :=
  ⟨.resume true, rfl, admissible_resume, h⟩

/-- An operation is pending. The `request` that started `process_queue`, if it still waits, goes on
first. -/
theorem canGoOn_of_complete (hsuspended : s.processQueue.suspended = true)
    (completion : Completion Response) (hec : s.processQueue = .shuttingDown → completion.ec = none)
    (h : (s.complete completion).isSome = true) : s.CanGoOn B := by
  cases hspawner : s.spawner with
  | some id =>
    refine ⟨.asyncWait, rfl, admissible_asyncWait, ?_⟩
    simp [State.step, hspawner, hsuspended]
  | none =>
    refine ⟨.complete completion, rfl, admissible_complete hec, ?_⟩
    rw [State.step, if_pos (dispatches_iff.mpr ⟨hspawner, hsuspended⟩)]
    exact h

/-- As long as `process_queue` is alive, the client can go on. -/
theorem Served.canGoOn (h : s.Served) (halive : s.Alive) : s.CanGoOn B := by
  have htasks : s.processQueue ≠ .loopTop → ∃ task rest, s.tasks = task :: rest := fun htop =>
    List.exists_cons_of_ne_nil (h.current ⟨halive, htop⟩)
  -- the operations of `connect` and of `run_impl` may time out
  let timeout : Completion Response := { ec := some .timeout, response := default }
  cases pc : s.processQueue with
  | idle => exact absurd pc halive
  | loopTop =>
    apply canGoOn_of_resume
    simp [resume, pc]
  | shuttingDown =>
    apply canGoOn_of_complete (by rw [pc]; rfl) { response := default } fun _ => rfl
    simp [complete, pc, resumeShutdown]
  | connectNext =>
    obtain ⟨task, rest, hcons⟩ := htasks (by simp [pc])
    apply canGoOn_of_resume
    simp [resume, pc, hcons]
  | connecting frame =>
    obtain ⟨task, rest, hcons⟩ := htasks (by simp [pc])
    apply canGoOn_of_complete (by rw [pc]; rfl) timeout (by simp [pc])
    simp [complete, pc, hcons, resumeConnect, timeout]
  | writing tls expired =>
    obtain ⟨task, rest, hcons⟩ := htasks (by simp [pc])
    apply canGoOn_of_complete (by rw [pc]; rfl) timeout (by simp [pc])
    simp [complete, pc, hcons, timeout]
  | reading tls expired =>
    obtain ⟨task, rest, hcons⟩ := htasks (by simp [pc])
    apply canGoOn_of_complete (by rw [pc]; rfl) timeout (by simp [pc])
    simp [complete, pc, hcons, timeout]
  | popping resumed =>
    obtain ⟨task, rest, hcons⟩ := htasks (by simp [pc])
    apply canGoOn_of_resume
    simp [resume, pc, hcons]

/-! ## Where a response comes from -/

/-- The response is what an `async_read` returned while `process_queue` waited for the answer to the
task, after the task had been sent. -/
def AnswerOf (B : BoostUrl) (as : List (Action Response)) (id : ℕ) (response : Response) : Prop :=
  ∃ pre completion u tls expired task rest, pre ++ [.complete completion] <+: as ∧ Run B pre u ∧
    u.processQueue = .reading tls expired ∧ u.tasks = task :: rest ∧ task.id = id ∧
      id ∈ sentIds u.log ∧ completion.ec = none ∧ completion.response = response

omit [Inhabited Response] in
/-- A handler that runs gets its outcome recorded. -/
theorem mem_log_invokeHandler {task : Task} {conn : Connection} {ec : Option ErrorCode}
    {id : ℕ} {response response' : Response}
    (hmem : .completed id none response ∈ ({ s with conn := conn }.invokeHandler task ec response').log) :
    .completed id none response ∈ s.log ∨ task.id = id ∧ ec = none ∧ response' = response := by
  unfold State.invokeHandler at hmem
  split at hmem
  · refine (List.mem_append.mp hmem).imp_right fun hnew => ?_
    rw [List.mem_singleton, Event.completed.injEq] at hnew
    obtain ⟨hid, hec, hresponse⟩ := hnew
    exact ⟨hid.symm, hec.symm, hresponse.symm⟩
  · exact Or.inl ((List.mem_append.mp hmem).resolve_right (by simp))

/-- A failure completes no task without an error. -/
theorem mem_log_fail {task : Task} {conn : Connection} {ec : ErrorCode} {id : ℕ} {response : Response}
    (hmem : .completed id none response ∈ ({ s with conn := conn }.fail task ec).log) :
    .completed id none response ∈ s.log := by
  unfold State.fail at hmem
  split at hmem
  all_goals exact (List.mem_append.mp hmem).resolve_right (by simp)

/-- A step that runs a handler without an error is the completion of the read for the current task. -/
theorem answer_of_step {id : ℕ} {response : Response} (hstep : State.step B s a = some t)
    (hmem : .completed id none response ∈ t.log) :
    .completed id none response ∈ s.log ∨ ∃ completion tls expired task rest,
      a = .complete completion ∧ s.processQueue = .reading tls expired ∧ s.tasks = task :: rest ∧
        task.id = id ∧ completion.ec = none ∧ completion.response = response := by
  cases transition_of_step hstep with
  | requestQueued | requestSpawned | handlerLost | shutdownThrew | reused | connectSucceeded =>
    exact Or.inl ((List.mem_append.mp hmem).resolve_right (by simp))
  | connectRefused | connectFailed => exact Or.inl (mem_log_fail hmem)
  | writeFailed | readFailed =>
    exact (mem_log_invokeHandler hmem).imp_right fun hnew => (nomatch hnew.2.1)
  | @answered tls expired completion task rest _ pc tasks outcome =>
    refine (mem_log_invokeHandler hmem).imp_right ?_
    rintro ⟨hid, -, hresponse⟩
    exact ⟨completion, tls, expired, task, rest, rfl, pc, tasks, hid, outcome, hresponse⟩
  | tick | requestRefused | callReturned | callSuspended | handlerSet | finished | newConnection
  | shutdownTls | shutdownTcp | connectSuspended | popped | shutdownReturned | connectAdvanced
  | written | callAdvanced | callDone => exact Or.inl hmem

/-- The task that is being written, or whose answer is being read, has been sent. -/
def CurrentSent (s : State Response) : Prop :=
  Exchanging s.processQueue → ∀ task rest, s.tasks = task :: rest → task.id ∈ sentIds s.log

omit [Inhabited Response] in
/-- An exchange has a current task. -/
theorem hasCurrentTask_of_exchanging (h : Exchanging s.processQueue) : s.HasCurrentTask := by
  constructor
  all_goals
    intro hpc
    rw [hpc] at h
    exact h

omit [Inhabited Response] in
/-- What is recorded later leaves what was sent. -/
theorem mem_sentIds_append {id : ℕ} {log : List (Event Response)} (h : id ∈ sentIds log)
    (more : List (Event Response)) : id ∈ sentIds (log ++ more) := by
  rw [sentIds_append]
  exact List.mem_append_left _ h

omit [Inhabited Response] in
/-- Sending the current task records it. -/
theorem CurrentSent.send {task : Task} {rest : List Task} (htasks : s.tasks = task :: rest) :
    (s.send task).CurrentSent := by
  intro _ task' rest' htasks'
  obtain ⟨rfl, -⟩ := List.cons.inj (htasks.symm.trans htasks')
  show task.id ∈ sentIds (s.log ++ [.sent task s.conn s.now])
  rw [sentIds_append]
  exact List.mem_append_right _ List.mem_cons_self

omit [Inhabited Response] in
/-- A handler ends the exchange. -/
theorem not_exchanging_invokeHandler (task : Task) (ec : Option ErrorCode) (response : Response) :
    ¬ Exchanging (s.invokeHandler task ec response).processQueue := by
  unfold State.invokeHandler
  split
  all_goals exact id

/-- A failure is no exchange. -/
theorem not_exchanging_fail (task : Task) (ec : ErrorCode) : ¬ Exchanging (s.fail task ec).processQueue := by
  unfold State.fail
  split
  all_goals exact id

/-- Every step keeps it so: what is sent is recorded before it is written. -/
theorem CurrentSent.step (h : s.CurrentSent) (hserved : s.Served)
    (hstep : State.step B s a = some t) : t.CurrentSent := by
  cases transition_of_step hstep with
  | tick | requestRefused | callReturned | callSuspended | callAdvanced | callDone => exact h
  | handlerLost => exact fun hpc task rest htasks => mem_sentIds_append (h hpc task rest htasks) _
  | requestQueued =>
    intro hpc task rest htasks
    -- the new task is not the first one
    obtain ⟨first, more, hcons⟩ := List.exists_cons_of_ne_nil
      (hserved.current (hasCurrentTask_of_exchanging hpc))
    rw [hcons, List.cons_append, List.cons.injEq] at htasks
    obtain ⟨rfl, -⟩ := htasks
    exact mem_sentIds_append (h hpc _ _ hcons) _
  | handlerSet =>
    intro hpc task rest htasks
    obtain ⟨first, more, hcons⟩ := List.exists_cons_of_ne_nil
      (hserved.current (hasCurrentTask_of_exchanging hpc))
    simp only [hcons, List.map_cons, List.cons.injEq] at htasks
    obtain ⟨rfl, -⟩ := htasks
    -- registering a handler changes no id
    have hsent := h hpc _ _ hcons
    split
    all_goals exact hsent
  | written _ pc => exact fun _ => h (by rw [pc]; trivial)
  | reused _ tasks | connectSucceeded _ _ tasks => exact .send tasks
  | requestSpawned | finished | newConnection | shutdownTls | shutdownTcp | connectSuspended
  | popped | shutdownReturned | shutdownThrew | connectAdvanced => exact fun hpc => hpc.elim
  | connectRefused | connectFailed => exact fun hpc => absurd hpc (not_exchanging_fail _ _)
  | writeFailed | answered | readFailed =>
    exact fun hpc => absurd hpc (not_exchanging_invokeHandler _ _ _)

/-- The current task has been sent in every run, also with calls of `connect` from outside. -/
theorem currentSent_of_run {as : List (Action Response)} (h : Run B as s) :
    s.Served ∧ s.CurrentSent := by
  refine Runs.invariant_of_stepsMeet (G := fun _ _ => True) (fun u => u.Served ∧ u.CurrentSent)
    ⟨served_init, fun hpc => hpc.elim⟩ ?_ (fun _ _ _ _ _ => trivial) h
  rintro u a v ⟨hserved, hsent⟩ - hstep
  exact ⟨hserved.step hstep, hsent.step hserved hstep⟩

/-- A handler that runs without an error gets the answer to its task. -/
theorem answerOf_of_completed {as : List (Action Response)} (h : Run B as s) {id : ℕ}
    {response : Response} (hmem : .completed id none response ∈ s.log) : AnswerOf B as id response := by
  obtain ⟨pre, a, u, t, hpre, hu, hstep, hno, ht⟩ :=
    Runs.exists_step_of_run (fun u => .completed id none response ∈ u.log) (by simp) h hmem
  obtain ⟨completion, tls, expired, task, rest, rfl, pc, htasks, rfl, hec, hresponse⟩ :=
    (answer_of_step hstep ht).resolve_left hno
  have hsent := (currentSent_of_run hu).2 (by rw [pc]; trivial) task rest htasks
  exact ⟨pre, completion, u, tls, expired, task, rest, hpre, hu, pc, htasks, rfl, hsent, hec, hresponse⟩

/-! ## The contract of `request` -/

/-- What `request` promises after the run `as`: handlers run in the order in which the tasks were
enqueued, each at most once, with the answer to the task or an error; each task is sent at most once;
when `process_queue` has ended, the queue is empty, the flag is clear and every handler has run. While it
is alive the client can go on, and the number of steps that it has taken on its own is bounded by the
number of handlers that have run: no task waits forever. -/
structure CompletesOnce (B : BoostUrl) (as : List (Action Response)) (s : State Response) : Prop where
  enqueued : (enqueuedIds s.log).Nodup
  order : completedIds s.log <+: enqueuedIds s.log
  answers : ∀ id response, .completed id none response ∈ s.log → AnswerOf B as id response
  sent : (sentIds s.log).Nodup
  ended : ¬ s.Alive → s.tasks = [] ∧ s.isProcessing = false ∧ completedIds s.log = enqueuedIds s.log
  goesOn : s.Alive → s.CanGoOn B
  bounded : as.countP Action.internal ≤ 11 * (completedIds s.log).length + 8

omit [Inhabited Response] in
/-- When the coroutine has ended, all tasks are completed. -/
theorem Orderly.ended (h : s.Orderly B) (hdead : ¬ s.Alive) :
    s.tasks = [] ∧ s.isProcessing = false ∧ completedIds s.log = enqueuedIds s.log := by
  have hflag : s.isProcessing = false := Bool.eq_false_iff.mpr (mt h.flag.mp hdead)
  have htasks := h.served.unserved hflag
  refine ⟨htasks, hflag, ?_⟩
  have hidle : s.processQueue = .idle := not_not.mp hdead
  have hqueue := h.fifo.queue
  rw [waiting_eq_tasks (by simp [hidle]), htasks, List.map_nil, List.append_nil] at hqueue
  rw [hqueue, h.fifo.enqueued]

/-- The client takes at most eleven steps of its own for each task it completes, and eight more. -/
theorem internal_le (hB : B.Lawful) {as : List (Action Response)}
    (ha : Runs.StepsMeet (State.step B) Admissible {} as) (h : Run B as s) :
    as.countP Action.internal ≤ 11 * (completedIds s.log).length + 8 := by
  have hcount := Runs.countP_le_of_potential effort Action.internal
    (fun u a v hu hG hstep => Orderly.step hu hB hG hstep)
    (fun u a v hu hG hstep => effort_step hu hB hG hstep) orderly_init ha h
  have hle := s.effort_le
  rw [effort_init] at hcount
  omega

/-- Every run of requests in which the TLS host name can be set and every TLS shutdown ends with success
or `stream_truncated` keeps the promise, whatever else fails. -/
theorem completes_once_in_order (hB : B.Lawful) {as : List (Action Response)}
    (ha : Runs.StepsMeet (State.step B) Admissible {} as) (h : Run B as s) :
    s.CompletesOnce B as := by
  have horderly := orderly_of_run hB ha h
  have hfifo := horderly.fifo
  refine ⟨?_, ?_, ?_, ?_, horderly.ended, horderly.served.canGoOn, internal_le hB ha h⟩
  · rw [hfifo.enqueued]
    exact List.nodup_range
  · rw [hfifo.enqueued, ← hfifo.queue]
    exact List.prefix_append _ _
  · intro id response hmem
    exact answerOf_of_completed h hmem
  · exact hfifo.sorted.imp fun hlt => ne_of_lt hlt

/-- The request of `firstRequest`, and a second one that its handler makes; the read of the second answer
fails. -/
def requestFromHandler : List (Action Unit) :=
  firstRequest.take 9 ++ [.request "https://broker/orders", .resume true, .resume true,
    .complete succeeds, .complete (fails (.io 104)), .resume true, .resume true]

/-- No call of `connect`, no failure to set a host name, and no step of a shutdown. -/
def goesOn (s : State Unit) : Action Unit → Bool
  | .connect _ _ => false
  | .resume sni => sni
  | .complete _ => s.processQueue ≠ .shuttingDown
  | _ => true

/-- Both handlers run, the second with an error. -/
theorem completes_once_in_order_requestFromHandler :
    ∃ t, Run exampleUrls requestFromHandler t ∧ completedIds t.log = [0, 1] ∧
      t.CompletesOnce exampleUrls requestFromHandler := by
  have hrun : (Runs.run (State.step exampleUrls) {} requestFromHandler).map
      (fun t => completedIds t.log) = some [0, 1] := by decide +kernel
  obtain ⟨t, ht, hcompleted⟩ := Option.map_eq_some_iff.mp hrun
  refine ⟨t, ht, hcompleted, completes_once_in_order exampleUrls_lawful
    (Runs.StepsMeet.of_checkSteps (g := goesOn) ?_ ?_) ht⟩
  · intro u a hcheck
    refine ⟨?_, ?_, ?_⟩
    · rintro url sni rfl
      cases hcheck
    · rintro rfl
      cases hcheck
    · rintro ⟨pc, completion, ec, rfl, -⟩
      exact absurd pc (of_decide_eq_true hcheck)
  · decide +kernel

end State

end MacdTradingBot
