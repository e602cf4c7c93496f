import MacdTradingBot.Rest.Processing

/-!
# Handlers are registered before they are needed

A `request` enqueues its task, starts `process_queue`, and registers its handler in `async_wait` only
after `process_queue` has suspended. The order is harmless as long as `process_queue` does suspend with
the task in the queue: `handlersFirst_iff` says when it does not.
-/

namespace MacdTradingBot

namespace State

open Connection

variable {Response : Type}

/-- A task was failed, answered or destroyed before its `request` had registered a handler. -/
def Loses : Event Response → Prop
  | .failedWithoutHandler _ | .badFunctionCall _ | .waitOnDestroyed _ => True
  | .enqueued _ | .sent .. | .completed .. | .shutdownThrew _ => False

/-- No completion is lost, and no task is about to be popped without its handler having run. -/
structure HandlersFirst (s : State Response) : Prop where
  noLoss : ∀ e ∈ s.log, ¬ Loses e
  noPop : s.processQueue ≠ .popping false

/-- The step is the `connect` of a `process_queue` that a `request` has just started, and this `connect`
returns without suspending: the state is `CONNECTING` already, or the host name of an https endpoint
cannot be set. -/
def RefusedBeforeWait (s : State Response) (a : Action Response) : Prop :=
  s.processQueue = .connectNext ∧ s.spawner ≠ none ∧ ∃ sni task rest,
    a = .resume sni ∧ s.tasks = task :: rest ∧
      (s.conn.connectionState = .connecting ∨ task.endpoint.scheme = "https" ∧ sni = false)

/-- The endpoints went through `make_http_https_url`. -/
def Normalized (B : BoostUrl) (s : State Response) : Prop := ∀ t ∈ s.tasks, B.Normal t.endpoint

theorem Normalized.head {B : BoostUrl} {s : State Response} (h : s.Normalized B) {task : Task}
    {rest : List Task} (htasks : s.tasks = task :: rest) : B.Normal task.endpoint := by
  apply h task
  rw [htasks]
  exact List.mem_cons_self

/-- While a `request` has not reached `async_wait`, its task is the whole queue. -/
structure Awaited (s : State Response) : Prop where
  task : ∀ id, s.spawner = some id → ∃ task, s.tasks = [task] ∧ task.id = id ∧ task.hasHandler = false
  noPop : ∀ id, s.spawner = some id → ∀ resumed, s.processQueue ≠ .popping resumed

variable [Inhabited Response] {B : BoostUrl} {s t : State Response} {a : Action Response}

/-- Every step keeps the endpoints normal. -/
theorem Normalized.step (h : s.Normalized B) (hstep : State.step B s a = some t) :
    t.Normalized B := by
  have hkeep : t.tasks = s.tasks → t.Normalized B := by
    intro htasks x hx
    rw [htasks] at hx
    exact h x hx
  have happend : ∀ {url endpoint id handler}, B.makeHttpHttpsUrl url = .ok endpoint →
      t.tasks = s.tasks ++ [⟨id, endpoint, handler⟩] → t.Normalized B := by
    intro url endpoint id handler hurl htasks x hx
    rw [htasks] at hx
    rcases List.mem_append.mp hx with hx | hx
    · exact h x hx
    · rw [List.mem_singleton] at hx
      subst hx
      exact ⟨url, hurl⟩
  cases transition_of_step hstep with
  | requestQueued _ valid => exact happend valid rfl
  | requestSpawned _ valid => exact happend valid rfl
  | handlerSet =>
    intro x hx
    obtain ⟨y, hy, rfl⟩ := List.mem_map.mp hx
    split
    all_goals exact h y hy
  | popped _ tasks =>
    intro x hx
    exact h x (by rw [tasks]; exact List.mem_cons_of_mem _ hx)
  | tick | requestRefused | callReturned | callSuspended | handlerLost | finished | newConnection
  | shutdownTls | shutdownTcp | reused | connectSuspended | connectRefused | shutdownReturned
  | shutdownThrew | connectAdvanced | connectSucceeded | connectFailed | written | writeFailed
  | answered | readFailed | callAdvanced | callDone => exact hkeep (by simp)

omit [Inhabited Response] in
/-- Whether the `connect` to the origin of a task suspends is decided by the guard and, for https, by
the host name. -/
theorem refused_iff (hB : B.Lawful) {endpoint : Url} (hnormal : B.Normal endpoint) {sni : Bool}
    {c conn : Connection} {result : ConnectResult}
    (h : Connects B (B.encodedOrigin endpoint) sni c result conn) :
    (∃ ec, result = .returned ec) ↔
      c.connectionState = .connecting ∨ endpoint.scheme = "https" ∧ sni = false := by
  have horigin := BoostUrl.makeHttpHttpsUrl_encodedOrigin hB hnormal
  cases h with
  | inProgress guard => exact ⟨fun _ => Or.inl guard, fun _ => ⟨_, rfl⟩⟩
  | invalid _ parsed =>
    rw [horigin] at parsed
    cases parsed
  | noHostName _ parsed https refused =>
    rw [horigin, Except.ok.injEq] at parsed
    subst parsed
    exact ⟨fun _ => Or.inr ⟨https, refused⟩, fun _ => ⟨_, rfl⟩⟩
  | suspended guard parsed hostName =>
    rw [horigin, Except.ok.injEq] at parsed
    subst parsed
    constructor
    · rintro ⟨ec, hec⟩
      cases hec
    · rintro (hconnecting | ⟨https, hrefused⟩)
      · exact absurd hconnecting guard
      · rw [hostName https] at hrefused
        cases hrefused

omit [Inhabited Response] in
theorem dispatches_iff : s.dispatches = true ↔ s.spawner = none ∧ s.processQueue.suspended = true := by
  simp [dispatches]

omit [Inhabited Response] in
theorem spawner_of_callable (h : s.callable = true) : s.spawner = none := by
  simp only [callable, Bool.and_eq_true, Option.isNone_iff_eq_none] at h
  exact h.1

omit [Inhabited Response] in
/-- Without a waiting `request` there is nothing to say. -/
theorem Awaited.of_none (h : t.spawner = none) : t.Awaited where
  task id hid := by
    rw [h] at hid
    cases hid
  noPop id hid := by
    rw [h] at hid
    cases hid

omit [Inhabited Response] in
/-- `process_queue` runs on with the queue as it was. -/
theorem Awaited.of_eq (h : s.Awaited) (htasks : t.tasks = s.tasks) (hspawner : t.spawner = s.spawner)
    (hpc : ∀ resumed, t.processQueue ≠ .popping resumed) : t.Awaited where
  task id hid := by
    rw [hspawner] at hid
    rw [htasks]
    exact h.task id hid
  noPop _ _ := hpc

omit [Inhabited Response] in
/-- A `connect` that is refused in a good run finds the handler registered. -/
theorem hasHandler_of_refused (hB : B.Lawful) (hserved : s.Served) (hnormal : s.Normalized B)
    {sni : Bool} {task : Task} {rest : List Task} {ec : Option ErrorCode} {conn : Connection}
    (pc : s.processQueue = .connectNext) (tasks : s.tasks = task :: rest)
    (connects : Connects B (B.encodedOrigin task.endpoint) sni s.conn (.returned ec) conn)
    (hgood : ¬ s.RefusedBeforeWait (.resume sni)) : s.spawner = none ∧ task.hasHandler = true := by
  have hmem : task ∈ s.tasks := by rw [tasks]; exact List.mem_cons_self
  have hrefused := (refused_iff hB (hnormal task hmem) connects).mp ⟨ec, rfl⟩
  have hnone : s.spawner = none := by
    by_contra hsome
    exact hgood ⟨pc, hsome, sni, task, rest, rfl, tasks, hrefused⟩
  refine ⟨hnone, (hserved.handlers task hmem).resolve_right ?_⟩
  rw [hnone]
  simp

/-- Good steps keep the waiting `request` and its task together. -/
theorem Awaited.step (h : s.Awaited) (hB : B.Lawful) (hserved : s.Served) (hnormal : s.Normalized B)
    (hgood : ¬ s.RefusedBeforeWait a) (hstep : State.step B s a = some t) : t.Awaited := by
  cases transition_of_step hstep with
  | tick d => exact ⟨h.task, h.noPop⟩
  | requestRefused => exact h
  | requestQueued callable | callReturned callable | callSuspended callable =>
    exact .of_none (spawner_of_callable callable)
  | @requestSpawned url endpoint _ _ processing =>
    refine ⟨fun id hid => ?_, fun _ _ resumed hpc => nomatch hpc⟩
    -- a `request` starts `process_queue` only when the queue is empty
    refine ⟨⟨s.nextTask, endpoint, false⟩, ?_, Option.some.inj hid, rfl⟩
    show s.tasks ++ _ = _
    rw [hserved.unserved processing, List.nil_append]
  | handlerSet | handlerLost => exact .of_none rfl
  | finished | newConnection | shutdownTls | shutdownTcp | reused | connectSuspended =>
    exact h.of_eq rfl rfl (by simp)
  | connectRefused pc tasks connects =>
    apply Awaited.of_none
    rw [fail_spawner]
    exact (hasHandler_of_refused hB hserved hnormal pc tasks connects hgood).1
  | popped pc =>
    apply Awaited.of_none
    rw [Option.eq_none_iff_forall_ne_some]
    intro id hid
    exact h.noPop id hid _ pc
  | shutdownReturned dispatches | shutdownThrew dispatches | connectAdvanced dispatches
  | connectSucceeded dispatches | connectFailed dispatches | written dispatches
  | writeFailed dispatches | answered dispatches | readFailed dispatches | callAdvanced dispatches
  | callDone dispatches =>
    apply Awaited.of_none
    simpa using (dispatches_iff.mp dispatches).1

omit [Inhabited Response] in
/-- A step that records nothing but a harmless event. -/
theorem HandlersFirst.of_log (h : s.HandlersFirst) (more : List (Event Response))
    (hlog : t.log = s.log ++ more) (hmore : ∀ e ∈ more, ¬ Loses e)
    (hpc : t.processQueue ≠ .popping false) : t.HandlersFirst := by
  refine ⟨?_, hpc⟩
  rw [hlog]
  intro e he
  rcases List.mem_append.mp he with he | he
  · exact h.noLoss e he
  · exact hmore e he

theorem HandlersFirst.fail (h : s.HandlersFirst) {task : Task} (hhandler : task.hasHandler = true)
    (ec : ErrorCode) (hlog : t.log = s.log) : (t.fail task ec).HandlersFirst := by
  rw [fail_of_hasHandler t hhandler]
  refine h.of_log [.completed task.id (some ec) default] ?_ ?_ ?_
  · show t.log ++ _ = s.log ++ _
    rw [hlog]
  · simp [Loses]
  · simp

omit [Inhabited Response] in
theorem HandlersFirst.invokeHandler (h : s.HandlersFirst) {task : Task}
    (hhandler : task.hasHandler = true) (ec : Option ErrorCode) (response : Response)
    (hlog : t.log = s.log) : (t.invokeHandler task ec response).HandlersFirst := by
  rw [invokeHandler_of_hasHandler t hhandler]
  refine h.of_log [.completed task.id ec response] ?_ ?_ ?_
  · show t.log ++ _ = s.log ++ _
    rw [hlog]
  · simp [Loses]
  · simp

/-- Good steps lose nothing. -/
theorem HandlersFirst.step (h : s.HandlersFirst) (hB : B.Lawful) (hserved : s.Served)
    (hnormal : s.Normalized B) (hawaited : s.Awaited) (hgood : ¬ s.RefusedBeforeWait a)
    (hstep : State.step B s a = some t) : t.HandlersFirst := by
  have hsilent : t.log = s.log → t.processQueue ≠ .popping false → t.HandlersFirst := by
    intro hlog hpc
    exact h.of_log [] (by rw [hlog, List.append_nil]) (by simp) hpc
  cases transition_of_step hstep with
  | tick | callReturned | callSuspended | handlerSet | callAdvanced | callDone =>
    exact hsilent rfl h.noPop
  | requestRefused => exact h
  | requestQueued => exact h.of_log _ rfl (by simp [Loses]) h.noPop
  | requestSpawned | shutdownThrew => exact h.of_log _ rfl (by simp [Loses]) (by simp)
  | @handlerLost id spawner _ notMem =>
    -- the task of the waiting `request` is still in the queue
    obtain ⟨task, htasks, hid, -⟩ := hawaited.task id spawner
    exact absurd hid (notMem task (by rw [htasks]; exact List.mem_singleton_self task))
  | finished | newConnection | shutdownTls | shutdownTcp | connectSuspended | popped | shutdownReturned
  | connectAdvanced | written => exact hsilent rfl (by simp)
  | reused | connectSucceeded => exact h.of_log _ (send_log _ _) (by simp [Loses]) (by simp)
  | connectRefused pc tasks connects =>
    exact h.fail (hasHandler_of_refused hB hserved hnormal pc tasks connects hgood).2 _ rfl
  | connectFailed dispatches _ tasks => exact h.fail (hserved.hasHandler_of_tasks dispatches tasks) _ rfl
  | writeFailed dispatches _ tasks | answered dispatches _ tasks | readFailed dispatches _ tasks =>
    exact h.invokeHandler (hserved.hasHandler_of_tasks dispatches tasks) _ _ rfl

/-- A `connect` that does not suspend fails the task of a `request` that still waits: nobody is told. -/
theorem not_handlersFirst_of_refused (hB : B.Lawful) (hnormal : s.Normalized B) (hawaited : s.Awaited)
    (hbad : s.RefusedBeforeWait a) (hstep : State.step B s a = some t) : ¬ t.HandlersFirst := by
  obtain ⟨pc, hspawner, sni, task, rest, rfl, tasks, hrefused⟩ := hbad
  obtain ⟨id, hid⟩ := Option.ne_none_iff_exists'.mp hspawner
  obtain ⟨task', htasks', -, hhandler⟩ := hawaited.task id hid
  have hnormal' := hnormal.head tasks
  obtain rfl : task' = task := by
    rw [htasks', List.cons.injEq] at tasks
    exact tasks.1
  cases transition_of_step hstep with
  | connectRefused _ tasks'' =>
    rw [htasks', List.cons.injEq] at tasks''
    obtain ⟨rfl, -⟩ := tasks''
    rw [fail_of_noHandler _ hhandler]
    exact fun h => h.noPop rfl
  | connectSuspended _ tasks'' connects =>
    rw [htasks', List.cons.injEq] at tasks''
    obtain ⟨rfl, -⟩ := tasks''
    obtain ⟨ec, hec⟩ := (refused_iff hB hnormal' connects).mpr hrefused
    cases hec
  | finished pc' | newConnection pc' | shutdownTls pc' | shutdownTcp pc' | reused pc' | popped pc' =>
    rw [pc] at pc'
    cases pc'

/-- Over every run of calls of `connect` and `request`: no task is failed, answered or popped before its
`request` has registered the handler, if and only if no `connect` of a `process_queue` that a `request`
has just started finds the state `CONNECTING` or, for https, fails to set the host name. -/
theorem handlersFirst_iff (hB : B.Lawful) {as : List (Action Response)} (h : Run B as s) :
    Runs.Along (State.step B) HandlersFirst {} as
      ↔ Runs.StepsMeet (State.step B) (fun u a => ¬ u.RefusedBeforeWait a) {} as := by
  refine Runs.along_iff_stepsMeet
    (fun u => u.Served ∧ u.Normalized B ∧ u.Awaited ∧ u.HandlersFirst) ?_ ?_ ?_ ?_ h
  · exact ⟨served_init, by simp [Normalized], .of_none rfl, ⟨by simp, by simp⟩⟩
  · rintro u ⟨-, -, -, hfirst⟩
    exact hfirst
  · rintro u a v ⟨hserved, hnormal, hawaited, hfirst⟩ hgood hstep
    exact ⟨hserved.step hstep, hnormal.step hstep, hawaited.step hB hserved hnormal hgood hstep,
      hfirst.step hB hserved hnormal hawaited hgood hstep⟩
  · rintro u a v ⟨-, hnormal, hawaited, -⟩ hbad hstep
    exact not_handlersFirst_of_refused hB hnormal hawaited (not_not.mp hbad) hstep

/-! ## A request during a pending `connect` -/

/-- A `connect` is under way; a request then starts `process_queue`, whose own `connect` is refused
before the request has reached `async_wait`. -/
def requestDuringConnect : List (Action Unit) :=
  [.connect "https://broker/orders" true, .request "https://broker/orders", .resume true,
    .resume true, .resume true, .resume true, .asyncWait]

/-- The task is failed without a handler and destroyed, and `async_wait` is called on it: the request
never completes. -/
theorem request_during_connect_is_lost :
    ∃ t, Run exampleUrls requestDuringConnect t ∧
      t.log = [.enqueued 0, .failedWithoutHandler 0, .waitOnDestroyed 0] ∧
        ¬ Runs.Along (State.step exampleUrls) HandlersFirst {} requestDuringConnect := by
  have hrun : (Runs.run (State.step exampleUrls) {} requestDuringConnect).map State.log
      = some [.enqueued 0, .failedWithoutHandler 0, .waitOnDestroyed 0] := by decide +kernel
  obtain ⟨t, ht, hlog⟩ := Option.map_eq_some_iff.mp hrun
  refine ⟨t, ht, hlog, fun halong => ?_⟩
  have hfirst := halong requestDuringConnect t List.prefix_rfl ht
  refine hfirst.noLoss (.waitOnDestroyed 0) ?_ trivial
  rw [hlog]
  simp

theorem handlersFirst_of_firstRequest :
    Runs.Along (State.step exampleUrls) HandlersFirst {} firstRequest := by
  have hrun : (Runs.run (State.step exampleUrls) {} firstRequest).isSome = true := by decide +kernel
  obtain ⟨t, ht⟩ := Option.isSome_iff_exists.mp hrun
  refine (handlersFirst_iff exampleUrls_lawful ht).mpr (Runs.StepsMeet.of_checkSteps
    (g := fun u a => u.conn.connectionState ≠ .connecting && (a matches .resume false) = false
      || u.processQueue ≠ .connectNext) ?_ ?_)
  · rintro u a hcheck ⟨pc, -, sni, task, rest, rfl, -, hrefused⟩
    simp only [pc, ne_eq, not_true_eq_false, decide_false, Bool.or_false, Bool.and_eq_true,
      decide_eq_true_eq] at hcheck
    rcases hrefused with hconnecting | ⟨-, rfl⟩
    · exact hcheck.1 hconnecting
    · simp at hcheck
  · decide +kernel

end State

end MacdTradingBot
