import MacdTradingBot.Rest.Transitions

/-!
# The flag `_is_processing`

`Served` is what holds between the queue, the flag and the handlers in every run, calls of `connect`
included. The flag says whether `process_queue` is alive, until a TLS shutdown fails: the exception ends
the coroutine with the flag set (`isProcessing_iff_alive`).
-/

namespace MacdTradingBot

namespace State

variable {Response : Type}

/-- A `process_queue` coroutine exists. -/
def Alive (s : State Response) : Prop := s.processQueue ≠ .idle

instance (s : State Response) : Decidable s.Alive := inferInstanceAs (Decidable (_ ≠ _))

/-- The coroutine is past the head of the loop, with a current task. -/
def HasCurrentTask (s : State Response) : Prop := s.processQueue ≠ .idle ∧ s.processQueue ≠ .loopTop

/-- The queue, the flag and the handlers. A task is without a handler only while its `request` has not
reached `async_wait`. -/
structure Served (s : State Response) : Prop where
  processing : s.Alive → s.isProcessing = true
  unserved : s.isProcessing = false → s.tasks = []
  current : s.HasCurrentTask → s.tasks ≠ []
  handlers : ∀ t ∈ s.tasks, t.hasHandler = true ∨ s.spawner = some t.id

theorem served_init : Served ({} : State Response) :=
  ⟨fun h => absurd rfl h, fun _ => rfl, fun h => absurd rfl h.1, by simp⟩

/-- When the io_context dispatches, every task has its handler. -/
theorem Served.hasHandler {s : State Response} (h : s.Served) (hd : s.dispatches = true) {t : Task}
    (ht : t ∈ s.tasks) : t.hasHandler = true := by
  rcases h.handlers t ht with hhandler | hspawner
  · exact hhandler
  · rw [dispatches, hspawner] at hd
    cases hd

theorem Served.hasHandler_of_tasks {s : State Response} (h : s.Served) (hd : s.dispatches = true)
    {task : Task} {rest : List Task} (htasks : s.tasks = task :: rest) : task.hasHandler = true := by
  apply h.hasHandler hd
  rw [htasks]
  exact List.mem_cons_self

/-- Only without a coroutine is the flag unset. -/
theorem Served.idle {s : State Response} (h : s.Served) (hprocessing : s.isProcessing = false) :
    s.processQueue = .idle := by
  by_contra halive
  rw [h.processing halive] at hprocessing
  cases hprocessing

theorem Served.hasHandler_of_callable {s : State Response} (h : s.Served) (hc : s.callable = true)
    {t : Task} (ht : t ∈ s.tasks) : t.hasHandler = true := by
  rcases h.handlers t ht with hhandler | hspawner
  · exact hhandler
  · rw [callable, hspawner] at hc
    cases hc

/-- A step that leaves the queue and the flag alone, with the coroutine alive before and after. -/
theorem Served.of_alive {s t : State Response} (h : s.Served) (hs : s.Alive)
    (hprocessing : t.isProcessing = s.isProcessing) (htasks : t.tasks = s.tasks)
    (hspawner : t.spawner = s.spawner) (hcurrent : s.tasks ≠ []) : t.Served where
  processing _ := hprocessing.trans (h.processing hs)
  unserved ht := by
    rw [hprocessing, h.processing hs] at ht
    cases ht
  current _ := by rwa [htasks]
  handlers := by
    rw [htasks, hspawner]
    exact h.handlers

variable [Inhabited Response] {B : BoostUrl} {s t : State Response} {a : Action Response}

/-- Every step keeps the invariant. -/
theorem Served.step (h : s.Served) (hstep : State.step B s a = some t) : t.Served := by
  cases transition_of_step hstep with
  | tick | callReturned | callSuspended | callAdvanced | callDone =>
    exact ⟨h.processing, h.unserved, h.current, h.handlers⟩
  | requestRefused => exact h
  | requestQueued callable _ processing =>
    refine ⟨fun _ => processing, fun hp => ?_, fun _ => by simp, fun x hx => ?_⟩
    · have hp' : s.isProcessing = false := hp
      rw [processing] at hp'
      cases hp'
    · rcases List.mem_append.mp hx with hx | hx
      · exact h.handlers x hx
      · rw [List.mem_singleton] at hx
        subst hx
        exact Or.inl rfl
  | requestSpawned callable _ processing =>
    refine ⟨fun _ => rfl, fun hp => (nomatch hp), fun hc => absurd rfl hc.2, fun x hx => ?_⟩
    rcases List.mem_append.mp hx with hx | hx
    · exact Or.inl (h.hasHandler_of_callable callable hx)
    · rw [List.mem_singleton] at hx
      subst hx
      exact Or.inr rfl
  | @handlerSet id spawner =>
    refine ⟨h.processing, fun hp => ?_, fun hc => ?_, fun x hx => Or.inl ?_⟩
    · show List.map _ s.tasks = []
      rw [h.unserved hp, List.map_nil]
    · show List.map _ s.tasks ≠ []
      rw [ne_eq, List.map_eq_nil_iff]
      exact h.current hc
    · obtain ⟨y, hy, rfl⟩ := List.mem_map.mp hx
      split
      · rfl
      · rename_i hne
        -- the only task that may lack a handler is the one of the pending `request`
        refine (h.handlers y hy).resolve_right fun hspawner => hne ?_
        rw [spawner, Option.some.injEq] at hspawner
        exact hspawner.symm
  | @handlerLost id spawner _ notMem =>
    refine ⟨h.processing, h.unserved, h.current, fun x hx => Or.inl ?_⟩
    refine (h.handlers x hx).resolve_right fun hspawner => notMem x hx ?_
    rw [spawner, Option.some.injEq] at hspawner
    exact hspawner.symm
  | finished pc tasks =>
    refine ⟨fun ha => absurd rfl ha, fun _ => tasks, fun hc => absurd rfl hc.1, h.handlers⟩
  | newConnection pc tasks | shutdownTls pc tasks | shutdownTcp pc tasks | reused pc tasks
  | connectSuspended pc tasks =>
    exact h.of_alive (by simp [Alive, pc]) rfl rfl rfl (by simp [tasks])
  | connectAdvanced _ pc tasks | connectSucceeded _ pc tasks | written _ pc tasks =>
    exact h.of_alive (by simp [Alive, pc]) rfl rfl rfl (by simp [tasks])
  | shutdownReturned _ pc | shutdownThrew _ pc =>
    exact h.of_alive (by simp [Alive, pc]) rfl rfl rfl (h.current (by simp [HasCurrentTask, pc]))
  | connectRefused pc tasks =>
    exact h.of_alive (by simp [Alive, pc]) (by simp) (by simp) (by simp) (by simp [tasks])
  | connectFailed _ pc tasks | writeFailed _ pc tasks | answered _ pc tasks | readFailed _ pc tasks =>
    exact h.of_alive (by simp [Alive, pc]) (by simp) (by simp) (by simp) (by simp [tasks])
  | @popped _ _ task rest pc tasks =>
    have halive : s.Alive := by simp [Alive, pc]
    refine ⟨fun _ => h.processing halive, fun hp => ?_, fun hc => absurd rfl hc.2, fun x hx => ?_⟩
    · rw [h.processing halive] at hp
      cases hp
    · apply h.handlers x
      rw [tasks]
      exact List.mem_cons_of_mem _ hx

/-! ## The flag and the coroutine -/

/-- The step is the completion of `async_shutdown` with an error other than `stream_truncated`. -/
def ShutdownFails (s : State Response) (a : Action Response) : Prop :=
  s.processQueue = .shuttingDown ∧ ∃ completion ec, a = .complete completion ∧
    completion.ec = some ec ∧ ec ≠ .streamTruncated

/-- The flag says whether `process_queue` is alive; when it is not, nothing is left in the queue, and
the next request with a valid URL starts it. -/
structure Accounted (B : BoostUrl) (s : State Response) : Prop where
  flag : s.isProcessing = true ↔ s.Alive
  queue : ¬ s.Alive → s.tasks = []
  next : ¬ s.Alive → ∀ url endpoint t, B.makeHttpHttpsUrl url = .ok endpoint →
    State.step B s (.request url) = some t → t.Alive

/-- The rest of `Accounted` follows from the flag. -/
theorem Served.accounted (h : s.Served) (hflag : s.isProcessing = true ↔ s.Alive) :
    s.Accounted B where
  flag := hflag
  queue hdead := h.unserved (Bool.eq_false_iff.mpr (mt hflag.mp hdead))
  next hdead url endpoint t hurl hstep := by
    have hfalse : s.isProcessing = false := Bool.eq_false_iff.mpr (mt hflag.mp hdead)
    cases transition_of_step hstep with
    | requestRefused _ invalid =>
      rw [hurl] at invalid
      cases invalid
    | requestQueued _ _ processing =>
      rw [hfalse] at processing
      cases processing
    | requestSpawned => exact fun hidle => nomatch hidle

omit [Inhabited Response] in
/-- With its handler registered, the current task is told, and the coroutine lives on. -/
theorem alive_invokeHandler {task : Task} (hhandler : task.hasHandler = true) (s : State Response)
    (ec : Option ErrorCode) (response : Response) : (s.invokeHandler task ec response).Alive := by
  rw [invokeHandler_of_hasHandler s hhandler]
  exact fun hidle => nomatch hidle

theorem alive_fail (s : State Response) (task : Task) (ec : ErrorCode) : (s.fail task ec).Alive := by
  unfold fail
  split
  all_goals exact fun hidle => nomatch hidle

/-- A step other than a failing TLS shutdown keeps the flag right. -/
theorem flag_step (h : s.Served) (hflag : s.isProcessing = true ↔ s.Alive)
    (hshutdown : ¬ s.ShutdownFails a) (hstep : State.step B s a = some t) :
    t.isProcessing = true ↔ t.Alive := by
  -- what is alive after a step has the flag by `Served`
  suffices hback : t.isProcessing = true → t.Alive from ⟨hback, (h.step hstep).processing⟩
  intro ht
  cases transition_of_step hstep with
  | tick | requestRefused | callReturned | callSuspended | handlerSet | handlerLost | callAdvanced
  | callDone => exact hflag.mp ht
  | requestQueued _ _ processing => exact hflag.mp processing
  | finished => cases ht
  | requestSpawned | newConnection | shutdownTls | shutdownTcp | reused | connectSuspended | popped
  | shutdownReturned | connectAdvanced | connectSucceeded | written =>
    exact fun hidle => nomatch hidle
  | connectRefused | connectFailed => exact alive_fail _ _ _
  | @shutdownThrew completion ec _ pc outcome notTruncated =>
    exact absurd ⟨pc, completion, ec, rfl, outcome, notTruncated⟩ hshutdown
  | writeFailed dispatches _ tasks | answered dispatches _ tasks | readFailed dispatches _ tasks =>
    exact alive_invokeHandler (h.hasHandler_of_tasks dispatches tasks) _ _ _

/-- A failing TLS shutdown ends the coroutine and leaves the flag set. -/
theorem not_accounted_of_shutdownFails (h : s.Served) (hshutdown : s.ShutdownFails a)
    (hstep : State.step B s a = some t) : ¬ t.Accounted B := by
  obtain ⟨pc, completion, ec, rfl, outcome, notTruncated⟩ := hshutdown
  have hprocessing : s.isProcessing = true := h.processing (by simp [Alive, pc])
  cases transition_of_step hstep with
  | shutdownReturned _ _ outcome' =>
    rw [outcome] at outcome'
    rcases outcome' with hnone | htruncated
    · cases hnone
    · exact absurd (Option.some.inj htruncated) notTruncated
  | shutdownThrew => exact fun hacc => hacc.flag.mp hprocessing rfl
  | connectAdvanced _ pc' | connectSucceeded _ pc' | connectFailed _ pc' | written _ pc'
  | writeFailed _ pc' | answered _ pc' | readFailed _ pc' =>
    rw [pc] at pc'
    cases pc'

/-- Over every run: the flag says at each point whether a `process_queue` coroutine is alive, nothing is
left in the queue of a dead one and the next request starts it, if and only if no TLS shutdown of
`graceful_shutdown` completes with an error other than `stream_truncated`. -/
theorem isProcessing_iff_alive {as : List (Action Response)} (h : Run B as s) :
    Runs.Along (State.step B) (Accounted B) {} as
      ↔ Runs.StepsMeet (State.step B) (fun u a => ¬ u.ShutdownFails a) {} as := by
  refine Runs.along_iff_stepsMeet (fun u => u.Served ∧ (u.isProcessing = true ↔ u.Alive)) ?_ ?_ ?_ ?_ h
  · exact ⟨served_init, by simp [Alive]⟩
  · rintro u ⟨hserved, hflag⟩
    exact hserved.accounted hflag
  · rintro u a v ⟨hserved, hflag⟩ hgood hstep
    exact ⟨hserved.step hstep, flag_step hserved hflag hgood hstep⟩
  · rintro u a v ⟨hserved, -⟩ hbad hstep
    exact not_accounted_of_shutdownFails hserved (not_not.mp hbad) hstep

/-! ## A TLS shutdown that times out -/

def succeeds : Completion Unit := { response := () }

def fails (ec : ErrorCode) : Completion Unit := { ec := some ec, response := () }

/-- A request to the https host: resolve, connect, handshake, write and read succeed. -/
def firstRequest : List (Action Unit) :=
  [.request "https://broker/orders", .resume true, .resume true, .asyncWait, .complete succeeds,
    .complete succeeds, .complete succeeds, .complete succeeds, .complete succeeds, .resume true,
    .resume true]

/-- An https request, an http request, and an https request again. -/
def thereAndBack : List (Action Unit) :=
  firstRequest ++ [.request "http://data/bars", .resume true, .asyncWait, .complete succeeds,
    .resume true, .complete succeeds, .complete succeeds, .complete succeeds, .complete succeeds,
    .resume true, .resume true, .request "https://broker/orders", .resume true, .resume true,
    .asyncWait, .complete succeeds, .complete succeeds]

/-- The three requests to their end. -/
def threeRequests : List (Action Unit) :=
  thereAndBack ++ [.complete succeeds, .complete succeeds, .complete succeeds, .resume true, .resume true]

/-- Thirty seconds later a request to the http host: the deadline of the first connection has passed, so
its TLS shutdown fails with a timeout. -/
def lateRequest : List (Action Unit) :=
  firstRequest ++ [.tick Stream.thirtySeconds, .request "http://data/bars", .resume true, .asyncWait,
    .complete (fails .timeout)]

/-- The client is then dead: the flag is set, no coroutine is alive, the request is left in the queue. -/
theorem failed_shutdown_leaves_flag_set :
    ∃ t, Run exampleUrls lateRequest t ∧ t.isProcessing = true ∧ ¬ t.Alive ∧ t.tasks ≠ [] ∧
      ¬ Runs.Along (State.step exampleUrls) (Accounted exampleUrls) {} lateRequest := by
  have hrun : (Runs.run (State.step exampleUrls) {} lateRequest).map
      (fun t => (t.isProcessing, decide t.Alive, t.tasks.isEmpty)) = some (true, false, false) := by
    decide +kernel
  obtain ⟨t, ht, hobserved⟩ := Option.map_eq_some_iff.mp hrun
  simp only [Prod.mk.injEq, decide_eq_false_iff_not, List.isEmpty_eq_false_iff] at hobserved
  obtain ⟨hflag, hdead, htasks⟩ := hobserved
  refine ⟨t, ht, hflag, hdead, htasks, fun halong => hdead ?_⟩
  exact (halong lateRequest t List.prefix_rfl ht).flag.mp hflag

theorem isProcessing_iff_alive_firstRequest :
    Runs.Along (State.step exampleUrls) (Accounted exampleUrls) {} firstRequest := by
  have hrun : (Runs.run (State.step exampleUrls) {} firstRequest).isSome = true := by decide +kernel
  obtain ⟨t, ht⟩ := Option.isSome_iff_exists.mp hrun
  refine (isProcessing_iff_alive ht).mpr (Runs.StepsMeet.of_checkSteps
    (g := fun u _ => u.processQueue ≠ .shuttingDown) ?_ ?_)
  · rintro u a hcheck ⟨pc, -⟩
    simp [pc] at hcheck
  · decide +kernel

end State

end MacdTradingBot
