import MacdTradingBot.Rest.Link

/-!
# The order of the queue

Runs of `request` calls in which the TLS host name can be set and no TLS shutdown fails. `Fifo` says how
the record, the queue and `process_queue` fit together: the tasks completed so far, and then the tasks
that wait, are all tasks enqueued so far, in order.
-/

namespace MacdTradingBot

namespace State

open Connection

variable {Response : Type}

/-! ## What the record says about tasks -/

def enqueuedIds (log : List (Event Response)) : List ℕ :=
  log.filterMap fun
    | .enqueued id => some id
    | _ => none

def sentIds (log : List (Event Response)) : List ℕ :=
  log.filterMap fun
    | .sent task _ _ => some task.id
    | _ => none

def completedIds (log : List (Event Response)) : List ℕ :=
  log.filterMap fun
    | .completed id _ _ => some id
    | _ => none

theorem enqueuedIds_append (log more : List (Event Response)) :
    enqueuedIds (log ++ more) = enqueuedIds log ++ enqueuedIds more := List.filterMap_append

theorem sentIds_append (log more : List (Event Response)) :
    sentIds (log ++ more) = sentIds log ++ sentIds more := List.filterMap_append

theorem completedIds_append (log more : List (Event Response)) :
    completedIds (log ++ more) = completedIds log ++ completedIds more := List.filterMap_append

/-- The tasks without a result: all of the queue, but the first one after its handler has run. -/
def waiting (s : State Response) : List Task :=
  if s.processQueue = .popping true then s.tasks.tail else s.tasks

/-- The current task is being written or its answer read. -/
def Exchanging : ProcessQueue → Prop
  | .writing _ _ | .reading _ _ => True
  | .idle | .loopTop | .shuttingDown | .connectNext | .connecting _ | .popping _ => False

/-- The queue is served in order. -/
structure Fifo (s : State Response) : Prop where
  enqueued : enqueuedIds s.log = List.range s.nextTask
  queue : completedIds s.log ++ s.waiting.map Task.id = List.range s.nextTask
  sorted : (sentIds s.log).Pairwise (· < ·)
  sent : ∀ id ∈ sentIds s.log, id < (completedIds s.log).length ∨
    Exchanging s.processQueue ∧ id = (completedIds s.log).length
  current : Exchanging s.processQueue → (completedIds s.log).length ∈ sentIds s.log

theorem fifo_init : Fifo ({} : State Response) :=
  ⟨rfl, rfl, List.Pairwise.nil, by simp [sentIds], fun h => h.elim⟩

/-- The first task that waits is the one after the completed ones. -/
theorem Fifo.id_eq {s : State Response} (h : s.Fifo) {task : Task} {rest : List Task}
    (hwaiting : s.waiting = task :: rest) : task.id = (completedIds s.log).length := by
  have hget := congrArg (fun l => l[(completedIds s.log).length]?) h.queue
  simp only [hwaiting, List.map_cons, List.getElem?_append_right le_rfl, Nat.sub_self,
    List.getElem?_cons_zero] at hget
  obtain ⟨hlt, heq⟩ := List.getElem?_eq_some_iff.mp hget.symm
  rw [List.getElem_range] at heq
  exact heq.symm

/-- A step that neither enqueues, sends nor completes a task. -/
theorem Fifo.of_ids {s t : State Response} (h : s.Fifo) (hnext : t.nextTask = s.nextTask)
    {more : List (Event Response)} (hlog : t.log = s.log ++ more) (henqueued : enqueuedIds more = [])
    (hsent : sentIds more = []) (hcompleted : completedIds more = [])
    (hwaiting : t.waiting.map Task.id = s.waiting.map Task.id)
    (hpc : Exchanging t.processQueue ↔ Exchanging s.processQueue) : t.Fifo := by
  have henqueued' : enqueuedIds t.log = enqueuedIds s.log := by
    rw [hlog, enqueuedIds_append, henqueued, List.append_nil]
  have hsent' : sentIds t.log = sentIds s.log := by
    rw [hlog, sentIds_append, hsent, List.append_nil]
  have hcompleted' : completedIds t.log = completedIds s.log := by
    rw [hlog, completedIds_append, hcompleted, List.append_nil]
  refine ⟨?_, ?_, ?_, ?_, ?_⟩
  · rw [henqueued', hnext, h.enqueued]
  · rw [hcompleted', hwaiting, hnext, h.queue]
  · rw [hsent']
    exact h.sorted
  · rw [hsent', hcompleted', hpc]
    exact h.sent
  · rw [hsent', hcompleted', hpc]
    exact h.current

/-- A new task goes to the end. -/
theorem Fifo.enqueue {s t : State Response} (h : s.Fifo) (endpoint : Url) (handler : Bool)
    (hnext : t.nextTask = s.nextTask + 1) (hlog : t.log = s.log ++ [.enqueued s.nextTask])
    (hwaiting : t.waiting = s.waiting ++ [⟨s.nextTask, endpoint, handler⟩])
    (hpc : Exchanging t.processQueue ↔ Exchanging s.processQueue) : t.Fifo := by
  have hsent : sentIds t.log = sentIds s.log := by simp [hlog, sentIds]
  have hcompleted : completedIds t.log = completedIds s.log := by simp [hlog, completedIds]
  refine ⟨?_, ?_, ?_, ?_, ?_⟩
  · rw [hlog, hnext, List.range_succ, ← h.enqueued]
    simp [enqueuedIds]
  · rw [hcompleted, hwaiting, hnext, List.range_succ, ← h.queue, List.map_append, List.append_assoc]
    rfl
  · rw [hsent]
    exact h.sorted
  · rw [hsent, hcompleted, hpc]
    exact h.sent
  · rw [hsent, hcompleted, hpc]
    exact h.current

/-- The first task is sent. -/
theorem Fifo.send {s t : State Response} (h : s.Fifo) {task : Task} {rest : List Task}
    {conn : Connection} {now : ℕ} (hwaiting : s.waiting = task :: rest)
    (hpc : ¬ Exchanging s.processQueue) (hnext : t.nextTask = s.nextTask)
    (hlog : t.log = s.log ++ [.sent task conn now]) (hwaiting' : t.waiting = s.waiting)
    (hpc' : Exchanging t.processQueue) : t.Fifo := by
  have henqueued : enqueuedIds t.log = enqueuedIds s.log := by simp [hlog, enqueuedIds]
  have hcompleted : completedIds t.log = completedIds s.log := by simp [hlog, completedIds]
  have hsent : sentIds t.log = sentIds s.log ++ [(completedIds s.log).length] := by
    simp [hlog, sentIds, h.id_eq hwaiting]
  -- what was sent before belongs to tasks completed before
  have hbefore : ∀ id ∈ sentIds s.log, id < (completedIds s.log).length :=
    fun id hid => (h.sent id hid).resolve_right fun hnow => hpc hnow.1
  refine ⟨?_, ?_, ?_, ?_, ?_⟩
  · rw [henqueued, hnext, h.enqueued]
  · rw [hcompleted, hwaiting', hnext, h.queue]
  · rw [hsent, List.pairwise_append]
    refine ⟨h.sorted, List.pairwise_singleton _ _, fun id hid id' hid' => ?_⟩
    rw [List.mem_singleton.mp hid']
    exact hbefore id hid
  · rw [hsent, hcompleted]
    intro id hid
    rcases List.mem_append.mp hid with hid | hid
    · exact Or.inl (hbefore id hid)
    · exact Or.inr ⟨hpc', List.mem_singleton.mp hid⟩
  · rw [hsent, hcompleted]
    exact fun _ => List.mem_append_right _ (List.mem_singleton_self _)

/-- The first task is completed. -/
theorem Fifo.complete {s t : State Response} (h : s.Fifo) {task : Task} {rest : List Task}
    {ec : Option ErrorCode} {response : Response} (hwaiting : s.waiting = task :: rest)
    (hnext : t.nextTask = s.nextTask) (hlog : t.log = s.log ++ [.completed task.id ec response])
    (hwaiting' : t.waiting = rest) (hpc : ¬ Exchanging t.processQueue) : t.Fifo := by
  have henqueued : enqueuedIds t.log = enqueuedIds s.log := by simp [hlog, enqueuedIds]
  have hsent : sentIds t.log = sentIds s.log := by simp [hlog, sentIds]
  have hcompleted : completedIds t.log = completedIds s.log ++ [task.id] := by
    simp [hlog, completedIds]
  refine ⟨?_, ?_, ?_, ?_, fun hexchanging => absurd hexchanging hpc⟩
  · rw [henqueued, hnext, h.enqueued]
  · rw [hcompleted, hwaiting', hnext, ← h.queue, hwaiting, List.map_cons, List.append_assoc]
    rfl
  · rw [hsent]
    exact h.sorted
  · rw [hsent, hcompleted, List.length_append, List.length_singleton]
    intro id hid
    rcases h.sent id hid with hlt | ⟨-, heq⟩
    · exact Or.inl (by omega)
    · exact Or.inl (by omega)

/-! ## Runs without trouble outside the exchanges -/

variable [Inhabited Response] {B : BoostUrl} {s t : State Response} {a : Action Response}

/-- The step is no call of `connect`, sets the TLS host name if it comes to that, and is no failing TLS
shutdown. Resolving, connecting, the handshake, writing and reading may fail. -/
def Admissible (s : State Response) (a : Action Response) : Prop :=
  IsNoCall a ∧ a ≠ .resume false ∧ ¬ s.ShutdownFails a

/-- The invariants of such runs together. -/
structure Orderly (B : BoostUrl) (s : State Response) : Prop where
  served : s.Served
  normal : s.Normalized B
  awaited : s.Awaited
  handlersFirst : s.HandlersFirst
  linked : s.Linked B
  flag : s.isProcessing = true ↔ s.Alive
  fifo : s.Fifo

omit [Inhabited Response] in
/-- `process_queue` can always call `connect`. -/
theorem Orderly.not_refused (h : s.Orderly B) (pc : s.processQueue = .connectNext) {task : Task} {sni : Bool}
    (ha : s.Admissible (.resume sni)) :
    ¬ (s.conn.connectionState = .connecting ∨ task.endpoint.scheme = "https" ∧ sni = false) := by
  have hfits := h.linked.fits
  unfold Fits at hfits
  rw [pc] at hfits
  rintro (hconnecting | ⟨-, rfl⟩)
  · exact hfits.1 hconnecting
  · exact ha.2.1 rfl

omit [Inhabited Response] in
/-- So this `connect` suspends. -/
theorem Orderly.not_returned (h : s.Orderly B) (hB : B.Lawful) (pc : s.processQueue = .connectNext)
    {task : Task} {rest : List Task} {sni : Bool} {ec : Option ErrorCode} {conn : Connection}
    (htasks : s.tasks = task :: rest) (ha : s.Admissible (.resume sni)) :
    ¬ Connects B (B.encodedOrigin task.endpoint) sni s.conn (.returned ec) conn := by
  intro hreturned
  exact h.not_refused pc ha ((refused_iff hB (h.normal.head htasks) hreturned).mp ⟨ec, rfl⟩)

omit [Inhabited Response] in
theorem Orderly.not_refusedBeforeWait (h : s.Orderly B) (ha : s.Admissible a) :
    ¬ s.RefusedBeforeWait a := by
  rintro ⟨pc, -, sni, task, rest, rfl, -, hrefused⟩
  exact h.not_refused pc ha hrefused

omit [Inhabited Response] in
/-- At all points but after a handler, the whole queue waits. -/
theorem waiting_eq_tasks (h : s.processQueue ≠ .popping true) : s.waiting = s.tasks := if_neg h

omit [Inhabited Response] in
theorem waiting_of_popping (h : s.processQueue = .popping true) : s.waiting = s.tasks.tail := if_pos h

omit [Inhabited Response] in
/-- Appending to the queue appends to what waits. -/
theorem Served.waiting_append (h : s.Served) {task : Task} (hpc : t.processQueue = s.processQueue)
    (htasks : t.tasks = s.tasks ++ [task]) : t.waiting = s.waiting ++ [task] := by
  unfold waiting
  rw [hpc, htasks]
  split
  · rename_i hpopping
    have hne : s.tasks ≠ [] := h.current (by simp [HasCurrentTask, hpopping])
    exact List.tail_append_of_ne_nil hne
  · rfl

omit [Inhabited Response] in
/-- A step that records nothing, away from `popping true`. -/
theorem Fifo.of_tasks (h : s.Fifo) (hpc : s.processQueue ≠ .popping true)
    (hpc' : t.processQueue ≠ .popping true) (htasks : t.tasks = s.tasks)
    (hnext : t.nextTask = s.nextTask) (hlog : t.log = s.log)
    (hexchanging : Exchanging t.processQueue ↔ Exchanging s.processQueue) : t.Fifo := by
  refine h.of_ids hnext (hlog.trans (List.append_nil _).symm) rfl rfl rfl ?_ hexchanging
  rw [waiting_eq_tasks hpc, waiting_eq_tasks hpc', htasks]

omit [Inhabited Response] in
/-- The handler of the current task runs. -/
theorem Fifo.invokeHandler (h : s.Fifo) {task : Task} {rest : List Task}
    (hpc : s.processQueue ≠ .popping true) (htasks : s.tasks = task :: rest)
    (hhandler : task.hasHandler = true) (conn : Connection) (ec : Option ErrorCode)
    (response : Response) : ({ s with conn := conn }.invokeHandler task ec response).Fifo := by
  rw [invokeHandler_of_hasHandler _ hhandler]
  refine h.complete ((waiting_eq_tasks hpc).trans htasks) rfl rfl ?_ id
  rw [waiting_of_popping rfl]
  show s.tasks.tail = rest
  rw [htasks, List.tail_cons]

theorem Fifo.fail (h : s.Fifo) {task : Task} {rest : List Task}
    (hpc : s.processQueue ≠ .popping true) (htasks : s.tasks = task :: rest)
    (hhandler : task.hasHandler = true) (conn : Connection) (ec : ErrorCode) :
    ({ s with conn := conn }.fail task ec).Fifo := by
  rw [fail_of_hasHandler _ hhandler, ← invokeHandler_of_hasHandler _ hhandler]
  exact h.invokeHandler hpc htasks hhandler conn (some ec) default

/-- Every admissible step keeps the order. -/
theorem Fifo.step (h : s.Orderly B) (hB : B.Lawful) (ha : s.Admissible a)
    (hstep : State.step B s a = some t) : t.Fifo := by
  have hfifo := h.fifo
  cases transition_of_step hstep with
  | tick => exact hfifo.of_ids rfl (List.append_nil _).symm rfl rfl rfl rfl Iff.rfl
  | requestRefused => exact hfifo
  | @requestQueued _ endpoint =>
    exact hfifo.enqueue endpoint true rfl rfl (h.served.waiting_append rfl rfl) Iff.rfl
  | @requestSpawned _ endpoint _ _ processing =>
    have hidle := h.served.idle processing
    refine hfifo.enqueue endpoint false rfl rfl ?_ (by simp [Exchanging, hidle])
    rw [waiting_eq_tasks (by simp), waiting_eq_tasks (by simp [hidle])]
  | callReturned => exact absurd rfl (ha.1 _ _)
  | callSuspended => exact absurd rfl (ha.1 _ _)
  | handlerSet _ suspended =>
    have hpc : s.processQueue ≠ .popping true := by
      intro hpopping
      rw [hpopping] at suspended
      cases suspended
    refine hfifo.of_ids rfl (List.append_nil _).symm rfl rfl rfl ?_ Iff.rfl
    rw [waiting_eq_tasks hpc, waiting_eq_tasks (by exact hpc), List.map_map]
    -- registering a handler changes no id
    refine List.map_congr_left fun task _ => ?_
    simp only [Function.comp_apply]
    split <;> rfl
  | handlerLost => exact hfifo.of_ids rfl rfl rfl rfl rfl rfl Iff.rfl
  | finished pc | newConnection pc | shutdownTls pc | shutdownTcp pc | connectSuspended pc =>
    exact hfifo.of_tasks (by simp [pc]) (by simp) rfl rfl rfl (by simp [Exchanging, pc])
  | shutdownReturned _ pc | connectAdvanced _ pc | written _ pc =>
    exact hfifo.of_tasks (by simp [pc]) (by simp) rfl rfl rfl (by simp [Exchanging, pc])
  | reused pc tasks | connectSucceeded _ pc tasks =>
    have hwaiting := waiting_eq_tasks (s := s) (by simp [pc])
    refine hfifo.send (hwaiting.trans tasks) (by simp [Exchanging, pc]) rfl rfl ?_ trivial
    rw [hwaiting, waiting_eq_tasks (by simp)]
    rfl
  | connectRefused pc tasks connects => exact absurd connects (h.not_returned hB pc tasks ha)
  | @popped _ resumed task rest pc tasks =>
    cases resumed with
    | false => exact absurd pc h.handlersFirst.noPop
    | true =>
      -- the task that is popped was completed already
      refine hfifo.of_ids rfl (List.append_nil _).symm rfl rfl rfl ?_ (by simp [Exchanging, pc])
      rw [waiting_of_popping pc, waiting_eq_tasks (by simp), tasks, List.tail_cons]
  | shutdownThrew _ pc outcome notTruncated =>
    exact absurd ⟨pc, _, _, rfl, outcome, notTruncated⟩ ha.2.2
  | connectFailed dispatches pc tasks =>
    exact hfifo.fail (by simp [pc]) tasks (h.served.hasHandler_of_tasks dispatches tasks) _ _
  | writeFailed dispatches pc tasks | answered dispatches pc tasks | readFailed dispatches pc tasks =>
    exact hfifo.invokeHandler (by simp [pc]) tasks (h.served.hasHandler_of_tasks dispatches tasks) _ _ _
  | callAdvanced _ call | callDone _ call =>
    rw [h.linked.noCalls] at call
    cases call

/-- Every admissible step keeps the invariants. -/
theorem Orderly.step (h : s.Orderly B) (hB : B.Lawful) (ha : s.Admissible a)
    (hstep : State.step B s a = some t) : t.Orderly B where
  served := h.served.step hstep
  normal := h.normal.step hstep
  awaited := h.awaited.step hB h.served h.normal (h.not_refusedBeforeWait ha) hstep
  handlersFirst := h.handlersFirst.step hB h.served h.normal h.awaited (h.not_refusedBeforeWait ha) hstep
  linked := h.linked.step hB h.served h.normal ha.1 hstep
  flag := flag_step h.served h.flag ha.2.2 hstep
  fifo := Fifo.step h hB ha hstep

omit [Inhabited Response] in
theorem orderly_init : Orderly B ({} : State Response) where
  served := served_init
  normal := by simp [Normalized]
  awaited := .of_none rfl
  handlersFirst := ⟨by simp, by simp⟩
  linked := linked_init
  flag := by simp [Alive]
  fifo := fifo_init

theorem orderly_of_run (hB : B.Lawful) {as : List (Action Response)}
    (ha : Runs.StepsMeet (State.step B) Admissible {} as) (h : Run B as s) : s.Orderly B :=
  Runs.invariant_of_stepsMeet (Orderly B) orderly_init (fun _ _ _ hu hG hstep => hu.step hB hG hstep)
    ha h

end State

end MacdTradingBot
