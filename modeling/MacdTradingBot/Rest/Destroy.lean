import MacdTradingBot.Rest.Fifo

/-!
# The end of a client

`~async_rest_client`, when no coroutine of the client is suspended. The tasks that it finds in the queue are
those that a failed TLS shutdown has left behind, and those enqueued since: the flag that is left set keeps
`process_queue` from being started for them. The destructor is what completes them.
-/

namespace MacdTradingBot

namespace State

open Connection

variable {Response : Type} [Inhabited Response]

/-- `boost::system::errc::operation_canceled`. -/
def operationCanceled : ErrorCode := .io 125

/-- `fail` of a task that is taken out of the queue. -/
def failed (task : Task) : Event Response :=
  if task.hasHandler then .completed task.id (some operationCanceled) default else .failedWithoutHandler task.id

/-- `~async_rest_client`. Of the client nothing but the record is left. -/
def destroy (s : State Response) : List (Event Response) := s.log ++ s.tasks.map failed

omit [Inhabited Response] in
/-- An exception has ended `process_queue`, and nothing starts it again. -/
structure Stranded (s : State Response) : Prop where
  idle : s.processQueue = .idle
  flag : s.isProcessing = true
  noCalls : s.connects = []
  fifo : s.Fifo

variable {B : BoostUrl} {s t : State Response} {a : Action Response}

/-- The exception leaves the order of the queue as it was. -/
theorem Orderly.stranded (h : s.Orderly B) (hfails : s.ShutdownFails a) (hstep : State.step B s a = some t) :
    t.Stranded := by
  obtain ⟨pc, completion, ec, rfl, outcome, notTruncated⟩ := hfails
  cases transition_of_step hstep with
  | shutdownThrew =>
    refine ⟨rfl, h.served.processing (by simp [Alive, pc]), h.linked.noCalls, ?_⟩
    refine h.fifo.of_ids rfl rfl rfl rfl rfl ?_ (by simp [Exchanging, pc])
    rw [waiting_eq_tasks (by simp), waiting_eq_tasks (by simp [pc])]
  | shutdownReturned _ _ outcome' =>
    rw [outcome] at outcome'
    rcases outcome' with hnone | htruncated
    · cases hnone
    · exact absurd (Option.some.inj htruncated) notTruncated
  | connectAdvanced _ pc' | connectSucceeded _ pc' | connectFailed _ pc' | written _ pc' | writeFailed _ pc'
  | answered _ pc' | readFailed _ pc' =>
    rw [pc] at pc'
    cases pc'

/-- Requests still join the queue, and nothing else happens. -/
theorem Stranded.step (h : s.Stranded) (ha : IsNoCall a) (hstep : State.step B s a = some t) :
    t.Stranded := by
  have hidle := h.idle
  cases transition_of_step hstep with
  | tick => exact ⟨h.idle, h.flag, h.noCalls, h.fifo.of_ids rfl (List.append_nil _).symm rfl rfl rfl rfl Iff.rfl⟩
  | requestRefused => exact h
  | @requestQueued _ endpoint =>
    refine ⟨h.idle, h.flag, h.noCalls, h.fifo.enqueue endpoint true rfl rfl ?_ Iff.rfl⟩
    rw [waiting_eq_tasks (by simp [hidle]), waiting_eq_tasks (by simp [hidle])]
  | requestSpawned _ _ processing =>
    rw [h.flag] at processing
    cases processing
  | callReturned => exact absurd rfl (ha _ _)
  | callSuspended => exact absurd rfl (ha _ _)
  | handlerSet =>
    refine ⟨h.idle, h.flag, h.noCalls, ?_⟩
    refine h.fifo.of_ids rfl (List.append_nil _).symm rfl rfl rfl ?_ Iff.rfl
    rw [waiting_eq_tasks (by simp [hidle]), waiting_eq_tasks (by simp [hidle]), List.map_map]
    refine List.map_congr_left fun task _ => ?_
    simp only [Function.comp_apply]
    split <;> rfl
  | handlerLost => exact ⟨h.idle, h.flag, h.noCalls, h.fifo.of_ids rfl rfl rfl rfl rfl rfl Iff.rfl⟩
  | finished pc | newConnection pc | shutdownTls pc | shutdownTcp pc | reused pc | connectSuspended pc
  | connectRefused pc | popped pc =>
    rw [hidle] at pc
    cases pc
  | shutdownReturned _ pc | shutdownThrew _ pc | connectAdvanced _ pc | connectSucceeded _ pc
  | connectFailed _ pc | written _ pc | writeFailed _ pc | answered _ pc | readFailed _ pc =>
    rw [hidle] at pc
    cases pc
  | callAdvanced _ call | callDone _ call =>
    rw [h.noCalls] at call
    cases call

/-- A run of requests is orderly until a TLS shutdown fails, and stranded from then on. -/
theorem orderly_or_stranded (hB : B.Lawful) {as : List (Action Response)}
    (ha : ∀ a ∈ as, IsNoCall a ∧ a ≠ .resume false) (h : Run B as s) :
    s.Served ∧ (s.Orderly B ∨ s.Stranded) := by
  refine Runs.invariant_of_stepsMeet (G := fun _ a => IsNoCall a ∧ a ≠ .resume false)
    (fun u => u.Served ∧ (u.Orderly B ∨ u.Stranded)) ⟨served_init, Or.inl orderly_init⟩ ?_
    (fun pre a _ hpre _ => ha a (hpre.subset (by simp))) h
  rintro u a v ⟨hserved, hu⟩ ⟨hcall, hname⟩ hstep
  refine ⟨hserved.step hstep, ?_⟩
  rcases hu with horderly | hstranded
  · by_cases hfails : u.ShutdownFails a
    · exact Or.inr (horderly.stranded hfails hstep)
    · exact Or.inl (horderly.step hB ⟨hcall, hname, hfails⟩ hstep)
  · exact Or.inr (hstranded.step hcall hstep)

theorem completedIds_failed {tasks : List Task} (h : ∀ task ∈ tasks, task.hasHandler = true) :
    completedIds (tasks.map fun task => (failed task : Event Response)) = tasks.map Task.id := by
  induction tasks with
  | nil => rfl
  | cons task tasks ih =>
    have hevent : (failed task : Event Response) = .completed task.id (some operationCanceled) default := by
      rw [failed, if_pos (h task List.mem_cons_self)]
    rw [List.map_cons, hevent, List.map_cons, ← ih fun other hmem => h other (List.mem_cons_of_mem _ hmem)]
    rfl

theorem enqueuedIds_failed (tasks : List Task) :
    enqueuedIds (tasks.map fun task => (failed task : Event Response)) = [] := by
  rw [enqueuedIds, List.filterMap_eq_nil_iff]
  intro e he
  obtain ⟨task, -, rfl⟩ := List.mem_map.mp he
  by_cases hhandler : task.hasHandler = true
  · rw [failed, if_pos hhandler]
  · rw [failed, if_neg hhandler]

/-- In every run of requests in which the TLS host name can be set, also when a TLS shutdown fails: if the
client is destroyed when no coroutine of it is suspended, every request that was ever made has been completed
once, in order. The requests that are left in the queue are told that they were canceled. -/
theorem completed_by_destroy (hB : B.Lawful) {as : List (Action Response)}
    (ha : ∀ a ∈ as, IsNoCall a ∧ a ≠ .resume false) (h : Run B as s) (hdead : ¬ s.Alive)
    (hspawner : s.spawner = none) :
    completedIds s.destroy = enqueuedIds s.destroy ∧ (enqueuedIds s.destroy).Nodup ∧
      ∀ task ∈ s.tasks, .completed task.id (some operationCanceled) default ∈ s.destroy := by
  obtain ⟨hserved, hqueue⟩ := orderly_or_stranded hB ha h
  have hfifo : s.Fifo := hqueue.elim Orderly.fifo Stranded.fifo
  have hidle : s.processQueue = .idle := not_not.mp hdead
  have hhandlers : ∀ task ∈ s.tasks, task.hasHandler = true := by
    intro task hmem
    refine (hserved.handlers task hmem).resolve_right fun hwaits => ?_
    rw [hspawner] at hwaits
    cases hwaits
  have hcompleted : completedIds s.destroy = List.range s.nextTask := by
    rw [destroy, completedIds_append, completedIds_failed hhandlers, ← hfifo.queue,
      waiting_eq_tasks (by simp [hidle])]
  have henqueued : enqueuedIds s.destroy = List.range s.nextTask := by
    rw [destroy, enqueuedIds_append, enqueuedIds_failed, List.append_nil, hfifo.enqueued]
  refine ⟨hcompleted.trans henqueued.symm, ?_, ?_⟩
  · rw [henqueued]
    exact List.nodup_range
  · intro task hmem
    apply List.mem_append_right
    refine List.mem_map.mpr ⟨task, hmem, ?_⟩
    rw [failed, if_pos (hhandlers task hmem)]

/-- `lateRequest`, in which a TLS shutdown fails, and one more request. -/
def strandedRequests : List (Action Unit) := lateRequest ++ [.request "http://data/bars"]

/-- The two requests that were left behind are canceled. -/
theorem completed_by_destroy_strandedRequests :
    ∃ t, Run exampleUrls strandedRequests t ∧ t.tasks.map Task.id = [1, 2] ∧
      completedIds t.destroy = enqueuedIds t.destroy ∧ (enqueuedIds t.destroy).Nodup := by
  have hrun : (Runs.run (State.step exampleUrls) {} strandedRequests).map
      (fun t => t.tasks.map Task.id = [1, 2] && t.processQueue = .idle && t.spawner = none)
        = some true := by
    decide +kernel
  obtain ⟨t, ht, hcheck⟩ := Option.map_eq_some_iff.mp hrun
  simp only [Bool.and_eq_true, decide_eq_true_eq] at hcheck
  obtain ⟨⟨hids, hidle⟩, hspawner⟩ := hcheck
  have hactions : ∀ a ∈ strandedRequests, IsNoCall a ∧ a ≠ .resume false := by
    simp [strandedRequests, lateRequest, firstRequest, IsNoCall]
  obtain ⟨hall, honce, -⟩ := completed_by_destroy exampleUrls_lawful hactions ht (fun halive => halive hidle)
    hspawner
  exact ⟨t, ht, hids, hall, honce⟩

end State

end MacdTradingBot
