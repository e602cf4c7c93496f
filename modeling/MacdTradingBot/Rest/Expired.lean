import MacdTradingBot.Rest.Deadline
import MacdTradingBot.Rest.Progress

/-!
# Requests that are sent too late

An operation that starts on a stream whose deadline has passed can only time out. A request that is handed
to such a stream never gets an answer, in whatever order the rest of the run goes on.
-/

namespace MacdTradingBot

namespace State

open Connection

variable {Response : Type}

/-- The stream that the task was handed to had expired. -/
def Late (conn : Connection) (now : ℕ) : Prop := (conn.stream conn.isTls).expired now = true

/-- The flag of the pending operation, as far as the current task is concerned: the write has it set when
the task was sent too late, and it does not come to a read then. -/
def Flagged (late : Prop) : ProcessQueue → Prop
  | .writing _ expired => late → expired = true
  | .reading _ _ => ¬ late
  | .idle | .loopTop | .shuttingDown | .connectNext | .connecting _ | .popping _ => True

/-- No task that was sent too late has been answered, and the current one will not be. -/
structure Timely (s : State Response) : Prop where
  answered : ∀ task conn now, .sent task conn now ∈ s.log → Late conn now →
    ∀ response, .completed task.id none response ∉ s.log
  current : ∀ task conn now, .sent task conn now ∈ s.log → task.id = (completedIds s.log).length →
    Flagged (Late conn now) s.processQueue

/-- At the start nothing is late. -/
theorem timely_init : Timely ({} : State Response) := ⟨by simp, by simp⟩

/-- Outside of an exchange there is nothing to flag. -/
theorem flagged_of_not_exchanging {late : Prop} {pc : ProcessQueue} (h : ¬ Exchanging pc) :
    Flagged late pc := by
  cases pc with
  | writing | reading => exact absurd trivial h
  | idle | loopTop | shuttingDown | connectNext | connecting _ | popping _ => trivial

/-- A step that neither sends nor completes a task. -/
theorem Timely.of_log {s t : State Response} (h : s.Timely) {more : List (Event Response)}
    (hlog : t.log = s.log ++ more) (hsent : ∀ task conn now, .sent task conn now ∉ more)
    (hcompleted : completedIds more = [])
    (hpc : t.processQueue = s.processQueue ∨ ¬ Exchanging t.processQueue) : t.Timely := by
  have hids : completedIds t.log = completedIds s.log := by
    rw [hlog, completedIds_append, hcompleted, List.append_nil]
  have hold : ∀ task conn now, .sent task conn now ∈ t.log → .sent task conn now ∈ s.log := by
    intro task conn now hmem
    rw [hlog] at hmem
    exact (List.mem_append.mp hmem).resolve_right (hsent task conn now)
  refine ⟨?_, ?_⟩
  · intro task conn now hmem hlate response hanswer
    rw [hlog] at hanswer
    rcases List.mem_append.mp hanswer with hanswer | hanswer
    · exact h.answered task conn now (hold task conn now hmem) hlate response hanswer
    · have hid : task.id ∈ completedIds more := List.mem_filterMap.mpr ⟨_, hanswer, rfl⟩
      rw [hcompleted] at hid
      cases hid
  · intro task conn now hmem hid
    rcases hpc with hpc | hpc
    · rw [hpc]
      rw [hids] at hid
      exact h.current task conn now (hold task conn now hmem) hid
    · exact flagged_of_not_exchanging hpc

/-- A task that is sent has not been completed before. -/
theorem Fifo.not_completed {s : State Response} (h : s.Fifo) {task : Task} {rest : List Task}
    (hwaiting : s.waiting = task :: rest) : task.id ∉ completedIds s.log := by
  have hnodup : (completedIds s.log ++ s.waiting.map Task.id).Nodup := by
    rw [h.queue]
    exact List.nodup_range
  rw [hwaiting, List.map_cons] at hnodup
  exact fun hmem => (List.nodup_append.mp hnodup).2.2 _ hmem _ List.mem_cons_self rfl

/-- A task that is sent too late is flagged. -/
theorem Timely.send {s : State Response} (h : s.Timely) (hfifo : s.Fifo) (hpc : ¬ Exchanging s.processQueue)
    {task : Task} {rest : List Task} (hwaiting : s.waiting = task :: rest) (conn : Connection) :
    ({ s with conn := conn }.send task).Timely := by
  have hids : completedIds (({ s with conn := conn }.send task).log) = completedIds s.log := by
    rw [send_log, completedIds_append]
    exact List.append_nil _
  refine ⟨?_, ?_⟩
  · intro task' conn' now hmem hlate response hanswer
    have hanswer' := (List.mem_append.mp hanswer).resolve_right (by simp)
    rcases List.mem_append.mp hmem with hmem | hmem
    · exact h.answered task' conn' now hmem hlate response hanswer'
    · rw [List.mem_singleton, Event.sent.injEq] at hmem
      obtain ⟨rfl, -, -⟩ := hmem
      exact hfifo.not_completed hwaiting (List.mem_filterMap.mpr ⟨_, hanswer', rfl⟩)
  · intro task' conn' now hmem hid
    rw [hids] at hid
    rcases List.mem_append.mp hmem with hmem | hmem
    · -- what was sent before has been completed
      have hsent : task'.id ∈ sentIds s.log := List.mem_filterMap.mpr ⟨_, hmem, rfl⟩
      rcases hfifo.sent _ hsent with hlt | ⟨hexchanging, -⟩
      · omega
      · exact absurd hexchanging hpc
    · rw [List.mem_singleton, Event.sent.injEq] at hmem
      obtain ⟨rfl, rfl, rfl⟩ := hmem
      exact id

/-- The current task is completed: with an error, or it was not late. -/
theorem Timely.complete {s t : State Response} (h : s.Timely) (hfifo : s.Fifo) {task : Task}
    {rest : List Task} (hwaiting : s.waiting = task :: rest) {ec : Option ErrorCode} {response : Response}
    (hlog : t.log = s.log ++ [.completed task.id ec response]) (hpc : ¬ Exchanging t.processQueue)
    (hec : ec = none → ∃ tls expired, s.processQueue = .reading tls expired) : t.Timely := by
  refine ⟨?_, fun _ _ _ _ _ => flagged_of_not_exchanging hpc⟩
  intro task' conn now hmem hlate response' hanswer
  rw [hlog] at hmem hanswer
  have hmem' : .sent task' conn now ∈ s.log := (List.mem_append.mp hmem).resolve_right (by simp)
  rcases List.mem_append.mp hanswer with hanswer | hanswer
  · exact h.answered task' conn now hmem' hlate response' hanswer
  · rw [List.mem_singleton, Event.completed.injEq] at hanswer
    obtain ⟨hid, hnone, -⟩ := hanswer
    obtain ⟨tls, expired, pc⟩ := hec hnone.symm
    have hflagged := h.current task' conn now hmem' (hid.trans (hfifo.id_eq hwaiting))
    rw [pc] at hflagged
    exact hflagged hlate

variable [Inhabited Response] {B : BoostUrl} {s t : State Response} {a : Action Response}

/-- Every admissible step keeps the invariant. -/
theorem Timely.step (h : s.Timely) (horderly : s.Orderly B) (hB : B.Lawful) (ha : s.Admissible a)
    (hstep : State.step B s a = some t) : t.Timely := by
  have hfifo := horderly.fifo
  have hsilent : ∀ {u : State Response}, u.log = s.log →
      (u.processQueue = s.processQueue ∨ ¬ Exchanging u.processQueue) → u.Timely := fun hlog hpc =>
    h.of_log (hlog.trans (List.append_nil _).symm) (by simp) rfl hpc
  cases transition_of_step hstep with
  | tick | requestRefused => exact hsilent rfl (Or.inl rfl)
  | requestQueued | handlerLost => exact h.of_log rfl (by simp) rfl (Or.inl rfl)
  | requestSpawned => exact h.of_log rfl (by simp) rfl (Or.inr id)
  | callReturned => exact absurd rfl (ha.1 _ _)
  | callSuspended => exact absurd rfl (ha.1 _ _)
  | handlerSet => exact hsilent rfl (Or.inl rfl)
  | finished | newConnection | shutdownTls | shutdownTcp | connectSuspended | popped | shutdownReturned
  | connectAdvanced => exact hsilent rfl (Or.inr id)
  | shutdownThrew => exact h.of_log rfl (by simp) rfl (Or.inr id)
  | reused pc tasks =>
    exact h.send hfifo (by simp [Exchanging, pc]) ((waiting_eq_tasks (by simp [pc])).trans tasks) s.conn
  | connectSucceeded _ pc tasks =>
    exact h.send hfifo (by simp [Exchanging, pc]) ((waiting_eq_tasks (by simp [pc])).trans tasks) _
  | connectRefused pc tasks connects => exact absurd connects (horderly.not_returned hB pc tasks ha)
  | connectFailed dispatches pc tasks =>
    rw [fail_of_hasHandler _ (horderly.served.hasHandler_of_tasks dispatches tasks)]
    exact h.complete hfifo ((waiting_eq_tasks (by simp [pc])).trans tasks) rfl id (by simp)
  | written _ pc _ _ notExpired =>
    refine ⟨h.answered, fun task conn now hmem hid => ?_⟩
    have hflagged := h.current task conn now hmem hid
    rw [pc, notExpired] at hflagged
    exact fun hlate => Bool.false_ne_true (hflagged hlate)
  | writeFailed dispatches pc tasks | readFailed dispatches pc tasks =>
    rw [invokeHandler_of_hasHandler _ (horderly.served.hasHandler_of_tasks dispatches tasks)]
    exact h.complete hfifo ((waiting_eq_tasks (by simp [pc])).trans tasks) rfl id (by simp)
  | @answered tls expired _ _ _ dispatches pc tasks =>
    rw [invokeHandler_of_hasHandler _ (horderly.served.hasHandler_of_tasks dispatches tasks)]
    exact h.complete hfifo ((waiting_eq_tasks (by simp [pc])).trans tasks) rfl id
      fun _ => ⟨tls, expired, pc⟩
  | callAdvanced _ call | callDone _ call =>
    rw [horderly.linked.noCalls] at call
    cases call

/-- In every run of admissible steps no task that was sent too late is answered. -/
theorem timely_of_run (hB : B.Lawful) {as : List (Action Response)}
    (ha : Runs.StepsMeet (State.step B) Admissible {} as) (h : Run B as s) :
    s.Orderly B ∧ s.Timely := by
  refine Runs.invariant_of_stepsMeet (fun u => u.Orderly B ∧ u.Timely) ⟨orderly_init, timely_init⟩ ?_ ha h
  rintro u a v ⟨horderly, htimely⟩ hG hstep
  exact ⟨horderly.step hB hG hstep, htimely.step horderly hB hG hstep⟩

end State

end MacdTradingBot
