import MacdTradingBot.Rest.Processing

/-!
# The state `CONNECTING` as a lock

Calls of `connect` from outside and the one of `process_queue` exclude each other through
`_connection_state`. The lock holds until a TLS shutdown of `process_queue` completes while a `connect`
from outside is under way: `graceful_shutdown` then overwrites `CONNECTING` (`exclusive_iff`).
-/

namespace MacdTradingBot

namespace State

open Connection

variable {Response : Type}

/-- The `connect` that `process_queue` itself is in. -/
def ownConnect : ProcessQueue → ℕ
  | .connecting _ => 1
  | _ => 0

/-- The number of `connect` executions past their guard. -/
def connecting (s : State Response) : ℕ := s.connects.length + ownConnect s.processQueue

/-- At most one `connect` is past its guard, and the state is `CONNECTING` exactly while one is. -/
structure Exclusive (s : State Response) : Prop where
  atMostOne : s.connecting ≤ 1
  locked : s.conn.connectionState = .connecting ↔ s.connecting = 1

/-- The step is the end of `async_shutdown`, with success or `stream_truncated`, while a `connect` from
outside is under way. -/
def ShutdownOverwrites (s : State Response) (a : Action Response) : Prop :=
  s.processQueue = .shuttingDown ∧ s.connects ≠ [] ∧ ∃ completion, a = .complete completion ∧
    (completion.ec = none ∨ completion.ec = some .streamTruncated)

theorem Exclusive.of_eq {s t : State Response} (h : s.Exclusive)
    (hstate : t.conn.connectionState = s.conn.connectionState) (hcount : t.connecting = s.connecting) :
    t.Exclusive := by
  refine ⟨?_, ?_⟩
  · rw [hcount]
    exact h.atMostOne
  · rw [hstate, hcount]
    exact h.locked

/-- Nobody holds the lock, and the state shows it. -/
theorem Exclusive.of_unlocked {t : State Response} (hstate : t.conn.connectionState ≠ .connecting)
    (hcount : t.connecting = 0) : t.Exclusive := by
  refine ⟨by omega, ?_⟩
  rw [hcount]
  simp [hstate]

theorem Exclusive.connecting_eq_zero {s : State Response} (h : s.Exclusive)
    (hstate : s.conn.connectionState ≠ .connecting) : s.connecting = 0 := by
  have hne : s.connecting ≠ 1 := mt h.locked.mpr hstate
  have hle := h.atMostOne
  omega

/-- While `process_queue` connects, no call from outside does. -/
theorem Exclusive.noCall {s : State Response} (h : s.Exclusive) {frame : ConnectFrame}
    (pc : s.processQueue = .connecting frame) : s.connects.length = 0 := by
  have hone := h.atMostOne
  rw [connecting, pc] at hone
  change s.connects.length + 1 ≤ 1 at hone
  omega

/-- The lock passes to one `connect`. -/
theorem Exclusive.of_locked {t : State Response} (hstate : t.conn.connectionState = .connecting)
    (hcount : t.connecting = 1) : t.Exclusive :=
  ⟨by omega, by simp [hstate, hcount]⟩

variable [Inhabited Response] {B : BoostUrl} {s t : State Response} {a : Action Response}

omit [Inhabited Response] in
@[simp]
theorem connecting_invokeHandler (task : Task) (ec : Option ErrorCode) (response : Response) :
    (s.invokeHandler task ec response).connecting = s.connects.length := by
  unfold invokeHandler
  split <;> rfl

@[simp]
theorem connecting_fail (task : Task) (ec : ErrorCode) :
    (s.fail task ec).connecting = s.connects.length := by
  unfold fail
  split <;> rfl

/-- A step that does not overwrite the lock keeps it. -/
theorem Exclusive.step (h : s.Exclusive) (hserved : s.Served) (hgood : ¬ s.ShutdownOverwrites a)
    (hstep : State.step B s a = some t) : t.Exclusive := by
  cases transition_of_step hstep with
  | tick | requestQueued | handlerSet | handlerLost => exact h.of_eq rfl rfl
  | requestRefused => exact h
  | requestSpawned _ _ processing =>
    -- the flag is clear, so the coroutine that is started is the only one
    exact h.of_eq rfl (by simp [connecting, hserved.idle processing, ownConnect])
  | callReturned callable connects =>
    rcases connects.state_of_returned with rfl | ⟨hbefore, hafter⟩
    · exact h
    · exact .of_unlocked (by simp [hafter]) (h.connecting_eq_zero hbefore)
  | callSuspended callable connects =>
    obtain ⟨hbefore, hafter⟩ := connects.state_of_suspended
    have hzero := h.connecting_eq_zero hbefore
    refine .of_locked hafter ?_
    show (s.connects ++ [_]).length + ownConnect s.processQueue = 1
    rw [List.length_append, List.length_singleton]
    unfold connecting at hzero
    omega
  | finished pc | newConnection pc | shutdownTls pc | reused pc | popped pc =>
    exact h.of_eq rfl (by simp [connecting, pc, ownConnect])
  | shutdownTcp pc _ state =>
    have hzero := h.connecting_eq_zero (by simp [state])
    exact .of_unlocked (by simp [shutdownDone]) (by simpa [connecting, pc, ownConnect] using hzero)
  | connectSuspended pc _ connects =>
    obtain ⟨hbefore, hafter⟩ := connects.state_of_suspended
    have hzero := h.connecting_eq_zero hbefore
    exact .of_locked hafter (by simpa [connecting, pc, ownConnect] using hzero)
  | connectRefused pc _ connects =>
    rcases connects.state_of_returned with rfl | ⟨hbefore, hafter⟩
    · refine h.of_eq (by simp) ?_
      rw [connecting_fail, connecting, pc]
      rfl
    · have hzero := h.connecting_eq_zero hbefore
      rw [connecting, pc] at hzero
      refine .of_unlocked (by simp [hafter]) ?_
      rw [connecting_fail]
      exact hzero
  | shutdownReturned _ pc outcome =>
    -- no other `connect` is under way, so the state that is overwritten was not `CONNECTING`
    have hnone : s.connects = [] := by
      by_contra hsome
      exact hgood ⟨pc, hsome, _, rfl, outcome⟩
    exact .of_unlocked (by simp [shutdownDone]) (by simp [connecting, hnone, ownConnect])
  | shutdownThrew _ pc | written _ pc =>
    exact h.of_eq rfl (by simp [connecting, pc, ownConnect])
  | connectAdvanced _ pc _ resumes =>
    exact h.of_eq resumes.state_of_suspended (by simp [connecting, pc, ownConnect])
  | connectSucceeded _ pc _ resumes =>
    exact .of_unlocked (by simp [resumes.state_of_returned]) (h.noCall pc)
  | connectFailed _ pc _ resumes =>
    refine .of_unlocked (by simp [resumes.state_of_returned]) ?_
    rw [connecting_fail]
    exact h.noCall pc
  | writeFailed _ pc | answered _ pc | readFailed _ pc =>
    refine h.of_eq (by simp) ?_
    rw [connecting_invokeHandler, connecting, pc]
    rfl
  | callAdvanced _ _ resumes =>
    exact h.of_eq resumes.state_of_suspended (by simp [connecting])
  | @callDone i frame _ ec _ _ call resumes =>
    have hone := h.atMostOne
    obtain ⟨hi, -⟩ := List.getElem?_eq_some_iff.mp call
    have hstate := resumes.state_of_returned
    refine .of_unlocked ?_ ?_
    · rw [hstate]
      split <;> simp
    unfold connecting at hone
    show (s.connects.eraseIdx i).length + ownConnect s.processQueue = 0
    rw [List.length_eraseIdx_of_lt hi]
    omega

omit [Inhabited Response] in
theorem exclusive_init : Exclusive ({} : State Response) := .of_unlocked (by simp) rfl

/-- Overwriting the lock lets a second `connect` in: the state is no longer `CONNECTING`. -/
theorem not_exclusive_of_shutdownOverwrites (hbad : s.ShutdownOverwrites a)
    (hstep : State.step B s a = some t) (h : t.Exclusive) : False := by
  obtain ⟨pc, hcalls, completion, rfl, outcome⟩ := hbad
  have hpos : 0 < s.connects.length := List.length_pos_iff.mpr hcalls
  cases transition_of_step hstep with
  | shutdownReturned =>
    have hzero := h.connecting_eq_zero (by simp [shutdownDone])
    change s.connects.length + 0 = 0 at hzero
    omega
  | shutdownThrew _ _ outcome' notTruncated =>
    rw [outcome'] at outcome
    rcases outcome with hnone | htruncated
    · cases hnone
    · exact notTruncated (Option.some.inj htruncated)
  | connectAdvanced _ pc' | connectSucceeded _ pc' | connectFailed _ pc' | written _ pc'
  | writeFailed _ pc' | answered _ pc' | readFailed _ pc' =>
    rw [pc] at pc'
    cases pc'

/-- Over every run of calls of `connect` and `request`: at each point at most one `connect` is past its
guard and the state is `CONNECTING` exactly while one is, if and only if no TLS shutdown of
`process_queue` returns while a `connect` from outside is under way. -/
theorem exclusive_iff {as : List (Action Response)} (h : Run B as s) :
    Runs.Along (State.step B) Exclusive {} as
      ↔ Runs.StepsMeet (State.step B) (fun u a => ¬ u.ShutdownOverwrites a) {} as := by
  refine Runs.along_iff_stepsMeet (fun u => u.Served ∧ u.Exclusive) ?_ ?_ ?_ ?_ h
  · exact ⟨served_init, exclusive_init⟩
  · rintro u ⟨-, hexclusive⟩
    exact hexclusive
  · rintro u a v ⟨hserved, hexclusive⟩ hgood hstep
    exact ⟨hserved.step hstep, hexclusive.step hserved hgood hstep⟩
  · rintro u a v - hbad hstep hexclusive
    exact not_exclusive_of_shutdownOverwrites (not_not.mp hbad) hstep hexclusive

/-! ## Two calls of `connect` at once -/

/-- A request to the http host while the client is connected to the https host; during the TLS shutdown
that it brings, somebody calls `connect`. The shutdown succeeds, and `process_queue` connects too. -/
def connectDuringShutdown : List (Action Unit) :=
  firstRequest ++ [.request "http://data/bars", .resume true, .asyncWait,
    .connect "https://broker/orders" true, .complete succeeds, .resume true]

/-- Two executions of `connect` are then past the guard. -/
theorem two_connects_at_once :
    ∃ t, Run exampleUrls connectDuringShutdown t ∧ t.connecting = 2 ∧
      ¬ Runs.Along (State.step exampleUrls) Exclusive {} connectDuringShutdown := by
  have hrun : (Runs.run (State.step exampleUrls) {} connectDuringShutdown).map connecting = some 2 := by
    decide +kernel
  obtain ⟨t, ht, hcount⟩ := Option.map_eq_some_iff.mp hrun
  refine ⟨t, ht, hcount, fun halong => ?_⟩
  have hone := (halong connectDuringShutdown t List.prefix_rfl ht).atMostOne
  omega

/-- A `connect` and then a request: every shutdown finds no other `connect` under way. -/
theorem exclusive_of_connect_then_request :
    Runs.Along (State.step exampleUrls) Exclusive {}
      (.connect "https://broker/orders" true :: .completeConnect 0 (fails .timeout) :: firstRequest) := by
  have hrun : (Runs.run (State.step exampleUrls) {}
      (.connect "https://broker/orders" true :: .completeConnect 0 (fails .timeout) ::
        firstRequest)).isSome = true := by decide +kernel
  obtain ⟨t, ht⟩ := Option.isSome_iff_exists.mp hrun
  refine (exclusive_iff ht).mpr (Runs.StepsMeet.of_checkSteps
    (g := fun u _ => u.connects.isEmpty || u.processQueue = .idle) ?_ ?_)
  · rintro u a hcheck ⟨pc, hcalls, -⟩
    simp [pc, hcalls] at hcheck
  · decide +kernel

end State

end MacdTradingBot
