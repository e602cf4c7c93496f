import MacdTradingBot.WebSocket.Reconnecting

/-!
# Stopping

`stop` clears the flags, but the stages from `on_resolve` to `on_handshake` look at no flag: a chain that
is pending when `stop` is called goes on, and its last stage sets `_connected` again. `stop` is final if
and only if no chain is pending (`stop_final_iff`).
-/

namespace MacdTradingBot

namespace WebSocketSession

variable {σ : Type}

/-- The resolves and the writes that have been started, in order. -/
def started (s : WebSocketSession σ) : List Event :=
  s.log.filter fun
    | .resolveStarted | .writeStarted _ _ => true
    | .sent _ | .popped _ _ | .frame _ _ => false

/-- What may follow a `stop`: completions, the end of a sleep, and code that calls no method of the
session but `send`. -/
def Action.Continues : Action σ → Prop
  | .start => False
  | .call f => ∀ kept, ∀ call ∈ (f kept).1, ∃ text, call = .send text
  | .wake | .complete _ _ => True

/-- Whatever follows, the session is not connected again and starts no resolve and no write. -/
def Final (cfg : WebSocketSessionConfig) (handler : FrameHandler σ) (s : WebSocketSession σ) : Prop :=
  ∀ bs u, (∀ b ∈ bs, b.Continues) → Runs.run (step cfg handler) s bs = some u →
    u.connected = false ∧ u.started = s.started

variable {cfg : WebSocketSessionConfig} {handler : FrameHandler σ} {s t : WebSocketSession σ}
  {a : Action σ}

/-! ## Without a chain -/

/-- The session is stopped, no chain is pending, and `events` are the resolves and writes so far. -/
structure Stopped (events : List Event) (s : WebSocketSession σ) : Prop where
  disconnected : s.connected = false
  noReconnect : s.shouldReconnect = false
  noChain : s.chains = 0
  same : s.started = events

variable {events : List Event}

theorem Stopped.send (h : s.Stopped events) (text : Bytes) : (s.send text).Stopped events := by
  rw [send_cases, if_neg (by simp [h.disconnected])]
  refine ⟨h.disconnected, h.noReconnect, h.noChain, ?_⟩
  rw [← h.same]
  simp [started, List.filter_append]

theorem Stopped.stop (h : s.Stopped events) (isOpen : Bool) : (s.stop isOpen).Stopped events where
  disconnected := stop_connected s isOpen
  noReconnect := stop_shouldReconnect s isOpen
  noChain := (stop_chains s isOpen).trans h.noChain
  same := by
    rw [started, stop_log]
    exact h.same

theorem Stopped.performAll (h : s.Stopped events) (calls : List Call) :
    (s.performAll calls).Stopped events := by
  apply performAll_induction (Stopped events)
  · intro text _ u hu
    exact hu.send text
  · intro isOpen _ u hu
    exact hu.stop isOpen
  · exact h

theorem Stopped.finish (h : s.Stopped events) {operation : Operation} (mem : operation ∈ s.operations)
    (outcome : Outcome) : (s.finish operation outcome).Stopped events where
  disconnected := h.disconnected
  noReconnect := h.noReconnect
  noChain := by
    have hc := chains_finish mem outcome
    rw [h.noChain] at hc
    omega
  same := h.same

/-- An operation that is no stage of a chain is started, and no write. -/
theorem Stopped.launch (h : s.Stopped events) {operation : Operation}
    (hchain : operation.isChain = false) : (s.launch operation).Stopped events where
  disconnected := h.disconnected
  noReconnect := h.noReconnect
  noChain := by rw [chains_launch, h.noChain, hchain]; rfl
  same := h.same

theorem Stopped.not_chain (h : s.Stopped events) {operation : Operation}
    (mem : operation ∈ s.operations) : operation.isChain = false := by
  have hnone := h.noChain
  rw [chains, List.countP_eq_zero] at hnone
  simpa using hnone operation mem

theorem Stopped.delivered (h : s.Stopped events) (connection : ℕ) (calls : List Call) (kept : σ) :
    (s.delivered connection calls kept).Stopped events := by
  apply delivered_induction _ _ _ _ (Stopped events)
  · exact ⟨h.disconnected, h.noReconnect, h.noChain, by
      simpa [started, List.filter_append] using h.same⟩
  · intro u hu
    exact hu.performAll calls
  · intro u hu
    apply Stopped.launch _ rfl
    exact ⟨hu.disconnected, hu.noReconnect, hu.noChain, hu.same⟩

/-- `do_write` looks at the flag. -/
theorem Stopped.wrote (h : s.Stopped events) (text : Bytes) : (s.wrote text).Stopped events := by
  have hpopped : ({ s with writeQueue := s.writeQueue.tail }.record
      (.popped text s.writeQueue.head?)).Stopped events :=
    ⟨h.disconnected, h.noReconnect, h.noChain, by simpa [started, List.filter_append] using h.same⟩
  unfold WebSocketSession.wrote
  dsimp only
  split
  · rcases doWrite_cases _ with ⟨hnone, -⟩ | ⟨front, rest, -, hconnected, -⟩
    · rw [hnone]
      exact hpopped
    · rw [hpopped.disconnected] at hconnected
      cases hconnected
  · exact hpopped

/-- Nothing but a `start` leaves the stopped states without a chain. -/
theorem Stopped.step (h : s.Stopped events) (ha : a ≠ .start)
    (hstep : step cfg handler s a = some t) : t.Stopped events := by
  cases transition_of_step hstep with
  | started => exact absurd rfl ha
  | called =>
    apply Stopped.performAll
    exact ⟨h.disconnected, h.noReconnect, h.noChain, h.same⟩
  | woken =>
    rw [wake_of_stopped h.noReconnect]
    exact ⟨h.disconnected, h.noReconnect, h.noChain, h.same⟩
  | @failed _ outcome _ mem =>
    have hfinish := h.finish mem outcome
    rw [fail_eq]
    exact ⟨rfl, hfinish.noReconnect, hfinish.noChain, hfinish.same⟩
  | resolved _ mem | connected _ mem | secured _ mem | opened _ mem =>
    have hchain := h.not_chain mem
    simp [Operation.isChain] at hchain
  | delivered _ mem => exact (h.finish mem _).delivered _ _ _
  | wrote _ mem => exact (h.finish mem _).wrote _
  | pinged _ _ _ connected =>
    rw [h.disconnected] at connected
    cases connected
  | timerDropped _ mem | closed _ mem => exact h.finish mem _
  | armed _ mem => exact (h.finish mem _).launch rfl

/-! ## With a chain -/

/-- A completion that succeeds can happen. -/
theorem step_complete (awake : s.sleeping = false) {operation : Operation}
    (mem : operation ∈ s.operations) (outcome : Outcome) :
    step cfg handler s (.complete operation outcome)
      = some ((s.finish operation outcome).dispatch cfg handler operation outcome) := by
  simp [step, awake, mem]

/-- The stages that are left of a chain, from the one in progress. -/
def Operation.stagesLeft : Operation → ℕ
  | .resolve _ _ => 4
  | .connect => 3
  | .sslHandshake => 2
  | .handshake _ _ => 1
  | .read _ | .write _ _ | .heartbeat | .ping _ | .close => 0

/-- A stage that succeeds is followed by the next one, or the session is connected. -/
theorem next_stage (cfg : WebSocketSessionConfig) (handler : FrameHandler σ)
    (awake : s.sleeping = false) {operation : Operation} (mem : operation ∈ s.operations)
    (hchain : operation.isChain = true) : ∃ t, step cfg handler s (.complete operation {}) = some t ∧
      (t.connected = true ∨ t.sleeping = false ∧ ∃ next ∈ t.operations, next.isChain = true ∧
        next.stagesLeft < operation.stagesLeft) := by
  refine ⟨_, step_complete awake mem {}, ?_⟩
  cases operation with
  | resolve host port => exact Or.inr ⟨awake, .connect, by simp [dispatch, onResolve], rfl,
      Nat.lt_succ_self 3⟩
  | connect =>
    exact Or.inr ⟨awake, .sslHandshake, by simp [dispatch, onConnect], rfl,
      Nat.lt_succ_self 2⟩
  | sslHandshake =>
    exact Or.inr ⟨awake, .handshake _ _, List.mem_append_right _ (List.mem_singleton_self _), rfl,
      Nat.lt_succ_self 1⟩
  | handshake hostPort endpoint => exact Or.inl (opened_connected _ cfg)
  | read | write | heartbeat | ping | close => cases hchain

/-- A pending chain, none of whose stages looks at the flags, may come to its end. -/
theorem exists_connected (cfg : WebSocketSessionConfig) (handler : FrameHandler σ)
    (awake : s.sleeping = false) {operation : Operation}
    (mem : operation ∈ s.operations) (hchain : operation.isChain = true) :
    ∃ bs u, (∀ b ∈ bs, b.Continues) ∧ Runs.run (step cfg handler) s bs = some u ∧
      u.connected = true := by
  induction hleft : operation.stagesLeft using Nat.strong_induction_on generalizing s operation with
  | _ n ih =>
    obtain ⟨t, ht, hconnected | ⟨awake', next, mem', hchain', hlt⟩⟩ :=
      next_stage cfg handler awake mem hchain
    · refine ⟨[.complete operation {}], t, by simp [Action.Continues], ?_, hconnected⟩
      exact Runs.run_cons.mpr ⟨t, ht, rfl⟩
    · rw [hleft] at hlt
      obtain ⟨bs, u, hbs, hu, hconnected⟩ := ih _ hlt awake' mem' hchain' rfl
      refine ⟨.complete operation {} :: bs, u, ?_, Runs.run_cons.mpr ⟨t, ht, hu⟩, hconnected⟩
      intro b hb
      rcases List.mem_cons.mp hb with rfl | hb
      · exact trivial
      · exact hbs b hb

/-- After `stop` the end of a sleep only wakes the session. -/
theorem exists_connected_of_stopped (cfg : WebSocketSessionConfig) (handler : FrameHandler σ)
    (hstopped : s.shouldReconnect = false) (hchains : s.chains ≠ 0) :
    ∃ bs u, (∀ b ∈ bs, b.Continues) ∧ Runs.run (step cfg handler) s bs = some u ∧
      u.connected = true := by
  obtain ⟨operation, mem, hchain⟩ := List.countP_pos_iff.mp (Nat.pos_of_ne_zero hchains)
  cases hsleeping : s.sleeping with
  | false => exact exists_connected cfg handler hsleeping mem hchain
  | true =>
    have hwake : step cfg handler s .wake = some { s with sleeping := false } := by
      rw [step, if_pos hsleeping, wake_of_stopped hstopped]
    obtain ⟨bs, u, hbs, hu, hconnected⟩ :=
      exists_connected (s := { s with sleeping := false }) cfg handler rfl mem hchain
    refine ⟨.wake :: bs, u, ?_, Runs.run_cons.mpr ⟨_, hwake, hu⟩, hconnected⟩
    intro b hb
    rcases List.mem_cons.mp hb with rfl | hb
    · exact trivial
    · exact hbs b hb

/-- In every state, whatever the run to it: `stop` is final if and only if no resolve, connect or
handshake is outstanding when it is called. -/
theorem stop_final_iff (cfg : WebSocketSessionConfig) (handler : FrameHandler σ)
    (s : WebSocketSession σ) (isOpen : Bool) :
    (s.stop isOpen).Final cfg handler ↔ s.chains = 0 := by
  constructor
  · intro hfinal
    by_contra hchains
    rw [← stop_chains s isOpen] at hchains
    obtain ⟨bs, u, hbs, hu, hconnected⟩ :=
      exists_connected_of_stopped cfg handler (stop_shouldReconnect s isOpen) hchains
    rw [(hfinal bs u hbs hu).1] at hconnected
    cases hconnected
  · intro hchains bs u hbs hu
    have hstopped : (s.stop isOpen).Stopped (s.stop isOpen).started :=
      ⟨stop_connected s isOpen, stop_shouldReconnect s isOpen, (stop_chains s isOpen).trans hchains,
        rfl⟩
    have hend : u.Stopped (s.stop isOpen).started := by
      refine Runs.invariant_of_stepsMeet (G := fun _ b => b ≠ .start) _ hstopped ?_ ?_ hu
      · intro v b w hv hb hstep
        exact hv.step hb hstep
      · rintro pre b v hpre - rfl
        exact hbs .start (hpre.subset (List.mem_append_right _ (List.mem_singleton_self _)))
    exact ⟨hend.disconnected, hend.same⟩

/-! ## A stop while resolving -/

/-- The chain goes on after the `stop` and connects. -/
theorem stop_while_resolving : ∃ t, Run exampleConfig ignoreFrames () [.start, .stop false] t ∧
    ¬ t.Final exampleConfig ignoreFrames := by
  have hrun : (Runs.run (step exampleConfig ignoreFrames) { handlerState := () }
      ([.start, .stop false] ++ chain)).map connected = some true := by decide +kernel
  obtain ⟨u, hu, hconnected⟩ := Option.map_eq_some_iff.mp hrun
  obtain ⟨t, ht, hchain⟩ := Runs.run_append.mp hu
  refine ⟨t, ht, fun hfinal => ?_⟩
  have hnot := (hfinal chain u (by simp [chain, Action.Continues]) hchain).1
  rw [hnot] at hconnected
  cases hconnected

end WebSocketSession

end MacdTradingBot
