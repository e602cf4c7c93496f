import MacdTradingBot.Rest.Sending

/-!
# The deadline of a reused connection

`connect` sets the expiry of the stream and never clears it, so it goes on counting while the connection
is idle. `deadlineOpen_iff` says for every run when a request still finds it in the future: it counts from
the last time that `process_queue` began a TCP connect or a TLS handshake.
-/

namespace MacdTradingBot

/-! ## The clock of a run -/

/-- The time that passes. -/
def Action.duration {Response : Type} : Action Response → ℕ
  | .tick d => d
  | .request _ | .connect _ _ | .asyncWait | .resume _ | .complete _ | .completeConnect _ _ => 0

/-- The time that passes over a list of actions. -/
def elapsed {Response : Type} (as : List (Action Response)) : ℕ := (as.map Action.duration).sum

/-- Time adds up. -/
theorem elapsed_concat {Response : Type} (as : List (Action Response)) (a : Action Response) :
    elapsed (as ++ [a]) = elapsed as + a.duration := by
  simp [elapsed]

namespace State

open Connection

variable {Response : Type} [Inhabited Response] {B : BoostUrl} {s t : State Response}
  {a : Action Response}

/-- A step takes its time. -/
theorem now_of_step (hstep : State.step B s a = some t) : t.now = s.now + a.duration := by
  cases transition_of_step hstep <;> simp [Action.duration]

/-- The step begins the TCP connect or the TLS handshake of `process_queue`: resolving has succeeded, or
connecting the TCP stream under the TLS stream has. -/
def Begins (s : State Response) (a : Action Response) : Prop :=
  ∃ frame completion, s.processQueue = .connecting frame ∧ a = .complete completion ∧
    completion.ec = none ∧ (frame.point = .resolving ∨ ∃ id, frame.point = .tcpConnecting true id)

/-- A TCP connect was begun at some time. -/
def HasBegun (s : State Response) : Prop :=
  s.conn.lastConnected ≠ none ∨ ∃ frame, s.processQueue = .connecting frame ∧ frame.point ≠ .resolving

omit [Inhabited Response] in
/-- A step that is no step of a `connect` of `process_queue` begins nothing. -/
theorem not_begins (h : (∀ completion, a ≠ .complete completion) ∨
    ∀ frame, s.processQueue ≠ .connecting frame) : ¬ s.Begins a := by
  rintro ⟨frame, completion, pc, rfl, -⟩
  rcases h with hno | hno
  · exact hno completion rfl
  · exact hno frame pc

omit [Inhabited Response] in
/-- What has begun stays begun. -/
theorem HasBegun.of_eq (h : t.HasBegun) (hlast : t.conn.lastConnected = s.conn.lastConnected)
    (hpc : ∀ frame, t.processQueue = .connecting frame → frame.point ≠ .resolving →
      s.processQueue = .connecting frame) : s.HasBegun := by
  rcases h with hconnected | ⟨frame, pc, point⟩
  · rw [hlast] at hconnected
    exact Or.inl hconnected
  · exact Or.inr ⟨frame, hpc frame pc point, point⟩

omit [Inhabited Response] in
/-- A handler does not connect. -/
theorem not_connecting_invokeHandler (task : Task) (ec : Option ErrorCode) (response : Response)
    (frame : ConnectFrame) : (s.invokeHandler task ec response).processQueue ≠ .connecting frame := by
  unfold invokeHandler
  split
  all_goals exact fun hpc => nomatch hpc

/-- A failure does not connect. -/
theorem not_connecting_fail (task : Task) (ec : ErrorCode) (frame : ConnectFrame) :
    (s.fail task ec).processQueue ≠ .connecting frame := by
  unfold fail
  split
  all_goals exact fun hpc => nomatch hpc

/-- The deadline moves when a connect or a handshake begins, and at no other step. -/
theorem armedAt_of_step (ha : IsNoCall a) (hcalls : s.connects = [])
    (hstep : State.step B s a = some t) :
    (s.Begins a ∧ t.conn.armedAt = s.now ∧ a.duration = 0) ∨
      (¬ s.Begins a ∧ t.conn.armedAt = s.conn.armedAt ∧ (t.HasBegun → s.HasBegun)) := by
  have hquiet : ¬ s.Begins a → t.conn.armedAt = s.conn.armedAt →
      t.conn.lastConnected = s.conn.lastConnected →
      (∀ frame, t.processQueue = .connecting frame → frame.point ≠ .resolving →
        s.processQueue = .connecting frame) →
      ¬ s.Begins a ∧ t.conn.armedAt = s.conn.armedAt ∧ (t.HasBegun → s.HasBegun) :=
    fun hno harmed hlast hpc => ⟨hno, harmed, fun h => h.of_eq hlast hpc⟩
  cases transition_of_step hstep with
  | tick | requestRefused | requestQueued | handlerSet | handlerLost =>
    exact Or.inr (hquiet (not_begins (Or.inl (by simp))) rfl rfl fun _ hpc _ => hpc)
  | requestSpawned | finished | newConnection | shutdownTls | shutdownTcp | reused | popped =>
    exact Or.inr (hquiet (not_begins (Or.inl (by simp))) rfl rfl fun _ hpc => (nomatch hpc))
  | callReturned => exact absurd rfl (ha _ _)
  | callSuspended => exact absurd rfl (ha _ _)
  | connectSuspended _ _ connects =>
    cases connects
    refine Or.inr (hquiet (not_begins (Or.inl (by simp))) rfl rfl ?_)
    intro frame hpc point
    cases hpc
    exact absurd rfl point
  | connectRefused _ _ connects =>
    refine Or.inr (hquiet (not_begins (Or.inl (by simp))) ?_ ?_ ?_)
    · rw [fail_conn]
      cases connects <;> rfl
    · rw [fail_conn]
      cases connects <;> rfl
    · exact fun frame hpc => absurd hpc (not_connecting_fail _ _ frame)
  | shutdownReturned _ pc | shutdownThrew _ pc | written _ pc =>
    exact Or.inr (hquiet (not_begins (Or.inr (by simp [pc]))) rfl rfl fun _ hpc => (nomatch hpc))
  | @connectAdvanced frame _ completion _ _ _ _ pc _ resumes =>
    refine Or.inl ?_
    cases resumes with
    | resolvedTls outcome point | resolvedTcp outcome point =>
      exact ⟨⟨frame, completion, pc, rfl, outcome, Or.inl point⟩, rfl, rfl⟩
    | connectedTls outcome point =>
      exact ⟨⟨frame, completion, pc, rfl, outcome, Or.inr ⟨_, point⟩⟩, rfl, rfl⟩
  | @connectSucceeded frame completion _ _ _ _ pc _ resumes =>
    -- what `connect` waited for was begun before
    have hpoint : frame.point ≠ .resolving ∧ ∀ id, frame.point ≠ .tcpConnecting true id := by
      cases resumes with
      | connectedTcp _ point => simp [point]
      | handshaken _ point => simp [point]
    refine Or.inr ⟨?_, ?_, fun _ => Or.inr ⟨frame, pc, hpoint.1⟩⟩
    · rintro ⟨frame', -, pc', -, -, hresolving | ⟨id, htls⟩⟩
      · rw [pc, ProcessQueue.connecting.injEq] at pc'
        subst pc'
        exact hpoint.1 hresolving
      · rw [pc, ProcessQueue.connecting.injEq] at pc'
        subst pc'
        exact hpoint.2 id htls
    · cases resumes <;> rfl
  | @connectFailed frame completion _ _ ec _ _ pc _ resumes =>
    have hno : ¬ s.Begins (.complete completion) := by
      rintro ⟨-, completion', -, hcomplete, hnone, -⟩
      cases hcomplete
      cases resumes with
      | failed outcome =>
        rw [hnone] at outcome
        cases outcome
    refine Or.inr (hquiet hno ?_ ?_ fun frame' hpc => absurd hpc (not_connecting_fail _ _ frame'))
    · rw [fail_conn]
      cases resumes
      rfl
    · rw [fail_conn]
      cases resumes
      rfl
  | writeFailed _ pc | readFailed _ pc =>
    refine Or.inr (hquiet (not_begins (Or.inr (by simp [pc]))) (by simp) ?_ ?_)
    · rw [invokeHandler_conn, ioFailed_lastConnected]
    · exact fun frame hpc => absurd hpc (not_connecting_invokeHandler _ _ _ frame)
  | answered _ pc =>
    refine Or.inr (hquiet (not_begins (Or.inr (by simp [pc]))) (by simp) (by simp) ?_)
    exact fun frame hpc => absurd hpc (not_connecting_invokeHandler _ _ _ frame)
  | callAdvanced _ call | callDone _ call =>
    rw [hcalls] at call
    cases call

/-! ## The last time that something was begun -/

/-- The action `arm` begins a TCP connect or a TLS handshake, and no action of `since` begins another. -/
structure LastBegun (B : BoostUrl) (before : List (Action Response)) (arm : Action Response)
    (since : List (Action Response)) : Prop where
  begins : ∀ u, Run B before u → u.Begins arm
  last : ∀ pre b u, pre ++ [b] <+: since → Run B (before ++ arm :: pre) u → ¬ u.Begins b

/-- A step that begins nothing leaves the last beginning as it is. -/
theorem LastBegun.concat {before since : List (Action Response)} {arm : Action Response}
    (h : LastBegun B before arm since) (hrun : Run B (before ++ arm :: since) s)
    (ha : ¬ s.Begins a) : LastBegun B before arm (since ++ [a]) := by
  refine ⟨h.begins, fun pre b u hpre hu => ?_⟩
  rcases List.prefix_concat_iff.mp hpre with heq | hpre
  · obtain ⟨rfl, hb⟩ := List.append_inj' heq rfl
    obtain rfl : b = a := by simpa using hb
    obtain rfl : s = u := Runs.run_unique hrun hu
    exact ha
  · exact h.last pre b u hpre hu

/-- The deadline counts from the last time that something was begun. -/
theorem exists_lastBegun (hB : B.Lawful) {as : List (Action Response)} (ha : ∀ a ∈ as, IsNoCall a)
    (h : Run B as s) (hs : s.HasBegun) :
    ∃ before arm since, as = before ++ arm :: since ∧ LastBegun B before arm since ∧
      s.now = s.conn.armedAt + elapsed since := by
  induction as using List.reverseRecOn generalizing s with
  | nil =>
    obtain rfl : ({} : State Response) = s := Option.some.inj h
    rcases hs with hconnected | ⟨frame, pc, -⟩
    · exact absurd rfl hconnected
    · cases pc
  | append_singleton as a ih =>
    obtain ⟨u, hu, hstep⟩ := Runs.run_concat.mp h
    have ha' : ∀ b ∈ as, IsNoCall b := fun b hb => ha b (List.mem_append_left _ hb)
    obtain ⟨-, -, hlinked⟩ := linked_of_run hB ha' hu
    have hnow := now_of_step hstep
    rcases armedAt_of_step (ha a (by simp)) hlinked.noCalls hstep with
      ⟨hbegins, harmed, hzero⟩ | ⟨hno, harmed, hbefore⟩
    · refine ⟨as, a, [], rfl, ⟨fun v hv => ?_, fun pre b v hpre => ?_⟩, ?_⟩
      · obtain rfl : u = v := Runs.run_unique hu hv
        exact hbegins
      · simp at hpre
      · rw [hnow, harmed, hzero]
        rfl
    · obtain ⟨before, arm, since, rfl, hlast, helapsed⟩ := ih ha' hu (hbefore hs)
      refine ⟨before, arm, since ++ [a], by simp, hlast.concat hu hno, ?_⟩
      rw [hnow, harmed, helapsed, elapsed_concat, Nat.add_assoc]

/-! ## The deadline of a request -/

omit [Inhabited Response] in
/-- The expiry of the selected stream is disabled or in the future. -/
def DeadlineOpen (conn : Connection) (now : ℕ) : Prop :=
  ∀ expiry, (conn.stream conn.isTls).expiry = some expiry → now < expiry

omit [Inhabited Response] in
/-- The expiry of a connected stream is thirty seconds after the last `expires_after`. -/
theorem deadlineOpen_iff_armedAt {conn : Connection} {url : Url} (h : Link B conn url) {now : ℕ} :
    DeadlineOpen conn now ↔ now < conn.armedAt + Stream.thirtySeconds := by
  have harmed := h.armed
  unfold Armed at harmed
  constructor
  · intro hopen
    exact hopen _ harmed
  · intro hlt expiry hexpiry
    rw [harmed, Option.some.injEq] at hexpiry
    rw [← hexpiry]
    exact hlt

/-- Where a run has sent a task. -/
theorem exists_prefix_of_sent {as : List (Action Response)} (h : Run B as s) {task : Task}
    {conn : Connection} {now : ℕ} (hsent : .sent task conn now ∈ s.log) :
    ∃ pre t, pre <+: as ∧ Run B pre t ∧ .sent task conn now ∈ t.log ∧ conn = t.conn ∧ now = t.now ∧
      (∃ tls expired, t.processQueue = .writing tls expired) ∧ ∃ rest, t.tasks = task :: rest := by
  obtain ⟨pre, a, u, t, hpre, hu, hstep, hno, ht⟩ :=
    Runs.exists_step_of_run (fun u => .sent task conn now ∈ u.log) (by simp) h hsent
  exact ⟨pre ++ [a], t, hpre, Runs.run_concat.mpr ⟨u, hu, hstep⟩, ht,
    (sent_of_step hstep ht).resolve_left hno⟩

/-- In every run of requests, each `send` comes after a last time that a TCP connect or a TLS handshake
was begun, and finds the deadline open exactly if less than thirty seconds pass in between. -/
theorem deadlineOpen_iff (hB : B.Lawful) {as : List (Action Response)} (ha : ∀ a ∈ as, IsNoCall a)
    (h : Run B as s) {task : Task} {conn : Connection} {now : ℕ}
    (hsent : .sent task conn now ∈ s.log) :
    ∃ before arm since t, before ++ arm :: since <+: as ∧ Run B (before ++ arm :: since) t ∧
      (∃ tls expired, t.processQueue = .writing tls expired) ∧ (∃ rest, t.tasks = task :: rest) ∧
        t.conn = conn ∧ t.now = now ∧ LastBegun B before arm since ∧
          (DeadlineOpen conn now ↔ elapsed since < Stream.thirtySeconds) := by
  obtain ⟨pre, t, hpre, ht, hsent', rfl, rfl, hwriting, htasks⟩ := exists_prefix_of_sent h hsent
  have ha' : ∀ b ∈ pre, IsNoCall b := fun b hb => ha b (hpre.subset hb)
  obtain ⟨-, -, hlinked⟩ := linked_of_run hB ha' ht
  obtain ⟨url, hlink, -⟩ := hlinked.sent task t.conn t.now hsent'
  have hbegun : t.HasBegun := Or.inl (by simp [hlink.last])
  obtain ⟨before, arm, since, rfl, hlast, hnow⟩ := exists_lastBegun hB ha' ht hbegun
  refine ⟨before, arm, since, t, hpre, ht, hwriting, htasks, rfl, rfl, hlast, ?_⟩
  rw [deadlineOpen_iff_armedAt hlink, hnow]
  omega

/-- Thirty seconds after the first request to the https host, a second one on the kept-alive
connection. -/
def idleRequest : List (Action Unit) :=
  firstRequest ++ [.tick Stream.thirtySeconds, .request "https://broker/orders", .resume true,
    .asyncWait, .complete (fails .timeout)]

/-- The second request is handed to a stream whose deadline has passed, and fails with a timeout. -/
theorem idle_connection_is_dead :
    ∃ t task conn now, Run exampleUrls idleRequest t ∧ .sent task conn now ∈ t.log ∧
      ¬ DeadlineOpen conn now ∧ .completed task.id (some .timeout) () ∈ t.log := by
  obtain ⟨t, task, conn, now, ht, hmem, hlate⟩ :=
    exists_sent exampleUrls idleRequest
      (fun t task conn now => (conn.stream conn.isTls).expired now &&
        t.log.any (· = .completed task.id (some .timeout) ())) (by decide +kernel)
  rw [Bool.and_eq_true, List.any_eq_true] at hlate
  obtain ⟨hexpired, e, he, heq⟩ := hlate
  refine ⟨t, task, conn, now, ht, hmem, fun hopen => ?_, ?_⟩
  · unfold Stream.expired at hexpired
    split at hexpired
    · cases hexpired
    · rename_i expiry hexpiry
      have hle : expiry ≤ now := of_decide_eq_true hexpired
      have hlt := hopen expiry hexpiry
      omega
  · rw [← of_decide_eq_true heq]
    exact he

theorem firstRequest_noCall : ∀ a ∈ firstRequest, IsNoCall a := by
  intro a hmem url sni hcall
  subst hcall
  simp [firstRequest] at hmem

/-- No time passes in `firstRequest`, so the request finds the deadline open. -/
theorem deadlineOpen_firstRequest :
    ∃ t task conn now, Run exampleUrls firstRequest t ∧ .sent task conn now ∈ t.log ∧
      DeadlineOpen conn now := by
  obtain ⟨t, task, conn, now, ht, hmem, -⟩ :=
    exists_sent exampleUrls firstRequest (fun _ _ _ _ => true) (by decide +kernel)
  obtain ⟨before, arm, since, -, hpre, -, -, -, -, -, -, hiff⟩ :=
    deadlineOpen_iff exampleUrls_lawful firstRequest_noCall ht hmem
  refine ⟨t, task, conn, now, ht, hmem, hiff.mpr ?_⟩
  have hzero : ∀ d ∈ since.map Action.duration, d = 0 := by
    intro d hd
    obtain ⟨a, ha, rfl⟩ := List.mem_map.mp hd
    have hquiet : ∀ a ∈ firstRequest, a.duration = 0 := by decide
    exact hquiet a (hpre.subset (by simp [ha]))
  rw [elapsed, List.sum_eq_zero_iff_forall_eq_nat.mpr hzero]
  decide

end State

end MacdTradingBot
