import MacdTradingBot.Rest.Expired

/-!
# A client of one origin

Runs whose requests all go to one origin, as those of a trade client do. Such a client connects for its
first request, and never again after that: `process_queue` finds it connected to the origin of the next
task, and asks neither whether an exchange has failed nor whether the deadline of the stream has passed.
-/

namespace MacdTradingBot

/-- `encoded_origin` is made of scheme and authority. -/
def BoostUrl.IgnoresTarget (B : BoostUrl) : Prop :=
  ∀ url : Url, B.encodedOrigin url.origin = B.encodedOrigin url

/-- URLs of one origin have one encoded origin. -/
theorem BoostUrl.IgnoresTarget.congr {B : BoostUrl} (h : B.IgnoresTarget) {u v : Url}
    (horigin : u.origin = v.origin) : B.encodedOrigin u = B.encodedOrigin v := by
  rw [← h u, horigin, h v]

namespace State

open Connection

variable {Response : Type}

/-- The action is no call of `connect` from outside, and no request to another origin. -/
def ForOrigin (B : BoostUrl) (origin : Url) (a : Action Response) : Prop :=
  IsNoCall a ∧ ∀ url endpoint, a = .request url → B.makeHttpHttpsUrl url = .ok endpoint →
    endpoint.origin = origin

/-- `process_queue` neither shuts a connection down nor opens one. -/
def Steady : ProcessQueue → Prop
  | .idle | .loopTop | .writing _ _ | .reading _ _ | .popping _ => True
  | .shuttingDown | .connectNext | .connecting _ => False

/-- All that the client knows is one origin. -/
structure OneOrigin (origin : Url) (s : State Response) : Prop where
  tasks : ∀ task ∈ s.tasks, task.endpoint.origin = origin
  current : s.conn.connectionState = .connected → s.conn.currentOrigin = some origin
  frame : ∀ frame, s.processQueue = .connecting frame → frame.url = origin
  noShutdown : s.processQueue ≠ .shuttingDown
  next : s.processQueue = .connectNext → s.conn.connectionState ≠ .connected

/-- A new client has no origin. -/
theorem oneOrigin_init {origin : Url} : OneOrigin origin ({} : State Response) :=
  ⟨by simp, by simp, by simp, by simp, by simp⟩

variable {B : BoostUrl} {origin : Url} {s t : State Response} {a : Action Response}

/-- While no connection changes, the current origin and those of the tasks matter. -/
theorem OneOrigin.of_steady (hpc : Steady t.processQueue)
    (htasks : ∀ task ∈ t.tasks, task.endpoint.origin = origin)
    (hcurrent : t.conn.connectionState = .connected → t.conn.currentOrigin = some origin) :
    t.OneOrigin origin := by
  refine ⟨htasks, hcurrent, ?_, ?_, ?_⟩
  · intro frame pc
    rw [pc] at hpc
    exact hpc.elim
  all_goals
    intro pc
    rw [pc] at hpc
    exact hpc.elim

/-- Neither `process_queue` nor the connection has changed. -/
theorem OneOrigin.of_eq (h : s.OneOrigin origin) (hpc : t.processQueue = s.processQueue)
    (hconn : t.conn = s.conn) (htasks : ∀ task ∈ t.tasks, task.endpoint.origin = origin) :
    t.OneOrigin origin := by
  refine ⟨htasks, ?_, ?_, ?_, ?_⟩
  · rw [hconn]
    exact h.current
  · rw [hpc]
    exact h.frame
  · rw [hpc]
    exact h.noShutdown
  · rw [hpc, hconn]
    exact h.next

/-- After a handler no connection changes. -/
theorem steady_invokeHandler (task : Task) (ec : Option ErrorCode) (response : Response) :
    Steady (s.invokeHandler task ec response).processQueue := by
  unfold invokeHandler
  split <;> trivial

variable [Inhabited Response]

/-- After a failure no connection changes. -/
theorem steady_fail (task : Task) (ec : ErrorCode) : Steady (s.fail task ec).processQueue := by
  unfold fail
  split <;> trivial

omit [Inhabited Response] in
/-- A connected client is connected to where the next task goes. -/
theorem OneOrigin.sameOrigin (h : s.OneOrigin origin) (hT : B.IgnoresTarget) {task : Task}
    {rest : List Task} (tasks : s.tasks = task :: rest) (state : s.conn.connectionState = .connected) :
    B.originText s.conn.currentOrigin = B.encodedOrigin task.endpoint := by
  have htask := h.tasks task (by rw [tasks]; exact List.mem_cons_self)
  have horigin : origin.origin = task.endpoint.origin := by
    rw [← htask]
    rfl
  rw [h.current state]
  exact hT.congr horigin

omit [Inhabited Response] in
/-- A new task has the origin. -/
theorem OneOrigin.enqueue (h : s.OneOrigin origin) {url : String} {endpoint : Url}
    (ha : ForOrigin B origin (.request url : Action Response))
    (valid : B.makeHttpHttpsUrl url = .ok endpoint) (id : ℕ) (hasHandler : Bool) :
    ∀ task ∈ s.tasks ++ [⟨id, endpoint, hasHandler⟩], task.endpoint.origin = origin := by
  intro task hmem
  rcases List.mem_append.mp hmem with hmem | hmem
  · exact h.tasks task hmem
  · rw [List.mem_singleton.mp hmem]
    exact ha.2 url endpoint rfl valid

/-- Every step of such a run keeps to the one origin. -/
theorem OneOrigin.step (h : s.OneOrigin origin) (hB : B.Lawful) (hT : B.IgnoresTarget)
    (hnormal : s.Normalized B) (hcalls : s.connects = []) (ha : ForOrigin B origin a)
    (hstep : State.step B s a = some t) : t.OneOrigin origin := by
  cases transition_of_step hstep with
  | tick | requestRefused | handlerLost => exact h.of_eq rfl rfl h.tasks
  | requestQueued _ valid => exact h.of_eq rfl rfl (h.enqueue ha valid _ _)
  | requestSpawned _ valid => exact .of_steady trivial (h.enqueue ha valid _ _) h.current
  | callReturned => exact absurd rfl (ha.1 _ _)
  | callSuspended => exact absurd rfl (ha.1 _ _)
  | handlerSet =>
    refine h.of_eq rfl rfl fun task hmem => ?_
    obtain ⟨task', hmem', rfl⟩ := List.mem_map.mp hmem
    have htask := h.tasks task' hmem'
    split <;> exact htask
  | finished => exact .of_steady trivial h.tasks h.current
  | newConnection _ _ state => exact ⟨h.tasks, h.current, by simp, by simp, fun _ => state⟩
  | shutdownTls _ tasks state different => exact absurd (h.sameOrigin hT tasks state) different
  | shutdownTcp _ tasks state different => exact absurd (h.sameOrigin hT tasks state) different
  | reused => exact .of_steady trivial h.tasks h.current
  | @connectSuspended _ task rest frame conn _ tasks connects =>
    obtain ⟨hpending, hurl⟩ := Pending.of_connects connects
    rw [BoostUrl.makeHttpHttpsUrl_encodedOrigin hB (hnormal.head tasks), Except.ok.injEq] at hurl
    refine ⟨h.tasks, ?_, ?_, by simp, by simp⟩
    · intro state
      rw [hpending.state] at state
      cases state
    · intro frame' pc
      cases pc
      rw [← hurl]
      exact h.tasks task (by rw [tasks]; exact List.mem_cons_self)
  | connectRefused _ _ connects =>
    refine .of_steady (steady_fail _ _) (by simpa using h.tasks) ?_
    rw [fail_conn]
    rcases connects.state_of_returned with rfl | ⟨-, hstate⟩
    · exact h.current
    · simp [hstate]
  | popped _ tasks =>
    refine .of_steady trivial (fun task hmem => h.tasks task ?_) h.current
    rw [tasks]
    exact List.mem_cons_of_mem _ hmem
  | shutdownReturned _ pc | shutdownThrew _ pc => exact absurd pc h.noShutdown
  | connectAdvanced _ pc _ resumes =>
    have hframe := h.frame _ pc
    refine ⟨h.tasks, ?_, ?_, by simp, by simp⟩
    · cases resumes <;> exact h.current
    · intro frame' pc'
      cases pc'
      cases resumes <;> exact hframe
  | connectSucceeded _ pc _ resumes =>
    have hframe := h.frame _ pc
    refine .of_steady trivial h.tasks fun _ => ?_
    cases resumes <;> exact congrArg some hframe
  | connectFailed _ _ _ resumes =>
    refine .of_steady (steady_fail _ _) (by simpa using h.tasks) ?_
    rw [fail_conn, resumes.state_of_returned]
    simp
  | written => exact .of_steady trivial h.tasks h.current
  | writeFailed | readFailed =>
    refine .of_steady (steady_invokeHandler _ _ _) (by simpa using h.tasks) ?_
    simpa using h.current
  | answered =>
    refine .of_steady (steady_invokeHandler _ _ _) (by simpa using h.tasks) ?_
    simpa using h.current
  | callAdvanced _ call | callDone _ call =>
    rw [hcalls] at call
    cases call

/-! ## One connection -/

/-- `c'` is the connection that `c` was: the same stream, with the same peer and the same deadline. A write
or a read may have failed on it since. -/
structure Keeps (c c' : Connection) : Prop where
  state : c'.connectionState = c.connectionState
  tls : c'.isTls = c.isTls
  stream : ∃ ioError, c'.stream c'.isTls = { c.stream c.isTls with ioError := ioError } ∧
    ((c.stream c.isTls).ioError = true → ioError = true)
  armedAt : c'.armedAt = c.armedAt

omit [Inhabited Response] in
theorem Keeps.refl (c : Connection) : Keeps c c := ⟨rfl, rfl, ⟨_, rfl, id⟩, rfl⟩

/-- What is kept twice is kept. -/
theorem Keeps.trans {c₁ c₂ c₃ : Connection} (h : Keeps c₁ c₂) (h' : Keeps c₂ c₃) : Keeps c₁ c₃ := by
  obtain ⟨ioError, hstream, hio⟩ := h.stream
  obtain ⟨ioError', hstream', hio'⟩ := h'.stream
  refine ⟨h'.state.trans h.state, h'.tls.trans h.tls, ⟨ioError', ?_, ?_⟩, h'.armedAt.trans h.armedAt⟩
  · rw [hstream', hstream]
  · rw [hstream] at hio'
    exact fun hbroken => hio' (hio hbroken)

/-- The stream is kept. -/
theorem Keeps.id {c c' : Connection} (h : Keeps c c') :
    (c'.stream c'.isTls).id = (c.stream c.isTls).id := by
  obtain ⟨ioError, hstream, -⟩ := h.stream
  rw [hstream]

/-- A failed exchange keeps the connection. -/
theorem keeps_ioFailed (tls : Bool) (leftover : ℕ) (c : Connection) :
    Keeps c (c.ioFailed tls leftover) := by
  refine ⟨by simp, by simp, ?_, by simp⟩
  rw [stream_ioFailed, ioFailed_isTls]
  split
  · exact ⟨true, rfl, fun _ => rfl⟩
  · exact ⟨_, rfl, id⟩

/-- The client is connected, and goes on with this connection. -/
structure InUse (s : State Response) : Prop where
  state : s.conn.connectionState = .connected
  steady : Steady s.processQueue

/-- A client that is connected to the one origin stays so, whatever happens. -/
theorem InUse.step (h : s.InUse) (hone : s.OneOrigin origin) (hT : B.IgnoresTarget)
    (hcalls : s.connects = []) (ha : IsNoCall a) (hstep : State.step B s a = some t) :
    t.InUse ∧ Keeps s.conn t.conn := by
  have hsteady := h.steady
  cases transition_of_step hstep with
  | tick | requestRefused | requestQueued | handlerSet | handlerLost => exact ⟨⟨h.state, h.steady⟩, .refl _⟩
  | requestSpawned | finished | reused | popped | written => exact ⟨⟨h.state, trivial⟩, .refl _⟩
  | callReturned => exact absurd rfl (ha _ _)
  | callSuspended => exact absurd rfl (ha _ _)
  | newConnection _ _ state => exact absurd h.state state
  | shutdownTls _ tasks state different => exact absurd (hone.sameOrigin hT tasks state) different
  | shutdownTcp _ tasks state different => exact absurd (hone.sameOrigin hT tasks state) different
  | connectSuspended pc | connectRefused pc | shutdownReturned _ pc | shutdownThrew _ pc
  | connectAdvanced _ pc | connectSucceeded _ pc | connectFailed _ pc =>
    rw [pc] at hsteady
    exact hsteady.elim
  | writeFailed | readFailed =>
    refine ⟨⟨?_, steady_invokeHandler _ _ _⟩, ?_⟩
    · rw [invokeHandler_conn, ioFailed_connectionState]
      exact h.state
    · rw [invokeHandler_conn]
      exact keeps_ioFailed _ _ _
  | answered =>
    refine ⟨⟨?_, steady_invokeHandler _ _ _⟩, ?_⟩
    · rw [invokeHandler_conn]
      exact h.state
    · rw [invokeHandler_conn]
      exact ⟨rfl, rfl, ⟨_, rfl, id⟩, rfl⟩
  | callAdvanced _ call | callDone _ call =>
    rw [hcalls] at call
    cases call

/-- What holds in a run of requests to one origin. -/
structure Dedicated (B : BoostUrl) (origin : Url) (s : State Response) : Prop where
  served : s.Served
  normal : s.Normalized B
  linked : s.Linked B
  one : s.OneOrigin origin

/-- Every request for the origin keeps the client dedicated. -/
theorem Dedicated.step (h : s.Dedicated B origin) (hB : B.Lawful) (hT : B.IgnoresTarget)
    (ha : ForOrigin B origin a) (hstep : State.step B s a = some t) : t.Dedicated B origin where
  served := h.served.step hstep
  normal := h.normal.step hstep
  linked := h.linked.step hB h.served h.normal ha.1 hstep
  one := h.one.step hB hT h.normal h.linked.noCalls ha hstep

omit [Inhabited Response] in
/-- A new client may be dedicated to any origin. -/
theorem dedicated_init : Dedicated B origin ({} : State Response) :=
  ⟨served_init, by simp [Normalized], linked_init, oneOrigin_init⟩

/-- In a run of requests to one origin the client is dedicated to it. -/
theorem dedicated_of_run (hB : B.Lawful) (hT : B.IgnoresTarget) {as : List (Action Response)}
    (ha : ∀ a ∈ as, ForOrigin B origin a) (h : Run B as s) : s.Dedicated B origin :=
  Runs.invariant_of_stepsMeet (G := fun _ a => ForOrigin B origin a) (Dedicated B origin) dedicated_init
    (fun _ _ _ hu hG hstep => hu.step hB hT hG hstep)
    (fun pre a _ hpre _ => ha a (hpre.subset (by simp))) h

/-- From a state in which the connection is in use, every run of requests to the one origin keeps it. -/
theorem InUse.run (h : s.InUse) (hs : s.Dedicated B origin) (hB : B.Lawful) (hT : B.IgnoresTarget)
    {as : List (Action Response)} (ha : ∀ a ∈ as, ForOrigin B origin a)
    (hrun : Runs.run (State.step B) s as = some t) : t.InUse ∧ Keeps s.conn t.conn := by
  have hkept : t.Dedicated B origin ∧ t.InUse ∧ Keeps s.conn t.conn := by
    refine Runs.invariant_of_stepsMeet (G := fun _ a => ForOrigin B origin a)
      (fun u => u.Dedicated B origin ∧ u.InUse ∧ Keeps s.conn u.conn) ⟨hs, h, .refl _⟩ ?_
      (fun pre a _ hpre _ => ha a (hpre.subset (by simp))) hrun
    rintro u a v ⟨hu, hinUse, hkeeps⟩ hG hstep
    obtain ⟨hinUse', hkeeps'⟩ := hinUse.step hu.one hT hu.linked.noCalls hG.1 hstep
    exact ⟨hu.step hB hT hG hstep, hinUse', hkeeps.trans hkeeps'⟩
  exact hkept.2

omit [Inhabited Response] in
/-- During an exchange the connection is in use. -/
theorem Dedicated.inUse (h : s.Dedicated B origin) (hpc : Exchanging s.processQueue) : s.InUse := by
  have hfits := h.linked.fits
  unfold Fits at hfits
  cases pc : s.processQueue with
  | writing | reading =>
    rw [pc] at hfits
    obtain ⟨-, url, hlink⟩ := hfits
    exact ⟨hlink.state, by rw [pc]; trivial⟩
  | idle | loopTop | shuttingDown | connectNext | connecting _ | popping _ =>
    rw [pc] at hpc
    exact hpc.elim

/-- What a run sends after the connection has come into use is sent on it. -/
theorem InUse.sent (h : s.InUse) (hs : s.Dedicated B origin) (hB : B.Lawful) (hT : B.IgnoresTarget)
    {as : List (Action Response)} (ha : ∀ a ∈ as, ForOrigin B origin a)
    (hrun : Runs.run (State.step B) s as = some t) {task : Task} {conn : Connection} {now : ℕ}
    (hsent : .sent task conn now ∈ t.log) (hlater : .sent task conn now ∉ s.log) : Keeps s.conn conn := by
  obtain ⟨pre, a, u, v, hpre, hu, hstep, hno, hv⟩ :=
    Runs.exists_step_of_run (fun u => .sent task conn now ∈ u.log) hlater hrun hsent
  obtain ⟨rfl, -⟩ := (sent_of_step hstep hv).resolve_left hno
  exact (h.run hs hB hT (fun b hb => ha b (hpre.subset hb)) (Runs.run_concat.mpr ⟨u, hu, hstep⟩)).2

/-- A run that has sent a task has kept the connection. -/
theorem inUse_of_sent (hB : B.Lawful) (hT : B.IgnoresTarget) {as : List (Action Response)}
    (ha : ∀ a ∈ as, ForOrigin B origin a) (h : Run B as s) {task : Task} {conn : Connection} {now : ℕ}
    (hsent : .sent task conn now ∈ s.log) : s.InUse ∧ Keeps conn s.conn := by
  obtain ⟨pre, u, ⟨post, rfl⟩, hu, -, rfl, -, ⟨tls, expired, pc⟩, -⟩ := exists_prefix_of_sent h hsent
  obtain ⟨u', hu', hpost⟩ := Runs.run_append.mp h
  obtain rfl : u = u' := Runs.run_unique hu hu'
  have hded := dedicated_of_run hB hT (fun b hb => ha b (by simp [hb])) hu
  exact (hded.inUse (by rw [pc]; trivial)).run hded hB hT (fun b hb => ha b (by simp [hb])) hpost

/-- Over every run of requests to one origin, whatever fails: once a task has been sent, the client stays
connected over the stream that it was sent on, with the deadline that the stream had, and sends every task
on this stream. It neither shuts the connection down nor opens another. -/
theorem keeps_connection (hB : B.Lawful) (hT : B.IgnoresTarget) {as : List (Action Response)}
    (ha : ∀ a ∈ as, ForOrigin B origin a) (h : Run B as s) {task : Task} {conn : Connection} {now : ℕ}
    (hsent : .sent task conn now ∈ s.log) :
    s.InUse ∧ Keeps conn s.conn ∧ ∀ task' conn' now', .sent task' conn' now' ∈ s.log →
      (conn'.stream conn'.isTls).id = (conn.stream conn.isTls).id ∧ conn'.armedAt = conn.armedAt := by
  obtain ⟨hinUse, hkeeps⟩ := inUse_of_sent hB hT ha h hsent
  refine ⟨hinUse, hkeeps, fun task' conn' now' hsent' => ?_⟩
  obtain ⟨-, hkeeps'⟩ := inUse_of_sent hB hT ha h hsent'
  exact ⟨hkeeps'.id.symm.trans hkeeps.id, hkeeps'.armedAt.symm.trans hkeeps.armedAt⟩

/-- A failing exchange marks the stream. -/
theorem ioError_of_exchangeFails (hlinked : s.Linked B) (hfails : s.ExchangeFails a)
    (hstep : State.step B s a = some t) :
    (t.conn.stream t.conn.isTls).ioError = true ∧ ¬ Exchanging t.processQueue := by
  obtain ⟨⟨tls, expired, hpc⟩, completion, ec, rfl, outcome⟩ := hfails
  have hfits := hlinked.fits
  unfold Fits at hfits
  have hmarked : ∀ leftover, ((s.conn.ioFailed s.conn.isTls leftover).stream
      (s.conn.ioFailed s.conn.isTls leftover).isTls).ioError = true := by
    intro leftover
    rw [ioFailed_isTls, stream_ioFailed, if_pos rfl]
  cases transition_of_step hstep with
  | shutdownReturned _ pc | shutdownThrew _ pc | connectAdvanced _ pc | connectSucceeded _ pc
  | connectFailed _ pc =>
    rw [pc] at hpc
    rcases hpc with hpc | hpc
    all_goals cases hpc
  | written _ _ _ outcome' | answered _ _ _ outcome' =>
    rw [outcome] at outcome'
    cases outcome'
  | writeFailed _ pc | readFailed _ pc =>
    rw [pc] at hfits
    obtain ⟨rfl, -⟩ := hfits
    refine ⟨?_, not_exchanging_invokeHandler _ _ _⟩
    rw [invokeHandler_conn]
    exact hmarked _

/-- A failed exchange is not recovered from: every task that is sent after it is handed to the stream that it
failed on. -/
theorem never_recovers (hB : B.Lawful) (hT : B.IgnoresTarget) {pre post : List (Action Response)}
    (ha : ∀ b ∈ pre ++ a :: post, ForOrigin B origin b) (hs : Run B pre s) (hfails : s.ExchangeFails a)
    (h : Run B (pre ++ a :: post) t) {task : Task} {conn : Connection} {now : ℕ}
    (hsent : .sent task conn now ∈ t.log) (hlater : .sent task conn now ∉ s.log) :
    Keeps s.conn conn ∧ (conn.stream conn.isTls).ioError = true := by
  obtain ⟨s', hs', hrest⟩ := Runs.run_append.mp h
  obtain rfl : s = s' := Runs.run_unique hs hs'
  obtain ⟨u, hstep, hpost⟩ := Runs.run_cons.mp hrest
  have hded := dedicated_of_run hB hT (fun b hb => ha b (by simp [hb])) hs
  have hexchanging : Exchanging s.processQueue := by
    obtain ⟨⟨tls, expired, pc | pc⟩, -⟩ := hfails
    all_goals
      rw [pc]
      trivial
  obtain ⟨hinUse, hkeeps⟩ := (hded.inUse hexchanging).step hded.one hT hded.linked.noCalls
    (ha a (by simp)).1 hstep
  obtain ⟨hbroken, hpc⟩ := ioError_of_exchangeFails hded.linked hfails hstep
  have hlater' : .sent task conn now ∉ u.log := by
    intro hmem
    obtain ⟨-, -, ⟨tls, expired, pc⟩, -⟩ := (sent_of_step hstep hmem).resolve_left hlater
    rw [pc] at hpc
    exact hpc trivial
  have hkeeps' := hinUse.sent (hded.step hB hT (ha a (by simp)) hstep) hB hT
    (fun b hb => ha b (by simp [hb])) hpost hsent hlater'
  obtain ⟨ioError, hstream, hio⟩ := hkeeps'.stream
  refine ⟨hkeeps.trans hkeeps', ?_⟩
  rw [hstream]
  exact hio hbroken

/-! ## The last thirty seconds -/

/-- In a run of requests to one origin no TLS shutdown can fail, since there is none. -/
theorem admissible_of_forOrigin (hB : B.Lawful) (hT : B.IgnoresTarget) {as : List (Action Response)}
    (ha : ∀ a ∈ as, ForOrigin B origin a ∧ a ≠ .resume false) :
    Runs.StepsMeet (State.step B) Admissible {} as := by
  intro pre a u hpre hu
  have hmem : a ∈ as := hpre.subset (by simp)
  have hded := dedicated_of_run hB hT (fun b hb => (ha b (hpre.subset (by simp [hb]))).1) hu
  refine ⟨(ha a hmem).1.1, (ha a hmem).2, ?_⟩
  rintro ⟨pc, -⟩
  exact hded.one.noShutdown pc

/-- When a task is sent, less than thirty seconds of the deadline can be left. -/
theorem armedAt_le_of_sent (hB : B.Lawful) {as : List (Action Response)} (ha : ∀ a ∈ as, IsNoCall a)
    (h : Run B as s) {task : Task} {conn : Connection} {now : ℕ} (hsent : .sent task conn now ∈ s.log) :
    conn.armedAt ≤ now ∧ conn.Armed := by
  obtain ⟨pre, u, hpre, hu, hmem, rfl, rfl, -⟩ := exists_prefix_of_sent h hsent
  have ha' : ∀ b ∈ pre, IsNoCall b := fun b hb => ha b (hpre.subset hb)
  obtain ⟨-, -, hlinked⟩ := linked_of_run hB ha' hu
  obtain ⟨url, hlink, -⟩ := hlinked.sent _ _ _ hmem
  obtain ⟨-, -, since, -, -, hnow⟩ := exists_lastBegun hB ha' hu (Or.inl (by simp [hlink.last]))
  exact ⟨by omega, hlink.armed⟩

/-- A task that is sent thirty seconds after another was sent gets no answer. -/
theorem unanswered_of_late (hB : B.Lawful) (hT : B.IgnoresTarget) {as : List (Action Response)}
    (ha : ∀ a ∈ as, ForOrigin B origin a ∧ a ≠ .resume false) (h : Run B as s)
    {first task : Task} {conn₀ conn : Connection} {now₀ now : ℕ} (hfirst : .sent first conn₀ now₀ ∈ s.log)
    (hsent : .sent task conn now ∈ s.log) (hlate : now₀ + Stream.thirtySeconds ≤ now) :
    ∀ response, .completed task.id none response ∉ s.log := by
  have hone : ∀ a ∈ as, ForOrigin B origin a := fun a hmem => (ha a hmem).1
  obtain ⟨-, htimely⟩ := timely_of_run hB (admissible_of_forOrigin hB hT ha) h
  obtain ⟨hbefore, -⟩ := armedAt_le_of_sent hB (fun a hmem => (hone a hmem).1) h hfirst
  obtain ⟨-, harmed⟩ := armedAt_le_of_sent hB (fun a hmem => (hone a hmem).1) h hsent
  have hsame : conn.armedAt = conn₀.armedAt := by
    rw [← (inUse_of_sent hB hT hone h hfirst).2.armedAt, (inUse_of_sent hB hT hone h hsent).2.armedAt]
  apply htimely.answered task conn now hsent
  unfold Late Stream.expired
  rw [harmed]
  exact decide_eq_true (by omega)

omit [Inhabited Response] in
/-- When `process_queue` has ended, every task that was sent has got its result. -/
theorem Orderly.exists_completed (h : s.Orderly B) (hdead : ¬ s.Alive) {task : Task} {conn : Connection}
    {now : ℕ} (hsent : .sent task conn now ∈ s.log) :
    ∃ ec response, .completed task.id ec response ∈ s.log := by
  obtain ⟨-, -, hall⟩ := h.ended hdead
  have hid : task.id ∈ completedIds s.log := by
    have hmem : task.id ∈ sentIds s.log := List.mem_filterMap.mpr ⟨_, hsent, rfl⟩
    rcases h.fifo.sent _ hmem with hlt | ⟨hexchanging, -⟩
    · rw [hall, h.fifo.enqueued] at hlt ⊢
      simpa using hlt
    · rw [not_not.mp hdead] at hexchanging
      exact hexchanging.elim
  obtain ⟨e, he, hmatch⟩ := List.mem_filterMap.mp hid
  cases e with
  | completed id ec response =>
    obtain rfl : id = task.id := by simpa using hmatch
    exact ⟨ec, response, he⟩
  | enqueued | sent | failedWithoutHandler | waitOnDestroyed | badFunctionCall | shutdownThrew =>
    cases hmatch

/-- A client of one origin works for thirty seconds: a task that is sent thirty seconds after any other was
sent gets no answer, and when `process_queue` has ended it has got an error. -/
theorem dead_after_thirty_seconds (hB : B.Lawful) (hT : B.IgnoresTarget) {as : List (Action Response)}
    (ha : ∀ a ∈ as, ForOrigin B origin a ∧ a ≠ .resume false) (h : Run B as s)
    {first task : Task} {conn₀ conn : Connection} {now₀ now : ℕ} (hfirst : .sent first conn₀ now₀ ∈ s.log)
    (hsent : .sent task conn now ∈ s.log) (hlate : now₀ + Stream.thirtySeconds ≤ now) :
    (∀ response, .completed task.id none response ∉ s.log) ∧
      (¬ s.Alive → ∃ ec response, .completed task.id (some ec) response ∈ s.log) := by
  have hnone := unanswered_of_late hB hT ha h hfirst hsent hlate
  refine ⟨hnone, fun hdead => ?_⟩
  have horderly := orderly_of_run hB (admissible_of_forOrigin hB hT ha) h
  obtain ⟨ec, response, he⟩ := horderly.exists_completed hdead hsent
  cases ec with
  | none => exact absurd he (hnone response)
  | some ec => exact ⟨ec, response, he⟩

/-! ## Requests to one host -/

/-- The origin does not depend on the target. -/
theorem exampleUrls_ignoresTarget : exampleUrls.IgnoresTarget := fun _ => rfl

def brokerOrigin : Url := { scheme := "https", host := "broker", port := some "443" }

/-- No call of `connect`, a host name that can be set, and no request but for the orders. -/
def toBroker : Action Unit → Bool
  | .connect _ _ => false
  | .request url => url = "https://broker/orders"
  | .resume sni => sni
  | .tick _ | .asyncWait | .complete _ | .completeConnect _ _ => true

/-- The request for the orders goes to the broker. -/
theorem forOrigin_of_toBroker {a : Action Unit} (h : toBroker a = true) :
    ForOrigin exampleUrls brokerOrigin a ∧ a ≠ .resume false := by
  refine ⟨⟨?_, ?_⟩, ?_⟩
  · rintro url sni rfl
    cases h
  · rintro url endpoint rfl hurl
    obtain rfl : url = "https://broker/orders" := of_decide_eq_true h
    have hmake : exampleUrls.makeHttpHttpsUrl "https://broker/orders"
        = .ok { brokerOrigin with target := "/orders" } := by decide
    rw [hmake, Except.ok.injEq] at hurl
    rw [← hurl]
    rfl
  · rintro rfl
    cases h

theorem forall_forOrigin {as : List (Action Unit)} (h : as.all toBroker = true) :
    ∀ a ∈ as, ForOrigin exampleUrls brokerOrigin a ∧ a ≠ .resume false :=
  fun a hmem => forOrigin_of_toBroker (List.all_eq_true.mp h a hmem)

/-- The second request of `idleRequest`, thirty seconds after the first, is sent on the same stream, with the
same deadline. -/
theorem keeps_connection_idleRequest : ∃ t first conn second conn',
    Run exampleUrls idleRequest t ∧ .sent first conn 0 ∈ t.log ∧
      .sent second conn' Stream.thirtySeconds ∈ t.log ∧ t.InUse ∧ Keeps conn t.conn ∧
        (conn'.stream conn'.isTls).id = (conn.stream conn.isTls).id ∧ conn'.armedAt = conn.armedAt := by
  obtain ⟨t, first, conn, now, ht, hfirst, hzero⟩ :=
    exists_sent exampleUrls idleRequest (fun _ _ _ now => now = 0) (by decide +kernel)
  obtain ⟨t', second, conn', now', ht', hsecond, hlate⟩ :=
    exists_sent exampleUrls idleRequest (fun _ _ _ now => now = Stream.thirtySeconds) (by decide +kernel)
  obtain rfl : t = t' := Runs.run_unique ht ht'
  obtain rfl : now = 0 := of_decide_eq_true hzero
  obtain rfl : now' = Stream.thirtySeconds := of_decide_eq_true hlate
  obtain ⟨hinUse, hkeeps, hsame⟩ := keeps_connection exampleUrls_lawful exampleUrls_ignoresTarget
    (fun a ha => (forall_forOrigin (by decide) a ha).1) ht hfirst
  obtain ⟨hid, harmed⟩ := hsame second conn' _ hsecond
  exact ⟨t, first, conn, second, conn', ht, hfirst, hsecond, hinUse, hkeeps, hid, harmed⟩

/-- `brokenRead` up to the read that stops midway, and the rest. The second request goes to the stream that
the first one has broken. -/
theorem never_recovers_brokenRead :
    ∃ s t task conn now, Run exampleUrls (brokenRead.take 8) s ∧ Run exampleUrls brokenRead t ∧
      .sent task conn now ∈ t.log ∧ .sent task conn now ∉ s.log ∧ Keeps s.conn conn ∧
        (conn.stream conn.isTls).ioError = true := by
  have hpre : (Runs.run (State.step exampleUrls) {} (brokenRead.take 8)).map
      (fun s => (s.processQueue, sentIds s.log)) = some (.reading true false, [0]) := by decide +kernel
  obtain ⟨s, hs, heq⟩ := Option.map_eq_some_iff.mp hpre
  obtain ⟨hpc, hids⟩ := Prod.mk.inj heq
  obtain ⟨t, task, conn, now, ht, hmem, hsecond⟩ :=
    exists_sent exampleUrls brokenRead (fun _ task _ _ => task.id = 1) (by decide +kernel)
  have hlater : .sent task conn now ∉ s.log := by
    intro hold
    have hid : task.id ∈ sentIds s.log := List.mem_filterMap.mpr ⟨_, hold, rfl⟩
    rw [hids, of_decide_eq_true hsecond] at hid
    simp at hid
  refine ⟨s, t, task, conn, now, hs, ht, hmem, hlater, ?_⟩
  have hactions : ∀ a ∈ brokenRead, ForOrigin exampleUrls brokerOrigin a :=
    fun a ha => (forall_forOrigin (by decide) a ha).1
  have hsplit : brokenRead = brokenRead.take 8
      ++ .complete { ec := some (.io 104), response := (), leftover := 17 } :: brokenRead.drop 9 := rfl
  rw [hsplit] at hactions ht
  exact never_recovers exampleUrls_lawful exampleUrls_ignoresTarget hactions hs
    ⟨⟨true, false, Or.inr hpc⟩, _, .io 104, rfl, rfl⟩ ht hmem hlater

/-- The second request of `idleRequest`, and the end of `process_queue`. -/
theorem dead_after_thirty_seconds_idleRequest :
    ∃ t task conn now, Run exampleUrls (idleRequest ++ [.resume true, .resume true]) t ∧
      .sent task conn now ∈ t.log ∧ ¬ t.Alive ∧ .completed task.id none () ∉ t.log ∧
        ∃ ec response, .completed task.id (some ec) response ∈ t.log := by
  obtain ⟨t, task, conn, now, ht, hmem, hlate⟩ :=
    exists_sent exampleUrls (idleRequest ++ [.resume true, .resume true])
      (fun t _ _ now => now = Stream.thirtySeconds && t.processQueue = .idle) (by decide +kernel)
  rw [Bool.and_eq_true, decide_eq_true_iff, decide_eq_true_iff] at hlate
  obtain ⟨t', first, conn₀, now₀, ht', hfirst, hzero⟩ :=
    exists_sent exampleUrls (idleRequest ++ [.resume true, .resume true])
      (fun _ _ _ now => now = 0) (by decide +kernel)
  obtain rfl : t = t' := Runs.run_unique ht ht'
  have hdead : ¬ t.Alive := fun halive => halive hlate.2
  obtain ⟨hnone, hended⟩ := dead_after_thirty_seconds exampleUrls_lawful exampleUrls_ignoresTarget
    (forall_forOrigin (by decide)) ht hfirst hmem
      (by rw [of_decide_eq_true hzero, hlate.1, Nat.zero_add])
  exact ⟨t, task, conn, now, ht, hmem, hdead, hnone (), hended hdead⟩

end State

end MacdTradingBot
