import MacdTradingBot.Rest.Handlers

/-!
# What the connection members say when only requests are made

Without calls of `connect` from outside, `process_queue` alone changes the connection. `Link` says that
the members agree with the stream they select, `Pending` what a suspended `connect` has achieved, and
`Fits` which of the two holds at each point of `process_queue`. They are combined only where the code
trusts them: a client whose TLS shutdown has failed trusts nothing any more, and never sends again.
-/

namespace MacdTradingBot

variable {Response : Type}

namespace Connection

/-- The last `expires_after` was on the selected stream, and still counts. -/
def Armed (c : Connection) : Prop :=
  (c.stream c.isTls).expiry = some (c.armedAt + Stream.thirtySeconds)

/-- The selected stream is connected to `_current_origin`, with TLS exactly for an https origin, and is
the one connected last. -/
structure Link (B : BoostUrl) (c : Connection) (url : Url) : Prop where
  state : c.connectionState = .connected
  origin : c.currentOrigin = some url
  normal : B.Normal url
  tls : c.isTls = (url.scheme == "https")
  peer : (c.stream c.isTls).peer = some url
  secured : (c.stream c.isTls).secured = c.isTls
  last : c.lastConnected = some (c.isTls, (c.stream c.isTls).id)
  armed : c.Armed

/-- What holds of the stream that a `connect` is suspended on. -/
def StreamFits (c : Connection) (url : Url) : ConnectPoint → Prop
  | .resolving => True
  | .tcpConnecting tls id =>
    tls = c.isTls ∧ id = (c.stream tls).id ∧ (c.stream tls).secured = false ∧ c.Armed
  | .handshaking id =>
    c.isTls = true ∧ id = c.sslStream.id ∧ c.sslStream.peer = some url ∧ c.Armed

/-- A `connect` that is suspended, when nothing else changes the connection. -/
structure Pending (B : BoostUrl) (c : Connection) (frame : ConnectFrame) : Prop where
  state : c.connectionState = .connecting
  normal : B.Normal frame.url
  tls : c.isTls = (frame.url.scheme == "https")
  stream : c.StreamFits frame.url frame.point

variable {B : BoostUrl} {c conn : Connection}

theorem Pending.of_connects {url_sv : String} {sni : Bool} {frame : ConnectFrame}
    (h : Connects B url_sv sni c (.suspended frame) conn) :
    Pending B conn frame ∧ B.makeHttpHttpsUrl url_sv = .ok frame.url := by
  cases h with
  | suspended guard parsed hostName => exact ⟨⟨rfl, ⟨url_sv, parsed⟩, rfl, trivial⟩, parsed⟩

/-- A `connect` goes on to its next operation. -/
theorem Pending.advance {now : ℕ} {frame frame' : ConnectFrame} {completion : Completion Response}
    (h : Pending B c frame) (hr : Resumes now c frame completion (.suspended frame') conn) :
    Pending B conn frame' ∧ frame'.url = frame.url := by
  have hstream := h.stream
  cases hr with
  | resolvedTls _ _ tls =>
    refine ⟨⟨h.state, h.normal, h.tls, tls.symm, rfl, rfl, ?_⟩, rfl⟩
    simp [Armed, Connection.stream, tls, Stream.expiresAfter, Stream.startConnect]
  | resolvedTcp _ _ tls =>
    refine ⟨⟨h.state, h.normal, h.tls, tls.symm, rfl, rfl, ?_⟩, rfl⟩
    simp [Armed, Connection.stream, tls, Stream.expiresAfter, Stream.startConnect]
  | connectedTls _ point =>
    rw [point] at hstream
    obtain ⟨htls, -, -, -⟩ := hstream
    refine ⟨⟨h.state, h.normal, h.tls, htls.symm, rfl, rfl, ?_⟩, rfl⟩
    simp [Armed, Connection.stream, ← htls, Stream.expiresAfter, Stream.connected,
      Stream.startHandshake]

/-- A `connect` that succeeds leaves the members in agreement. -/
theorem Pending.succeed {now : ℕ} {frame : ConnectFrame} {completion : Completion Response}
    (h : Pending B c frame) (hr : Resumes now c frame completion (.returned none) conn) :
    Link B conn frame.url := by
  have hstream := h.stream
  cases hr with
  | connectedTcp _ point =>
    rw [point] at hstream
    obtain ⟨htls, -, hsecured, harmed⟩ := hstream
    have hplain : c.isTls = false := htls.symm
    unfold Armed at harmed
    rw [hplain] at harmed
    refine ⟨rfl, rfl, h.normal, h.tls, ?_, ?_, ?_, ?_⟩
    · simp [Connection.stream, hplain, Stream.connected]
    · simpa [Connection.stream, hplain, Stream.connected] using hsecured
    · simp [Connection.stream, hplain, Stream.connected]
    · simpa [Armed, Connection.stream, hplain, Stream.connected] using harmed
  | handshaken _ point =>
    rw [point] at hstream
    obtain ⟨htls, -, hpeer, harmed⟩ := hstream
    unfold Armed at harmed
    rw [htls] at harmed
    refine ⟨rfl, rfl, h.normal, h.tls, ?_, ?_, ?_, ?_⟩
    · simpa [Connection.stream, htls] using hpeer
    · simp [Connection.stream, htls]
    · simp [Connection.stream, htls]
    · simpa [Armed, Connection.stream, htls] using harmed

/-- What a failed write or read leaves in the stream and in the buffer is no part of the agreement. -/
theorem Link.ioFailed {url : Url} (h : Link B c url) (tls : Bool) (leftover : ℕ) :
    Link B (c.ioFailed tls leftover) url := by
  have hstream : ∀ {α : Type} (f : Stream → α), (∀ stream : Stream,
      f { stream with ioError := true } = f stream) →
        f ((c.ioFailed tls leftover).stream c.isTls) = f (c.stream c.isTls) := by
    intro α f hf
    rw [stream_ioFailed]
    split
    · exact hf _
    · rfl
  refine ⟨?_, ?_, h.normal, ?_, ?_, ?_, ?_, ?_⟩
  · rw [ioFailed_connectionState, h.state]
  · rw [ioFailed_currentOrigin, h.origin]
  · rw [ioFailed_isTls, h.tls]
  · rw [ioFailed_isTls, hstream Stream.peer fun _ => rfl, h.peer]
  · rw [ioFailed_isTls, hstream Stream.secured fun _ => rfl, h.secured]
  · rw [ioFailed_isTls, hstream Stream.id fun _ => rfl, ioFailed_lastConnected, h.last]
  · unfold Armed
    rw [ioFailed_isTls, hstream Stream.expiry fun _ => rfl, ioFailed_armedAt]
    exact h.armed

theorem Link.consumed {url : Url} (h : Link B c url) : Link B { c with buffer := 0 } url :=
  ⟨h.state, h.origin, h.normal, h.tls, h.peer, h.secured, h.last, h.armed⟩

/-- Between two operations of `process_queue`: no `connect` is under way, and a client that says it is
connected is. -/
def Settled (B : BoostUrl) (c : Connection) : Prop :=
  c.connectionState ≠ .connecting ∧ (c.connectionState = .connected → ∃ url, Link B c url)

theorem Link.settled {url : Url} (h : Link B c url) : Settled B c :=
  ⟨by simp [h.state], fun _ => ⟨url, h⟩⟩

theorem settled_of_notConnected (h : c.connectionState = .notConnected) : Settled B c :=
  ⟨by simp [h], by simp [h]⟩

end Connection

namespace State

open Connection

/-- The action is no call of `connect` from outside. -/
def IsNoCall (a : Action Response) : Prop := ∀ url sni, a ≠ .connect url sni

/-- What `process_queue` knows of the connection. A coroutine that an exception has ended, with the flag
left set, knows nothing. -/
def Fits (B : BoostUrl) (s : State Response) : Prop :=
  match s.processQueue with
  | .idle => s.isProcessing = false → Settled B s.conn
  | .loopTop | .connectNext | .popping _ => Settled B s.conn
  | .shuttingDown => ∃ url, Link B s.conn url
  | .connecting frame =>
    Pending B s.conn frame ∧ ∃ task rest, s.tasks = task :: rest ∧ frame.url = task.endpoint.origin
  | .writing tls _ | .reading tls _ => tls = s.conn.isTls ∧ ∃ url, Link B s.conn url

/-- The task was handed to a stream that is connected to its origin. -/
def SentTo (B : BoostUrl) (task : Task) (conn : Connection) : Prop :=
  ∃ url, Link B conn url ∧ url.origin = task.endpoint.origin

/-- The invariant of runs without calls of `connect` from outside. -/
structure Linked (B : BoostUrl) (s : State Response) : Prop where
  noCalls : s.connects = []
  fits : s.Fits B
  sent : ∀ task conn now, .sent task conn now ∈ s.log → SentTo B task conn

variable [Inhabited Response] {B : BoostUrl} {s t : State Response} {a : Action Response}

omit [Inhabited Response] in
/-- Handing a task to the selected stream, when the stream is connected to its origin. -/
theorem Linked.send (h : s.Linked B) {conn : Connection} {task : Task} {url : Url}
    (hlink : Link B conn url) (horigin : url.origin = task.endpoint.origin) :
    ({ s with conn := conn }.send task).Linked B := by
  refine ⟨h.noCalls, ⟨rfl, url, hlink⟩, ?_⟩
  intro task' conn' now hmem
  rcases List.mem_append.mp hmem with hmem | hmem
  · exact h.sent task' conn' now hmem
  · rw [List.mem_singleton, Event.sent.injEq] at hmem
    obtain ⟨rfl, rfl, -⟩ := hmem
    exact ⟨url, hlink, horigin⟩

omit [Inhabited Response] in
/-- A step that sends nothing. -/
theorem Linked.of_silent (h : s.Linked B) (hcalls : t.connects = s.connects) {more : List (Event Response)}
    (hlog : t.log = s.log ++ more) (hmore : ∀ task conn now, .sent task conn now ∉ more)
    (hfits : t.Fits B) : t.Linked B := by
  refine ⟨hcalls.trans h.noCalls, hfits, ?_⟩
  intro task conn now hmem
  rw [hlog] at hmem
  rcases List.mem_append.mp hmem with hmem | hmem
  · exact h.sent task conn now hmem
  · exact absurd hmem (hmore task conn now)

omit [Inhabited Response] in
theorem Linked.of_log_eq (h : s.Linked B) (hcalls : t.connects = s.connects) (hlog : t.log = s.log)
    (hfits : t.Fits B) : t.Linked B :=
  h.of_silent hcalls (by rw [hlog, List.append_nil]) (by simp) hfits

/-- A task is failed when nothing is under way. -/
theorem Linked.fail (h : s.Linked B) {conn : Connection} (hsettled : Settled B conn) (task : Task)
    (ec : ErrorCode) : ({ s with conn := conn }.fail task ec).Linked B := by
  unfold State.fail
  split
  · exact h.of_silent rfl rfl (by simp) hsettled
  · exact h.of_silent rfl rfl (by simp) hsettled

omit [Inhabited Response] in
theorem Linked.invokeHandler (h : s.Linked B) {conn : Connection} (hsettled : Settled B conn)
    {task : Task} (hhandler : task.hasHandler = true) (ec : Option ErrorCode) (response : Response) :
    ({ s with conn := conn }.invokeHandler task ec response).Linked B := by
  rw [invokeHandler_of_hasHandler _ hhandler]
  exact h.of_silent rfl rfl (by simp) hsettled

omit [Inhabited Response] in
/-- The invariant looks at the queue only for the endpoint of its first task. -/
theorem Fits.of_tasks (h : s.Fits B) (hpc : t.processQueue = s.processQueue) (hconn : t.conn = s.conn)
    (hprocessing : t.isProcessing = s.isProcessing)
    (hfirst : ∀ task rest, s.tasks = task :: rest → ∃ task' rest', t.tasks = task' :: rest' ∧
      task'.endpoint = task.endpoint) : t.Fits B := by
  unfold Fits at h ⊢
  rw [hpc, hconn, hprocessing]
  cases hq : s.processQueue with
  | connecting frame =>
    rw [hq] at h
    obtain ⟨hpending, task, rest, htasks, hurl⟩ := h
    obtain ⟨task', rest', htasks', hendpoint⟩ := hfirst task rest htasks
    exact ⟨hpending, task', rest', htasks', by rw [hendpoint, hurl]⟩
  | idle | loopTop | shuttingDown | connectNext | writing _ _ | reading _ _ | popping _ =>
    rw [hq] at h
    exact h

/-- Every step but a call of `connect` keeps the invariant. -/
theorem Linked.step (h : s.Linked B) (hB : B.Lawful) (hserved : s.Served) (hnormal : s.Normalized B)
    (ha : IsNoCall a) (hstep : State.step B s a = some t) : t.Linked B := by
  have hfits := h.fits
  unfold Fits at hfits
  cases transition_of_step hstep with
  | tick d =>
    exact h.of_log_eq rfl rfl (Fits.of_tasks h.fits rfl rfl rfl fun task rest htasks =>
      ⟨task, rest, htasks, rfl⟩)
  | requestRefused => exact h
  | requestQueued =>
    refine h.of_silent rfl rfl (by simp) (Fits.of_tasks h.fits rfl rfl rfl ?_)
    intro task rest htasks
    exact ⟨task, rest ++ [_], congrArg (· ++ [_]) htasks, rfl⟩
  | requestSpawned _ _ processing =>
    rw [hserved.idle processing] at hfits
    exact h.of_silent rfl rfl (by simp) (hfits processing)
  | callReturned => exact absurd rfl (ha _ _)
  | callSuspended => exact absurd rfl (ha _ _)
  | handlerSet =>
    refine h.of_log_eq rfl rfl (Fits.of_tasks h.fits rfl rfl rfl ?_)
    intro task rest htasks
    refine ⟨_, _, (congrArg (List.map _) htasks).trans List.map_cons, ?_⟩
    split <;> rfl
  | handlerLost =>
    exact h.of_silent rfl rfl (by simp) (Fits.of_tasks h.fits rfl rfl rfl fun task rest htasks =>
      ⟨task, rest, htasks, rfl⟩)
  | finished pc =>
    rw [pc] at hfits
    exact h.of_log_eq rfl rfl fun _ => hfits
  | newConnection pc =>
    rw [pc] at hfits
    exact h.of_log_eq rfl rfl hfits
  | shutdownTls pc _ state =>
    rw [pc] at hfits
    exact h.of_log_eq rfl rfl (hfits.2 state)
  | shutdownTcp => exact h.of_log_eq rfl rfl (settled_of_notConnected rfl)
  | reused pc tasks state origin =>
    rw [pc] at hfits
    obtain ⟨url, hlink⟩ := hfits.2 state
    rw [hlink.origin] at origin
    exact h.send hlink (BoostUrl.origin_eq_of_encodedOrigin_eq hB hlink.normal
      (hnormal.head tasks) origin)
  | @connectSuspended _ task rest frame conn pc tasks connects =>
    obtain ⟨hpending, hurl⟩ := Pending.of_connects connects
    rw [BoostUrl.makeHttpHttpsUrl_encodedOrigin hB (hnormal.head tasks),
      Except.ok.injEq] at hurl
    exact h.of_log_eq rfl rfl ⟨hpending, task, rest, tasks, hurl.symm⟩
  | connectRefused pc _ connects =>
    rw [pc] at hfits
    rcases connects.state_of_returned with rfl | ⟨-, hstate⟩
    · exact h.fail hfits _ _
    · exact h.fail (settled_of_notConnected hstate) _ _
  | popped pc =>
    rw [pc] at hfits
    exact h.of_log_eq rfl rfl hfits
  | shutdownReturned => exact h.of_log_eq rfl rfl (settled_of_notConnected rfl)
  | shutdownThrew _ pc =>
    -- the flag stays set, so nothing is claimed of the connection any more
    refine h.of_silent rfl rfl (by simp) fun hprocessing => ?_
    have hset := hserved.processing (by simp [Alive, pc])
    rw [hset] at hprocessing
    cases hprocessing
  | connectAdvanced _ pc _ resumes =>
    rw [pc] at hfits
    obtain ⟨hpending, task, rest, htasks, hurl⟩ := hfits
    obtain ⟨hpending', hurl'⟩ := hpending.advance resumes
    exact h.of_log_eq rfl rfl ⟨hpending', task, rest, htasks, hurl'.trans hurl⟩
  | connectSucceeded _ pc tasks resumes =>
    rw [pc] at hfits
    obtain ⟨hpending, task, rest, htasks, hurl⟩ := hfits
    rw [tasks, List.cons.injEq] at htasks
    obtain ⟨rfl, -⟩ := htasks
    refine h.send (hpending.succeed resumes) ?_
    rw [hurl]
    rfl
  | connectFailed _ _ _ resumes => exact h.fail (settled_of_notConnected resumes.state_of_returned) _ _
  | written _ pc =>
    rw [pc] at hfits
    exact h.of_log_eq rfl rfl hfits
  | writeFailed dispatches pc tasks =>
    rw [pc] at hfits
    obtain ⟨-, url, hlink⟩ := hfits
    exact h.invokeHandler (hlink.ioFailed _ _).settled (hserved.hasHandler_of_tasks dispatches tasks) _ _
  | answered dispatches pc tasks =>
    rw [pc] at hfits
    obtain ⟨-, url, hlink⟩ := hfits
    exact h.invokeHandler hlink.consumed.settled (hserved.hasHandler_of_tasks dispatches tasks) _ _
  | readFailed dispatches pc tasks =>
    rw [pc] at hfits
    obtain ⟨-, url, hlink⟩ := hfits
    exact h.invokeHandler (hlink.ioFailed _ _).settled (hserved.hasHandler_of_tasks dispatches tasks) _ _
  | callAdvanced _ call | callDone _ call =>
    rw [h.noCalls] at call
    cases call

omit [Inhabited Response] in
theorem linked_init : Linked B ({} : State Response) :=
  ⟨rfl, fun _ => settled_of_notConnected rfl, by simp⟩

/-- The invariants of a run without calls of `connect` from outside. -/
theorem linked_of_run (hB : B.Lawful) {as : List (Action Response)} (ha : ∀ a ∈ as, IsNoCall a)
    (h : Run B as s) : s.Served ∧ s.Normalized B ∧ s.Linked B := by
  refine Runs.invariant_of_stepsMeet (G := fun _ a => IsNoCall a)
    (fun u => u.Served ∧ u.Normalized B ∧ u.Linked B) ?_ ?_ ?_ h
  · exact ⟨served_init, by simp [Normalized], linked_init⟩
  · rintro u a v ⟨hserved, hnormal, hlinked⟩ hno hstep
    exact ⟨hserved.step hstep, hnormal.step hstep, hlinked.step hB hserved hnormal hno hstep⟩
  · exact fun pre a u hpre _ => ha a (hpre.subset (by simp))

end State

end MacdTradingBot
