import MacdTradingBot.Rest.Link

/-!
# One handshake for each TLS stream

`graceful_shutdown` alone creates a fresh `ssl_stream`. A `connect` whose handshake fails, and a `connect`
called while the client is connected, leave the used one in place for the next handshake
(`singleUse_iff`). Requests whose handshakes all succeed never use a stream twice
(`singleUse_of_requests`).
-/

namespace MacdTradingBot

variable {Response : Type}

/-- The completion with which a `connect` begins its handshake: that of the `async_connect` under the TLS
stream, with success. -/
def ConnectFrame.BeginsHandshake (frame : ConnectFrame) (completion : Completion Response) : Prop :=
  completion.ec = none ∧ ∃ id, frame.point = .tcpConnecting true id

namespace Connection

variable {c conn : Connection} {now : ℕ} {frame : ConnectFrame} {completion : Completion Response}
  {result : ConnectResult}

/-- A handshake that begins is counted. -/
theorem handshakes_of_begins (hr : Resumes now c frame completion result conn)
    (hbegins : frame.BeginsHandshake completion) :
    conn.sslStream.handshakes = c.sslStream.handshakes + 1 := by
  obtain ⟨hec, id, hpoint⟩ := hbegins
  cases hr with
  | connectedTls => rfl
  | failed outcome =>
    rw [hec] at outcome
    cases outcome
  | resolvedTls _ point | resolvedTcp _ point | connectedTcp _ point | handshaken _ point =>
    rw [hpoint] at point
    cases point

/-- No other completion begins a handshake. -/
theorem handshakes_of_not_begins (hr : Resumes now c frame completion result conn)
    (hbegins : ¬ frame.BeginsHandshake completion) :
    conn.sslStream.handshakes = c.sslStream.handshakes := by
  cases hr with
  | connectedTls outcome point => exact absurd ⟨outcome, _, point⟩ hbegins
  | failed | resolvedTls | resolvedTcp | connectedTcp | handshaken => rfl

/-- Calling `connect` leaves the TLS stream alone. -/
theorem handshakes_of_connects {B : BoostUrl} {url_sv : String} {sni : Bool}
    (h : Connects B url_sv sni c result conn) : conn.sslStream = c.sslStream := by
  cases h <;> rfl

/-- A failed exchange is no handshake. -/
theorem handshakes_ioFailed (tls : Bool) (leftover : ℕ) :
    (c.ioFailed tls leftover).sslStream.handshakes = c.sslStream.handshakes := by
  unfold ioFailed
  split <;> rfl

end Connection

namespace State

open Connection

/-- The handshakes of the current `ssl_stream`. -/
def handshakes (s : State Response) : ℕ := s.conn.sslStream.handshakes

/-- A `connect`, of `process_queue` or from outside, begins its handshake. -/
def HandshakeBegins (s : State Response) (a : Action Response) : Prop :=
  ∃ frame completion, frame.BeginsHandshake completion ∧
    (s.processQueue = .connecting frame ∧ a = .complete completion ∨
      ∃ i, s.connects[i]? = some frame ∧ a = .completeConnect i completion)

/-- The `async_shutdown` of a `graceful_shutdown` completes, with whatever error code. -/
def ShutdownCompletes (s : State Response) (a : Action Response) : Prop :=
  s.processQueue = .shuttingDown ∧ ∃ completion, a = .complete completion

variable [Inhabited Response] {B : BoostUrl} {s t : State Response} {a : Action Response}

/-- A handshake that begins is counted. -/
theorem handshakes_step_begins (h : s.HandshakeBegins a) (hstep : State.step B s a = some t) :
    t.handshakes = s.handshakes + 1 := by
  obtain ⟨frame, completion, hbegins, ⟨hpc, rfl⟩ | ⟨i, hcall, rfl⟩⟩ := h
  · cases transition_of_step hstep with
    | connectAdvanced _ pc _ resumes | connectSucceeded _ pc _ resumes =>
      rw [hpc, ProcessQueue.connecting.injEq] at pc
      subst pc
      exact handshakes_of_begins resumes hbegins
    | connectFailed _ pc _ resumes =>
      rw [hpc, ProcessQueue.connecting.injEq] at pc
      subst pc
      rw [handshakes, fail_conn]
      exact handshakes_of_begins resumes hbegins
    | shutdownReturned _ pc | shutdownThrew _ pc | written _ pc | writeFailed _ pc | answered _ pc
    | readFailed _ pc =>
      rw [hpc] at pc
      cases pc
  · cases transition_of_step hstep with
    | callAdvanced _ call resumes | callDone _ call resumes =>
      rw [hcall, Option.some.injEq] at call
      subst call
      exact handshakes_of_begins resumes hbegins

/-- A shutdown that completes brings a new stream. -/
theorem handshakes_step_shutdown (h : s.ShutdownCompletes a) (hstep : State.step B s a = some t) :
    t.handshakes = 0 := by
  obtain ⟨hpc, completion, rfl⟩ := h
  cases transition_of_step hstep with
  | shutdownReturned | shutdownThrew => rfl
  | connectAdvanced _ pc | connectSucceeded _ pc | connectFailed _ pc | written _ pc
  | writeFailed _ pc | answered _ pc | readFailed _ pc =>
    rw [hpc] at pc
    cases pc

/-- No other step touches the handshakes of the current stream. -/
theorem handshakes_step (hbegins : ¬ s.HandshakeBegins a) (hshutdown : ¬ s.ShutdownCompletes a)
    (hstep : State.step B s a = some t) : t.handshakes = s.handshakes := by
  cases transition_of_step hstep with
  | tick | requestRefused | requestQueued | requestSpawned | handlerSet | handlerLost | finished
  | newConnection | shutdownTls | shutdownTcp | reused | popped | written => rfl
  | callReturned _ connects | callSuspended _ connects | connectSuspended _ _ connects =>
    exact congrArg Stream.handshakes (handshakes_of_connects connects)
  | connectRefused _ _ connects =>
    rw [handshakes, fail_conn]
    exact congrArg Stream.handshakes (handshakes_of_connects connects)
  | shutdownReturned _ pc | shutdownThrew _ pc => exact absurd ⟨pc, _, rfl⟩ hshutdown
  | connectAdvanced _ pc _ resumes | connectSucceeded _ pc _ resumes =>
    exact handshakes_of_not_begins resumes fun hb => hbegins ⟨_, _, hb, Or.inl ⟨pc, rfl⟩⟩
  | connectFailed _ pc _ resumes =>
    rw [handshakes, fail_conn]
    exact handshakes_of_not_begins resumes fun hb => hbegins ⟨_, _, hb, Or.inl ⟨pc, rfl⟩⟩
  | callAdvanced _ call resumes | callDone _ call resumes =>
    exact handshakes_of_not_begins resumes fun hb => hbegins ⟨_, _, hb, Or.inr ⟨_, call, rfl⟩⟩
  | writeFailed | readFailed =>
    rw [handshakes, invokeHandler_conn]
    exact handshakes_ioFailed _ _
  | answered =>
    rw [handshakes, invokeHandler_conn]
    rfl

/-- Every `ssl_stream` so far has undergone at most one handshake. -/
def SingleUse (s : State Response) : Prop := s.handshakes ≤ 1

/-- Over every run of requests and calls of `connect`: no `ssl_stream` undergoes a second handshake if and
only if between any two successful TCP connects under TLS an `async_shutdown` completes. -/
theorem singleUse_iff {as : List (Action Response)} (h : Run B as s) :
    Runs.Along (State.step B) SingleUse {} as
      ↔ Runs.Separated (State.step B) HandshakeBegins ShutdownCompletes {} as :=
  Runs.along_le_one_iff_separated (fun _ _ _ => handshakes_step_begins)
    (fun _ _ _ => handshakes_step_shutdown) (fun _ _ _ => handshakes_step) rfl h

/-! ## Requests only -/

omit [Inhabited Response] in
/-- The handshake of `process_queue` completes with an error. -/
def HandshakeFails (s : State Response) (a : Action Response) : Prop :=
  ∃ url id completion ec, s.processQueue = .connecting ⟨url, .handshaking id⟩ ∧
    a = .complete completion ∧ completion.ec = some ec

/-- A used stream is the one of the handshake under way or of the current connection. -/
structure Fresh (s : State Response) : Prop where
  singleUse : s.SingleUse
  used : 0 < s.handshakes → (∃ url id, s.processQueue = .connecting ⟨url, .handshaking id⟩) ∨
    s.conn.connectionState = .connected ∧ s.conn.isTls = true
  next : s.processQueue = .connectNext → s.conn.connectionState ≠ .connected

omit [Inhabited Response] in
/-- A new client has not used its stream. -/
theorem fresh_init : Fresh ({} : State Response) :=
  ⟨Nat.zero_le 1, fun h => absurd h (lt_irrefl 0), fun h => nomatch h⟩

omit [Inhabited Response] in
/-- An unused stream is fresh wherever `process_queue` is. -/
theorem fresh_of_unused (hcount : t.handshakes = 0)
    (hnext : t.processQueue = .connectNext → t.conn.connectionState ≠ .connected) : t.Fresh where
  singleUse := by simp [SingleUse, hcount]
  used hpos := by omega
  next := hnext

omit [Inhabited Response] in
/-- Outside of a handshake the next stream is unused, unless the client is connected with TLS. -/
theorem Fresh.unused (h : s.Fresh)
    (hpc : ∀ url id, s.processQueue ≠ .connecting ⟨url, .handshaking id⟩)
    (hconn : s.conn.connectionState ≠ .connected ∨ s.conn.isTls = false) : s.handshakes = 0 := by
  by_contra hne
  rcases h.used (Nat.pos_of_ne_zero hne) with ⟨url, id, hhandshaking⟩ | ⟨hstate, htls⟩
  · exact hpc url id hhandshaking
  · rcases hconn with hnot | hplain
    · exact hnot hstate
    · rw [hplain] at htls
      cases htls

omit [Inhabited Response] in
/-- A step that leaves the connection alone and is not part of a handshake. -/
theorem Fresh.of_conn (h : s.Fresh) (hcount : t.handshakes = s.handshakes)
    (hstate : t.conn.connectionState = s.conn.connectionState) (htls : t.conn.isTls = s.conn.isTls)
    (hpc : t.processQueue = s.processQueue ∨ (∀ frame, s.processQueue ≠ .connecting frame) ∧
      (t.processQueue = .connectNext → s.conn.connectionState ≠ .connected)) : t.Fresh where
  singleUse := by
    rw [SingleUse, hcount]
    exact h.singleUse
  used hpos := by
    rw [hcount] at hpos
    rw [hstate, htls]
    refine (h.used hpos).imp_left ?_
    rintro ⟨url, id, hhandshaking⟩
    rcases hpc with hsame | ⟨hnone, -⟩
    · exact ⟨url, id, hsame.trans hhandshaking⟩
    · exact absurd hhandshaking (hnone _)
  next hnext := by
    rw [hstate]
    rcases hpc with hsame | ⟨-, himp⟩
    · exact h.next (hsame.symm.trans hnext)
    · exact himp hnext

/-- A request-only step that is no failing handshake keeps the invariant. -/
theorem Fresh.step (h : s.Fresh) (hlinked : s.Linked B) (hserved : s.Served) (ha : IsNoCall a)
    (hgood : ¬ s.HandshakeFails a) (hstep : State.step B s a = some t) : t.Fresh := by
  have hfits := hlinked.fits
  unfold Fits at hfits
  cases transition_of_step hstep with
  | tick | requestRefused | requestQueued | handlerSet | handlerLost =>
    exact h.of_conn rfl rfl rfl (Or.inl rfl)
  | requestSpawned _ _ processing =>
    have hidle := hserved.idle processing
    exact h.of_conn rfl rfl rfl (Or.inr ⟨by simp [hidle], fun hnext => nomatch hnext⟩)
  | callReturned | callSuspended => exact absurd rfl (ha _ _)
  | newConnection pc _ state => exact h.of_conn rfl rfl rfl (Or.inr ⟨by simp [pc], fun _ => state⟩)
  | finished pc | shutdownTls pc | reused pc | popped pc | written _ pc =>
    exact h.of_conn rfl rfl rfl (Or.inr ⟨by simp [pc], fun hnext => nomatch hnext⟩)
  | shutdownTcp pc _ _ _ tls =>
    refine fresh_of_unused ?_ fun _ => by simp [shutdownDone]
    exact h.unused (by simp [pc]) (Or.inr tls)
  | connectSuspended pc _ connects =>
    refine fresh_of_unused ?_ fun hnext => nomatch hnext
    exact (congrArg Stream.handshakes (handshakes_of_connects connects)).trans
      (h.unused (by simp [pc]) (Or.inl (h.next pc)))
  | connectRefused pc _ connects =>
    refine fresh_of_unused ?_ fun hnext => ?_
    · rw [handshakes, fail_conn]
      exact (congrArg Stream.handshakes (handshakes_of_connects connects)).trans
        (h.unused (by simp [pc]) (Or.inl (h.next pc)))
    · unfold State.fail at hnext
      split at hnext <;> cases hnext
  | shutdownReturned => exact fresh_of_unused rfl fun _ => by simp [shutdownDone]
  | shutdownThrew => exact fresh_of_unused rfl fun hnext => nomatch hnext
  | @connectAdvanced frame frame' _ _ _ conn _ pc _ resumes =>
    rw [pc] at hfits
    -- until the TCP connection stands, nobody has used the stream
    have hunused : frame.point = .resolving ∨ (∃ tls id, frame.point = .tcpConnecting tls id) →
        s.handshakes = 0 := by
      intro hpoint
      -- no handshake fails, so the connect failed before it came to one
      refine h.unused ?_ (Or.inl (by simp [hfits.1.state]))
      rintro url id heq
      rw [pc, ProcessQueue.connecting.injEq] at heq
      subst heq
      simp at hpoint
    cases resumes with
    | resolvedTls _ point | resolvedTcp _ point =>
      exact fresh_of_unused (hunused (Or.inl point)) fun hnext => nomatch hnext
    | connectedTls _ point =>
      have hzero := hunused (Or.inr ⟨_, _, point⟩)
      refine ⟨?_, fun _ => Or.inl ⟨_, _, rfl⟩, fun hnext => nomatch hnext⟩
      exact (congrArg (· + 1) hzero).le
  | @connectSucceeded frame _ _ _ conn _ pc _ resumes =>
    rw [pc] at hfits
    obtain ⟨hpending, -⟩ := hfits
    have hcount : conn.sslStream.handshakes = s.handshakes := by
      cases resumes <;> rfl
    -- a stream that was used made its handshake in this connect
    have hused : 0 < s.handshakes → conn.isTls = true := by
      intro hpos
      rcases h.used hpos with ⟨url, id, heq⟩ | ⟨hstate, -⟩
      · rw [pc, ProcessQueue.connecting.injEq] at heq
        subst heq
        cases resumes with
        | handshaken => exact hpending.stream.1
        | connectedTcp _ point => cases point
      · rw [hpending.state] at hstate
        cases hstate
    refine ⟨?_, fun hpos => Or.inr ⟨resumes.state_of_returned, hused ?_⟩, fun hnext => nomatch hnext⟩
    · exact (hcount.trans_le h.singleUse)
    · exact hcount ▸ hpos
  | @connectFailed frame completion _ _ ec conn _ pc _ resumes =>
    rw [pc] at hfits
    refine fresh_of_unused ?_ fun hnext => ?_
    · rw [handshakes, fail_conn]
      cases resumes with
      | failed outcome =>
        refine h.unused ?_ (Or.inl (by simp [hfits.1.state]))
        intro url id heq
        exact hgood ⟨url, id, completion, ec, heq, rfl, outcome⟩
    · unfold State.fail at hnext
      split at hnext <;> cases hnext
  | writeFailed dispatches pc tasks | readFailed dispatches pc tasks =>
    rw [invokeHandler_of_hasHandler _ (hserved.hasHandler_of_tasks dispatches tasks)]
    exact h.of_conn (handshakes_ioFailed _ _) (ioFailed_connectionState _ _ _) (ioFailed_isTls _ _ _)
      (Or.inr ⟨by simp [pc], fun hnext => nomatch hnext⟩)
  | answered dispatches pc tasks =>
    rw [invokeHandler_of_hasHandler _ (hserved.hasHandler_of_tasks dispatches tasks)]
    exact h.of_conn rfl rfl rfl (Or.inr ⟨by simp [pc], fun hnext => nomatch hnext⟩)
  | callAdvanced _ call | callDone _ call =>
    rw [hlinked.noCalls] at call
    cases call

/-- Where only requests are made and no handshake fails, every stream is used once. -/
theorem singleUse_of_requests (hB : B.Lawful) {as : List (Action Response)}
    (ha : ∀ a ∈ as, IsNoCall a) (h : Run B as s)
    (hgood : Runs.StepsMeet (State.step B) (fun u a => ¬ u.HandshakeFails a) {} as) : s.SingleUse := by
  suffices hall : ∀ (as : List (Action Response)) (s : State Response), (∀ a ∈ as, IsNoCall a) →
      Run B as s → Runs.StepsMeet (State.step B) (fun u a => ¬ u.HandshakeFails a) {} as → s.Fresh from
    (hall as s ha h hgood).singleUse
  intro as
  induction as using List.reverseRecOn with
  | nil =>
    intro s _ h _
    cases h
    exact fresh_init
  | append_singleton as a ih =>
    intro t ha h hgood
    obtain ⟨u, hu, hstep⟩ := Runs.run_concat.mp h
    have ha' : ∀ b ∈ as, IsNoCall b := fun b hb => ha b (List.mem_append_left _ hb)
    obtain ⟨hserved, -, hlinked⟩ := linked_of_run hB ha' hu
    exact (ih u ha' hu (hgood.of_prefix (List.prefix_append as [a]))).step hlinked hserved
      (ha a (by simp)) (hgood as a u List.prefix_rfl hu) hstep

/-! ## Streams used twice -/

/-- The handshake of a request fails, and the next request is made. -/
def retryAfterHandshake : List (Action Unit) :=
  [.request "https://broker/orders", .resume true, .resume true, .asyncWait, .complete succeeds,
    .complete succeeds, .complete (fails (.io 336130315)), .resume true, .resume true,
    .request "https://broker/orders", .resume true, .resume true, .asyncWait, .complete succeeds,
    .complete succeeds]

/-- `connect` is called twice, with success. -/
def connectTwice : List (Action Unit) :=
  [.connect "https://broker/orders" true, .completeConnect 0 succeeds, .completeConnect 0 succeeds,
    .completeConnect 0 succeeds, .connect "https://broker/orders" true, .completeConnect 0 succeeds,
    .completeConnect 0 succeeds]

/-- The run begins a second handshake on the first stream. -/
def ReusesStream (as : List (Action Unit)) : Prop :=
  ∃ t, Run exampleUrls as t ∧ t.conn.sslStream.id = 1 ∧ t.handshakes = 2 ∧
    ¬ Runs.Along (State.step exampleUrls) SingleUse {} as

theorem reusesStream_of_run {as : List (Action Unit)} (hrun : (Runs.run (State.step exampleUrls) {} as).map
    (fun t => (t.conn.sslStream.id, t.handshakes)) = some (1, 2)) : ReusesStream as := by
  obtain ⟨t, ht, hobserved⟩ := Option.map_eq_some_iff.mp hrun
  rw [Prod.mk.injEq] at hobserved
  obtain ⟨hid, hcount⟩ := hobserved
  refine ⟨t, ht, hid, hcount, fun halong => ?_⟩
  have hle : t.handshakes ≤ 1 := halong as t List.prefix_rfl ht
  omega

/-- Both runs reach a second handshake. -/
theorem second_handshake_on_one_stream : ReusesStream retryAfterHandshake ∧ ReusesStream connectTwice := by
  constructor
  · apply reusesStream_of_run
    decide +kernel
  · apply reusesStream_of_run
    decide +kernel

/-- Between the two handshakes the first connection is shut down. -/
theorem singleUse_iff_thereAndBack :
    Runs.Separated (State.step exampleUrls) HandshakeBegins ShutdownCompletes {} thereAndBack := by
  have hrun : (Runs.run (State.step exampleUrls) {} thereAndBack).isSome = true := by decide +kernel
  obtain ⟨t, ht⟩ := Option.isSome_iff_exists.mp hrun
  refine (singleUse_iff ht).mp (Runs.Along.of_checkAlong
    (p := fun u => u.handshakes ≤ 1) ?_ ?_)
  · intro u hu
    simpa [SingleUse] using hu
  · decide +kernel

end State

end MacdTradingBot
