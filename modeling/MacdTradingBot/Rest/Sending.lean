import MacdTradingBot.Rest.Progress

/-!
# What a request is written on

Two questions about the connection that `process_queue` hands a task to: whether its peer is the one of
the task, and whether an earlier exchange has left it broken. It always is the right peer. It may be
broken, since `process_queue` ignores the outcome of `send`.
-/

namespace MacdTradingBot

namespace State

open Connection

variable {Response : Type} [Inhabited Response] {B : BoostUrl} {s t : State Response}
  {a : Action Response}

/-! ## The peer -/

/-- The connection is the one a task may be written on: it says it is connected, the stream it selects
is the one connected last, the peer of this stream has scheme, host and port of the task, and TLS is used
exactly for https, after a handshake. -/
structure RightPeer (task : Task) (conn : Connection) : Prop where
  connected : conn.connectionState = .connected
  last : conn.lastConnected = some (conn.isTls, (conn.stream conn.isTls).id)
  peer : ∃ url, (conn.stream conn.isTls).peer = some url ∧ url.scheme = task.endpoint.scheme ∧
    url.host = task.endpoint.host ∧ url.port = task.endpoint.port
  tls : conn.isTls = true ↔ task.endpoint.scheme = "https"
  secured : conn.isTls = true → (conn.stream conn.isTls).secured = true

omit [Inhabited Response] in
theorem SentTo.rightPeer {task : Task} {conn : Connection} (h : SentTo B task conn) :
    RightPeer task conn := by
  obtain ⟨url, hlink, horigin⟩ := h
  simp only [Url.origin, Url.mk.injEq] at horigin
  obtain ⟨hscheme, -, hhost, hport, -⟩ := horigin
  refine ⟨hlink.state, hlink.last, ⟨url, hlink.peer, hscheme, hhost, hport⟩, ?_, ?_⟩
  · rw [hlink.tls, ← hscheme, beq_iff_eq]
  · intro htls
    rw [hlink.secured, htls]

/-- In every run of requests, whatever fails: when `process_queue` calls `send` on a task, the client is
connected, to the scheme, host and port of the task, over the stream connected last, with TLS exactly for
https. -/
theorem sent_to_right_peer (hB : B.Lawful) {as : List (Action Response)}
    (ha : ∀ a ∈ as, IsNoCall a) (h : Run B as s) {task : Task} {conn : Connection} {now : ℕ}
    (hsent : .sent task conn now ∈ s.log) : RightPeer task conn := by
  obtain ⟨-, -, hlinked⟩ := linked_of_run hB ha h
  exact (hlinked.sent task conn now hsent).rightPeer

/-- A `sent` in the record of a run, found by evaluation. -/
theorem exists_sent (B : BoostUrl) (as : List (Action Response))
    (p : State Response → Task → Connection → ℕ → Bool)
    (h : (Runs.run (State.step B) {} as).map (fun t => t.log.any fun e =>
      match e with
      | .sent task conn now => p t task conn now
      | _ => false) = some true) :
    ∃ t task conn now, Run B as t ∧ .sent task conn now ∈ t.log ∧ p t task conn now = true := by
  obtain ⟨t, ht, hany⟩ := Option.map_eq_some_iff.mp h
  obtain ⟨e, hmem, hmatch⟩ := List.any_eq_true.mp hany
  split at hmatch
  · rename_i task conn now
    exact ⟨t, task, conn, now, ht, hmem, hmatch⟩
  · cases hmatch

theorem threeRequests_noCall : ∀ a ∈ threeRequests, IsNoCall a := by
  intro a hmem url sni hcall
  subst hcall
  simp [threeRequests, thereAndBack, firstRequest] at hmem

/-- The host of a task that was sent, and whether TLS was used. -/
def sentHosts (log : List (Event Unit)) : List (String × Bool) :=
  log.filterMap fun
    | .sent task conn _ => some (task.endpoint.host, conn.isTls)
    | _ => none

/-- Three requests to two hosts, each to its own. -/
theorem sent_to_right_peer_threeRequests : ∃ t, Run exampleUrls threeRequests t ∧
    sentHosts t.log = [("broker", true), ("data", false), ("broker", true)] ∧
      ∀ task conn now, .sent task conn now ∈ t.log → RightPeer task conn := by
  have hrun : (Runs.run (State.step exampleUrls) {} threeRequests).map (fun t => sentHosts t.log)
      = some [("broker", true), ("data", false), ("broker", true)] := by decide +kernel
  obtain ⟨t, ht, hhosts⟩ := Option.map_eq_some_iff.mp hrun
  exact ⟨t, ht, hhosts, fun task conn now hsent =>
    sent_to_right_peer exampleUrls_lawful threeRequests_noCall ht hsent⟩

/-! ## Failed exchanges -/

/-- No write or read has failed on the selected stream since it was connected, and the buffer is
empty. -/
def Clean (conn : Connection) : Prop := (conn.stream conn.isTls).ioError = false ∧ conn.buffer = 0

/-- At the head of the loop a connected client has a clean connection, and no request was written on
one that is not. -/
structure Isolated (s : State Response) : Prop where
  loopTop : s.processQueue = .loopTop → s.conn.connectionState = .connected → Clean s.conn
  sent : ∀ task conn now, .sent task conn now ∈ s.log → Clean conn

/-- The step is the completion of a write or a read of `process_queue` with an error. -/
def ExchangeFails (s : State Response) (a : Action Response) : Prop :=
  (∃ tls expired, s.processQueue = .writing tls expired ∨ s.processQueue = .reading tls expired) ∧
    ∃ completion ec, a = .complete completion ∧ completion.ec = some ec

/-- Nothing has ever failed. -/
structure Untouched (conn : Connection) : Prop where
  tcp : conn.tcpStream.ioError = false
  ssl : conn.sslStream.ioError = false
  buffer : conn.buffer = 0

omit [Inhabited Response] in
theorem Untouched.clean {conn : Connection} (h : Untouched conn) : Clean conn := by
  refine ⟨?_, h.buffer⟩
  unfold Connection.stream
  split
  · exact h.ssl
  · exact h.tcp

omit [Inhabited Response] in
theorem Untouched.connects {c conn : Connection} (h : Untouched c) {url_sv : String} {sni : Bool}
    {result : ConnectResult} (hc : Connects B url_sv sni c result conn) : Untouched conn := by
  cases hc <;> exact ⟨h.tcp, h.ssl, h.buffer⟩

omit [Inhabited Response] in
theorem Untouched.resumes {c conn : Connection} (h : Untouched c) {now : ℕ} {frame : ConnectFrame}
    {completion : Completion Response} {result : ConnectResult}
    (hr : Resumes now c frame completion result conn) : Untouched conn := by
  cases hr with
  | resolvedTls => exact ⟨h.tcp, rfl, h.buffer⟩
  | resolvedTcp => exact ⟨rfl, h.ssl, h.buffer⟩
  | failed | connectedTls | connectedTcp | handshaken => exact ⟨h.tcp, h.ssl, h.buffer⟩

/-- As long as no write or read fails, nothing is left behind. -/
theorem Untouched.step (h : Untouched s.conn) (hgood : ¬ s.ExchangeFails a)
    (hstep : State.step B s a = some t) : Untouched t.conn := by
  cases transition_of_step hstep with
  | callReturned _ connects | callSuspended _ connects | connectSuspended _ _ connects =>
    exact h.connects connects
  | connectRefused _ _ connects =>
    rw [fail_conn]
    exact h.connects connects
  | shutdownTcp => exact ⟨rfl, h.ssl, rfl⟩
  | shutdownReturned => exact ⟨h.tcp, rfl, rfl⟩
  | shutdownThrew => exact ⟨h.tcp, rfl, h.buffer⟩
  | connectAdvanced _ _ _ resumes | connectSucceeded _ _ _ resumes => exact h.resumes resumes
  | callAdvanced _ _ resumes | callDone _ _ resumes => exact h.resumes resumes
  | connectFailed _ _ _ resumes =>
    rw [fail_conn]
    exact h.resumes resumes
  | answered =>
    rw [invokeHandler_conn]
    exact ⟨h.tcp, h.ssl, rfl⟩
  | @writeFailed tls expired completion _ _ ec _ pc _ outcome =>
    exact absurd ⟨⟨tls, expired, Or.inl pc⟩, completion, ec, rfl, outcome⟩ hgood
  | @readFailed tls expired completion _ _ ec _ pc _ outcome =>
    exact absurd ⟨⟨tls, expired, Or.inr pc⟩, completion, ec, rfl, outcome⟩ hgood
  | tick | requestRefused | requestQueued | requestSpawned | handlerSet | handlerLost | finished
  | newConnection | shutdownTls | reused | popped | written => exact h

/-- The connections that requests were written on were clean. -/
def SentClean (s : State Response) : Prop :=
  ∀ task conn now, .sent task conn now ∈ s.log → Clean conn

theorem SentClean.step (h : s.SentClean) (ht : Untouched t.conn)
    (hstep : State.step B s a = some t) : t.SentClean := by
  intro task conn now hmem
  rcases sent_of_step hstep hmem with hold | ⟨rfl, -⟩
  · exact h task conn now hold
  · exact ht.clean

/-! A failed exchange stays in the connection until the head of the loop. -/

/-- A failing write or read of a client that is connected leaves it connected, with an unclean stream,
between the handler and `pop_front`. -/
theorem unclean_of_exchangeFails (hserved : s.Served) (hlinked : s.Linked B)
    (hbad : s.ExchangeFails a) (hstep : State.step B s a = some t) :
    t.processQueue = .popping true ∧ t.conn.connectionState = .connected ∧ ¬ Clean t.conn := by
  obtain ⟨⟨tls, expired, hpc⟩, completion, ec, rfl, outcome⟩ := hbad
  have hfits := hlinked.fits
  unfold Fits at hfits
  have hbroken : ∀ {url} leftover, Link B s.conn url →
      (s.conn.ioFailed s.conn.isTls leftover).connectionState = .connected ∧
        ¬ Clean (s.conn.ioFailed s.conn.isTls leftover) := by
    intro url leftover hlink
    refine ⟨by rw [ioFailed_connectionState, hlink.state], ?_⟩
    rintro ⟨hio, -⟩
    rw [ioFailed_isTls, stream_ioFailed, if_pos rfl] at hio
    cases hio
  cases transition_of_step hstep with
  | shutdownReturned _ pc | shutdownThrew _ pc | connectAdvanced _ pc | connectSucceeded _ pc
  | connectFailed _ pc =>
    rw [pc] at hpc
    rcases hpc with hpc | hpc
    all_goals cases hpc
  | written _ _ _ outcome' | answered _ _ _ outcome' =>
    rw [outcome] at outcome'
    cases outcome'
  | writeFailed dispatches pc tasks =>
    rw [pc] at hfits
    obtain ⟨rfl, url, hlink⟩ := hfits
    rw [invokeHandler_of_hasHandler _ (hserved.hasHandler_of_tasks dispatches tasks)]
    exact ⟨rfl, hbroken _ hlink⟩
  | readFailed dispatches pc tasks =>
    rw [pc] at hfits
    obtain ⟨rfl, url, hlink⟩ := hfits
    rw [invokeHandler_of_hasHandler _ (hserved.hasHandler_of_tasks dispatches tasks)]
    exact ⟨rfl, hbroken _ hlink⟩

/-- Between the handler and the head of the loop the connection does not change. -/
theorem step_of_popping {resumed : Bool} (hserved : s.Served) (pc : s.processQueue = .popping resumed)
    (ha : IsNoCall a) (hstep : State.step B s a = some t) :
    t.conn = s.conn ∧ (t.processQueue = .popping resumed ∨ t.processQueue = .loopTop) := by
  have hbusy : ¬ s.dispatches = true := by
    rw [dispatches_iff, pc]
    rintro ⟨-, hsuspended⟩
    cases hsuspended
  cases transition_of_step hstep with
  | tick => exact ⟨rfl, Or.inl pc⟩
  | requestRefused => exact ⟨rfl, Or.inl pc⟩
  | requestQueued => exact ⟨rfl, Or.inl pc⟩
  | requestSpawned _ _ processing =>
    rw [hserved.processing (by simp [Alive, pc])] at processing
    cases processing
  | callReturned => exact absurd rfl (ha _ _)
  | callSuspended => exact absurd rfl (ha _ _)
  | handlerSet _ suspended | handlerLost _ suspended =>
    rw [pc] at suspended
    cases suspended
  | finished pc' | newConnection pc' | shutdownTls pc' | shutdownTcp pc' | reused pc'
  | connectSuspended pc' | connectRefused pc' =>
    rw [pc] at pc'
    cases pc'
  | popped => exact ⟨rfl, Or.inr rfl⟩
  | shutdownReturned dispatches | shutdownThrew dispatches | connectAdvanced dispatches
  | connectSucceeded dispatches | connectFailed dispatches | written dispatches
  | writeFailed dispatches | answered dispatches | readFailed dispatches | callAdvanced dispatches
  | callDone dispatches => exact absurd dispatches hbusy

/-- A run that does not end between a handler and `pop_front` takes what is there to the head of the
loop. -/
theorem exists_loopTop_of_popping {as : List (Action Response)} {resumed : Bool} (hserved : s.Served)
    (pc : s.processQueue = .popping resumed) (ha : ∀ a ∈ as, IsNoCall a)
    (h : Runs.run (State.step B) s as = some t) (hend : ∀ r, t.processQueue ≠ .popping r) :
    ∃ pre u, pre <+: as ∧ Runs.run (State.step B) s pre = some u ∧ u.processQueue = .loopTop ∧
      u.conn = s.conn := by
  induction as generalizing s with
  | nil =>
    obtain rfl : s = t := by simpa using h
    exact absurd pc (hend resumed)
  | cons a as ih =>
    obtain ⟨u, hu, hrest⟩ := Runs.run_cons.mp h
    obtain ⟨hconn, hpc | hpc⟩ := step_of_popping hserved pc (ha a List.mem_cons_self) hu
    · obtain ⟨pre, v, hpre, hv, hv'⟩ := ih (hserved.step hu) hpc
        (fun b hb => ha b (List.mem_cons_of_mem _ hb)) hrest
      refine ⟨a :: pre, v, (List.cons_prefix_cons).mpr ⟨rfl, hpre⟩, ?_, ?_⟩
      · exact Runs.run_cons.mpr ⟨u, hu, hv⟩
      · rw [← hconn]
        exact hv'
    · refine ⟨[a], u, ⟨as, rfl⟩, ?_, hpc, hconn⟩
      exact Runs.run_cons.mpr ⟨u, hu, rfl⟩

/-- Over every run of requests. If no write or read fails, a connected client has a clean connection
whenever `process_queue` is at the head of its loop, every request is written on a clean connection, and a
response that a task gets is the one that was read for it, after it was sent, on a connection that is still
clean. If one fails, the client gets to the head of the loop without: judged on runs that do not stop
between a handler and `pop_front`, the condition is exact. -/
theorem isolated_iff (hB : B.Lawful) {as : List (Action Response)} (ha : ∀ a ∈ as, IsNoCall a)
    (h : Run B as s) :
    (Runs.StepsMeet (State.step B) (fun u a => ¬ u.ExchangeFails a) {} as →
      Runs.Along (State.step B) Isolated {} as ∧
        (∀ id response, .completed id none response ∈ s.log → AnswerOf B as id response) ∧
          Runs.Along (State.step B) (fun u => Exchanging u.processQueue → Clean u.conn) {} as) ∧
    ((∀ resumed, s.processQueue ≠ .popping resumed) → Runs.Along (State.step B) Isolated {} as →
      Runs.StepsMeet (State.step B) (fun u a => ¬ u.ExchangeFails a) {} as) := by
  constructor
  · intro hgood
    have hclean : Runs.Along (State.step B) (fun u => Untouched u.conn ∧ u.SentClean) {} as := by
      intro pre u hpre hu
      refine Runs.invariant_of_stepsMeet (fun u => Untouched u.conn ∧ u.SentClean) ?_ ?_
        (hgood.of_prefix hpre) hu
      · exact ⟨⟨rfl, rfl, rfl⟩, by simp [SentClean]⟩
      · rintro v a w ⟨huntouched, hsent⟩ hno hstep
        have hw := huntouched.step hno hstep
        exact ⟨hw, hsent.step hw hstep⟩
    refine ⟨fun pre u hpre hu => ?_, fun id response hmem => answerOf_of_completed h hmem,
      fun pre u hpre hu _ => (hclean pre u hpre hu).1.clean⟩
    obtain ⟨huntouched, hsent⟩ := hclean pre u hpre hu
    exact ⟨fun _ _ => huntouched.clean, hsent⟩
  · intro hend halong pre a u hpre hu hbad
    obtain ⟨post, rfl⟩ := hpre
    have hnoCalls : ∀ b ∈ pre, IsNoCall b := fun b hb => ha b (by simp [hb])
    obtain ⟨hserved, -, hlinked⟩ := linked_of_run hB hnoCalls hu
    obtain ⟨v, hv, hrest⟩ := Runs.run_append.mp h
    obtain ⟨u', hu', hstep⟩ := Runs.run_concat.mp hv
    obtain rfl : u = u' := Runs.run_unique hu hu'
    obtain ⟨hpc, hstate, hunclean⟩ := unclean_of_exchangeFails hserved hlinked hbad hstep
    obtain ⟨more, w, hmore, hw, htop, hconn⟩ := exists_loopTop_of_popping (hserved.step hstep) hpc
      (fun b hb => ha b (by simp [hb])) hrest hend
    have hw' : Runs.run (State.step B) {} (pre ++ [a] ++ more) = some w :=
      Runs.run_append.mpr ⟨v, hv, hw⟩
    have hisolated := halong _ w ((List.prefix_append_right_inj _).mpr hmore) hw'
    rw [← hconn] at hstate hunclean
    exact hunclean (hisolated.loopTop htop hstate)

/-- The read of the first response stops midway, with 17 bytes in the buffer; a second request to the
same host follows. -/
def brokenRead : List (Action Unit) :=
  [.request "https://broker/orders", .resume true, .resume true, .asyncWait, .complete succeeds,
    .complete succeeds, .complete succeeds, .complete succeeds,
    .complete { ec := some (.io 104), response := (), leftover := 17 },
    .request "https://broker/orders", .resume true, .resume true]

/-- The second request is written on the broken connection, and its answer is read from behind the 17
bytes. -/
theorem request_on_broken_connection :
    ∃ t task conn now, Run exampleUrls brokenRead t ∧ .sent task conn now ∈ t.log ∧ ¬ Clean conn ∧
      ¬ Runs.Along (State.step exampleUrls) Isolated {} brokenRead := by
  obtain ⟨t, task, conn, now, ht, hmem, hleftover⟩ :=
    exists_sent exampleUrls brokenRead (fun _ _ conn _ => conn.buffer = 17)
      (by decide +kernel)
  have hunclean : ¬ Clean conn := by
    rintro ⟨-, hbuffer⟩
    rw [of_decide_eq_true hleftover] at hbuffer
    cases hbuffer
  refine ⟨t, task, conn, now, ht, hmem, hunclean, fun halong => hunclean ?_⟩
  exact (halong brokenRead t List.prefix_rfl ht).sent task conn now hmem

/-- Completions bring no error. -/
def completesWell (_ : State Unit) : Action Unit → Bool
  | .complete completion => completion.ec.isNone
  | _ => true

/-- Three requests are answered, and nothing is left behind. -/
theorem isolated_threeRequests : ∃ t, Run exampleUrls threeRequests t ∧ completedIds t.log = [0, 1, 2] ∧
    Runs.Along (State.step exampleUrls) Isolated {} threeRequests ∧
      ∀ id response, .completed id none response ∈ t.log →
        AnswerOf exampleUrls threeRequests id response := by
  have hrun : (Runs.run (State.step exampleUrls) {} threeRequests).map (fun t => completedIds t.log)
      = some [0, 1, 2] := by decide +kernel
  obtain ⟨t, ht, hcompleted⟩ := Option.map_eq_some_iff.mp hrun
  obtain ⟨hisolated, hanswers, -⟩ := (isolated_iff exampleUrls_lawful threeRequests_noCall ht).1
    (Runs.StepsMeet.of_checkSteps (g := completesWell)
      (by
        rintro u a hcheck ⟨-, completion, ec, rfl, houtcome⟩
        simp [completesWell, houtcome] at hcheck)
      (by decide +kernel))
  exact ⟨t, ht, hcompleted, hisolated, hanswers⟩

end State

end MacdTradingBot
