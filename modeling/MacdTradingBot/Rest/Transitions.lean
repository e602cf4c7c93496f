import MacdTradingBot.Rest.Client

/-!
# What one step of the REST client can do

`Connects` and `Resumes` list the outcomes of one segment of `connect`, and `Transition` lists the steps
of the client. The step function does nothing else (`transition_of_step`), so every invariant below is a
case analysis on `Transition`.
-/

namespace MacdTradingBot

variable {Response : Type}

namespace Connection

/-- The outcomes of `connect` before its first suspension. -/
inductive Connects (B : BoostUrl) (url_sv : String) (sni : Bool) (c : Connection) :
    ConnectResult → Connection → Prop
  | inProgress (guard : c.connectionState = .connecting) :
      Connects B url_sv sni c (.returned (some .operationInProgress)) c
  | invalid {ec : ErrorCode} (guard : c.connectionState ≠ .connecting)
      (parsed : B.makeHttpHttpsUrl url_sv = .error ec) :
      Connects B url_sv sni c (.returned (some ec)) { c with connectionState := .notConnected }
  | noHostName {url : Url} (guard : c.connectionState ≠ .connecting)
      (parsed : B.makeHttpHttpsUrl url_sv = .ok url) (https : url.scheme = "https")
      (refused : sni = false) :
      Connects B url_sv sni c (.returned (some .sslHostName))
        { c with isTls := true, connectionState := .notConnected }
  | suspended {url : Url} (guard : c.connectionState ≠ .connecting)
      (parsed : B.makeHttpHttpsUrl url_sv = .ok url) (hostName : url.scheme = "https" → sni = true) :
      Connects B url_sv sni c (.suspended ⟨url, .resolving⟩)
        { c with isTls := url.scheme == "https", connectionState := .connecting }

/-- What `connect` does is one of the cases. -/
theorem connects_connect (B : BoostUrl) (url_sv : String) (sni : Bool) (c : Connection) :
    Connects B url_sv sni c (c.connect B url_sv sni).1 (c.connect B url_sv sni).2 := by
  unfold connect
  split
  · rename_i guard
    exact .inProgress guard
  · rename_i guard
    cases hurl : B.makeHttpHttpsUrl url_sv with
    | error ec => exact .invalid guard hurl
    | ok url =>
      by_cases https : url.scheme = "https"
      · have htls : (url.scheme == "https") = true := by simpa using https
        cases sni with
        | false =>
          simp only [htls, Bool.not_false, Bool.and_self, if_true]
          exact .noHostName guard hurl https rfl
        | true =>
          simp only [Bool.not_true, Bool.and_false, Bool.false_eq_true, if_false]
          exact .suspended guard hurl fun _ => rfl
      · have htls : (url.scheme == "https") = false := by simpa using https
        simp only [htls, Bool.false_and, Bool.false_eq_true, if_false]
        have h := @Connects.suspended B url_sv sni c url guard hurl fun h => absurd h https
        rw [htls] at h
        exact h

/-- The outcomes of `connect` from one suspension on: it fails, or it goes on to the next operation, or
it has connected. -/
inductive Resumes (now : ℕ) (c : Connection) (frame : ConnectFrame)
    (completion : Completion Response) : ConnectResult → Connection → Prop
  | failed {ec : ErrorCode} (outcome : completion.ec = some ec) :
      Resumes now c frame completion (.returned (some ec)) { c with connectionState := .notConnected }
  | resolvedTls (outcome : completion.ec = none) (point : frame.point = .resolving) (tls : c.isTls = true) :
      Resumes now c frame completion
        (.suspended { frame with point := .tcpConnecting true c.sslStream.id })
        { c with
          sslStream := (c.sslStream.expiresAfter now).startConnect
          armedAt := now }
  | resolvedTcp (outcome : completion.ec = none) (point : frame.point = .resolving)
      (tls : c.isTls = false) :
      Resumes now c frame completion
        (.suspended { frame with point := .tcpConnecting false c.tcpStream.id })
        { c with
          tcpStream := (c.tcpStream.expiresAfter now).startConnect
          armedAt := now }
  | connectedTls (outcome : completion.ec = none) (point : frame.point = .tcpConnecting true c.sslStream.id) :
      Resumes now c frame completion
        (.suspended { frame with point := .handshaking c.sslStream.id })
        { c with
          sslStream := ((c.sslStream.connected frame.url).expiresAfter now).startHandshake
          armedAt := now }
  | connectedTcp (outcome : completion.ec = none)
      (point : frame.point = .tcpConnecting false c.tcpStream.id) :
      Resumes now c frame completion (.returned none)
        { c with
          tcpStream := c.tcpStream.connected frame.url
          connectionState := .connected
          currentOrigin := some frame.url
          lastConnected := some (false, c.tcpStream.id) }
  | handshaken (outcome : completion.ec = none) (point : frame.point = .handshaking c.sslStream.id) :
      Resumes now c frame completion (.returned none)
        { c with
          sslStream := { c.sslStream with secured := true }
          connectionState := .connected
          currentOrigin := some frame.url
          lastConnected := some (true, c.sslStream.id) }

/-- What a resumed `connect` does is one of the cases. -/
theorem resumes_of_resumeConnect {now : ℕ} {c conn : Connection} {frame : ConnectFrame}
    {completion : Completion Response} {result : ConnectResult}
    (h : c.resumeConnect now frame completion = some (result, conn)) :
    Resumes now c frame completion result conn := by
  unfold resumeConnect at h
  split at h
  · rename_i ec hec
    cases h
    exact .failed hec
  · rename_i hec
    split at h
    · rename_i hpoint
      split at h
      · rename_i htls
        cases h
        exact .resolvedTls hec hpoint htls
      · rename_i htls
        cases h
        exact .resolvedTcp hec hpoint (Bool.eq_false_iff.mpr htls)
    all_goals
      rename_i hpoint
      split at h
      · rename_i hid
        cases hid
        cases h
        first
          | exact .connectedTls hec hpoint
          | exact .connectedTcp hec hpoint
          | exact .handshaken hec hpoint
      · cases h

/-- `connect` never returns a success without having suspended. -/
theorem Connects.ne_success {B : BoostUrl} {url_sv : String} {sni : Bool} {c conn : Connection} :
    ¬ Connects B url_sv sni c (.returned none) conn := by
  rintro ⟨⟩

/-- A `connect` that returns at once leaves the connection as it was, or has passed the guard and ends
in the state `NOT_CONNECTED`. -/
theorem Connects.state_of_returned {B : BoostUrl} {url_sv : String} {sni : Bool} {c conn : Connection}
    {ec : Option ErrorCode} (h : Connects B url_sv sni c (.returned ec) conn) :
    conn = c ∨ c.connectionState ≠ .connecting ∧ conn.connectionState = .notConnected := by
  rcases h with guard | ⟨guard, -⟩ | ⟨guard, -⟩
  · exact Or.inl rfl
  · exact Or.inr ⟨guard, rfl⟩
  · exact Or.inr ⟨guard, rfl⟩

/-- A `connect` that suspends has passed the guard. -/
theorem Connects.state_of_suspended {B : BoostUrl} {url_sv : String} {sni : Bool}
    {c conn : Connection} {frame : ConnectFrame} (h : Connects B url_sv sni c (.suspended frame) conn) :
    c.connectionState ≠ .connecting ∧ conn.connectionState = .connecting := by
  rcases h with guard | ⟨guard, -⟩ | ⟨guard, -⟩ | ⟨guard, -⟩
  exact ⟨guard, rfl⟩

/-- Before it returns, `connect` leaves the state alone. -/
theorem Resumes.state_of_suspended {now : ℕ} {c conn : Connection} {frame frame' : ConnectFrame}
    {completion : Completion Response}
    (h : Resumes now c frame completion (.suspended frame') conn) :
    conn.connectionState = c.connectionState := by
  cases h <;> rfl

/-- When it returns, it sets the state by its result. -/
theorem Resumes.state_of_returned {now : ℕ} {c conn : Connection} {frame : ConnectFrame}
    {completion : Completion Response} {ec : Option ErrorCode}
    (h : Resumes now c frame completion (.returned ec) conn) :
    conn.connectionState = if ec = none then .connected else .notConnected := by
  cases h <;> rfl

end Connection

namespace State

open Connection

variable [Inhabited Response]

/-- The steps of the client. -/
inductive Transition (B : BoostUrl) (s : State Response) : Action Response → State Response → Prop
  | tick (d : ℕ) : Transition B s (.tick d) { s with now := s.now + d }
  | requestRefused {url : String} {ec : ErrorCode} (callable : s.callable = true)
      (invalid : B.makeHttpHttpsUrl url = .error ec) : Transition B s (.request url) s
  | requestQueued {url : String} {endpoint : Url} (callable : s.callable = true)
      (valid : B.makeHttpHttpsUrl url = .ok endpoint) (processing : s.isProcessing = true) :
      Transition B s (.request url)
        { s with
          nextTask := s.nextTask + 1
          tasks := s.tasks ++ [⟨s.nextTask, endpoint, true⟩]
          log := s.log ++ [.enqueued s.nextTask] }
  | requestSpawned {url : String} {endpoint : Url} (callable : s.callable = true)
      (valid : B.makeHttpHttpsUrl url = .ok endpoint) (processing : s.isProcessing = false) :
      Transition B s (.request url)
        { s with
          nextTask := s.nextTask + 1
          tasks := s.tasks ++ [⟨s.nextTask, endpoint, false⟩]
          log := s.log ++ [.enqueued s.nextTask]
          isProcessing := true
          processQueue := .loopTop
          spawner := some s.nextTask }
  | callReturned {url : String} {sni : Bool} {ec : Option ErrorCode} {conn : Connection}
      (callable : s.callable = true) (connects : Connects B url sni s.conn (.returned ec) conn) :
      Transition B s (.connect url sni) { s with conn := conn }
  | callSuspended {url : String} {sni : Bool} {frame : ConnectFrame} {conn : Connection}
      (callable : s.callable = true) (connects : Connects B url sni s.conn (.suspended frame) conn) :
      Transition B s (.connect url sni) { s with conn := conn, connects := s.connects ++ [frame] }
  | handlerSet {id : ℕ} (spawner : s.spawner = some id) (suspended : s.processQueue.suspended = true)
      (mem : ∃ t ∈ s.tasks, t.id = id) :
      Transition B s .asyncWait
        { s with
          tasks := s.tasks.map fun t => if t.id = id then { t with hasHandler := true } else t
          spawner := none }
  | handlerLost {id : ℕ} (spawner : s.spawner = some id)
      (suspended : s.processQueue.suspended = true) (notMem : ∀ t ∈ s.tasks, t.id ≠ id) :
      Transition B s .asyncWait
        { s with spawner := none, log := s.log ++ [.waitOnDestroyed id] }
  | finished {sni : Bool} (pc : s.processQueue = .loopTop) (tasks : s.tasks = []) :
      Transition B s (.resume sni) { s with isProcessing := false, processQueue := .idle }
  | newConnection {sni : Bool} {task : Task} {rest : List Task} (pc : s.processQueue = .loopTop)
      (tasks : s.tasks = task :: rest) (state : s.conn.connectionState ≠ .connected) :
      Transition B s (.resume sni) { s with processQueue := .connectNext }
  | shutdownTls {sni : Bool} {task : Task} {rest : List Task} (pc : s.processQueue = .loopTop)
      (tasks : s.tasks = task :: rest) (state : s.conn.connectionState = .connected)
      (origin : B.originText s.conn.currentOrigin ≠ B.encodedOrigin task.endpoint)
      (tls : s.conn.isTls = true) :
      Transition B s (.resume sni)
        { s with processQueue := .shuttingDown }
  | shutdownTcp {sni : Bool} {task : Task} {rest : List Task} (pc : s.processQueue = .loopTop)
      (tasks : s.tasks = task :: rest) (state : s.conn.connectionState = .connected)
      (origin : B.originText s.conn.currentOrigin ≠ B.encodedOrigin task.endpoint)
      (tls : s.conn.isTls = false) :
      Transition B s (.resume sni)
        { s with
          conn := shutdownDone
            { s.conn with
              tcpStream := { id := s.conn.nextStream }
              nextStream := s.conn.nextStream + 1 }
          processQueue := .connectNext }
  | reused {sni : Bool} {task : Task} {rest : List Task} (pc : s.processQueue = .loopTop)
      (tasks : s.tasks = task :: rest) (state : s.conn.connectionState = .connected)
      (origin : B.originText s.conn.currentOrigin = B.encodedOrigin task.endpoint) :
      Transition B s (.resume sni) (s.send task)
  | connectSuspended {sni : Bool} {task : Task} {rest : List Task} {frame : ConnectFrame}
      {conn : Connection} (pc : s.processQueue = .connectNext) (tasks : s.tasks = task :: rest)
      (connects : Connects B (B.encodedOrigin task.endpoint) sni s.conn (.suspended frame) conn) :
      Transition B s (.resume sni) { s with conn := conn, processQueue := .connecting frame }
  | connectRefused {sni : Bool} {task : Task} {rest : List Task} {ec : ErrorCode} {conn : Connection}
      (pc : s.processQueue = .connectNext) (tasks : s.tasks = task :: rest)
      (connects : Connects B (B.encodedOrigin task.endpoint) sni s.conn (.returned (some ec)) conn) :
      Transition B s (.resume sni) ({ s with conn := conn }.fail task ec)
  | popped {sni resumed : Bool} {task : Task} {rest : List Task}
      (pc : s.processQueue = .popping resumed) (tasks : s.tasks = task :: rest) :
      Transition B s (.resume sni) { s with tasks := rest, processQueue := .loopTop }
  | shutdownReturned {completion : Completion Response} (dispatches : s.dispatches = true)
      (pc : s.processQueue = .shuttingDown)
      (outcome : completion.ec = none ∨ completion.ec = some .streamTruncated) :
      Transition B s (.complete completion)
        { s with
          conn := shutdownDone
            { s.conn with
              sslStream := { id := s.conn.nextStream }
              nextStream := s.conn.nextStream + 1 }
          processQueue := .connectNext }
  | shutdownThrew {completion : Completion Response} {ec : ErrorCode}
      (dispatches : s.dispatches = true) (pc : s.processQueue = .shuttingDown)
      (outcome : completion.ec = some ec) (notTruncated : ec ≠ .streamTruncated) :
      Transition B s (.complete completion)
        { s with
          conn :=
            { s.conn with
              sslStream := { id := s.conn.nextStream }
              nextStream := s.conn.nextStream + 1 }
          processQueue := .idle
          log := s.log ++ [.shutdownThrew ec] }
  | connectAdvanced {frame frame' : ConnectFrame} {completion : Completion Response} {task : Task}
      {rest : List Task} {conn : Connection} (dispatches : s.dispatches = true)
      (pc : s.processQueue = .connecting frame) (tasks : s.tasks = task :: rest)
      (resumes : Resumes s.now s.conn frame completion (.suspended frame') conn) :
      Transition B s (.complete completion)
        { s with conn := conn, processQueue := .connecting frame' }
  | connectSucceeded {frame : ConnectFrame} {completion : Completion Response} {task : Task}
      {rest : List Task} {conn : Connection} (dispatches : s.dispatches = true)
      (pc : s.processQueue = .connecting frame) (tasks : s.tasks = task :: rest)
      (resumes : Resumes s.now s.conn frame completion (.returned none) conn) :
      Transition B s (.complete completion) ({ s with conn := conn }.send task)
  | connectFailed {frame : ConnectFrame} {completion : Completion Response} {task : Task}
      {rest : List Task} {ec : ErrorCode} {conn : Connection} (dispatches : s.dispatches = true)
      (pc : s.processQueue = .connecting frame) (tasks : s.tasks = task :: rest)
      (resumes : Resumes s.now s.conn frame completion (.returned (some ec)) conn) :
      Transition B s (.complete completion) ({ s with conn := conn }.fail task ec)
  | written {tls expired : Bool} {completion : Completion Response} {task : Task} {rest : List Task}
      (dispatches : s.dispatches = true) (pc : s.processQueue = .writing tls expired)
      (tasks : s.tasks = task :: rest) (outcome : completion.ec = none) (notExpired : expired = false) :
      Transition B s (.complete completion)
        { s with processQueue := .reading tls ((s.conn.stream tls).expired s.now) }
  | writeFailed {tls expired : Bool} {completion : Completion Response} {task : Task}
      {rest : List Task} {ec : ErrorCode} (dispatches : s.dispatches = true)
      (pc : s.processQueue = .writing tls expired) (tasks : s.tasks = task :: rest)
      (outcome : completion.ec = some ec) :
      Transition B s (.complete completion)
        ({ s with conn := s.conn.ioFailed tls s.conn.buffer }.invokeHandler task (some ec) default)
  | answered {tls expired : Bool} {completion : Completion Response} {task : Task} {rest : List Task}
      (dispatches : s.dispatches = true) (pc : s.processQueue = .reading tls expired)
      (tasks : s.tasks = task :: rest) (outcome : completion.ec = none) (notExpired : expired = false) :
      Transition B s (.complete completion)
        ({ s with conn := { s.conn with buffer := 0 } }.invokeHandler task none completion.response)
  | readFailed {tls expired : Bool} {completion : Completion Response} {task : Task}
      {rest : List Task} {ec : ErrorCode} (dispatches : s.dispatches = true)
      (pc : s.processQueue = .reading tls expired) (tasks : s.tasks = task :: rest)
      (outcome : completion.ec = some ec) :
      Transition B s (.complete completion)
        ({ s with conn := s.conn.ioFailed tls completion.leftover }.invokeHandler task (some ec)
          default)
  | callAdvanced {i : ℕ} {frame frame' : ConnectFrame} {completion : Completion Response}
      {conn : Connection} (dispatches : s.dispatches = true) (call : s.connects[i]? = some frame)
      (resumes : Resumes s.now s.conn frame completion (.suspended frame') conn) :
      Transition B s (.completeConnect i completion)
        { s with conn := conn, connects := s.connects.set i frame' }
  | callDone {i : ℕ} {frame : ConnectFrame} {completion : Completion Response}
      {ec : Option ErrorCode} {conn : Connection} (dispatches : s.dispatches = true)
      (call : s.connects[i]? = some frame)
      (resumes : Resumes s.now s.conn frame completion (.returned ec) conn) :
      Transition B s (.completeConnect i completion)
        { s with conn := conn, connects := s.connects.eraseIdx i }

variable {B : BoostUrl} {s t : State Response} {a : Action Response}

private theorem transition_request {url : String} (callable : s.callable = true) :
    Transition B s (.request url) (s.request B url) := by
  unfold request
  split
  · rename_i ec invalid
    exact .requestRefused callable invalid
  · rename_i endpoint valid
    dsimp only [record]
    split
    · rename_i processing
      exact .requestQueued callable valid processing
    · rename_i processing
      exact .requestSpawned callable valid (Bool.eq_false_iff.mpr processing)

private theorem transition_connect {url : String} {sni : Bool} (callable : s.callable = true) :
    Transition B s (.connect url sni) (s.callConnect B url sni) := by
  have connects := connects_connect B url sni s.conn
  unfold callConnect
  split
  · rename_i ec conn h
    rw [h] at connects
    exact .callReturned callable connects
  · rename_i frame conn h
    rw [h] at connects
    exact .callSuspended callable connects

private theorem transition_asyncWait {id : ℕ} (spawner : s.spawner = some id)
    (suspended : s.processQueue.suspended = true) :
    Transition B s .asyncWait (s.asyncWait id) := by
  unfold asyncWait
  split
  · rename_i h
    exact .handlerSet spawner suspended (by simpa using h)
  · rename_i h
    exact .handlerLost spawner suspended (by simpa using h)

private theorem transition_loopTop {sni : Bool} (pc : s.processQueue = .loopTop) :
    Transition B s (.resume sni) (s.loopTop B) := by
  unfold loopTop
  split
  · rename_i tasks
    exact .finished pc tasks
  · rename_i task rest tasks
    by_cases state : s.conn.connectionState = .connected
    · by_cases origin : B.originText s.conn.currentOrigin = B.encodedOrigin task.endpoint
      · simp only [state, origin, ne_eq, not_true_eq_false, if_false]
        exact .reused pc tasks state origin
      · -- `graceful_shutdown` is called when connected, so its own guard lets it pass
        cases tls : s.conn.isTls with
        | true =>
          simp only [state, origin, gracefulShutdown, tls, ne_eq, not_true_eq_false, not_false_eq_true,
            if_false, if_true]
          exact .shutdownTls pc tasks state origin tls
        | false =>
          simp only [state, origin, gracefulShutdown, tls, ne_eq, not_true_eq_false, not_false_eq_true,
            Bool.false_eq_true, if_false, if_true]
          exact .shutdownTcp pc tasks state origin tls
    · simp only [state, ne_eq, not_false_eq_true, if_true]
      exact .newConnection pc tasks state

private theorem transition_resume {sni : Bool} (h : s.resume B sni = some t) :
    Transition B s (.resume sni) t := by
  unfold resume at h
  split at h
  · rename_i pc
    cases h
    exact transition_loopTop pc
  · rename_i task rest pc tasks
    cases h
    have connects := connects_connect B (B.encodedOrigin task.endpoint) sni s.conn
    unfold afterConnect
    split
    · rename_i frame conn hr
      rw [hr] at connects
      exact .connectSuspended pc tasks connects
    · rename_i conn hr
      rw [hr] at connects
      exact absurd connects Connects.ne_success
    · rename_i ec conn hr
      rw [hr] at connects
      exact .connectRefused pc tasks connects
  · rename_i resumed task rest pc tasks
    cases h
    exact .popped pc tasks
  · cases h

private theorem transition_shutdown {completion : Completion Response}
    (dispatches : s.dispatches = true) (pc : s.processQueue = .shuttingDown)
    (h : (match s.conn.resumeShutdown completion.ec with
      | (.threw ec, conn) =>
        some ({ s with conn := conn, processQueue := .idle }.record (.shutdownThrew ec))
      | (_, conn) => some { s with conn := conn, processQueue := .connectNext }) = some t) :
    Transition B s (.complete completion) t := by
  unfold resumeShutdown at h
  cases outcome : completion.ec with
  | none =>
    simp only [outcome] at h
    cases h
    exact .shutdownReturned dispatches pc (Or.inl outcome)
  | some ec =>
    by_cases truncated : ec = .streamTruncated
    · subst truncated
      simp only [outcome, if_true] at h
      cases h
      exact .shutdownReturned dispatches pc (Or.inr outcome)
    · simp only [outcome, Option.some.injEq, truncated, if_false] at h
      cases h
      exact .shutdownThrew dispatches pc outcome truncated

private theorem transition_connecting {frame : ConnectFrame} {task : Task} {rest : List Task}
    {completion : Completion Response} (dispatches : s.dispatches = true)
    (pc : s.processQueue = .connecting frame) (tasks : s.tasks = task :: rest)
    (h : (s.conn.resumeConnect s.now frame completion).map (s.afterConnect task) = some t) :
    Transition B s (.complete completion) t := by
  obtain ⟨⟨result, conn⟩, hresume, rfl⟩ := Option.map_eq_some_iff.mp h
  have resumes := resumes_of_resumeConnect hresume
  match result, resumes with
  | .suspended frame', resumes => exact .connectAdvanced dispatches pc tasks resumes
  | .returned none, resumes => exact .connectSucceeded dispatches pc tasks resumes
  | .returned (some ec), resumes => exact .connectFailed dispatches pc tasks resumes

omit [Inhabited Response] in
/-- An operation that started on an expired stream has no success to report. -/
private theorem notExpired_of_succeeded {expired : Bool} {completion : Completion Response}
    (hallowed : ¬ (expired && completion.ec ≠ some .timeout) = true)
    (outcome : completion.ec = none) : expired = false := by
  cases expired <;> simp_all

private theorem transition_complete {completion : Completion Response}
    (dispatches : s.dispatches = true) (h : s.complete completion = some t) :
    Transition B s (.complete completion) t := by
  unfold complete at h
  split at h
  · rename_i pc
    exact transition_shutdown dispatches pc h
  · rename_i frame task rest pc tasks
    exact transition_connecting dispatches pc tasks h
  · rename_i tls expired task rest pc tasks
    obtain ⟨hallowed, h⟩ := Option.ite_none_left_eq_some.mp h
    split at h
    · rename_i ec outcome
      cases h
      exact .writeFailed dispatches pc tasks outcome
    · rename_i outcome
      cases h
      exact .written dispatches pc tasks outcome (notExpired_of_succeeded hallowed outcome)
  · rename_i tls expired task rest pc tasks
    obtain ⟨hallowed, h⟩ := Option.ite_none_left_eq_some.mp h
    split at h
    · rename_i ec outcome
      cases h
      exact .readFailed dispatches pc tasks outcome
    · rename_i outcome
      cases h
      exact .answered dispatches pc tasks outcome (notExpired_of_succeeded hallowed outcome)
  · cases h

private theorem transition_completeConnect {i : ℕ} {completion : Completion Response}
    (dispatches : s.dispatches = true) (h : s.completeConnect i completion = some t) :
    Transition B s (.completeConnect i completion) t := by
  unfold completeConnect at h
  split at h
  · cases h
  · rename_i frame call
    split at h
    · cases h
    · rename_i ec conn hresume
      cases h
      exact .callDone dispatches call (resumes_of_resumeConnect hresume)
    · rename_i frame' conn hresume
      cases h
      exact .callAdvanced dispatches call (resumes_of_resumeConnect hresume)

/-- The client takes no other steps. -/
theorem transition_of_step (h : step B s a = some t) : Transition B s a t := by
  cases a with
  | tick d =>
    cases h
    exact .tick d
  | request url =>
    obtain ⟨callable, ⟨⟩⟩ := Option.ite_none_right_eq_some.mp h
    exact transition_request callable
  | connect url sni =>
    obtain ⟨callable, ⟨⟩⟩ := Option.ite_none_right_eq_some.mp h
    exact transition_connect callable
  | asyncWait =>
    simp only [step] at h
    split at h
    · rename_i id spawner
      obtain ⟨suspended, ⟨⟩⟩ := Option.ite_none_right_eq_some.mp h
      exact transition_asyncWait spawner suspended
    · cases h
  | resume sni => exact transition_resume h
  | complete completion =>
    obtain ⟨dispatches, h⟩ := Option.ite_none_right_eq_some.mp h
    exact transition_complete dispatches h
  | completeConnect i completion =>
    obtain ⟨dispatches, h⟩ := Option.ite_none_right_eq_some.mp h
    exact transition_completeConnect dispatches h

/-! ## What a step records -/

omit [Inhabited Response] in
/-- A handler that runs, or is missing, is recorded by one event, which is no `sent`. -/
theorem invokeHandler_log (task : Task) (ec : Option ErrorCode) (response : Response) :
    ∃ e, (s.invokeHandler task ec response).log = s.log ++ [e] ∧
      ∀ task' conn now, e ≠ .sent task' conn now := by
  unfold invokeHandler
  split
  · exact ⟨.completed task.id ec response, rfl, by simp⟩
  · exact ⟨.badFunctionCall task.id, rfl, by simp⟩

/-- Failing records one event, which is no `sent`. -/
theorem fail_log (task : Task) (ec : ErrorCode) :
    ∃ e, (s.fail task ec).log = s.log ++ [e] ∧ ∀ task' conn now, e ≠ .sent task' conn now := by
  unfold fail
  split
  · exact ⟨.completed task.id (some ec) default, rfl, by simp⟩
  · exact ⟨.failedWithoutHandler task.id, rfl, by simp⟩

/-- A step that records a `sent` calls `send`: it ends with the current task being written on the
connection of the record. -/
theorem sent_of_step {task : Task} {conn : Connection} {now : ℕ} (hstep : step B s a = some t)
    (hmem : .sent task conn now ∈ t.log) :
    .sent task conn now ∈ s.log ∨ conn = t.conn ∧ now = t.now ∧
      (∃ tls expired, t.processQueue = .writing tls expired) ∧ ∃ rest, t.tasks = task :: rest := by
  have hsilent : ∀ {more : List (Event Response)}, t.log = s.log ++ more →
      .sent task conn now ∉ more → .sent task conn now ∈ s.log := by
    intro more hlog hmore
    rw [hlog] at hmem
    exact (List.mem_append.mp hmem).resolve_right hmore
  have hone : (∃ e, t.log = s.log ++ [e] ∧ ∀ task' conn now, e ≠ .sent task' conn now) →
      .sent task conn now ∈ s.log := by
    rintro ⟨e, hlog, he⟩
    refine hsilent hlog fun hmore => he task conn now ?_
    exact (List.mem_singleton.mp hmore).symm
  have hsend : ∀ {task' rest conn'}, s.tasks = task' :: rest →
      t = { s with conn := conn' }.send task' → .sent task conn now ∈ s.log ∨ conn = t.conn ∧
        now = t.now ∧ (∃ tls expired, t.processQueue = .writing tls expired) ∧
          ∃ rest, t.tasks = task :: rest := by
    rintro task' rest conn' htasks rfl
    rcases List.mem_append.mp hmem with hold | hnew
    · exact Or.inl hold
    · rw [List.mem_singleton, Event.sent.injEq] at hnew
      obtain ⟨rfl, rfl, rfl⟩ := hnew
      exact Or.inr ⟨rfl, rfl, ⟨_, _, rfl⟩, rest, htasks⟩
  cases transition_of_step hstep with
  | reused _ tasks => exact hsend tasks rfl
  | connectSucceeded _ _ tasks => exact hsend tasks rfl
  | requestQueued | requestSpawned | handlerLost | shutdownThrew =>
    exact Or.inl (hsilent rfl (by simp))
  | connectRefused | connectFailed => exact Or.inl (hone (fail_log _ _))
  | writeFailed | answered | readFailed => exact Or.inl (hone (invokeHandler_log _ _ _))
  | tick | requestRefused | callReturned | callSuspended | handlerSet | finished | newConnection
  | shutdownTls | shutdownTcp | connectSuspended | popped | shutdownReturned | connectAdvanced
  | written | callAdvanced | callDone => exact Or.inl hmem

end State

end MacdTradingBot
