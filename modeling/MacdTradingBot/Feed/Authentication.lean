import MacdTradingBot.Feed.Frames
import MacdTradingBot.WebSocket.Starting
import MacdTradingBot.WebSocket.Writing

/-!
# Authentication before subscription

A subscription message belongs on a connection after an "authenticated" message has been received and
processed on it. The feed keeps `_authenticated` when the connection is lost, and the session keeps its
queue; `authenticatedFirst_iff` says which steps break the order.
-/

namespace MacdTradingBot

/-- The messages of the feed are read as they are written. -/
structure Nlohmann.Lawful (json : Nlohmann) : Prop where
  parse_auth : ∀ config text, json.dump (AlpacaWSMarketFeed.authMessage config) = some text →
    json.parse text = some (AlpacaWSMarketFeed.authMessage config)
  parse_subscribe : ∀ symbols text, json.dump (AlpacaWSMarketFeed.subscribeMessage symbols) = some text →
    json.parse text = some (AlpacaWSMarketFeed.subscribeMessage symbols)

namespace AlpacaWSMarketFeed

open WebSocketSession (firstSend starts nextWrite nextKept callWrite)

variable {ω : Type} {setting : Setting ω} {feed feed₀ : AlpacaWSMarketFeed ω}

/-- The text is a subscription message. -/
def IsSubscription (json : Nlohmann) (text : Bytes) : Prop :=
  ∃ symbols, json.dump (subscribeMessage symbols) = some text

/-- An authentication is no subscription: both are read as they were written. -/
theorem not_isSubscription_of_auth {json : Nlohmann} (hlaw : json.Lawful) {config : Config} {text : Bytes}
    (h : json.dump (authMessage config) = some text) : ¬ IsSubscription json text := by
  rintro ⟨symbols, hsubscribe⟩
  have hauth := hlaw.parse_auth config text h
  rw [hlaw.parse_subscribe symbols text hsubscribe] at hauth
  simp [authMessage, subscribeMessage] at hauth

/-! ## What a frame sends -/

/-- The first message that throws, reads a missing member or is answered is an "authenticated" one, and
its answer is written. -/
def SubscribesFirst (setting : Setting ω) (feed : AlpacaWSMarketFeed ω) : List Json → Prop
  | [] => False
  | message :: messages =>
    (kind message = .authenticated ∧ (reply setting feed message).isSome ∧ ¬ Throws setting feed message) ∨
      (reply setting feed message = none ∧ ¬ Throws setting feed message ∧ ¬ ReadsMissing message ∧
        SubscribesFirst setting feed messages)

/-- To "authenticated" the feed replies with the subscription. -/
theorem reply_of_authenticated {message answer : Json} (hkind : kind message = .authenticated)
    (h : reply setting feed message = some answer) : answer = subscribeMessage feed.subscribedSymbols := by
  unfold reply at h
  rw [hkind] at h
  split at h
  · dsimp only at h
    split at h
    · exact (Option.some.inj h).symm
    · cases h
  · cases h

/-- Only "connected" and "authenticated" messages are answered. -/
theorem reply_cases {message answer : Json} (h : reply setting feed message = some answer) :
    kind message = .connected ∧ answer = authMessage setting.config ∨
      kind message = .authenticated ∧ answer = subscribeMessage feed.subscribedSymbols := by
  cases hkind : kind message with
  | authenticated => exact Or.inr ⟨rfl, reply_of_authenticated hkind h⟩
  | connected =>
    left
    unfold reply at h
    rw [hkind] at h
    split at h
    · exact ⟨rfl, (Option.some.inj h).symm⟩
    · cases h
  | ignored | malformed | bar => simp [reply, hkind] at h

/-- Outputs are handed to the session in order. -/
theorem calls_append (os os' : List Output) : calls (os ++ os') = calls os ++ calls os' :=
  List.filterMap_append

/-- One message asks for the sending of its reply. -/
theorem calls_outputsOf (message : Json) : calls (outputsOf setting feed message)
    = ((reply setting feed message).bind setting.json.dump).toList.map .send := by
  unfold outputsOf
  cases hkind : kind message with
  | bar =>
    rw [reply_of_bar hkind]
    cases readBar setting.json message <;> rfl
  | ignored | malformed | connected | authenticated =>
    dsimp only
    cases (reply setting feed message).bind setting.json.dump <;> rfl

/-- The first message that a frame makes the feed send is a subscription message exactly when the frame
subscribes first. -/
theorem firstSend_isSubscription_iff (hlaw : setting.json.Lawful) (messages : List Json)
    (halike : Alike feed₀ feed) :
    (∃ text, firstSend (calls (Effect.forEach (handleMessage setting) messages feed).outputs) = some text ∧
        IsSubscription setting.json text) ↔
      SubscribesFirst setting feed₀ messages := by
  have huniform := handleMessage_uniform setting feed₀
  induction messages generalizing feed with
  | nil => simp [Effect.forEach, calls, firstSend, SubscribesFirst]
  | cons message messages ih =>
    rw [huniform.forEach_outputs_cons halike, calls_append, calls_outputsOf, SubscribesFirst]
    have hfault : (faultOf setting feed₀ message).isSome ↔ _ := faultOf_isSome_iff
    have hrest := ih (huniform.keeps message feed halike)
    cases hreply : reply setting feed₀ message with
    | none =>
      simp only [Option.bind_none, Option.toList_none, List.map_nil, List.nil_append]
      -- without an answer the message decides only whether the frame ends here
      by_cases hf : (faultOf setting feed₀ message).isSome = true
      · rw [if_pos hf]
        rw [hfault] at hf
        rcases hf with hthrows | hmissing
        · simp [calls, firstSend, hthrows]
        · simp [calls, firstSend, hmissing]
      · rw [if_neg hf]
        rw [hfault, not_or] at hf
        refine hrest.trans ?_
        simp [hf]
    | some answer =>
      have hreads : ¬ ReadsMissing message := by
        intro hmissing
        rw [reply_of_bar hmissing.1] at hreply
        cases hreply
      cases hdump : setting.json.dump answer with
      | none =>
        -- an answer that cannot be printed ends the frame
        have hthrows : Throws setting feed₀ message := Or.inr ⟨answer, hreply, hdump⟩
        simp [hfault.mpr (Or.inl hthrows), hthrows, calls, firstSend, hdump]
      | some text =>
        have hthrows : ¬ Throws setting feed₀ message := by
          rintro (hmalformed | ⟨answer', hreply', hdump'⟩)
          · rw [reply_of_malformed hmalformed] at hreply
            cases hreply
          · rw [hreply, Option.some.injEq] at hreply'
            rw [← hreply', hdump] at hdump'
            cases hdump'
        simp only [Option.bind_some, hdump, Option.toList_some, List.map_cons, List.map_nil,
          List.singleton_append, firstSend, Option.some.injEq, exists_eq_left', Option.isSome_some,
          hthrows, not_false_eq_true, true_and, and_true, reduceCtorEq, false_and, or_false]
        -- this answer is the first message, whatever follows
        rcases reply_cases hreply with ⟨hkind, rfl⟩ | ⟨hkind, rfl⟩
        · simp [hkind, not_isSubscription_of_auth hlaw hdump]
        · simp only [hkind, iff_true]
          exact ⟨_, hdump⟩

/-! ## What a frame leaves -/

/-- What handling a frame, which leaves `feed` and puts out `os`, may do to the record of authenticated
connections: add the connection of the frame, and it does when a subscription message is sent. -/
structure Marked (json : Nlohmann) (feed₀ : AlpacaWSMarketFeed ω) (os : List Output)
    (feed : AlpacaWSMarketFeed ω) : Prop where
  receivedOn : feed.receivedOn = feed₀.receivedOn
  wsSession : feed.wsSession = feed₀.wsSession
  keeps : ∀ c ∈ feed₀.authenticatedOn, c ∈ feed.authenticatedOn
  only : ∀ c ∈ feed.authenticatedOn, c ∈ feed₀.authenticatedOn ∨ c = feed₀.receivedOn
  marked : ∀ text, .sent text ∈ os → IsSubscription json text → feed₀.receivedOn ∈ feed.authenticatedOn

/-- Nothing has been put out, and nothing changed. -/
theorem Marked.refl (json : Nlohmann) (feed : AlpacaWSMarketFeed ω) : Marked json feed [] feed :=
  ⟨rfl, rfl, fun _ hc => hc, fun _ hc => Or.inl hc, fun _ hmem => (nomatch hmem)⟩

/-- Commands that send no subscription message and process no "authenticated" message. -/
theorem Marked.of_eq {json : Nlohmann} {os more : List Output} {feed' : AlpacaWSMarketFeed ω}
    (h : Marked json feed₀ os feed) (hreceived : feed'.receivedOn = feed.receivedOn)
    (hsession : feed'.wsSession = feed.wsSession)
    (hauthenticated : feed'.authenticatedOn = feed.authenticatedOn)
    (hmore : ∀ text, .sent text ∈ more → ¬ IsSubscription json text) :
    Marked json feed₀ (os ++ more) feed' where
  receivedOn := hreceived.trans h.receivedOn
  wsSession := hsession.trans h.wsSession
  keeps := by rw [hauthenticated]; exact h.keeps
  only := by rw [hauthenticated]; exact h.only
  marked := by
    intro text hmem htext
    rw [hauthenticated]
    rcases List.mem_append.mp hmem with hmem | hmem
    · exact h.marked text hmem htext
    · exact absurd htext (hmore text hmem)

/-- An "authenticated" message is processed: the connection is marked. -/
theorem Marked.authenticated {json : Nlohmann} {os more : List Output} {feed' : AlpacaWSMarketFeed ω}
    (h : Marked json feed₀ os feed) (hreceived : feed'.receivedOn = feed.receivedOn)
    (hsession : feed'.wsSession = feed.wsSession)
    (hauthenticated : feed'.authenticatedOn = feed.authenticatedOn ++ [feed.receivedOn]) :
    Marked json feed₀ (os ++ more) feed' := by
  have hmark : feed₀.receivedOn ∈ feed'.authenticatedOn := by
    rw [hauthenticated, h.receivedOn]
    exact List.mem_append_right _ List.mem_cons_self
  refine ⟨hreceived.trans h.receivedOn, hsession.trans h.wsSession, ?_, ?_, fun _ _ _ => hmark⟩
  · intro c hc
    rw [hauthenticated]
    exact List.mem_append_left _ (h.keeps c hc)
  · intro c hc
    rw [hauthenticated, h.receivedOn] at hc
    rcases List.mem_append.mp hc with hc | hc
    · exact h.only c hc
    · exact Or.inr (List.mem_singleton.mp hc)

/-- Each message adds its reply. -/
theorem Marked.handleMessage (hlaw : setting.json.Lawful) {os : List Output}
    (h : Marked setting.json feed₀ os feed) (message : Json) :
    Marked setting.json feed₀ (os ++ (handleMessage setting message feed).outputs)
      (handleMessage setting message feed).state := by
  rw [handleMessage_of_kind]
  cases hkind : kind message with
  | ignored | malformed => exact h.of_eq rfl rfl rfl fun _ hmem => (nomatch hmem)
  | connected =>
    dsimp only
    unfold sendAuthMessage
    split
    · rw [sendDump_cases]
      refine h.of_eq rfl rfl rfl fun text hmem => ?_
      have hdump : setting.json.dump (authMessage setting.config) = some text := by
        simpa [Option.mem_toList] using hmem
      exact not_isSubscription_of_auth hlaw hdump
    · exact h.of_eq rfl rfl rfl fun _ hmem => (nomatch hmem)
  | authenticated =>
    dsimp only
    split
    · rw [sendSubscriptionMessage_cases]
      split
      · exact h.authenticated rfl rfl rfl
      · exact h.authenticated rfl rfl rfl
    · exact h.authenticated rfl rfl rfl
  | bar =>
    dsimp only
    cases hread : readBar setting.json message with
    | ok bar =>
      rw [parseBarMessage_of_ok _ _ _ hread]
      exact h.of_eq rfl rfl rfl fun text hmem => by simp at hmem
    | error f =>
      rw [parseBarMessage_of_error _ _ _ hread]
      exact h.of_eq rfl rfl rfl fun _ hmem => (nomatch hmem)

/-- A frame is handled message by message. -/
theorem Marked.onWebsocketFrame (hlaw : setting.json.Lawful) (frame : Bytes)
    (feed : AlpacaWSMarketFeed ω) : Marked setting.json feed (onWebsocketFrame setting frame feed).outputs
      (onWebsocketFrame setting frame feed).state := by
  by_cases harray : ∃ messages, setting.json.parse frame = some (.array messages)
  · obtain ⟨messages, harray⟩ := harray
    rw [onWebsocketFrame_of_array harray]
    exact Effect.forEach_invariant (Marked setting.json feed)
      (fun message _ _ _ hmarked => hmarked.handleMessage hlaw message) (Marked.refl setting.json feed)
  · rw [onWebsocketFrame_of_not_array fun messages hparse => harray ⟨messages, hparse⟩]
    exact Marked.refl setting.json feed

/-! ## Steps -/

/-- Every subscription message was written on a connection with a processed "authenticated" message. -/
def AuthenticatedFirst (setting : Setting ω) (s : WebSocketSession (AlpacaWSMarketFeed ω)) : Prop :=
  ∀ write ∈ s.starts, IsSubscription setting.json write.2 → write.1 ∈ s.handlerState.authenticatedOn

/-- A subscription call that is written at once, on a connection that is not authenticated. -/
def CallsEarly (setting : Setting ω) (s : WebSocketSession (AlpacaWSMarketFeed ω))
    (symbols : List String) : Prop :=
  s.connected = true ∧ s.writeQueue = [] ∧ s.connection ∉ s.handlerState.authenticatedOn ∧
    s.handlerState.authenticated = true ∧ (setting.json.dump (subscribeMessage symbols)).isSome

/-- The step starts to write a subscription message on a connection that is not authenticated: a
subscription call under an old `_authenticated`; a new connection with a subscription message at the front
of the queue; the end of a write with one after it; or a frame of an earlier connection. -/
def SubscribesEarly (setting : Setting ω) (s : WebSocketSession (AlpacaWSMarketFeed ω)) : Action → Prop
  | .subscribeToBars symbols => CallsEarly setting s symbols
  | .subscribeToAllBars => CallsEarly setting s ["*"]
  | .stop _ | .wake => False
  | .complete operation outcome => outcome.ec = false ∧
    match operation with
    | .handshake _ _ =>
      ∃ text, s.writeQueue.head? = some text ∧ IsSubscription setting.json text
    | .write _ _ =>
      s.connected = true ∧ s.connection ∉ s.handlerState.authenticatedOn ∧
        ∃ text, s.writeQueue.tail.head? = some text ∧ IsSubscription setting.json text
    | .read connection =>
      s.connected = true ∧ s.writeQueue = [] ∧ s.connection ∉ s.handlerState.authenticatedOn ∧
        connection ≠ s.connection ∧
          ∃ messages, setting.json.parse (s.buffer ++ outcome.bytes) = some (.array messages) ∧
            SubscribesFirst setting s.handlerState messages
    | _ => False

/-- The order so far; connections are authenticated, and read from, only once they are open. -/
structure Ordered (setting : Setting ω) (s : WebSocketSession (AlpacaWSMarketFeed ω)) : Prop where
  first : AuthenticatedFirst setting s
  wsSession : s.handlerState.wsSession = true
  opened : ∀ c ∈ s.handlerState.authenticatedOn, c ≤ s.connection
  reads : ∀ c, .read c ∈ s.operations → c ≤ s.connection

variable {s t : WebSocketSession (AlpacaWSMarketFeed ω)} {a : Action}

/-- A subscription call sends only on an authenticated feed. -/
theorem subscribeToBars_calls (hsession : feed.wsSession = true) (symbols : List String) :
    calls (subscribeToBars setting symbols feed).outputs = if feed.authenticated then
      (setting.json.dump (subscribeMessage symbols)).toList.map .send else [] := by
  unfold subscribeToBars
  cases feed.authenticated with
  | false => simp [calls]
  | true =>
    simp only [hsession, Bool.and_self, if_true, sendSubscriptionMessage_cases, sendDump_cases]
    cases setting.json.dump (subscribeMessage symbols) <;> rfl

/-- A subscription call does not change what has been authenticated. -/
theorem subscribeToBars_state (setting : Setting ω) (feed : AlpacaWSMarketFeed ω)
    (symbols : List String) :
    (subscribeToBars setting symbols feed).state.authenticatedOn = feed.authenticatedOn ∧
      (subscribeToBars setting symbols feed).state.wsSession = feed.wsSession := by
  unfold subscribeToBars
  dsimp only
  split
  · rw [sendSubscriptionMessage_cases]
    split <;> exact ⟨rfl, rfl⟩
  · exact ⟨rfl, rfl⟩

/-- A step of the feed is a step of its session. -/
theorem step_session (hstep : step setting s a = some t) : WebSocketSession.step
    (sessionConfig setting.config) (frameHandler setting) s (a.onSession setting) = some t := by
  unfold step at hstep
  split at hstep
  · cases hstep
  · exact hstep

/-- The session of the feed has no greeting. -/
theorem greeting_sessionConfig (config : Config) :
    WebSocketSession.greeting (sessionConfig config) = [] := rfl

/-- What a step leaves of the record of authenticated connections. -/
theorem authenticatedOn_of_step (hlaw : setting.json.Lawful) (hstep : step setting s a = some t) :
    t.handlerState.wsSession = s.handlerState.wsSession ∧
      (∀ c ∈ s.handlerState.authenticatedOn, c ∈ t.handlerState.authenticatedOn) ∧
      ∀ c ∈ t.handlerState.authenticatedOn,
        c ∈ s.handlerState.authenticatedOn ∨ .read c ∈ s.operations := by
  have hsession := step_session hstep
  rw [WebSocketSession.handlerState_of_step hsession]
  have hcall : ∀ symbols, ((subscribeToBars setting symbols s.handlerState).perform.2.wsSession
        = s.handlerState.wsSession) ∧
      (∀ c ∈ s.handlerState.authenticatedOn,
        c ∈ (subscribeToBars setting symbols s.handlerState).perform.2.authenticatedOn) ∧
      ∀ c ∈ (subscribeToBars setting symbols s.handlerState).perform.2.authenticatedOn,
        c ∈ s.handlerState.authenticatedOn ∨ .read c ∈ s.operations := by
    intro symbols
    obtain ⟨hauthenticated, hset⟩ := subscribeToBars_state setting s.handlerState symbols
    refine ⟨hset, fun c hc => ?_, fun c hc => Or.inl ?_⟩
    · exact hauthenticated.symm ▸ hc
    · exact hauthenticated ▸ hc
  cases a with
  | subscribeToBars symbols => exact hcall symbols
  | subscribeToAllBars => exact hcall ["*"]
  | stop isOpen | wake => exact ⟨rfl, fun _ hc => hc, fun _ hc => Or.inl hc⟩
  | complete operation outcome =>
    cases operation with
    | read connection =>
      simp only [Action.onSession, nextKept]
      split
      · exact ⟨rfl, fun _ hc => hc, fun _ hc => Or.inl hc⟩
      · have hmem : .read connection ∈ s.operations := WebSocketSession.mem_of_complete hsession
        -- a frame marks no connection but the one that it was read from
        have hmarked := Marked.onWebsocketFrame hlaw (s.buffer ++ outcome.bytes)
          { s.handlerState with receivedOn := connection }
        refine ⟨hmarked.wsSession, hmarked.keeps, fun c hc => ?_⟩
        rcases hmarked.only c hc with hc | rfl
        · exact Or.inl hc
        · exact Or.inr hmem
    | _ => exact ⟨rfl, fun _ hc => hc, fun _ hc => Or.inl hc⟩

/-- The subscription calls, as steps of the session. -/
theorem callsEarly_iff (hsession : s.handlerState.wsSession = true) (symbols : List String) :
    CallsEarly setting s symbols ↔ ∃ write,
      s.callWrite (subscribeToBars setting symbols s.handlerState).perform.1 = some write ∧
        IsSubscription setting.json write.2 ∧ write.1 ∉ s.handlerState.authenticatedOn := by
  have hcalls : (subscribeToBars setting symbols s.handlerState).perform.1 = _ :=
    subscribeToBars_calls hsession symbols
  rw [hcalls, CallsEarly]
  constructor
  · rintro ⟨hconnected, hqueue, hnot, hauthenticated, hdump⟩
    obtain ⟨text, htext⟩ := Option.isSome_iff_exists.mp hdump
    refine ⟨(s.connection, text), ?_, ⟨symbols, htext⟩, hnot⟩
    simp [callWrite, hconnected, hqueue, hauthenticated, htext, firstSend]
  · rintro ⟨write, hwrite, htext, hnot⟩
    unfold callWrite at hwrite
    split at hwrite
    · rename_i hopen
      obtain ⟨text, hfirst, rfl⟩ := Option.map_eq_some_iff.mp hwrite
      refine ⟨hopen.1, hopen.2, hnot, ?_⟩
      cases hauthenticated : s.handlerState.authenticated with
      | false => simp [hauthenticated, firstSend] at hfirst
      | true =>
        cases hdump : setting.json.dump (subscribeMessage symbols) with
        | none => simp [hauthenticated, hdump, firstSend] at hfirst
        | some sent => exact ⟨rfl, rfl⟩
    · cases hwrite

/-- What is sent first has been put out. -/
theorem sent_of_firstSend {os : List Output} {text : Bytes} (h : firstSend (calls os) = some text) :
    .sent text ∈ os := by
  induction os with
  | nil => cases h
  | cons output os ih =>
    cases output with
    | bar b => exact List.mem_cons_of_mem _ (ih h)
    | sent sent =>
      obtain rfl : sent = text := Option.some.inj h
      exact List.mem_cons_self

/-- The frames, as steps of the session. -/
theorem frameSubscribesEarly_iff (hlaw : setting.json.Lawful) {connection : ℕ}
    {outcome : WebSocketSession.Outcome} (hec : outcome.ec = false)
    (hkept : t.handlerState
      = s.nextKept (frameHandler setting) (.complete (.read connection) outcome)) :
    SubscribesEarly setting s (.complete (.read connection) outcome) ↔ ∃ write,
      s.nextWrite (frameHandler setting) (.complete (.read connection) outcome) = some write ∧
        IsSubscription setting.json write.2 ∧ write.1 ∉ t.handlerState.authenticatedOn := by
  have hmarked := Marked.onWebsocketFrame hlaw (s.buffer ++ outcome.bytes)
    { s.handlerState with receivedOn := connection }
  have halike : Alike s.handlerState { s.handlerState with receivedOn := connection } := ⟨rfl, rfl⟩
  have hauthenticated : t.handlerState.authenticatedOn = (onWebsocketFrame setting
      (s.buffer ++ outcome.bytes) { s.handlerState with receivedOn := connection }).state.authenticatedOn := by
    rw [hkept]
    simp only [nextKept, hec, Bool.false_eq_true, if_false]
    rfl
  have hwrite : s.nextWrite (frameHandler setting) (.complete (.read connection) outcome)
      = s.callWrite (calls (onWebsocketFrame setting (s.buffer ++ outcome.bytes)
        { s.handlerState with receivedOn := connection }).outputs) := by
    simp only [nextWrite, hec, Bool.false_eq_true, if_false]
    rfl
  rw [hwrite, hauthenticated]
  simp only [SubscribesEarly, hec, true_and]
  constructor
  · rintro ⟨hconnected, hqueue, hnot, hother, messages, harray, hsubscribes⟩
    obtain ⟨text, hfirst, htext⟩ := (firstSend_isSubscription_iff hlaw messages halike).mpr hsubscribes
    refine ⟨(s.connection, text), ?_, htext, fun hmem => ?_⟩
    · rw [onWebsocketFrame_of_array harray, Effect.catching_outputs, callWrite,
        if_pos ⟨hconnected, hqueue⟩, hfirst]
      rfl
    · rcases hmarked.only _ hmem with hmem | hsame
      · exact hnot hmem
      · exact hother hsame.symm
  · rintro ⟨write, hcall, htext, hnot⟩
    unfold callWrite at hcall
    split at hcall
    · rename_i hopen
      obtain ⟨text, hfirst, rfl⟩ := Option.map_eq_some_iff.mp hcall
      -- the frame marks its own connection, so the write goes to another one
      have hmark := hmarked.marked text (sent_of_firstSend hfirst) htext
      refine ⟨hopen.1, hopen.2, fun hmem => hnot (hmarked.keeps _ hmem), ?_, ?_⟩
      · rintro rfl
        exact hnot hmark
      · by_cases harray : ∃ messages, setting.json.parse (s.buffer ++ outcome.bytes) = some (.array messages)
        · obtain ⟨messages, harray⟩ := harray
          refine ⟨messages, harray, ?_⟩
          rw [onWebsocketFrame_of_array harray] at hfirst
          exact (firstSend_isSubscription_iff hlaw messages halike).mp ⟨text, hfirst, htext⟩
        · rw [onWebsocketFrame_of_not_array fun messages hparse => harray ⟨messages, hparse⟩] at hfirst
          cases hfirst
    · cases hcall

/-- A step subscribes early exactly when it starts to write a subscription message on a connection that is
not authenticated after the step. -/
theorem subscribesEarly_iff (hlaw : setting.json.Lawful) (h : Ordered setting s)
    (hstep : step setting s a = some t) : SubscribesEarly setting s a ↔ ∃ write,
      s.nextWrite (frameHandler setting) (a.onSession setting) = some write ∧
        IsSubscription setting.json write.2 ∧ write.1 ∉ t.handlerState.authenticatedOn := by
  have hkept := WebSocketSession.handlerState_of_step (step_session hstep)
  have hcall : ∀ symbols, t.handlerState = (subscribeToBars setting symbols s.handlerState).perform.2 →
      t.handlerState.authenticatedOn = s.handlerState.authenticatedOn := by
    intro symbols ht
    rw [ht]
    exact (subscribeToBars_state setting s.handlerState symbols).1
  cases a with
  | subscribeToBars symbols =>
    rw [hcall symbols hkept]
    exact callsEarly_iff h.wsSession symbols
  | subscribeToAllBars =>
    rw [hcall ["*"] hkept]
    exact callsEarly_iff h.wsSession ["*"]
  | stop isOpen =>
    simp [SubscribesEarly, Action.onSession, nextWrite, callWrite, firstSend]
  | wake => simp [SubscribesEarly, Action.onSession, nextWrite]
  | complete operation outcome =>
    cases hec : outcome.ec with
    | true => simp [SubscribesEarly, Action.onSession, nextWrite, hec]
    | false =>
      cases operation with
      | handshake hostPort endpoint =>
        -- the number of the new connection is not among the marked ones
        have hnew : s.connection + 1 ∉ t.handlerState.authenticatedOn := by
          intro hmem
          rw [hkept] at hmem
          have hle := h.opened _ hmem
          omega
        simp only [SubscribesEarly, Action.onSession, nextWrite, hec, true_and, Bool.false_eq_true,
          if_false, Option.map_eq_some_iff]
        constructor
        · rintro ⟨text, hqueue, htext⟩
          exact ⟨_, ⟨text, hqueue, rfl⟩, htext, hnew⟩
        · rintro ⟨write, ⟨text, hqueue, rfl⟩, htext, -⟩
          exact ⟨text, hqueue, htext⟩
      | write connection text =>
        rw [show t.handlerState = s.handlerState from hkept]
        simp only [SubscribesEarly, Action.onSession, nextWrite, hec, true_and, Bool.false_eq_true,
          if_false]
        constructor
        · rintro ⟨hconnected, hnot, next, hqueue, htext⟩
          refine ⟨(s.connection, next), ?_, htext, hnot⟩
          rw [if_pos hconnected, hqueue]
          rfl
        · rintro ⟨write, hwrite, htext, hnot⟩
          split at hwrite
          · rename_i hconnected
            obtain ⟨next, hqueue, rfl⟩ := Option.map_eq_some_iff.mp hwrite
            exact ⟨hconnected, hnot, next, hqueue, htext⟩
          · cases hwrite
      | read connection => exact frameSubscribesEarly_iff hlaw hec hkept
      | _ => simp [SubscribesEarly, Action.onSession, nextWrite]

/-- A step that does not subscribe early keeps the order. -/
theorem Ordered.step (hlaw : setting.json.Lawful) (h : Ordered setting s)
    (hgood : ¬ SubscribesEarly setting s a) (hstep : step setting s a = some t) : Ordered setting t := by
  obtain ⟨hset, hkeeps, honly⟩ := authenticatedOn_of_step hlaw hstep
  have hsession := step_session hstep
  have hconnection := WebSocketSession.connection_le_of_step hsession
  refine ⟨?_, hset.trans h.wsSession, ?_, ?_⟩
  · intro write hwrite htext
    rw [WebSocketSession.starts_of_step (greeting_sessionConfig _) hsession, List.mem_append] at hwrite
    rcases hwrite with hwrite | hnext
    · exact hkeeps _ (h.first write hwrite htext)
    · by_contra hnot
      exact hgood ((subscribesEarly_iff hlaw h hstep).mpr ⟨write, Option.mem_toList.mp hnext, htext, hnot⟩)
  · intro c hc
    rcases honly c hc with hc | hread
    · exact (h.opened c hc).trans hconnection
    · exact (h.reads c hread).trans hconnection
  · intro c hread
    rcases WebSocketSession.read_mem_of_step c hsession hread with hread | rfl
    · exact (h.reads c hread).trans hconnection
    · exact le_rfl

/-- A subscription that is early comes before the authentication. -/
theorem not_authenticatedFirst_of_early (hlaw : setting.json.Lawful) (h : Ordered setting s)
    (hearly : SubscribesEarly setting s a) (hstep : AlpacaWSMarketFeed.step setting s a = some t) :
    ¬ AuthenticatedFirst setting t := by
  obtain ⟨write, hwrite, htext, hnot⟩ := (subscribesEarly_iff hlaw h hstep).mp hearly
  intro hfirst
  apply hnot
  apply hfirst write _ htext
  rw [WebSocketSession.starts_of_step (greeting_sessionConfig _) (step_session hstep), hwrite]
  exact List.mem_append_right _ List.mem_cons_self

/-- A new feed has sent nothing. -/
theorem ordered_start (setting : Setting ω) (symbols : List String) (world : ω) :
    Ordered setting (start setting { subscribedSymbols := symbols, world := world }) := by
  refine ⟨fun write hwrite => ?_, rfl, fun c hc => (nomatch hc), fun c hread => ?_⟩
  · rw [start, WebSocketSession.start_starts] at hwrite
    cases hwrite
  · rw [start, WebSocketSession.start_read_mem] at hread
    cases hread

/-- Over every run, with any number of connections: subscription messages are written only on connections
with a processed "authenticated" message, if and only if no step subscribes early. -/
theorem authenticatedFirst_iff (hlaw : setting.json.Lawful) {symbols : List String} {world : ω}
    {as : List Action} (h : Run setting symbols world as s) :
    Runs.Along (step setting) (AuthenticatedFirst setting)
        (start setting { subscribedSymbols := symbols, world := world }) as ↔
      Runs.StepsMeet (step setting) (fun u a => ¬ SubscribesEarly setting u a)
        (start setting { subscribedSymbols := symbols, world := world }) as := by
  refine Runs.along_iff_stepsMeet (Ordered setting) (ordered_start setting symbols world)
    (fun u hu => hu.first) ?_ ?_ h
  · intro u a v hu hgood hstep
    exact hu.step hlaw hgood hstep
  · intro u a v hu hbad hstep
    exact not_authenticatedFirst_of_early hlaw hu (not_not.mp hbad) hstep

/-! ## A reconnect -/

def authText : Bytes := bytes "\x7b\"action\":\"auth\",\"key\":\"k\",\"secret\":\"s\"\x7d"

def subscribeText : Bytes := bytes "\x7b\"action\":\"subscribe\",\"bars\":[\"AAPL\"]\x7d"

def connectedFrame : Bytes := bytes "[\x7b\"T\":\"success\",\"msg\":\"connected\"\x7d]"

def authenticatedFrame : Bytes := bytes "[\x7b\"T\":\"success\",\"msg\":\"authenticated\"\x7d]"

def successMessage (msg : String) : Json := .object [("T", .string "success"), ("msg", .string msg)]

def keyConfig : Config := { apiKey := "k", apiSecret := "s" }

/-- A library that reads and writes these texts. -/
def exampleMessages : Nlohmann where
  parse := fun text =>
    [(authText, authMessage keyConfig), (subscribeText, subscribeMessage ["AAPL"]),
      (connectedFrame, .array [successMessage "connected"]),
      (authenticatedFrame, .array [successMessage "authenticated"])].lookup text
  dump
    | .object [("action", .string "auth"), ("key", .string key), ("secret", .string secret)] =>
      if key = "k" ∧ secret = "s" then some authText else none
    | .object [("action", .string "subscribe"), ("bars", .array [.string symbol])] =>
      if symbol = "AAPL" then some subscribeText else none
    | _ => none
  castOutOfRange := fun _ => 0

/-- The texts are read as they were written. -/
theorem exampleMessages_lawful : exampleMessages.Lawful := by
  constructor
  · intro config text h
    by_cases hkey : config.apiKey = "k" ∧ config.apiSecret = "s"
    · have hconfig : authMessage config = authMessage keyConfig := by
        simp [authMessage, keyConfig, hkey]
      rw [hconfig] at h ⊢
      obtain rfl : authText = text := Option.some.inj h
      rfl
    · simp [exampleMessages, authMessage, hkey] at h
  · intro symbols text h
    match symbols with
    | [] => simp [exampleMessages, subscribeMessage] at h
    | [symbol] =>
      by_cases hsymbol : symbol = "AAPL"
      · subst hsymbol
        obtain rfl : subscribeText = text := Option.some.inj h
        rfl
      · simp [exampleMessages, subscribeMessage, hsymbol] at h
    | _ :: _ :: _ => simp [exampleMessages, subscribeMessage] at h

def messageSetting : Setting Unit :=
  { json := exampleMessages, config := keyConfig, slots := Subscriber.ignore }

/-- The four stages of one connection. -/
def connecting : List Action :=
  [.complete (.resolve "stream.data.alpaca.markets" "443") {}, .complete .connect {},
    .complete .sslHandshake {}, .complete (.handshake "stream.data.alpaca.markets:443" "/v2/test") {}]

/-- The first connection: the server greets and the feed authenticates and subscribes. -/
def firstConnection : List Action :=
  connecting ++ [.complete (.read 1) { bytes := connectedFrame }, .complete (.write 1 authText) {},
    .complete (.read 1) { bytes := authenticatedFrame }, .complete (.write 1 subscribeText) {}]

/-- The connection drops and the session reconnects; a subscription call comes before the server has
greeted. -/
def dropThenSubscribe : List Action :=
  firstConnection ++ [.complete (.read 1) { ec := true }, .wake] ++ connecting
    ++ [.subscribeToBars ["AAPL"]]

/-- On the second connection the subscription is written first. -/
theorem subscribes_before_authentication : ∃ t, Run messageSetting ["AAPL"] () dropThenSubscribe t ∧
    t.starts = [(1, authText), (1, subscribeText), (2, subscribeText)] ∧
      t.handlerState.authenticatedOn = [1] ∧
        ¬ Runs.Along (step messageSetting) (AuthenticatedFirst messageSetting)
          (start messageSetting { subscribedSymbols := ["AAPL"], world := () }) dropThenSubscribe := by
  have hrun : (Runs.run (step messageSetting)
      (start messageSetting { subscribedSymbols := ["AAPL"], world := () }) dropThenSubscribe).map
        (fun t => (t.starts, t.handlerState.authenticatedOn))
      = some ([(1, authText), (1, subscribeText), (2, subscribeText)], [1]) := by
    decide +kernel
  obtain ⟨t, ht, hobserved⟩ := Option.map_eq_some_iff.mp hrun
  rw [Prod.mk.injEq] at hobserved
  obtain ⟨hstarts, hauthenticated⟩ := hobserved
  refine ⟨t, ht, hstarts, hauthenticated, fun halong => ?_⟩
  have hsecond := halong dropThenSubscribe t List.prefix_rfl ht (2, subscribeText)
    (by simp [hstarts]) ⟨["AAPL"], rfl⟩
  simp [hauthenticated] at hsecond

/-- A handshake finds nothing to write, a write nothing after it, and a frame its own connection. -/
def keepsOrder (s : WebSocketSession (AlpacaWSMarketFeed Unit)) : Action → Bool
  | .complete (.handshake _ _) _ => s.writeQueue = []
  | .complete (.write _ text) _ => s.writeQueue = [text]
  | .complete (.read connection) _ => connection = s.connection
  | .complete _ _ => true
  | _ => false

/-- On the first connection the order is kept. -/
theorem authenticatedFirst_firstConnection : Runs.Along (step messageSetting)
    (AuthenticatedFirst messageSetting)
    (start messageSetting { subscribedSymbols := ["AAPL"], world := () }) firstConnection := by
  have hrun : ((Runs.run (step messageSetting)
      (start messageSetting { subscribedSymbols := ["AAPL"], world := () }) firstConnection).isSome) = true := by
    decide +kernel
  obtain ⟨t, ht⟩ := Option.isSome_iff_exists.mp hrun
  refine (authenticatedFirst_iff exampleMessages_lawful ht).mpr
    (Runs.StepsMeet.of_checkSteps (g := keepsOrder) ?_ ?_)
  · rintro u a hcheck
    cases a with
    | complete operation outcome =>
      rintro ⟨-, hearly⟩
      cases operation with
      | handshake hostPort endpoint =>
        obtain ⟨text, hqueue, -⟩ := hearly
        rw [of_decide_eq_true hcheck] at hqueue
        cases hqueue
      | write connection text =>
        obtain ⟨-, -, next, hqueue, -⟩ := hearly
        rw [of_decide_eq_true hcheck] at hqueue
        cases hqueue
      | read connection => exact hearly.2.2.2.1 (of_decide_eq_true hcheck)
      | _ => exact hearly
    | _ => cases hcheck
  · decide +kernel

end AlpacaWSMarketFeed

end MacdTradingBot
