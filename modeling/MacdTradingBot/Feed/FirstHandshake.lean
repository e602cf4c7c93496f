import MacdTradingBot.Feed.Replay
import MacdTradingBot.WebSocket.Queue

/-!
# The first handshake

On its first connection to the endpoint the feed writes its authentication first, and no subscription
before it has been answered; so no assertion of the endpoint fails (`handshake_of_replay`). Messages are
told apart by their kinds, and what the feed says by the number of messages that it has read.
-/

namespace MacdTradingBot

open HistoricalAlpacaWSEndpoint

namespace WebSocketSession

variable {σ : Type} {cfg : WebSocketSessionConfig} {handler : FrameHandler σ} {s t : WebSocketSession σ}
  {a : Action σ} {kept : σ}

/-! ## Writes on the first connection -/

/-- A write starts on the connection that a handshake opens, or else on the one that is open. -/
theorem nextWrite_connection {connection : ℕ} {text : Bytes}
    (h : s.nextWrite handler a = some (connection, text)) :
    a.Opens ∧ connection = s.connection + 1 ∨ s.connected = true ∧ connection = s.connection := by
  have hcall : ∀ calls, s.callWrite calls = some (connection, text) →
      s.connected = true ∧ connection = s.connection := by
    intro calls hcalls
    rw [callWrite] at hcalls
    split at hcalls
    · rename_i hidle
      obtain ⟨first, -, heq⟩ := Option.map_eq_some_iff.mp hcalls
      exact ⟨hidle.1, (Prod.mk.inj heq).1.symm⟩
    · cases hcalls
  cases a with
  | start | wake => cases h
  | call f => exact Or.inr (hcall _ h)
  | complete operation outcome =>
    cases hec : outcome.ec with
    | true => simp [nextWrite, hec] at h
    | false =>
      cases operation with
      | handshake hostPort endpoint =>
        simp only [nextWrite, hec, Bool.false_eq_true, if_false] at h
        obtain ⟨front, -, heq⟩ := Option.map_eq_some_iff.mp h
        exact Or.inl ⟨hec, (Prod.mk.inj heq).1.symm⟩
      | read reading =>
        simp only [nextWrite, hec, Bool.false_eq_true, if_false] at h
        exact Or.inr (hcall _ h)
      | write writing front =>
        simp only [nextWrite, hec, Bool.false_eq_true, if_false] at h
        split at h
        · rename_i hconnected
          obtain ⟨next, -, heq⟩ := Option.map_eq_some_iff.mp h
          exact Or.inr ⟨hconnected, (Prod.mk.inj heq).1.symm⟩
        · cases h
      | resolve | connect | sslHandshake | heartbeat | ping | close => simp [nextWrite, hec] at h

/-- With one connection every write is on it. -/
theorem starts_on_first {as : List (Action σ)} (hgreeting : greeting cfg = [])
    (h : Run cfg handler kept as s) (hone : s.connection ≤ 1) : ∀ p ∈ s.starts, p.1 = 1 := by
  induction as using List.reverseRecOn generalizing s with
  | nil =>
    cases h
    intro p hp
    cases hp
  | append_singleton as a ih =>
    obtain ⟨u, hu, hstep⟩ := Runs.run_concat.mp h
    have hle := (connection_le_of_step hstep).trans hone
    intro p hp
    rw [starts_of_step hgreeting hstep, List.mem_append, Option.mem_toList] at hp
    rcases hp with hp | hp
    · exact ih hu hle p hp
    · rcases nextWrite_connection hp with ⟨hopens, hp⟩ | ⟨hconnected, hp⟩
      · have hadded := connection_of_opens hstep hopens
        omega
      · -- a session that has never connected writes nothing
        have hne : u.connection ≠ 0 := by
          intro hzero
          have hfresh := (fifo_of_run hgreeting hu hle).inFlight.fresh hzero
          rw [hconnected] at hfresh
          cases hfresh.1
        omega

/-- The writes that were begun are the first messages that were sent. -/
theorem Fifo.begun_isPrefix (h : s.Fifo) : s.begun <+: s.sentTexts := by
  rw [h.sent]
  rcases h.begun with hbegun | ⟨-, -, -, front, rest, hqueue, hbegun⟩
  · rw [hbegun, List.prefix_append_right_inj]
    rcases h.inFlight.front with hnone | ⟨text, rest, hqueue, hwrite⟩
    · rw [hnone]
      exact List.nil_prefix
    · rw [hwrite, hqueue]
      exact ⟨rest, rfl⟩
  · rw [hbegun, hqueue, List.prefix_append_right_inj]
    exact ⟨rest, rfl⟩

/-- The texts of the writes that were started. -/
theorem map_snd_starts (s : WebSocketSession σ) : s.starts.map Prod.snd = s.begun := by
  rw [starts, begun, List.map_filterMap]
  congr 1
  funext event
  cases event <;> rfl

end WebSocketSession

namespace AlpacaWSMarketFeed

variable {ω : Type} {setting : Setting ω} {feed : AlpacaWSMarketFeed ω}

/-! ## What a command says -/

/-- The texts that a command sends, and what it leaves in the members that decide about the next ones. -/
structure Command.Leaves (command : Command ω) (texts : List Bytes) (authenticated : Bool)
    (symbols : List String) : Prop where
  sends : WebSocketSession.callTexts (calls command.outputs) = texts
  wsSession : command.state.wsSession = true
  authenticated : command.state.authenticated = authenticated
  symbols : command.state.subscribedSymbols = symbols

/-- Texts that are put out are sent. -/
theorem callTexts_sent (texts : List Bytes) :
    WebSocketSession.callTexts (calls (texts.map .sent)) = texts := by
  induction texts with
  | nil => rfl
  | cons text texts ih => exact congrArg (text :: ·) ih

/-- A message that has a text is sent, and nothing changes. -/
theorem leaves_sendDump (setting : Setting ω) (hsession : feed.wsSession = true) (message : Json) :
    (sendDump setting message feed).Leaves (setting.json.dump message).toList feed.authenticated
      feed.subscribedSymbols := by
  rw [sendDump_cases]
  exact ⟨callTexts_sent _, hsession, rfl, rfl⟩

/-- A subscription message that has a text is sent, and nothing changes. -/
theorem leaves_sendSubscriptionMessage (setting : Setting ω) (hsession : feed.wsSession = true) :
    (sendSubscriptionMessage setting feed).Leaves
      (setting.json.dump (subscribeMessage feed.subscribedSymbols)).toList feed.authenticated
      feed.subscribedSymbols := by
  rw [sendSubscriptionMessage_cases, if_pos hsession]
  exact ⟨(leaves_sendDump setting hsession _).sends, hsession, rfl, rfl⟩

/-- A subscription call takes the symbols, and sends them on an authenticated feed. -/
theorem leaves_subscribeToBars (setting : Setting ω) (hsession : feed.wsSession = true) (symbols : List String) :
    (subscribeToBars setting symbols feed).Leaves
      (if feed.authenticated then (setting.json.dump (subscribeMessage symbols)).toList else [])
      feed.authenticated symbols := by
  unfold subscribeToBars
  dsimp only
  by_cases hauthenticated : feed.authenticated = true
  · rw [if_pos (by rw [hauthenticated, hsession]; rfl), if_pos hauthenticated]
    exact leaves_sendSubscriptionMessage setting hsession
  · rw [if_neg (by simp [hauthenticated]), if_neg hauthenticated]
    exact ⟨rfl, hsession, rfl, rfl⟩

/-- The texts that answer a message. -/
def answers (setting : Setting ω) (feed : AlpacaWSMarketFeed ω) (message : Json) : List Bytes :=
  ((reply setting feed message).bind setting.json.dump).toList

/-- A message is answered, and "authenticated" is taken note of. -/
theorem leaves_handleMessage (setting : Setting ω) (hsession : feed.wsSession = true) (message : Json) :
    (handleMessage setting message feed).Leaves (answers setting feed message)
      (feed.authenticated || decide (kind message = .authenticated)) feed.subscribedSymbols := by
  rw [handleMessage_of_kind, answers, reply, if_pos hsession]
  cases hkind : kind message with
  | ignored | malformed => exact ⟨rfl, hsession, (Bool.or_false _).symm, rfl⟩
  | connected =>
    have hleaves := leaves_sendDump setting hsession (authMessage setting.config)
    rw [sendAuthMessage, if_pos hsession]
    exact ⟨hleaves.sends, hleaves.wsSession, hleaves.authenticated.trans (Bool.or_false _).symm,
      hleaves.symbols⟩
  | authenticated =>
    by_cases hsymbols : feed.subscribedSymbols = []
    · dsimp only
      rw [if_neg (not_not.mpr hsymbols), if_neg (not_not.mpr hsymbols)]
      exact ⟨rfl, hsession, (Bool.or_true _).symm, rfl⟩
    · dsimp only
      rw [if_pos hsymbols, if_pos hsymbols]
      have hauthenticated : (authenticate feed).wsSession = true := hsession
      have hleaves := leaves_sendSubscriptionMessage setting hauthenticated
      exact ⟨hleaves.sends, hleaves.wsSession, hleaves.authenticated.trans (Bool.or_true _).symm,
        hleaves.symbols⟩
  | bar =>
    dsimp only
    cases hread : readBar setting.json message with
    | ok bar =>
      rw [parseBarMessage_of_ok _ _ _ hread]
      exact ⟨rfl, hsession, (Bool.or_false _).symm, rfl⟩
    | error f =>
      rw [parseBarMessage_of_error _ _ _ hread]
      exact ⟨rfl, hsession, (Bool.or_false _).symm, rfl⟩

/-- A frame of one message is answered as the message is. -/
theorem leaves_onWebsocketFrame (hsession : feed.wsSession = true) {frame : Bytes} {message : Json}
    (hparse : setting.json.parse frame = some (.array [message])) :
    (onWebsocketFrame setting frame feed).Leaves (answers setting feed message)
      (feed.authenticated || decide (kind message = .authenticated)) feed.subscribedSymbols := by
  rw [onWebsocketFrame_of_array hparse]
  have hleaves := leaves_handleMessage setting hsession message
  rw [← Effect.forEach_singleton (handleMessage setting) message feed] at hleaves
  exact ⟨hleaves.sends, hleaves.wsSession, hleaves.authenticated, hleaves.symbols⟩

/-! ## What a step says -/

/-- The symbols that a call of the user asks for. -/
def Action.asked : Action → Option (List String)
  | .subscribeToBars symbols => some symbols
  | .subscribeToAllBars => some ["*"]
  | .stop _ | .wake | .complete _ _ => none

variable {s t : WebSocketSession (AlpacaWSMarketFeed ω)} {a : Action}

/-- The texts that a step sends, and what it leaves in the members that decide about the next ones. -/
structure Utters (s t : WebSocketSession (AlpacaWSMarketFeed ω)) (texts : List Bytes) (authenticated : Bool)
    (symbols : List String) : Prop where
  sends : t.sentTexts = s.sentTexts ++ texts
  wsSession : t.handlerState.wsSession = true
  authenticated : t.handlerState.authenticated = authenticated
  symbols : t.handlerState.subscribedSymbols = symbols

/-- A step that performs a command. -/
theorem Command.Leaves.utters {command : Command ω} {texts : List Bytes} {authenticated : Bool}
    {symbols : List String} (h : command.Leaves texts authenticated symbols)
    (hsends : s.nextSends (frameHandler setting) (a.onSession setting)
      = WebSocketSession.callTexts (calls command.outputs))
    (hkept : s.nextKept (frameHandler setting) (a.onSession setting) = command.perform.2)
    (hstep : step setting s a = some t) : Utters s t texts authenticated symbols := by
  have hstate := WebSocketSession.handlerState_of_step (step_session hstep)
  rw [hkept] at hstate
  refine ⟨?_, ?_, ?_, ?_⟩
  · rw [WebSocketSession.sentTexts_of_step (greeting_sessionConfig setting.config) (step_session hstep),
      hsends, h.sends]
  · rw [hstate]
    exact h.wsSession
  · rw [hstate]
    exact h.authenticated
  · rw [hstate]
    exact h.symbols

/-- A step that asks for symbols sends them on an authenticated feed. -/
theorem utters_of_asked (hsession : s.handlerState.wsSession = true) {symbols : List String}
    (hasked : a.asked = some symbols) (hstep : step setting s a = some t) :
    Utters s t (if s.handlerState.authenticated then
        (setting.json.dump (subscribeMessage symbols)).toList else [])
      s.handlerState.authenticated symbols := by
  have hleaves := leaves_subscribeToBars setting hsession symbols
  cases a with
  | subscribeToBars symbols | subscribeToAllBars =>
    cases hasked
    exact hleaves.utters rfl rfl hstep
  | stop isOpen | wake | complete operation outcome => cases hasked

/-- A step that neither asks for symbols nor reads sends nothing. -/
theorem utters_of_quiet (hsession : s.handlerState.wsSession = true) (hasked : a.asked = none)
    (hread : Replay.reads? a = none) (hstep : step setting s a = some t) :
    Utters s t [] s.handlerState.authenticated s.handlerState.subscribedSymbols := by
  have hnext : s.nextSends (frameHandler setting) (a.onSession setting) = [] ∧
      s.nextKept (frameHandler setting) (a.onSession setting) = s.handlerState := by
    cases a with
    | subscribeToBars symbols | subscribeToAllBars => cases hasked
    | stop isOpen | wake => exact ⟨rfl, rfl⟩
    | complete operation outcome =>
      cases operation with
      | read connection =>
        have hec : outcome.ec = true := by
          by_contra hok
          simp [Replay.reads?, hok] at hread
        dsimp only [Action.onSession, WebSocketSession.nextSends, WebSocketSession.nextKept]
        rw [if_pos hec, if_pos hec]
        exact ⟨rfl, rfl⟩
      | _ => exact ⟨rfl, rfl⟩
  have hkept := WebSocketSession.handlerState_of_step (step_session hstep)
  rw [hnext.2] at hkept
  rw [← hkept]
  refine ⟨?_, hkept ▸ hsession, rfl, rfl⟩
  rw [WebSocketSession.sentTexts_of_step (greeting_sessionConfig setting.config) (step_session hstep),
    hnext.1]

/-- The step that brings a message sends its answers. -/
theorem utters_of_message (hsession : s.handlerState.wsSession = true) {connection : ℕ}
    {outcome : WebSocketSession.Outcome} {message : Json} (ok : outcome.ec = false)
    (hparse : setting.json.parse (s.buffer ++ outcome.bytes) = some (.array [message]))
    (hstep : step setting s (.complete (.read connection) outcome) = some t) :
    Utters s t (answers setting s.handlerState message)
      (s.handlerState.authenticated || decide (kind message = .authenticated))
      s.handlerState.subscribedSymbols := by
  have hreceived : ({ s.handlerState with receivedOn := connection } :
      AlpacaWSMarketFeed ω).wsSession = true := hsession
  have hleaves := leaves_onWebsocketFrame hreceived hparse
  have hnok : ¬ outcome.ec = true := by
    rw [ok]
    exact Bool.false_ne_true
  apply hleaves.utters _ _ hstep
  · exact if_neg hnok
  · exact if_neg hnok

end AlpacaWSMarketFeed

namespace Replay

open AlpacaWSMarketFeed

variable {ω : Type} {py : Python} {setting : Setting ω} {endpoint : HistoricalAlpacaWSEndpoint py}
  {s t : Replay ω} {a : Action} {c : ℕ} {symbols : List String} {world : ω} {as : List Action}

/-! ## The texts of the first connection -/

/-- The feed of a replay is a session under its frame handler. -/
theorem session_of_run (h : Run setting endpoint symbols world as s) : ∃ bs kept,
    WebSocketSession.Run (sessionConfig setting.config) (frameHandler setting) kept bs s.client := by
  induction as using List.reverseRecOn generalizing s with
  | nil =>
    cases h
    exact ⟨[.start], { subscribedSymbols := symbols, world := world, wsSession := true }, rfl⟩
  | append_singleton as a ih =>
    obtain ⟨u, hu, hstep⟩ := Runs.run_concat.mp h
    obtain ⟨bs, kept, hrun⟩ := ih hu
    cases transition_of_step hstep with
    | moved _ stepped | read _ _ _ stepped =>
      exact ⟨bs ++ [_], kept, Runs.run_concat.mpr ⟨u.client, hrun, step_session stepped⟩⟩
    | sent | ended | received | closed => exact ⟨bs, kept, hrun⟩

/-- With one connection the texts are the messages whose write was started. -/
theorem texts_eq_begun (h : Run setting endpoint symbols world as s) (hone : s.client.connection ≤ 1) :
    s.texts 1 = s.client.begun := by
  obtain ⟨bs, kept, hrun⟩ := session_of_run h
  rw [texts, List.filter_eq_self.mpr, WebSocketSession.map_snd_starts]
  intro p hp
  exact decide_eq_true (WebSocketSession.starts_on_first (greeting_sessionConfig setting.config) hrun hone p hp)

/-- On the first connection the queue is served in order. -/
theorem fifo_of_run (h : Run setting endpoint symbols world as s) (hone : s.client.connection ≤ 1) :
    s.client.Fifo := by
  obtain ⟨bs, kept, hrun⟩ := session_of_run h
  exact WebSocketSession.fifo_of_run (greeting_sessionConfig setting.config) hrun hone

/-- On the first connection the texts are a beginning of what the feed has handed to its session. -/
theorem texts_isPrefix (h : Run setting endpoint symbols world as s) (hone : s.client.connection ≤ 1) :
    s.texts 1 <+: s.client.sentTexts := by
  rw [texts_eq_begun h hone]
  exact (fifo_of_run h hone).begun_isPrefix

/-- A step of the feed only adds texts, and never goes back to a connection. -/
theorem texts_of_client {client : WebSocketSession (AlpacaWSMarketFeed ω)} {b : AlpacaWSMarketFeed.Action}
    (hclient : t.client = client) (hstep : AlpacaWSMarketFeed.step setting s.client b = some client) :
    s.texts c <+: t.texts c ∧ s.client.connection ≤ t.client.connection := by
  subst hclient
  refine ⟨?_, WebSocketSession.connection_le_of_step (step_session hstep)⟩
  rw [texts, texts,
    WebSocketSession.starts_of_step (greeting_sessionConfig setting.config) (step_session hstep),
    List.filter_append, List.map_append]
  exact List.prefix_append _ _

/-- Texts and connections are only added. -/
theorem texts_of_step (hstep : step setting endpoint s a = some t) :
    s.texts c <+: t.texts c ∧ s.client.connection ≤ t.client.connection := by
  cases transition_of_step hstep with
  | moved _ stepped | read _ _ _ stepped => exact texts_of_client rfl stepped
  | sent | ended | received | closed => exact ⟨List.prefix_rfl, le_rfl⟩

/-! ## The messages and their answers -/

/-- The first message has the feed authenticate, the second one has it subscribe. -/
theorem kind_of_message {n : ℕ} {message : Json} (h : endpoint.messages[n]? = some message) :
    n = 0 ∧ kind message = .connected ∨ n = 1 ∧ kind message = .authenticated ∨
      2 ≤ n ∧ (kind message = .ignored ∨ kind message = .bar) := by
  match n with
  | 0 =>
    cases h
    exact Or.inl ⟨rfl, rfl⟩
  | 1 =>
    cases h
    exact Or.inr (Or.inl ⟨rfl, rfl⟩)
  | 2 =>
    cases h
    exact Or.inr (Or.inr ⟨le_rfl, Or.inl rfl⟩)
  | n + 3 =>
    have hmem : message ∈ endpoint.bars := List.mem_of_getElem? h
    obtain ⟨row, hrow⟩ := endpoint.converted message hmem
    exact Or.inr (Or.inr ⟨by omega, Or.inr (bar_of_convert hrow).1⟩)

/-- The message subscribes to the symbol of the file. -/
def Subscribes (setting : Setting ω) (endpoint : HistoricalAlpacaWSEndpoint py) (text : Bytes) : Prop :=
  ∃ symbols, endpoint.symbol ∈ symbols ∧ setting.json.dump (subscribeMessage symbols) = some text

/-- The message that authenticates, if it can be printed. -/
def authTexts (setting : Setting ω) : List Bytes :=
  (setting.json.dump (authMessage setting.config)).toList

/-- A member that is found is contained. -/
theorem pyContains_of_find? {message value : Json} {key : String} (h : message.find? key = some value) :
    message.pyContains key = true := by
  cases message with
  | object members =>
    rw [Json.pyContains, Option.isSome_iff_exists]
    exact ⟨value, h⟩
  | null | boolean | numberUnsigned | numberInteger | numberFloat | string | array => cases h

/-- The assertion of the endpoint holds of the authentication of the feed. -/
theorem assertAuth_of_dump (hunderstood : IsUnderstood setting.json py) {text : Bytes}
    (hdump : setting.json.dump (authMessage setting.config) = some text) : assertAuth py text = true := by
  obtain ⟨read, hloads, hsame⟩ := hunderstood _ _ hdump (Or.inl ⟨_, rfl⟩)
  rw [assertAuth, hloads]
  have haction := pyContains_of_find? (hsame "action")
  have hkey := pyContains_of_find? (hsame "key")
  have hsecret := pyContains_of_find? (hsame "secret")
  simp [haction, hkey, hsecret]

/-- The assertion of the endpoint holds of a subscription that has the symbol of the file. -/
theorem assertSubscribe_of_subscribes (hunderstood : IsUnderstood setting.json py) {text : Bytes}
    (h : Subscribes setting endpoint text) : assertSubscribe py endpoint.symbol text = true := by
  obtain ⟨symbols, hmem, hdump⟩ := h
  obtain ⟨read, hloads, hsame⟩ := hunderstood _ _ hdump (Or.inr ⟨_, rfl⟩)
  have haction : read.find? "action" = some (.string "subscribe") := hsame "action"
  have hbars : read.find? "bars" = some (.array (symbols.map .string)) := hsame "bars"
  simp [assertSubscribe, hloads, haction, hbars, Json.pyContains, hmem]

/-! ## One step -/

/-- The user asks for no list without the symbol. -/
def Action.AsksFor (symbol : String) : Action → Prop
  | .client a => ∀ symbols, a.asked = some symbols → symbol ∈ symbols
  | .serve _ | .close _ => True

/-- Where the coroutine stands tells how much has been sent and received. No assertion has failed. -/
def InOrder (peer : Peer) : Prop :=
  match peer.coroutine with
  | .sendConnected => peer.sent.length = 0 ∧ peer.received = 0
  | .recvAuth => peer.sent.length = 1 ∧ peer.received = 0
  | .sendAuthenticated => peer.sent.length = 1 ∧ peer.received = 1
  | .recvSubscribe => peer.sent.length = 2 ∧ peer.received = 1
  | .sendSubscribed => peer.sent.length = 2 ∧ peer.received = 2
  | .streamBars _ | .returned => peer.received = 2
  | .raised => False

/-- What the feed has said on its first connection goes by the number of messages that it has read. -/
structure Introduced (setting : Setting ω) (endpoint : HistoricalAlpacaWSEndpoint py) (s : Replay ω) :
    Prop where
  wsSession : s.client.handlerState.wsSession = true
  symbols : s.client.handlerState.subscribedSymbols = [] ∨
    endpoint.symbol ∈ s.client.handlerState.subscribedSymbols
  authenticated : s.client.handlerState.authenticated = true → 2 ≤ (s.peers 1).read
  said : ∃ later, s.client.sentTexts
      = (if (s.peers 1).read = 0 then [] else authTexts setting) ++ later ∧
    ((s.peers 1).read ≤ 1 → later = []) ∧ ∀ text ∈ later, Subscribes setting endpoint text
  arrived : (s.peers 1).received ≤ (s.texts 1).length
  accepted : 1 ≤ (s.peers 1).received → authTexts setting ≠ []
  inOrder : InOrder (s.peers 1)

/-- What the feed answers depends on the kind of the message. -/
theorem answers_of_kind {feed : AlpacaWSMarketFeed ω} (hsession : feed.wsSession = true) {message : Json} :
    answers setting feed message = match kind message with
      | .connected => authTexts setting
      | .authenticated => if feed.subscribedSymbols ≠ [] then
          (setting.json.dump (subscribeMessage feed.subscribedSymbols)).toList else []
      | .ignored | .malformed | .bar => [] := by
  rw [answers, reply, if_pos hsession]
  cases kind message with
  | ignored | malformed | connected | bar => rfl
  | authenticated =>
    dsimp only
    split <;> rfl

/-- A list with the symbol of the file subscribes to it. -/
theorem subscribes_of_mem {symbols : List String} (hmem : endpoint.symbol ∈ symbols) {text : Bytes}
    (htext : text ∈ (setting.json.dump (subscribeMessage symbols)).toList) :
    Subscribes setting endpoint text :=
  ⟨symbols, hmem, Option.mem_toList.mp htext⟩

/-- The feed moves without reading. -/
theorem Introduced.moved (h : Introduced setting endpoint s) {b : AlpacaWSMarketFeed.Action}
    (hasks : (Action.client b).AsksFor endpoint.symbol) (noRead : reads? b = none)
    {client : WebSocketSession (AlpacaWSMarketFeed ω)}
    (hstep : AlpacaWSMarketFeed.step setting s.client b = some client) :
    Introduced setting endpoint { s with client := client } := by
  obtain ⟨later, hsaid, hnone, hlater⟩ := h.said
  have harrived : (s.peers 1).received ≤ (texts { s with client := client } 1).length :=
    h.arrived.trans (texts_of_client rfl hstep).1.length_le
  cases hasked : b.asked with
  | none =>
    have hutters := utters_of_quiet h.wsSession hasked noRead hstep
    refine ⟨hutters.wsSession, ?_, ?_, ⟨later, ?_, hnone, hlater⟩, harrived, h.accepted, h.inOrder⟩
    · rw [hutters.symbols]
      exact h.symbols
    · rw [hutters.authenticated]
      exact h.authenticated
    · rw [hutters.sends, List.append_nil, hsaid]
  | some symbols =>
    have hutters := utters_of_asked h.wsSession hasked hstep
    have hmem := hasks symbols hasked
    refine ⟨hutters.wsSession, ?_, ?_, ?_, harrived, h.accepted, h.inOrder⟩
    · rw [hutters.symbols]
      exact Or.inr hmem
    · rw [hutters.authenticated]
      exact h.authenticated
    · -- a subscription is sent at once only after the authentication
      cases hauthenticated : s.client.handlerState.authenticated with
      | false =>
        refine ⟨later, ?_, hnone, hlater⟩
        rw [hutters.sends, hauthenticated, if_neg Bool.false_ne_true, List.append_nil, hsaid]
      | true =>
        have hread := h.authenticated hauthenticated
        refine ⟨later ++ (setting.json.dump (subscribeMessage symbols)).toList, ?_, ?_, ?_⟩
        · rw [hutters.sends, hauthenticated, if_pos rfl, hsaid, List.append_assoc]
        · intro hle
          exact absurd (hread.trans hle) (by omega)
        · intro text htext
          rcases List.mem_append.mp htext with htext | htext
          · exact hlater text htext
          · exact subscribes_of_mem hmem htext

/-- What is read next is the next message, and the feed parses it. -/
theorem message_of_next (hunderstands : Understands setting.json endpoint)
    (hfollows : (s.peers c).Follows endpoint) (hbuffer : s.client.buffer = [])
    {outcome : WebSocketSession.Outcome} {message : Json}
    (next : (s.peers c).sent[(s.peers c).read]? = some message)
    (text : outcome.bytes = frame py message) :
    endpoint.messages[(s.peers c).read]? = some message ∧
      ∃ read, setting.json.parse (s.client.buffer ++ outcome.bytes) = some (.array [read]) ∧
        read.SameMembers message := by
  obtain ⟨rest, hsent⟩ := hfollows.sent
  obtain ⟨hlt, -⟩ := List.getElem?_eq_some_iff.mp next
  have hmessage : endpoint.messages[(s.peers c).read]? = some message := by
    rw [← hsent, List.getElem?_append_left hlt, next]
  obtain ⟨read, hparse, hsame⟩ := hunderstands message (List.mem_of_getElem? hmessage)
  refine ⟨hmessage, read, ?_, hsame⟩
  rw [hbuffer, text, List.nil_append, hparse]

/-- The feed reads the next message of its first connection. -/
theorem Introduced.read (h : Introduced setting endpoint s)
    (hunderstands : Understands setting.json endpoint) (hfollows : (s.peers 1).Follows endpoint)
    (hbuffer : s.client.buffer = []) {outcome : WebSocketSession.Outcome} {message : Json}
    {client : WebSocketSession (AlpacaWSMarketFeed ω)} (ok : outcome.ec = false)
    (next : (s.peers 1).sent[(s.peers 1).read]? = some message)
    (text : outcome.bytes = frame py message)
    (hstep : AlpacaWSMarketFeed.step setting s.client (.complete (.read 1) outcome) = some client) :
    Introduced setting endpoint
      { s.setPeer 1 { s.peers 1 with read := (s.peers 1).read + 1 } with client := client } := by
  obtain ⟨hmessage, read, hparse, hsame⟩ := message_of_next hunderstands hfollows hbuffer next text
  have hutters := utters_of_message h.wsSession ok hparse hstep
  rw [answers_of_kind h.wsSession, kind_congr hsame] at hutters
  obtain ⟨later, hsaid, hnone, hlater⟩ := h.said
  have hpeer : ({ s.setPeer 1 { s.peers 1 with read := (s.peers 1).read + 1 } with client := client } :
      Replay ω).peers 1 = { s.peers 1 with read := (s.peers 1).read + 1 } :=
    setPeer_same (s := s) (c := 1) _
  -- what is left to show is what the message adds
  have hkeep : ∀ later', client.sentTexts = authTexts setting ++ later' →
      ((s.peers 1).read = 0 → later' = []) → (∀ text ∈ later', Subscribes setting endpoint text) →
      (client.handlerState.authenticated = true → 1 ≤ (s.peers 1).read) →
      Introduced setting endpoint
        { s.setPeer 1 { s.peers 1 with read := (s.peers 1).read + 1 } with client := client } := by
    intro later' hsaid' hnone' hlater' hauthenticated
    refine ⟨hutters.wsSession, ?_, ?_, ⟨later', ?_, ?_, hlater'⟩, ?_, ?_, ?_⟩
    · rw [hutters.symbols]
      exact h.symbols
    · rw [hpeer]
      exact fun htrue => Nat.succ_le_succ (hauthenticated htrue)
    · rw [hpeer, if_neg (Nat.succ_ne_zero _)]
      exact hsaid'
    · rw [hpeer]
      exact fun hle => hnone' (Nat.le_zero.mp (Nat.le_of_succ_le_succ hle))
    · rw [hpeer]
      exact h.arrived.trans (texts_of_client rfl hstep).1.length_le
    · rw [hpeer]
      exact h.accepted
    · rw [hpeer]
      exact h.inOrder
  rcases kind_of_message hmessage with ⟨hzero, hkind⟩ | ⟨hone, hkind⟩ | ⟨htwo, hkind⟩
  · rw [hkind] at hutters
    obtain rfl := hnone (by omega)
    rw [if_pos hzero, List.append_nil] at hsaid
    refine hkeep [] ?_ (fun _ => rfl) (by simp) ?_
    · rw [hutters.sends, hsaid, List.nil_append, List.append_nil]
    · intro htrue
      have hbefore : s.client.handlerState.authenticated = true := by
        simpa [hutters.authenticated] using htrue
      exact absurd (h.authenticated hbefore) (by omega)
  · rw [hkind] at hutters
    obtain rfl := hnone (by omega)
    rw [if_neg (by omega), List.append_nil] at hsaid
    refine hkeep _ (hutters.sends.trans (congrArg (· ++ _) hsaid)) (by omega) ?_ (fun _ => by omega)
    intro text htext
    dsimp only at htext
    split at htext
    · rename_i hne
      exact subscribes_of_mem (h.symbols.resolve_left hne) htext
    · cases htext
  · have hquiet : client.sentTexts = s.client.sentTexts := by
      rw [hutters.sends]
      rcases hkind with hkind | hkind <;> rw [hkind, List.append_nil]
    rw [if_neg (by omega)] at hsaid
    exact hkeep later (hquiet.trans hsaid) (by omega) hlater (fun _ => by omega)

/-- A step of the coroutine of the first connection. -/
theorem Introduced.serve (h : Introduced setting endpoint s) {peer : Peer}
    (hread : peer.read = (s.peers 1).read) (harrived : peer.received ≤ (s.texts 1).length)
    (haccepted : 1 ≤ peer.received → authTexts setting ≠ []) (hinOrder : InOrder peer) :
    Introduced setting endpoint (s.setPeer 1 peer) := by
  have hpeer : (s.setPeer 1 peer).peers 1 = peer := setPeer_same _
  refine ⟨h.wsSession, h.symbols, ?_, ?_, ?_, ?_, ?_⟩
  · rw [hpeer, hread]
    exact h.authenticated
  · rw [hpeer, hread]
    exact h.said
  · rw [hpeer]
    exact harrived
  · rw [hpeer]
    exact haccepted
  · rw [hpeer]
    exact hinOrder

/-- A message of the endpoint keeps the order of its coroutine. -/
theorem inOrder_of_sends {peer : Peer} (h : InOrder peer) {message : Json} {next : Coroutine}
    (hsends : endpoint.sends peer.coroutine = some (message, next)) :
    InOrder { peer with coroutine := next, sent := peer.sent ++ [message] } := by
  unfold InOrder at h ⊢
  cases hcoroutine : peer.coroutine with
  | sendConnected | sendAuthenticated =>
    rw [hcoroutine] at h hsends
    cases hsends
    exact ⟨by rw [List.length_append, h.1]; rfl, h.2⟩
  | sendSubscribed =>
    rw [hcoroutine] at h hsends
    cases hsends
    exact h.2
  | streamBars rest =>
    rw [hcoroutine] at h hsends
    cases rest with
    | nil => cases hsends
    | cons bar rest =>
      cases hsends
      exact h
  | recvAuth | recvSubscribe | returned | raised =>
    rw [hcoroutine] at hsends
    cases hsends

/-- What the coroutine receives passes its assertion. -/
theorem Introduced.received (h : Introduced setting endpoint s) (hunderstood : IsUnderstood setting.json py)
    (hread : (s.peers 1).read ≤ (s.peers 1).sent.length) (hbeginning : s.texts 1 <+: s.client.sentTexts)
    {text : Bytes} {next : Coroutine} (arrived : (s.texts 1)[(s.peers 1).received]? = some text)
    (receives : endpoint.receives text (s.peers 1).coroutine = some next) :
    Introduced setting endpoint
      (s.setPeer 1 { s.peers 1 with coroutine := next, received := (s.peers 1).received + 1 }) := by
  obtain ⟨later, hsaid, hnone, hlater⟩ := h.said
  have hinOrder := h.inOrder
  obtain ⟨hlt, -⟩ := List.getElem?_eq_some_iff.mp arrived
  have hsent : s.client.sentTexts[(s.peers 1).received]? = some text := by
    obtain ⟨rest, hrest⟩ := hbeginning
    rw [← hrest, List.getElem?_append_left hlt, arrived]
  unfold InOrder at hinOrder
  cases hcoroutine : (s.peers 1).coroutine with
  | recvAuth =>
    rw [hcoroutine] at hinOrder receives
    obtain ⟨hlength, hreceived⟩ := hinOrder
    obtain rfl := hnone (by omega)
    have hauth : text ∈ authTexts setting := by
      have hmem := List.mem_of_getElem? hsent
      rw [hsaid, List.append_nil] at hmem
      split at hmem
      · cases hmem
      · exact hmem
    cases receives
    rw [assertAuth_of_dump hunderstood (Option.mem_toList.mp hauth), if_pos rfl]
    refine h.serve rfl hlt (fun _ => List.ne_nil_of_mem hauth) ⟨hlength, ?_⟩
    dsimp only
    rw [hreceived]
  | recvSubscribe =>
    rw [hcoroutine] at hinOrder receives
    obtain ⟨hlength, hreceived⟩ := hinOrder
    have hauth := h.accepted (by omega)
    have hsubscribes : Subscribes setting endpoint text := by
      -- the text comes after the authentication
      have hshort : (if (s.peers 1).read = 0 then [] else authTexts setting).length ≤ 1 := by
        split
        · exact Nat.zero_le _
        · exact Option.length_toList_le
      rw [hsaid, hreceived, List.getElem?_append_right hshort] at hsent
      exact hlater text (List.mem_of_getElem? hsent)
    cases receives
    rw [assertSubscribe_of_subscribes hunderstood hsubscribes, if_pos rfl]
    refine h.serve rfl hlt (fun _ => hauth) ⟨hlength, ?_⟩
    dsimp only
    rw [hreceived]
  | sendConnected | sendAuthenticated | sendSubscribed | streamBars | returned | raised =>
    rw [hcoroutine] at receives
    cases receives

/-- A step on the first connection keeps what the feed has said in line with what it has read. -/
theorem Introduced.of_step (h : Introduced setting endpoint s) (hin : InStep setting endpoint world s)
    (hbeginning : s.texts 1 <+: s.client.sentTexts) (hunderstands : Understands setting.json endpoint)
    (hunderstood : IsUnderstood setting.json py) (hasks : a.AsksFor endpoint.symbol) (hopen : a ≠ .close 1)
    (hone : s.client.connection ≤ 1) (hstep : step setting endpoint s a = some t) :
    Introduced setting endpoint t := by
  have hfirst : ∀ {connection}, s.IsOpened connection → connection = 1 :=
    fun hopened => le_antisymm (hopened.2.trans hone) hopened.1
  cases transition_of_step hstep with
  | moved noRead stepped => exact h.moved hasks noRead stepped
  | @read outcome message client ok next text stepped =>
    have hconnection : s.client.connection = 1 := hfirst (hin.isOpened_of_next next)
    rw [hconnection] at next stepped ⊢
    exact h.read hunderstands (hin.follows 1) hin.buffer ok next text stepped
  | sent opened sends =>
    obtain rfl := hfirst opened
    exact h.serve rfl h.arrived h.accepted (inOrder_of_sends h.inOrder sends)
  | ended opened streamed =>
    obtain rfl := hfirst opened
    have hinOrder := h.inOrder
    unfold InOrder at hinOrder
    rw [streamed] at hinOrder
    exact h.serve rfl h.arrived h.accepted hinOrder
  | received opened arrived receives =>
    obtain rfl := hfirst opened
    exact h.received hunderstood (hin.follows 1).read hbeginning arrived receives
  | closed opened =>
    obtain rfl := hfirst opened
    exact absurd rfl hopen

/-- At the start nothing has been read or said. -/
theorem introduced_start (hasks : symbols = [] ∨ endpoint.symbol ∈ symbols) (world : ω) :
    Introduced setting endpoint (start setting symbols world) where
  wsSession := rfl
  symbols := hasks
  authenticated := by
    intro htrue
    cases htrue
  said := ⟨[], rfl, fun _ => rfl, by simp⟩
  arrived := Nat.zero_le _
  accepted := by
    intro hle
    cases hle
  inOrder := ⟨rfl, rfl⟩

/-- On the first connection what the feed has said goes by what it has read. -/
theorem introduced_of_run (hunderstands : Understands setting.json endpoint)
    (hunderstood : IsUnderstood setting.json py) (h : Run setting endpoint symbols world as s)
    (hclean : ∀ a ∈ as, a.Clean) (hinitial : symbols = [] ∨ endpoint.symbol ∈ symbols)
    (hasks : ∀ a ∈ as, a.AsksFor endpoint.symbol) (hopen : .close 1 ∉ as)
    (hone : s.client.connection ≤ 1) : Introduced setting endpoint s := by
  induction as using List.reverseRecOn generalizing s with
  | nil =>
    cases h
    exact introduced_start hinitial world
  | append_singleton as a ih =>
    obtain ⟨u, hu, hstep⟩ := Runs.run_concat.mp h
    have hle : u.client.connection ≤ 1 := (texts_of_step (c := 1) hstep).2.trans hone
    rw [List.forall_mem_append, List.forall_mem_singleton] at hclean hasks
    rw [List.mem_append, List.mem_singleton, not_or] at hopen
    exact (ih hu hclean.1 hasks.1 hopen.1 hle).of_step (inStep_of_run hunderstands hu hclean.1)
      (texts_isPrefix hu hle) hunderstands hunderstood hasks.2 (fun heq => hopen.2 heq.symm) hle hstep

/-- Python reads the messages of the feed. -/
theorem exampleJson_isUnderstood : IsUnderstood exampleJson examplePython := by
  intro message text hdump hmessage
  have hparse : exampleMessages.parse text = some message := by
    rcases hmessage with ⟨config, rfl⟩ | ⟨symbols, rfl⟩
    · exact exampleMessages_lawful.parse_auth config text hdump
    · exact exampleMessages_lawful.parse_subscribe symbols text hdump
  have htext : text = authText ∨ text = subscribeText := by
    simp only [exampleJson, exampleMessages] at hdump
    split at hdump
    · exact Or.inl (Option.some.inj (Option.ite_none_right_eq_some.mp hdump).2).symm
    · exact Or.inr (Option.some.inj (Option.ite_none_right_eq_some.mp hdump).2).symm
    · cases hdump
  refine ⟨message, ?_, fun _ => rfl⟩
  rw [← hparse]
  rcases htext with rfl | rfl <;> rfl

end Replay

end MacdTradingBot
