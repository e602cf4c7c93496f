import MacdTradingBot.Feed.FirstHandshake
import MacdTradingBot.WebSocket.Liveness

/-!
# The whole file

The feed and the endpoint over endless runs. The feed may try any number of times before it is connected,
and then nothing fails until the endpoint has come to its end. If every side does what it can, the first
connection brings each bar of the file to the slots, in order and once, before it is closed and the feed
connects again (`whole_file_of_replay`). What has been sent, received and read on the connection only grows;
where it no longer does, no step of the coroutine is left.
-/

namespace MacdTradingBot

open HistoricalAlpacaWSEndpoint

namespace WebSocketSession

variable {σ : Type} {s : WebSocketSession σ}

/-- What has left the queue was begun. -/
theorem Fifo.length_dequeued_le (h : s.Fifo) : s.dequeued.length ≤ s.begun.length := by
  have hwritten : s.dequeued.length ≤ s.written.length := by
    rw [written, List.length_map]
    exact List.length_filterMap_le _ _
  refine hwritten.trans ?_
  rcases h.begun with hbegun | ⟨-, -, -, front, rest, -, hbegun⟩
  · rw [hbegun, List.length_append]
    exact Nat.le_add_right _ _
  · rw [hbegun, List.length_append]
    exact Nat.le_add_right _ _

/-- What fails ends the connection. -/
theorem connected_of_fails {cfg : WebSocketSessionConfig} {handler : FrameHandler σ}
    {t : WebSocketSession σ} {a : Action σ} (hfails : a.Fails)
    (hstep : step cfg handler s a = some t) : t.connected = false := by
  cases a with
  | complete operation outcome =>
    obtain ⟨hno, herror⟩ := hfails
    cases transition_of_step hstep with
    | failed => exact fail_connected _
    | resolved _ _ ok | secured _ _ ok | opened _ _ ok | delivered _ _ ok | wrote _ _ ok | armed _ _ ok
    | closed _ _ ok =>
      rw [ok] at herror
      rcases herror with herror | ⟨hconnect, -⟩
      · cases herror
      · cases hconnect
    | connected _ _ ok hostName =>
      rw [ok, hostName] at herror
      rcases herror with herror | ⟨-, herror⟩ <;> cases herror
    | pinged | timerDropped => exact absurd rfl hno
  | start | call | wake => exact hfails.elim

/-- Only a handshake connects. -/
theorem connected_of_not_opens {cfg : WebSocketSessionConfig} {handler : FrameHandler σ}
    {t : WebSocketSession σ} {a : Action σ} (hno : ¬ a.Opens)
    (hstep : step cfg handler s a = some t) (hconnected : t.connected = true) : s.connected = true := by
  cases transition_of_step hstep with
  | opened _ _ ok => exact absurd ok hno
  | failed =>
    rw [fail_connected] at hconnected
    cases hconnected
  | started => rwa [start_connected] at hconnected
  | called =>
    by_contra hnot
    rw [performAll_connected (by simpa using hnot)] at hconnected
    cases hconnected
  | delivered =>
    by_contra hnot
    refine Bool.false_ne_true (Eq.trans (Eq.symm ?_) hconnected)
    exact performAll_connected (by simpa using hnot)
  | woken =>
    revert hconnected
    apply wake_induction (fun u => u.connected = true → s.connected = true)
    · exact id
    · intro u hu hc
      rw [start_connected] at hc
      exact hu hc
  | wrote => rwa [wrote_connected] at hconnected
  | resolved | connected | secured | pinged | timerDropped | armed | closed => exact hconnected

/-- The first connection was opened, and it is not connected over it any more. -/
def Left (s : WebSocketSession σ) : Prop := 1 ≤ s.connection ∧ (s.connected = true → 1 < s.connection)

/-- A connection that was left is never entered again. -/
theorem Left.of_step {cfg : WebSocketSessionConfig} {handler : FrameHandler σ} {t : WebSocketSession σ}
    {a : Action σ} (h : s.Left) (hstep : step cfg handler s a = some t) : t.Left := by
  have hle := connection_le_of_step hstep
  refine ⟨h.1.trans hle, fun hconnected => ?_⟩
  by_cases hopens : a.Opens
  · rw [connection_of_opens hstep hopens]
    exact Nat.lt_succ_of_le h.1
  · exact (h.2 (connected_of_not_opens hopens hstep hconnected)).trans_le hle

end WebSocketSession

namespace AlpacaWSMarketFeed

variable {ω : Type} (setting : Setting ω)

/-- The feed calls nothing of its session but `send`. -/
theorem sends_of_mem_calls (outputs : List Output) :
    ∀ call ∈ calls outputs, ∃ text, call = .send text := by
  intro call hmem
  obtain ⟨output, -, houtput⟩ := List.mem_filterMap.mp hmem
  cases output with
  | bar bar => cases houtput
  | sent text => exact ⟨text, (Option.some.inj houtput).symm⟩

/-- The feed never stops its session. -/
theorem neverStops_frameHandler : WebSocketSession.NeverStops (frameHandler setting) :=
  fun _ _ _ => sends_of_mem_calls _

/-- Only a stop of the user stops the session. -/
theorem noStop_onSession {a : Action} (h : ∀ isOpen, a ≠ .stop isOpen) :
    (a.onSession setting).NoStop := by
  cases a with
  | subscribeToBars symbols | subscribeToAllBars => exact fun _ => sends_of_mem_calls _
  | stop isOpen => exact absurd rfl (h isOpen)
  | wake | complete operation outcome => trivial

end AlpacaWSMarketFeed

namespace Replay

open AlpacaWSMarketFeed

variable {ω : Type} {py : Python} {setting : Setting ω} {endpoint : HistoricalAlpacaWSEndpoint py}
  {s t : Replay ω} {a : Action} {c : ℕ} {symbols : List String} {world : ω} {as : List Action}

/-! ## The session of an endless run -/

variable (setting) in
/-- What the session sees of a step. A step of the endpoint does nothing to it. -/
def Action.onSession : Action → WebSocketSession.Action (AlpacaWSMarketFeed ω)
  | .client a => a.onSession setting
  | .serve _ | .close _ => .call fun feed => ([], feed)

/-- A step of the replay is a step of the session of the feed. -/
theorem session_of_step (hstep : step setting endpoint s a = some t) :
    WebSocketSession.step (sessionConfig setting.config) (frameHandler setting) s.client
      (a.onSession setting) = some t.client := by
  cases transition_of_step hstep with
  | moved _ stepped | read _ _ _ stepped => exact step_session stepped
  | sent | ended | received | closed => rfl

/-- A list of symbols that the endpoint accepts, once it is printed. -/
structure Suits (setting : Setting ω) (endpoint : HistoricalAlpacaWSEndpoint py) (symbols : List String) :
    Prop where
  mem : endpoint.symbol ∈ symbols
  prints : (setting.json.dump (subscribeMessage symbols)).isSome

/-- The user asks for lists only that the endpoint accepts, never stops the feed, and the endpoint does
not find the connection closed. -/
def Action.Fits (setting : Setting ω) (endpoint : HistoricalAlpacaWSEndpoint py) : Action → Prop
  | .client a => (∀ symbols, a.asked = some symbols → Suits setting endpoint symbols) ∧
      ∀ isOpen, a ≠ .stop isOpen
  | .serve _ => True
  | .close _ => False

/-- The connection has been served to its end, and everything on it has been read. -/
def Finished (s : Replay ω) (c : ℕ) : Prop :=
  (s.peers c).coroutine = .returned ∧ (s.peers c).read = (s.peers c).sent.length

/-- An endless run from the start of the feed. Until the first connection is finished, nothing fails but
stages of a chain, and from `N` on nothing at all. Then anything may happen, except that a read that fails
leaves bytes. -/
structure Undisturbed (symbols : List String) (world : ω) (r : Runs.Endless (step setting endpoint))
    (N : ℕ) : Prop where
  init : r.state 0 = start setting symbols world
  authenticates : (setting.json.dump (authMessage setting.config)).isSome
  suits : Suits setting endpoint symbols
  clean : ∀ n, (r.action n).Clean
  fits : ∀ n, ¬ (r.state n).Finished 1 → (r.action n).Fits setting endpoint
  retries : ∀ n, ¬ (r.state n).Finished 1 → ((r.action n).onSession setting).Fails →
    ∃ operation : WebSocketSession.Operation, operation.isChain = true ∧
      ((r.action n).onSession setting).Answers operation
  noFailure : ∀ n, N ≤ n → ¬ (r.state n).Finished 1 → ¬ ((r.action n).onSession setting).Fails

/-- Weak fairness: every sleep ends, every stage and every write is answered, a read is answered if there
is a message for it or the server has closed the connection, and a coroutine that can go on does. -/
structure Attended (r : Runs.Endless (step setting endpoint)) : Prop where
  wakes : r.Fair (fun s => s.client.sleeping = true) fun a => a = .client .wake
  answers : ∀ operation : WebSocketSession.Operation, operation.isChainOrWrite = true →
    r.Fair (fun s => s.client.sleeping = false ∧ operation ∈ s.client.operations)
      fun a => (a.onSession setting).Answers operation
  reads : ∀ c, r.Fair (fun s => s.client.sleeping = false ∧ .read c ∈ s.client.operations ∧
      ((s.peers c).read < (s.peers c).sent.length ∨ (s.peers c).coroutine.Ended))
    fun a => (a.onSession setting).Answers (.read c)
  serves : ∀ c, r.Fair (fun s => (step setting endpoint s (.serve c)).isSome) fun a => a = .serve c

/-! ## What the feed has said -/

/-- By the time it has read the first two messages, the feed has authenticated and subscribed. -/
structure Prompted (setting : Setting ω) (endpoint : HistoricalAlpacaWSEndpoint py) (s : Replay ω) :
    Prop where
  suits : Suits setting endpoint s.client.handlerState.subscribedSymbols
  said : min (s.peers 1).read 2 ≤ s.client.sentTexts.length

/-- At the start the feed has read nothing. -/
theorem prompted_start (hsuits : Suits setting endpoint symbols) (world : ω) :
    Prompted setting endpoint (start setting symbols world) where
  suits := hsuits
  said := Nat.zero_le _

/-- The feed moves without reading. -/
theorem Prompted.moved (h : Prompted setting endpoint s) {b : AlpacaWSMarketFeed.Action}
    (hsession : s.client.handlerState.wsSession = true)
    (hfits : (Action.client b).Fits setting endpoint) (noRead : reads? b = none)
    {client : WebSocketSession (AlpacaWSMarketFeed ω)}
    (hstep : AlpacaWSMarketFeed.step setting s.client b = some client) :
    Prompted setting endpoint { s with client := client } := by
  have hsaid : min (s.peers 1).read 2 ≤ client.sentTexts.length :=
    h.said.trans (WebSocketSession.prefixes_of_step (step_session hstep)).1.length_le
  cases hasked : b.asked with
  | none =>
    have hutters := utters_of_quiet hsession hasked noRead hstep
    refine ⟨?_, hsaid⟩
    rw [hutters.symbols]
    exact h.suits
  | some symbols =>
    have hutters := utters_of_asked hsession hasked hstep
    refine ⟨?_, hsaid⟩
    rw [hutters.symbols]
    exact hfits.1 symbols hasked

/-- The first two messages are answered. -/
theorem Prompted.read (h : Prompted setting endpoint s)
    (hsession : s.client.handlerState.wsSession = true)
    (hauth : (setting.json.dump (authMessage setting.config)).isSome)
    (hunderstands : Understands setting.json endpoint) (hfollows : (s.peers 1).Follows endpoint)
    (hbuffer : s.client.buffer = []) {outcome : WebSocketSession.Outcome} {message : Json}
    {client : WebSocketSession (AlpacaWSMarketFeed ω)} (ok : outcome.ec = false)
    (next : (s.peers 1).sent[(s.peers 1).read]? = some message)
    (text : outcome.bytes = frame py message)
    (hstep : AlpacaWSMarketFeed.step setting s.client (.complete (.read 1) outcome) = some client) :
    Prompted setting endpoint
      { s.setPeer 1 { s.peers 1 with read := (s.peers 1).read + 1 } with client := client } := by
  obtain ⟨hmessage, read, hparse, hsame⟩ := message_of_next hunderstands hfollows hbuffer next text
  have hutters := utters_of_message hsession ok hparse hstep
  rw [answers_of_kind hsession, kind_congr hsame] at hutters
  have hsaid := h.said
  have hpeer : ({ s.setPeer 1 { s.peers 1 with read := (s.peers 1).read + 1 } with client := client } :
      Replay ω).peers 1 = { s.peers 1 with read := (s.peers 1).read + 1 } :=
    setPeer_same (s := s) (c := 1) _
  refine ⟨?_, ?_⟩
  · rw [hutters.symbols]
    exact h.suits
  · rw [hpeer]
    show min ((s.peers 1).read + 1) 2 ≤ client.sentTexts.length
    rw [hutters.sends, List.length_append]
    rcases kind_of_message hmessage with ⟨hzero, hkind⟩ | ⟨hone, hkind⟩ | ⟨htwo, -⟩
    · obtain ⟨text, htext⟩ := Option.isSome_iff_exists.mp hauth
      rw [hkind]
      dsimp only
      rw [authTexts, htext, hzero]
      exact Nat.le_add_left 1 _
    · obtain ⟨text, htext⟩ := Option.isSome_iff_exists.mp h.suits.prints
      have hne : s.client.handlerState.subscribedSymbols ≠ [] := List.ne_nil_of_mem h.suits.mem
      rw [hkind]
      dsimp only
      rw [if_pos hne, htext, hone]
      rw [hone] at hsaid
      exact Nat.add_le_add_right hsaid 1
    · omega

/-- A step of the coroutine of the first connection. -/
theorem Prompted.serve (h : Prompted setting endpoint s) {peer : Peer}
    (hread : peer.read = (s.peers 1).read) : Prompted setting endpoint (s.setPeer 1 peer) := by
  have hpeer : (s.setPeer 1 peer).peers 1 = peer := setPeer_same _
  refine ⟨h.suits, ?_⟩
  rw [hpeer, hread]
  exact h.said

/-- With each of the first two messages that it reads, the feed says something. -/
theorem Prompted.of_step (h : Prompted setting endpoint s) (hin : InStep setting endpoint world s)
    (hsession : s.client.handlerState.wsSession = true)
    (hauth : (setting.json.dump (authMessage setting.config)).isSome)
    (hunderstands : Understands setting.json endpoint) (hfits : a.Fits setting endpoint)
    (hone : s.client.connection ≤ 1) (hstep : step setting endpoint s a = some t) :
    Prompted setting endpoint t := by
  have hfirst : ∀ {connection}, s.IsOpened connection → connection = 1 :=
    fun hopened => le_antisymm (hopened.2.trans hone) hopened.1
  cases transition_of_step hstep with
  | moved noRead stepped => exact h.moved hsession hfits noRead stepped
  | @read outcome message client ok next text stepped =>
    have hconnection : s.client.connection = 1 := hfirst (hin.isOpened_of_next next)
    rw [hconnection] at next stepped ⊢
    exact h.read hsession hauth hunderstands (hin.follows 1) hin.buffer ok next text stepped
  | sent opened | ended opened | received opened =>
    obtain rfl := hfirst opened
    exact h.serve rfl
  | closed => exact hfits.elim

/-! ## What grows -/

/-- How often the coroutine has returned. -/
def returns : Coroutine → ℕ
  | .returned => 1
  | .sendConnected | .recvAuth | .sendAuthenticated | .recvSubscribe | .sendSubscribed | .streamBars _
  | .raised => 0

/-- How much has been sent, received and read on a connection, and whether its coroutine has returned. -/
def progress (peer : Peer) : ℕ :=
  peer.sent.length + peer.received + peer.read + returns peer.coroutine

/-- A coroutine that sends or receives has not returned. -/
theorem returns_of_goesOn {coroutine : Coroutine}
    (h : (endpoint.sends coroutine).isSome ∨ ∃ text, (endpoint.receives text coroutine).isSome) :
    returns coroutine = 0 := by
  cases coroutine with
  | returned =>
    rcases h with hsends | ⟨text, hreceives⟩
    · cases hsends
    · cases hreceives
  | sendConnected | recvAuth | sendAuthenticated | recvSubscribe | sendSubscribed | streamBars | raised =>
    rfl

/-- A coroutine returns once. -/
theorem returns_le (coroutine : Coroutine) : returns coroutine ≤ 1 := by
  cases coroutine <;> simp [returns]

/-- A read that is answered fails, or brings the next message. -/
theorem next_of_answers (hstep : step setting endpoint s a = some t)
    (hanswers : (a.onSession setting).Answers (.read c)) : (a.onSession setting).Fails ∨
      ∃ message, (s.peers c).sent[(s.peers c).read]? = some message ∧
        t.peers c = { s.peers c with read := (s.peers c).read + 1 } := by
  obtain ⟨outcome, hanswer⟩ := hanswers
  cases transition_of_step hstep with
  | @moved b client noRead =>
    left
    obtain rfl : b = .complete (.read c) outcome := by
      cases b with
      | complete operation outcome' =>
        obtain ⟨rfl, rfl⟩ := WebSocketSession.Action.complete.inj hanswer
        rfl
      | subscribeToBars | subscribeToAllBars | stop | wake => cases hanswer
    have hec : outcome.ec = true := by
      by_contra hok
      simp [reads?, hok] at noRead
    exact ⟨by simp, Or.inl hec⟩
  | @read outcome' message client ok next =>
    right
    obtain ⟨hread, -⟩ := WebSocketSession.Action.complete.inj hanswer
    obtain rfl := WebSocketSession.Operation.read.inj hread
    exact ⟨message, next, setPeer_same _⟩
  | sent | ended | received | closed => cases hanswer

/-- A step of the coroutine and a read move the connection on, and nothing else changes it. -/
theorem progress_of_step (hopen : a ≠ .close c) (hstep : step setting endpoint s a = some t) :
    progress (s.peers c) < progress (t.peers c) ∨ t.peers c = s.peers c ∧ a ≠ .serve c ∧
      ((a.onSession setting).Answers (.read c) → (a.onSession setting).Fails) := by
  have hquiet : t.peers c = s.peers c → a ≠ .serve c →
      t.peers c = s.peers c ∧ a ≠ .serve c ∧
        ((a.onSession setting).Answers (.read c) → (a.onSession setting).Fails) := by
    intro hsame hserve
    refine ⟨hsame, hserve, fun hanswers => ?_⟩
    rcases next_of_answers hstep hanswers with hfails | ⟨message, -, hread⟩
    · exact hfails
    · have hcount := congrArg Peer.read hread
      rw [hsame] at hcount
      exact absurd hcount (Nat.succ_ne_self _).symm
  cases transition_of_step hstep with
  | moved => exact Or.inr (hquiet rfl (by simp))
  | read =>
    by_cases hsame : c = s.client.connection
    · left
      subst hsame
      show _ < progress ((s.setPeer _ _).peers _)
      rw [setPeer_same]
      simp only [progress]
      omega
    · exact Or.inr (hquiet (setPeer_other _ hsame) (by simp))
  | @sent connection message next _ sends =>
    by_cases hsame : c = connection
    · left
      have hbefore := @returns_of_goesOn _ endpoint _ (Or.inl (Option.isSome_of_eq_some sends))
      rw [hsame, setPeer_same]
      simp only [progress, hbefore, List.length_append, List.length_singleton]
      omega
    · exact Or.inr (hquiet (setPeer_other _ hsame) fun heq => hsame (Action.serve.inj heq).symm)
  | @ended connection _ streamed =>
    by_cases hsame : c = connection
    · left
      rw [hsame, setPeer_same]
      simp only [progress, streamed, returns]
      omega
    · exact Or.inr (hquiet (setPeer_other _ hsame) fun heq => hsame (Action.serve.inj heq).symm)
  | @received connection text next _ _ receives =>
    by_cases hsame : c = connection
    · left
      have hbefore := @returns_of_goesOn _ endpoint _
        (Or.inr ⟨text, Option.isSome_of_eq_some receives⟩)
      rw [hsame, setPeer_same]
      simp only [progress, hbefore]
      omega
    · exact Or.inr (hquiet (setPeer_other _ hsame) fun heq => hsame (Action.serve.inj heq).symm)
  | @closed connection =>
    have hother : c ≠ connection := fun hsame => hopen (by rw [hsame])
    exact Or.inr (hquiet (setPeer_other _ hother) (by simp))

/-- A coroutine that cannot go on has returned, if it is not kept waiting for a text. -/
theorem coroutine_of_disabled (opened : s.IsOpened c)
    (hdisabled : ¬ (step setting endpoint s (.serve c)).isSome) (hinOrder : InOrder (s.peers c))
    (harrived : (s.peers c).received < min (s.peers c).sent.length 2 →
      (s.peers c).received < (s.texts c).length) : (s.peers c).coroutine = .returned := by
  have hsends : endpoint.sends (s.peers c).coroutine = none := by
    by_contra hne
    obtain ⟨⟨message, next⟩, hsome⟩ := Option.ne_none_iff_exists'.mp hne
    simp [step, opened, Replay.serve, hsome] at hdisabled
  have hends : (s.peers c).coroutine.ends = none := by
    by_contra hne
    obtain ⟨next, hsome⟩ := Option.ne_none_iff_exists'.mp hne
    simp [step, opened, Replay.serve, hsends, hsome] at hdisabled
  have hwaits : ∀ next : Bytes → Coroutine,
      (∀ text, endpoint.receives text (s.peers c).coroutine = some (next text)) →
      (s.texts c).length ≤ (s.peers c).received := by
    intro next hreceives
    by_contra hlt
    simp [step, opened, Replay.serve, hsends, hends, hreceives,
      List.getElem?_eq_getElem (not_le.mp hlt)] at hdisabled
  unfold InOrder at hinOrder
  cases hcoroutine : (s.peers c).coroutine with
  | recvAuth | recvSubscribe =>
    rw [hcoroutine] at hinOrder hwaits
    have hle := hwaits _ fun _ => rfl
    have hlt := harrived (by omega)
    omega
  | streamBars rest =>
    rw [hcoroutine] at hsends hends
    cases rest with
    | nil => cases hends
    | cons bar rest => cases hsends
  | returned => rfl
  | raised =>
    rw [hcoroutine] at hinOrder
    exact hinOrder.elim
  | sendConnected | sendAuthenticated | sendSubscribed =>
    rw [hcoroutine] at hsends
    cases hsends

/-- The progress of a peer is bounded. -/
theorem progress_le {peer : Peer} (hfollows : peer.Follows endpoint) (hinOrder : InOrder peer) :
    progress peer ≤ endpoint.messages.length + 2 + endpoint.messages.length + 1 := by
  have hsent := hfollows.sent.length_le
  have hread := hfollows.read
  have hreceived : peer.received ≤ 2 := by
    unfold InOrder at hinOrder
    cases hcoroutine : peer.coroutine with
    | raised =>
      rw [hcoroutine] at hinOrder
      exact hinOrder.elim
    | _ =>
      rw [hcoroutine] at hinOrder
      dsimp only at hinOrder
      omega
  have hreturns := returns_le peer.coroutine
  unfold progress
  omega

/-- A coroutine that receives does not return. -/
theorem ne_returned_of_receives {coroutine next : Coroutine} {text : Bytes}
    (h : endpoint.receives text coroutine = some next) : next ≠ .returned := by
  rintro rfl
  cases coroutine with
  | recvAuth | recvSubscribe =>
    have hnext := Option.some.inj h
    split at hnext <;> cases hnext
  | sendConnected | sendAuthenticated | sendSubscribed | streamBars | returned | raised => cases h

variable (endpoint) in
/-- A coroutine that has returned has sent every message. -/
def Complete (peer : Peer) : Prop := peer.coroutine = .returned → peer.sent = endpoint.messages

/-- A connection stays complete while it is not closed. -/
theorem Complete.of_step (h : Complete endpoint (s.peers c)) (hfollows : (s.peers c).Follows endpoint)
    (hopen : a ≠ .close c) (hstep : step setting endpoint s a = some t) :
    Complete endpoint (t.peers c) := by
  have hsetPeer : ∀ {connection : ℕ} {peer : Peer}, (c = connection → Complete endpoint peer) →
      Complete endpoint ((s.setPeer connection peer).peers c) := by
    intro connection peer hpeer
    by_cases hsame : c = connection
    · rw [← hsame, setPeer_same]
      exact hpeer hsame
    · rw [setPeer_other _ hsame]
      exact h
  cases transition_of_step hstep with
  | moved => exact h
  | read => exact hsetPeer fun hsame => hsame ▸ h
  | sent _ sends =>
    refine hsetPeer fun _ hreturned => ?_
    obtain ⟨rest, -, hnext⟩ := toSend_of_sends sends
    dsimp only at hreturned
    rw [hreturned] at hnext
    cases hnext
  | ended _ streamed =>
    refine hsetPeer fun hsame _ => ?_
    subst hsame
    have hnext := hfollows.next [] (by rw [streamed]; rfl)
    rw [List.append_nil] at hnext
    exact hnext.symm
  | received _ _ receives =>
    exact hsetPeer fun _ hreturned => absurd hreturned (ne_returned_of_receives receives)
  | closed => exact hsetPeer fun hsame => absurd (hsame ▸ rfl) hopen

/-- A finished connection stays as it is, but that the endpoint may find it closed. -/
theorem Finished.of_step (h : s.Finished c) (hstep : step setting endpoint s a = some t) :
    t.Finished c ∧ (t.peers c).sent = (s.peers c).sent := by
  have hsetPeer : ∀ {connection : ℕ} {peer : Peer},
      (c = connection → peer.coroutine = .returned ∧ peer.sent = (s.peers c).sent ∧
        peer.read = (s.peers c).read) →
      (s.setPeer connection peer).Finished c ∧
        ((s.setPeer connection peer).peers c).sent = (s.peers c).sent := by
    intro connection peer hpeer
    by_cases hsame : c = connection
    · obtain ⟨hcoroutine, hsent, hread⟩ := hpeer hsame
      rw [Finished, ← hsame, setPeer_same, hsent, hread]
      exact ⟨⟨hcoroutine, h.2⟩, rfl⟩
    · rw [Finished, setPeer_other _ hsame]
      exact ⟨h, rfl⟩
  cases transition_of_step hstep with
  | moved => exact ⟨h, rfl⟩
  | read _ next =>
    refine hsetPeer fun hsame => ?_
    subst hsame
    rw [h.2, List.getElem?_eq_none le_rfl] at next
    cases next
  | sent _ sends =>
    refine hsetPeer fun hsame => ?_
    rw [← hsame, h.1] at sends
    cases sends
  | ended _ streamed =>
    refine hsetPeer fun hsame => ?_
    rw [← hsame, h.1] at streamed
    cases streamed
  | received _ _ receives =>
    refine hsetPeer fun hsame => ?_
    rw [← hsame, h.1] at receives
    cases receives
  | closed =>
    refine hsetPeer fun hsame => ?_
    rw [← hsame, h.1]
    exact ⟨rfl, rfl, rfl⟩

/-- The feed starts its session. -/
theorem lively_start (symbols : List String) (world : ω) :
    (start setting symbols world).client.Lively := by
  refine WebSocketSession.lively_of_run (neverStops_frameHandler setting) ?_
    (List.mem_singleton_self WebSocketSession.Action.start) rfl
  rw [List.forall_mem_singleton]
  trivial

theorem Action.noStop_onSession (h : ∀ isOpen, a ≠ .client (.stop isOpen)) :
    (a.onSession setting).NoStop := by
  cases a with
  | client b => exact AlpacaWSMarketFeed.noStop_onSession setting fun isOpen hstop => h isOpen (hstop ▸ rfl)
  | serve connection | close connection =>
    intro _ call hmem
    cases hmem

/-! ## The whole file -/

section Endless

variable {r : Runs.Endless (step setting endpoint)} {N : ℕ}

/-- Every state of an endless run is reached by its first actions. -/
theorem Undisturbed.run (h : Undisturbed symbols world r N) (n : ℕ) :
    Run setting endpoint symbols world ((List.range n).map r.action) (r.state n) := by
  have hrun := r.run_range n
  rwa [h.init] at hrun

/-- Feed and endpoint are in step. -/
theorem Undisturbed.inStep (h : Undisturbed symbols world r N)
    (hunderstands : Understands setting.json endpoint) (n : ℕ) :
    InStep setting endpoint world (r.state n) := by
  refine inStep_of_run hunderstands (h.run n) ?_
  rw [List.forall_mem_map]
  exact fun k _ => h.clean k

/-- The first connection is never finished. There is no such run (`exists_finished`). -/
structure Unfinished (symbols : List String) (world : ω) (r : Runs.Endless (step setting endpoint))
    (N : ℕ) : Prop extends Undisturbed symbols world r N where
  never : ∀ n, ¬ (r.state n).Finished 1

/-- The session of the run, from its own start on. -/
def Unfinished.session (h : Unfinished symbols world r N) :
    Runs.Endless (WebSocketSession.step (sessionConfig setting.config) (frameHandler setting)) :=
  (r.map client (Action.onSession setting) fun _ _ _ => session_of_step).cons
    (s := { handlerState := { subscribedSymbols := symbols, world := world, wsSession := true } })
    (a := .start) (by
      show _ = some (r.state 0).client
      rw [h.init]
      rfl)

/-- Without failures the session is settled. -/
theorem Unfinished.settled (h : Unfinished symbols world r N) :
    WebSocketSession.Settled h.session (N + 1) where
  init := ⟨_, rfl⟩
  neverStops := neverStops_frameHandler setting
  noStop n := by
    cases n with
    | zero => trivial
    | succ n =>
      refine Action.noStop_onSession fun isOpen hstop => ?_
      have hfits := h.fits n (h.never n)
      rw [hstop] at hfits
      exact hfits.2 isOpen rfl
  starts := ⟨0, Nat.succ_pos N, rfl⟩
  noFailure n hn := by
    cases n with
    | zero => exact absurd hn (Nat.not_succ_le_zero N)
    | succ n => exact h.noFailure n (Nat.le_of_succ_le_succ hn) (h.never n)

/-- An attended session is answered. -/
theorem Unfinished.responsive (h : Unfinished symbols world r N) (hattended : Attended r) :
    WebSocketSession.Responsive WebSocketSession.Operation.isChainOrWrite h.session where
  wakes := by
    apply Runs.Endless.fair_cons
    refine Runs.Endless.fair_map hattended.wakes (fun _ => id) fun a ha => ?_
    rw [ha]
    rfl
  answers operation hselected := by
    apply Runs.Endless.fair_cons
    exact Runs.Endless.fair_map (hattended.answers operation hselected) (fun _ => id) fun _ => id

/-- There is one connection, since no other chain ever starts. -/
theorem Unfinished.connection_le (h : Unfinished symbols world r N) (n : ℕ) :
    (r.state n).client.connection ≤ 1 := by
  refine (WebSocketSession.connection_le_pending _).trans ?_
  refine r.stays (N := 0) (P := fun s => s.client.pending ≤ 1) le_rfl ?_ ?_ (Nat.zero_le n)
  · intro k _ hk
    refine (WebSocketSession.pending_of_step ?_ (h.retries k (h.never k)) (session_of_step (r.next k))).trans hk
    intro hstart
    cases haction : r.action k with
    | client b => rw [haction] at hstart; cases b <;> cases hstart
    | serve connection | close connection => rw [haction] at hstart; cases hstart
  · rw [h.init]
    exact le_rfl

/-- No connection is closed before the first one is finished. -/
theorem Unfinished.not_close (h : Unfinished symbols world r N) (n : ℕ) : r.action n ≠ .close c := by
  intro haction
  have hfits := h.fits n (h.never n)
  rw [haction] at hfits
  exact hfits

/-- What the feed has said goes by what it has read. -/
theorem Unfinished.introduced (h : Unfinished symbols world r N)
    (hunderstands : Understands setting.json endpoint) (hunderstood : IsUnderstood setting.json py) (n : ℕ) :
    Introduced setting endpoint (r.state n) := by
  refine introduced_of_run hunderstands hunderstood (h.run n) ?_ (Or.inr h.suits.mem) ?_ ?_
    (h.connection_le n)
  · rw [List.forall_mem_map]
    exact fun k _ => h.clean k
  · rw [List.forall_mem_map]
    intro k _
    have hfits := h.fits k (h.never k)
    cases haction : r.action k with
    | client b =>
      rw [haction] at hfits
      exact fun symbols hasked => (hfits.1 symbols hasked).mem
    | serve connection | close connection => trivial
  · intro hmem
    obtain ⟨k, -, haction⟩ := List.mem_map.mp hmem
    exact h.not_close k haction

/-- The feed has answered the first two messages as soon as it has read them. -/
theorem Unfinished.prompted (h : Unfinished symbols world r N)
    (hunderstands : Understands setting.json endpoint) (hunderstood : IsUnderstood setting.json py) (n : ℕ) :
    Prompted setting endpoint (r.state n) := by
  refine r.stays (N := 0) (P := Prompted setting endpoint) le_rfl ?_ ?_ (Nat.zero_le n)
  · intro k _ hk
    exact hk.of_step (h.inStep hunderstands k) (h.introduced hunderstands hunderstood k).wsSession
      h.authenticates hunderstands (h.fits k (h.never k)) (h.connection_le k) (r.next k)
  · rw [h.init]
    exact prompted_start h.suits world

/-- From some time on the first connection is open, and read from. -/
theorem Unfinished.exists_connected (h : Unfinished symbols world r N) (hattended : Attended r) :
    ∃ K, N ≤ K ∧ ∀ n, K ≤ n → (r.state n).client.connected = true ∧
      (r.state n).client.connection = 1 ∧ (r.state n).client.sleeping = false ∧
      .read 1 ∈ (r.state n).client.operations := by
  have hchain : WebSocketSession.Responsive WebSocketSession.Operation.isChain h.session := by
    refine (h.responsive hattended).of_imp fun operation hchain => ?_
    rw [WebSocketSession.Operation.isChainOrWrite, hchain, Bool.true_or]
  obtain ⟨K, hK, hconnected⟩ := h.settled.exists_connected hchain
  refine ⟨K, (Nat.le_succ N).trans hK, fun n hn => ?_⟩
  have hopen : (r.state n).client.connected = true := hconnected (n + 1) (hn.trans (Nat.le_succ n))
  have hlively : (r.state n).client.Lively := h.settled.lively (n := n + 1) (by omega)
  have hone : (r.state n).client.connection = 1 := by
    have hle := h.connection_le n
    have hne : (r.state n).client.connection ≠ 0 := by
      intro hzero
      rw [((fifo_of_run (h.run n) hle).inFlight.fresh hzero).1] at hopen
      cases hopen
    omega
  refine ⟨hopen, hone, hlively.willing.awake hopen, ?_⟩
  rw [← hone]
  exact hlively.reading hopen

/-- From `M` on the first connection is open, and nothing is sent, received or read on it any more. -/
structure Still (r : Runs.Endless (step setting endpoint)) (M : ℕ) (peer : Peer) : Prop where
  connected : ∀ n, M ≤ n → (r.state n).client.connected = true
  connection : ∀ n, M ≤ n → (r.state n).client.connection = 1
  reads : ∀ n, M ≤ n → (r.state n).client.sleeping = false ∧ .read 1 ∈ (r.state n).client.operations
  peer : ∀ n, M ≤ n → (r.state n).peers 1 = peer

/-- The progress of the first peer is bounded, so it comes to rest. -/
theorem Unfinished.exists_still (h : Unfinished symbols world r N)
    (hunderstands : Understands setting.json endpoint) (hunderstood : IsUnderstood setting.json py)
    (hattended : Attended r) : ∃ M peer, N ≤ M ∧ Still r M peer := by
  obtain ⟨K, hNK, hK⟩ := h.exists_connected hattended
  obtain ⟨M, hKM, hconstant⟩ := Runs.Endless.exists_constant (r := r) (N := K)
    (fun s => progress (s.peers 1)) (B := endpoint.messages.length + 2 + endpoint.messages.length + 1)
    (fun n _ => by
      rcases progress_of_step (h.not_close (c := 1) n) (r.next n) with hlt | ⟨hsame, -⟩
      · exact hlt.le
      · rw [hsame])
    (fun n _ => progress_le ((h.inStep hunderstands n).follows 1)
      (h.introduced hunderstands hunderstood n).inOrder)
  refine ⟨M, (r.state M).peers 1, hNK.trans hKM, fun n hn => (hK n (hKM.trans hn)).1,
    fun n hn => (hK n (hKM.trans hn)).2.1, fun n hn => (hK n (hKM.trans hn)).2.2, fun n hn => ?_⟩
  induction n, hn using Nat.le_induction with
  | base => rfl
  | succ n hn ih =>
    rcases progress_of_step (h.not_close (c := 1) n) (r.next n) with hlt | ⟨hsame, -⟩
    · have hbefore : progress ((r.state n).peers 1) = progress ((r.state M).peers 1) := hconstant n hn
      have hafter : progress ((r.state (n + 1)).peers 1) = progress ((r.state M).peers 1) :=
        hconstant (n + 1) (hn.trans (Nat.le_succ n))
      omega
    · rw [hsame, ih]

/-- No step moves the connection on. -/
theorem Unfinished.never_moves (h : Unfinished symbols world r N) {M : ℕ} {peer : Peer}
    (hstill : Still r M peer) {n : ℕ} (hn : M ≤ n) : r.action n ≠ .serve 1 ∧
      (((r.action n).onSession setting).Answers (.read 1) → ((r.action n).onSession setting).Fails) := by
  rcases progress_of_step (h.not_close (c := 1) n) (r.next n) with hlt | ⟨-, hmoves⟩
  · rw [hstill.peer n hn, hstill.peer (n + 1) (hn.trans (Nat.le_succ n))] at hlt
    exact absurd hlt (lt_irrefl _)
  · exact hmoves

/-- What has been handed to the session reaches the endpoint. -/
theorem Unfinished.exists_arrived (h : Unfinished symbols world r N) (hattended : Attended r) {M : ℕ}
    {peer : Peer} (hM : N ≤ M) (hstill : Still r M peer) :
    ∃ L, M ≤ L ∧ ∀ n, L ≤ n → (r.state M).client.sentTexts.length ≤ ((r.state n).texts 1).length := by
  obtain ⟨L, hL, -, hdequeued⟩ := h.settled.leadsTo_dequeued (h.responsive hattended) (K := M + 1)
    (Nat.succ_le_succ hM)
    (fun n hn => by
      obtain ⟨k, rfl⟩ := Nat.exists_eq_add_of_le' hn
      exact hstill.connected (k + M) (Nat.le_add_left M k))
    (r.state M).client.sentTexts (r.state M).client.sentTexts.length (M + 1) le_rfl
    ⟨List.prefix_rfl, Nat.le_add_left _ _⟩
  obtain ⟨k, rfl⟩ := Nat.exists_eq_add_of_le' hL
  refine ⟨k + M, Nat.le_add_left M k, fun n hn => ?_⟩
  refine r.stays (N := 0) (P := fun s => (r.state M).client.sentTexts.length ≤ (s.texts 1).length)
    (Nat.zero_le _) ?_ ?_ hn
  · intro m _ hm
    exact hm.trans (texts_of_step (r.next m)).1.length_le
  · rw [texts_eq_begun (h.run (k + M)) (h.connection_le (k + M))]
    exact hdequeued.trans (fifo_of_run (h.run (k + M)) (h.connection_le (k + M))).length_dequeued_le

/-- Every message that has been sent has been read. -/
theorem Unfinished.read_all (h : Unfinished symbols world r N)
    (hunderstands : Understands setting.json endpoint) (hattended : Attended r) {M : ℕ} {peer : Peer}
    (hM : N ≤ M) (hstill : Still r M peer) : peer.read = peer.sent.length := by
  obtain ⟨m, hm, hdisabled⟩ := (hattended.reads 1).exists_disabled
    (fun n hn hanswer => h.noFailure n (hM.trans hn) (h.never n) ((h.never_moves hstill hn).2 hanswer)) le_rfl
  have hfollows := (h.inStep hunderstands m).follows 1
  rw [hstill.peer m hm] at hdisabled hfollows
  refine le_antisymm hfollows.read ?_
  by_contra hlt
  exact hdisabled ⟨(hstill.reads m hm).1, (hstill.reads m hm).2, Or.inl (not_le.mp hlt)⟩

/-- The coroutine has returned. -/
theorem Unfinished.returned (h : Unfinished symbols world r N)
    (hunderstands : Understands setting.json endpoint) (hunderstood : IsUnderstood setting.json py)
    (hattended : Attended r) {M : ℕ} {peer : Peer} (hM : N ≤ M) (hstill : Still r M peer) :
    peer.coroutine = .returned := by
  obtain ⟨L, hML, harrived⟩ := h.exists_arrived hattended hM hstill
  obtain ⟨m, hm, hdisabled⟩ := (hattended.serves 1).exists_disabled
    (fun n hn hserve => (h.never_moves hstill hn).1 hserve) hML
  have hMm := hML.trans hm
  have hpeer := hstill.peer m hMm
  have hread := h.read_all hunderstands hattended hM hstill
  rw [← hpeer]
  refine coroutine_of_disabled ⟨Nat.one_pos, (hstill.connection m hMm).ge⟩ hdisabled
    (h.introduced hunderstands hunderstood m).inOrder ?_
  intro hwaits
  have hsaid := (h.prompted hunderstands hunderstood M).said
  have htexts := harrived m hm
  rw [hstill.peer M le_rfl, hread] at hsaid
  rw [hpeer] at hwaits ⊢
  omega

/-- The first connection is finished in the end. -/
theorem Undisturbed.exists_finished (h : Undisturbed symbols world r N)
    (hunderstands : Understands setting.json endpoint) (hunderstood : IsUnderstood setting.json py)
    (hattended : Attended r) : ∃ M, (r.state M).Finished 1 := by
  by_contra hnever
  have hunfinished : Unfinished symbols world r N := ⟨h, not_exists.mp hnever⟩
  obtain ⟨M, peer, hM, hstill⟩ := hunfinished.exists_still hunderstands hunderstood hattended
  apply hunfinished.never M
  rw [Finished, hstill.peer M le_rfl]
  exact ⟨hunfinished.returned hunderstands hunderstood hattended hM hstill,
    hunfinished.read_all hunderstands hattended hM hstill⟩

/-! ## After the whole file -/

/-- The first connection is finished, and was not before `M`. Every message has been sent on it. -/
structure FinishedAt (r : Runs.Endless (step setting endpoint)) (M : ℕ) : Prop where
  before : ∀ n, n < M → ¬ (r.state n).Finished 1
  finished : ∀ n, M ≤ n → (r.state n).Finished 1
  sent : ∀ n, M ≤ n → ((r.state n).peers 1).sent = endpoint.messages

/-- The first connection is finished at last: otherwise the peer at rest would have a step to take. -/
theorem Undisturbed.exists_finishedAt (h : Undisturbed symbols world r N)
    (hunderstands : Understands setting.json endpoint) (hunderstood : IsUnderstood setting.json py)
    (hattended : Attended r) : ∃ M, FinishedAt r M := by
  have hexists := h.exists_finished hunderstands hunderstood hattended
  obtain ⟨M, hM, hbefore⟩ : ∃ M, (r.state M).Finished 1 ∧ ∀ n, n < M → ¬ (r.state n).Finished 1 := by
    classical
    exact ⟨Nat.find hexists, Nat.find_spec hexists, fun n hn => Nat.find_min hexists hn⟩
  have hcomplete : ∀ n, n ≤ M → Complete endpoint ((r.state n).peers 1) := by
    intro n
    induction n with
    | zero =>
      intro _ hreturned
      rw [h.init] at hreturned
      cases hreturned
    | succ n ih =>
      intro hn
      refine (ih (Nat.le_of_succ_le hn)).of_step ((h.inStep hunderstands n).follows 1) ?_ (r.next n)
      intro hclose
      have hfits := h.fits n (hbefore n hn)
      rw [hclose] at hfits
      exact hfits
  have hstays : ∀ n, M ≤ n → (r.state n).Finished 1 ∧ ((r.state n).peers 1).sent = endpoint.messages := by
    intro n hn
    refine r.stays (N := 0) (P := fun s => s.Finished 1 ∧ (s.peers 1).sent = endpoint.messages)
      (Nat.zero_le M) ?_ ⟨hM, hcomplete M le_rfl hM.1⟩ hn
    rintro k - ⟨hfinished, hsent⟩
    obtain ⟨hfinished', hsame⟩ := hfinished.of_step (r.next k)
    exact ⟨hfinished', hsame.trans hsent⟩
  exact ⟨M, hbefore, fun n hn => (hstays n hn).1, fun n hn => (hstays n hn).2⟩

/-- The server has closed the connection, and so the feed leaves it in the end. -/
theorem Undisturbed.exists_left (h : Undisturbed symbols world r N)
    (hunderstands : Understands setting.json endpoint) (hattended : Attended r) {M : ℕ}
    (hM : FinishedAt r M) : ∃ L, M ≤ L ∧ ∀ n, L ≤ n → (r.state n).client.Left := by
  have hopened : ∀ n, M ≤ n → 1 ≤ (r.state n).client.connection := by
    intro n hn
    have hfinished := (hM.finished n hn).1
    by_contra hnone
    rw [(h.inStep hunderstands n).unopened 1 fun hopened => hnone hopened.2] at hfinished
    cases hfinished
  suffices hleft : ∃ L, M ≤ L ∧ (r.state L).client.Left by
    obtain ⟨L, hL, hleft⟩ := hleft
    refine ⟨L, hL, fun n hn => ?_⟩
    refine r.stays (N := 0) (P := fun s => s.client.Left) (Nat.zero_le L) ?_ hleft hn
    exact fun k _ hk => hk.of_step (session_of_step (r.next k))
  by_contra hnever
  have hstays : ∀ n, M ≤ n → (r.state n).client.connected = true ∧ (r.state n).client.connection = 1 := by
    intro n hn
    by_contra hnot
    refine hnever ⟨n, hn, hopened n hn, fun hconnected => ?_⟩
    have hne : (r.state n).client.connection ≠ 1 := fun hone => hnot ⟨hconnected, hone⟩
    have hone := hopened n hn
    omega
  have hnoStop : ∀ n, ((r.action n).onSession setting).NoStop := by
    intro n
    apply Action.noStop_onSession
    intro isOpen hstop
    by_cases hn : n < M
    · have hfits := h.fits n (hM.before n hn)
      rw [hstop] at hfits
      exact hfits.2 isOpen rfl
    · -- a stop would disconnect
      have hnext := session_of_step (r.next n)
      rw [hstop] at hnext
      have hconnected := (hstays (n + 1) (by omega)).1
      rw [← Option.some.inj hnext] at hconnected
      simp [WebSocketSession.performAll] at hconnected
  have hlively : ∀ n, (r.state n).client.Lively := by
    intro n
    refine r.stays (N := 0) (P := fun s => s.client.Lively) le_rfl ?_ ?_ (Nat.zero_le n)
    · intro k _ hk
      exact hk.step (neverStops_frameHandler setting) (hnoStop k) (session_of_step (r.next k))
    · rw [h.init]
      exact lively_start symbols world
  obtain ⟨m, hm, hanswers⟩ := hattended.reads 1 M
  obtain ⟨hconnected, hone⟩ := hstays m hm
  have hreading := (hlively m).reading hconnected
  rw [hone] at hreading
  have hread := hanswers ⟨(hlively m).willing.awake hconnected, hreading,
    Or.inr (Or.inl (hM.finished m hm).1)⟩
  rcases next_of_answers (r.next m) hread with hfails | ⟨message, hnext, -⟩
  · have hdisconnected := WebSocketSession.connected_of_fails hfails (session_of_step (r.next m))
    rw [(hstays (m + 1) (hm.trans (Nat.le_succ m))).1] at hdisconnected
    cases hdisconnected
  · rw [(hM.finished m hm).2, List.getElem?_eq_none le_rfl] at hnext
    cases hnext

/-- The bars of a finished connection come first. -/
theorem barsUpTo_of_finished (json : Nlohmann) (hfinished : s.Finished 1)
    (hsent : (s.peers 1).sent = endpoint.messages) {connections : ℕ} (hone : 1 ≤ connections) :
    ∃ later, s.barsUpTo json connections = barsRead json endpoint ++ later := by
  obtain ⟨more, rfl⟩ := Nat.exists_eq_add_of_le' hone
  rw [barsUpTo, List.range_succ_eq_map, List.flatMap_cons]
  refine ⟨_, congrArg (· ++ _) ?_⟩
  show s.barsOn json 1 = _
  rw [barsOn, hfinished.2, List.take_length, hsent]
  rfl

/-- In every endless run in which nothing fails on the first connection before it is finished, and in which
the feed, the endpoint and the network do what they can: from some moment on the first connection is
finished, the feed is connected over a later one if at all, and its slots have been called with the bars of
the file first, all of them, in order and once. -/
theorem whole_file_of_replay (hunderstands : Understands setting.json endpoint)
    (hunderstood : IsUnderstood setting.json py) (h : Undisturbed symbols world r N)
    (hattended : Attended r) : ∃ M, ∀ n, M ≤ n → (r.state n).Finished 1 ∧
      ((r.state n).client.connected = true → 1 < (r.state n).client.connection) ∧
      ∃ later, (r.state n).client.handlerState.world
        = callSlots setting.slots (barsRead setting.json endpoint ++ later) world := by
  obtain ⟨M, hM⟩ := h.exists_finishedAt hunderstands hunderstood hattended
  obtain ⟨L, hL, hleft⟩ := h.exists_left hunderstands hattended hM
  refine ⟨L, fun n hn => ⟨hM.finished n (hL.trans hn), (hleft n hn).2, ?_⟩⟩
  obtain ⟨later, hbars⟩ := barsUpTo_of_finished setting.json (hM.finished n (hL.trans hn))
    (hM.sent n (hL.trans hn)) (hleft n hn).1
  exact ⟨later, by rw [(h.inStep hunderstands n).delivered, hbars]⟩

end Endless

/-! ## A run that retries -/

/-- The first attempt to resolve the host fails. On the second one the whole file is read, and the endpoint
returns. -/
def replayServed : List Action :=
  [.client (.complete (.resolve "stream.data.alpaca.markets" "443") { ec := true }), .client .wake]
    ++ replayOn 1 5 ++ [.serve 1]

/-- The read ends with the connection, and the user stops the feed before it connects again. -/
def replayRetried : List Action :=
  replayServed ++ [.client (.complete (.read 1) { ec := true }), .client (.stop false), .client .wake]

/-- That a coroutine which has returned finds its connection closed changes nothing. -/
theorem run_close (opened : s.IsOpened c) (hreturned : (s.peers c).coroutine = .returned) :
    Runs.run (step setting endpoint) s [.close c] = some s := by
  have hpeer : ({ s.peers c with coroutine := (s.peers c).coroutine.closed } : Peer) = s.peers c := by
    rw [show (s.peers c).coroutine.closed = (s.peers c).coroutine by rw [hreturned]; rfl]
  have hstep : step setting endpoint s (.close c) = some s := by
    simp only [step, if_pos opened, hpeer, setPeer, Function.update_eq_self]
  exact Runs.run_cons.mpr ⟨s, hstep, rfl⟩

/-- Only a coroutine that has returned counts as such. -/
theorem returned_of_returns {coroutine : Coroutine} (h : returns coroutine = 1) :
    coroutine = .returned := by
  cases coroutine with
  | returned => rfl
  | sendConnected | recvAuth | sendAuthenticated | recvSubscribe | sendSubscribed | streamBars | raised =>
    cases h

/-- The user asks for what the endpoint accepts. -/
theorem replayServed_fits : ∀ a ∈ replayServed, a.Fits exampleReplaySetting exampleEndpoint := by
  simp [replayServed, replayOn, connecting, exampleTimes, Action.Fits, AlpacaWSMarketFeed.Action.asked]

/-- After the first failure nothing fails. -/
theorem replayServed_noFailure :
    ∀ a ∈ replayServed.drop 1, ¬ (a.onSession exampleReplaySetting).Fails := by
  simp [replayServed, replayOn, connecting, exampleTimes, Action.onSession,
    AlpacaWSMarketFeed.Action.onSession, WebSocketSession.Action.Fails]

/-- After the second attempt to resolve the host the whole file has been read. -/
theorem exists_served : ∃ u, Runs.run (step exampleReplaySetting exampleEndpoint)
    (start exampleReplaySetting ["AAPL"] []) replayServed = some u ∧ u.Finished 1 := by
  have hserved : (Runs.run (step exampleReplaySetting exampleEndpoint)
      (start exampleReplaySetting ["AAPL"] []) replayServed).map (fun u =>
        decide (returns (u.peers 1).coroutine = 1)
          && decide ((u.peers 1).read = (u.peers 1).sent.length)) = some true := by
    decide +kernel
  obtain ⟨u, hu, hfinished⟩ := Option.map_eq_some_iff.mp hserved
  rw [Bool.and_eq_true, decide_eq_true_eq, decide_eq_true_eq] at hfinished
  exact ⟨u, hu, returned_of_returns hfinished.1, hfinished.2⟩

/-- At the end the feed is stopped and the coroutine has returned: only the heartbeat is pending. -/
theorem exists_retried : ∃ t, Runs.run (step exampleReplaySetting exampleEndpoint)
    (start exampleReplaySetting ["AAPL"] []) replayRetried = some t ∧ t.client.sleeping = false ∧
      t.client.operations = [.heartbeat] ∧ t.client.connection = 1 ∧
      (t.peers 1).coroutine = .returned := by
  have hrest : (Runs.run (step exampleReplaySetting exampleEndpoint)
      (start exampleReplaySetting ["AAPL"] []) replayRetried).map (fun t =>
        decide (t.client.operations = [.heartbeat]) && !t.client.sleeping
          && decide (t.client.connection = 1) && decide (returns (t.peers 1).coroutine = 1)) = some true := by
    decide +kernel
  obtain ⟨t, ht, hend⟩ := Option.map_eq_some_iff.mp hrest
  simp only [Bool.and_eq_true, decide_eq_true_eq, Bool.not_eq_true'] at hend
  obtain ⟨⟨⟨hoperations, hawake⟩, hone⟩, hreturned⟩ := hend
  exact ⟨t, ht, hawake, hoperations, hone, returned_of_returns hreturned⟩

section Round

variable {t : Replay (List (Bar1min ℚ))}
  (ht : Runs.run (step exampleReplaySetting exampleEndpoint) (start exampleReplaySetting ["AAPL"] [])
    replayRetried = some t)
  (hcycle : Runs.run (step exampleReplaySetting exampleEndpoint) t [.close 1] = some t)
  (hne : [Action.close 1] ≠ [])

/-- The run that is served is the beginning of the run. -/
theorem take_replayRetried : replayRetried.take replayServed.length = replayServed :=
  List.take_left

/-- The rest of the run is longer than what is served of it. -/
theorem length_replayServed_le : replayServed.length ≤ replayRetried.length := by
  rw [replayRetried, List.length_append]
  exact Nat.le_add_right _ _

/-- Once the whole file has been read, that stays so. -/
theorem finished_lasso {n : ℕ} (hn : replayServed.length ≤ n) :
    ((Runs.Endless.lasso _ ht hcycle hne).state n).Finished 1 := by
  obtain ⟨u, hu, hfinished⟩ := exists_served
  refine (Runs.Endless.lasso _ ht hcycle hne).stays (N := 0) (P := fun s => s.Finished 1)
    (Nat.zero_le _) (fun k _ hk => (hk.of_step (Runs.Endless.next _ k)).1) ?_ hn
  rw [Runs.Endless.lasso_state ht hcycle hne length_replayServed_le, take_replayRetried, hu]
  exact hfinished

/-- Until then the actions are those of the run that is served. -/
theorem mem_replayServed {k n : ℕ} (hk : k ≤ n)
    (hn : ¬ ((Runs.Endless.lasso _ ht hcycle hne).state n).Finished 1) :
    (Runs.Endless.lasso _ ht hcycle hne).action n ∈ replayServed.drop k := by
  have hlt : n < replayServed.length := not_le.mp fun hle => hn (finished_lasso ht hcycle hne hle)
  rw [← take_replayRetried]
  exact Runs.Endless.lasso_action_mem_take ht hcycle hne hk hlt length_replayServed_le

/-- Only the first attempt to resolve the host fails before the whole file has been read. -/
theorem undisturbed_lasso : Undisturbed ["AAPL"] [] (Runs.Endless.lasso _ ht hcycle hne) 1 := by
  refine ⟨rfl, rfl, ⟨List.mem_singleton_self _, rfl⟩, ?_, ?_, ?_, ?_⟩
  · intro n
    have hall : ∀ a ∈ replayRetried.drop 0 ++ [.close 1], a.Clean := by
      simp [replayRetried, replayServed, replayOn, connecting, exampleTimes, Action.Clean]
    exact hall _ (Runs.Endless.lasso_action_mem ht hcycle hne (Nat.zero_le n))
  · intro n hn
    exact replayServed_fits _ (mem_replayServed ht hcycle hne (Nat.zero_le n) hn)
  · intro n hn hfails
    -- the attempt to resolve the host is a stage
    cases n with
    | zero => exact ⟨_, rfl, _, rfl⟩
    | succ n =>
      have hmem := mem_replayServed ht hcycle hne (Nat.succ_pos n) hn
      exact absurd hfails (replayServed_noFailure _ hmem)
  · intro n hN hn
    exact replayServed_noFailure _ (mem_replayServed ht hcycle hne hN hn)

/-- At the end of a round nothing is enabled that fairness is about. -/
theorem attended_lasso (hawake : t.client.sleeping = false) (hoperations : t.client.operations = [.heartbeat])
    (hone : t.client.connection = 1) (hreturned : (t.peers 1).coroutine = .returned) :
    Attended (Runs.Endless.lasso _ ht hcycle hne) where
  wakes := Runs.Endless.lasso_fair ht hcycle hne (by simp [hawake]) _
  answers := by
    intro operation hselected
    refine Runs.Endless.lasso_fair ht hcycle hne (fun henabled => ?_) _
    have hheartbeat := henabled.2
    rw [hoperations, List.mem_singleton] at hheartbeat
    rw [hheartbeat] at hselected
    cases hselected
  reads := by
    intro c
    refine Runs.Endless.lasso_fair ht hcycle hne (fun henabled => ?_) _
    have hread := henabled.2.1
    rw [hoperations, List.mem_singleton] at hread
    cases hread
  serves := by
    intro c
    refine Runs.Endless.lasso_fair ht hcycle hne (fun henabled => ?_) _
    by_cases hopens : t.IsOpened c
    · obtain rfl : c = 1 := le_antisymm (hopens.2.trans hone.le) hopens.1
      simp [step, hopens, Replay.serve, hreturned, sends, receives, Coroutine.ends] at henabled
    · simp [step, hopens] at henabled

end Round

/-- The run goes on, with nothing left to do, forever. -/
theorem exists_undisturbed : ∃ r : Runs.Endless (step exampleReplaySetting exampleEndpoint),
    Undisturbed ["AAPL"] [] r 1 ∧ Attended r := by
  obtain ⟨t, ht, hawake, hoperations, hone, hreturned⟩ := exists_retried
  have hcycle : Runs.run (step exampleReplaySetting exampleEndpoint) t [.close 1] = some t :=
    run_close ⟨Nat.one_pos, hone.ge⟩ hreturned
  have hne : [Action.close 1] ≠ [] := List.cons_ne_nil _ _
  exact ⟨Runs.Endless.lasso _ ht hcycle hne, undisturbed_lasso ht hcycle hne,
    attended_lasso ht hcycle hne hawake hoperations hone hreturned⟩

/-- One failure to resolve, and the whole file. -/
theorem whole_file_of_replay_replayRetried :
    ∃ r : Runs.Endless (step exampleReplaySetting exampleEndpoint), Undisturbed ["AAPL"] [] r 1 ∧
      Attended r ∧ ∃ M, ∀ n, M ≤ n → (r.state n).Finished 1 ∧
        ((r.state n).client.connected = true → 1 < (r.state n).client.connection) ∧
        ∃ later, (r.state n).client.handlerState.world
          = callSlots exampleReplaySetting.slots (barsRead exampleJson exampleEndpoint ++ later) [] := by
  obtain ⟨r, hundisturbed, hattended⟩ := exists_undisturbed
  exact ⟨r, hundisturbed, hattended, whole_file_of_replay exampleJson_understands exampleJson_isUnderstood
    hundisturbed hattended⟩

end Replay

end MacdTradingBot
