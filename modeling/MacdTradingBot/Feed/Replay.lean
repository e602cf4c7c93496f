import MacdTradingBot.Feed.HistoricalEndpoint
import MacdTradingBot.WebSocket.Frames

/-!
# Replaying a file

The feed connected to the historical endpoint: the session of the feed, a coroutine for each connection,
and the channels between them. A read brings the next message of the open connection, and a coroutine
receives the texts whose writes have been started. Every connection replays the file from its first bar
(`bars_of_replay`).
-/

namespace MacdTradingBot

open AlpacaWSMarketFeed HistoricalAlpacaWSEndpoint

/-- The session of the feed, and the connections that the endpoint serves, by their numbers. -/
structure Replay (ω : Type) where
  client : WebSocketSession (AlpacaWSMarketFeed ω)
  peers : ℕ → Peer := fun _ => {}

namespace Replay

variable {ω : Type} {py : Python}

/-- What can happen next: a step of the feed; a step of the coroutine of a connection; or the endpoint
finds the connection closed. -/
inductive Action
  | client (a : AlpacaWSMarketFeed.Action)
  | serve (connection : ℕ)
  | close (connection : ℕ)

/-- The connection and the text of a read that succeeds. -/
def reads? : AlpacaWSMarketFeed.Action → Option (ℕ × Bytes)
  | .complete (.read connection) outcome => if outcome.ec then none else some (connection, outcome.bytes)
  | .subscribeToBars _ | .subscribeToAllBars | .stop _ | .wake | .complete _ _ => none

/-- The texts that the feed has begun to write on the connection, in order. -/
def texts (s : Replay ω) (connection : ℕ) : List Bytes :=
  (s.client.starts.filter (·.1 = connection)).map Prod.snd

def setPeer (s : Replay ω) (connection : ℕ) (peer : Peer) : Replay ω :=
  { s with peers := Function.update s.peers connection peer }

/-- The connection has been opened. -/
def IsOpened (s : Replay ω) (connection : ℕ) : Prop := 0 < connection ∧ connection ≤ s.client.connection

instance (s : Replay ω) (connection : ℕ) : Decidable (s.IsOpened connection) :=
  inferInstanceAs (Decidable (_ ∧ _))

/-- The coroutine of the connection sends its next message, comes to its end, or receives the next text. -/
def serve (endpoint : HistoricalAlpacaWSEndpoint py) (s : Replay ω) (connection : ℕ) :
    Option (Replay ω) :=
  let peer := s.peers connection
  match endpoint.sends peer.coroutine with
  | some (message, next) =>
    some (s.setPeer connection { peer with coroutine := next, sent := peer.sent ++ [message] })
  | none =>
    match peer.coroutine.ends with
    | some next => some (s.setPeer connection { peer with coroutine := next })
    | none =>
      (s.texts connection)[peer.received]?.bind fun text =>
        (endpoint.receives text peer.coroutine).map fun next =>
          s.setPeer connection { peer with coroutine := next, received := peer.received + 1 }

/-- One step. Reads succeed on the open connection alone, and bring its next message; so on a connection
that the server has closed they can only fail once everything has been read. -/
def step (setting : Setting ω) (endpoint : HistoricalAlpacaWSEndpoint py) (s : Replay ω) :
    Action → Option (Replay ω)
  | .client a =>
    match reads? a with
    | none => (AlpacaWSMarketFeed.step setting s.client a).map fun client => { s with client := client }
    | some (connection, text) =>
      let peer := s.peers connection
      if connection = s.client.connection ∧ peer.sent[peer.read]?.map (frame py) = some text then
        (AlpacaWSMarketFeed.step setting s.client a).map fun client =>
          { s.setPeer connection { peer with read := peer.read + 1 } with client := client }
      else
        none
  | .serve connection => if s.IsOpened connection then s.serve endpoint connection else none
  | .close connection =>
    if s.IsOpened connection then
      some (s.setPeer connection
        { s.peers connection with coroutine := (s.peers connection).coroutine.closed })
    else
      none

/-- The feed has been started with these symbols. -/
def start (setting : Setting ω) (symbols : List String) (world : ω) : Replay ω where
  client := AlpacaWSMarketFeed.start setting { subscribedSymbols := symbols, world := world }

/-- A run from the `start` of the feed. -/
abbrev Run (setting : Setting ω) (endpoint : HistoricalAlpacaWSEndpoint py) (symbols : List String)
    (world : ω) (as : List Action) (s : Replay ω) : Prop :=
  Runs.run (step setting endpoint) (start setting symbols world) as = some s

variable {setting : Setting ω} {endpoint : HistoricalAlpacaWSEndpoint py} {s t : Replay ω} {a : Action} {c : ℕ}

/-! ## The steps -/

/-- The steps of a replay. -/
inductive Transition (setting : Setting ω) (endpoint : HistoricalAlpacaWSEndpoint py) (s : Replay ω) :
    Action → Replay ω → Prop
  | moved {a : AlpacaWSMarketFeed.Action} {client : WebSocketSession (AlpacaWSMarketFeed ω)}
      (noRead : reads? a = none)
      (stepped : AlpacaWSMarketFeed.step setting s.client a = some client) :
      Transition setting endpoint s (.client a) { s with client := client }
  | read {outcome : WebSocketSession.Outcome} {message : Json}
      {client : WebSocketSession (AlpacaWSMarketFeed ω)} (ok : outcome.ec = false)
      (next : (s.peers s.client.connection).sent[(s.peers s.client.connection).read]? = some message)
      (text : outcome.bytes = frame py message)
      (stepped : AlpacaWSMarketFeed.step setting s.client
        (.complete (.read s.client.connection) outcome) = some client) :
      Transition setting endpoint s (.client (.complete (.read s.client.connection) outcome))
        { s.setPeer s.client.connection { s.peers s.client.connection with
            read := (s.peers s.client.connection).read + 1 } with client := client }
  | sent {connection : ℕ} {message : Json} {next : Coroutine} (opened : s.IsOpened connection)
      (sends : endpoint.sends (s.peers connection).coroutine = some (message, next)) :
      Transition setting endpoint s (.serve connection) (s.setPeer connection
        { s.peers connection with
          coroutine := next
          sent := (s.peers connection).sent ++ [message] })
  | ended {connection : ℕ} (opened : s.IsOpened connection)
      (streamed : (s.peers connection).coroutine = .streamBars []) :
      Transition setting endpoint s (.serve connection) (s.setPeer connection
        { s.peers connection with coroutine := .returned })
  | received {connection : ℕ} {text : Bytes} {next : Coroutine} (opened : s.IsOpened connection)
      (arrived : (s.texts connection)[(s.peers connection).received]? = some text)
      (receives : endpoint.receives text (s.peers connection).coroutine = some next) :
      Transition setting endpoint s (.serve connection) (s.setPeer connection
        { s.peers connection with
          coroutine := next
          received := (s.peers connection).received + 1 })
  | closed {connection : ℕ} (opened : s.IsOpened connection) :
      Transition setting endpoint s (.close connection) (s.setPeer connection
        { s.peers connection with coroutine := (s.peers connection).coroutine.closed })

/-- A read that brings a text is one that has not failed. -/
theorem reads?_eq_some {a : AlpacaWSMarketFeed.Action} {connection : ℕ} {text : Bytes}
    (h : reads? a = some (connection, text)) :
    ∃ outcome, a = .complete (.read connection) outcome ∧ outcome.ec = false ∧ outcome.bytes = text := by
  cases a with
  | complete operation outcome =>
    cases operation with
    | read c =>
      cases hec : outcome.ec with
      | true => simp [reads?, hec] at h
      | false =>
        simp only [reads?, hec, Bool.false_eq_true, if_false, Option.some.injEq, Prod.mk.injEq] at h
        obtain ⟨rfl, rfl⟩ := h
        exact ⟨outcome, rfl, hec, rfl⟩
    | _ => cases h
  | _ => cases h

/-- A step is one of the transitions. -/
theorem transition_of_step (h : step setting endpoint s a = some t) : Transition setting endpoint s a t := by
  cases a with
  | client a =>
    cases hreads : reads? a with
    | none =>
      simp only [step, hreads, Option.map_eq_some_iff] at h
      obtain ⟨client, hstep, rfl⟩ := h
      exact .moved hreads hstep
    | some read =>
      obtain ⟨connection, text⟩ := read
      obtain ⟨outcome, rfl, hec, rfl⟩ := reads?_eq_some hreads
      simp only [step, hreads] at h
      split at h
      · rename_i hcurrent
        obtain ⟨rfl, hnext⟩ := hcurrent
        obtain ⟨message, hmessage, htext⟩ := Option.map_eq_some_iff.mp hnext
        obtain ⟨client, hstep, rfl⟩ := Option.map_eq_some_iff.mp h
        exact .read hec hmessage htext.symm hstep
      · cases h
  | serve connection =>
    simp only [step] at h
    split at h
    · rename_i hopened
      simp only [serve] at h
      split at h
      · rename_i message next hsends
        cases h
        exact .sent hopened hsends
      · split at h
        · rename_i next hends
          cases h
          obtain ⟨hstreamed, rfl⟩ := Coroutine.ends_eq_some hends
          exact .ended hopened hstreamed
        · obtain ⟨text, harrived, hnext⟩ := Option.bind_eq_some_iff.mp h
          obtain ⟨next, hreceives, rfl⟩ := Option.map_eq_some_iff.mp hnext
          exact .received hopened harrived hreceives
    · cases h
  | close connection =>
    simp only [step] at h
    split at h
    · rename_i hopened
      cases h
      exact .closed hopened
    · cases h

/-! ## What the feed has read -/

/-- The bars that the feed has read on the connection. -/
def barsOn (s : Replay ω) (json : Nlohmann) (connection : ℕ) : List (Bar1min ℚ) :=
  ((s.peers connection).sent.take (s.peers connection).read).flatMap (messageBars json)

/-- The bars that the feed has read on its first connections. -/
def barsUpTo (s : Replay ω) (json : Nlohmann) (connections : ℕ) : List (Bar1min ℚ) :=
  (List.range connections).flatMap fun c => s.barsOn json (c + 1)

/-- No read that fails leaves bytes. -/
def Action.Clean : Action → Prop
  | .client (.complete (.read _) outcome) => outcome.ec = true → outcome.bytes = []
  | .client _ | .serve _ | .close _ => True

/-- The feed and the endpoint after the same messages. -/
structure InStep (setting : Setting ω) (endpoint : HistoricalAlpacaWSEndpoint py) (world : ω)
    (s : Replay ω) : Prop where
  follows : ∀ c, (s.peers c).Follows endpoint
  unopened : ∀ c, ¬ s.IsOpened c → s.peers c = {}
  buffer : s.client.buffer = []
  intact : s.client.handlerState.broken = false
  delivered : s.client.handlerState.world
    = callSlots setting.slots (s.barsUpTo setting.json s.client.connection) world

/-- The bars of one more connection come last. -/
theorem barsUpTo_succ (s : Replay ω) (json : Nlohmann) (connections : ℕ) :
    s.barsUpTo json (connections + 1) = s.barsUpTo json connections ++ s.barsOn json (connections + 1) := by
  rw [barsUpTo, List.range_succ, List.flatMap_append, List.flatMap_singleton]
  rfl

/-- The bars up to a connection are those of the connections up to it. -/
theorem barsUpTo_congr {json : Nlohmann} {connections : ℕ}
    (h : ∀ c, 0 < c → c ≤ connections → t.barsOn json c = s.barsOn json c) :
    t.barsUpTo json connections = s.barsUpTo json connections := by
  apply List.flatMap_congr
  intro c hc
  have hlt := List.mem_range.mp hc
  exact h (c + 1) (Nat.succ_pos c) hlt

/-! ## One step -/

/-- What was opened stays so. -/
theorem IsOpened.of_le (h : s.IsOpened c) (hle : s.client.connection ≤ t.client.connection) :
    t.IsOpened c :=
  ⟨h.1, h.2.trans hle⟩

/-- Calls of the user end in an exception at worst. -/
theorem intact_subscribeToBars (symbols : List String) (feed : AlpacaWSMarketFeed ω) :
    (subscribeToBars setting symbols feed).perform.2.broken = false := by
  unfold subscribeToBars
  dsimp only
  split
  · rw [sendSubscriptionMessage_cases]
    split
    · dsimp only
      rw [sendDump_cases]
      cases setting.json.dump _ <;> rfl
    · rfl
  · rfl

variable {feed feed' : WebSocketSession (AlpacaWSMarketFeed ω)} {b : AlpacaWSMarketFeed.Action}

/-- Where nothing is read, the slots see nothing and the feed stays intact. -/
theorem quiet_of_step (noRead : reads? b = none)
    (hstep : AlpacaWSMarketFeed.step setting feed b = some feed')
    (hintact : feed.handlerState.broken = false) :
    feed'.handlerState.broken = false ∧ feed'.handlerState.world = feed.handlerState.world := by
  have hworld := world_of_step hstep
  have hkept := WebSocketSession.handlerState_of_step (step_session hstep)
  cases b with
  | subscribeToBars symbols =>
    rw [hkept]
    refine ⟨intact_subscribeToBars symbols _, ?_⟩
    rw [← hkept, hworld]
    rfl
  | subscribeToAllBars =>
    rw [hkept]
    refine ⟨intact_subscribeToBars ["*"] _, ?_⟩
    rw [← hkept, hworld]
    rfl
  | stop isOpen | wake =>
    rw [hkept]
    exact ⟨hintact, rfl⟩
  | complete operation outcome =>
    rw [hkept]
    cases operation with
    | read connection =>
      have hec : outcome.ec = true := by
        cases hec : outcome.ec with
        | true => rfl
        | false => simp [reads?, hec] at noRead
      dsimp only [AlpacaWSMarketFeed.Action.onSession, WebSocketSession.nextKept]
      rw [if_pos hec]
      exact ⟨hintact, rfl⟩
    | _ => exact ⟨hintact, rfl⟩

/-- A message of the endpoint leaves the feed intact, and the slots see its bar. -/
theorem read_of_step (hunderstands : Understands setting.json endpoint) {connection : ℕ}
    {outcome : WebSocketSession.Outcome} {message : Json} (ok : outcome.ec = false)
    (text : outcome.bytes = frame py message) (mem : message ∈ endpoint.messages)
    (hbuffer : feed.buffer = [])
    (hstep : AlpacaWSMarketFeed.step setting feed (.complete (.read connection) outcome) = some feed') :
    feed'.handlerState.broken = false ∧
      feed'.handlerState.world
        = callSlots setting.slots (messageBars setting.json message) feed.handlerState.world := by
  obtain ⟨read, hparse, hsame⟩ := hunderstands message mem
  have hframe : feed.buffer ++ outcome.bytes = frame py message := by rw [hbuffer, text, List.nil_append]
  have hparse' : setting.json.parse (feed.buffer ++ outcome.bytes) = some (.array [read]) := by
    rw [hframe, hparse]
  have hreads : ∀ feed, ReadsOnlyMembers setting feed [read] := by
    intro feed pre message' post heq _
    have hmem : message' ∈ [read] := by simp [heq]
    rw [List.mem_singleton.mp hmem, readsMissing_congr hsame]
    exact not_readsMissing_of_mem mem
  constructor
  · rw [WebSocketSession.handlerState_of_step (step_session hstep)]
    simp only [AlpacaWSMarketFeed.Action.onSession, WebSocketSession.nextKept, ok, Bool.false_eq_true,
      if_false, frameHandler, Command.perform]
    rw [(fault_eq_none_iff hparse').mpr (hreads _)]
    rfl
  · rw [world_of_step hstep]
    simp only [delivers, ok, Bool.false_eq_true, if_false]
    rw [emittedBars_of_single hparse', hframe, frameBars_of_mem hunderstands mem]

variable {world : ω}

@[simp] theorem setPeer_client (peer : Peer) : (s.setPeer c peer).client = s.client := rfl

@[simp] theorem setPeer_same (peer : Peer) : (s.setPeer c peer).peers c = peer :=
  Function.update_self _ _ _

/-- The other peers stay. -/
theorem setPeer_other (peer : Peer) {c' : ℕ} (hne : c' ≠ c) : (s.setPeer c peer).peers c' = s.peers c' :=
  Function.update_of_ne hne _ _

/-- Every peer follows the endpoint if the changed one does. -/
theorem setPeer_follows (h : ∀ c, (s.peers c).Follows endpoint) {peer : Peer}
    (hfollows : peer.Follows endpoint) (c' : ℕ) : ((s.setPeer c peer).peers c').Follows endpoint := by
  by_cases hsame : c' = c
  · rw [hsame, setPeer_same]
    exact hfollows
  · rw [setPeer_other peer hsame]
    exact h c'

/-- Peers of connections to come are new. -/
theorem setPeer_unopened (h : ∀ c, ¬ s.IsOpened c → s.peers c = {}) (opened : s.IsOpened c) (peer : Peer)
    (c' : ℕ) (hclosed : ¬ s.IsOpened c') : (s.setPeer c peer).peers c' = {} := by
  have hne : c' ≠ c := fun hsame => hclosed (hsame ▸ opened)
  rw [setPeer_other peer hne]
  exact h c' hclosed

/-- A step of a coroutine changes nothing about what has been read. -/
theorem InStep.setPeer (h : InStep setting endpoint world s) (opened : s.IsOpened c) {peer : Peer}
    (hfollows : peer.Follows endpoint)
    (hread : peer.sent.take peer.read = (s.peers c).sent.take (s.peers c).read) :
    InStep setting endpoint world (s.setPeer c peer) where
  follows := setPeer_follows h.follows hfollows
  unopened := setPeer_unopened h.unopened opened peer
  buffer := h.buffer
  intact := h.intact
  delivered := by
    rw [barsUpTo_congr (s := s)]
    · exact h.delivered
    · intro c' _ _
      by_cases hsame : c' = c
      · rw [hsame, barsOn, barsOn, setPeer_same, hread]
      · rw [barsOn, barsOn, setPeer_other peer hsame]

/-- A clean action leaves no bytes. -/
theorem Action.Clean.not_leavesBytes (h : (Action.client b).Clean) (setting : Setting ω) :
    ¬ (b.onSession setting).LeavesBytes := by
  cases b with
  | complete operation outcome =>
    cases operation with
    | read connection => exact fun hleaves => hleaves.2 (h hleaves.1)
    | _ => exact fun hleaves => hleaves
  | _ => exact fun hleaves => hleaves

/-- The feed moves without reading. -/
theorem InStep.moved (h : InStep setting endpoint world s) (noRead : reads? b = none)
    (hclean : (Action.client b).Clean)
    (hstep : AlpacaWSMarketFeed.step setting s.client b = some feed') :
    InStep setting endpoint world { s with client := feed' } := by
  have hsession := step_session hstep
  have hle := WebSocketSession.connection_le_of_step hsession
  obtain ⟨hintact, hworld⟩ := quiet_of_step noRead hstep h.intact
  have hbuffer := WebSocketSession.buffer_of_step hsession (hclean.not_leavesBytes setting) h.buffer
  refine ⟨h.follows, fun c hclosed => h.unopened c fun hopened => hclosed (hopened.of_le hle), hbuffer,
    hintact, ?_⟩
  refine hworld.trans (h.delivered.trans ?_)
  congr 1
  show s.barsUpTo setting.json s.client.connection = s.barsUpTo setting.json feed'.connection
  by_cases hopens : (b.onSession setting).Opens
  · -- nothing has been read on the new connection
    have hnone : s.barsOn setting.json (s.client.connection + 1) = [] := by
      rw [barsOn, h.unopened _ fun hopened => absurd hopened.2 (Nat.not_succ_le_self _)]
      rfl
    rw [WebSocketSession.connection_of_opens hsession hopens, barsUpTo_succ, hnone, List.append_nil]
  · rw [WebSocketSession.connection_of_not_opens hsession hopens]

/-- One more message is read on the open connection. -/
theorem barsUpTo_readNext {json : Nlohmann} {message : Json} (hopened : s.IsOpened s.client.connection)
    (next : (s.peers s.client.connection).sent[(s.peers s.client.connection).read]? = some message) :
    (s.setPeer s.client.connection { s.peers s.client.connection with
        read := (s.peers s.client.connection).read + 1 }).barsUpTo json s.client.connection
      = s.barsUpTo json s.client.connection ++ messageBars json message := by
  obtain ⟨earlier, hlast⟩ := Nat.exists_eq_add_one_of_ne_zero hopened.1.ne'
  have hbars : ((s.peers s.client.connection).sent.take
        ((s.peers s.client.connection).read + 1)).flatMap (messageBars json)
      = s.barsOn json s.client.connection ++ messageBars json message := by
    rw [List.take_add_one, next, List.flatMap_append]
    simp [barsOn]
  generalize s.client.connection = last at *
  subst hlast
  rw [barsUpTo_succ, barsUpTo_succ, List.append_assoc]
  congr 1
  · refine barsUpTo_congr fun c _ hle => ?_
    rw [barsOn, setPeer_other _ (by omega)]
    rfl
  · rw [barsOn, setPeer_same]
    exact hbars

/-- Messages come on connections that are open. -/
theorem InStep.isOpened_of_next (h : InStep setting endpoint world s) {n : ℕ} {message : Json}
    (next : (s.peers c).sent[n]? = some message) : s.IsOpened c := by
  by_contra hclosed
  rw [h.unopened _ hclosed] at next
  cases next

/-- The feed reads the next message of the open connection. -/
theorem InStep.read (h : InStep setting endpoint world s) (hunderstands : Understands setting.json endpoint)
    {outcome : WebSocketSession.Outcome} {message : Json} (ok : outcome.ec = false)
    (next : (s.peers s.client.connection).sent[(s.peers s.client.connection).read]? = some message)
    (text : outcome.bytes = frame py message)
    (hstep : AlpacaWSMarketFeed.step setting s.client (.complete (.read s.client.connection) outcome)
      = some feed') :
    InStep setting endpoint world
      { s.setPeer s.client.connection { s.peers s.client.connection with
          read := (s.peers s.client.connection).read + 1 } with client := feed' } := by
  have hsession := step_session hstep
  have hopened := h.isOpened_of_next next
  have hmem : message ∈ endpoint.messages :=
    (h.follows _).sent.subset (List.mem_of_getElem? next)
  have hconnection : feed'.connection = s.client.connection :=
    WebSocketSession.connection_of_not_opens hsession id
  have hclean : ¬ (AlpacaWSMarketFeed.Action.onSession setting
      (.complete (.read s.client.connection) outcome)).LeavesBytes := by
    intro hleaves
    have hec : outcome.ec = true := hleaves.1
    rw [ok] at hec
    cases hec
  obtain ⟨hintact, hworld⟩ := read_of_step hunderstands ok text hmem h.buffer hstep
  refine ⟨setPeer_follows h.follows ((h.follows _).readNext next), ?_,
    WebSocketSession.buffer_of_step hsession hclean h.buffer, hintact, ?_⟩
  · intro c hclosed
    refine setPeer_unopened h.unopened hopened _ c fun hc => hclosed ⟨hc.1, ?_⟩
    show c ≤ feed'.connection
    rw [hconnection]
    exact hc.2
  · refine hworld.trans ?_
    rw [h.delivered, ← callSlots_append]
    congr 1
    show _ = barsUpTo (s.setPeer _ _) setting.json feed'.connection
    rw [hconnection, barsUpTo_readNext hopened next]

/-- A clean step keeps feed and endpoint in step. -/
theorem InStep.of_step (h : InStep setting endpoint world s)
    (hunderstands : Understands setting.json endpoint) (hclean : a.Clean)
    (hstep : step setting endpoint s a = some t) : InStep setting endpoint world t := by
  cases transition_of_step hstep with
  | moved noRead stepped => exact h.moved noRead hclean stepped
  | read ok next text stepped => exact h.read hunderstands ok next text stepped
  | @sent connection message rest opened sends =>
    refine h.setPeer opened ((h.follows connection).send sends) ?_
    exact List.take_append_of_le_length (h.follows connection).read
  | @ended connection opened _ =>
    exact h.setPeer opened ((h.follows connection).move _ (Or.inr rfl)) rfl
  | @received connection text rest opened arrived receives =>
    exact h.setPeer opened ((h.follows connection).move _ (toSend_of_receives receives)) rfl
  | @closed connection opened => exact h.setPeer opened (h.follows connection).close rfl

/-- At the start nothing has been sent. -/
theorem inStep_start (setting : Setting ω) (endpoint : HistoricalAlpacaWSEndpoint py)
    (symbols : List String) (world : ω) :
    InStep setting endpoint world (start setting symbols world) where
  follows := fun _ => follows_init
  unopened := fun _ _ => rfl
  buffer := rfl
  intact := rfl
  delivered := rfl

/-- A run of clean steps keeps feed and endpoint in step. -/
theorem inStep_of_run {symbols : List String} {as : List Action}
    (hunderstands : Understands setting.json endpoint)
    (h : Run setting endpoint symbols world as s) (hclean : ∀ a ∈ as, a.Clean) :
    InStep setting endpoint world s := by
  refine Runs.invariant_of_stepsMeet (G := fun _ a => a.Clean) (InStep setting endpoint world)
    (inStep_start setting endpoint symbols world) ?_ ?_ h
  · intro u a v hu ha hstep
    exact hu.of_step hunderstands ha hstep
  · intro pre a u hpre _
    exact hclean a (hpre.subset (by simp))

/-! ## The bars of a run -/

/-- How many bars the feed has read on each connection, in order. -/
def barCounts (s : Replay ω) (json : Nlohmann) : List ℕ :=
  (List.range s.client.connection).map fun c => (s.barsOn json (c + 1)).length

/-- On each connection the first bars of the file are read. -/
theorem InStep.barsOn_isPrefix (h : InStep setting endpoint world s) (c : ℕ) :
    s.barsOn setting.json c <+: barsRead setting.json endpoint := by
  obtain ⟨rest, hsent⟩ := (h.follows c).sent
  have hread := (h.follows c).read
  have htake : (s.peers c).sent.take (s.peers c).read = endpoint.messages.take (s.peers c).read := by
    rw [← hsent, List.take_append_of_le_length hread]
  rw [barsOn, htake]
  exact flatMap_take_messages endpoint setting.json (s.peers c).read

/-- The bars that were read are those of the file, once for each connection, as far as it was read. -/
theorem InStep.barsUpTo_eq (h : InStep setting endpoint world s) :
    s.barsUpTo setting.json s.client.connection
      = (s.barCounts setting.json).flatMap fun n => (barsRead setting.json endpoint).take n := by
  rw [barsUpTo, barCounts, List.flatMap_map]
  apply List.flatMap_congr
  intro c _
  exact List.prefix_iff_eq_take.mp (h.barsOn_isPrefix (c + 1))

/-- No connection brings more bars than the file has. -/
theorem InStep.barCounts_le (h : InStep setting endpoint world s) :
    ∀ n ∈ s.barCounts setting.json, n ≤ (barsRead setting.json endpoint).length := by
  rw [barCounts, List.forall_mem_map]
  intro c _
  exact (h.barsOn_isPrefix (c + 1)).length_le

/-- Over every run, with any number of connections, in which no read that fails leaves bytes: the feed
stays intact, and its slots have been called with the bars of the file from the first one on, once for
each connection, each time as far as the connection has been read. -/
theorem bars_of_replay {symbols : List String} {as : List Action}
    (hunderstands : Understands setting.json endpoint)
    (h : Run setting endpoint symbols world as s) (hclean : ∀ a ∈ as, a.Clean) :
    s.client.handlerState.broken = false ∧ s.client.handlerState.world = callSlots setting.slots
      ((s.barCounts setting.json).flatMap fun n => (barsRead setting.json endpoint).take n) world := by
  have hin := inStep_of_run hunderstands h hclean
  refine ⟨hin.intact, ?_⟩
  rw [hin.delivered, hin.barsUpTo_eq]

/-! ## A file of five minutes -/

/-- The timestamps of the file, and in RFC 3339. -/
def exampleTimes : List (String × String) :=
  [("2025-05-19 13:30:00+00:00", "2025-05-19T13:30:00Z"),
    ("2025-05-19 13:31:00+00:00", "2025-05-19T13:31:00Z"),
    ("2025-05-19 13:32:00+00:00", "2025-05-19T13:32:00Z"),
    ("2025-05-19 13:33:00+00:00", "2025-05-19T13:33:00Z"),
    ("2025-05-19 13:34:00+00:00", "2025-05-19T13:34:00Z")]

def exampleRow (timestamp : String) : List (String × Option String) :=
  [("symbol", some "AAPL"), ("timestamp", some timestamp), ("open", some "1.0"), ("high", some "1.0"),
    ("low", some "1.0"), ("close", some "1.0"), ("volume", some "1.0"), ("trade_count", some "1.0"),
    ("vwap", some "1.0")]

def pythonConnected : Bytes := bytes "[\x7b\"T\": \"success\", \"msg\": \"connected\"\x7d]"

def pythonAuthenticated : Bytes := bytes "[\x7b\"T\": \"success\", \"msg\": \"authenticated\"\x7d]"

def pythonSubscription : Bytes :=
  bytes ("[\x7b\"T\": \"subscription\", \"trades\": [], \"quotes\": [], \"bars\": [\"AAPL\"], "
    ++ "\"updatedBars\": [], \"dailyBars\": [], \"statuses\": [], \"lulds\": [], "
    ++ "\"corrections\": [], \"cancelErrors\": []\x7d]")

def pythonBar (time : String) : Bytes :=
  bytes ("[\x7b\"T\": \"b\", \"S\": \"AAPL\", \"o\": 1.0, \"h\": 1.0, \"l\": 1.0, \"c\": 1.0, "
    ++ "\"v\": 1.0, \"t\": \"" ++ time ++ "\", \"n\": 1.0, \"vw\": 1.0\x7d]")

/-- A Python that knows these rows, the messages of the endpoint and the answers of the feed. -/
def examplePython : Python where
  float := fun text => if text = "1.0" then some 1 else none
  utcIsoformat := some
  dumps
    | .array [.object [("T", .string "success"), ("msg", .string msg)]] =>
      if msg = "connected" then pythonConnected else pythonAuthenticated
    | .array [.object (("T", .string "subscription") :: _)] => pythonSubscription
    | .array [.object [("T", .string "b"), _, _, _, _, _, _, ("t", .string time), _, _]] => pythonBar time
    | _ => []
  loads := fun text =>
    [(authText, authMessage keyConfig), (subscribeText, subscribeMessage ["AAPL"])].lookup text

def exampleBar (time : String) : Json :=
  .object
    [("T", .string "b"), ("S", .string "AAPL"), ("o", .numberFloat 1), ("h", .numberFloat 1),
      ("l", .numberFloat 1), ("c", .numberFloat 1), ("v", .numberFloat 1), ("t", .string time),
      ("n", .numberFloat 1), ("vw", .numberFloat 1)]

/-- The bar as the feed receives it, its members in the order of their keys. -/
def receivedBar (time : String) : Json :=
  .object
    [("S", .string "AAPL"), ("T", .string "b"), ("c", .numberFloat 1), ("h", .numberFloat 1),
      ("l", .numberFloat 1), ("n", .numberFloat 1), ("o", .numberFloat 1), ("t", .string time),
      ("v", .numberFloat 1), ("vw", .numberFloat 1)]

def exampleJson : Nlohmann :=
  { exampleMessages with
    parse := fun text => .map (fun message => .array [message]) <|
      ([(pythonConnected, successMessage "connected"),
        (pythonAuthenticated, successMessage "authenticated"),
        (pythonSubscription, subscriptionMessage "AAPL")]
          ++ exampleTimes.map fun time => (pythonBar time.2, receivedBar time.2)).lookup text }

/-- The bars of the example come from rows. -/
theorem exampleBar_converted : ∀ bar ∈ exampleTimes.map fun time => exampleBar time.2,
    ∃ row, convertCsvRowToAlpacaFormat examplePython row = some bar := by
  rw [List.forall_mem_map]
  intro time hmem
  refine ⟨exampleRow time.1, ?_⟩
  simp only [exampleTimes, List.mem_cons, List.not_mem_nil, or_false] at hmem
  rcases hmem with rfl | rfl | rfl | rfl | rfl <;> rfl

def exampleEndpoint : HistoricalAlpacaWSEndpoint examplePython where
  bars := exampleTimes.map fun time => exampleBar time.2
  symbol := "AAPL"
  converted := exampleBar_converted

/-- The slot writes down its bars. -/
def exampleReplaySetting : Setting (List (Bar1min ℚ)) :=
  { json := exampleJson, config := keyConfig, slots := fun bar bars => (.ok (), bars ++ [bar]) }

/-- A connection up to its first bars. -/
def replayOn (c bars : ℕ) : List Action :=
  connecting.map .client
    ++ [.serve c, .client (.complete (.read c) { bytes := pythonConnected }), .serve c, .serve c,
      .client (.complete (.write c authText) {}),
      .client (.complete (.read c) { bytes := pythonAuthenticated }), .serve c, .serve c,
      .client (.complete (.write c subscribeText) {}),
      .client (.complete (.read c) { bytes := pythonSubscription })]
    ++ (exampleTimes.take bars).flatMap fun time =>
      [.serve c, .client (.complete (.read c) { bytes := pythonBar time.2 })]

/-- The whole file is read on one connection, which the endpoint closes then, and four bars of it on
another one. -/
def replayTwice : List Action :=
  replayOn 1 5 ++ [.serve 1, .client (.complete (.read 1) { ec := true }), .client .wake]
    ++ replayOn 2 4

/-- The library reads the members that were written. -/
theorem receivedBar_sameMembers (time : String) : (receivedBar time).SameMembers (exampleBar time) := by
  intro key
  by_cases hkey : key ∈ ["S", "T", "c", "h", "l", "n", "o", "t", "v", "vw"]
  · simp only [List.mem_cons, List.not_mem_nil, or_false] at hkey
    rcases hkey with rfl | rfl | rfl | rfl | rfl | rfl | rfl | rfl | rfl | rfl <;> rfl
  · simp only [List.mem_cons, List.not_mem_nil, or_false, not_or, ← beq_eq_false_iff_ne] at hkey
    simp [receivedBar, exampleBar, Json.find?, List.lookup_cons, hkey]

theorem exampleJson_understands : Understands exampleJson exampleEndpoint := by
  intro message hmem
  have hsame : ∀ message : Json, message.SameMembers message := fun _ _ => rfl
  rw [messages, List.mem_cons, List.mem_cons, List.mem_cons] at hmem
  rcases hmem with rfl | rfl | rfl | hmem
  · exact ⟨_, rfl, hsame _⟩
  · exact ⟨_, rfl, hsame _⟩
  · exact ⟨_, rfl, hsame _⟩
  · obtain ⟨time, htime, rfl⟩ := List.mem_map.mp hmem
    refine ⟨receivedBar time.2, ?_, receivedBar_sameMembers _⟩
    simp only [exampleTimes, List.mem_cons, List.not_mem_nil, or_false] at htime
    rcases htime with rfl | rfl | rfl | rfl | rfl <;> rfl

theorem replayTwice_clean : ∀ a ∈ replayTwice, a.Clean := by
  simp [replayTwice, replayOn, connecting, exampleTimes, Action.Clean]

/-- The second connection repeats four of the five bars. -/
theorem bars_of_replay_replayTwice : ∃ t, Run exampleReplaySetting exampleEndpoint ["AAPL"] [] replayTwice t ∧
    t.barCounts exampleJson = [5, 4] ∧ t.client.handlerState.broken = false ∧
      t.client.handlerState.world = callSlots exampleReplaySetting.slots
        ([5, 4].flatMap fun n => (barsRead exampleJson exampleEndpoint).take n) [] := by
  have hrun : (Runs.run (step exampleReplaySetting exampleEndpoint)
      (start exampleReplaySetting ["AAPL"] []) replayTwice).map (·.barCounts exampleJson)
      = some [5, 4] := by
    decide +kernel
  obtain ⟨t, ht, hcounts⟩ := Option.map_eq_some_iff.mp hrun
  refine ⟨t, ht, hcounts, ?_⟩
  rw [← hcounts]
  exact bars_of_replay exampleJson_understands ht replayTwice_clean

end Replay

end MacdTradingBot
