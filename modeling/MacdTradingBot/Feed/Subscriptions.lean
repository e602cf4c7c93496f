import MacdTradingBot.Feed.Authentication
import MacdTradingBot.WebSocket.Queue

/-!
# The latest symbols reach the server

A subscription message is sent from three places: the two subscription calls, once `_authenticated` is
set, and the "authenticated" message. Together they keep the last subscription message up to date
(`UpToDate`): a call before the authentication is made up for by the message, and every later call sends.
-/

namespace MacdTradingBot

namespace AlpacaWSMarketFeed

variable {ω : Type} {setting : Setting ω} {feed : AlpacaWSMarketFeed ω}

/-! ## The history of a run -/

/-- An "authenticated" message is processed, from a frame of this connection; or a text is handed to the
session. -/
inductive Moment
  | authenticated (connection : ℕ)
  | sent (text : Bytes)
deriving DecidableEq, Repr

/-- What is handed to the session. -/
def Moment.text : Moment → Option Bytes
  | authenticated _ => none
  | sent text => some text

/-- The connection that is authenticated. -/
def Moment.connection : Moment → Option ℕ
  | authenticated connection => some connection
  | sent _ => none

def Moment.ofOutput : Output → Option Moment
  | .bar _ => none
  | .sent text => some (.sent text)

/-- One message, with its moments as the outputs. -/
def tracedMessage (setting : Setting ω) (message : Json) (feed : AlpacaWSMarketFeed ω) :
    Effect Fault Moment (AlpacaWSMarketFeed ω) :=
  let handled := handleMessage setting message feed
  { fault := handled.fault
    outputs := (if kind message = .authenticated then [.authenticated feed.receivedOn] else [])
      ++ handled.outputs.filterMap Moment.ofOutput
    state := handled.state }

def frameMoments (setting : Setting ω) (frame : Bytes) (feed : AlpacaWSMarketFeed ω) : List Moment :=
  match setting.json.parse frame with
  | some (.array messages) => (Effect.forEach (tracedMessage setting) messages feed).outputs
  | _ => []

/-- The moments of one step, in order. -/
def moments (setting : Setting ω) (s : WebSocketSession (AlpacaWSMarketFeed ω)) : Action → List Moment
  | .subscribeToBars symbols =>
    (subscribeToBars setting symbols s.handlerState).outputs.filterMap Moment.ofOutput
  | .subscribeToAllBars =>
    (subscribeToAllBars setting s.handlerState).outputs.filterMap Moment.ofOutput
  | .complete (.read connection) outcome =>
    if outcome.ec then []
    else frameMoments setting (s.buffer ++ outcome.bytes) { s.handlerState with receivedOn := connection }
  | .stop _ | .wake | .complete _ _ => []

/-- The moments of a run. -/
abbrev history (setting : Setting ω) (s : WebSocketSession (AlpacaWSMarketFeed ω)) (as : List Action) :
    List Moment :=
  Runs.collect (step setting) (moments setting) s as

/-! ## The last subscription message -/

/-- The last subscription message among the moments carries these symbols. -/
def LastSubscribes (json : Nlohmann) (symbols : List String) (later : List Moment) : Prop :=
  ∃ before text after, later = before ++ .sent text :: after ∧
    json.dump (subscribeMessage symbols) = some text ∧
      ∀ other, .sent other ∈ after → ¬ IsSubscription json other

/-- Since every "authenticated" message so far: the last subscription message carries the symbols of the
feed, if it has any. -/
structure UpToDate (json : Nlohmann) (past : List Moment) (feed : AlpacaWSMarketFeed ω) : Prop where
  wsSession : feed.wsSession = true
  authenticatedOn : feed.authenticatedOn = past.filterMap Moment.connection
  authenticated : ∀ connection, .authenticated connection ∈ past → feed.authenticated = true
  printable : (json.dump (subscribeMessage feed.subscribedSymbols)).isSome
  last : ∀ earlier connection later, past = earlier ++ .authenticated connection :: later →
    feed.subscribedSymbols ≠ [] → LastSubscribes json feed.subscribedSymbols later

variable {json : Nlohmann} {past more : List Moment} {feed' : AlpacaWSMarketFeed ω}

theorem LastSubscribes.append {symbols : List String} (h : LastSubscribes json symbols past)
    (hmore : ∀ other, .sent other ∈ more → ¬ IsSubscription json other) :
    LastSubscribes json symbols (past ++ more) := by
  obtain ⟨before, text, after, rfl, hdump, hafter⟩ := h
  refine ⟨before, text, after ++ more, by simp, hdump, fun other hmem => ?_⟩
  rcases List.mem_append.mp hmem with hmem | hmem
  · exact hafter other hmem
  · exact hmore other hmem

/-- A moment in two parts of the history is in the first or in the second. -/
theorem split_append {earlier later : List Moment} {moment : Moment}
    (h : past ++ more = earlier ++ moment :: later) :
    (∃ rest, past = earlier ++ moment :: rest ∧ later = rest ++ more) ∨ moment ∈ more := by
  rcases List.append_eq_append_iff.mp h with ⟨rest, -, hmore⟩ | ⟨rest, hpast, hlater⟩
  · right
    rw [hmore]
    simp
  · cases rest with
    | nil =>
      right
      rw [List.nil_append] at hlater
      rw [← hlater]
      exact List.mem_cons_self
    | cons first rest =>
      obtain ⟨rfl, rfl⟩ := List.cons.inj hlater
      exact Or.inl ⟨rest, hpast, rfl⟩

/-- Moments that neither authenticate nor subscribe, over a feed with the same symbols. -/
theorem UpToDate.of_eq (h : UpToDate json past feed) (hsession : feed'.wsSession = feed.wsSession)
    (hon : feed'.authenticatedOn = feed.authenticatedOn)
    (hauthenticated : feed'.authenticated = feed.authenticated)
    (hsymbols : feed'.subscribedSymbols = feed.subscribedSymbols)
    (hquiet : ∀ connection, .authenticated connection ∉ more)
    (hmore : ∀ text, .sent text ∈ more → ¬ IsSubscription json text) :
    UpToDate json (past ++ more) feed' where
  wsSession := hsession.trans h.wsSession
  authenticatedOn := by
    have hnone : more.filterMap Moment.connection = [] := by
      refine List.filterMap_eq_nil_iff.mpr fun moment hmem => ?_
      cases moment with
      | authenticated connection => exact absurd hmem (hquiet connection)
      | sent text => rfl
    rw [hon, h.authenticatedOn, List.filterMap_append, hnone, List.append_nil]
  authenticated := by
    intro connection hmem
    rcases List.mem_append.mp hmem with hmem | hmem
    · exact hauthenticated.trans (h.authenticated connection hmem)
    · exact absurd hmem (hquiet connection)
  printable := by
    rw [hsymbols]
    exact h.printable
  last := by
    intro earlier connection later hsplit hne
    rw [hsymbols] at hne ⊢
    rcases split_append hsplit with ⟨rest, hpast, rfl⟩ | hmem
    · exact (h.last earlier connection rest hpast hne).append hmore
    · exact absurd hmem (hquiet connection)

/-- Whatever came before: the symbols of the feed are sent. -/
theorem UpToDate.of_sent {text : Bytes} (hsession : feed'.wsSession = true)
    (hon : feed'.authenticatedOn = past.filterMap Moment.connection)
    (hauthenticated : feed'.authenticated = true)
    (hdump : json.dump (subscribeMessage feed'.subscribedSymbols) = some text) :
    UpToDate json (past ++ [.sent text]) feed' where
  wsSession := hsession
  authenticatedOn := by
    rw [hon, List.filterMap_append]
    exact (List.append_nil _).symm
  authenticated := fun _ _ => hauthenticated
  printable := by
    rw [hdump]
    rfl
  last := by
    intro earlier connection later hsplit _
    rcases split_append hsplit with ⟨rest, -, rfl⟩ | hmem
    · exact ⟨rest, text, [], rfl, hdump, fun _ hmem => (nomatch hmem)⟩
    · simp at hmem

/-- Whatever came before: the feed has no symbols. -/
theorem UpToDate.of_nil (hsession : feed'.wsSession = true)
    (hon : feed'.authenticatedOn = past.filterMap Moment.connection)
    (hauthenticated : feed'.authenticated = true)
    (hprintable : (json.dump (subscribeMessage feed'.subscribedSymbols)).isSome)
    (hnil : feed'.subscribedSymbols = []) : UpToDate json past feed' :=
  ⟨hsession, hon, fun _ _ => hauthenticated, hprintable, fun _ _ _ _ hne => absurd hnil hne⟩

/-! ## Messages and calls -/

theorem UpToDate.tracedMessage (hlaw : setting.json.Lawful) (h : UpToDate setting.json past feed)
    (message : Json) : UpToDate setting.json (past ++ (tracedMessage setting message feed).outputs)
      (tracedMessage setting message feed).state := by
  unfold AlpacaWSMarketFeed.tracedMessage
  dsimp only
  rw [handleMessage_of_kind]
  cases hkind : kind message with
  | ignored | malformed => exact h.of_eq rfl rfl rfl rfl (by simp) (by simp)
  | connected =>
    simp only [sendAuthMessage, h.wsSession, if_true, sendDump_cases, reduceCtorEq, if_false,
      List.nil_append]
    refine h.of_eq rfl rfl rfl rfl (fun connection hmem => ?_) fun text hmem => ?_
    · simp [Moment.ofOutput] at hmem
    · refine @not_isSubscription_of_auth setting.json hlaw setting.config _ ?_
      simpa [Moment.ofOutput, Option.mem_toList] using hmem
  | authenticated =>
    simp only [if_true]
    have hon : (authenticate feed).authenticatedOn
        = (past ++ [Moment.authenticated feed.receivedOn]).filterMap Moment.connection := by
      rw [List.filterMap_append, ← h.authenticatedOn]
      rfl
    by_cases hnil : feed.subscribedSymbols = []
    · rw [if_neg (not_not.mpr hnil)]
      exact .of_nil h.wsSession hon rfl h.printable hnil
    · obtain ⟨text, hdump⟩ := Option.isSome_iff_exists.mp h.printable
      have hsession : (authenticate feed).wsSession = true := h.wsSession
      have hsymbols : (authenticate feed).subscribedSymbols = feed.subscribedSymbols := rfl
      simp only [ne_eq, hnil, not_false_eq_true, if_true, sendSubscriptionMessage_cases, hsession,
        sendDump_cases, hsymbols, hdump, Option.toList_some, List.map_cons, List.map_nil,
        List.filterMap_cons, Moment.ofOutput, List.filterMap_nil]
      rw [← List.append_assoc]
      exact .of_sent rfl hon rfl hdump
  | bar =>
    cases hread : readBar setting.json message with
    | ok bar =>
      simp only [parseBarMessage_of_ok _ _ _ hread]
      exact h.of_eq rfl rfl rfl rfl (by simp [Moment.ofOutput]) (by simp [Moment.ofOutput])
    | error f =>
      simp only [parseBarMessage_of_error _ _ _ hread]
      exact h.of_eq rfl rfl rfl rfl (by simp) (by simp)

/-- A subscription call sends at once if the feed has been authenticated, and has nothing to make up for
if it has not. -/
theorem UpToDate.subscribeToBars (h : UpToDate setting.json past feed) {symbols : List String}
    (hsymbols : (setting.json.dump (subscribeMessage symbols)).isSome) :
    UpToDate setting.json
      (past ++ (subscribeToBars setting symbols feed).outputs.filterMap Moment.ofOutput)
      (subscribeToBars setting symbols feed).state := by
  unfold AlpacaWSMarketFeed.subscribeToBars
  cases hauthenticated : feed.authenticated with
  | false =>
    simp only [Bool.false_and, Bool.false_eq_true, if_false, List.filterMap_nil,
      List.append_nil]
    have hnone : ∀ connection, .authenticated connection ∉ past := by
      intro connection hmem
      have htrue := h.authenticated connection hmem
      rw [hauthenticated] at htrue
      cases htrue
    refine ⟨h.wsSession, h.authenticatedOn, fun connection hmem => absurd hmem (hnone connection),
      hsymbols, ?_⟩
    intro earlier connection later hsplit _
    exact absurd (by rw [hsplit]; simp) (hnone connection)
  | true =>
    obtain ⟨text, hdump⟩ := Option.isSome_iff_exists.mp hsymbols
    simp only [h.wsSession, Bool.and_self, if_true, sendSubscriptionMessage_cases,
      sendDump_cases, hdump, Option.toList_some, List.map_cons, List.map_nil, List.filterMap_cons,
      Moment.ofOutput, List.filterMap_nil]
    exact .of_sent rfl h.authenticatedOn rfl hdump

/-! ## Frames -/

theorem texts_ofOutput (os : List Output) :
    (os.filterMap Moment.ofOutput).filterMap Moment.text
      = WebSocketSession.callTexts (calls os) := by
  rw [WebSocketSession.callTexts, calls, List.filterMap_filterMap, List.filterMap_filterMap]
  refine List.filterMap_congr fun output _ => ?_
  cases output <;> rfl

/-- The moments of a frame go with what the feed does: the same faults and states, and the same texts. -/
theorem tracedMessage_eq (message : Json) (feed : AlpacaWSMarketFeed ω) :
    (tracedMessage setting message feed).fault = (handleMessage setting message feed).fault ∧
      (tracedMessage setting message feed).state = (handleMessage setting message feed).state ∧
      (tracedMessage setting message feed).outputs.filterMap Moment.text
        = (handleMessage setting message feed).outputs.filterMap fun output =>
          (Moment.ofOutput output).bind Moment.text := by
  refine ⟨rfl, rfl, ?_⟩
  unfold AlpacaWSMarketFeed.tracedMessage
  rw [List.filterMap_append, List.filterMap_filterMap]
  split <;> rfl

theorem frameMoments_eq (frame : Bytes) (feed : AlpacaWSMarketFeed ω) :
    (frameMoments setting frame feed).filterMap Moment.text
      = WebSocketSession.callTexts (calls (onWebsocketFrame setting frame feed).outputs) := by
  rw [← texts_ofOutput, List.filterMap_filterMap]
  unfold frameMoments
  split
  · rename_i messages harray
    rw [onWebsocketFrame_of_array harray]
    exact (Effect.forEach_observed tracedMessage_eq messages feed).2.2
  · rename_i hno
    rw [onWebsocketFrame_of_not_array hno]
    rfl

theorem UpToDate.onWebsocketFrame (hlaw : setting.json.Lawful) (h : UpToDate setting.json past feed)
    (frame : Bytes) : UpToDate setting.json (past ++ frameMoments setting frame feed)
      (onWebsocketFrame setting frame feed).state := by
  unfold frameMoments
  split
  · rename_i messages harray
    rw [onWebsocketFrame_of_array harray, Effect.catching_state,
      ← (Effect.forEach_observed tracedMessage_eq messages feed).2.1]
    exact Effect.forEach_invariant (UpToDate setting.json)
      (fun message _ _ _ hpast => hpast.tracedMessage hlaw message) h
  · rename_i hno
    rw [onWebsocketFrame_of_not_array hno, List.append_nil]
    exact h

/-! ## Runs -/

/-- The symbols of a call are UTF-8: the library prints them. -/
def SymbolsPrint (json : Nlohmann) : Action → Prop
  | .subscribeToBars symbols => (json.dump (subscribeMessage symbols)).isSome
  | .subscribeToAllBars => (json.dump (subscribeMessage ["*"])).isSome
  | _ => True

variable {s t : WebSocketSession (AlpacaWSMarketFeed ω)} {a : Action}

/-- The number of the connection and the broken flag do not matter. -/
theorem UpToDate.congr (h : UpToDate json past feed) (hsession : feed'.wsSession = feed.wsSession)
    (hon : feed'.authenticatedOn = feed.authenticatedOn)
    (hauthenticated : feed'.authenticated = feed.authenticated)
    (hsymbols : feed'.subscribedSymbols = feed.subscribedSymbols) : UpToDate json past feed' := by
  rw [← List.append_nil past]
  exact h.of_eq hsession hon hauthenticated hsymbols (by simp) (by simp)

theorem UpToDate.step (hlaw : setting.json.Lawful) (h : UpToDate setting.json past s.handlerState)
    (hprint : SymbolsPrint setting.json a) (hstep : step setting s a = some t) :
    UpToDate setting.json (past ++ moments setting s a) t.handlerState := by
  rw [WebSocketSession.handlerState_of_step (step_session hstep)]
  cases a with
  | subscribeToBars symbols => exact (h.subscribeToBars hprint).congr rfl rfl rfl rfl
  | subscribeToAllBars => exact (h.subscribeToBars hprint).congr rfl rfl rfl rfl
  | stop isOpen | wake =>
    rw [moments, List.append_nil]
    exact h
  | complete operation outcome =>
    cases operation with
    | read connection =>
      simp only [moments, Action.onSession, WebSocketSession.nextKept]
      split
      · rwa [List.append_nil]
      · have hreceived : UpToDate setting.json past
            { s.handlerState with receivedOn := connection } := h.congr rfl rfl rfl rfl
        exact (hreceived.onWebsocketFrame hlaw _).congr rfl rfl rfl rfl
    | _ =>
      simp only [moments, List.append_nil]
      exact h

/-- The texts of the moments are what the step hands to the session. -/
theorem sentTexts_of_moments (hstep : step setting s a = some t) :
    t.sentTexts = s.sentTexts ++ (moments setting s a).filterMap Moment.text := by
  rw [WebSocketSession.sentTexts_of_step (greeting_sessionConfig _) (step_session hstep)]
  refine congrArg (s.sentTexts ++ ·) ?_
  cases a with
  | subscribeToBars symbols => exact (texts_ofOutput _).symm
  | subscribeToAllBars => exact (texts_ofOutput _).symm
  | stop isOpen | wake => rfl
  | complete operation outcome =>
    cases operation with
    | read connection =>
      simp only [moments, Action.onSession, WebSocketSession.nextSends]
      split
      · rfl
      · exact (frameMoments_eq _ _).symm
    | _ => rfl

/-- Over every run, with any number of connections and symbols in UTF-8: since any "authenticated" message
that was processed, on the current connection or another, the last subscription message handed to the
session carries the symbols of the feed, whenever it has some. -/
theorem latest_symbols_sent (hlaw : setting.json.Lawful) {symbols : List String} {world : ω}
    {as : List Action} (h : Run setting symbols world as s)
    (hsymbols : (setting.json.dump (subscribeMessage symbols)).isSome)
    (hprint : ∀ a ∈ as, SymbolsPrint setting.json a) :
    let past := history setting (start setting { subscribedSymbols := symbols, world := world }) as
    past.filterMap Moment.text = s.sentTexts ∧
      past.filterMap Moment.connection = s.handlerState.authenticatedOn ∧
      ∀ earlier connection later, past = earlier ++ .authenticated connection :: later →
        s.handlerState.subscribedSymbols ≠ [] →
          LastSubscribes setting.json s.handlerState.subscribedSymbols later := by
  intro past
  have hstart : UpToDate setting.json []
      (start setting { subscribedSymbols := symbols, world := world }).handlerState := by
    refine ⟨rfl, rfl, fun _ hmem => (nomatch hmem), hsymbols, fun earlier connection later hsplit => ?_⟩
    simp at hsplit
  have huptodate : UpToDate setting.json past s.handlerState := by
    refine Runs.invariant_of_collect (moments setting)
      (fun past (u : WebSocketSession (AlpacaWSMarketFeed ω)) => UpToDate setting.json past u.handlerState)
      hstart ?_ h
    intro pre a u v hpre os hu hstep
    exact hu.step hlaw (hprint a (hpre.subset (by simp))) hstep
  have hsent : s.sentTexts = past.filterMap Moment.text := by
    refine Runs.invariant_of_collect (moments setting)
      (fun past (u : WebSocketSession (AlpacaWSMarketFeed ω)) =>
        u.sentTexts = past.filterMap Moment.text) rfl ?_ h
    intro pre a u v _ os hu hstep
    rw [sentTexts_of_moments hstep, hu, List.filterMap_append]
  exact ⟨hsent.symm, huptodate.authenticatedOn.symm, huptodate.last⟩

/-! ## A list that changes -/

def bothText : Bytes := bytes "\x7b\"action\":\"subscribe\",\"bars\":[\"AAPL\",\"MSFT\"]\x7d"

/-- A library that reads and writes a second list too. -/
def twoListMessages : Nlohmann where
  parse := fun text =>
    if text = bothText then some (subscribeMessage ["AAPL", "MSFT"]) else exampleMessages.parse text
  dump
    | .object [("action", .string "subscribe"), ("bars", .array [.string first, .string second])] =>
      if first = "AAPL" ∧ second = "MSFT" then some bothText else none
    | message => exampleMessages.dump message
  castOutOfRange := fun _ => 0

theorem twoListMessages_lawful : twoListMessages.Lawful := by
  have hnone : exampleMessages.parse bothText = none := by decide
  have hparse : ∀ {text message}, exampleMessages.parse text = some message →
      twoListMessages.parse text = some message := by
    intro text message h
    refine (if_neg ?_).trans h
    rintro rfl
    rw [hnone] at h
    cases h
  constructor
  · intro config text h
    exact hparse (exampleMessages_lawful.parse_auth config text h)
  · intro symbols text h
    match symbols with
    | [first, second] =>
      by_cases hboth : first = "AAPL" ∧ second = "MSFT"
      · obtain ⟨rfl, rfl⟩ := hboth
        obtain rfl : bothText = text := Option.some.inj h
        rfl
      · simp [twoListMessages, subscribeMessage, hboth] at h
    | [symbol] => exact hparse (exampleMessages_lawful.parse_subscribe [symbol] text h)
    | [] | _ :: _ :: _ :: _ => cases h

def twoListSetting : Setting Unit :=
  { json := twoListMessages, config := keyConfig, slots := Subscriber.ignore }

/-- After the first connection the user asks for another list. The connection drops, and the second one
gets as far as the authentication. -/
def listChanged : List Action :=
  firstConnection ++
    [.subscribeToBars ["AAPL", "MSFT"], .complete (.write 1 bothText) {}, .complete (.read 1) { ec := true },
      .wake] ++ connecting ++
    [.complete (.read 2) { bytes := connectedFrame }, .complete (.write 2 authText) {},
      .complete (.read 2) { bytes := authenticatedFrame }]

/-- Since both "authenticated" messages the last subscription carries the new list. -/
theorem latest_symbols_sent_listChanged : ∃ t, Run twoListSetting ["AAPL"] () listChanged t ∧
    let past := history twoListSetting
      (start twoListSetting { subscribedSymbols := ["AAPL"], world := () }) listChanged
    past = [.sent authText, .authenticated 1, .sent subscribeText, .sent bothText, .sent authText,
        .authenticated 2, .sent bothText] ∧
      ∀ earlier connection later, past = earlier ++ .authenticated connection :: later →
        LastSubscribes twoListSetting.json ["AAPL", "MSFT"] later := by
  have hrun : (Runs.run (step twoListSetting)
      (start twoListSetting { subscribedSymbols := ["AAPL"], world := () })
      listChanged).map (fun t => t.handlerState.subscribedSymbols) = some ["AAPL", "MSFT"] := by
    decide +kernel
  obtain ⟨t, ht, hsymbols⟩ := Option.map_eq_some_iff.mp hrun
  have hprint : ∀ a ∈ listChanged, SymbolsPrint twoListSetting.json a := by
    simp [listChanged, firstConnection, connecting, SymbolsPrint, twoListSetting, twoListMessages,
      subscribeMessage]
  obtain ⟨-, -, hlast⟩ := latest_symbols_sent twoListMessages_lawful ht rfl hprint
  refine ⟨t, ht, by decide +kernel, fun earlier connection later hsplit => ?_⟩
  have hnew := hlast earlier connection later hsplit (by rw [hsymbols]; simp)
  rwa [hsymbols] at hnew

end AlpacaWSMarketFeed

end MacdTradingBot
