import MacdTradingBot.Feed.Authentication

/-!
# From frames to slots

The slots of `_bar_signal` see the bars of the frames and nothing else: over every run, what has become of
their state is told by the bars that the run has emitted (`world_of_run`), whatever else has happened to
the feed. A frame of one message brings the bar of this message, if it has one (`frameBars`).
-/

namespace MacdTradingBot

namespace AlpacaWSMarketFeed

variable {ω : Type} {setting : Setting ω} {feed : AlpacaWSMarketFeed ω}

/-! ## The bars of a command -/

def Output.bar? : Output → Option (Bar1min ℚ)
  | .bar b => some b
  | .sent _ => none

/-- The bars that are emitted. -/
def emittedBars (outputs : List Output) : List (Bar1min ℚ) := outputs.filterMap Output.bar?

/-- The slots are called with the bars, in order. -/
def callSlots (slots : Subscriber (Bar1min ℚ) ω) (bars : List (Bar1min ℚ)) (world : ω) : ω :=
  bars.foldl (fun w bar => (slots bar w).2) world

/-- The slots are called bar after bar. -/
theorem callSlots_append (slots : Subscriber (Bar1min ℚ) ω) (bars more : List (Bar1min ℚ)) (world : ω) :
    callSlots slots (bars ++ more) world = callSlots slots more (callSlots slots bars world) :=
  List.foldl_append

theorem emittedBars_append (os os' : List Output) :
    emittedBars (os ++ os') = emittedBars os ++ emittedBars os' :=
  List.filterMap_append

/-- Messages that are handed to the session are no bars. -/
theorem emittedBars_sent (texts : List Bytes) : emittedBars (texts.map .sent) = [] := by
  induction texts with
  | nil => rfl
  | cons text texts ih => exact ih

/-- A command whose slots have seen what it has emitted. -/
def Command.CallsSlots (slots : Subscriber (Bar1min ℚ) ω) (world : ω) (command : Command ω) : Prop :=
  command.state.world = callSlots slots (emittedBars command.outputs) world

/-- A message that is sent calls no slot. -/
theorem callsSlots_sendDump (message : Json) :
    (sendDump setting message feed).CallsSlots setting.slots feed.world := by
  rw [Command.CallsSlots, sendDump_cases, emittedBars_sent]
  rfl

theorem callsSlots_sendAuthMessage :
    (sendAuthMessage setting feed).CallsSlots setting.slots feed.world := by
  unfold sendAuthMessage
  split
  · exact callsSlots_sendDump _
  · rfl

theorem callsSlots_sendSubscriptionMessage :
    (sendSubscriptionMessage setting feed).CallsSlots setting.slots feed.world := by
  rw [sendSubscriptionMessage_cases]
  split
  · rw [Command.CallsSlots, sendDump_cases, emittedBars_sent]
    rfl
  · rfl

theorem callsSlots_subscribeToBars (symbols : List String) :
    (subscribeToBars setting symbols feed).CallsSlots setting.slots feed.world := by
  unfold subscribeToBars
  dsimp only
  split
  · exact callsSlots_sendSubscriptionMessage
  · rfl

/-- A bar that is read is emitted, and the slots see it. -/
theorem callsSlots_parseBarMessage (message : Json) :
    (parseBarMessage setting message feed).CallsSlots setting.slots feed.world := by
  cases hread : readBar setting.json message with
  | ok bar =>
    rw [parseBarMessage_of_ok _ _ _ hread]
    rfl
  | error f =>
    rw [parseBarMessage_of_error _ _ _ hread]
    rfl

/-- One message calls the slots with its bar, if it brings one. -/
theorem callsSlots_handleMessage (message : Json) :
    (handleMessage setting message feed).CallsSlots setting.slots feed.world := by
  rw [handleMessage_of_kind]
  cases kind message with
  | ignored | malformed => rfl
  | connected => exact callsSlots_sendAuthMessage
  | authenticated =>
    dsimp only
    split
    · exact callsSlots_sendSubscriptionMessage
    · rfl
  | bar => exact callsSlots_parseBarMessage message

/-- A frame calls the slots with the bars that it puts out. -/
theorem callsSlots_onWebsocketFrame (frame : Bytes) :
    (onWebsocketFrame setting frame feed).CallsSlots setting.slots feed.world := by
  by_cases harray : ∃ messages, setting.json.parse frame = some (.array messages)
  · obtain ⟨messages, hparse⟩ := harray
    rw [Command.CallsSlots, onWebsocketFrame_of_array hparse, Effect.catching_outputs,
      Effect.catching_state]
    have hloop : (Effect.forEach (handleMessage setting) messages feed).state.world
        = callSlots setting.slots
          (emittedBars ([] ++ (Effect.forEach (handleMessage setting) messages feed).outputs))
          feed.world := by
      apply Effect.forEach_invariant
        (fun os (s : AlpacaWSMarketFeed ω) =>
          s.world = callSlots setting.slots (emittedBars os) feed.world)
      · intro message _ os s hs
        rw [callsSlots_handleMessage message, hs, emittedBars_append, callSlots_append]
      · rfl
    rwa [List.nil_append] at hloop
  · rw [onWebsocketFrame_of_not_array fun messages hparse => harray ⟨messages, hparse⟩]
    rfl

/-! ## Runs -/

variable {s t : WebSocketSession (AlpacaWSMarketFeed ω)} {a : Action}

/-- The bars that a step emits. -/
def delivers (setting : Setting ω) (s : WebSocketSession (AlpacaWSMarketFeed ω)) :
    Action → List (Bar1min ℚ)
  | .complete (.read connection) outcome =>
    if outcome.ec then []
    else emittedBars (onWebsocketFrame setting (s.buffer ++ outcome.bytes)
      { s.handlerState with receivedOn := connection }).outputs
  | .subscribeToBars _ | .subscribeToAllBars | .stop _ | .wake | .complete _ _ => []

/-- The calls of the user emit nothing. -/
theorem emittedBars_subscribeToBars (symbols : List String) :
    emittedBars (subscribeToBars setting symbols feed).outputs = [] := by
  unfold subscribeToBars
  dsimp only
  split
  · rw [sendSubscriptionMessage_cases]
    split
    · dsimp only
      rw [sendDump_cases]
      exact emittedBars_sent _
    · rfl
  · rfl

/-- A step calls the slots with the bars that it delivers. -/
theorem world_of_step (hstep : step setting s a = some t) :
    t.handlerState.world = callSlots setting.slots (delivers setting s a) s.handlerState.world := by
  have hcall : ∀ symbols, (subscribeToBars setting symbols s.handlerState).state.world
      = s.handlerState.world := by
    intro symbols
    rw [callsSlots_subscribeToBars symbols, emittedBars_subscribeToBars]
    rfl
  rw [WebSocketSession.handlerState_of_step (step_session hstep)]
  cases a with
  | subscribeToBars symbols => exact hcall symbols
  | subscribeToAllBars => exact hcall ["*"]
  | stop isOpen | wake => rfl
  | complete operation outcome =>
    cases operation with
    | read connection =>
      simp only [Action.onSession, WebSocketSession.nextKept, delivers]
      split
      · rfl
      · exact callsSlots_onWebsocketFrame _
    | _ => rfl

/-- The bars that a run emits. -/
abbrev emitted (setting : Setting ω) (s : WebSocketSession (AlpacaWSMarketFeed ω)) (as : List Action) :
    List (Bar1min ℚ) :=
  Runs.collect (step setting) (delivers setting) s as

/-- Over every run the slots have been called with the bars that were emitted, in order. -/
theorem world_of_run {as : List Action} (h : Runs.run (step setting) s as = some t) :
    t.handlerState.world = callSlots setting.slots (emitted setting s as) s.handlerState.world := by
  refine Runs.invariant_of_collect (delivers setting)
    (fun bars u => u.handlerState.world = callSlots setting.slots bars s.handlerState.world) rfl ?_ h
  intro pre b u v _ bars hu hstep
  rw [world_of_step hstep, hu, callSlots_append]

/-! ## Frames of one message -/

/-- The bar of a message. -/
def messageBars (json : Nlohmann) (message : Json) : List (Bar1min ℚ) :=
  if kind message = .bar then (readBar json message).toOption.toList else []

/-- The bars of a frame of one message. -/
def frameBars (json : Nlohmann) (frame : Bytes) : List (Bar1min ℚ) :=
  match json.parse frame with
  | some (.array [message]) => messageBars json message
  | _ => []

/-- What one message puts out has the bar that it brings. -/
theorem emittedBars_outputsOf (message : Json) :
    emittedBars (outputsOf setting feed message) = messageBars setting.json message := by
  unfold outputsOf messageBars
  cases hkind : kind message with
  | bar =>
    rw [if_pos rfl]
    cases readBar setting.json message <;> rfl
  | ignored | malformed | connected | authenticated =>
    rw [if_neg (by simp)]
    exact emittedBars_sent _

/-- A frame of one message puts out the bars that it brings. -/
theorem emittedBars_of_single {frame : Bytes} {message : Json}
    (hparse : setting.json.parse frame = some (.array [message])) :
    emittedBars (onWebsocketFrame setting frame feed).outputs = frameBars setting.json frame := by
  have huniform := handleMessage_uniform setting feed
  rw [onWebsocketFrame_of_array hparse, Effect.catching_outputs, Effect.forEach_singleton,
    huniform.outputs message feed ⟨rfl, rfl⟩, emittedBars_outputsOf, frameBars, hparse]

end AlpacaWSMarketFeed

end MacdTradingBot
