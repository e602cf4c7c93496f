import MacdTradingBot.Feed.MarketFeed

/-!
# The messages of a frame

What `on_websocket_frame` does with one message, told from the message alone: what it takes the message
for, whether handling it throws, and whether the feed puts something out. `handleMessage_uniform` is the
specification of the loop body.
-/

namespace MacdTradingBot

namespace Json

/-- A conversion succeeds on the values that `ok` accepts and throws on the others. -/
def Converts {α : Type} (get : Json → Except Fault α) (ok : Json → Bool) : Prop :=
  ∀ j, if ok j then ∃ a, get j = .ok a else get j = typeMismatch

/-- What is converted has the right kind. -/
theorem Converts.ok_of_get {α : Type} {get : Json → Except Fault α} {ok : Json → Bool}
    (h : Converts get ok) {j : Json} {a : α} (hget : get j = .ok a) : ok j = true := by
  by_contra hok
  have hj := h j
  rw [if_neg hok, hget] at hj
  cases hj

/-- What has the right kind is converted. -/
theorem Converts.exists_get {α : Type} {get : Json → Except Fault α} {ok : Json → Bool}
    (h : Converts get ok) {j : Json} (hok : ok j = true) : ∃ a, get j = .ok a := by
  have hj := h j
  rwa [if_pos hok] at hj

/-- Texts are read as texts. -/
theorem converts_getString : Converts getString isString := by
  intro j
  cases j <;> simp [getString, isString]

/-- Numbers of any kind are read as `double`. -/
theorem converts_getDouble : Converts getDouble isNumber := by
  intro j
  cases j <;> simp [getDouble, isNumber]

/-- Numbers of any kind are read as `uint64_t`. -/
theorem converts_getUInt64 (json : Nlohmann) : Converts (getUInt64 json) isNumber := by
  intro j
  cases j <;> simp [getUInt64, isNumber]

/-- A value with a member is an object, and the other members are read from it. -/
theorem subscript_of_contains {j : Json} {key₀ : String} (h : j.contains key₀ = true) (key : String) :
    j.subscript key = match j.find? key with
      | some value => .ok value
      | none => .error (.missingMember key) := by
  cases j with
  | object members => rfl
  | _ => cases h

/-- A member that is there is read. -/
theorem subscript_of_find? {j value : Json} {key : String} (h : j.find? key = some value) :
    j.subscript key = .ok value := by
  have hcontains : j.contains key = true := by
    rw [contains, h]
    rfl
  rw [subscript_of_contains hcontains, h]

end Json

namespace AlpacaWSMarketFeed

variable {ω : Type}

/-! ## The members of a bar message -/

/-- The members that `parse_bar_message` reads, in this order, with the types that it converts. -/
def barMembers : List (String × (Json → Bool)) :=
  [("S", Json.isString), ("o", Json.isNumber), ("h", Json.isNumber), ("l", Json.isNumber),
    ("c", Json.isNumber), ("v", Json.isNumber), ("t", Json.isString)]

/-- The first member that is missing or of a wrong type, if it is missing. -/
def firstMissing (message : Json) : List (String × (Json → Bool)) → Option String
  | [] => none
  | (key, ok) :: rest =>
    match message.find? key with
    | none => some key
    | some value => if ok value then firstMissing message rest else none

/-- The members of a bar are there, have their types, and the timestamp is one. -/
def HasBar (message : Json) : Prop :=
  (∀ member ∈ barMembers, ∃ value, message.find? member.1 = some value ∧ member.2 value = true) ∧
    ∃ text minute, message.find? "t" = some (.string text) ∧
      parseRFC3339UTCTimestamp text = .ok minute

section Reading

variable {message : Json} {α β : Type} {get : Json → Except Fault α} {ok : Json → Bool}
  {next : α → Except Fault β} {rest : List (String × (Json → Bool))} {missing : String}

/-- A read of a member, and what comes after it. -/
theorem read_eq_missing_iff (hobject : message.contains "T" = true) (hget : Json.Converts get ok)
    (key : String) (hnext : ∀ a, next a = .error (.missingMember missing) ↔
      firstMissing message rest = some missing) :
    (message.subscript key >>= fun value => get value >>= next) = .error (.missingMember missing) ↔
      firstMissing message ((key, ok) :: rest) = some missing := by
  rw [Json.subscript_of_contains hobject, firstMissing]
  cases message.find? key with
  | none =>
    show Except.error (Fault.missingMember key) = _ ↔ _
    simp
  | some value =>
    show (get value >>= next) = _ ↔ (if ok value = true then _ else none) = _
    have hvalue := hget value
    by_cases hok : ok value = true
    · rw [if_pos hok] at hvalue
      obtain ⟨a, ha⟩ := hvalue
      rw [ha, if_pos hok]
      exact hnext a
    · rw [if_neg hok] at hvalue
      rw [hvalue, if_neg hok]
      show Except.error _ = _ ↔ _
      simp

/-- A bar message reads a missing member exactly when its first faulty member is missing. -/
theorem readBar_missing_iff (json : Nlohmann) (hobject : message.contains "T" = true) :
    readBar json message = .error (.missingMember missing) ↔
      firstMissing message barMembers = some missing := by
  refine read_eq_missing_iff hobject Json.converts_getString "S" fun symbol => ?_
  refine read_eq_missing_iff hobject Json.converts_getDouble "o" fun «open» => ?_
  refine read_eq_missing_iff hobject Json.converts_getDouble "h" fun high => ?_
  refine read_eq_missing_iff hobject Json.converts_getDouble "l" fun low => ?_
  refine read_eq_missing_iff hobject Json.converts_getDouble "c" fun close => ?_
  refine read_eq_missing_iff hobject (Json.converts_getUInt64 json) "v" fun volume => ?_
  refine read_eq_missing_iff hobject Json.converts_getString "t" fun timestampStr => ?_
  cases parseRFC3339UTCTimestamp timestampStr <;> simp [firstMissing, pure, Except.pure]

/-- The missing member is the fault of reading the bar, where there is one. -/
theorem firstMissing_eq (json : Nlohmann) (hobject : message.contains "T" = true) :
    firstMissing message barMembers = match readBar json message with
      | .error (.missingMember key) => some key
      | _ => none := by
  cases hfirst : firstMissing message barMembers with
  | some key => rw [(readBar_missing_iff json hobject).mpr hfirst]
  | none =>
    have hno : ∀ key, readBar json message ≠ .error (.missingMember key) := by
      intro key hkey
      rw [(readBar_missing_iff json hobject).mp hkey] at hfirst
      cases hfirst
    split
    · rename_i key hkey
      exact absurd hkey (hno key)
    · rfl

/-- A chain of reads succeeds exactly when this read and what comes after it do. -/
theorem read_eq_ok_iff {b : β} (key : String) :
    (message.subscript key >>= fun value => get value >>= next) = .ok b ↔
      ∃ value a, message.find? key = some value ∧ get value = .ok a ∧ next a = .ok b := by
  constructor
  · intro h
    cases hfind : message.find? key with
    | none =>
      exfalso
      cases message with
      | object members =>
        have hlookup : members.lookup key = none := hfind
        simp [Json.subscript, hlookup, bind, Except.bind] at h
      | _ => simp [Json.subscript, bind, Except.bind] at h
    | some value =>
      rw [Json.subscript_of_find? hfind] at h
      cases hget : get value with
      | error f => simp [bind, Except.bind, hget] at h
      | ok a =>
        refine ⟨value, a, rfl, hget, ?_⟩
        simpa [bind, Except.bind, hget] using h
  · rintro ⟨value, a, hfind, hget, hnext⟩
    rw [Json.subscript_of_find? hfind]
    simp [bind, Except.bind, hget, hnext]

/-- The bar that is read has what the members say. -/
theorem readBar_eq_ok_iff (json : Nlohmann) {bar : Bar1min ℚ} : readBar json message = .ok bar ↔
    (∃ value, message.find? "S" = some value ∧ value.getString = .ok bar.symbol) ∧
    (∃ value, message.find? "o" = some value ∧ value.getDouble = .ok bar.open) ∧
    (∃ value, message.find? "h" = some value ∧ value.getDouble = .ok bar.high) ∧
    (∃ value, message.find? "l" = some value ∧ value.getDouble = .ok bar.low) ∧
    (∃ value, message.find? "c" = some value ∧ value.getDouble = .ok bar.close) ∧
    (∃ value, message.find? "v" = some value ∧ value.getUInt64 json = .ok bar.volume) ∧
    ∃ text, message.find? "t" = some (.string text) ∧
      parseRFC3339UTCTimestamp text = .ok bar.timestamp := by
  unfold readBar
  simp only [read_eq_ok_iff]
  constructor
  · -- the reads succeed one after another
    rintro ⟨S, symbol, hS, hsymbol, o, «open», ho, hopen, h, high, hh, hhigh, l, low, hl, hlow, c, close,
      hc, hclose, v, volume, hv, hvolume, t, text, ht, htext, hbar⟩
    cases hminute : parseRFC3339UTCTimestamp text with
    | error e => simp [hminute] at hbar
    | ok minute =>
      rw [hminute] at hbar
      obtain rfl := Except.ok.inj hbar
      refine ⟨⟨S, hS, hsymbol⟩, ⟨o, ho, hopen⟩, ⟨h, hh, hhigh⟩, ⟨l, hl, hlow⟩, ⟨c, hc, hclose⟩,
        ⟨v, hv, hvolume⟩, text, ?_, hminute⟩
      -- only a string has a text to parse
      cases t with
      | string s =>
        obtain rfl := Except.ok.inj htext
        exact ht
      | _ => cases htext
  · rintro ⟨⟨S, hS, hsymbol⟩, ⟨o, ho, hopen⟩, ⟨h, hh, hhigh⟩, ⟨l, hl, hlow⟩, ⟨c, hc, hclose⟩,
      ⟨v, hv, hvolume⟩, text, ht, hminute⟩
    refine ⟨S, _, hS, hsymbol, o, _, ho, hopen, h, _, hh, hhigh, l, _, hl, hlow, c, _, hc, hclose,
      v, _, hv, hvolume, .string text, text, ht, rfl, ?_⟩
    rw [hminute]
    rfl

/-- A bar is read exactly when the message has one. -/
theorem readBar_ok_iff (json : Nlohmann) : (∃ b, readBar json message = .ok b) ↔ HasBar message := by
  constructor
  · rintro ⟨b, h⟩
    obtain ⟨⟨S, hS, hsymbol⟩, ⟨o, ho, hopen⟩, ⟨hi, hhi, hhigh⟩, ⟨l, hl, hlow⟩, ⟨c, hc, hclose⟩,
      ⟨v, hv, hvolume⟩, text, ht, hminute⟩ := (readBar_eq_ok_iff json).mp h
    refine ⟨?_, text, b.timestamp, ht, hminute⟩
    simp only [barMembers, List.forall_mem_cons, List.not_mem_nil, false_imp_iff, implies_true]
    exact ⟨⟨S, hS, Json.converts_getString.ok_of_get hsymbol⟩,
      ⟨o, ho, Json.converts_getDouble.ok_of_get hopen⟩,
      ⟨hi, hhi, Json.converts_getDouble.ok_of_get hhigh⟩,
      ⟨l, hl, Json.converts_getDouble.ok_of_get hlow⟩,
      ⟨c, hc, Json.converts_getDouble.ok_of_get hclose⟩,
      ⟨v, hv, (Json.converts_getUInt64 json).ok_of_get hvolume⟩,
      ⟨.string text, ht, rfl⟩, trivial⟩
  · rintro ⟨hmembers, text, minute, ht, hminute⟩
    simp only [barMembers, List.forall_mem_cons, List.not_mem_nil, false_imp_iff, implies_true] at hmembers
    obtain ⟨⟨S, hS, okS⟩, ⟨o, ho, oko⟩, ⟨hi, hhi, okhi⟩, ⟨l, hl, okl⟩, ⟨c, hc, okc⟩, ⟨v, hv, okv⟩, -⟩ :=
      hmembers
    obtain ⟨symbol, hsymbol⟩ := Json.converts_getString.exists_get okS
    obtain ⟨«open», hopen⟩ := Json.converts_getDouble.exists_get oko
    obtain ⟨high, hhigh⟩ := Json.converts_getDouble.exists_get okhi
    obtain ⟨low, hlow⟩ := Json.converts_getDouble.exists_get okl
    obtain ⟨close, hclose⟩ := Json.converts_getDouble.exists_get okc
    obtain ⟨volume, hvolume⟩ := (Json.converts_getUInt64 json).exists_get okv
    refine ⟨⟨symbol, ⟨«open», high, low, close, volume⟩, minute⟩, ?_⟩
    exact (readBar_eq_ok_iff json).mpr ⟨⟨S, hS, hsymbol⟩, ⟨o, ho, hopen⟩, ⟨hi, hhi, hhigh⟩, ⟨l, hl, hlow⟩,
      ⟨c, hc, hclose⟩, ⟨v, hv, hvolume⟩, text, ht, hminute⟩

end Reading

/-! ## Kinds of messages -/

/-- What the loop body takes a message for; a `malformed` one has a "T", or the "msg" of a "success",
that is no string. -/
inductive Kind
  | ignored | malformed | connected | authenticated | bar
deriving DecidableEq, Repr

def kind (message : Json) : Kind :=
  match message.find? "T" with
  | none => .ignored
  | some (.string msgType) =>
    if msgType = "b" then .bar
    else if msgType = "success" then
      match message.find? "msg" with
      | none => .ignored
      | some (.string msg) =>
        if msg = "connected" then .connected
        else if msg = "authenticated" then .authenticated
        else .ignored
      | some _ => .malformed
    else .ignored
  | some _ => .malformed

/-- A bar has a kind. -/
theorem contains_of_bar {message : Json} (h : kind message = .bar) : message.contains "T" = true := by
  unfold kind at h
  cases hT : message.find? "T" with
  | none => simp [hT] at h
  | some value => simp [Json.contains, hT]

/-- The feed when an "authenticated" message is processed. -/
def authenticate (feed : AlpacaWSMarketFeed ω) : AlpacaWSMarketFeed ω :=
  { feed with
    authenticated := true
    authenticatedOn := feed.authenticatedOn ++ [feed.receivedOn] }

/-- The loop body does one of five things. -/
theorem handleMessage_of_kind (setting : Setting ω) (message : Json) (feed : AlpacaWSMarketFeed ω) :
    handleMessage setting message feed = match kind message with
      | .ignored => { state := feed }
      | .malformed => { fault := some (.exception (.other "type_error.302")), state := feed }
      | .connected => sendAuthMessage setting feed
      | .authenticated =>
        if feed.subscribedSymbols ≠ [] then sendSubscriptionMessage setting (authenticate feed)
        else { state := authenticate feed }
      | .bar => parseBarMessage setting message feed := by
  unfold handleMessage kind
  cases hT : message.find? "T" with
  | none => simp [Json.contains, hT]
  | some value =>
    have hcontains : message.contains "T" = true := by simp [Json.contains, hT]
    rw [Json.subscript_of_find? hT, hcontains]
    cases value with
    | string msgType =>
      by_cases hb : msgType = "b"
      · subst hb
        simp [bind, Except.bind, Json.getString]
      · by_cases hsuccess : msgType = "success"
        · subst hsuccess
          cases hmsg : message.find? "msg" with
          | none => simp [bind, Except.bind, Json.getString, Json.contains, hmsg]
          | some value =>
            have hmsgContains : message.contains "msg" = true := by simp [Json.contains, hmsg]
            rw [Json.subscript_of_find? hmsg, hmsgContains]
            cases value with
            | string msg =>
              by_cases hconnected : msg = "connected"
              · simp [bind, Except.bind, Json.getString, hconnected]
              · by_cases hauthenticated : msg = "authenticated"
                · simp [bind, Except.bind, Json.getString, hauthenticated, authenticate]
                · simp [bind, Except.bind, Json.getString, hconnected, hauthenticated]
            | _ => simp [bind, Except.bind, Json.getString, Json.typeMismatch]
        · simp [bind, Except.bind, Json.getString, hb, hsuccess]
    | _ => simp [bind, Except.bind, Json.getString, Json.typeMismatch]

/-! ## Faults and outputs of one message -/

/-- What the feed answers to a message, if it does. -/
def reply (setting : Setting ω) (feed : AlpacaWSMarketFeed ω) (message : Json) : Option Json :=
  if feed.wsSession then
    match kind message with
    | .connected => some (authMessage setting.config)
    | .authenticated =>
      if feed.subscribedSymbols ≠ [] then some (subscribeMessage feed.subscribedSymbols) else none
    | _ => none
  else
    none

/-- The message is a bar message that makes the feed read a missing member. -/
def ReadsMissing (message : Json) : Prop :=
  kind message = .bar ∧ (firstMissing message barMembers).isSome

/-- The message is malformed, or the answer to it is not UTF-8. -/
def Throws (setting : Setting ω) (feed : AlpacaWSMarketFeed ω) (message : Json) : Prop :=
  kind message = .malformed ∨
    ∃ answer, reply setting feed message = some answer ∧ setting.json.dump answer = none

/-- The message has a bar, or gets an answer. -/
def Speaks (setting : Setting ω) (feed : AlpacaWSMarketFeed ω) (message : Json) : Prop :=
  kind message = .bar ∧ HasBar message ∨
    ∃ answer text, reply setting feed message = some answer ∧ setting.json.dump answer = some text

def faultOf (setting : Setting ω) (feed : AlpacaWSMarketFeed ω) (message : Json) : Option Fault :=
  match kind message with
  | .malformed => some (.exception (.other "type_error.302"))
  | .bar => (firstMissing message barMembers).map .missingMember
  | _ => (reply setting feed message).bind fun answer =>
      if (setting.json.dump answer).isNone then some (.exception (.other "type_error.316")) else none

def outputsOf (setting : Setting ω) (feed : AlpacaWSMarketFeed ω) (message : Json) : List Output :=
  match kind message with
  | .bar => (readBar setting.json message).toOption.toList.map .bar
  | _ => ((reply setting feed message).bind setting.json.dump).toList.map .sent

/-- The members that decide about the answers are the same. -/
def Alike (feed₀ feed : AlpacaWSMarketFeed ω) : Prop :=
  feed.subscribedSymbols = feed₀.subscribedSymbols ∧ feed.wsSession = feed₀.wsSession

section Spec

variable (setting : Setting ω) (feed : AlpacaWSMarketFeed ω) (message : Json)

/-- A message that cannot be written throws; any other one is sent. -/
theorem sendDump_cases : sendDump setting message feed =
    { fault := if (setting.json.dump message).isNone then some (.exception (.other "type_error.316"))
        else none
      outputs := (setting.json.dump message).toList.map .sent
      state := feed } := by
  unfold sendDump
  cases setting.json.dump message <;> rfl

/-- A feed without a session throws. -/
theorem sendSubscriptionMessage_cases : sendSubscriptionMessage setting feed =
    if feed.wsSession then
      { sendDump setting (subscribeMessage feed.subscribedSymbols) feed with
        state := { feed with
          subscribed :=
            feed.subscribed || (setting.json.dump (subscribeMessage feed.subscribedSymbols)).isSome } }
    else { state := feed } := by
  unfold sendSubscriptionMessage
  split
  · rw [sendDump_cases]
    cases setting.json.dump (subscribeMessage feed.subscribedSymbols) <;> simp [Effect.andThen]
  · rfl

/-- A bar that is read is emitted; a slot that throws changes nothing about that. -/
theorem parseBarMessage_of_ok {bar : Bar1min ℚ} (h : readBar setting.json message = .ok bar) :
    parseBarMessage setting message feed
      = { outputs := [.bar bar]
          state := { feed with world := (setting.slots bar feed.world).2 } } := by
  simp only [parseBarMessage, h, emitBar, Effect.catching]
  cases (setting.slots bar feed.world).1 <;> rfl

/-- A bar that cannot be read leaves a fault, unless it is caught. -/
theorem parseBarMessage_of_error {f : Fault} (h : readBar setting.json message = .error f) :
    parseBarMessage setting message feed
      = { fault := if isException f then none else some f, state := feed } := by
  simp only [parseBarMessage, h, Effect.catching, Option.filter]
  cases f <;> rfl

end Spec

/-- The loop body, from the message and from the members that decide about the answers. -/
theorem handleMessage_uniform (setting : Setting ω) (feed₀ : AlpacaWSMarketFeed ω) :
    Effect.Uniform (handleMessage setting) (Alike feed₀) (faultOf setting feed₀)
      (outputsOf setting feed₀) := by
  have hspec : ∀ message feed, Alike feed₀ feed →
      (handleMessage setting message feed).fault = faultOf setting feed₀ message ∧
        (handleMessage setting message feed).outputs = outputsOf setting feed₀ message ∧
          Alike feed₀ (handleMessage setting message feed).state := by
    rintro message feed ⟨hsymbols, hsession⟩
    rw [handleMessage_of_kind]
    cases hkind : kind message with
    | ignored => simp [faultOf, outputsOf, reply, hkind, Alike, hsymbols, hsession]
    | malformed => simp [faultOf, outputsOf, reply, hkind, Alike, hsymbols, hsession]
    | connected =>
      by_cases hset : feed₀.wsSession = true
      · simp [faultOf, outputsOf, reply, hkind, Alike, hsymbols, hsession, hset, sendAuthMessage,
          sendDump_cases]
      · simp [faultOf, outputsOf, reply, hkind, Alike, hsymbols, hsession, hset, sendAuthMessage]
    | authenticated =>
      by_cases hset : feed₀.wsSession = true <;> by_cases hnone : feed₀.subscribedSymbols = [] <;>
        simp [faultOf, outputsOf, reply, hkind, Alike, hsymbols, hsession, hset, hnone, authenticate,
          sendSubscriptionMessage_cases, sendDump_cases]
    | bar =>
      -- a bar message answers nothing, but it may emit or break the feed
      have hmissing := firstMissing_eq setting.json (contains_of_bar hkind)
      cases hread : readBar setting.json message with
      | ok bar =>
        rw [hread] at hmissing
        simp [faultOf, outputsOf, hkind, Alike, hsymbols, hsession, hread, hmissing, Except.toOption,
          parseBarMessage_of_ok _ _ _ hread]
      | error f =>
        rw [hread] at hmissing
        cases f <;> simp [faultOf, outputsOf, hkind, Alike, hsymbols, hsession, hread, hmissing,
          Except.toOption, isException, parseBarMessage_of_error _ _ _ hread]
  exact ⟨fun m s hs => (hspec m s hs).1, fun m s hs => (hspec m s hs).2.1,
    fun m s hs => (hspec m s hs).2.2⟩

section Predicates

variable {setting : Setting ω} {feed : AlpacaWSMarketFeed ω} {message : Json}

/-- A bar is not answered. -/
theorem reply_of_bar (h : kind message = .bar) : reply setting feed message = none := by
  simp [reply, h]

/-- A malformed message is not answered. -/
theorem reply_of_malformed (h : kind message = .malformed) : reply setting feed message = none := by
  simp [reply, h]

/-- The fault is an exception unless a missing member is read. -/
theorem faultOf_caught_iff :
    (∀ f, faultOf setting feed message = some f → isException f = true) ↔ ¬ ReadsMissing message := by
  unfold faultOf ReadsMissing
  cases hkind : kind message with
  | bar => cases firstMissing message barMembers <;> simp [isException]
  | malformed => simp [isException]
  | ignored | connected | authenticated => cases reply setting feed message <;> simp [isException]

/-- There is a fault when something throws, or a missing member is read. -/
theorem faultOf_isSome_iff : (faultOf setting feed message).isSome ↔
    Throws setting feed message ∨ ReadsMissing message := by
  unfold faultOf Throws ReadsMissing
  cases hkind : kind message with
  | bar => simp [reply_of_bar hkind]
  | malformed => simp
  | ignored | connected | authenticated =>
    cases reply setting feed message with
    | none => simp
    | some answer => cases setting.json.dump answer <;> simp

/-- A message that does not speak puts nothing out. -/
theorem outputsOf_eq_nil_iff : outputsOf setting feed message = [] ↔ ¬ Speaks setting feed message := by
  unfold outputsOf Speaks
  cases hkind : kind message with
  | bar =>
    rw [← readBar_ok_iff setting.json, reply_of_bar hkind]
    cases readBar setting.json message <;> simp [Except.toOption]
  | ignored | malformed | connected | authenticated =>
    cases reply setting feed message with
    | none => simp
    | some answer => simp [Option.eq_none_iff_forall_ne_some]

end Predicates

end AlpacaWSMarketFeed

end MacdTradingBot
