import MacdTradingBot.Feed.Messages

/-!
# Bad messages in a frame

`on_websocket_frame` has one `try` block around all messages of a frame, and `parse_bar_message` one around
its bar. A message that throws outside of the latter takes the rest of its frame with it
(`sameOutputs_iff`), and neither block notices a bar message that lacks a member (`survives_iff`).
-/

namespace MacdTradingBot.AlpacaWSMarketFeed

variable {ω : Type} {setting : Setting ω} {feed : AlpacaWSMarketFeed ω} {frame : Bytes}
  {messages : List Json}

theorem onWebsocketFrame_of_array (h : setting.json.parse frame = some (.array messages)) :
    onWebsocketFrame setting frame feed
      = (Effect.forEach (handleMessage setting) messages feed).catching isException := by
  simp [onWebsocketFrame, h]

/-- A text that is no array changes nothing. -/
theorem onWebsocketFrame_of_not_array
    (h : ∀ messages, setting.json.parse frame ≠ some (.array messages)) :
    onWebsocketFrame setting frame feed = { state := feed } := by
  unfold onWebsocketFrame
  cases hparse : setting.json.parse frame with
  | none => rfl
  | some value =>
    cases value with
    | array messages => exact absurd hparse (h messages)
    | _ => rfl

/-! ## The rest of a frame -/

/-- The frames are handled one after another. -/
def onWebsocketFrames (setting : Setting ω) (frames : List Bytes) (feed : AlpacaWSMarketFeed ω) :
    Command ω :=
  Effect.forEach (onWebsocketFrame setting) frames feed

/-- The frame and the frames one after another are handled without a fault, and make the feed emit the
same bars and send the same messages, in the same order. -/
def SameOutputs (setting : Setting ω) (frame : Bytes) (frames : List Bytes)
    (feed : AlpacaWSMarketFeed ω) : Prop :=
  ∃ outputs, ((onWebsocketFrame setting frame feed).fault = none ∧
      (onWebsocketFrame setting frame feed).outputs = outputs) ∧
    (onWebsocketFrames setting frames feed).fault = none ∧
      (onWebsocketFrames setting frames feed).outputs = outputs

/-- Frames of one message each are handled like turns of the loop with a `try` block of their own. -/
theorem onWebsocketFrames_of_singletons {frames : List Bytes}
    (h : List.Forall₂ (fun message frame => setting.json.parse frame = some (.array [message]))
      messages frames) :
    onWebsocketFrames setting frames feed = Effect.forEach (fun message feed =>
      (handleMessage setting message feed).catching isException) messages feed := by
  induction h generalizing feed with
  | nil => rfl
  | @cons message frame messages frames hparse _ ih =>
    have hrest : Effect.forEach (onWebsocketFrame setting) frames = Effect.forEach
        (fun message feed => (handleMessage setting message feed).catching isException) messages := by
      funext feed
      exact ih
    rw [onWebsocketFrames, Effect.forEach, Effect.forEach, onWebsocketFrame_of_array hparse,
      Effect.forEach_singleton, hrest]

/-- A frame and its messages in frames of their own have the same bars and answers, in order, if and only
if no bar message reads a missing member and no message that throws has a message with a bar or an answer
somewhere after it in the frame. -/
theorem sameOutputs_iff {frames : List Bytes} (harray : setting.json.parse frame = some (.array messages))
    (hone : List.Forall₂ (fun message frame => setting.json.parse frame = some (.array [message]))
      messages frames) :
    SameOutputs setting frame frames feed ↔
      (∀ message ∈ messages, ¬ ReadsMissing message) ∧
        ∀ pre message post, messages = pre ++ message :: post → Throws setting feed message →
          ∀ later ∈ post, ¬ Speaks setting feed later := by
  have huniform := handleMessage_uniform setting feed
  have hiff := huniform.catching_forEach_iff isException messages ⟨rfl, rfl⟩
  rw [SameOutputs, onWebsocketFrame_of_array harray, onWebsocketFrames_of_singletons hone, hiff]
  simp only [faultOf_caught_iff, faultOf_isSome_iff, outputsOf_eq_nil_iff]
  constructor
  · rintro ⟨hreads, hquiet⟩
    exact ⟨hreads, fun pre message post heq hthrows => hquiet pre message post heq (Or.inl hthrows)⟩
  · rintro ⟨hreads, hquiet⟩
    refine ⟨hreads, fun pre message post heq hfault => ?_⟩
    have hmem : message ∈ messages := by simp [heq]
    exact hquiet pre message post heq (hfault.resolve_right (hreads message hmem))

/-! ### A message without a string -/

/-- A bar message. -/
def barMessage : Json :=
  .object [("S", .string "AAPL"), ("T", .string "b"), ("c", .numberUnsigned 1), ("h", .numberUnsigned 1),
    ("l", .numberUnsigned 1), ("o", .numberUnsigned 1), ("t", .string "2025-05-19T13:30:00Z"),
    ("v", .numberUnsigned 1)]

def barText : String :=
  "\x7b\"T\":\"b\",\"S\":\"AAPL\",\"o\":1,\"h\":1,\"l\":1,\"c\":1,\"v\":1,"
    ++ "\"t\":\"2025-05-19T13:30:00Z\"\x7d"

def numberMessage : Json := .object [("T", .numberUnsigned 1)]

def numberText : String := "\x7b\"T\":1\x7d"

def numberThenBar : Bytes := bytes ("[" ++ numberText ++ "," ++ barText ++ "]")
def barThenNumber : Bytes := bytes ("[" ++ barText ++ "," ++ numberText ++ "]")
def numberFrame : Bytes := bytes ("[" ++ numberText ++ "]")
def barFrame : Bytes := bytes ("[" ++ barText ++ "]")
def bareFrame : Bytes := bytes "[\x7b\"T\":\"b\"\x7d]"

/-- A library that reads these frames. -/
def exampleFrames : Nlohmann where
  parse := fun text => .map .array <|
    [(numberThenBar, [numberMessage, barMessage]), (barThenNumber, [barMessage, numberMessage]),
      (numberFrame, [numberMessage]), (barFrame, [barMessage]),
      (bareFrame, [.object [("T", .string "b")]])].lookup text
  dump := fun _ => none
  castOutOfRange := fun _ => 0

def exampleSetting : Setting Unit := { json := exampleFrames, config := {}, slots := Subscriber.ignore }

/-- The feed after `start`. -/
def startedFeed : AlpacaWSMarketFeed Unit := { wsSession := true, world := () }

/-- A message whose "T" is a number silences the bar after it. -/
theorem number_silences_bar :
    exampleSetting.json.parse numberThenBar = some (.array [numberMessage, barMessage]) ∧
      List.Forall₂ (fun message frame => exampleSetting.json.parse frame = some (.array [message]))
        [numberMessage, barMessage] [numberFrame, barFrame] ∧
      (onWebsocketFrame exampleSetting numberThenBar startedFeed).outputs = [] ∧
      (onWebsocketFrames exampleSetting [numberFrame, barFrame] startedFeed).outputs
        = [.bar ⟨"AAPL", ⟨1, 1, 1, 1, 1⟩, 1747661400 / 60⟩] ∧
      ¬ SameOutputs exampleSetting numberThenBar [numberFrame, barFrame] startedFeed := by
  have hframe : (onWebsocketFrame exampleSetting numberThenBar startedFeed).outputs = [] := by
    decide +kernel
  have hframes : (onWebsocketFrames exampleSetting [numberFrame, barFrame] startedFeed).outputs
      = [.bar ⟨"AAPL", ⟨1, 1, 1, 1, 1⟩, 1747661400 / 60⟩] := by
    decide +kernel
  refine ⟨rfl, .cons rfl (.cons rfl .nil), hframe, hframes, ?_⟩
  rintro ⟨outputs, ⟨-, hone⟩, -, heach⟩
  rw [hframe] at hone
  rw [hframes, ← hone] at heach
  cases heach

/-- After the bar the same message does no harm. -/
theorem sameOutputs_barThenNumber :
    SameOutputs exampleSetting barThenNumber [barFrame, numberFrame] startedFeed := by
  have hone : List.Forall₂ (fun message frame => exampleSetting.json.parse frame = some (.array [message]))
      [barMessage, numberMessage] [barFrame, numberFrame] := .cons rfl (.cons rfl .nil)
  refine (sameOutputs_iff rfl hone).mpr ⟨?_, ?_⟩
  · simp only [ReadsMissing]
    decide +kernel
  · intro pre message post heq hthrows later hlater
    cases pre with
    | nil =>
      obtain ⟨rfl, -⟩ := List.cons.inj heq
      have hkind : kind barMessage = .bar := by decide +kernel
      rcases hthrows with hmalformed | ⟨answer, hreply, -⟩
      · rw [hkind] at hmalformed
        cases hmalformed
      · rw [reply_of_bar hkind] at hreply
        cases hreply
    | cons first pre =>
      have hlength := congrArg List.length heq
      cases post with
      | nil => cases hlater
      | cons next post =>
        simp only [List.length_cons, List.length_append, List.length_nil] at hlength
        omega

/-! ## Missing members -/

/-- The frame is handled without a fault, and it makes no difference to leave out a bar message that
lacks a member. -/
def Survives (setting : Setting ω) (frame : Bytes) (feed : AlpacaWSMarketFeed ω) : Prop :=
  (onWebsocketFrame setting frame feed).fault = none ∧
    ∀ pre message post rest, setting.json.parse frame = some (.array (pre ++ message :: post)) →
      kind message = .bar → (∃ member ∈ barMembers, message.contains member.1 = false) →
        setting.json.parse rest = some (.array (pre ++ post)) →
          onWebsocketFrame setting frame feed = onWebsocketFrame setting rest feed

/-- A bar message that lacks a member and does not read it does nothing. -/
theorem handleMessage_of_lacking {message : Json} (hkind : kind message = .bar)
    (hlacks : ∃ member ∈ barMembers, message.contains member.1 = false) (hreads : ¬ ReadsMissing message) :
    handleMessage setting message feed = { state := feed } := by
  rw [handleMessage_of_kind, hkind]
  simp only
  have hmissing := firstMissing_eq setting.json (contains_of_bar hkind)
  cases hread : readBar setting.json message with
  | ok bar =>
    obtain ⟨member, hmember, hcontains⟩ := hlacks
    obtain ⟨hall, -⟩ := (readBar_ok_iff setting.json).mp ⟨bar, hread⟩
    obtain ⟨value, hvalue, -⟩ := hall member hmember
    simp [Json.contains, hvalue] at hcontains
  | error f =>
    rw [parseBarMessage_of_error _ _ _ hread]
    cases f with
    | exception e => rfl
    | missingMember key =>
      rw [hread] at hmissing
      exact absurd ⟨hkind, by rw [hmissing]; rfl⟩ hreads

/-- Nothing that the loop reaches reads a missing member. -/
def ReadsOnlyMembers (setting : Setting ω) (feed : AlpacaWSMarketFeed ω) (messages : List Json) : Prop :=
  ∀ pre message post, messages = pre ++ message :: post →
    (∀ earlier ∈ pre, ¬ Throws setting feed earlier ∧ ¬ ReadsMissing earlier) → ¬ ReadsMissing message

theorem faultOf_eq_none_iff {message : Json} : faultOf setting feed message = none ↔
    ¬ Throws setting feed message ∧ ¬ ReadsMissing message := by
  rw [← Option.not_isSome_iff_eq_none, faultOf_isSome_iff, not_or]

theorem fault_eq_none_iff (harray : setting.json.parse frame = some (.array messages)) :
    (onWebsocketFrame setting frame feed).fault = none ↔ ReadsOnlyMembers setting feed messages := by
  have huniform := handleMessage_uniform setting feed
  rw [onWebsocketFrame_of_array harray, Effect.catching_fault_eq_none, huniform.forEach_fault ⟨rfl, rfl⟩]
  constructor
  · intro hcaught pre message post heq hpre
    apply (faultOf_caught_iff : (∀ f, faultOf setting feed message = some f → _) ↔ _).mp
    intro f hf
    refine hcaught f (List.findSome?_eq_some_iff.mpr ⟨pre, message, post, heq, hf, ?_⟩)
    exact fun earlier hmem => faultOf_eq_none_iff.mpr (hpre earlier hmem)
  · intro hreads f hf
    obtain ⟨pre, message, post, heq, hf, hnone⟩ := List.findSome?_eq_some_iff.mp hf
    refine faultOf_caught_iff.mpr (hreads pre message post heq ?_) f hf
    exact fun earlier hmem => faultOf_eq_none_iff.mp (hnone earlier hmem)

/-- A frame is handled without reading a missing member, and bar messages that lack a member do nothing,
if and only if no bar message that the loop reaches reads a missing member. -/
theorem survives_iff (setting : Setting ω) (frame : Bytes) (feed : AlpacaWSMarketFeed ω) :
    Survives setting frame feed ↔
      ∀ messages, setting.json.parse frame = some (.array messages) →
        ReadsOnlyMembers setting feed messages := by
  constructor
  · rintro ⟨hfault, -⟩ messages harray
    exact (fault_eq_none_iff harray).mp hfault
  · intro hreads
    constructor
    · by_cases harray : ∃ messages, setting.json.parse frame = some (.array messages)
      · obtain ⟨messages, harray⟩ := harray
        exact (fault_eq_none_iff harray).mpr (hreads messages harray)
      · rw [onWebsocketFrame_of_not_array fun messages hparse => harray ⟨messages, hparse⟩]
    · intro pre message post rest harray hkind hlacks hrest
      have huniform := handleMessage_uniform setting feed
      rw [onWebsocketFrame_of_array harray, onWebsocketFrame_of_array hrest, Effect.forEach_append,
        Effect.forEach_append]
      dsimp only
      cases hpre : (Effect.forEach (handleMessage setting) pre feed).fault with
      | some f => rw [Effect.andThen_of_fault hpre, Effect.andThen_of_fault hpre]
      | none =>
        have hnone := hpre
        rw [huniform.forEach_fault ⟨rfl, rfl⟩, List.findSome?_eq_none_iff] at hnone
        have hmessage := hreads _ harray pre message post rfl fun earlier hmem =>
          faultOf_eq_none_iff.mp (hnone earlier hmem)
        rw [Effect.andThen_of_none hpre, Effect.andThen_of_none hpre,
          Effect.forEach_cons_of_idle (handleMessage_of_lacking hkind hlacks hmessage)]

/-- A bar message without members makes the feed read the missing "S". -/
theorem bare_bar_reads_missing :
    exampleSetting.json.parse bareFrame = some (.array [.object [("T", .string "b")]]) ∧
      (onWebsocketFrame exampleSetting bareFrame startedFeed).fault = some (.missingMember "S") ∧
      ¬ Survives exampleSetting bareFrame startedFeed := by
  have hfault : (onWebsocketFrame exampleSetting bareFrame startedFeed).fault
      = some (.missingMember "S") := by
    decide +kernel
  refine ⟨rfl, hfault, fun hsurvives => ?_⟩
  have hnone := hsurvives.1
  rw [hfault] at hnone
  cases hnone

end MacdTradingBot.AlpacaWSMarketFeed
