import MacdTradingBot.WebSocket.Stopping

/-!
# Recovering

A session that is not stopped is never silent: it is connected and reads, or a chain is under way, or
`reconnect` sleeps and will start one (`never_silent`). While it is connected a message in the queue means
that a write is under way.
-/

namespace MacdTradingBot

namespace WebSocketSession

variable {σ : Type}

/-- The action calls no method of the session but `start` and `send`. -/
def Action.NoStop : Action σ → Prop
  | .call f => ∀ kept, ∀ call ∈ (f kept).1, ∃ text, call = .send text
  | .start | .wake | .complete _ _ => True

/-- The frame handler calls no method of the session but `send`. -/
def NeverStops (handler : FrameHandler σ) : Prop :=
  ∀ connection frame kept, ∀ call ∈ (handler connection frame kept).1, ∃ text, call = .send text

variable {cfg : WebSocketSessionConfig} {handler : FrameHandler σ} {s t : WebSocketSession σ}
  {a : Action σ} {kept : σ}

/-! ## Operations stay outstanding -/

/-- What is still outstanding once the action has begun. -/
def remaining (s : WebSocketSession σ) : Action σ → List Operation
  | .complete operation _ => s.operations.erase operation
  | .start | .call _ | .wake => s.operations

/-- Operations have been started and events recorded, and nothing else has happened to the two lists. -/
structure Grows (s t : WebSocketSession σ) : Prop where
  operations : s.operations <+: t.operations
  log : s.log <+: t.log

theorem grows_refl : s.Grows s := ⟨List.prefix_rfl, List.prefix_rfl⟩

section Grows

variable {u : WebSocketSession σ} (h : u.Grows s)

include h

theorem Grows.launch (operation : Operation) : u.Grows (s.launch operation) :=
  ⟨h.operations.trans (List.prefix_append _ _), h.log⟩

theorem Grows.record (e : Event) : u.Grows (s.record e) :=
  ⟨h.operations, h.log.trans (List.prefix_append _ _)⟩

theorem Grows.send (text : Bytes) : u.Grows (s.send text) := by
  rw [send_cases]
  split
  · apply Grows.record
    apply Grows.launch
    apply Grows.record
    exact ⟨h.operations, h.log⟩
  · apply Grows.record
    exact ⟨h.operations, h.log⟩

theorem Grows.stop (isOpen : Bool) : u.Grows (s.stop isOpen) := by
  unfold WebSocketSession.stop
  split
  · apply Grows.launch
    exact ⟨h.operations, h.log⟩
  · exact ⟨h.operations, h.log⟩

theorem Grows.performAll (calls : List Call) : u.Grows (s.performAll calls) := by
  apply performAll_induction u.Grows
  · intro text _ v hv
    exact hv.send text
  · intro isOpen _ v hv
    exact hv.stop isOpen
  · exact h

theorem Grows.doWrite : u.Grows s.doWrite := by
  rcases s.doWrite_cases with ⟨heq, -⟩ | ⟨front, rest, -, -, heq⟩
  · rw [heq]
    exact h
  · rw [heq]
    exact (h.launch _).record _

theorem Grows.start (cfg : WebSocketSessionConfig) : u.Grows (s.start cfg) := by
  unfold WebSocketSession.start
  split
  · exact h
  · exact (h.launch _).record _

theorem Grows.opened (cfg : WebSocketSessionConfig) : u.Grows (s.opened cfg) := by
  rw [opened_eq, greet_eq]
  apply Grows.launch
  apply Grows.launch
  apply Grows.doWrite
  apply Grows.performAll
  exact ⟨h.operations, h.log⟩

theorem Grows.delivered (connection : ℕ) (calls : List Call) (kept : σ) :
    u.Grows (s.delivered connection calls kept) := by
  apply delivered_induction _ _ _ _ u.Grows
  · apply Grows.record
    exact ⟨h.operations, h.log⟩
  · intro v hv
    exact hv.performAll calls
  · intro v hv
    apply Grows.launch
    exact ⟨hv.operations, hv.log⟩

theorem Grows.wrote (text : Bytes) : u.Grows (s.wrote text) := by
  have hpopped : u.Grows ({ s with writeQueue := s.writeQueue.tail }.record
      (.popped text s.writeQueue.head?)) := by
    apply Grows.record
    exact ⟨h.operations, h.log⟩
  unfold WebSocketSession.wrote
  dsimp only
  split
  · exact hpopped.doWrite
  · exact hpopped

end Grows

/-- A step takes the operation that completes out; it only adds others, and events. -/
theorem grows_of_step (hstep : step cfg handler s a = some t) :
    { s with operations := s.remaining a }.Grows t := by
  have hkept : ∀ u : WebSocketSession σ, u.operations = s.remaining a → u.log = s.log →
      { s with operations := s.remaining a }.Grows u := by
    intro u hoperations hlog
    refine ⟨?_, ?_⟩
    · rw [hoperations]
    · rw [hlog]
  cases transition_of_step hstep with
  | started => exact (hkept s rfl rfl).start cfg
  | called =>
    apply Grows.performAll
    exact hkept _ rfl rfl
  | woken =>
    apply wake_induction (Grows _)
    · exact hkept _ rfl rfl
    · intro u hu
      exact hu.start cfg
  | failed =>
    rw [fail_eq]
    exact hkept _ rfl rfl
  | resolved | connected | secured | pinged | armed =>
    apply Grows.launch
    exact hkept _ rfl rfl
  | opened =>
    apply Grows.opened
    exact hkept _ rfl rfl
  | delivered =>
    apply Grows.delivered
    exact hkept _ rfl rfl
  | wrote =>
    apply Grows.wrote
    exact hkept _ rfl rfl
  | timerDropped | closed => exact hkept _ rfl rfl

/-- Until it completes, an operation stays outstanding. -/
theorem mem_of_step (hstep : step cfg handler s a = some t) {operation : Operation}
    (mem : operation ∈ s.operations) (hother : ∀ outcome, a ≠ .complete operation outcome) :
    operation ∈ t.operations := by
  refine (grows_of_step hstep).operations.subset ?_
  cases a with
  | complete completed outcome =>
    have hne : operation ≠ completed := by
      intro heq
      exact hother outcome (by rw [heq])
    exact (List.mem_erase_of_ne hne).mpr mem
  | start | call | wake => exact mem

/-! ## Never silent -/

/-- Nothing has stopped the session. A handler that sleeps has set the connection aside, and while
connected a message in the queue means that a write is under way. -/
structure Willing (s : WebSocketSession σ) : Prop where
  reconnects : s.shouldReconnect = true
  asleep : s.sleeping = true → s.connected = false
  writing : s.connected = true → s.writeQueue ≠ [] →
    ∃ text, .write s.connection text ∈ s.operations

/-- A session that is connected does not sleep. -/
theorem Willing.awake (h : s.Willing) (hconnected : s.connected = true) : s.sleeping = false := by
  by_contra hasleep
  rw [h.asleep (by simpa using hasleep)] at hconnected
  cases hconnected

/-- A session that may reconnect and is not connected is willing. -/
theorem Willing.of_disconnected (hreconnect : s.shouldReconnect = true)
    (hconnected : s.connected = false) : s.Willing where
  reconnects := hreconnect
  asleep _ := hconnected
  writing hc := by
    rw [hconnected] at hc
    cases hc

/-- Steps that neither connect nor touch the queue, and complete no write. -/
theorem Willing.of_eq (h : s.Willing) (hreconnect : t.shouldReconnect = s.shouldReconnect)
    (hsleeping : t.sleeping = true → s.sleeping = true) (hconnected : t.connected = s.connected)
    (hconnection : t.connection = s.connection) (hqueue : t.writeQueue = s.writeQueue)
    (hwrite : ∀ text, .write s.connection text ∈ s.operations →
      .write s.connection text ∈ t.operations) : t.Willing where
  reconnects := hreconnect.trans h.reconnects
  asleep hasleep := hconnected.trans (h.asleep (hsleeping hasleep))
  writing hc hne := by
    rw [hconnection]
    obtain ⟨text, mem⟩ := h.writing (hconnected ▸ hc) (hqueue ▸ hne)
    exact ⟨text, hwrite text mem⟩

theorem Willing.send (h : s.Willing) (text : Bytes) : (s.send text).Willing where
  reconnects := (send_shouldReconnect s text).trans h.reconnects
  asleep hasleep := by
    rw [send_sleeping] at hasleep
    rw [send_connected]
    exact h.asleep hasleep
  writing hc _ := by
    rw [send_connected] at hc
    by_cases hempty : s.writeQueue = []
    · refine ⟨text, ?_⟩
      rw [send_connection, send_cases, if_pos ⟨hc, hempty⟩]
      exact List.mem_append_right _ (List.mem_singleton_self _)
    · obtain ⟨front, mem⟩ := h.writing hc hempty
      rw [send_connection]
      exact ⟨front, (grows_refl.send text).operations.subset mem⟩

/-- Handlers that only send do not stop the session. -/
theorem Willing.performAll (h : s.Willing) {calls : List Call}
    (hsends : ∀ call ∈ calls, ∃ text, call = .send text) : (s.performAll calls).Willing := by
  apply performAll_induction Willing
  · intro text _ u hu
    exact hu.send text
  · intro isOpen mem
    obtain ⟨text, heq⟩ := hsends _ mem
    cases heq
  · exact h

/-- An operation more does no harm. -/
theorem Willing.launch (h : s.Willing) (operation : Operation) : (s.launch operation).Willing :=
  h.of_eq rfl id rfl rfl rfl fun _ mem => List.mem_append_left _ mem

theorem Willing.start (h : s.Willing) (cfg : WebSocketSessionConfig) : (s.start cfg).Willing := by
  unfold WebSocketSession.start
  split
  · exact h
  · exact h.of_eq rfl id rfl rfl rfl fun _ mem => List.mem_append_left _ mem

/-- The end of an operation that writes nothing does no harm. -/
theorem Willing.finish (h : s.Willing) {operation : Operation} (hno : operation.writeText = none)
    (outcome : Outcome) : (s.finish operation outcome).Willing := by
  refine h.of_eq rfl id rfl rfl rfl fun text mem => (List.mem_erase_of_ne ?_).mpr mem
  rintro rfl
  cases hno

/-- With a message in the queue, `do_write` starts a write. -/
theorem mem_doWrite (hconnected : s.connected = true) (hne : s.writeQueue ≠ []) :
    ∃ text, .write s.connection text ∈ s.doWrite.operations := by
  rcases s.doWrite_cases with ⟨-, hnone | hnone⟩ | ⟨front, rest, -, -, h⟩
  · exact absurd hnone hne
  · rw [hconnected] at hnone
    cases hnone
  · refine ⟨front, ?_⟩
    rw [h]
    exact List.mem_append_right _ (List.mem_singleton_self _)

/-- The handshake that succeeds starts to write what has waited. -/
theorem Willing.opened (h : s.Willing) (hawake : s.sleeping = false) (cfg : WebSocketSessionConfig) :
    (s.opened cfg).Willing where
  reconnects := (opened_shouldReconnect s cfg).trans h.reconnects
  asleep hasleep := by
    rw [opened_sleeping, hawake] at hasleep
    cases hasleep
  writing _ hne := by
    -- the handshake flushes the queue, its greeting included
    rw [opened_writeQueue] at hne
    obtain ⟨text, mem⟩ := mem_doWrite
      (s := { s with connected := true, connection := s.connection + 1 }.greet cfg)
      (greet_connected _ cfg) (by rwa [greet_writeQueue])
    refine ⟨text, ?_⟩
    rw [opened_connection, opened_eq]
    apply List.mem_append_left
    apply List.mem_append_left
    rwa [greet_eq, performAll_connection, ← greet_eq] at mem

/-- A frame whose handler only sends leaves the session willing. -/
theorem Willing.delivered (h : s.Willing) (connection : ℕ) {calls : List Call}
    (hsends : ∀ call ∈ calls, ∃ text, call = .send text) (kept : σ) :
    (s.delivered connection calls kept).Willing := by
  apply delivered_induction _ _ _ _ Willing
  · exact h.of_eq rfl id rfl rfl rfl fun _ => id
  · intro u hu
    exact hu.performAll hsends
  · intro u hu
    apply Willing.launch
    exact hu.of_eq rfl id rfl rfl rfl fun _ => id

/-- After a write the next one is under way, if the queue has more. -/
theorem Willing.wrote (h : s.Willing) {connection : ℕ} {text : Bytes} (outcome : Outcome) :
    ((s.finish (.write connection text) outcome).wrote text).Willing where
  reconnects := (wrote_shouldReconnect _ _).trans h.reconnects
  asleep hasleep := by
    rw [wrote_sleeping] at hasleep
    rw [wrote_connected]
    exact h.asleep hasleep
  writing hc hne := by
    rw [wrote_connected] at hc
    rw [wrote_writeQueue] at hne
    rw [wrote_connection]
    unfold WebSocketSession.wrote
    dsimp only
    split
    · exact mem_doWrite hc hne
    · rename_i hempty
      exact absurd hne hempty

/-- Without a `stop` every step keeps the promise of the queue. -/
theorem Willing.step (h : s.Willing) (hnever : NeverStops handler) (ha : a.NoStop)
    (hstep : step cfg handler s a = some t) : t.Willing := by
  cases transition_of_step hstep with
  | started => exact h.start cfg
  | @called f =>
    apply Willing.performAll _ (ha s.handlerState)
    exact h.of_eq rfl id rfl rfl rfl fun _ => id
  | woken =>
    apply wake_induction Willing
    · exact h.of_eq rfl (fun hasleep => nomatch hasleep) rfl rfl rfl fun _ => id
    · intro u hu
      exact hu.start cfg
  | failed =>
    apply Willing.of_disconnected
    · rw [fail_shouldReconnect]
      exact h.reconnects
    · exact fail_connected _
  | resolved | secured | pinged | armed =>
    apply Willing.launch
    exact h.finish rfl _
  | connected =>
    apply Willing.launch
    exact h.of_eq rfl id rfl rfl rfl fun text mem => (List.mem_erase_of_ne (by simp)).mpr mem
  | opened awake => exact (h.finish rfl _).opened awake cfg
  | delivered _ _ _ handled =>
    apply Willing.delivered (h.finish rfl _)
    intro call mem
    exact hnever _ _ _ call (by rwa [handled])
  | wrote => exact h.wrote _
  | timerDropped | closed => exact h.finish rfl _

/-- While connected the session reads. -/
def Reading (s : WebSocketSession σ) : Prop := s.connected = true → .read s.connection ∈ s.operations

/-- A read that completes is followed by the next one, and so is a handshake. -/
theorem Reading.step (h : s.Reading) (hstep : step cfg handler s a = some t) : t.Reading := by
  intro hconnected
  cases transition_of_step hstep with
  | opened =>
    rw [opened_eq]
    exact List.mem_append_right _ (List.mem_singleton_self _)
  | delivered => exact List.mem_append_right _ (List.mem_singleton_self _)
  | failed =>
    rw [fail_connected] at hconnected
    cases hconnected
  | started =>
    rw [start_connected] at hconnected
    rw [start_connection]
    exact (grows_refl.start cfg).operations.subset (h hconnected)
  | called =>
    have hbefore : s.connected = true := by
      by_contra hnot
      rw [performAll_connected (by simpa using hnot)] at hconnected
      cases hconnected
    rw [performAll_connection]
    exact mem_of_step hstep (h hbefore) (by simp)
  | woken =>
    revert hconnected
    apply wake_induction Reading
    · exact h
    · intro u hu hc
      rw [start_connected] at hc
      rw [start_connection]
      exact (grows_refl.start cfg).operations.subset (hu hc)
  | wrote =>
    rw [wrote_connected] at hconnected
    rw [wrote_connection]
    exact mem_of_step hstep (h hconnected) (by simp)
  | resolved | connected | secured | pinged | timerDropped | armed | closed =>
    exact mem_of_step hstep (h hconnected) (by simp)

/-- The session is connected, or a chain is under way, or a handler sleeps that will start one. -/
def Busy (s : WebSocketSession σ) : Prop :=
  s.connected = true ∨ 0 < s.chains ∨ s.sleeping = true

/-- `start` begins a chain, or the session is connected already. -/
theorem busy_start (s : WebSocketSession σ) (cfg : WebSocketSessionConfig) : (s.start cfg).Busy := by
  cases hconnected : s.connected with
  | true => exact Or.inl (by rw [start_connected, hconnected])
  | false =>
    right; left
    rw [start_chains, hconnected]
    exact Nat.succ_pos _

/-- Calls of `send` leave the connection as it is. -/
theorem performAll_connected_eq (calls : List Call) (hsends : ∀ call ∈ calls, ∃ text, call = .send text)
    (s : WebSocketSession σ) : (s.performAll calls).connected = s.connected := by
  apply performAll_induction (fun u => u.connected = s.connected)
  · intro text _ u hu
    rw [send_connected, hu]
  · intro isOpen mem
    obtain ⟨text, heq⟩ := hsends _ mem
    cases heq
  · rfl

/-- A step that completes no stage of a chain and does not disconnect. -/
theorem Busy.of_eq (h : s.Busy) (hconnected : t.connected = s.connected) (hchains : t.chains = s.chains)
    (hsleeping : t.sleeping = s.sleeping) : t.Busy := by
  rw [Busy, hconnected, hchains, hsleeping]
  exact h

/-- A failure makes the session sleep, and the end of the sleep starts a chain. -/
theorem Busy.step (h : s.Busy) (hreconnect : s.shouldReconnect = true) (hnever : NeverStops handler)
    (ha : a.NoStop) (hstep : step cfg handler s a = some t) : t.Busy := by
  -- the completion of an operation that is no stage
  have hfinish : ∀ {operation : Operation} (outcome : Outcome), operation ∈ s.operations →
      operation.isChain = false → (s.finish operation outcome).chains = s.chains := by
    intro operation outcome mem hchain
    have hc := chains_finish mem outcome
    simpa [hchain] using hc
  cases transition_of_step hstep with
  | started => exact busy_start s cfg
  | @called f =>
    apply h.of_eq
    · rw [performAll_connected_eq _ (ha s.handlerState)]
    · exact performAll_chains _ _
    · exact performAll_sleeping _ _
  | woken =>
    rw [wake_of_reconnecting hreconnect]
    exact busy_start _ cfg
  | failed =>
    right; right
    rw [fail_eq, finish_shouldReconnect, hreconnect]
    exact Bool.or_true _
  | resolved | connected | secured =>
    right; left
    rw [chains_launch]
    exact Nat.succ_pos _
  | opened => exact Or.inl (opened_connected _ cfg)
  | @delivered connection outcome calls kept _ mem _ handled =>
    apply h.of_eq
    · refine performAll_connected_eq calls ?_ _
      intro call hcall
      exact hnever _ _ _ call (by rwa [handled])
    · rw [delivered_chains]
      exact hfinish _ mem rfl
    · rw [delivered_sleeping]
      rfl
  | wrote _ mem =>
    apply h.of_eq
    · rw [wrote_connected]
      rfl
    · rw [wrote_chains]
      exact hfinish _ mem rfl
    · rw [wrote_sleeping]
      rfl
  | pinged _ mem | armed _ mem =>
    refine h.of_eq rfl ?_ rfl
    rw [chains_launch]
    exact hfinish _ mem rfl
  | timerDropped _ mem | closed _ mem => exact h.of_eq rfl (hfinish _ mem rfl) rfl

/-- What holds once `start` has been called, if nothing calls `stop`. -/
structure Lively (s : WebSocketSession σ) : Prop where
  willing : s.Willing
  reading : s.Reading
  busy : s.Busy

/-- Every step that does not stop the session keeps it lively. -/
theorem Lively.step (h : s.Lively) (hnever : NeverStops handler) (ha : a.NoStop)
    (hstep : WebSocketSession.step cfg handler s a = some t) : t.Lively where
  willing := h.willing.step hnever ha hstep
  reading := h.reading.step hstep
  busy := h.busy.step h.willing.reconnects hnever ha hstep

/-- Before the first `start` nothing is promised but what the members say. -/
theorem willing_of_run {as : List (Action σ)} (hnever : NeverStops handler) (has : ∀ b ∈ as, b.NoStop)
    (h : Run cfg handler kept as s) : s.Willing ∧ s.Reading := by
  refine Runs.invariant_of_stepsMeet (G := fun _ b => b.NoStop) (fun u => u.Willing ∧ u.Reading)
    ?_ ?_ ?_ h
  · exact ⟨.of_disconnected rfl rfl, fun hc => nomatch hc⟩
  · rintro u b v ⟨hwilling, hreading⟩ hb hstep
    exact ⟨hwilling.step hnever hb hstep, hreading.step hstep⟩
  · rintro pre b v hpre -
    exact has b (hpre.subset (List.mem_append_right _ (List.mem_singleton_self b)))

/-- After a start, and without a stop, the session is lively. -/
theorem lively_of_run {as : List (Action σ)} (hnever : NeverStops handler) (has : ∀ b ∈ as, b.NoStop)
    (hstart : .start ∈ as) (h : Run cfg handler kept as s) : s.Lively := by
  obtain ⟨pre, post, rfl⟩ := List.append_of_mem hstart
  obtain ⟨u, hu, hrest⟩ := Runs.run_append.mp h
  obtain ⟨v, hv, hrest⟩ := Runs.run_cons.mp hrest
  have hwilling := willing_of_run hnever (fun b hb => has b (List.mem_append_left _ hb)) hu
  refine Runs.invariant_of_stepsMeet (G := fun _ b => b.NoStop) Lively ?_ ?_ ?_ hrest
  · -- the first `start`
    have hreading := hwilling.2.step hv
    cases hv
    exact ⟨hwilling.1.start cfg, hreading, busy_start u cfg⟩
  · intro w b x hw hb hstep
    exact hw.step hnever hb hstep
  · rintro p b w hp -
    refine has b (List.mem_append_right _ (List.mem_cons_of_mem _ ?_))
    exact hp.subset (List.mem_append_right _ (List.mem_singleton_self b))

/-- In every run with a `start` and without a `stop`, at every moment: the session is connected with a
read outstanding on its connection, and a write too if there is a message in the queue; or it is not, and
a chain is under way or `reconnect` sleeps. -/
theorem never_silent {as : List (Action σ)} (hnever : NeverStops handler) (has : ∀ b ∈ as, b.NoStop)
    (hstart : .start ∈ as) (h : Run cfg handler kept as s) :
    s.shouldReconnect = true ∧
      (s.connected = true ∧ s.sleeping = false ∧ .read s.connection ∈ s.operations ∧
          (s.writeQueue ≠ [] → ∃ text, .write s.connection text ∈ s.operations) ∨
        s.connected = false ∧ (0 < s.chains ∨ s.sleeping = true)) := by
  obtain ⟨hwilling, hreading, hbusy⟩ := lively_of_run hnever has hstart h
  refine ⟨hwilling.reconnects, ?_⟩
  cases hconnected : s.connected with
  | true =>
    left
    exact ⟨rfl, hwilling.awake hconnected, hreading hconnected, hwilling.writing hconnected⟩
  | false =>
    right
    refine ⟨rfl, hbusy.resolve_left ?_⟩
    rw [hconnected]
    simp

end WebSocketSession

end MacdTradingBot
