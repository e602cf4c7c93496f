import MacdTradingBot.WebSocket.Reconnecting

/-!
# The write queue

Writes are started in three places, each with its own guard. `InFlight` is what links the queue to the
write under way. The handshake breaks it when it sends `auth_msg` or `sub_msg` over an empty queue, which
starts a write, and then flushes the queue, which starts the same write again (`singleWrite_iff`). With
both messages empty the queue is a FIFO that loses and repeats nothing on one connection (`fifo`).
-/

namespace MacdTradingBot

namespace WebSocketSession

variable {σ : Type}

/-- The pops after successful writes, each with the text that was written. -/
def pops (s : WebSocketSession σ) : List (Bytes × Option Bytes) :=
  s.log.filterMap fun
    | .popped text front => some (text, front)
    | _ => none

/-- At most one write is outstanding, and every pop so far has taken the message whose write completed
from a queue that was not empty. -/
def SingleWrite (s : WebSocketSession σ) : Prop :=
  s.writes.length ≤ 1 ∧ ∀ p ∈ s.pops, p.2 = some p.1

/-- The queue and the write under way. -/
structure InFlight (s : WebSocketSession σ) : Prop where
  front : s.writes = [] ∨ ∃ text rest, s.writeQueue = text :: rest ∧ s.writes = [text]
  writing : s.connected = true → s.writeQueue ≠ [] → s.writes ≠ []
  popped : ∀ p ∈ s.pops, p.2 = some p.1
  fresh : s.connection = 0 → s.connected = false ∧ s.writes = []

variable {cfg : WebSocketSessionConfig} {handler : FrameHandler σ} {s t : WebSocketSession σ}
  {a : Action σ} {kept : σ}

/-- The invariant allows a single write. -/
theorem InFlight.singleWrite (h : s.InFlight) : s.SingleWrite := by
  refine ⟨?_, h.popped⟩
  rcases h.front with hnone | ⟨text, rest, -, hone⟩
  · simp [hnone]
  · simp [hone]

/-- Without a write under way, a connected session has nothing to write. -/
theorem InFlight.idle (h : s.InFlight) (hconnected : s.connected = true) (hnone : s.writes = []) :
    s.writeQueue = [] := by
  by_contra hne
  exact h.writing hconnected hne hnone

/-- With an empty queue nothing is being written. -/
theorem InFlight.writes_of_queue (h : s.InFlight) (hqueue : s.writeQueue = []) : s.writes = [] := by
  rcases h.front with hnone | ⟨text, rest, hcons, -⟩
  · exact hnone
  · rw [hqueue] at hcons
    cases hcons

/-- Steps that leave the queue, the writes and the pops alone and do not connect. -/
theorem InFlight.of_eq (h : s.InFlight) (hqueue : t.writeQueue = s.writeQueue)
    (hwrites : t.writes = s.writes) (hpops : t.pops = s.pops) (hconnection : t.connection = s.connection)
    (hconnected : t.connected = true → s.connected = true) : t.InFlight where
  front := by
    rw [hqueue, hwrites]
    exact h.front
  writing hc := by
    rw [hqueue, hwrites]
    exact h.writing (hconnected hc)
  popped := by
    rw [hpops]
    exact h.popped
  fresh hzero := by
    rw [hconnection] at hzero
    obtain ⟨hdisconnected, hnone⟩ := h.fresh hzero
    refine ⟨?_, hwrites.trans hnone⟩
    by_contra hc
    rw [hconnected (by simpa using hc)] at hdisconnected
    cases hdisconnected

theorem send_pops (s : WebSocketSession σ) (text : Bytes) : (s.send text).pops = s.pops := by
  rw [pops, send_log, pops]
  split <;> simp [List.filterMap_append]

theorem doWrite_pops (s : WebSocketSession σ) : s.doWrite.pops = s.pops := by
  rw [pops, doWrite_log, pops]
  split
  · cases s.writeQueue <;> simp [List.filterMap_append]
  · simp

/-- The first message of a queue is written at once, if the session is connected. -/
theorem InFlight.send (h : s.InFlight) (text : Bytes) : (s.send text).InFlight := by
  refine ⟨?_, fun hconnected _ => ?_, ?_, fun hzero => ?_⟩
  · rw [send_writeQueue, send_writes]
    split
    · rename_i hempty
      rw [h.writes_of_queue hempty.2, hempty.2]
      exact Or.inr ⟨text, [], rfl, rfl⟩
    · rw [List.append_nil]
      refine h.front.imp_right ?_
      rintro ⟨front, rest, hqueue, hone⟩
      exact ⟨front, rest ++ [text], by rw [hqueue]; rfl, hone⟩
  · rw [send_connected] at hconnected
    rw [send_writes]
    by_cases hqueue : s.writeQueue = []
    · simp [hconnected, hqueue]
    · simp [hqueue, h.writing hconnected hqueue]
  · rw [send_pops]
    exact h.popped
  · rw [send_connection] at hzero
    obtain ⟨hdisconnected, hnone⟩ := h.fresh hzero
    rw [send_connected, send_writes, hdisconnected]
    simpa using hnone

theorem InFlight.stop (h : s.InFlight) (isOpen : Bool) : (s.stop isOpen).InFlight := by
  apply h.of_eq
  · exact stop_writeQueue s isOpen
  · exact stop_writes s isOpen
  · rw [pops, stop_log, pops]
  · exact stop_connection s isOpen
  · rw [stop_connected]
    exact fun hc => nomatch hc

/-- The calls of a handler are made one after another. -/
theorem InFlight.performAll (h : s.InFlight) (calls : List Call) : (s.performAll calls).InFlight := by
  apply performAll_induction InFlight
  · intro text _ u hu
    exact hu.send text
  · intro isOpen _ u hu
    exact hu.stop isOpen
  · exact h

/-- The writes that are outstanding stay so. -/
theorem InFlight.fail (h : s.InFlight) : s.fail.InFlight :=
  h.of_eq (fail_writeQueue s) (fail_writes s) (by rw [pops, fail_log, pops]) (fail_connection s)
    (by rw [fail_connected]; exact fun hc => nomatch hc)

/-- An operation that writes nothing leaves the writes alone. -/
theorem InFlight.launch (h : s.InFlight) {operation : Operation} (hno : operation.writeText = none) :
    (s.launch operation).InFlight := by
  refine h.of_eq rfl ?_ rfl rfl id
  rw [writes_launch, hno]
  simp

/-- The operation of the front is the only write. -/
theorem InFlight.of_write (h : s.InFlight) {connection : ℕ} {text : Bytes}
    (mem : .write connection text ∈ s.operations) (outcome : Outcome) :
    (∃ rest, s.writeQueue = text :: rest) ∧ (s.finish (.write connection text) outcome).writes = [] := by
  have hperm := writes_finish mem outcome
  simp only [Operation.writeText, Option.toList_some, List.singleton_append] at hperm
  rcases h.front with hnone | ⟨front, rest, hqueue, hone⟩
  · rw [hnone] at hperm
    exact absurd hperm.symm.eq_nil (by simp)
  · rw [hone] at hperm
    have heq := List.perm_singleton.mp hperm.symm
    rw [List.cons.injEq] at heq
    exact ⟨⟨rest, by rw [hqueue, heq.1]⟩, heq.2⟩

/-- The end of an operation that writes nothing leaves the writes alone. -/
theorem InFlight.finish (h : s.InFlight) {operation : Operation} (hno : operation.writeText = none)
    (outcome : Outcome) : (s.finish operation outcome).InFlight :=
  h.of_eq rfl (writes_finish_of_none hno outcome) rfl rfl id

theorem InFlight.start (h : s.InFlight) (cfg : WebSocketSessionConfig) : (s.start cfg).InFlight := by
  refine h.of_eq (start_writeQueue s cfg) (start_writes s cfg) ?_ (start_connection s cfg) ?_
  · unfold WebSocketSession.start
    split
    · rfl
    · simp [resolve, pops, List.filterMap_append]
  · rw [start_connected]
    exact id

theorem InFlight.wake (h : s.InFlight) (cfg : WebSocketSessionConfig) : (s.wake cfg).InFlight := by
  apply wake_induction InFlight
  · exact h.of_eq rfl rfl rfl rfl id
  · intro u hu
    exact hu.start cfg

/-- After a successful write the next message is at the front, and its write starts. -/
theorem InFlight.wrote (h : s.InFlight) {connection : ℕ} {text : Bytes}
    (mem : .write connection text ∈ s.operations) (outcome : Outcome) :
    ((s.finish (.write connection text) outcome).wrote text).InFlight := by
  obtain ⟨⟨rest, hqueue⟩, hnone⟩ := h.of_write mem outcome
  have hwrites : ((s.finish (.write connection text) outcome).wrote text).writes
      = if s.connected then rest.head?.toList else [] := by
    rw [wrote_writes, hnone, finish_writeQueue, hqueue, finish_connected]
    rfl
  refine ⟨?_, fun hconnected hne => ?_, ?_, fun hzero => ?_⟩
  · rw [hwrites, wrote_writeQueue, finish_writeQueue, hqueue, List.tail_cons]
    cases s.connected with
    | false => exact Or.inl rfl
    | true =>
      cases rest with
      | nil => exact Or.inl rfl
      | cons next rest => exact Or.inr ⟨next, rest, rfl, rfl⟩
  · rw [wrote_connected, finish_connected] at hconnected
    rw [wrote_writeQueue, finish_writeQueue, hqueue, List.tail_cons] at hne
    rw [hwrites, hconnected]
    obtain ⟨next, rest, rfl⟩ := List.exists_cons_of_ne_nil hne
    simp
  · have hpops : ((s.finish (.write connection text) outcome).wrote text).pops
        = s.pops ++ [(text, some text)] := by
      rw [pops, wrote_log, finish_log, finish_writeQueue, hqueue, pops, List.filterMap_append]
      split
      · cases rest <;> rfl
      · rfl
    rw [hpops]
    intro p hp
    rcases List.mem_append.mp hp with hp | hp
    · exact h.popped p hp
    · rw [List.mem_singleton] at hp
      rw [hp]
  · -- a write is outstanding only on a connection
    rw [wrote_connection, finish_connection] at hzero
    have hmem : text ∈ s.writes := List.mem_filterMap.mpr ⟨_, mem, rfl⟩
    rw [(h.fresh hzero).2] at hmem
    cases hmem

theorem greet_pops (s : WebSocketSession σ) (cfg : WebSocketSessionConfig) :
    (s.greet cfg).pops = s.pops := by
  rw [greet_eq]
  apply performAll_eq pops
  · intro text u
    exact send_pops u text
  · intro isOpen u
    rw [pops, stop_log, pops]

theorem opened_pops (s : WebSocketSession σ) (cfg : WebSocketSessionConfig) :
    (s.opened cfg).pops = s.pops := by
  rw [opened_eq]
  exact (doWrite_pops _).trans (greet_pops _ cfg)

/-- The handshake over a queue that is not empty, or without a greeting, starts at most one write. -/
theorem InFlight.opened (h : s.InFlight) (hnone : s.writes = [])
    (hgreeting : s.writeQueue = [] → greeting cfg = []) : (s.opened cfg).InFlight := by
  have hwrites : (s.opened cfg).writes = (s.opened cfg).writeQueue.head?.toList := by
    rw [opened_writes, opened_writeQueue, hnone]
    by_cases hqueue : s.writeQueue = []
    · simp [hqueue, hgreeting hqueue]
    · simp [hqueue]
  refine ⟨?_, fun _ hne => ?_, ?_, fun hzero => ?_⟩
  · rw [hwrites]
    cases (s.opened cfg).writeQueue with
    | nil => exact Or.inl rfl
    | cons text rest => exact Or.inr ⟨text, rest, rfl, rfl⟩
  · obtain ⟨text, rest, hqueue⟩ := List.exists_cons_of_ne_nil hne
    rw [hwrites, hqueue]
    simp
  · rw [opened_pops]
    exact h.popped
  · rw [opened_connection] at hzero
    omega

/-- A frame reads on and makes the calls of its handler. -/
theorem InFlight.delivered (h : s.InFlight) (connection : ℕ) (calls : List Call) (kept : σ) :
    (s.delivered connection calls kept).InFlight := by
  apply delivered_induction _ _ _ _ InFlight
  · refine h.of_eq rfl rfl ?_ rfl id
    simp [pops, List.filterMap_append]
  · intro u hu
    exact hu.performAll calls
  · intro u hu
    apply InFlight.launch _ rfl
    exact hu.of_eq rfl rfl rfl rfl id

/-- The step starts a second write: a handshake succeeds while a write is under way, or it sends a
greeting over an empty queue. -/
def WritesTwice (cfg : WebSocketSessionConfig) (s : WebSocketSession σ) (a : Action σ) : Prop :=
  a.Opens ∧ (s.writes ≠ [] ∨ s.writeQueue = [] ∧ greeting cfg ≠ [])

/-- Every other step keeps the link between the queue and the write under way. -/
theorem InFlight.step (h : s.InFlight) (hgood : ¬ s.WritesTwice cfg a)
    (hstep : WebSocketSession.step cfg handler s a = some t) : t.InFlight := by
  cases transition_of_step hstep with
  | started => exact h.start cfg
  | called =>
    apply InFlight.performAll
    exact h.of_eq rfl rfl rfl rfl id
  | woken => exact h.wake cfg
  | @failed operation outcome _ mem =>
    by_cases hwrite : ∃ connection text, operation = .write connection text
    · -- a write that fails is gone, its message stays at the front
      obtain ⟨connection, text, rfl⟩ := hwrite
      obtain ⟨-, hnone⟩ := h.of_write mem outcome
      refine ⟨Or.inl ?_, fun hconnected => ?_, ?_, fun hzero => ⟨fail_connected _, ?_⟩⟩
      · rw [fail_writes, hnone]
      · rw [fail_connected] at hconnected
        cases hconnected
      · rw [pops, fail_log, finish_log]
        exact h.popped
      · rw [fail_writes, hnone]
    · have hno : operation.writeText = none := by
        cases operation with
        | write connection text => exact absurd ⟨connection, text, rfl⟩ hwrite
        | _ => rfl
      exact (h.finish hno outcome).fail
  | @opened hostPort endpoint outcome _ mem ok =>
    have hno : (Operation.handshake hostPort endpoint).writeText = none := rfl
    have hnone : s.writes = [] := by
      by_contra hne
      exact hgood ⟨ok, Or.inl hne⟩
    apply (h.finish hno outcome).opened
    · exact (writes_finish_of_none hno outcome).trans hnone
    · intro hqueue
      by_contra hne
      exact hgood ⟨ok, Or.inr ⟨hqueue, hne⟩⟩
  | delivered => exact (h.finish rfl _).delivered _ _ _
  | wrote _ mem => exact h.wrote mem _
  | timerDropped | closed => exact h.finish rfl _
  | resolved | secured | pinged | armed => exact (h.finish rfl _).launch rfl
  | @connected outcome =>
    have hno : Operation.connect.writeText = none := rfl
    apply InFlight.launch _ rfl
    exact (h.finish hno outcome).of_eq rfl rfl rfl rfl id

/-- A handshake that succeeds while a write is under way, or sends its greeting, starts a second one. -/
theorem not_singleWrite_of_writesTwice (h : s.InFlight) (hbad : s.WritesTwice cfg a)
    (hstep : WebSocketSession.step cfg handler s a = some t) : ¬ t.SingleWrite := by
  rintro ⟨hlength, -⟩
  obtain ⟨hostPort, endpoint, outcome, mem, rfl⟩ := opened_of_step hstep hbad.1
  have hno : (Operation.handshake hostPort endpoint).writeText = none := rfl
  rw [opened_writes, writes_finish_of_none hno outcome, finish_writeQueue] at hlength
  rcases hbad.2 with hne | ⟨hqueue, hgreeting⟩
  · obtain ⟨text, rest, hqueue, hone⟩ := h.front.resolve_left hne
    simp [hqueue, hone] at hlength
  · obtain ⟨text, rest, hcons⟩ := List.exists_cons_of_ne_nil hgreeting
    simp [hqueue, hcons] at hlength

/-- A new session writes nothing. -/
theorem inFlight_init : ({ handlerState := kept } : WebSocketSession σ).InFlight :=
  ⟨Or.inl rfl, fun hconnected => (nomatch hconnected), by simp [pops], fun _ => ⟨rfl, rfl⟩⟩

/-- Over every run, with any number of connections: at most one write is ever outstanding and every pop
takes the message that was written, if and only if no handshake succeeds while a write is under way or
sends its greeting over an empty queue. -/
theorem singleWrite_iff {as : List (Action σ)} (h : Run cfg handler kept as s) :
    Runs.Along (step cfg handler) SingleWrite { handlerState := kept } as
      ↔ Runs.StepsMeet (step cfg handler) (fun u a => ¬ u.WritesTwice cfg a)
        { handlerState := kept } as := by
  refine Runs.along_iff_stepsMeet InFlight inFlight_init (fun u hu => hu.singleWrite) ?_ ?_ h
  · intro u a v hu hgood hstep
    exact hu.step hgood hstep
  · intro u a v hu hbad hstep
    exact not_singleWrite_of_writesTwice hu (not_not.mp hbad) hstep

/-! ## One connection -/

/-- A handshake succeeds over an empty queue, and `auth_msg` or `sub_msg` is not empty. -/
def GreetsEmptyQueue (cfg : WebSocketSessionConfig) (s : WebSocketSession σ) (a : Action σ) : Prop :=
  a.Opens ∧ s.writeQueue = [] ∧ (cfg.authMsg ≠ [] ∨ cfg.subMsg ≠ [])

/-- The greeting is empty when both of its messages are. -/
theorem greeting_ne_nil : greeting cfg ≠ [] ↔ cfg.authMsg ≠ [] ∨ cfg.subMsg ≠ [] := by
  by_cases hauth : cfg.authMsg = [] <;> by_cases hsub : cfg.subMsg = [] <;>
    simp [greeting, hauth, hsub]

/-- Connections are only added, one with each handshake that succeeds. -/
theorem connection_le_of_step (hstep : step cfg handler s a = some t) : s.connection ≤ t.connection := by
  cases transition_of_step hstep with
  | woken =>
    apply wake_induction (fun u => s.connection ≤ u.connection)
    · exact le_rfl
    · intro u hu
      rwa [start_connection]
  | opened | failed | delivered | called | started | wrote => simp
  | resolved | connected | secured | pinged | timerDropped | armed | closed => exact le_rfl

/-- A handshake that succeeds opens the next connection. -/
theorem connection_of_opens (hstep : step cfg handler s a = some t) (ha : a.Opens) :
    t.connection = s.connection + 1 := by
  obtain ⟨hostPort, endpoint, outcome, -, rfl⟩ := opened_of_step hstep ha
  simp

/-- No other step changes the number of connections. -/
theorem connection_of_not_opens (hstep : step cfg handler s a = some t) (ha : ¬ a.Opens) :
    t.connection = s.connection := by
  cases transition_of_step hstep with
  | woken =>
    apply wake_induction (fun u => u.connection = s.connection)
    · rfl
    · intro u hu
      rwa [start_connection]
  | opened _ _ ok => exact absurd ok ha
  | failed | delivered | called | started | wrote => simp
  | resolved | connected | secured | pinged | timerDropped | armed | closed => rfl

/-- Connections are counted up. -/
theorem connection_le_of_run {as : List (Action σ)} (h : Runs.run (step cfg handler) s as = some t) :
    s.connection ≤ t.connection := by
  refine Runs.invariant_of_stepsMeet (G := fun _ _ => True) (fun u => s.connection ≤ u.connection) le_rfl
    ?_ (fun _ _ _ _ _ => trivial) h
  intro u a v hu _ hstep
  exact hu.trans (connection_le_of_step hstep)

/-- On one connection, for every `auth_msg` and `sub_msg`: at most one write is ever outstanding and
every pop takes the message that was written, if and only if the handshake does not succeed over an
empty queue with one of the two messages to send. -/
theorem singleWrite_on_connection_iff {as : List (Action σ)} (h : Run cfg handler kept as s)
    (hone : s.connection ≤ 1) : Runs.Along (step cfg handler) SingleWrite { handlerState := kept } as
      ↔ Runs.StepsMeet (step cfg handler) (fun u a => ¬ u.GreetsEmptyQueue cfg a)
        { handlerState := kept } as := by
  have hle : ∀ pre u, pre <+: as → Run cfg handler kept pre u → u.connection ≤ 1 := by
    rintro pre u ⟨rest, rfl⟩ hu
    obtain ⟨u', hu', hrest⟩ := Runs.run_append.mp h
    obtain rfl : u = u' := Runs.run_unique hu hu'
    exact (connection_le_of_run hrest).trans hone
  have hiff := Runs.along_iff_stepsMeet (P := fun u => u.connection ≤ 1 → u.SingleWrite)
    (G := fun u a => ¬ (u.connection = 0 ∧ u.GreetsEmptyQueue cfg a))
    (fun u => u.connection ≤ 1 → u.InFlight) (fun _ => inFlight_init)
    (fun u hu hconnection => (hu hconnection).singleWrite) ?_ ?_ h
  · constructor
    · intro hall pre a u hpre hu hbad
      refine hiff.mp (fun pre u hpre hu _ => hall pre u hpre hu) pre a u hpre hu ⟨?_, hbad⟩
      -- the handshake makes the one connection
      obtain ⟨rest, rfl⟩ := hpre
      obtain ⟨v, hv, -⟩ := Runs.run_append.mp h
      obtain ⟨u', hu', hstep⟩ := Runs.run_concat.mp hv
      obtain rfl : u = u' := Runs.run_unique hu hu'
      have hv1 := hle _ v (List.prefix_append _ rest) hv
      have hadded := connection_of_opens hstep hbad.1
      omega
    · intro hgood pre u hpre hu
      refine hiff.mpr (fun pre a u hpre hu hbad => hgood pre a u hpre hu hbad.2) pre u hpre hu ?_
      exact hle pre u hpre hu
  · intro u a v hu hgood hstep hv
    refine (hu ((connection_le_of_step hstep).trans hv)).step (fun hbad => ?_) hstep
    have hadded := connection_of_opens hstep hbad.1
    have hzero : u.connection = 0 := by omega
    have hnone := ((hu (by omega)).fresh hzero).2
    obtain ⟨hqueue, hgreeting⟩ := hbad.2.resolve_left (not_not.mpr hnone)
    exact hgood ⟨hzero, hbad.1, hqueue, greeting_ne_nil.mp hgreeting⟩
  · intro u a v hu hbad hstep hv
    obtain ⟨hzero, hopens, hqueue, hgreeting⟩ := not_not.mp hbad
    have hadded := connection_of_opens hstep hopens
    refine not_singleWrite_of_writesTwice (hu (by omega)) ?_ hstep (hv (by omega))
    exact ⟨hopens, Or.inr ⟨hqueue, greeting_ne_nil.mpr hgreeting⟩⟩

def greetingConfig : WebSocketSessionConfig := { exampleConfig with authMsg := [97] }

/-- The handshake sends `auth_msg` over an empty queue, and both writes of it complete. -/
def greetTwice : List (Action Unit) :=
  .start :: chain ++ [.complete (.write 1 [97]) {}, .complete (.write 1 [97]) {}]

theorem greeting_written_twice : ∃ t, Run greetingConfig ignoreFrames () greetTwice t ∧
    t.connection = 1 ∧ t.pops = [([97], some [97]), ([97], none)] ∧
      ¬ Runs.Along (step greetingConfig ignoreFrames) SingleWrite { handlerState := () } greetTwice := by
  have hrun : (Runs.run (step greetingConfig ignoreFrames) { handlerState := () } greetTwice).map
      (fun t => (t.connection, t.pops)) = some (1, [([97], some [97]), ([97], none)]) := by
    decide +kernel
  obtain ⟨t, ht, hobserved⟩ := Option.map_eq_some_iff.mp hrun
  rw [Prod.mk.injEq] at hobserved
  obtain ⟨hconnection, hpops⟩ := hobserved
  refine ⟨t, ht, hconnection, hpops, fun halong => ?_⟩
  have hpop := (halong greetTwice t List.prefix_rfl ht).2 ([97], none) (by simp [hpops])
  cases hpop

/-- A message sent before the handshake comes before the greeting. -/
def sendBeforeHandshake : List (Action Unit) :=
  [.start, .send [104]] ++ chain ++ [.complete (.write 1 [104]) {}, .send [105],
    .complete (.write 1 [97]) {}, .complete (.write 1 [105]) {}]

/-- A handshake finds a message in the queue. -/
def greetsQueued (s : WebSocketSession Unit) : Action Unit → Bool
  | .complete (.handshake _ _) _ => s.writeQueue ≠ []
  | _ => true

theorem singleWrite_sendBeforeHandshake : Runs.Along (step greetingConfig ignoreFrames) SingleWrite
    { handlerState := () } sendBeforeHandshake := by
  have hrun : (Runs.run (step greetingConfig ignoreFrames) { handlerState := () }
      sendBeforeHandshake).map connection = some 1 := by decide +kernel
  obtain ⟨t, ht, hone⟩ := Option.map_eq_some_iff.mp hrun
  refine (singleWrite_on_connection_iff ht hone.le).mpr
    (Runs.StepsMeet.of_checkSteps (g := greetsQueued) ?_ ?_)
  · rintro u a hcheck ⟨hopens, hqueue, -⟩
    cases a with
    | complete operation outcome =>
      cases operation with
      | handshake hostPort endpoint => exact of_decide_eq_true hcheck hqueue
      | _ => exact hopens
    | _ => exact hopens
  · decide +kernel

end WebSocketSession

end MacdTradingBot
