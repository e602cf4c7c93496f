import MacdTradingBot.Lib.Endless
import MacdTradingBot.WebSocket.Queue
import MacdTradingBot.WebSocket.Recovery

/-!
# Connected in the end

The session over endless runs. After the last failure it is connected for good, on one connection, if the
environment ends every sleep and answers every stage of a chain (`connected_for_good`). If it answers every
write too, every message leaves the queue (`every_message_leaves`).
-/

namespace MacdTradingBot

namespace WebSocketSession

variable {σ : Type}

/-- The action ends in `fail`. -/
def Action.Fails : Action σ → Prop
  | .complete operation outcome =>
    operation ≠ .heartbeat ∧ (outcome.ec = true ∨ operation = .connect ∧ outcome.hostName = false)
  | .start | .call _ | .wake => False

/-- The operation completes, with success or not. -/
def Action.Answers (operation : Operation) (a : Action σ) : Prop :=
  ∃ outcome, a = .complete operation outcome

variable {cfg : WebSocketSessionConfig} {handler : FrameHandler σ} {s t : WebSocketSession σ}
  {a : Action σ} {kept : σ}

/-- What a user of the session may hope for: every sleep ends, and every operation that the predicate
selects is answered, unless handlers sleep again and again. -/
structure Responsive (selected : Operation → Bool) (r : Runs.Endless (step cfg handler)) : Prop where
  wakes : r.Fair (fun s => s.sleeping = true) fun a => a = .wake
  answers : ∀ operation, selected operation = true →
    r.Fair (fun s => s.sleeping = false ∧ operation ∈ s.operations) (Action.Answers operation)

/-! ## One step without a failure -/

/-- Without a failure a session that is awake stays awake. -/
theorem awake_of_step (hok : ¬ a.Fails) (hstep : step cfg handler s a = some t)
    (hawake : s.sleeping = false) : t.sleeping = false := by
  cases transition_of_step hstep with
  | started => rw [start_sleeping, hawake]
  | called =>
    rw [performAll_sleeping]
    exact hawake
  | woken sleeping =>
    rw [hawake] at sleeping
    cases sleeping
  | failed _ _ error noTimer => exact absurd ⟨noTimer, error⟩ hok
  | opened =>
    rw [opened_sleeping]
    exact hawake
  | delivered =>
    rw [delivered_sleeping]
    exact hawake
  | wrote =>
    rw [wrote_sleeping]
    exact hawake
  | resolved | connected | secured | pinged | timerDropped | armed | closed => exact hawake

/-- After waking up the session does not sleep. -/
theorem awake_of_wake (hstep : step cfg handler s .wake = some t) : t.sleeping = false := by
  cases transition_of_step hstep with
  | woken =>
    apply wake_induction (fun u => u.sleeping = false)
    · rfl
    · intro u hu
      rw [start_sleeping, hu]

/-- Without a failure and without a `stop` a connected session stays connected. -/
theorem connected_of_step (hnever : NeverStops handler) (ha : a.NoStop) (hok : ¬ a.Fails)
    (hstep : step cfg handler s a = some t) (hconnected : s.connected = true) : t.connected = true := by
  cases transition_of_step hstep with
  | started => rw [start_connected, hconnected]
  | @called f =>
    rw [performAll_connected_eq _ (ha s.handlerState)]
    exact hconnected
  | woken =>
    apply wake_induction (fun u => u.connected = true)
    · exact hconnected
    · intro u hu
      rw [start_connected, hu]
  | failed _ _ error noTimer => exact absurd ⟨noTimer, error⟩ hok
  | opened => exact opened_connected _ cfg
  | @delivered connection outcome calls kept _ _ _ handled =>
    refine (performAll_connected_eq calls ?_ _).trans hconnected
    intro call hcall
    exact hnever _ _ _ call (by rwa [handled])
  | wrote =>
    rw [wrote_connected]
    exact hconnected
  | resolved | connected | secured | pinged | timerDropped | armed | closed => exact hconnected

/-- The connections that have been opened, and what may still open one without another `start`. -/
def pending (s : WebSocketSession σ) : ℕ := s.connection + s.chains + s.sleeping.toNat

/-- The connection that is to come is no earlier one. -/
theorem connection_le_pending (s : WebSocketSession σ) : s.connection ≤ s.pending :=
  (Nat.le_add_right _ _).trans (Nat.le_add_right _ _)

/-- Where only stages fail, a chain goes on, opens its connection, or starts again after a sleep. -/
theorem pending_of_step (hstart : a = .start → s.connected = true)
    (hfails : a.Fails → ∃ operation : Operation, operation.isChain = true ∧ a.Answers operation)
    (hstep : step cfg handler s a = some t) : t.pending ≤ s.pending := by
  unfold pending
  cases transition_of_step hstep with
  | started =>
    rw [start_connection, start_chains, start_sleeping, hstart rfl]
    exact le_rfl
  | called =>
    rw [performAll_connection, performAll_chains, performAll_sleeping]
    exact le_rfl
  | woken sleeping =>
    -- the sleep gives way to a chain
    rw [sleeping]
    unfold wake
    dsimp only
    split
    · rw [start_connection, start_chains, start_sleeping]
      show s.connection + (s.chains + if s.connected then 0 else 1) + 0 ≤ s.connection + s.chains + 1
      split <;> omega
    · exact Nat.le_add_right _ _
  | @failed operation outcome awake mem error noTimer =>
    obtain ⟨stage, hstage, outcome', hanswer⟩ := hfails ⟨noTimer, error⟩
    obtain ⟨rfl, -⟩ := Action.complete.inj hanswer
    have hc := chains_finish mem outcome
    have hone : (s.finish operation outcome).fail.sleeping.toNat ≤ 1 := Bool.toNat_le _
    rw [hstage, if_pos rfl] at hc
    rw [fail_connection, fail_chains, finish_connection]
    omega
  | @opened hostPort endpoint outcome _ mem =>
    have hc := chains_finish mem outcome
    rw [opened_connection, opened_chains, opened_sleeping, finish_connection, finish_sleeping]
    simp only [Operation.isChain, if_true] at hc
    omega
  | @delivered connection outcome calls kept _ mem =>
    have hc := chains_finish mem outcome
    rw [delivered_connection, delivered_chains, delivered_sleeping, finish_connection, finish_sleeping]
    omega
  | @wrote connection text outcome _ mem =>
    have hc := chains_finish mem outcome
    rw [wrote_connection, wrote_chains, wrote_sleeping, finish_connection, finish_sleeping]
    omega
  | @timerDropped outcome _ mem | @closed outcome _ mem =>
    have hc := chains_finish mem outcome
    rw [finish_connection, finish_sleeping]
    omega
  | @resolved host port outcome _ mem | @secured outcome _ mem | @pinged outcome _ mem
  | @armed connection outcome _ mem =>
    have hc := chains_finish mem outcome
    rw [chains_launch, launch_connection, launch_sleeping, finish_connection, finish_sleeping]
    simp only [Operation.isChain, if_true, Bool.false_eq_true, if_false] at hc ⊢
    omega
  | @connected outcome _ mem =>
    have hc := chains_finish mem outcome
    refine Nat.add_le_add_right (Nat.add_le_add_left ?_ _) _
    rw [chains_launch, ← hc]
    exact le_rfl

/-- A stage that succeeds is followed by the next one, or the session is connected. -/
theorem stage_of_step (hok : ¬ a.Fails) (hstep : step cfg handler s a = some t) {operation : Operation}
    (hchain : operation.isChain = true) (hanswer : a.Answers operation) :
    t.connected = true ∨ ∃ next ∈ t.operations, next.isChain = true ∧
      next.stagesLeft < operation.stagesLeft := by
  obtain ⟨outcome, rfl⟩ := hanswer
  cases transition_of_step hstep with
  | failed _ _ error noTimer => exact absurd ⟨noTimer, error⟩ hok
  | resolved =>
    exact Or.inr ⟨.connect, List.mem_append_right _ (List.mem_singleton_self _), rfl,
      Nat.lt_succ_self 3⟩
  | connected =>
    exact Or.inr ⟨.sslHandshake, List.mem_append_right _ (List.mem_singleton_self _), rfl,
      Nat.lt_succ_self 2⟩
  | secured =>
    exact Or.inr ⟨.handshake _ _, List.mem_append_right _ (List.mem_singleton_self _), rfl,
      Nat.lt_succ_self 1⟩
  | opened => exact Or.inl (opened_connected _ cfg)
  | delivered | wrote | pinged | timerDropped | armed | closed => cases hchain

/-! ## Endless runs -/

/-- What a user of the session sees to: the run begins at the constructor's state, and calls `start`, and
never `stop`. From `N` on no operation fails. -/
structure Settled (r : Runs.Endless (step cfg handler)) (N : ℕ) : Prop where
  init : ∃ kept, r.state 0 = { handlerState := kept }
  neverStops : NeverStops handler
  noStop : ∀ n, (r.action n).NoStop
  starts : ∃ n, n < N ∧ r.action n = .start
  noFailure : ∀ n, N ≤ n → ¬ (r.action n).Fails

variable {r : Runs.Endless (step cfg handler)} {N : ℕ}

/-- A settled session is lively. -/
theorem Settled.lively (h : Settled r N) {n : ℕ} (hn : N ≤ n) : (r.state n).Lively := by
  obtain ⟨kept, hinit⟩ := h.init
  obtain ⟨k, hk, hstart⟩ := h.starts
  have hrun := r.run_range n
  rw [hinit] at hrun
  refine lively_of_run h.neverStops ?_ ?_ hrun
  · intro b hb
    obtain ⟨m, -, rfl⟩ := List.mem_map.mp hb
    exact h.noStop m
  · exact List.mem_map.mpr ⟨k, List.mem_range.mpr (hk.trans_le hn), hstart⟩

/-- The last sleep ends. -/
theorem Settled.exists_awake (h : Settled r N) {selected : Operation → Bool}
    (hresponsive : Responsive selected r) :
    ∃ M, N ≤ M ∧ ∀ n, M ≤ n → (r.state n).sleeping = false := by
  have hstays : ∀ M, N ≤ M → (r.state M).sleeping = false →
      ∀ n, M ≤ n → (r.state n).sleeping = false := by
    intro M hM hawake n hn
    refine r.stays (P := fun s => s.sleeping = false) hM ?_ hawake hn
    intro k hk
    exact awake_of_step (h.noFailure k hk) (r.next k)
  obtain ⟨M, hM, hwake⟩ := hresponsive.wakes N
  cases hsleeping : (r.state M).sleeping with
  | false => exact ⟨M, hM, hstays M hM hsleeping⟩
  | true =>
    refine ⟨M + 1, hM.trans (Nat.le_succ M), hstays (M + 1) (hM.trans (Nat.le_succ M)) ?_⟩
    have hnext := r.next M
    rw [hwake hsleeping] at hnext
    exact awake_of_wake hnext

/-- A stage is outstanding that has `k` stages to go, itself included. -/
def AtStage (s : WebSocketSession σ) (k : ℕ) : Prop :=
  ∃ operation ∈ s.operations, operation.isChain = true ∧ operation.stagesLeft = k

/-- While awake, a stage of a chain leads to the next one, and the last one to a connection. -/
theorem Settled.leadsTo_connected (h : Settled r N) (hresponsive : Responsive Operation.isChain r)
    {M : ℕ} (hM : N ≤ M) (hawake : ∀ n, M ≤ n → (r.state n).sleeping = false) (k : ℕ) :
    r.LeadsTo M (fun s => s.AtStage k) fun s => s.connected = true := by
  refine Runs.Endless.leadsTo_of_rank AtStage ?_ k
  intro k n hn
  rintro ⟨operation, mem, hchain, hleft⟩
  have hstage : r.LeadsTo M (fun s => operation ∈ s.operations)
      fun s => s.connected = true ∨ ∃ j < k, s.AtStage j := by
    apply Runs.Endless.leadsTo_of_fair (hresponsive.answers operation hchain)
    · intro m hm mem
      exact ⟨hawake m hm, mem⟩
    · intro m hm mem
      by_cases hanswer : (r.action m).Answers operation
      · left
        refine (stage_of_step (h.noFailure m (hM.trans hm)) (r.next m) hchain hanswer).imp_right ?_
        rintro ⟨next, hnext, hnextChain, hlt⟩
        exact ⟨next.stagesLeft, hleft ▸ hlt, next, hnext, hnextChain, rfl⟩
      · right
        refine ⟨hanswer, mem_of_step (r.next m) mem fun outcome heq => ?_⟩
        exact hanswer ⟨outcome, heq⟩
  exact hstage n hn mem

/-- From some time on the session is connected. -/
theorem Settled.exists_connected (h : Settled r N) (hresponsive : Responsive Operation.isChain r) :
    ∃ K, N ≤ K ∧ ∀ n, K ≤ n → (r.state n).connected = true := by
  obtain ⟨M, hM, hawake⟩ := h.exists_awake hresponsive
  obtain ⟨K, hK, hconnected⟩ : ∃ K, M ≤ K ∧ (r.state K).connected = true := by
    rcases (h.lively hM).busy with hconnected | hchains | hasleep
    · exact ⟨M, le_rfl, hconnected⟩
    · obtain ⟨operation, mem, hchain⟩ := List.countP_pos_iff.mp hchains
      exact h.leadsTo_connected hresponsive hM hawake _ M le_rfl ⟨operation, mem, hchain, rfl⟩
    · rw [hawake M le_rfl] at hasleep
      cases hasleep
  refine ⟨K, hM.trans hK, fun n hn => ?_⟩
  refine r.stays (P := fun s => s.connected = true) (hM.trans hK) ?_ hconnected hn
  intro k hk
  exact connected_of_step h.neverStops (h.noStop k) (h.noFailure k hk) (r.next k)

/-- After the last failure, if every sleep ends and every stage of a chain is answered: the session is
connected for good, on one connection, and a read is outstanding on it. -/
theorem connected_for_good (h : Settled r N) (hresponsive : Responsive Operation.isChain r) :
    ∃ M connection, ∀ n, M ≤ n → (r.state n).connected = true ∧ (r.state n).sleeping = false ∧
      (r.state n).connection = connection ∧ .read connection ∈ (r.state n).operations := by
  obtain ⟨K, hK, hconnected⟩ := h.exists_connected hresponsive
  -- the pending chains may still connect again, each of them once
  obtain ⟨L, hL, hconstant⟩ := Runs.Endless.exists_constant (r := r) (N := K) connection
    (B := (r.state K).pending)
    (fun n _ => connection_le_of_step (r.next n)) (fun n hn => by
      have hle : (r.state n).pending ≤ (r.state K).pending := by
        refine r.stays (N := K) (P := fun s => s.pending ≤ (r.state K).pending) le_rfl ?_ le_rfl hn
        intro k hk hle
        have hok := h.noFailure k (hK.trans hk)
        exact (pending_of_step (fun _ => hconnected k hk) (absurd · hok) (r.next k)).trans hle
      exact (connection_le_pending _).trans hle)
  refine ⟨L, (r.state L).connection, fun n hn => ?_⟩
  have hKn := hL.trans hn
  have hlively := h.lively (hK.trans hKn)
  refine ⟨hconnected n hKn, hlively.willing.awake (hconnected n hKn), hconstant n hn, ?_⟩
  rw [← hconstant n hn]
  exact hlively.reading (hconnected n hKn)

/-! ## The queue -/

/-- The messages that have left the queue, in order. -/
def dequeued (s : WebSocketSession σ) : List Bytes := s.pops.filterMap Prod.snd

/-- Every message sent has left the queue, or is in it. -/
def Balanced (s : WebSocketSession σ) : Prop := s.sentTexts = s.dequeued ++ s.writeQueue

/-- Sent texts, pops and queue alone matter. -/
theorem Balanced.of_eq (h : s.Balanced) (hsent : t.sentTexts = s.sentTexts) (hpops : t.pops = s.pops)
    (hqueue : t.writeQueue = s.writeQueue) : t.Balanced := by
  rw [Balanced, hsent, dequeued, hpops, hqueue]
  exact h

/-- Events that are neither a `send` nor a pop. -/
theorem Balanced.of_log (h : s.Balanced) (events : List Event) (hlog : t.log = s.log ++ events)
    (hsent : ∀ text, .sent text ∉ events) (hpopped : ∀ text front, .popped text front ∉ events)
    (hqueue : t.writeQueue = s.writeQueue) : t.Balanced := by
  refine h.of_eq (sentTexts_of_log hlog hsent) ?_ hqueue
  rw [pops, hlog, List.filterMap_append, pops]
  refine List.append_right_eq_self.mpr (List.filterMap_eq_nil_iff.mpr fun event hmem => ?_)
  cases event with
  | popped text front => exact absurd hmem (hpopped text front)
  | _ => rfl

/-- A text that is sent is in the queue. -/
theorem Balanced.send (h : s.Balanced) (text : Bytes) : (s.send text).Balanced := by
  rw [Balanced, send_sentTexts, dequeued, send_pops, send_writeQueue, ← List.append_assoc, h]
  rfl

theorem Balanced.performAll (h : s.Balanced) (calls : List Call) : (s.performAll calls).Balanced := by
  apply performAll_induction Balanced
  · intro text _ u hu
    exact hu.send text
  · intro isOpen _ u hu
    exact hu.of_log [] (by simp) (by simp) (by simp) (stop_writeQueue u isOpen)
  · exact h

theorem Balanced.doWrite (h : s.Balanced) : s.doWrite.Balanced := by
  refine h.of_log _ s.doWrite_log ?_ ?_ (doWrite_writeQueue s)
  all_goals
    intros
    split <;> simp

theorem Balanced.start (h : s.Balanced) (cfg : WebSocketSessionConfig) : (s.start cfg).Balanced := by
  unfold WebSocketSession.start
  split
  · exact h
  · exact h.of_log [.resolveStarted] rfl (by simp) (by simp) rfl

theorem Balanced.opened (h : s.Balanced) (cfg : WebSocketSessionConfig) : (s.opened cfg).Balanced := by
  rw [opened_eq, greet_eq]
  refine Balanced.of_eq (Balanced.doWrite (Balanced.performAll ?_ _)) rfl rfl rfl
  exact h

theorem Balanced.delivered (h : s.Balanced) (connection : ℕ) (calls : List Call) (kept : σ) :
    (s.delivered connection calls kept).Balanced := by
  apply delivered_induction _ _ _ _ Balanced
  · exact h.of_log [.frame connection s.buffer] rfl (by simp) (by simp) rfl
  · intro u hu
    exact hu.performAll calls
  · intro u hu
    exact hu

/-- A message that was in front leaves the queue. -/
theorem wrote_dequeued (s : WebSocketSession σ) (text : Bytes) :
    (s.wrote text).dequeued = s.dequeued ++ s.writeQueue.head?.toList := by
  rw [dequeued, pops, wrote_log, List.filterMap_append, List.filterMap_append, dequeued, pops]
  congr 1
  split
  · cases s.writeQueue.tail <;> cases s.writeQueue <;> rfl
  · cases s.writeQueue <;> rfl

/-- A text that is popped was the front of the queue. -/
theorem Balanced.wrote (h : s.Balanced) (text : Bytes) : (s.wrote text).Balanced := by
  have hsent : (s.wrote text).sentTexts = s.sentTexts := by
    refine sentTexts_of_log (wrote_log s text) fun other hmem => ?_
    rcases List.mem_cons.mp hmem with hmem | hmem
    · cases hmem
    · split at hmem
      · simp at hmem
      · cases hmem
  rw [Balanced, hsent, wrote_dequeued, wrote_writeQueue, h]
  cases s.writeQueue <;> simp

/-- Every step keeps sent texts, pops and queue in balance. -/
theorem Balanced.step (h : s.Balanced) (hstep : WebSocketSession.step cfg handler s a = some t) :
    t.Balanced := by
  cases transition_of_step hstep with
  | started => exact h.start cfg
  | called =>
    apply Balanced.performAll
    exact h
  | woken =>
    apply wake_induction Balanced
    · exact h
    · intro u hu
      exact hu.start cfg
  | failed =>
    rw [fail_eq]
    exact h
  | opened =>
    apply Balanced.opened
    exact h
  | delivered =>
    apply Balanced.delivered
    exact h
  | wrote =>
    apply Balanced.wrote
    exact h
  | resolved | connected | secured | pinged | timerDropped | armed | closed => exact h

/-- So they are in every state of an endless run. -/
theorem Settled.balanced (h : Settled r N) (n : ℕ) : (r.state n).Balanced := by
  obtain ⟨kept, hinit⟩ := h.init
  refine r.stays (N := 0) (P := Balanced) le_rfl ?_ ?_ (Nat.zero_le n)
  · intro k _ hk
    exact hk.step (r.next k)
  · rw [hinit]
    rfl

/-- What has been sent and what has left the queue are only added to. -/
theorem prefixes_of_step (hstep : step cfg handler s a = some t) :
    s.sentTexts <+: t.sentTexts ∧ s.dequeued <+: t.dequeued := by
  have hlog : s.log <+: t.log := (grows_of_step hstep).log
  exact ⟨hlog.filterMap _, (hlog.filterMap _).filterMap _⟩

/-- Of what has been sent, all but the last `k` messages have left the queue. -/
def AllBut (texts : List Bytes) (s : WebSocketSession σ) (k : ℕ) : Prop :=
  texts <+: s.sentTexts ∧ texts.length ≤ s.dequeued.length + k

/-- Nothing that has left comes back. -/
theorem AllBut.of_step {texts : List Bytes} {k : ℕ} (h : s.AllBut texts k)
    (hstep : WebSocketSession.step cfg handler s a = some t) : t.AllBut texts k := by
  obtain ⟨hsent, hdequeued⟩ := prefixes_of_step hstep
  have hlength := hdequeued.length_le
  exact ⟨h.1.trans hsent, by have := h.2; omega⟩

/-- A write that succeeds takes the front out of the queue. -/
theorem AllBut.of_answer {texts : List Bytes} {k : ℕ} (h : s.AllBut texts (k + 1)) (hbalanced : s.Balanced)
    (hok : ¬ a.Fails) (hstep : WebSocketSession.step cfg handler s a = some t) {connection : ℕ}
    {text : Bytes} (hanswer : a.Answers (.write connection text)) : t.AllBut texts k := by
  obtain ⟨hsent, hle⟩ := h
  refine ⟨hsent.trans (prefixes_of_step hstep).1, ?_⟩
  obtain ⟨outcome, rfl⟩ := hanswer
  cases transition_of_step hstep with
  | failed _ _ error noTimer => exact absurd ⟨noTimer, error⟩ hok
  | wrote =>
    have hdequeued : ((s.finish (.write connection text) outcome).wrote text).dequeued
        = s.dequeued ++ s.writeQueue.head?.toList := wrote_dequeued _ text
    rw [hdequeued, List.length_append]
    cases hqueue : s.writeQueue with
    | nil =>
      -- everything has left the queue already
      have hall := hsent.length_le
      rw [hbalanced, hqueue, List.append_nil] at hall
      simp only [List.head?_nil, Option.toList_none, List.length_nil]
      omega
    | cons front rest =>
      simp only [List.head?_cons, Option.toList_some, List.length_singleton]
      omega

/-- Fewer operations are answered as well. -/
theorem Responsive.of_imp {selected other : Operation → Bool} (h : Responsive selected r)
    (himp : ∀ operation, other operation = true → selected operation = true) : Responsive other r :=
  ⟨h.wakes, fun operation hother => h.answers operation (himp operation hother)⟩

/-- The stages of a chain, and the writes. -/
def Operation.isChainOrWrite (operation : Operation) : Bool :=
  operation.isChain || operation.writeText.isSome

/-- While connected, the queue moves on. -/
theorem Settled.leadsTo_dequeued (h : Settled r N)
    (hresponsive : Responsive Operation.isChainOrWrite r) {K : ℕ} (hK : N ≤ K)
    (hconnected : ∀ n, K ≤ n → (r.state n).connected = true) (texts : List Bytes) (k : ℕ) :
    r.LeadsTo K (fun s => s.AllBut texts k) fun s => s.AllBut texts 0 := by
  refine Runs.Endless.leadsTo_of_rank (AllBut texts) ?_ k
  intro k n hn hall
  cases k with
  | zero => exact ⟨n, le_rfl, Or.inl hall⟩
  | succ k =>
    have hlively := h.lively (hK.trans hn)
    by_cases hempty : (r.state n).writeQueue = []
    · -- nothing is left to send
      refine ⟨n, le_rfl, Or.inl ⟨hall.1, ?_⟩⟩
      have hlength := hall.1.length_le
      rwa [h.balanced n, hempty, List.append_nil] at hlength
    · obtain ⟨text, mem⟩ := hlively.willing.writing (hconnected n hn) hempty
      have hwrite : r.LeadsTo K
          (fun s => .write (r.state n).connection text ∈ s.operations ∧ s.AllBut texts (k + 1))
          fun s => s.AllBut texts 0 ∨ ∃ j < k + 1, s.AllBut texts j := by
        apply Runs.Endless.leadsTo_of_fair
          (hresponsive.answers (.write (r.state n).connection text) rfl)
        · intro m hm hwriting
          have hawake := (h.lively (hK.trans hm)).willing.awake (hconnected m hm)
          exact ⟨hawake, hwriting.1⟩
        · rintro m hm ⟨mem, hall⟩
          by_cases hanswer : (r.action m).Answers (.write (r.state n).connection text)
          · left; right
            exact ⟨k, Nat.lt_succ_self k, hall.of_answer (h.balanced m) (h.noFailure m (hK.trans hm))
              (r.next m) hanswer⟩
          · right
            refine ⟨hanswer, mem_of_step (r.next m) mem fun outcome heq => ?_, hall.of_step (r.next m)⟩
            exact hanswer ⟨outcome, heq⟩
      exact hwrite n hn ⟨mem, hall⟩

/-- After the last failure, if the writes are answered too: whatever has been sent, before a failure or
after, leaves the queue in the end, in the order in which it was sent. -/
theorem every_message_leaves (h : Settled r N) (hresponsive : Responsive Operation.isChainOrWrite r)
    (n : ℕ) : ∃ m, n ≤ m ∧ (r.state n).sentTexts <+: (r.state m).dequeued := by
  have hchain : Responsive Operation.isChain r := by
    refine hresponsive.of_imp fun operation hchain => ?_
    rw [Operation.isChainOrWrite, hchain, Bool.true_or]
  obtain ⟨K, hK, hconnected⟩ := h.exists_connected hchain
  have hsent : (r.state n).sentTexts <+: (r.state (max n K)).sentTexts := by
    refine r.stays (N := 0) (P := fun s => (r.state n).sentTexts <+: s.sentTexts) (Nat.zero_le n) ?_ List.prefix_rfl
      (le_max_left n K)
    intro k _ hk
    exact hk.trans (prefixes_of_step (r.next k)).1
  obtain ⟨m, hm, hall⟩ := h.leadsTo_dequeued hresponsive hK hconnected (r.state n).sentTexts
    (r.state n).sentTexts.length (max n K) (le_max_right n K) ⟨hsent, Nat.le_add_left _ _⟩
  refine ⟨m, (le_max_left n K).trans hm, ?_⟩
  -- both are prefixes of what has been sent by then
  have hdequeued : (r.state m).dequeued <+: (r.state m).sentTexts := by
    rw [h.balanced m]
    exact List.prefix_append _ _
  exact List.prefix_of_prefix_length_le hall.1 hdequeued hall.2

/-! ## A run that recovers -/

/-- The connection drops while only a read is outstanding, and a message is sent before it is opened
again. -/
def sendWhileDown : List (Action Unit) :=
  .start :: chain ++ [.complete (.read 1) failure, .send [104], .wake] ++ chain
    ++ [.complete (.write 2 [104]) {}]

/-- A text is sent while the session is not connected. -/
theorem never_silent_sendWhileDown : ∃ t, Run exampleConfig ignoreFrames () sendWhileDown t ∧
    t.shouldReconnect = true ∧
      (t.connected = true ∧ t.sleeping = false ∧ .read t.connection ∈ t.operations ∧
          (t.writeQueue ≠ [] → ∃ text, .write t.connection text ∈ t.operations) ∨
        t.connected = false ∧ (0 < t.chains ∨ t.sleeping = true)) := by
  have hrun : (Runs.run (step exampleConfig ignoreFrames) { handlerState := () }
      sendWhileDown).isSome = true := by decide +kernel
  obtain ⟨t, ht⟩ := Option.isSome_iff_exists.mp hrun
  refine ⟨t, ht, never_silent ?_ ?_ ?_ ht⟩
  · intro connection frame kept call mem
    cases mem
  · simp [sendWhileDown, chain, Action.NoStop]
  · exact List.mem_cons_self

/-- The run goes on with calls of `start` that do nothing, forever. -/
theorem exists_settled : ∃ r : Runs.Endless (step exampleConfig ignoreFrames),
    Settled r 6 ∧ Responsive Operation.isChainOrWrite r ∧ (r.state 7).sentTexts = [[104]] := by
  have hrun : (Runs.run (step exampleConfig ignoreFrames) { handlerState := () } sendWhileDown).map
      (fun t => t.connected && !t.sleeping && !t.operations.any Operation.isChainOrWrite)
      = some true := by decide +kernel
  obtain ⟨t, ht, hend⟩ := Option.map_eq_some_iff.mp hrun
  simp only [Bool.and_eq_true, Bool.not_eq_true', List.any_eq_false] at hend
  obtain ⟨⟨hconnected, hawake⟩, hidle⟩ := hend
  have hloop : Runs.run (step exampleConfig ignoreFrames) t [.start] = some t := by
    rw [Runs.run_cons]
    refine ⟨t, ?_, rfl⟩
    rw [step, start, if_pos hconnected]
  have hne : [Action.start (σ := Unit)] ≠ [] := List.cons_ne_nil _ _
  refine ⟨Runs.Endless.lasso _ ht hloop hne, ?_, ?_, ?_⟩
  · refine ⟨⟨(), rfl⟩, ?_, ?_, ⟨0, by decide, rfl⟩, ?_⟩
    · intro connection frame kept call mem
      cases mem
    · intro n
      have hall : ∀ a ∈ sendWhileDown.drop 0 ++ [.start], a.NoStop := by
        simp [sendWhileDown, chain, Action.NoStop]
      exact hall _ (Runs.Endless.lasso_action_mem ht hloop hne (Nat.zero_le n))
    · intro n hn
      have hall : ∀ a ∈ sendWhileDown.drop 6 ++ [.start], ¬ a.Fails := by
        simp [sendWhileDown, chain, Action.Fails]
      exact hall _ (Runs.Endless.lasso_action_mem ht hloop hne hn)
  · refine ⟨Runs.Endless.lasso_fair ht hloop hne (by simp [hawake]) _, fun operation hselected => ?_⟩
    refine Runs.Endless.lasso_fair ht hloop hne (fun henabled => ?_) _
    exact hidle operation henabled.2 hselected
  · have hseven : (Runs.run (step exampleConfig ignoreFrames) { handlerState := () }
        (sendWhileDown.take 7)).map sentTexts = some [[104]] := by decide +kernel
    obtain ⟨u, hu, hsent⟩ := Option.map_eq_some_iff.mp hseven
    rw [Runs.Endless.lasso_state ht hloop hne (by decide), hu]
    exact hsent

/-- After one failure the session is connected for good. -/
theorem connected_for_good_sendWhileDown : ∃ r : Runs.Endless (step exampleConfig ignoreFrames),
    Settled r 6 ∧ ∃ M connection, ∀ n, M ≤ n → (r.state n).connected = true ∧
      (r.state n).sleeping = false ∧ (r.state n).connection = connection ∧
      .read connection ∈ (r.state n).operations := by
  obtain ⟨r, hsettled, hresponsive, -⟩ := exists_settled
  refine ⟨r, hsettled, connected_for_good hsettled (hresponsive.of_imp fun operation hchain => ?_)⟩
  rw [Operation.isChainOrWrite, hchain, Bool.true_or]

/-- What was sent while the session was not connected leaves in the end. -/
theorem every_message_leaves_sendWhileDown : ∃ r : Runs.Endless (step exampleConfig ignoreFrames),
    Settled r 6 ∧ ∃ m, 7 ≤ m ∧ [[104]] <+: (r.state m).dequeued := by
  obtain ⟨r, hsettled, hresponsive, hsent⟩ := exists_settled
  refine ⟨r, hsettled, ?_⟩
  rw [← hsent]
  exact every_message_leaves hsettled hresponsive 7

end WebSocketSession

end MacdTradingBot
