import MacdTradingBot.WebSocket.Transitions

/-!
# Reconnecting

When a connection drops, each operation outstanding on it fails by itself, and each failure calls
`reconnect`, whose only guard is the flag `_connected` that the first failure has cleared. There is never
more than one chain and one read if and only if no sleep ends while a chain is under way, and no handshake
succeeds while a read is outstanding (`singleFlight_iff`).
-/

namespace MacdTradingBot

namespace WebSocketSession

variable {σ : Type}

/-- At most one resolve/connect/handshake chain is pending and at most one read is outstanding. -/
def SingleFlight (s : WebSocketSession σ) : Prop := s.chains ≤ 1 ∧ s.reads ≤ 1

/-- The step begins what is already under way: the sleep of a `reconnect` ends, without a `stop`, while
an earlier chain is pending; or a WebSocket handshake succeeds while a read is outstanding. -/
def Overlaps (s : WebSocketSession σ) (a : Action σ) : Prop :=
  a = .wake ∧ s.shouldReconnect = true ∧ 0 < s.chains ∨ a.Opens ∧ 0 < s.reads

def Action.isStart : Action σ → Bool
  | .start => true
  | .call _ | .wake | .complete _ _ => false

variable {cfg : WebSocketSessionConfig} {handler : FrameHandler σ} {s t : WebSocketSession σ}
  {a : Action σ} {kept : σ}

/-! ## The first start -/

/-- Before the first `start` nothing but the close of a `stop` is outstanding. -/
structure Dormant (s : WebSocketSession σ) : Prop where
  awake : s.sleeping = false
  disconnected : s.connected = false
  closing : ∀ operation ∈ s.operations, operation = .close ∧ s.shouldReconnect = false

/-- Before the first start a message is only queued. -/
theorem Dormant.send (h : s.Dormant) (text : Bytes) : (s.send text).Dormant := by
  rw [send_cases, if_neg (by simp [h.disconnected])]
  exact ⟨h.awake, h.disconnected, h.closing⟩

theorem Dormant.stop (h : s.Dormant) (isOpen : Bool) : (s.stop isOpen).Dormant := by
  refine ⟨?_, stop_connected s isOpen, ?_⟩
  · rw [stop_sleeping]
    exact h.awake
  · intro operation hmem
    refine ⟨?_, stop_shouldReconnect s isOpen⟩
    unfold WebSocketSession.stop at hmem
    split at hmem
    · rcases List.mem_append.mp hmem with hmem | hmem
      · exact (h.closing operation hmem).1
      · exact List.mem_singleton.mp hmem
    · exact (h.closing operation hmem).1

/-- Before the first start no chain is under way. -/
theorem Dormant.chains (h : s.Dormant) : s.chains = 0 := by
  rw [WebSocketSession.chains, List.countP_eq_zero]
  intro operation hmem
  rw [(h.closing operation hmem).1]
  simp [Operation.isChain]

/-- Only a start ends this. -/
theorem Dormant.step (h : s.Dormant) (ha : a.isStart = false) (hstep : step cfg handler s a = some t) :
    t.Dormant := by
  -- of the operations only a close can complete
  have hclose : ∀ {operation : Operation}, operation ∈ s.operations → operation = .close :=
    fun hmem => (h.closing _ hmem).1
  have herase : ∀ {operation : Operation} (outcome : Outcome), operation ∈ s.operations →
      (s.finish operation outcome).Dormant := by
    intro operation outcome hmem
    refine ⟨h.awake, h.disconnected, fun other hother => ?_⟩
    exact h.closing other (List.mem_of_mem_erase hother)
  cases transition_of_step hstep with
  | started => cases ha
  | called =>
    apply performAll_induction Dormant
    · intro text _ u hu
      exact hu.send text
    · intro isOpen _ u hu
      exact hu.stop isOpen
    · exact ⟨h.awake, h.disconnected, h.closing⟩
  | woken sleeping =>
    rw [h.awake] at sleeping
    cases sleeping
  | @failed _ outcome _ mem =>
    have hfinish := herase outcome mem
    refine ⟨?_, fail_connected _, ?_⟩
    · rw [fail_eq]
      simp [h.awake, (h.closing _ mem).2]
    · rw [fail_eq]
      exact hfinish.closing
  | timerDropped _ mem | closed _ mem => exact herase _ mem
  | resolved _ mem | connected _ mem | secured _ mem | opened _ mem | delivered _ mem | wrote _ mem
  | pinged _ mem | armed _ mem => cases hclose mem

/-- With at most one `start` in the run, it is called when nothing is under way. -/
theorem chains_at_start {as pre : List (Action σ)} {u : WebSocketSession σ}
    (hone : as.countP Action.isStart ≤ 1) (hpre : pre ++ [.start] <+: as)
    (hu : Run cfg handler kept pre u) : u.chains = 0 := by
  have hnone : pre.countP Action.isStart = 0 := by
    have hle := (hpre.sublist.countP_le (p := Action.isStart)).trans hone
    rw [List.countP_append, List.countP_singleton] at hle
    simp only [Action.isStart, if_true] at hle
    omega
  refine Dormant.chains (Runs.invariant_of_stepsMeet (G := fun _ a => a.isStart = false) Dormant ?_ ?_ ?_
    hu)
  · exact ⟨rfl, rfl, by simp⟩
  · intro v a w hv ha hstep
    exact hv.step ha hstep
  · intro p a v hp _
    rw [List.countP_eq_zero] at hnone
    simpa using hnone a (hp.subset (by simp))

/-! ## One chain, one read -/

/-- While a handler sleeps the session is not connected. -/
structure Flight (s : WebSocketSession σ) : Prop where
  single : s.SingleFlight
  asleep : s.sleeping = true → s.connected = false

/-- No chain and no read is added, and a handler that sleeps has set the connection aside. -/
theorem Flight.of_counts (h : s.Flight) (hchains : t.chains ≤ s.chains) (hreads : t.reads ≤ s.reads)
    (hasleep : t.sleeping = true → t.connected = false) : t.Flight :=
  ⟨⟨hchains.trans h.single.1, hreads.trans h.single.2⟩, hasleep⟩

/-- The next stage of a chain takes the place of the completed one. -/
theorem counts_of_launch {operation : Operation} (mem : operation ∈ s.operations) (outcome : Outcome)
    (next : Operation) (hchain : next.isChain = true → operation.isChain = true)
    (hread : next.isRead = true → operation.isRead = true) :
    ((s.finish operation outcome).launch next).chains ≤ s.chains ∧
      ((s.finish operation outcome).launch next).reads ≤ s.reads := by
  have hc := chains_finish mem outcome
  have hr := reads_finish mem outcome
  rw [chains_launch, reads_launch]
  constructor
  · cases hnext : next.isChain with
    | false => simp only [Bool.false_eq_true, if_false]; omega
    | true => simp only [hchain hnext, if_true] at hc ⊢; omega
  · cases hnext : next.isRead with
    | false => simp only [Bool.false_eq_true, if_false]; omega
    | true => simp only [hread hnext, if_true] at hr ⊢; omega

/-- A stage of a chain is followed by the next, and a read by a read. -/
theorem Flight.launch (h : s.Flight) (awake : s.sleeping = false) {operation next : Operation}
    (mem : operation ∈ s.operations) (outcome : Outcome)
    (hchain : next.isChain = true → operation.isChain = true)
    (hread : next.isRead = true → operation.isRead = true) :
    ((s.finish operation outcome).launch next).Flight := by
  obtain ⟨hc, hr⟩ := counts_of_launch mem outcome next hchain hread
  refine h.of_counts hc hr fun hasleep => ?_
  rw [launch_sleeping, finish_sleeping, awake] at hasleep
  cases hasleep

/-- The calls of a handler do not connect the session. -/
theorem performAll_connected {calls : List Call} (h : s.connected = false) :
    (s.performAll calls).connected = false := by
  apply performAll_induction (fun u => u.connected = false)
  · intro text _ u hu
    rwa [send_connected]
  · intro isOpen _ u _
    exact stop_connected u isOpen
  · exact h

/-- A step that begins nothing that is under way already keeps the invariant. -/
theorem Flight.step (h : s.Flight) (hgood : ¬ s.Overlaps a)
    (hstart : a = .start → s.chains = 0 ∨ s.connected = true)
    (hstep : WebSocketSession.step cfg handler s a = some t) : t.Flight := by
  obtain ⟨hchains, hreads⟩ := h.single
  cases transition_of_step hstep with
  | started =>
    refine ⟨⟨?_, by simpa using hreads⟩, by simpa using h.asleep⟩
    rw [start_chains]
    -- a connected session does not resolve again
    rcases hstart rfl with hnone | hconnected
    · split <;> omega
    · simpa [hconnected] using hchains
  | called =>
    refine h.of_counts (performAll_chains _ _).le (performAll_reads _ _).le fun hasleep => ?_
    apply performAll_connected
    rw [performAll_sleeping] at hasleep
    exact h.asleep hasleep
  | woken sleeping =>
    cases hreconnect : s.shouldReconnect with
    | false =>
      rw [wake_of_stopped hreconnect]
      exact ⟨h.single, fun hasleep => nomatch hasleep⟩
    | true =>
      rw [wake_of_reconnecting hreconnect]
      -- the step does not overlap, so the timer finds no chain under way
      have hnone : s.chains = 0 := by
        by_contra hne
        exact hgood (Or.inl ⟨rfl, hreconnect, Nat.pos_of_ne_zero hne⟩)
      have hsame : ({ s with sleeping := false } : WebSocketSession σ).chains = s.chains := rfl
      refine ⟨⟨?_, (start_reads _ _).trans_le hreads⟩, fun hasleep => ?_⟩
      · rw [start_chains]
        split <;> omega
      · rw [start_sleeping] at hasleep
        cases hasleep
  | @failed operation outcome _ mem =>
    have hc := chains_finish mem outcome
    have hr := reads_finish mem outcome
    refine h.of_counts ?_ ?_ fun _ => fail_connected _
    · rw [fail_chains]
      omega
    · rw [fail_reads]
      omega
  | @opened hostPort endpoint outcome awake mem ok =>
    have hc := chains_finish mem outcome
    have hr := reads_finish mem outcome
    simp only [Operation.isChain, Operation.isRead, if_true, Bool.false_eq_true, if_false] at hc hr
    -- the reads of the new connection begin here, after all others have ended
    have hnone : s.reads = 0 := by
      by_contra hne
      exact hgood (Or.inr ⟨ok, Nat.pos_of_ne_zero hne⟩)
    refine ⟨⟨?_, ?_⟩, fun hasleep => ?_⟩
    · rw [opened_chains]
      omega
    · rw [opened_reads]
      omega
    · rw [opened_sleeping, finish_sleeping, awake] at hasleep
      cases hasleep
  | @delivered connection outcome calls kept awake mem ok handled =>
    have hc := chains_finish mem outcome
    have hr := reads_finish mem outcome
    simp only [Operation.isChain, Operation.isRead, if_true, Bool.false_eq_true, if_false] at hc hr
    refine h.of_counts ?_ ?_ fun hasleep => ?_
    · rw [delivered_chains]
      omega
    · rw [delivered_reads]
      omega
    · rw [delivered_sleeping, finish_sleeping, awake] at hasleep
      cases hasleep
  | @wrote connection text outcome awake mem ok =>
    have hc := chains_finish mem outcome
    have hr := reads_finish mem outcome
    refine h.of_counts ?_ ?_ fun hasleep => ?_
    · rw [wrote_chains]
      omega
    · rw [wrote_reads]
      omega
    · rw [wrote_sleeping, finish_sleeping, awake] at hasleep
      cases hasleep
  | resolved awake mem | secured awake mem | pinged awake mem | armed awake mem =>
    apply h.launch awake mem
    · simp [Operation.isChain]
    · simp [Operation.isRead]
  | @connected outcome awake mem =>
    obtain ⟨hc, hr⟩ := counts_of_launch mem outcome .sslHandshake (fun _ => rfl) (fun hread => hread)
    refine h.of_counts hc hr fun hasleep => ?_
    have hasleep : s.sleeping = true := hasleep
    rw [awake] at hasleep
    cases hasleep
  | @timerDropped outcome awake mem | @closed outcome awake mem =>
    have hc := chains_finish mem outcome
    have hr := reads_finish mem outcome
    refine h.of_counts (by omega) (by omega) fun hasleep => ?_
    rw [finish_sleeping, awake] at hasleep
    cases hasleep

/-- A step that begins what is under way already leaves two chains or two reads. -/
theorem not_singleFlight_of_overlaps (h : s.Flight) (hbad : s.Overlaps a)
    (hstep : WebSocketSession.step cfg handler s a = some t) : ¬ t.SingleFlight := by
  rintro ⟨hchains, hreads⟩
  rcases hbad with ⟨rfl, hreconnect, hpos⟩ | ⟨hopens, hpos⟩
  · cases transition_of_step hstep with
    | woken sleeping =>
      have hsame : ({ s with sleeping := false } : WebSocketSession σ).chains = s.chains := rfl
      rw [wake_of_reconnecting hreconnect, start_chains, hsame, h.asleep sleeping] at hchains
      simp only [Bool.false_eq_true, if_false] at hchains
      omega
  · obtain ⟨hostPort, endpoint, outcome, mem, rfl⟩ := opened_of_step hstep hopens
    have hr := reads_finish mem outcome
    simp only [Operation.isRead, Bool.false_eq_true, if_false] at hr
    rw [opened_reads] at hreads
    omega

/-- After one `start`, over every order of completions: there is never more than one chain pending and
one read outstanding, if and only if no sleep of `reconnect` ends, without a `stop`, while a chain is
pending, and no WebSocket handshake succeeds while a read is outstanding. -/
theorem singleFlight_iff {as : List (Action σ)} (hone : as.countP Action.isStart ≤ 1)
    (h : Run cfg handler kept as s) :
    Runs.Along (step cfg handler) SingleFlight { handlerState := kept } as
      ↔ Runs.StepsMeet (step cfg handler) (fun u a => ¬ u.Overlaps a) { handlerState := kept } as := by
  have hflight := Runs.along_iff_stepsMeet (P := SingleFlight)
    (G := fun u a => ¬ u.Overlaps a ∧ (a = .start → u.chains = 0 ∨ u.connected = true)) Flight ?_ ?_ ?_ ?_
    h
  · rw [hflight]
    constructor
    · intro hall pre a u hpre hu
      exact (hall pre a u hpre hu).1
    · intro hall pre a u hpre hu
      refine ⟨hall pre a u hpre hu, ?_⟩
      rintro rfl
      exact Or.inl (chains_at_start hone hpre hu)
  · exact ⟨⟨Nat.zero_le 1, Nat.zero_le 1⟩, fun _ => rfl⟩
  · intro u hu
    exact hu.single
  · rintro u a v hu ⟨hgood, hstart⟩ hstep
    exact hu.step hgood hstart hstep
  · intro u a v hu hbad hstep
    by_cases hoverlaps : u.Overlaps a
    · exact not_singleFlight_of_overlaps hu hoverlaps hstep
    · have hstart : ¬ (a = .start → u.chains = 0 ∨ u.connected = true) := fun hstart =>
        hbad ⟨hoverlaps, hstart⟩
      simp only [Classical.not_imp, not_or, Bool.not_eq_true] at hstart
      obtain ⟨rfl, hpos, hdisconnected⟩ := hstart
      -- a second `start` while a chain is pending
      cases hstep
      rintro ⟨hchains, -⟩
      rw [start_chains, hdisconnected] at hchains
      simp only [Bool.false_eq_true, if_false] at hchains
      omega

/-! ## Two operations of one connection fail -/

def exampleConfig : WebSocketSessionConfig :=
  { host := "feed", port := "443", endpoint := "/v2/iex" }

/-- A frame handler that does nothing. -/
def ignoreFrames : FrameHandler Unit := fun _ _ kept => ([], kept)

def failure : Outcome := { ec := true }

/-- The stages of a chain, all with success. -/
def chain : List (Action Unit) :=
  [.complete (.resolve "feed" "443") {}, .complete .connect {}, .complete .sslHandshake {},
    .complete (.handshake "feed:443" "/v2/iex") {}]

/-- The connection drops while a write is under way: first the read fails, then the write. -/
def dropDuringWrite : List (Action Unit) :=
  .start :: chain ++ [.send [104, 105], .complete (.read 1) failure, .wake,
    .complete (.write 1 [104, 105]) failure, .wake]

/-- Two chains are pending then, and when both are through there are two reads. -/
theorem two_chains_after_drop :
    (∃ t, Run exampleConfig ignoreFrames () dropDuringWrite t ∧ t.chains = 2 ∧
      ¬ Runs.Along (step exampleConfig ignoreFrames) SingleFlight { handlerState := () }
        dropDuringWrite) ∧
    ∃ t, Run exampleConfig ignoreFrames () (dropDuringWrite ++ chain ++ chain) t ∧ t.reads = 2 := by
  have hrun : (Runs.run (step exampleConfig ignoreFrames) { handlerState := () } dropDuringWrite).map
      chains = some 2 := by decide +kernel
  have hlonger : (Runs.run (step exampleConfig ignoreFrames) { handlerState := () }
      (dropDuringWrite ++ chain ++ chain)).map reads = some 2 := by decide +kernel
  obtain ⟨t, ht, htwo⟩ := Option.map_eq_some_iff.mp hrun
  refine ⟨⟨t, ht, htwo, fun halong => ?_⟩, Option.map_eq_some_iff.mp hlonger⟩
  have hle := (halong dropDuringWrite t List.prefix_rfl ht).1
  omega

/-- The connection drops while only a read is outstanding, and is opened again. -/
def dropDuringRead : List (Action Unit) :=
  .start :: chain ++ [.complete (.read 1) failure, .wake] ++ chain

/-- A reconnect finds no chain, and a handshake no read. -/
def reconnectsAlone (s : WebSocketSession Unit) : Action Unit → Bool
  | .wake => s.chains = 0
  | .complete (.handshake _ _) _ => s.reads = 0
  | _ => true

/-- A connection that drops during a read brings one chain. -/
theorem singleFlight_iff_dropDuringRead :
    Runs.Along (step exampleConfig ignoreFrames) SingleFlight { handlerState := () }
      dropDuringRead := by
  have hrun : (Runs.run (step exampleConfig ignoreFrames) { handlerState := () }
      dropDuringRead).isSome = true := by decide +kernel
  obtain ⟨t, ht⟩ := Option.isSome_iff_exists.mp hrun
  refine (singleFlight_iff (by decide) ht).mpr
    (Runs.StepsMeet.of_checkSteps (g := reconnectsAlone) ?_ ?_)
  · rintro u a hcheck (⟨rfl, -, hpos⟩ | ⟨hopens, hpos⟩)
    · have hzero : u.chains = 0 := of_decide_eq_true hcheck
      omega
    · cases a with
      | complete operation outcome =>
        cases operation with
        | handshake hostPort endpoint =>
          have hzero : u.reads = 0 := of_decide_eq_true hcheck
          omega
        | _ => exact hopens
      | _ => exact hopens
  · decide +kernel

end WebSocketSession

end MacdTradingBot
