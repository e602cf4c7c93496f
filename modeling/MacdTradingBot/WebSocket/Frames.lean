import MacdTradingBot.WebSocket.Reconnecting

/-!
# Frames across reconnects

The buffer lives as long as the session, and `on_read` clears it only when the read has succeeded. What a
failed read has left in it comes before the first message of the next connection (`frames_eq_iff`).
-/

namespace MacdTradingBot

namespace WebSocketSession

variable {σ : Type}

/-- The messages that reads have received, each with its connection, in order. -/
def received (as : List (Action σ)) : List (ℕ × Bytes) :=
  as.filterMap fun
    | .complete (.read connection) outcome =>
      if outcome.ec then none else some (connection, outcome.bytes)
    | _ => none

/-- A read fails that has left bytes in the buffer. -/
def Action.LeavesBytes : Action σ → Prop
  | .complete (.read _) outcome => outcome.ec = true ∧ outcome.bytes ≠ []
  | _ => False

/-- A read succeeds. -/
def Action.Receives : Action σ → Prop
  | .complete (.read _) outcome => outcome.ec = false
  | _ => False

/-- No read that fails and leaves bytes is followed by one that succeeds. -/
def NoneAfterLeftover (as : List (Action σ)) : Prop :=
  as.Pairwise fun a b => a.LeavesBytes → ¬ b.Receives

variable {cfg : WebSocketSessionConfig} {handler : FrameHandler σ} {s t : WebSocketSession σ}
  {a : Action σ} {kept : σ}

/-- What a step does to the buffer and to the frames passed on. -/
inductive Reads (s : WebSocketSession σ) : Action σ → WebSocketSession σ → Prop
  | received {connection : ℕ} {outcome : Outcome} {t : WebSocketSession σ} (ok : outcome.ec = false)
      (frames : t.frames = s.frames ++ [(connection, s.buffer ++ outcome.bytes)])
      (buffer : t.buffer = []) : Reads s (.complete (.read connection) outcome) t
  | failed {connection : ℕ} {outcome : Outcome} {t : WebSocketSession σ} (error : outcome.ec = true)
      (frames : t.frames = s.frames) (buffer : t.buffer = s.buffer ++ outcome.bytes) :
      Reads s (.complete (.read connection) outcome) t
  | other {a : Action σ} {t : WebSocketSession σ}
      (noRead : ∀ connection outcome, a ≠ .complete (.read connection) outcome)
      (frames : t.frames = s.frames) (buffer : t.buffer = s.buffer) : Reads s a t

/-- What is received adds up. -/
theorem received_append (as bs : List (Action σ)) : received (as ++ bs) = received as ++ received bs :=
  List.filterMap_append

/-- An action that completes no read neither receives nor leaves anything. -/
theorem not_read (h : ∀ connection outcome, a ≠ .complete (.read connection) outcome) :
    received [a] = [] ∧ ¬ a.LeavesBytes ∧ ¬ a.Receives := by
  cases a with
  | complete operation outcome =>
    cases operation with
    | read connection => exact absurd rfl (h connection outcome)
    | _ => exact ⟨rfl, fun h => h, fun h => h⟩
  | _ => exact ⟨rfl, fun h => h, fun h => h⟩

/-- Only reads touch the buffer. -/
theorem finish_buffer_of_not_read {operation : Operation} (h : ∀ c, operation ≠ .read c)
    (outcome : Outcome) : (s.finish operation outcome).buffer = s.buffer := by
  cases operation with
  | read connection => exact absurd rfl (h connection)
  | _ => rfl

/-- Waking up leaves the buffer alone. -/
theorem wake_buffer (s : WebSocketSession σ) (cfg : WebSocketSessionConfig) :
    (s.wake cfg).buffer = s.buffer ∧ (s.wake cfg).frames = s.frames := by
  apply wake_induction (fun u => u.buffer = s.buffer ∧ u.frames = s.frames)
  · exact ⟨rfl, rfl⟩
  · rintro u ⟨hbuffer, hframes⟩
    exact ⟨(start_buffer u cfg).trans hbuffer, (start_frames u cfg).trans hframes⟩

/-- What one step does to the buffer and the frames. -/
theorem reads_of_step (hstep : step cfg handler s a = some t) : Reads s a t := by
  cases transition_of_step hstep with
  | started => exact .other (by simp) (start_frames _ _) (start_buffer _ _)
  | called => exact .other (by simp) (performAll_frames _ _) (performAll_buffer _ _)
  | woken => exact .other (by simp) (wake_buffer s cfg).2 (wake_buffer s cfg).1
  | @failed operation outcome awake mem error noTimer =>
    by_cases hread : ∃ c, operation = .read c
    · obtain ⟨connection, rfl⟩ := hread
      have hec : outcome.ec = true := by simpa using error
      exact .failed hec (fail_frames _) (fail_buffer _)
    · rw [not_exists] at hread
      refine .other (by simpa using hread) (fail_frames _) ?_
      rw [fail_buffer, finish_buffer_of_not_read hread]
  | delivered awake mem ok => exact .received ok (delivered_frames _ _ _ _) (delivered_buffer _ _ _ _)
  | opened => exact .other (by simp) (opened_frames _ _) (opened_buffer _ _)
  | wrote => exact .other (by simp) (wrote_frames _ _) (wrote_buffer _ _)
  | resolved | connected | secured | pinged | timerDropped | armed | closed =>
    exact .other (by simp) rfl rfl

/-- The buffer stays empty as long as no read that fails leaves bytes. -/
theorem buffer_of_step (hstep : step cfg handler s a = some t) (hclean : ¬ a.LeavesBytes)
    (hbuffer : s.buffer = []) : t.buffer = [] := by
  cases reads_of_step hstep with
  | received ok frames buffer => exact buffer
  | @failed connection outcome t error frames buffer =>
    have hbytes : outcome.bytes = [] := by
      by_contra hne
      exact hclean ⟨error, hne⟩
    rw [buffer, hbuffer, hbytes, List.append_nil]
  | other noRead frames buffer => exact buffer.trans hbuffer

/-- While no leftover has been passed on, the frames are the messages, and the buffer is empty exactly
when no read has left bytes. -/
theorem frames_of_noneAfterLeftover {as : List (Action σ)} (h : Run cfg handler kept as s)
    (hnone : NoneAfterLeftover as) :
    s.frames = received as ∧ (s.buffer = [] ↔ ∀ a ∈ as, ¬ a.LeavesBytes) := by
  induction as using List.reverseRecOn generalizing s with
  | nil =>
    cases h
    exact ⟨rfl, by simp⟩
  | append_singleton as a ih =>
    obtain ⟨u, hu, hstep⟩ := Runs.run_concat.mp h
    obtain ⟨hpre, -, hlast⟩ := List.pairwise_append.mp hnone
    obtain ⟨hframes, hbuffer⟩ := ih hu hpre
    rw [received_append]
    cases reads_of_step hstep with
    | @received connection outcome t ok frames buffer =>
      -- a read succeeds, so no read before it has left bytes
      have hclean : ∀ b ∈ as, ¬ b.LeavesBytes := by
        intro b hb hleaves
        exact hlast b hb _ (List.mem_singleton_self _) hleaves ok
      rw [frames, hframes, hbuffer.mpr hclean, buffer]
      refine ⟨by simp [received, ok], by simpa [Action.LeavesBytes, ok, or_imp, forall_and] using hclean⟩
    | @failed connection outcome t error frames buffer =>
      rw [frames, hframes, buffer, List.append_eq_nil_iff, hbuffer]
      refine ⟨by simp [received, error], ?_⟩
      simp [Action.LeavesBytes, error, or_imp, forall_and]
    | other noRead frames buffer =>
      obtain ⟨hnothing, hleaves, -⟩ := not_read noRead
      rw [frames, hframes, buffer, hbuffer, hnothing, List.append_nil]
      refine ⟨rfl, ?_⟩
      simp [hleaves, or_imp, forall_and]

/-- Over every run, with any number of connections: the strings passed to the frame handler are the
messages that the reads received, in order and on their connections, if and only if no read that fails
and leaves bytes is followed by one that succeeds. -/
theorem frames_eq_iff {as : List (Action σ)} (h : Run cfg handler kept as s) :
    s.frames = received as ↔ NoneAfterLeftover as := by
  refine ⟨fun heq => ?_, fun hnone => (frames_of_noneAfterLeftover h hnone).1⟩
  induction as using List.reverseRecOn generalizing s with
  | nil => exact List.Pairwise.nil
  | append_singleton as a ih =>
    obtain ⟨u, hu, hstep⟩ := Runs.run_concat.mp h
    rw [received_append] at heq
    cases reads_of_step hstep with
    | @received connection outcome t ok frames buffer =>
      -- the last frame is the last message only if the buffer was empty before the read
      have hlist : u.frames ++ [(connection, u.buffer ++ outcome.bytes)]
          = received as ++ [(connection, outcome.bytes)] := by
        simpa [frames, received, ok] using heq
      obtain ⟨hframes, hdata⟩ := List.append_inj' hlist rfl
      have hpre := ih hu hframes
      have hempty : u.buffer = [] := by simpa using hdata
      have hclean := (frames_of_noneAfterLeftover hu hpre).2.mp hempty
      refine List.pairwise_append.mpr ⟨hpre, List.pairwise_singleton _ _, ?_⟩
      intro b hb c _ hleaves
      exact absurd hleaves (hclean b hb)
    | @failed connection outcome t error frames buffer =>
      have hframes : u.frames = received as := by
        simpa [frames, received, error] using heq
      refine List.pairwise_append.mpr ⟨ih hu hframes, List.pairwise_singleton _ _, ?_⟩
      intro b _ c hc _ hreceives
      rw [List.mem_singleton] at hc
      subst hc
      have hok : outcome.ec = false := hreceives
      rw [error] at hok
      cases hok
    | other noRead frames buffer =>
      obtain ⟨hnothing, -, hreceives⟩ := not_read noRead
      have hframes : u.frames = received as := by
        simpa [frames, hnothing] using heq
      refine List.pairwise_append.mpr ⟨ih hu hframes, List.pairwise_singleton _ _, ?_⟩
      intro b _ c hc _
      rw [List.mem_singleton] at hc
      subst hc
      exact hreceives

/-! ## A frame cut short -/

/-- The connection drops after three bytes of a message; the next one begins with a message of two. -/
def cutShort : List (Action Unit) :=
  .start :: chain ++ [.complete (.read 1) { ec := true, bytes := [91, 123, 34] }, .wake] ++ chain ++
    [.complete (.read 2) { bytes := [91, 93] }]

/-- The first frame of the second connection begins with what the first one left. -/
theorem leftover_before_first_frame : ∃ t, Run exampleConfig ignoreFrames () cutShort t ∧
    t.frames = [(2, [91, 123, 34, 91, 93])] ∧ t.frames ≠ received cutShort := by
  have hrun : (Runs.run (step exampleConfig ignoreFrames) { handlerState := () } cutShort).map frames
      = some [(2, [91, 123, 34, 91, 93])] := by decide +kernel
  obtain ⟨t, ht, hframes⟩ := Option.map_eq_some_iff.mp hrun
  refine ⟨t, ht, hframes, ?_⟩
  rw [hframes]
  decide

/-- Two connections that drop between two messages. -/
def cutBetween : List (Action Unit) :=
  .start :: chain ++ [.complete (.read 1) { bytes := [91, 93] }, .complete (.read 1) failure, .wake] ++
    chain ++ [.complete (.read 2) { bytes := [91, 93] }]

/-- A connection that is cut between frames leaves nothing. -/
theorem frames_eq_iff_cutBetween : ∃ t, Run exampleConfig ignoreFrames () cutBetween t ∧
    t.frames = received cutBetween := by
  have hrun : (Runs.run (step exampleConfig ignoreFrames) { handlerState := () } cutBetween).isSome
      = true := by decide +kernel
  obtain ⟨t, ht⟩ := Option.isSome_iff_exists.mp hrun
  refine ⟨t, ht, (frames_eq_iff ht).mpr ?_⟩
  simp [NoneAfterLeftover, cutBetween, chain, Action.LeavesBytes, Action.Receives, failure]

end WebSocketSession

end MacdTradingBot
