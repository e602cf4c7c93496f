import MacdTradingBot.Rest.Processing

/-!
# Posted coroutines

`co_spawn` runs `process_queue` at once only when `request` is called on the io_context. For a caller on
another executor the coroutine is posted: it starts in a later step, and until then nobody has set
`_is_processing`. Here the client is run with any number of `process_queue` coroutines, posted or
started. There is never more than one if and only if no request comes in while one is posted
(`atMostOne_iff`).
-/

namespace MacdTradingBot

/-- A `process_queue` that has started: where it is, and the task that `current_task` refers to. -/
structure Instance where
  pc : ProcessQueue
  current : Option ℕ := none
deriving DecidableEq, Repr

/-- The client with its coroutines. The members of `client` but `processQueue` are those of the class;
`posted` counts the `process_queue` coroutines that have not started, and `waits` are the requests from
other executors that have not called `async_wait`. Asserts are compiled out: a failing one is only
recorded. -/
structure Spawning (Response : Type) where
  client : State Response := {}
  posted : ℕ := 0
  instances : List Instance := []
  waits : List ℕ := []
  assertionFailed : Bool := false
deriving DecidableEq

/-- What can happen next: time passes; a request from the io_context or from another executor; the
`i`-th request from another executor reaches `async_wait`; a posted coroutine starts; the `i`-th
coroutine runs on, or the operation completes that it is suspended in; the rest as in `Action`. -/
inductive SpawnAction (Response : Type)
  | tick (d : ℕ)
  | request (url : String) (onContext : Bool)
  | connect (url : String) (sni : Bool)
  | asyncWait
  | asyncWaitFromOutside (i : ℕ)
  | start
  | resume (i : ℕ) (sni : Bool)
  | complete (i : ℕ) (completion : Completion Response)
  | completeConnect (i : ℕ) (completion : Completion Response)

namespace Spawning

variable {Response : Type}

/-- The coroutine on the stack, or on top of it. -/
def running (s : Spawning Response) : ProcessQueue :=
  ((s.instances.filter fun x => !x.pc.suspended).getLast?.map Instance.pc).getD .idle

/-- The client with the coroutine on the stack. -/
def view (s : Spawning Response) : State Response := { s.client with processQueue := s.running }

/-- `enqueue_task`, the spawning included. -/
def request (B : BoostUrl) (url : String) (onContext : Bool) (s : Spawning Response) :
    Spawning Response :=
  if onContext then
    let client := s.client.request B url
    if client.processQueue = .loopTop then
      { s with
        client := { client with processQueue := .idle }
        instances := s.instances ++ [{ pc := .loopTop }] }
    else
      { s with client := client }
  else
    match B.makeHttpHttpsUrl url with
    | .error _ => s
    | .ok endpoint =>
      let task : Task := { id := s.client.nextTask, endpoint := endpoint }
      let client := { s.client with nextTask := s.client.nextTask + 1, tasks := s.client.tasks ++ [task] }
      { s with
        client := client.record (.enqueued task.id)
        waits := s.waits ++ [task.id]
        posted := if s.client.isProcessing then s.posted else s.posted + 1 }

/-- A posted `process_queue` runs its first two statements. -/
def start (s : Spawning Response) : Spawning Response :=
  { s with
    client := { s.client with isProcessing := true }
    posted := s.posted - 1
    instances := s.instances ++ [{ pc := .loopTop }]
    assertionFailed := s.assertionFailed || s.client.isProcessing }

/-- The `i`-th coroutine has gone on and has left the client as `client`; when it has ended it is gone. -/
def put (i : ℕ) (client : State Response) (s : Spawning Response) : Spawning Response :=
  { s with
    client := { client with processQueue := .idle }
    instances :=
      if client.processQueue = .idle then
        s.instances.eraseIdx i
      else
        s.instances.set i
          { pc := client.processQueue
            current := if client.processQueue = .loopTop then none else client.tasks.head?.map Task.id } }

section Step

variable [Inhabited Response]

/-- The `i`-th coroutine goes on. A coroutine whose current task has been popped by another one does
not: its behaviour is undefined. -/
def process (B : BoostUrl) (i : ℕ) (a : Action Response) (s : Spawning Response) :
    Option (Spawning Response) :=
  match s.instances[i]? with
  | none => none
  | some x =>
    if x.current = none ∨ x.current = s.client.tasks.head?.map Task.id then
      (State.step B { s.client with processQueue := x.pc } a).map (s.put i)
    else
      none

/-- One step, if the action can happen. -/
def step (B : BoostUrl) (s : Spawning Response) : SpawnAction Response → Option (Spawning Response)
  | .tick d => some { s with client := { s.client with now := s.client.now + d } }
  | .request url onContext =>
    if onContext && !s.view.callable then none else some (s.request B url onContext)
  | .connect url sni =>
    if s.view.callable then some { s with client := s.client.callConnect B url sni } else none
  | .asyncWait =>
    match s.client.spawner with
    | some id => if s.running.suspended then some { s with client := s.client.asyncWait id } else none
    | none => none
  | .asyncWaitFromOutside i =>
    match s.waits[i]? with
    | some id =>
      some { s with
        client := { s.client.asyncWait id with spawner := s.client.spawner }
        waits := s.waits.eraseIdx i }
    | none => none
  | .start => if s.view.dispatches && 0 < s.posted then some s.start else none
  | .resume i sni =>
    -- the coroutine on top of the stack
    if (s.instances.drop (i + 1)).all (·.pc.suspended) then s.process B i (.resume sni) else none
  | .complete i completion =>
    if s.view.dispatches then s.process B i (.complete completion) else none
  | .completeConnect i completion =>
    if s.view.dispatches then
      (s.client.completeConnect i completion).map fun client => { s with client := client }
    else
      none

/-- A run from the constructor's state. -/
abbrev Run (B : BoostUrl) (as : List (SpawnAction Response)) (s : Spawning Response) : Prop :=
  Runs.run (step B) {} as = some s

end Step

/-! ## One coroutine at a time -/

/-- At most one `process_queue` is alive, posted or started, and its assertion has held so far. -/
def AtMostOne (s : Spawning Response) : Prop :=
  s.posted + s.instances.length ≤ 1 ∧ s.assertionFailed = false

/-- The step is a request with a valid URL while a `process_queue` is posted that has not started. -/
def RequestWhilePosted (B : BoostUrl) (s : Spawning Response) (a : SpawnAction Response) : Prop :=
  0 < s.posted ∧ ∃ url onContext endpoint, a = .request url onContext ∧
    B.makeHttpHttpsUrl url = .ok endpoint

/-- A started coroutine has set the flag, and a posted one has not. -/
structure Flagged (s : Spawning Response) : Prop where
  atMostOne : s.AtMostOne
  client : s.client.processQueue = .idle
  started : s.instances ≠ [] → s.client.isProcessing = true
  posted : 0 < s.posted → s.client.isProcessing = false

/-- At the start the flag is clear. -/
theorem flagged_init : Flagged ({} : Spawning Response) :=
  ⟨⟨Nat.zero_le 1, rfl⟩, rfl, fun h => absurd rfl h, fun h => absurd h (lt_irrefl 0)⟩

/-- What the client does without touching the flag. -/
theorem Flagged.of_client {s : Spawning Response} (h : s.Flagged) {client : State Response}
    (hidle : client.processQueue = .idle) (hflag : client.isProcessing = s.client.isProcessing)
    (waits : List ℕ) : Flagged { s with client := client, waits := waits } where
  atMostOne := h.atMostOne
  client := hidle
  started hne := hflag.trans (h.started hne)
  posted hpos := hflag.trans (h.posted hpos)

/-- With a coroutine started there is no other. -/
theorem Flagged.alone {s : Spawning Response} (h : s.Flagged) {i : ℕ} {x : Instance}
    (hi : s.instances[i]? = some x) : i = 0 ∧ s.instances = [x] ∧ s.posted = 0 := by
  have hlen := h.atMostOne.1
  obtain ⟨hlt, hx⟩ := List.getElem?_eq_some_iff.mp hi
  have hone : s.instances.length = 1 := by omega
  obtain ⟨y, hy⟩ := List.length_eq_one_iff.mp hone
  have hzero : i = 0 := by omega
  subst hzero
  simp only [hy, List.getElem_cons_zero] at hx
  exact ⟨rfl, by rw [hy, hx], by omega⟩

/-- A request when nothing is posted: it starts or posts a coroutine only when there is none. -/
theorem Flagged.request {s : Spawning Response} (h : s.Flagged) (B : BoostUrl) (url : String)
    (onContext : Bool) (hgood : ¬ s.RequestWhilePosted B (.request url onContext)) :
    (s.request B url onContext).Flagged := by
  cases hurl : B.makeHttpHttpsUrl url with
  | error ec =>
    have hsame : s.request B url onContext = s := by
      simp only [Spawning.request, State.request, hurl, h.client, reduceCtorEq, if_false, ite_self]
    rw [hsame]
    exact h
  | ok endpoint =>
    have hposted : s.posted = 0 := by
      by_contra hne
      exact hgood ⟨Nat.pos_of_ne_zero hne, url, onContext, endpoint, rfl, hurl⟩
    cases hflag : s.client.isProcessing with
    | true =>
      -- the flag keeps `enqueue_task` from spawning
      cases onContext with
      | true =>
        simp only [Spawning.request, State.request, State.record, hurl, hflag, if_true, h.client,
          reduceCtorEq, if_false]
        apply h.of_client
        · rfl
        · exact hflag.symm
      | false =>
        simp only [Spawning.request, State.record, hurl, hflag, if_true, Bool.false_eq_true, if_false]
        apply h.of_client
        · exact h.client
        · exact hflag.symm
    | false =>
      have hnone : s.instances = [] := by
        by_contra hne
        rw [h.started hne] at hflag
        cases hflag
      cases onContext with
      | true =>
        simp only [Spawning.request, State.request, State.record, hurl, hflag, if_true,
          Bool.false_eq_true, if_false, hnone]
        refine ⟨⟨by simp [hposted], h.atMostOne.2⟩, rfl, fun _ => rfl, fun hpos => ?_⟩
        rw [hposted] at hpos
        omega
      | false =>
        simp only [Spawning.request, State.record, hurl, hflag, Bool.false_eq_true, if_false]
        exact ⟨⟨by simp [hposted, hnone], h.atMostOne.2⟩, h.client, fun hne => absurd hnone hne,
          fun _ => rfl⟩

/-- Then a posted coroutine starts as the only one, and its assertion holds. -/
theorem Flagged.start {s : Spawning Response} (h : s.Flagged) (hposted : 0 < s.posted) :
    s.start.Flagged := by
  have hlen := h.atMostOne.1
  have hnone : s.instances = [] := List.length_eq_zero_iff.mp (by omega)
  refine ⟨⟨?_, ?_⟩, h.client, fun _ => rfl, fun hpos => ?_⟩
  · simp only [Spawning.start, hnone, List.nil_append, List.length_singleton]
    omega
  · simp only [Spawning.start, h.atMostOne.2, h.posted hposted, Bool.or_self]
  · simp only [Spawning.start] at hpos
    omega

variable [Inhabited Response] {B : BoostUrl}

/-- A step of `process_queue` leaves the flag alone, or it is the last one. -/
theorem flag_of_step {s t : State Response} {a : Action Response} (ha : ∀ url, a ≠ .request url)
    (hstep : State.step B s a = some t) :
    t.isProcessing = s.isProcessing ∨ t.processQueue = .idle := by
  cases State.transition_of_step hstep with
  | requestRefused | requestQueued | requestSpawned => exact absurd rfl (ha _)
  | finished => exact Or.inr rfl
  | connectRefused | connectFailed => exact Or.inl (State.fail_isProcessing _ _ _)
  | writeFailed | answered | readFailed => exact Or.inl (State.invokeHandler_isProcessing _ _ _ _)
  | _ => exact Or.inl rfl

/-- A step of a coroutine keeps the flag. -/
theorem Flagged.process {s t : Spawning Response} (h : s.Flagged) {i : ℕ} {a : Action Response}
    (ha : ∀ url, a ≠ .request url) (hp : s.process B i a = some t) : t.Flagged := by
  unfold Spawning.process at hp
  split at hp
  · cases hp
  · rename_i x hx
    split at hp
    · obtain ⟨client, hclient, rfl⟩ := Option.map_eq_some_iff.mp hp
      obtain ⟨rfl, hinstances, hposted⟩ := h.alone hx
      have hflag : s.client.isProcessing = true := h.started (by simp [hinstances])
      refine ⟨⟨?_, h.atMostOne.2⟩, rfl, fun hne => ?_, fun hpos => ?_⟩
      · simp only [put, hinstances, hposted, List.eraseIdx_cons_zero, List.set_cons_zero]
        split <;> simp
      · rcases flag_of_step ha hclient with hsame | hidle
        · exact hsame.trans hflag
        · simp [put, hidle, hinstances] at hne
      · simp only [put, hposted] at hpos
        omega
    · cases hp

omit [Inhabited Response] in
/-- `connect` leaves the flag and `process_queue` alone. -/
theorem callConnect_isProcessing (s : State Response) (url : String) (sni : Bool) :
    (s.callConnect B url sni).isProcessing = s.isProcessing
      ∧ (s.callConnect B url sni).processQueue = s.processQueue := by
  unfold State.callConnect
  split <;> exact ⟨rfl, rfl⟩

omit [Inhabited Response] in
/-- So does `async_wait`. -/
theorem asyncWait_isProcessing (s : State Response) (id : ℕ) :
    (s.asyncWait id).isProcessing = s.isProcessing
      ∧ (s.asyncWait id).processQueue = s.processQueue := by
  unfold State.asyncWait
  split <;> exact ⟨rfl, rfl⟩

omit [Inhabited Response] in
/-- So does a completion of `connect`. -/
theorem completeConnect_isProcessing {s t : State Response} {i : ℕ} {completion : Completion Response}
    (h : s.completeConnect i completion = some t) :
    t.isProcessing = s.isProcessing ∧ t.processQueue = s.processQueue := by
  unfold State.completeConnect at h
  split at h
  · cases h
  · split at h
    · cases h
    all_goals
      cases h
      exact ⟨rfl, rfl⟩

/-- A step that is no request while a coroutine is posted keeps the invariant. -/
theorem Flagged.step {s t : Spawning Response} {a : SpawnAction Response} (h : s.Flagged)
    (hgood : ¬ s.RequestWhilePosted B a) (hstep : Spawning.step B s a = some t) : t.Flagged := by
  cases a with
  | tick d =>
    cases hstep
    apply h.of_client
    · exact h.client
    · rfl
  | request url onContext =>
    simp only [Spawning.step] at hstep
    split at hstep
    · cases hstep
    · cases hstep
      exact h.request B url onContext hgood
  | connect url sni =>
    simp only [Spawning.step] at hstep
    split at hstep
    · cases hstep
      obtain ⟨hflag, hpc⟩ := callConnect_isProcessing (B := B) s.client url sni
      exact h.of_client (hpc.trans h.client) hflag _
    · cases hstep
  | asyncWait =>
    simp only [Spawning.step] at hstep
    split at hstep
    · split at hstep
      · rename_i id _ _
        cases hstep
        obtain ⟨hflag, hpc⟩ := asyncWait_isProcessing s.client id
        exact h.of_client (hpc.trans h.client) hflag _
      · cases hstep
    · cases hstep
  | asyncWaitFromOutside i =>
    simp only [Spawning.step] at hstep
    split at hstep
    · rename_i id _
      cases hstep
      obtain ⟨hflag, hpc⟩ := asyncWait_isProcessing s.client id
      apply h.of_client
      · exact hpc.trans h.client
      · exact hflag
    · cases hstep
  | start =>
    simp only [Spawning.step] at hstep
    split at hstep
    · rename_i hc
      rw [Bool.and_eq_true, decide_eq_true_eq] at hc
      cases hstep
      exact h.start hc.2
    · cases hstep
  | resume i sni =>
    simp only [Spawning.step] at hstep
    split at hstep
    · refine h.process ?_ hstep
      intro url
      simp
    · cases hstep
  | complete i completion =>
    simp only [Spawning.step] at hstep
    split at hstep
    · refine h.process ?_ hstep
      intro url
      simp
    · cases hstep
  | completeConnect i completion =>
    simp only [Spawning.step] at hstep
    split at hstep
    · obtain ⟨client, hclient, rfl⟩ := Option.map_eq_some_iff.mp hstep
      obtain ⟨hflag, hpc⟩ := completeConnect_isProcessing hclient
      exact h.of_client (hpc.trans h.client) hflag _
    · cases hstep

/-- A request while a coroutine is posted makes a second one: the flag is still unset. -/
theorem not_atMostOne_of_requestWhilePosted {s t : Spawning Response} {a : SpawnAction Response}
    (h : s.Flagged) (hbad : s.RequestWhilePosted B a) (hstep : Spawning.step B s a = some t) :
    ¬ t.AtMostOne := by
  obtain ⟨hposted, url, onContext, endpoint, rfl, hurl⟩ := hbad
  have hflag := h.posted hposted
  simp only [Spawning.step] at hstep
  split at hstep
  · cases hstep
  · cases hstep
    rintro ⟨hle, -⟩
    cases onContext with
    | true =>
      simp only [Spawning.request, State.request, State.record, hurl, hflag, if_true,
        Bool.false_eq_true, if_false, List.length_append, List.length_singleton] at hle
      omega
    | false =>
      simp only [Spawning.request, hurl, hflag, Bool.false_eq_true, if_false] at hle
      omega

/-- Over every run: at most one `process_queue` is ever alive and the assertion at its start always
holds, if and only if no request with a valid URL comes in while a `process_queue` that an earlier
request has posted has not started. -/
theorem atMostOne_iff {as : List (SpawnAction Response)} {s : Spawning Response} (h : Run B as s) :
    Runs.Along (Spawning.step B) AtMostOne {} as
      ↔ Runs.StepsMeet (Spawning.step B) (fun u a => ¬ u.RequestWhilePosted B a) {} as := by
  refine Runs.along_iff_stepsMeet Flagged flagged_init (fun u hu => hu.atMostOne) ?_ ?_ h
  · intro u a v hu hgood hstep
    exact hu.step hgood hstep
  · intro u a v hu hbad hstep
    exact not_atMostOne_of_requestWhilePosted hu (not_not.mp hbad) hstep

/-! ## Two requests from another executor -/

/-- Two requests are made before the first coroutine starts. Both coroutines start; the first waits in
`connect` while the second fails the task that the first has as its current one, and pops it. -/
def twoPosted : List (SpawnAction Unit) :=
  [.request "https://broker/orders" false, .asyncWaitFromOutside 0,
    .request "https://broker/orders" false, .asyncWaitFromOutside 0, .start, .resume 0 true,
    .resume 0 true, .start, .resume 1 true, .resume 1 true, .resume 1 true]

/-- Both requests post `process_queue`, and the assertion fails. -/
theorem two_posted_coroutines :
    ∃ t, Run exampleUrls twoPosted t ∧ t.instances.length = 2 ∧ t.assertionFailed = true ∧
      t.instances.map Instance.current = [some 0, none] ∧ t.client.tasks.map Task.id = [1] ∧
      ¬ Runs.Along (Spawning.step exampleUrls) AtMostOne {} twoPosted := by
  have hrun : (Runs.run (Spawning.step exampleUrls) {} twoPosted).map
      (fun t => (t.instances.length, t.assertionFailed, t.instances.map Instance.current,
        t.client.tasks.map Task.id)) = some (2, true, [some 0, none], [1]) := by
    decide +kernel
  obtain ⟨t, ht, hobserved⟩ := Option.map_eq_some_iff.mp hrun
  simp only [Prod.mk.injEq] at hobserved
  obtain ⟨hinstances, hassert, hcurrent, htasks⟩ := hobserved
  refine ⟨t, ht, hinstances, hassert, hcurrent, htasks, fun halong => ?_⟩
  have hle := (halong twoPosted t List.prefix_rfl ht).1
  omega

/-- A request from another executor, and one on the io_context when its coroutine has started. -/
def onePosted : List (SpawnAction Unit) :=
  [.request "https://broker/orders" false, .asyncWaitFromOutside 0, .start, .resume 0 true,
    .resume 0 true, .request "http://data/bars" true, .complete 0 State.succeeds]

/-- A request that comes when the coroutine has started posts none. -/
theorem atMostOne_of_onePosted :
    Runs.Along (Spawning.step exampleUrls) AtMostOne {} onePosted := by
  have hrun : (Runs.run (Spawning.step exampleUrls) {} onePosted).isSome = true := by decide +kernel
  obtain ⟨t, ht⟩ := Option.isSome_iff_exists.mp hrun
  refine (atMostOne_iff ht).mpr (Runs.StepsMeet.of_checkSteps
    (g := fun u a => u.posted = 0 || match a with | .request _ _ => false | _ => true) ?_ ?_)
  · rintro u a hcheck ⟨hposted, url, onContext, endpoint, rfl, -⟩
    simp only [Bool.or_false, decide_eq_true_eq] at hcheck
    omega
  · decide +kernel

end Spawning

end MacdTradingBot
