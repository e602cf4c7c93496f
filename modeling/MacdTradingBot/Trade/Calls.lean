import MacdTradingBot.Rest.OneOrigin
import MacdTradingBot.Trade.Client

/-!
# The calls of the trade client

The trade client has a REST client of its own, and makes one request for each call of a method. A run of the
trade client is a run of that REST client whose requests all go to the API, so what holds of requests holds
of calls: they return once, in order; the keys are only ever written to a TLS connection to the API; and
thirty seconds after the first one no call succeeds any more.
-/

namespace MacdTradingBot

namespace State

variable {Response : Type} [Inhabited Response] {B : BoostUrl} {s t : State Response} {a : Action Response}

/-- Where the tasks of the queue come from. -/
theorem task_of_step (hstep : step B s a = some t) {task : Task} (hmem : task ∈ t.tasks) :
    (∃ task' ∈ s.tasks, task'.id = task.id ∧ task'.endpoint = task.endpoint) ∨
      ∃ url, a = .request url ∧ task.id = s.nextTask ∧ B.makeHttpHttpsUrl url = .ok task.endpoint := by
  have hold : task ∈ s.tasks → (∃ task' ∈ s.tasks, task'.id = task.id ∧ task'.endpoint = task.endpoint) ∨
      ∃ url, a = .request url ∧ task.id = s.nextTask ∧ B.makeHttpHttpsUrl url = .ok task.endpoint :=
    fun hmem => Or.inl ⟨task, hmem, rfl, rfl⟩
  cases transition_of_step hstep with
  | requestQueued _ valid | requestSpawned _ valid =>
    rcases List.mem_append.mp hmem with hmem | hmem
    · exact hold hmem
    · obtain rfl := List.mem_singleton.mp hmem
      exact Or.inr ⟨_, rfl, rfl, valid⟩
  | handlerSet =>
    obtain ⟨task', hmem', rfl⟩ := List.mem_map.mp hmem
    refine Or.inl ⟨task', hmem', ?_, ?_⟩
    · split <;> rfl
    · split <;> rfl
  | popped _ tasks =>
    apply hold
    rw [tasks]
    exact List.mem_cons_of_mem _ hmem
  | connectRefused | connectFailed | writeFailed | answered | readFailed => exact hold (by simpa using hmem)
  | tick | requestRefused | callReturned | callSuspended | handlerLost | finished | newConnection | shutdownTls
  | shutdownTcp | reused | connectSuspended | shutdownReturned | shutdownThrew | connectAdvanced
  | connectSucceeded | written | callAdvanced | callDone => exact hold hmem

/-- A request gets the next number, if its URL is accepted; no other step gives one out. -/
theorem nextTask_of_step (hstep : step B s a = some t) :
    t.nextTask = s.nextTask ∨ t.nextTask = s.nextTask + 1 ∧
      ∃ url endpoint, a = .request url ∧ B.makeHttpHttpsUrl url = .ok endpoint := by
  cases transition_of_step hstep with
  | requestQueued _ valid | requestSpawned _ valid => exact Or.inr ⟨rfl, _, _, rfl, valid⟩
  | connectRefused | connectFailed => exact Or.inl (by simp)
  | writeFailed | answered | readFailed => exact Or.inl (by simp)
  | tick | requestRefused | callReturned | callSuspended | handlerSet | handlerLost | finished | newConnection
  | shutdownTls | shutdownTcp | reused | connectSuspended | popped | shutdownReturned | shutdownThrew
  | connectAdvanced | connectSucceeded | written | callAdvanced | callDone => exact Or.inl rfl

/-- A request to a valid URL takes a number. -/
theorem nextTask_of_request {url : String} {endpoint : Url} (hstep : step B s (.request url) = some t)
    (hurl : B.makeHttpHttpsUrl url = .ok endpoint) : t.nextTask = s.nextTask + 1 := by
  cases transition_of_step hstep with
  | requestRefused _ invalid =>
    rw [invalid] at hurl
    cases hurl
  | requestQueued | requestSpawned => rfl

end State

namespace AlpacaTradeClient

open Http

/-- `http::response{}`. -/
instance : Inhabited Response := ⟨{ version := 11, resultInt := 200, reason := [], fields := [], body := [] }⟩

/-- The trade client: its REST client, and the calls that have made a request, in order. -/
structure Client where
  rest : State Response := {}
  calls : List Method := []

/-- A method is called, or the REST client goes on. -/
inductive ClientAction
  | call (m : Method)
  | rest (a : Action Response)

/-- Nobody but the trade client makes requests of its REST client. -/
def isOwn : Action Response → Bool
  | .request _ | .connect _ _ => false
  | .tick _ | .asyncWait | .resume _ | .complete _ | .completeConnect _ _ => true

/-- What the action is for the REST client. A call whose arguments cannot be written makes no request. -/
def ClientAction.toRest (J : TradeLibrary) (cfg : Config) : ClientAction → Option (Action Response)
  | .call m =>
    match m.request J with
    | .error _ => none
    | .ok r => some (.request (r.url cfg))
  | .rest a => some a

/-- One step, if the action can happen. -/
def step (B : BoostUrl) (J : TradeLibrary) (cfg : Config) (s : Client) : ClientAction → Option Client
  | .call m =>
    match m.request J with
    | .error _ => if s.rest.callable then some s else none
    | .ok r =>
      (State.step B s.rest (.request (r.url cfg))).map fun rest =>
        -- a URL that is refused throws before there is a task
        { rest, calls := if rest.nextTask = s.rest.nextTask then s.calls else s.calls ++ [m] }
  | .rest a => if isOwn a then (State.step B s.rest a).map fun rest => { s with rest } else none

/-- A run from the constructor's state. -/
abbrev Run (B : BoostUrl) (J : TradeLibrary) (cfg : Config) (as : List ClientAction) (s : Client) : Prop :=
  Runs.run (step B J cfg) {} as = some s

variable {L : UrlLibrary} {J : TradeLibrary} {cfg : Config} {s t : Client} {a : ClientAction}

/-- The steps of the trade client. -/
inductive Transition (L : UrlLibrary) (J : TradeLibrary) (cfg : Config) (s : Client) :
    ClientAction → Client → Prop
  | called {m : Method} {r : ApiRequest m.Value} {rest : State Response} (request : m.request J = .ok r)
      (stepped : State.step L.boostUrl s.rest (.request (r.url cfg)) = some rest)
      (next : rest.nextTask = s.rest.nextTask + 1) :
      Transition L J cfg s (.call m) { rest, calls := s.calls ++ [m] }
  | own {b : Action Response} {rest : State Response} (own : isOwn b = true)
      (stepped : State.step L.boostUrl s.rest b = some rest) : Transition L J cfg s (.rest b) { s with rest }

/-- A step is one of the transitions. -/
theorem transition_of_step (hL : L.Lawful .rfc3986) (h : step L.boostUrl J cfg s a = some t) :
    Transition L J cfg s a t := by
  cases a with
  | call m =>
    obtain ⟨r, request⟩ := exists_request J m
    simp only [step, request] at h
    obtain ⟨rest, stepped, rfl⟩ := Option.map_eq_some_iff.mp h
    have next := State.nextTask_of_request stepped (makeHttpHttpsUrl_url hL cfg request)
    rw [if_neg (by omega)]
    exact .called request stepped next
  | rest b =>
    obtain ⟨own, h⟩ := Option.ite_none_right_eq_some.mp h
    obtain ⟨rest, stepped, rfl⟩ := Option.map_eq_some_iff.mp h
    exact .own own stepped

/-! ## The run of the REST client -/

/-- The origin of a URL does not depend on its target. -/
theorem ignoresTarget_boostUrl (L : UrlLibrary) : L.boostUrl.IgnoresTarget := fun _ => rfl

/-- The actions of the REST client in a run. -/
def restActions (J : TradeLibrary) (cfg : Config) (as : List ClientAction) : List (Action Response) :=
  as.filterMap (ClientAction.toRest J cfg)

/-- The last action comes last. -/
theorem restActions_concat (as : List ClientAction) (a : ClientAction) :
    restActions J cfg (as ++ [a]) = restActions J cfg as ++ (a.toRest J cfg).toList := by
  rw [restActions, List.filterMap_append]
  cases h : a.toRest J cfg <;> simp [h, restActions]

/-- A step of the trade client is a step of its REST client. -/
theorem Transition.toRest (h : Transition L J cfg s a t) :
    ∃ b, a.toRest J cfg = some b ∧ State.step L.boostUrl s.rest b = some t.rest := by
  cases h with
  | called request stepped => exact ⟨_, by simp only [ClientAction.toRest, request], stepped⟩
  | own _ stepped => exact ⟨_, rfl, stepped⟩

/-- The REST client does not know whose it is. -/
theorem rest_of_run (hL : L.Lawful .rfc3986) {as : List ClientAction} (h : Run L.boostUrl J cfg as s) :
    State.Run L.boostUrl (restActions J cfg as) s.rest := by
  induction as using List.reverseRecOn generalizing s with
  | nil =>
    obtain rfl : ({} : Client) = s := Option.some.inj h
    rfl
  | append_singleton as a ih =>
    obtain ⟨u, hu, hstep⟩ := Runs.run_concat.mp h
    obtain ⟨b, hb, hrest⟩ := (transition_of_step hL hstep).toRest
    rw [restActions_concat, hb]
    exact Runs.run_concat.mpr ⟨u.rest, ih hu, hrest⟩

/-- All requests go to the API. -/
theorem forOrigin_of_run (hL : L.Lawful .rfc3986) {as : List ClientAction} (h : Run L.boostUrl J cfg as s) :
    ∀ b ∈ restActions J cfg as, State.ForOrigin L.boostUrl cfg.origin b := by
  induction as using List.reverseRecOn generalizing s with
  | nil => exact fun b hb => by cases hb
  | append_singleton as a ih =>
    obtain ⟨u, hu, hstep⟩ := Runs.run_concat.mp h
    rw [restActions_concat]
    intro b hb
    rcases List.mem_append.mp hb with hb | hb
    · exact ih hu b hb
    cases transition_of_step hL hstep with
    | @called m r _ request =>
      simp only [ClientAction.toRest, request, Option.toList_some, List.mem_singleton] at hb
      subst hb
      refine ⟨by simp [State.IsNoCall], fun url endpoint hurl hok => ?_⟩
      cases hurl
      rw [makeHttpHttpsUrl_url hL cfg request, Except.ok.injEq] at hok
      rw [← hok]
      rfl
    | @own c _ own =>
      obtain rfl : b = c := by simpa [ClientAction.toRest] using hb
      refine ⟨?_, ?_⟩
      · rintro url sni rfl
        cases own
      · rintro url endpoint rfl
        cases own

/-- No host name fails that did not fail before. -/
theorem forall_restActions {as : List ClientAction} (ha : ∀ a ∈ as, a ≠ .rest (.resume false)) :
    ∀ b ∈ restActions J cfg as, b ≠ .resume false := by
  intro b hb
  obtain ⟨a, hmem, hab⟩ := List.mem_filterMap.mp hb
  cases a with
  | call m =>
    simp only [ClientAction.toRest] at hab
    split at hab
    · cases hab
    · cases hab
      simp
  | rest c =>
    cases hab
    rintro rfl
    exact ha _ hmem rfl

/-! ## Which call a task belongs to -/

/-- The task was made for the call of its number. -/
def Asks (J : TradeLibrary) (cfg : Config) (calls : List Method) (task : Task) : Prop :=
  ∃ m r, calls[task.id]? = some m ∧ m.request J = .ok r ∧ task.endpoint = r.target cfg

/-- Later calls do not matter for a task. -/
theorem Asks.append {calls : List Method} {task : Task} (h : Asks J cfg calls task) (more : List Method) :
    Asks J cfg (calls ++ more) task := by
  obtain ⟨m, r, hm, hr, hendpoint⟩ := h
  refine ⟨m, r, ?_, hr, hendpoint⟩
  rw [List.getElem?_append_left (List.getElem?_eq_some_iff.mp hm).1]
  exact hm

/-- The tasks of the REST client and the calls. -/
structure Tracks (J : TradeLibrary) (cfg : Config) (s : Client) : Prop where
  length : s.calls.length = s.rest.nextTask
  tasks : ∀ task ∈ s.rest.tasks, Asks J cfg s.calls task
  sent : ∀ task conn now, .sent task conn now ∈ s.rest.log → Asks J cfg s.calls task

/-- Every step keeps calls and tasks in line. -/
theorem Tracks.step (h : Tracks J cfg s) (hL : L.Lawful .rfc3986) (hstep : Transition L J cfg s a t) :
    Tracks J cfg t := by
  have hlength := h.length
  have hsent : ∀ {b : Action Response} {rest : State Response} {calls : List Method},
      State.step L.boostUrl s.rest b = some rest →
      (∀ task, Asks J cfg s.calls task → Asks J cfg calls task) →
      (∀ task ∈ rest.tasks, Asks J cfg calls task) →
      ∀ task conn now, .sent task conn now ∈ rest.log → Asks J cfg calls task := by
    intro b rest calls stepped hmore htasks task conn now hmem
    rcases State.sent_of_step stepped hmem with hold | ⟨-, -, -, rest', hcons⟩
    · exact hmore task (h.sent task conn now hold)
    · apply htasks task
      rw [hcons]
      exact List.mem_cons_self
  cases hstep with
  | @called m r rest request stepped next =>
    have htasks : ∀ task ∈ rest.tasks, Asks J cfg (s.calls ++ [m]) task := by
      intro task hmem
      rcases State.task_of_step stepped hmem with ⟨task', hmem', hid, hendpoint⟩ | ⟨url, hurl, hid, hok⟩
      · obtain ⟨m', r', hm', hr', hendpoint'⟩ := (h.tasks task' hmem').append [m]
        rw [hid] at hm'
        exact ⟨m', r', hm', hr', hendpoint.symm.trans hendpoint'⟩
      · cases hurl
        rw [makeHttpHttpsUrl_url hL cfg request, Except.ok.injEq] at hok
        refine ⟨m, r, ?_, request, hok.symm⟩
        rw [hid, ← hlength, List.getElem?_concat_length]
    refine ⟨?_, htasks, hsent stepped (fun _ hasks => hasks.append [m]) htasks⟩
    rw [List.length_append, List.length_singleton, hlength, next]
  | @own b rest own stepped =>
    have hnone : ∀ url, b ≠ .request url := by
      rintro url rfl
      cases own
    have htasks : ∀ task ∈ rest.tasks, Asks J cfg s.calls task := by
      intro task hmem
      rcases State.task_of_step stepped hmem with ⟨task', hmem', hid, hendpoint⟩ | ⟨url, hurl, -⟩
      · obtain ⟨m', r', hm', hr', hendpoint'⟩ := h.tasks task' hmem'
        rw [hid] at hm'
        exact ⟨m', r', hm', hr', hendpoint.symm.trans hendpoint'⟩
      · exact absurd hurl (hnone url)
    refine ⟨?_, htasks, hsent stepped (fun _ hasks => hasks) htasks⟩
    rcases State.nextTask_of_step stepped with hnext | ⟨-, url, -, hurl, -⟩
    · exact hlength.trans hnext.symm
    · exact absurd hurl (hnone url)

/-- A run keeps calls and tasks in line. -/
theorem tracks_of_run (hL : L.Lawful .rfc3986) {as : List ClientAction} (h : Run L.boostUrl J cfg as s) :
    Tracks J cfg s := by
  refine Runs.invariant_of_stepsMeet (G := fun _ _ => True) (Tracks J cfg) ?_ ?_ (fun _ _ _ _ _ => trivial) h
  · exact ⟨rfl, by simp, by simp⟩
  · exact fun u a v hu _ hstep => hu.step hL (transition_of_step hL hstep)

/-! ## Where the keys go -/

/-- The stream is connected to the API, by TLS. -/
structure ToApi (cfg : Config) (conn : Connection) : Prop where
  tls : conn.isTls = true
  secured : (conn.stream conn.isTls).secured = true
  peer : ∃ url, (conn.stream conn.isTls).peer = some url ∧ url.scheme = "https" ∧ url.host = cfg.host ∧
    url.port = some "443"

/-- In every run, whatever fails: what is written is the message of a call, with the two keys once each, on a
TLS stream that is connected to the API, and the text of it that is logged does not depend on the keys. -/
theorem keys_only_to_api (hL : L.Lawful .rfc3986) {H : HttpLibrary} (hH : H.Lawful)
    (hlog : RespectsLog H.prepareEmpty ∧ RespectsLog H.prepareString) {as : List ClientAction}
    (h : Run L.boostUrl J cfg as s) {task : Task} {conn : Connection} {now : ℕ}
    (hsent : .sent task conn now ∈ s.rest.log) :
    ToApi cfg conn ∧ ∃ m r, s.calls[task.id]? = some m ∧ m.request J = .ok r ∧
      CarriesKeys cfg (r.message H cfg task.endpoint).fields ∧
        ∀ key secret, (r.message H { cfg with apiKey := key, apiSecret := secret } task.endpoint).format
          = (r.message H cfg task.endpoint).format := by
  have hrest := rest_of_run hL h
  have hB := UrlLibrary.boostUrl_lawful hL
  obtain ⟨-, -, hlinked⟩ := State.linked_of_run hB (fun b hb => (forOrigin_of_run hL h b hb).1) hrest
  obtain ⟨m, r, hm, hr, hendpoint⟩ := (tracks_of_run hL h).sent task conn now hsent
  have hpeer := (hlinked.sent task conn now hsent).rightPeer
  refine ⟨?_, m, r, hm, hr, carriesKeys_message hH cfg _ hr, fun key secret =>
    format_message_eq hlog key secret _ hr⟩
  have htls := hpeer.tls.mpr (by rw [hendpoint]; rfl)
  obtain ⟨url, hurl, hscheme, hhost, hport⟩ := hpeer.peer
  rw [hendpoint] at hscheme hhost hport
  exact ⟨htls, hpeer.secured htls, url, hurl, hscheme, hhost, hport⟩

/-! ## What the calls return -/

/-- What the REST client has returned, in order. -/
def completions (log : List (Event Response)) : List (ℕ × Option ErrorCode × Response) :=
  log.filterMap fun
    | .completed id ec res => some (id, ec, res)
    | _ => none

/-- What a call returns when the REST client returns to it. -/
def returned (J : TradeLibrary) (calls : List Method) (completion : ℕ × Option ErrorCode × Response) :
    Option (Σ m : Method, Except AlpacaApiError m.Value) :=
  calls[completion.1]?.bind fun m =>
    (m.request J).toOption.map fun r => ⟨m, r.finish J completion.2.1 completion.2.2⟩

/-- What the calls have returned, in order. -/
def results (J : TradeLibrary) (s : Client) : List (Σ m : Method, Except AlpacaApiError m.Value) :=
  (completions s.rest.log).filterMap (returned J s.calls)

/-- The tasks that were completed. -/
theorem map_fst_completions (log : List (Event Response)) :
    (completions log).map Prod.fst = State.completedIds log := by
  rw [completions, State.completedIds, List.map_filterMap]
  congr 1
  funext e
  cases e <;> rfl

/-- The completions are those of the record. -/
theorem mem_completions {log : List (Event Response)} {id : ℕ} {ec : Option ErrorCode} {res : Response} :
    (id, ec, res) ∈ completions log ↔ .completed id ec res ∈ log := by
  rw [completions, List.mem_filterMap]
  constructor
  · rintro ⟨e, he, hmatch⟩
    cases e with
    | completed id' ec' res' =>
      cases hmatch
      exact he
    | enqueued | sent | failedWithoutHandler | waitOnDestroyed | badFunctionCall | shutdownThrew =>
      cases hmatch
  · exact fun he => ⟨_, he, rfl⟩

/-- Of a list whose entries are numbered, and of which each entry gives a result, the results are numbered
alike. -/
theorem filterMap_of_numbered {α β : Type} {l : List (ℕ × α)} {f : ℕ × α → Option β} {n : ℕ}
    (hids : l.map Prod.fst = List.range n) (hf : ∀ i < n, ∀ a, (f (i, a)).isSome = true) :
    (l.filterMap f).length = n ∧ ∀ i b, (l.filterMap f)[i]? = some b → ∃ a, (i, a) ∈ l ∧ f (i, a) = some b := by
  induction l using List.reverseRecOn generalizing n with
  | nil =>
    have hn : n = 0 := by simpa using congrArg List.length hids.symm
    exact ⟨hn.symm, by simp⟩
  | append_singleton l x ih =>
    obtain ⟨k, rfl⟩ : ∃ k, n = k + 1 := ⟨l.length, by simpa using congrArg List.length hids.symm⟩
    rw [List.map_append, List.range_succ] at hids
    obtain ⟨hfront, hlast⟩ := List.append_inj' hids rfl
    obtain ⟨i, a⟩ := x
    obtain rfl : i = k := by simpa using hlast
    obtain ⟨hlength, hget⟩ := ih hfront fun j hj => hf j (by omega)
    obtain ⟨b, hb⟩ := Option.isSome_iff_exists.mp (hf i (by omega) a)
    have happend : (l ++ [(i, a)]).filterMap f = l.filterMap f ++ [b] := by
      rw [List.filterMap_append, List.filterMap_cons_some hb, List.filterMap_nil]
    rw [happend, List.length_append, List.length_singleton, hlength]
    refine ⟨rfl, fun j c hj => ?_⟩
    rcases Nat.lt_or_ge j i with hlt | hge
    · rw [List.getElem?_append_left (by omega)] at hj
      obtain ⟨a', hmem, hfa⟩ := hget j c hj
      exact ⟨a', List.mem_append_left _ hmem, hfa⟩
    · rw [List.getElem?_append_right (by omega), hlength, List.getElem?_singleton] at hj
      obtain ⟨hzero, hbc⟩ := Option.ite_none_right_eq_some.mp hj
      cases hbc
      obtain rfl : j = i := by omega
      exact ⟨a, by simp, hb⟩

/-- The results, against the record. -/
theorem results_spec (htracks : Tracks J cfg s) (hfifo : s.rest.Fifo) :
    (results J s).length = (State.completedIds s.rest.log).length ∧
      ∀ i m result, (results J s)[i]? = some ⟨m, result⟩ → s.calls[i]? = some m ∧
        ∃ r ec res, m.request J = .ok r ∧ .completed i ec res ∈ s.rest.log ∧ result = r.finish J ec res := by
  have hprefix : State.completedIds s.rest.log <+: List.range s.rest.nextTask := by
    rw [← hfifo.queue]
    exact List.prefix_append _ _
  have hle : (State.completedIds s.rest.log).length ≤ s.rest.nextTask := by
    simpa using hprefix.length_le
  have hids : (completions s.rest.log).map Prod.fst
      = List.range (State.completedIds s.rest.log).length := by
    rw [map_fst_completions]
    conv_lhs => rw [List.prefix_iff_eq_take.mp hprefix, List.take_range, Nat.min_eq_left hle]
  have hsome : ∀ i < (State.completedIds s.rest.log).length, ∀ completion,
      (returned J s.calls (i, completion)).isSome = true := by
    intro i hi completion
    have hcall : i < s.calls.length := by
      rw [htracks.length]
      omega
    obtain ⟨r, hr⟩ := exists_request J s.calls[i]
    simp [returned, List.getElem?_eq_getElem hcall, hr, Except.toOption]
  obtain ⟨hlength, hget⟩ := filterMap_of_numbered hids hsome
  refine ⟨hlength, fun i m result hi => ?_⟩
  obtain ⟨⟨ec, res⟩, hmem, hreturned⟩ := hget i _ hi
  obtain ⟨m', hm', hresult⟩ := Option.bind_eq_some_iff.mp hreturned
  obtain ⟨r, hr, heq⟩ := Option.map_eq_some_iff.mp hresult
  cases heq
  refine ⟨hm', r, ec, res, ?_, mem_completions.mp hmem, rfl⟩
  cases hrequest : m.request J with
  | error e =>
    rw [hrequest] at hr
    cases hr
  | ok r' =>
    rw [hrequest] at hr
    cases hr
    rfl

/-- The results are those of the first calls. -/
theorem map_fst_results (htracks : Tracks J cfg s) (hfifo : s.rest.Fifo) :
    (results J s).map Sigma.fst = s.calls.take (results J s).length := by
  obtain ⟨-, hget⟩ := results_spec htracks hfifo
  apply List.ext_getElem?
  intro i
  rw [List.getElem?_map, List.getElem?_take]
  split
  · rename_i hi
    rw [List.getElem?_eq_getElem hi]
    exact (hget i _ _ (List.getElem?_eq_getElem hi)).1.symm
  · rename_i hi
    rw [List.getElem?_eq_none (by omega)]
    rfl

/-- The trade client goes on by itself. -/
def ClientAction.internal : ClientAction → Bool
  | .call _ => false
  | .rest a => a.internal

/-- Both clients take the same steps on their own. -/
theorem countP_restActions (J : TradeLibrary) (cfg : Config) (as : List ClientAction) :
    (restActions J cfg as).countP Action.internal = as.countP ClientAction.internal := by
  induction as with
  | nil => rfl
  | cons a as ih =>
    have hcons : restActions J cfg (a :: as) = (a.toRest J cfg).toList ++ restActions J cfg as := by
      rw [restActions, List.filterMap_cons]
      cases h : a.toRest J cfg <;> simp [restActions]
    rw [hcons, List.countP_append, ih]
    cases a with
    | call m =>
      obtain ⟨r, hr⟩ := exists_request J m
      simp [ClientAction.toRest, hr, ClientAction.internal, Action.internal]
    | rest b =>
      rw [List.countP_cons, Nat.add_comm]
      exact congrArg (_ + ·) (List.countP_singleton ..)

/-- What a client promises its callers: the calls return in the order in which they were made, each at most
once; a call returns a value only when the answer to its own request has the expected status and a body that
is read as the value. When the REST client has nothing to do any more, every call has returned. Until then it
can go on, and the steps that it takes by itself are bounded by the number of calls that have returned. -/
structure Serves (L : UrlLibrary) (J : TradeLibrary) (cfg : Config) (as : List ClientAction) (s : Client) :
    Prop where
  inOrder : (results J s).map Sigma.fst <+: s.calls
  value : ∀ i m v, (results J s)[i]? = some ⟨m, .ok v⟩ → ∃ r res, m.request J = .ok r ∧
    State.AnswerOf L.boostUrl (restActions J cfg as) i res ∧ J.intToStatus res.resultInt = r.expectedStatus ∧
      ∃ jv, J.parse res.body = .ok jv ∧ valueTo m.Value jv = .ok v
  ended : ¬ s.rest.Alive → (results J s).map Sigma.fst = s.calls
  goesOn : s.rest.Alive → ∃ a, a.internal = true ∧ (step L.boostUrl J cfg s a).isSome = true
  bounded : as.countP ClientAction.internal ≤ 11 * (results J s).length + 8

/-- A step of the client is its own. -/
theorem isOwn_of_internal {b : Action Response} (h : b.internal = true) : isOwn b = true := by
  cases b with
  | request | connect => cases h
  | tick | asyncWait | resume | complete | completeConnect => rfl

/-- There is a result for each completed task. -/
theorem length_results (hL : L.Lawful .rfc3986) {as : List ClientAction}
    (ha : ∀ a ∈ as, a ≠ .rest (.resume false)) (h : Run L.boostUrl J cfg as s) :
    (results J s).length = (State.completedIds s.rest.log).length := by
  have hadmissible := State.admissible_of_forOrigin (UrlLibrary.boostUrl_lawful hL) (ignoresTarget_boostUrl L)
    fun b hb => ⟨forOrigin_of_run hL h b hb, forall_restActions ha b hb⟩
  have horderly := State.orderly_of_run (UrlLibrary.boostUrl_lawful hL) hadmissible (rest_of_run hL h)
  exact (results_spec (tracks_of_run hL h) horderly.fifo).1

/-- In every run in which the TLS host name can be set, the client keeps its promise, whatever else fails. -/
theorem serves_of_run (hL : L.Lawful .rfc3986) {as : List ClientAction}
    (ha : ∀ a ∈ as, a ≠ .rest (.resume false)) (h : Run L.boostUrl J cfg as s) : Serves L J cfg as s := by
  have hB := UrlLibrary.boostUrl_lawful hL
  have hrest := rest_of_run hL h
  have hadmissible := State.admissible_of_forOrigin hB (ignoresTarget_boostUrl L)
    fun b hb => ⟨forOrigin_of_run hL h b hb, forall_restActions ha b hb⟩
  have horderly := State.orderly_of_run hB hadmissible hrest
  have htracks := tracks_of_run hL h
  obtain ⟨hlength, hget⟩ := results_spec htracks horderly.fifo
  have hfst := map_fst_results htracks horderly.fifo
  refine ⟨?_, ?_, ?_, ?_, ?_⟩
  · rw [hfst]
    exact List.take_prefix _ _
  · intro i m v hi
    obtain ⟨-, r, ec, res, hr, hmem, hfinish⟩ := hget i m _ hi
    obtain ⟨rfl, hstatus, hbody⟩ := finish_eq_ok_iff.mp hfinish.symm
    exact ⟨r, res, hr, State.answerOf_of_completed hrest hmem, hstatus, hbody⟩
  · intro hdead
    obtain ⟨-, -, hall⟩ := horderly.ended hdead
    rw [hfst, hlength, hall, horderly.fifo.enqueued, List.length_range, ← htracks.length, List.take_length]
  · intro halive
    obtain ⟨b, hinternal, -, hstep⟩ := horderly.served.canGoOn (B := L.boostUrl) halive
    refine ⟨.rest b, hinternal, ?_⟩
    rw [step, if_pos (isOwn_of_internal hinternal), Option.isSome_map]
    exact hstep
  · rw [← countP_restActions J cfg, hlength]
    exact State.internal_le hB hadmissible hrest

/-- Thirty seconds after any request was sent, the client is of no use any more: whatever is answered, a call
whose request is sent then returns a network error, if it returns. -/
theorem network_error_after_thirty_seconds (hL : L.Lawful .rfc3986) {as : List ClientAction}
    (ha : ∀ a ∈ as, a ≠ .rest (.resume false)) (h : Run L.boostUrl J cfg as s) {first task : Task}
    {conn₀ conn : Connection} {now₀ now : ℕ} (hfirst : .sent first conn₀ now₀ ∈ s.rest.log)
    (hsent : .sent task conn now ∈ s.rest.log) (hlate : now₀ + Stream.thirtySeconds ≤ now) {m : Method}
    {result : Except AlpacaApiError m.Value} (hresult : (results J s)[task.id]? = some ⟨m, result⟩) :
    ∃ e, result = .error e ∧ e.type = .networkError := by
  have hB := UrlLibrary.boostUrl_lawful hL
  have hrest := rest_of_run hL h
  have hT := ignoresTarget_boostUrl L
  have hactions : ∀ b ∈ restActions J cfg as,
      State.ForOrigin L.boostUrl cfg.origin b ∧ b ≠ .resume false :=
    fun b hb => ⟨forOrigin_of_run hL h b hb, forall_restActions ha b hb⟩
  have horderly := State.orderly_of_run hB (State.admissible_of_forOrigin hB hT hactions) hrest
  have hnone := State.unanswered_of_late hB hT hactions hrest hfirst hsent hlate
  obtain ⟨-, r, ec, res, hr, hmem, rfl⟩ := (results_spec (tracks_of_run hL h) horderly.fifo).2 _ _ _ hresult
  apply networkError_iff.mpr
  rintro rfl
  exact hnone res hmem

/-- A task is completed once. -/
theorem completion_unique {rest : State Response} (hfifo : rest.Fifo) {i : ℕ} {ec ec' : Option ErrorCode}
    {res res' : Response} (h : .completed i ec res ∈ rest.log) (h' : .completed i ec' res' ∈ rest.log) :
    ec = ec' ∧ res = res' := by
  have hnodup : ((completions rest.log).map Prod.fst).Nodup := by
    have hqueue : (State.completedIds rest.log ++ rest.waiting.map Task.id).Nodup := by
      rw [hfifo.queue]
      exact List.nodup_range
    rw [map_fst_completions]
    exact (List.nodup_append.mp hqueue).1
  have heq := List.inj_on_of_nodup_map hnodup (mem_completions.mpr h) (mem_completions.mpr h') rfl
  simpa using heq

/-- In every run in which the TLS host name can be set: a call whose request is answered by an API that
writes its values as the codecs do returns the value, whatever becomes of the other calls. -/
theorem reply_returned (hL : L.Lawful .rfc3986) {as : List ClientAction}
    (ha : ∀ a ∈ as, a ≠ .rest (.resume false)) (h : Run L.boostUrl J cfg as s) {i : ℕ} {m : Method}
    {v : m.Value} (hcall : s.calls[i]? = some m)
    (hreply : ∀ res, State.AnswerOf L.boostUrl (restActions J cfg as) i res → IsReply J m v res)
    (hanswered : ∃ res, .completed i none res ∈ s.rest.log) : (results J s)[i]? = some ⟨m, .ok v⟩ := by
  have hB := UrlLibrary.boostUrl_lawful hL
  have hrest := rest_of_run hL h
  have hadmissible := State.admissible_of_forOrigin hB (ignoresTarget_boostUrl L)
    fun b hb => ⟨forOrigin_of_run hL h b hb, forall_restActions ha b hb⟩
  have hfifo := (State.orderly_of_run hB hadmissible hrest).fifo
  obtain ⟨hlength, hget⟩ := results_spec (tracks_of_run hL h) hfifo
  obtain ⟨res, hres⟩ := hanswered
  have hi : i < (results J s).length := by
    have hid : i ∈ State.completedIds s.rest.log := List.mem_filterMap.mpr ⟨_, hres, rfl⟩
    have hprefix : State.completedIds s.rest.log <+: List.range s.rest.nextTask := by
      rw [← hfifo.queue]
      exact List.prefix_append _ _
    rw [List.prefix_iff_eq_take.mp hprefix, List.take_range, List.mem_range] at hid
    omega
  obtain ⟨⟨m', result⟩, hresult⟩ : ∃ result, (results J s)[i]? = some result :=
    ⟨_, List.getElem?_eq_getElem hi⟩
  obtain ⟨hm', r, ec, res', hr, hmem, hfinish⟩ := hget i m' result hresult
  rw [hcall, Option.some.injEq] at hm'
  subst hm'
  obtain ⟨rfl, rfl⟩ := completion_unique hfifo hres hmem
  rw [hresult, hfinish,
    finish_of_isReply hr (hreply res (State.answerOf_of_completed hrest hres))]

/-! ## Two calls -/

/-- The one text of JSON that is needed, and texts of errors. -/
def exampleLibrary : TradeLibrary where
  parse body := if body = bytes "[]" then .ok (.array []) else .error (bytes "syntax error")
  serialize _ := bytes "{}"
  message _ := bytes "The socket was closed due to a timeout"
  what _ := bytes "value is not an object"
  intToStatus := id

def exampleHttp : HttpLibrary := ⟨eraseContentLength, setContentLength, bytes "Boost.Beast/347"⟩

def exampleConfig : Config := { apiKey := bytes "key", apiSecret := bytes "secret" }

def noOrders : Completion Response := { response := { (default : Response) with body := bytes "[]" } }

/-- There are no orders; thirty seconds later the same call times out. -/
def ordersTwice : List ClientAction :=
  .call .getAllOrders :: ([.resume true, .resume true, .asyncWait, .complete noOrders, .complete noOrders,
    .complete noOrders, .complete noOrders, .complete noOrders, .resume true, .resume true,
    .tick Stream.thirtySeconds].map .rest) ++
  .call .getAllOrders :: ([.resume true, .asyncWait, .complete { noOrders with ec := some .timeout },
    .resume true, .resume true].map .rest)

/-- When the tasks were sent. -/
def sentAt (log : List (Event Response)) : List (ℕ × ℕ) :=
  log.filterMap fun
    | .sent task _ now => some (task.id, now)
    | _ => none

/-- What is listed as sent is in the record. -/
theorem exists_sent_of_mem {log : List (Event Response)} {sent : List (ℕ × ℕ)} (hsent : sentAt log = sent)
    {id now : ℕ} (h : (id, now) ∈ sent) : ∃ task conn, .sent task conn now ∈ log ∧ task.id = id := by
  rw [← hsent] at h
  obtain ⟨e, he, hmatch⟩ := List.mem_filterMap.mp h
  cases e with
  | sent task conn now' =>
    cases hmatch
    exact ⟨task, conn, he, rfl⟩
  | completed | enqueued | failedWithoutHandler | waitOnDestroyed | badFunctionCall | shutdownThrew =>
    cases hmatch

/-- The grammar of URLs is one library. -/
theorem exampleUrlLibrary_lawful : (UrlLibrary.ofGrammar .rfc3986).Lawful .rfc3986 :=
  UrlLibrary.lawful_ofGrammar .rfc3986

/-- No host name fails. -/
theorem ordersTwice_hostNames : ∀ a ∈ ordersTwice, a ≠ .rest (.resume false) := by
  simp [ordersTwice]

def isGetAllOrders : Method → Bool
  | .getAllOrders => true
  | .account | .allOpenPositions | .closeAllPositions _ | .deleteAllOrders | .createOrder _ => false

/-- The run, as far as it is needed below. -/
theorem exists_ordersTwice :
    ∃ t, Run (UrlLibrary.ofGrammar .rfc3986).boostUrl exampleLibrary exampleConfig ordersTwice t ∧
      sentAt t.rest.log = [(0, 0), (1, Stream.thirtySeconds)] ∧ State.completedIds t.rest.log = [0, 1] ∧
        (∃ res, .completed 0 none res ∈ t.rest.log) ∧ t.calls[0]? = some .getAllOrders := by
  have hrun : (Runs.run (step (UrlLibrary.ofGrammar .rfc3986).boostUrl exampleLibrary exampleConfig) {}
      ordersTwice).map (fun t => sentAt t.rest.log = [(0, 0), (1, Stream.thirtySeconds)] &&
        State.completedIds t.rest.log = [0, 1] && (completions t.rest.log).any (fun completion =>
          completion.1 = 0 && completion.2.1 = none) && t.calls[0]?.any isGetAllOrders) = some true := by
    decide +kernel
  obtain ⟨t, ht, hcheck⟩ := Option.map_eq_some_iff.mp hrun
  simp only [Bool.and_eq_true, decide_eq_true_eq] at hcheck
  obtain ⟨⟨⟨hsent, hids⟩, hany⟩, hcall⟩ := hcheck
  refine ⟨t, ht, hsent, hids, ?_, ?_⟩
  · obtain ⟨⟨id, ec, res⟩, hcompletion, hpair⟩ := List.any_eq_true.mp hany
    simp only [Bool.and_eq_true, decide_eq_true_eq] at hpair
    obtain ⟨rfl, rfl⟩ := hpair
    exact ⟨res, mem_completions.mp hcompletion⟩
  · obtain ⟨m, hm, hget⟩ := (Option.any_eq_true _ _).mp hcall
    cases m with
    | getAllOrders => exact hm
    | account | allOpenPositions | closeAllPositions | deleteAllOrders | createOrder => cases hget

/-- The first request is written with the keys, and logged without them. -/
theorem keys_only_to_api_ordersTwice :
    ∃ t task conn now m r, Run (UrlLibrary.ofGrammar .rfc3986).boostUrl exampleLibrary exampleConfig ordersTwice t ∧
      .sent task conn now ∈ t.rest.log ∧ ToApi exampleConfig conn ∧ t.calls[task.id]? = some m ∧
        m.request exampleLibrary = .ok r ∧
          CarriesKeys exampleConfig (r.message exampleHttp exampleConfig task.endpoint).fields := by
  obtain ⟨t, ht, hsent, -⟩ := exists_ordersTwice
  obtain ⟨task, conn, hmem, -⟩ := exists_sent_of_mem hsent List.mem_cons_self
  obtain ⟨hapi, m, r, hm, hr, hkeys, -⟩ := keys_only_to_api exampleUrlLibrary_lawful
    (H := exampleHttp) ⟨preparesPayload_eraseContentLength, preparesPayload_setContentLength⟩
      ⟨respectsLog_eraseContentLength, respectsLog_setContentLength⟩ ht hmem
  exact ⟨t, task, conn, 0, m, r, ht, hmem, hapi, hm, hr, hkeys⟩

/-- Two calls, the second thirty seconds later. -/
theorem serves_of_run_ordersTwice :
    ∃ t, Run (UrlLibrary.ofGrammar .rfc3986).boostUrl exampleLibrary exampleConfig ordersTwice t ∧
      Serves (UrlLibrary.ofGrammar .rfc3986) exampleLibrary exampleConfig ordersTwice t := by
  obtain ⟨t, ht, -⟩ := exists_ordersTwice
  exact ⟨t, ht, serves_of_run exampleUrlLibrary_lawful ordersTwice_hostNames ht⟩

/-- The second call comes too late. -/
theorem network_error_ordersTwice :
    ∃ t m result e, Run (UrlLibrary.ofGrammar .rfc3986).boostUrl exampleLibrary exampleConfig ordersTwice t ∧
      (results exampleLibrary t)[1]? = some ⟨m, result⟩ ∧ result = .error e ∧ e.type = .networkError := by
  obtain ⟨t, ht, hsent, hids, -⟩ := exists_ordersTwice
  obtain ⟨first, conn₀, hfirst, -⟩ := exists_sent_of_mem hsent List.mem_cons_self
  obtain ⟨task, conn, hmem, hid⟩ := exists_sent_of_mem hsent
    (List.mem_cons_of_mem _ List.mem_cons_self)
  have hlength := length_results exampleUrlLibrary_lawful ordersTwice_hostNames ht
  rw [hids] at hlength
  obtain ⟨⟨m, result⟩, hresult⟩ : ∃ result, (results exampleLibrary t)[1]? = some result :=
    ⟨_, List.getElem?_eq_getElem (by rw [hlength]; decide)⟩
  obtain ⟨e, he, htype⟩ := network_error_after_thirty_seconds exampleUrlLibrary_lawful ordersTwice_hostNames ht
    hfirst hmem (by simp) (hid.symm ▸ hresult)
  exact ⟨t, m, result, e, ht, hresult, he, htype⟩

/-- Whatever is answered in the run is the empty list. -/
theorem response_ordersTwice : ∀ completion,
    .complete completion ∈ restActions exampleLibrary exampleConfig ordersTwice →
      completion.response = noOrders.response := by
  intro completion hmem
  obtain ⟨a, ha, hrest⟩ := List.mem_filterMap.mp hmem
  cases a with
  | call m =>
    simp only [ClientAction.toRest] at hrest
    split at hrest
    · cases hrest
    · cases hrest
  | rest b =>
    cases hrest
    simp [ordersTwice] at ha
    rcases ha with rfl | rfl
    · rfl
    · rfl

/-- The first call returns that there are no orders. -/
theorem reply_returned_ordersTwice :
    ∃ t, Run (UrlLibrary.ofGrammar .rfc3986).boostUrl exampleLibrary exampleConfig ordersTwice t ∧
      (results exampleLibrary t)[0]? = some ⟨.getAllOrders, .ok []⟩ := by
  obtain ⟨t, ht, -, -, hanswered, hcall⟩ := exists_ordersTwice
  refine ⟨t, ht, reply_returned exampleUrlLibrary_lawful ordersTwice_hostNames ht hcall ?_ hanswered⟩
  rintro res ⟨pre, completion, -, -, -, -, -, ⟨post, hpost⟩, -, -, -, -, -, -, rfl⟩
  have hmem : .complete completion ∈ restActions exampleLibrary exampleConfig ordersTwice := by
    rw [← hpost]
    simp
  rw [response_ordersTwice completion hmem]
  exact ⟨getAllOrders, .array [], rfl, rfl, rfl, rfl⟩

end AlpacaTradeClient

end MacdTradingBot
