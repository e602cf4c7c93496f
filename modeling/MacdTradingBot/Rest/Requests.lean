import MacdTradingBot.Lib.Keyed
import MacdTradingBot.Rest.Formatter
import MacdTradingBot.Rest.Url

/-!
# The request of a task

`typed_task::run_impl`, up to the write of the request. The fields of the caller are written over the
built-in ones with `set`, which replaces every field of the name, so of several fields with one name the
last is left. `headersSurvive_iff` says that nothing else gets lost.
-/

namespace MacdTradingBot.Http

/-! ## Fields under their names -/

/-- What fields are found by. -/
def Field.key (f : Field) : Bytes := foldCase f.name

/-- Names are compared without case. -/
theorem iequals_iff {f g : Field} : iequals f.name g.name = true ↔ f.key = g.key := decide_eq_true_iff

/-- `http::fields::set`. -/
def Fields.set (fields : Fields) (field : Field) : Fields := Keyed.set Field.key fields field

/-- `typed_task`, less its handler. The verb is the text that it is written as. -/
structure TypedTask (Body : Type) where
  verb : Bytes
  endpoint : Url
  headers : Fields
  requestPayload : Body

variable {Body : Type}

/-- The fields that the client writes before those of the caller. -/
def TypedTask.builtIn (task : TypedTask Body) (userAgent : Bytes) : Fields :=
  (Fields.set [] ⟨bytes "Host", bytes task.endpoint.host⟩).set ⟨bytes "User-Agent", userAgent⟩

/-- `run_impl`, up to `async_write`. `prepare_payload` is a parameter, and so is the version text of the
library. -/
def TypedTask.request (preparePayload : Request Body → Request Body) (userAgent : Bytes)
    (task : TypedTask Body) : Request Body :=
  let fields := task.builtIn userAgent
  let fields := task.headers.foldl Fields.set fields
  let fields := fields.set ⟨bytes "Connection", bytes "keep-alive"⟩
  preparePayload
    { methodString := task.verb
      target := bytes task.endpoint.target
      version := 11
      fields
      body := task.requestPayload }

/-- The names that `prepare_payload` adjusts. -/
def IsPayloadName (name : Bytes) : Bool :=
  iequals name (bytes "Content-Length") || iequals name (bytes "Transfer-Encoding")

/-- `prepare_payload` adjusts these two fields and no other. -/
structure PreparesPayload (preparePayload : Request Body → Request Body) : Prop where
  others : ∀ req, (preparePayload req).fields.filter (fun f => !IsPayloadName f.name)
    = req.fields.filter fun f => !IsPayloadName f.name

/-- The names that are the caller's. -/
def IsCallerName (name : Bytes) : Bool := !(iequals name (bytes "Connection") || IsPayloadName name)

/-- The fields that are the caller's. -/
def Fields.ofCaller (fields : Fields) : Fields := fields.filter fun f => IsCallerName f.name

/-- The fields of the caller are in the request, as often and in their order, and take the place of the
built-in ones. -/
structure HeadersSurvive (headers : Fields) (req : Request Body) : Prop where
  kept : headers.ofCaller.Sublist req.fields
  often : ∀ f ∈ headers, IsCallerName f.name = true → req.fields.count f = headers.count f
  builtIn : ∀ name ∈ [bytes "Host", bytes "User-Agent"], (∃ g ∈ headers, iequals g.name name = true) →
    ∀ f ∈ req.fields, iequals f.name name = true → f ∈ headers

/-! ## The fields of the request -/

/-- Whose name it is does not depend on the spelling. -/
theorem isCallerName_congr {name name' : Bytes} (h : iequals name name' = true) :
    IsCallerName name = IsCallerName name' := by
  have hfold : foldCase name = foldCase name' := decide_eq_true_iff.mp h
  simp only [IsCallerName, IsPayloadName, iequals, hfold]

/-- The fields that the client sets first. -/
theorem builtIn_eq (task : TypedTask Body) (userAgent : Bytes) : task.builtIn userAgent
    = [⟨bytes "Host", bytes task.endpoint.host⟩, ⟨bytes "User-Agent", userAgent⟩] := by
  have hdiffer : Field.key ⟨bytes "Host", bytes task.endpoint.host⟩
      ≠ Field.key ⟨bytes "User-Agent", userAgent⟩ := by
    show foldCase (bytes "Host") ≠ foldCase (bytes "User-Agent")
    decide
  simp [TypedTask.builtIn, Fields.set, Keyed.set, hdiffer]

variable {preparePayload : Request Body → Request Body} {userAgent : Bytes} {task : TypedTask Body}

/-- The fields that the client sets first are none of those for the payload. -/
theorem isCallerName_builtIn :
    ∀ f ∈ task.builtIn userAgent, IsCallerName f.name = true := by
  have hhost : IsCallerName (bytes "Host") = true := by decide
  have hagent : IsCallerName (bytes "User-Agent") = true := by decide
  rw [builtIn_eq, List.forall_mem_cons, List.forall_mem_singleton]
  exact ⟨hhost, hagent⟩

@[simp]
theorem mem_ofCaller {fields : Fields} {f : Field} :
    f ∈ fields.ofCaller ↔ f ∈ fields ∧ IsCallerName f.name = true := List.mem_filter

/-- The fields of the caller's names are there before the rest of the message is prepared. -/
theorem PreparesPayload.ofCaller_eq (h : PreparesPayload preparePayload) (req : Request Body) :
    (preparePayload req).fields.ofCaller = req.fields.ofCaller := by
  have hfilter : ∀ fields : Fields, fields.ofCaller
      = Fields.ofCaller (fields.filter fun f => !IsPayloadName f.name) := by
    intro fields
    unfold Fields.ofCaller
    rw [List.filter_filter]
    refine List.filter_congr fun f _ => ?_
    simp [IsCallerName]
  rw [hfilter, h.others, ← hfilter]

/-- The connection field is none of the caller's. -/
theorem ofCaller_set_connection (fields : Fields) (value : Bytes) :
    (fields.set ⟨bytes "Connection", value⟩).ofCaller = fields.ofCaller := by
  have hconnection : IsCallerName (bytes "Connection") = false := by decide
  rw [Fields.set, Keyed.set, Fields.ofCaller, List.filter_append,
    List.filter_cons_of_neg (by simp [hconnection]), List.filter_filter, List.filter_nil,
    List.append_nil]
  refine List.filter_congr fun f _ => ?_
  cases hcaller : IsCallerName f.name with
  | false => rfl
  | true =>
    rw [Bool.true_and, decide_eq_true_iff]
    intro hkey
    rw [isCallerName_congr (decide_eq_true_iff.mpr hkey), hconnection] at hcaller
    cases hcaller

/-- The built-in fields that the caller does not give. -/
def TypedTask.builtInLeft (userAgent : Bytes) (task : TypedTask Body) : Fields :=
  (task.builtIn userAgent).filter fun f => ∀ g ∈ task.headers, f.key ≠ g.key

/-- A built-in field is left where the caller sets no other. -/
theorem key_ne_of_mem_builtInLeft {f g : Field} (hf : f ∈ task.builtInLeft userAgent)
    (hg : g ∈ task.headers) : f.key ≠ g.key := by
  have hother : ∀ g ∈ task.headers, f.key ≠ g.key := by simpa using (List.mem_filter.mp hf).2
  exact hother g hg

/-- Of the names of the caller, the request has the built-in fields that are left, and the last field of
each name that the caller gives. -/
theorem ofCaller_request (h : PreparesPayload preparePayload) (userAgent : Bytes)
    (task : TypedTask Body) : (task.request preparePayload userAgent).fields.ofCaller
      = task.builtInLeft userAgent ++ Keyed.latest Field.key task.headers.ofCaller := by
  rw [TypedTask.request, h.ofCaller_eq, ofCaller_set_connection]
  show (Keyed.setAll Field.key (task.builtIn userAgent) task.headers).filter _ = _
  rw [Keyed.setAll_eq, List.filter_append,
    Keyed.filter_latest fun f g hkey => isCallerName_congr (iequals_iff.mpr hkey)]
  have hleft : (task.builtInLeft userAgent).filter (fun f => IsCallerName f.name)
      = task.builtInLeft userAgent :=
    List.filter_eq_self.mpr fun f hf => isCallerName_builtIn f (List.mem_filter.mp hf).1
  exact congrArg (· ++ _) hleft

/-- No name is set twice. -/
theorem pairwise_ofCaller_request (h : PreparesPayload preparePayload) (userAgent : Bytes)
    (task : TypedTask Body) : (task.request preparePayload userAgent).fields.ofCaller.Pairwise
      fun f g => f.key ≠ g.key := by
  rw [TypedTask.request, h.ofCaller_eq, ofCaller_set_connection]
  refine (Keyed.pairwise_setAll ?_).filter _
  exact Keyed.pairwise_set (Keyed.pairwise_set .nil)

/-! ## What survives -/

/-- A built-in field is no longer there where the caller gives one. -/
theorem mem_headers_of_mem_request (h : PreparesPayload preparePayload) {name : Bytes}
    (hname : IsCallerName name = true) (hgiven : ∃ g ∈ task.headers, iequals g.name name = true)
    {f : Field} (hf : f ∈ (task.request preparePayload userAgent).fields)
    (hequals : iequals f.name name = true) : f ∈ task.headers := by
  have hmem := mem_ofCaller.mpr ⟨hf, (isCallerName_congr hequals).trans hname⟩
  rw [ofCaller_request h, List.mem_append] at hmem
  rcases hmem with hbuilt | hlatest
  · obtain ⟨g, hg, hgname⟩ := hgiven
    have hkey : foldCase f.name = foldCase g.name :=
      (decide_eq_true_iff.mp hequals).trans (decide_eq_true_iff.mp hgname).symm
    exact absurd hkey (key_ne_of_mem_builtInLeft hbuilt hg)
  · exact (mem_ofCaller.mp (Keyed.latest_subset hlatest)).1

/-- With different names nothing of the caller's is replaced. -/
theorem HeadersSurvive.of_pairwise (h : PreparesPayload preparePayload)
    (hpairwise : task.headers.ofCaller.Pairwise fun f g => f.key ≠ g.key) :
    HeadersSurvive task.headers (task.request preparePayload userAgent) := by
  have hrequest := ofCaller_request h userAgent task
  rw [Keyed.latest_eq_self_iff.mpr hpairwise] at hrequest
  refine ⟨?_, ?_, ?_⟩
  · have hsub : task.headers.ofCaller.Sublist (task.request preparePayload userAgent).fields.ofCaller := by
      rw [hrequest]
      exact List.sublist_append_right _ _
    exact hsub.trans List.filter_sublist
  · intro f hf hcaller
    have hcount : ∀ fields : Fields, fields.ofCaller.count f = fields.count f := fun fields =>
      List.count_filter hcaller
    have hbuilt : f ∉ task.builtInLeft userAgent := fun hmem => key_ne_of_mem_builtInLeft hmem hf rfl
    rw [← hcount, hrequest, List.count_append, List.count_eq_zero.mpr hbuilt, hcount, Nat.zero_add]
  · intro name hname hgiven f hmem hequals
    have hnames : ∀ name ∈ [bytes "Host", bytes "User-Agent"], IsCallerName name = true := by decide
    exact mem_headers_of_mem_request h (hnames name hname) hgiven hmem hequals

/-- For every task, however the rest of the message is prepared: the fields of the caller survive exactly
when no two of them have one name, but for the names that the client writes itself. -/
theorem headersSurvive_iff (h : PreparesPayload preparePayload) (userAgent : Bytes)
    (task : TypedTask Body) :
    HeadersSurvive task.headers (task.request preparePayload userAgent) ↔
      task.headers.ofCaller.Pairwise fun f g => iequals f.name g.name = false := by
  have hdiffer : (task.headers.ofCaller.Pairwise fun f g => iequals f.name g.name = false) ↔
      task.headers.ofCaller.Pairwise fun f g => f.key ≠ g.key := by
    simp only [← Bool.not_eq_true, iequals_iff, ne_eq]
  rw [hdiffer]
  constructor
  · rintro ⟨hkept, -, -⟩
    have hsub : task.headers.ofCaller.ofCaller.Sublist
        (task.request preparePayload userAgent).fields.ofCaller := hkept.filter _
    have hsame : task.headers.ofCaller.ofCaller = task.headers.ofCaller :=
      List.filter_eq_self.mpr fun f hf => (mem_ofCaller.mp hf).2
    rw [hsame] at hsub
    exact (pairwise_ofCaller_request h userAgent task).sublist hsub
  · exact HeadersSurvive.of_pairwise h

/-- What `prepare_payload` does to a GET request without a body and a transfer encoding. -/
def eraseContentLength (req : Request Unit) : Request Unit :=
  { req with fields := req.fields.filter fun f => !iequals f.name (bytes "Content-Length") }

/-- Erasing the length is one way to prepare the payload. -/
theorem preparesPayload_eraseContentLength : PreparesPayload eraseContentLength where
  others req := by
    rw [eraseContentLength, List.filter_filter]
    refine List.filter_congr fun f _ => ?_
    cases hname : iequals f.name (bytes "Content-Length") <;> simp [IsPayloadName, hname]

def exampleTask (headers : List (String × String)) : TypedTask Unit where
  verb := bytes "GET"
  endpoint := { scheme := "https", host := "broker", port := some "443", target := "/v2/account" }
  headers := headers.map fun header => ⟨bytes header.1, bytes header.2⟩
  requestPayload := ()

/-- The keys of a trade client, and a user agent. -/
theorem headersSurvive_keys :
    let task := exampleTask
      [("APCA-API-KEY-ID", "key"), ("APCA-API-SECRET-KEY", "secret"), ("user-agent", "bot")]
    HeadersSurvive task.headers (task.request eraseContentLength (bytes "Boost.Beast/347")) :=
  (headersSurvive_iff preparesPayload_eraseContentLength _ _).mpr (by decide)

/-- The first of two `Accept` fields is lost. -/
theorem first_accept_lost :
    let task := exampleTask [("Accept", "text/plain"), ("Accept", "application/json")]
    ¬ HeadersSurvive task.headers (task.request eraseContentLength (bytes "Boost.Beast/347")) := by
  rintro task ⟨-, hoften, -⟩
  have hcount := hoften ⟨bytes "Accept", bytes "text/plain"⟩ (by decide) (by decide)
  exact absurd hcount (by decide)

/-! ## Fields that the caller gives once -/

/-- The fields of a message. -/
def Message.fields : Message → Fields
  | .stringRequest req => req.fields
  | .emptyRequest req => req.fields
  | .response res => res.fields

/-- The fields under one name. -/
def Fields.named (fields : Fields) (name : Bytes) : Fields := fields.filter fun f => iequals f.name name

/-- A field of the caller is in the request once, when the caller gives one of each name. -/
theorem TypedTask.named_request (h : PreparesPayload preparePayload) (userAgent : Bytes)
    (task : TypedTask Body) (hpairwise : task.headers.ofCaller.Pairwise fun f g => f.key ≠ g.key) {f : Field}
    (hf : f ∈ task.headers) (hcaller : IsCallerName f.name = true) :
    Fields.named (task.request preparePayload userAgent).fields f.name = [f] := by
  have hmem : f ∈ (task.request preparePayload userAgent).fields.ofCaller := by
    rw [ofCaller_request h, Keyed.latest_eq_self_iff.mpr hpairwise]
    exact List.mem_append_right _ (mem_ofCaller.mpr ⟨hf, hcaller⟩)
  have hfilter : Fields.named (task.request preparePayload userAgent).fields f.name
      = Fields.named (task.request preparePayload userAgent).fields.ofCaller f.name := by
    rw [Fields.named, Fields.named, Fields.ofCaller, List.filter_filter]
    refine List.filter_congr fun g _ => ?_
    cases hname : iequals g.name f.name with
    | false => rfl
    | true => rw [isCallerName_congr hname, hcaller, Bool.true_and]
  rw [hfilter]
  exact Keyed.filter_key_eq (pairwise_ofCaller_request h userAgent task) hmem

/-! ## The request in the log -/

/-- Requests that are logged alike are prepared alike: no secret value decides what `prepare_payload` does
to a field that is shown. -/
def RespectsLog (preparePayload : Request Body → Request Body) : Prop :=
  ∀ ⦃r s : Request Body⦄, r.LogsAlike s → (preparePayload r).LogsAlike (preparePayload s)

/-- The secret values of the caller do not get into the text of the request, which is written to the log
before it is sent. -/
theorem TypedTask.logsAlike_request (h : RespectsLog preparePayload) (userAgent : Bytes)
    (task : TypedTask Body) {headers : Fields}
    (hheaders : List.Forall₂ (SameUnlessSecret requestShown requestMasked) task.headers headers) :
    (task.request preparePayload userAgent).LogsAlike
      ({ task with headers }.request preparePayload userAgent) := by
  have hkey : ∀ ⦃f g : Field⦄, SameUnlessSecret requestShown requestMasked f g → f.key = g.key :=
    fun f g hfg => congrArg foldCase hfg.name
  have hbuilt : List.Forall₂ (SameUnlessSecret requestShown requestMasked) (task.builtIn userAgent)
      (task.builtIn userAgent) := List.forall₂_same.mpr fun f _ => .refl f
  exact h ⟨rfl, rfl, rfl, rfl, .of_forall₂
    (Keyed.forall₂_set hkey (Keyed.forall₂_setAll hkey hbuilt hheaders) (.refl _))⟩

section Traced

variable {headers : Fields}

/-- A request with a body logs alike whatever the secrets of the caller are. -/
theorem formatStringRequest_request_eq {preparePayload : Request Bytes → Request Bytes}
    (h : RespectsLog preparePayload) (userAgent : Bytes) (task : TypedTask Bytes)
    (hheaders : List.Forall₂ (SameUnlessSecret requestShown requestMasked) task.headers headers) :
    formatStringRequest (task.request preparePayload userAgent)
      = formatStringRequest ({ task with headers }.request preparePayload userAgent) :=
  (Message.LogsAlike.stringRequest (task.logsAlike_request h userAgent hheaders)).format_eq

/-- So does one without. -/
theorem formatEmptyRequest_request_eq {preparePayload : Request Unit → Request Unit}
    (h : RespectsLog preparePayload) (userAgent : Bytes) (task : TypedTask Unit)
    (hheaders : List.Forall₂ (SameUnlessSecret requestShown requestMasked) task.headers headers) :
    formatEmptyRequest (task.request preparePayload userAgent)
      = formatEmptyRequest ({ task with headers }.request preparePayload userAgent) :=
  (Message.LogsAlike.emptyRequest (task.logsAlike_request h userAgent hheaders)).format_eq

end Traced

/-- Erasing the length does not look at values. -/
theorem respectsLog_eraseContentLength : RespectsLog eraseContentLength := by
  intro r s h
  exact ⟨h.methodString, h.target, h.version, h.body,
    h.fields.filter fun name => !iequals name (bytes "Content-Length")⟩

/-- What `prepare_payload` does to a request with a body of known length. -/
def setContentLength (req : Request Bytes) : Request Bytes :=
  { req with fields := req.fields.set ⟨bytes "Content-Length", decimal req.body.length⟩ }

/-- Case does not matter for the names of payload fields. -/
theorem isPayloadName_of_iequals {name name' : Bytes} (h : iequals name name' = true) :
    IsPayloadName name = IsPayloadName name' := by
  have hfold : foldCase name = foldCase name' := decide_eq_true_iff.mp h
  simp only [IsPayloadName, iequals, hfold]

/-- Setting the length is one way to prepare the payload. -/
theorem preparesPayload_setContentLength : PreparesPayload setContentLength where
  others req := by
    have hlength : IsPayloadName (bytes "Content-Length") = true := by decide
    rw [setContentLength, Fields.set, Keyed.set, List.filter_append,
      List.filter_cons_of_neg (by simp [hlength]), List.filter_filter, List.filter_nil, List.append_nil]
    refine List.filter_congr fun f _ => ?_
    cases hname : IsPayloadName f.name with
    | true => rfl
    | false =>
      rw [Bool.not_false, Bool.true_and, decide_eq_true_iff]
      intro hkey
      rw [isPayloadName_of_iequals (decide_eq_true_iff.mpr hkey), hlength] at hname
      cases hname

/-- Setting the length does not look at secrets. -/
theorem respectsLog_setContentLength : RespectsLog setContentLength := by
  intro r s h
  refine ⟨h.methodString, h.target, h.version, h.body, ?_⟩
  rw [setContentLength, setContentLength, Fields.set, Fields.set, Keyed.set, Keyed.set, h.body]
  exact (h.fields.filter fun name => foldCase name ≠ foldCase (bytes "Content-Length")).append
    (.of_forall₂ (.cons (.refl _) .nil))

end MacdTradingBot.Http
