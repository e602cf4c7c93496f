import MacdTradingBot.Rest.Normalization
import MacdTradingBot.Rest.Requests
import MacdTradingBot.Trade.RoundTrip

/-!
# The requests of the trade client

`alpaca_trade_client.cpp`: what each method asks of the REST client, and what it makes of the answer. The
texts of errors and the JSON library are parameters.
-/

namespace MacdTradingBot

open Http JsonValue JsonObject

/-- `alpaca_api_error::error_type`. -/
inductive ApiErrorType
  | networkError
  | httpError
  | jsonParseError
deriving DecidableEq, Repr

/-- `alpaca_api_error`. -/
structure AlpacaApiError where
  type : ApiErrorType
  httpStatus : ℕ
  message : Bytes
deriving DecidableEq, Repr

/-- What the client calls of its libraries: `json::parse`, which throws with a text, `json::serialize`, the
texts of error codes and of the errors of `value_to`, and `http::int_to_status`. -/
structure TradeLibrary where
  parse : Bytes → Except Bytes JsonValue
  serialize : JsonValue → Bytes
  message : ErrorCode → Bytes
  what : JsonError → Bytes
  intToStatus : ℕ → ℕ

namespace AlpacaTradeClient

/-- `alpaca_trade_client::config`, by the arguments of its constructor. -/
structure Config where
  apiKey : Bytes
  apiSecret : Bytes
  paperTrading : Bool := true

/-- `base_url`. -/
def Config.baseUrl (cfg : Config) : String :=
  if cfg.paperTrading then "https://paper-api.alpaca.markets/v2" else "https://api.alpaca.markets"

/-- The arguments of `make_api_request`. -/
structure ApiRequest (ReturnType : Type) where
  verb : Bytes
  endpoint : String
  body : Option Bytes := none
  expectedStatus : ℕ := 200
  extraHeaders : Option Fields := none

instance {α : Type} [ValueTo α] : ValueTo (List α) where
  valueTo jv := jv.toVector fun element _ => valueTo α element

instance {α : Type} [ValueFrom α] : ValueFrom (List α) where
  valueFrom elements := JsonValue.vectorFrom elements fun a _ => valueFrom a

instance {α : Type} [ValueFrom α] [ValueTo α] [LawfulCodec α] : LawfulCodec (List α) where
  roundTrip elements := by
    obtain ⟨values, hfrom, hto⟩ := mapM_roundTrip fun (a : α) (_ : a ∈ elements) => LawfulCodec.roundTrip a
    refine ⟨.array values, ?_, rfl, ?_⟩
    · show JsonValue.vectorFrom elements (fun a _ => valueFrom a) = _
      rw [vectorFrom_eq, hfrom]
      rfl
    · show (JsonValue.array values).toVector (fun element _ => valueTo α element) = _
      rw [toVector_array, hto]

/-! ## The methods -/

/-- `account`. -/
def account : ApiRequest TradeAccount where
  verb := bytes "GET"
  endpoint := "/account"

/-- `all_open_positions`. -/
def allOpenPositions : ApiRequest (List Position) where
  verb := bytes "GET"
  endpoint := "/positions"

/-- `close_all_positions`. Callers that leave the argument out pass `true`. -/
def closeAllPositions (cancelOrders : Bool) : ApiRequest (List PositionClosed) where
  verb := bytes "DELETE"
  endpoint := "/positions?cancel_orders=" ++ if cancelOrders then "true" else "false"
  expectedStatus := 207

/-- `get_all_orders`. -/
def getAllOrders : ApiRequest (List Order) where
  verb := bytes "GET"
  endpoint := "/orders"

/-- `delete_all_orders`. -/
def deleteAllOrders : ApiRequest (List OrderDeleted) where
  verb := bytes "DELETE"
  endpoint := "/orders"
  expectedStatus := 207

/-- `create_order`. -/
def createOrder (J : TradeLibrary) (no : NotionalOrder) : Except JsonError (ApiRequest Order) := do
  let noJson ← valueFrom no
  return {
    verb := bytes "POST"
    endpoint := "/orders"
    body := some (J.serialize noJson)
    extraHeaders := some (Fields.set [] ⟨bytes "Content-Type", bytes "application/json"⟩) }

/-- The public methods, with their arguments. -/
inductive Method
  | account
  | allOpenPositions
  | closeAllPositions (cancelOrders : Bool)
  | getAllOrders
  | deleteAllOrders
  | createOrder (no : NotionalOrder)

namespace Method

/-- What the method returns when it succeeds. -/
def Value : Method → Type
  | account => TradeAccount
  | allOpenPositions => List Position
  | closeAllPositions _ => List PositionClosed
  | getAllOrders => List Order
  | deleteAllOrders => List OrderDeleted
  | createOrder _ => Order

instance : (m : Method) → ValueTo m.Value
  | account => inferInstanceAs (ValueTo TradeAccount)
  | allOpenPositions => inferInstanceAs (ValueTo (List Position))
  | closeAllPositions _ => inferInstanceAs (ValueTo (List PositionClosed))
  | getAllOrders => inferInstanceAs (ValueTo (List Order))
  | deleteAllOrders => inferInstanceAs (ValueTo (List OrderDeleted))
  | createOrder _ => inferInstanceAs (ValueTo Order)

instance : (m : Method) → ValueFrom m.Value
  | account => inferInstanceAs (ValueFrom TradeAccount)
  | allOpenPositions => inferInstanceAs (ValueFrom (List Position))
  | closeAllPositions _ => inferInstanceAs (ValueFrom (List PositionClosed))
  | getAllOrders => inferInstanceAs (ValueFrom (List Order))
  | deleteAllOrders => inferInstanceAs (ValueFrom (List OrderDeleted))
  | createOrder _ => inferInstanceAs (ValueFrom Order)

instance : (m : Method) → LawfulCodec m.Value
  | account => inferInstanceAs (LawfulCodec TradeAccount)
  | allOpenPositions => inferInstanceAs (LawfulCodec (List Position))
  | closeAllPositions _ => inferInstanceAs (LawfulCodec (List PositionClosed))
  | getAllOrders => inferInstanceAs (LawfulCodec (List Order))
  | deleteAllOrders => inferInstanceAs (LawfulCodec (List OrderDeleted))
  | createOrder _ => inferInstanceAs (LawfulCodec Order)

/-- What the method asks for. -/
def request (J : TradeLibrary) : (m : Method) → Except JsonError (ApiRequest m.Value)
  | account => .ok AlpacaTradeClient.account
  | allOpenPositions => .ok AlpacaTradeClient.allOpenPositions
  | closeAllPositions cancelOrders => .ok (AlpacaTradeClient.closeAllPositions cancelOrders)
  | getAllOrders => .ok AlpacaTradeClient.getAllOrders
  | deleteAllOrders => .ok AlpacaTradeClient.deleteAllOrders
  | createOrder no => AlpacaTradeClient.createOrder J no

end Method

/-! ## `make_api_request_impl` -/

/-- `create_auth_headers`. -/
def createAuthHeaders (cfg : Config) : Fields :=
  (Fields.set [] ⟨bytes "APCA-API-KEY-ID", cfg.apiKey⟩).set ⟨bytes "APCA-API-SECRET-KEY", cfg.apiSecret⟩

/-- `http::fields::insert`: behind the last field of the name, or else at the end. -/
def insert (fields : Fields) (field : Field) : Fields :=
  let (after, front) := fields.reverse.span fun f => !iequals f.name field.name
  if front.isEmpty then fields ++ [field] else front.reverse ++ field :: after.reverse

variable {α : Type}

/-- The URL that is handed to the REST client. -/
def ApiRequest.url (cfg : Config) (r : ApiRequest α) : String := cfg.baseUrl ++ r.endpoint

/-- The fields that are handed to the REST client. -/
def ApiRequest.headers (cfg : Config) (r : ApiRequest α) : Fields :=
  match r.extraHeaders with
  | none => createAuthHeaders cfg
  | some extraHeaders => extraHeaders.foldl insert (createAuthHeaders cfg)

/-- The message of a `json_parse_error`. -/
def withBody (errorMsg : Bytes) (res : Response) : Bytes := errorMsg ++ bytes " | Response body: " ++ res.body

/-- `make_api_request_impl`, from the result of the request on. -/
def ApiRequest.finish [ValueTo α] (J : TradeLibrary) (r : ApiRequest α) (ec : Option ErrorCode)
    (res : Response) : Except AlpacaApiError α :=
  let status := J.intToStatus res.resultInt
  match ec with
  | some ec => .error ⟨.networkError, 0, J.message ec⟩
  | none =>
    if status ≠ r.expectedStatus then
      .error ⟨.httpError, status, res.body⟩
    else
      match J.parse res.body with
      | .error what => .error ⟨.jsonParseError, status, withBody what res⟩
      | .ok jsonValue =>
        match valueTo α jsonValue with
        | .ok result => .ok result
        -- the one exception that is no `system_error`
        | .error (.invalidArgument what) =>
          .error ⟨.jsonParseError, status, withBody (bytes "Unexpected error: " ++ what) res⟩
        | .error e => .error ⟨.jsonParseError, status, withBody (J.what e) res⟩

/-! ## The message that is written -/

/-- What `run_impl` calls of its library, for requests without and with a body. -/
structure HttpLibrary where
  prepareEmpty : Request Unit → Request Unit
  prepareString : Request Bytes → Request Bytes
  userAgent : Bytes

/-- `prepare_payload` adjusts its two fields and no other. -/
structure HttpLibrary.Lawful (H : HttpLibrary) : Prop where
  empty : PreparesPayload H.prepareEmpty
  string : PreparesPayload H.prepareString

/-- What `run_impl` writes for the task of a request, whose URL was read as `endpoint`. -/
def ApiRequest.message (H : HttpLibrary) (cfg : Config) (endpoint : Url) (r : ApiRequest α) : Message :=
  match r.body with
  | none =>
    .emptyRequest (TypedTask.request H.prepareEmpty H.userAgent ⟨r.verb, endpoint, r.headers cfg, ()⟩)
  | some body =>
    .stringRequest (TypedTask.request H.prepareString H.userAgent ⟨r.verb, endpoint, r.headers cfg, body⟩)

variable {cfg : Config} {H : HttpLibrary} {J : TradeLibrary}

/-- The fields under the names of the two keys are the two keys of the configuration. -/
structure CarriesKeys (cfg : Config) (fields : Fields) : Prop where
  key : fields.named (bytes "APCA-API-KEY-ID") = [⟨bytes "APCA-API-KEY-ID", cfg.apiKey⟩]
  secret : fields.named (bytes "APCA-API-SECRET-KEY") = [⟨bytes "APCA-API-SECRET-KEY", cfg.apiSecret⟩]

theorem exists_request (J : TradeLibrary) (m : Method) : ∃ r, m.request J = .ok r := by
  cases m with
  | createOrder no =>
    obtain ⟨jv, hfrom, -⟩ := LawfulCodec.roundTrip no
    exact ⟨_, by rw [Method.request, createOrder, hfrom]; rfl⟩
  | account | allOpenPositions | closeAllPositions | getAllOrders | deleteAllOrders => exact ⟨_, rfl⟩

/-! ## Where the requests go -/

/-- The host of the API. -/
def Config.host (cfg : Config) : String :=
  if cfg.paperTrading then "paper-api.alpaca.markets" else "api.alpaca.markets"

def Config.basePath (cfg : Config) : String := if cfg.paperTrading then "/v2" else ""

/-- The origin of all requests. -/
def Config.origin (cfg : Config) : Url := { scheme := "https", host := cfg.host, port := some "443" }

def endpoints : List String :=
  ["/account", "/positions", "/positions?cancel_orders=true", "/positions?cancel_orders=false", "/orders"]

/-- `application/json`, the one field that a method adds. -/
def contentType : Field := ⟨bytes "Content-Type", bytes "application/json"⟩

/-- The paths and the fields that the methods ask for. -/
theorem request_cases {m : Method} {r : ApiRequest m.Value} (h : m.request J = .ok r) :
    r.endpoint ∈ endpoints ∧ (r.extraHeaders = none ∨ r.extraHeaders = some [contentType]) := by
  cases m with
  | account | allOpenPositions | getAllOrders | deleteAllOrders =>
    cases h
    exact ⟨by decide, Or.inl rfl⟩
  | closeAllPositions cancelOrders =>
    cases h
    refine ⟨?_, Or.inl rfl⟩
    cases cancelOrders <;> decide
  | createOrder no =>
    obtain ⟨jv, -, hr⟩ := bind_eq_ok_iff.mp h
    cases hr
    exact ⟨List.mem_of_getElem? (i := 4) rfl, Or.inr rfl⟩

/-- The texts of the URLs are read as they are meant. -/
theorem parse_url (paper : Bool) : ∀ e ∈ endpoints,
    (Uri.parse .rfc3986 (Config.baseUrl ⟨[], [], paper⟩ ++ e).toList).map Url.ofReference
      = some { (Config.origin ⟨[], [], paper⟩) with
          port := none
          target := Config.basePath ⟨[], [], paper⟩ ++ e } := by
  cases paper <;> decide +kernel

/-- The URL that the REST client makes of a request. -/
def ApiRequest.target (cfg : Config) (r : ApiRequest α) : Url :=
  { cfg.origin with target := cfg.basePath ++ r.endpoint }

theorem makeHttpHttpsUrl_url {L : UrlLibrary} (hL : L.Lawful .rfc3986) (cfg : Config) {m : Method}
    {r : ApiRequest m.Value} (h : m.request J = .ok r) :
    L.boostUrl.makeHttpHttpsUrl (r.url cfg) = .ok (r.target cfg) := by
  have hread : L.parse (r.url cfg).toList = Uri.parse .rfc3986 (r.url cfg).toList := by
    refine Option.ext fun url => ?_
    rw [hL.parse_iff, Uri.parse_eq_some_iff]
  have hparse : L.boostUrl.parse (r.url cfg)
      = some { cfg.origin with port := none, target := cfg.basePath ++ r.endpoint } := by
    show (L.parse (r.url cfg).toList).map Url.ofReference = _
    rw [hread]
    exact parse_url cfg.paperTrading _ (request_cases h).1
  rw [BoostUrl.makeHttpHttpsUrl, hparse]
  rfl

/-! ## What the requests carry -/

theorem createAuthHeaders_eq (cfg : Config) : createAuthHeaders cfg
    = [⟨bytes "APCA-API-KEY-ID", cfg.apiKey⟩, ⟨bytes "APCA-API-SECRET-KEY", cfg.apiSecret⟩] := by
  have hdiffer : Field.key ⟨bytes "APCA-API-KEY-ID", cfg.apiKey⟩
      ≠ Field.key ⟨bytes "APCA-API-SECRET-KEY", cfg.apiSecret⟩ := by
    show foldCase (bytes "APCA-API-KEY-ID") ≠ foldCase (bytes "APCA-API-SECRET-KEY")
    decide
  simp [createAuthHeaders, Fields.set, Keyed.set, hdiffer]

/-- A field of a new name comes last. -/
theorem insert_of_forall {fields : Fields} {field : Field}
    (h : ∀ f ∈ fields, iequals f.name field.name = false) : insert fields field = fields ++ [field] := by
  have hall : ∀ f ∈ fields.reverse, (!iequals f.name field.name) = true := by
    intro f hf
    rw [h f (List.mem_reverse.mp hf)]
    rfl
  rw [insert, List.span_eq_takeWhile_dropWhile, List.dropWhile_eq_nil_iff.mpr hall]
  rfl

theorem headers_eq (cfg : Config) {m : Method} {r : ApiRequest m.Value} (h : m.request J = .ok r) :
    r.headers cfg = createAuthHeaders cfg ++ r.extraHeaders.getD [] := by
  rcases (request_cases h).2 with hextra | hextra
  · rw [ApiRequest.headers, hextra]
    exact (List.append_nil _).symm
  · rw [ApiRequest.headers, hextra]
    show insert (createAuthHeaders cfg) contentType = createAuthHeaders cfg ++ [contentType]
    apply insert_of_forall
    rw [createAuthHeaders_eq, List.forall_mem_cons, List.forall_mem_singleton]
    show iequals (bytes "APCA-API-KEY-ID") contentType.name = false ∧
      iequals (bytes "APCA-API-SECRET-KEY") contentType.name = false
    decide

/-- One field of each name, all of them the caller's. -/
theorem pairwise_headers (cfg : Config) {m : Method} {r : ApiRequest m.Value} (h : m.request J = .ok r) :
    (r.headers cfg).ofCaller.Pairwise fun f g => f.key ≠ g.key := by
  have hnames : (([bytes "APCA-API-KEY-ID", bytes "APCA-API-SECRET-KEY", bytes "Content-Type"] : List Bytes).map
      foldCase).Pairwise (· ≠ ·) := by decide
  have hall : ((createAuthHeaders cfg ++ [contentType]).map Field.key).Pairwise (· ≠ ·) := by
    rw [createAuthHeaders_eq]
    exact hnames
  have hsub : (r.headers cfg).Sublist (createAuthHeaders cfg ++ [contentType]) := by
    rw [headers_eq cfg h]
    apply List.Sublist.append_left
    rcases (request_cases h).2 with hextra | hextra
    · rw [hextra]
      exact List.nil_sublist _
    · rw [hextra]
      exact List.Sublist.refl _
  exact ((List.pairwise_map.mp hall).sublist hsub).filter _

theorem carriesKeys_request {Body : Type} {preparePayload : Http.Request Body → Http.Request Body}
    (hprepare : PreparesPayload preparePayload) (userAgent : Bytes) {m : Method} {r : ApiRequest m.Value}
    (h : m.request J = .ok r) (cfg : Config) (endpoint : Url) (body : Body) :
    CarriesKeys cfg
      (TypedTask.request preparePayload userAgent ⟨r.verb, endpoint, r.headers cfg, body⟩).fields := by
  have hpairwise := pairwise_headers cfg h
  have hcallers : IsCallerName (bytes "APCA-API-KEY-ID") = true ∧
      IsCallerName (bytes "APCA-API-SECRET-KEY") = true := by decide
  have honce : ∀ f ∈ createAuthHeaders cfg, IsCallerName f.name = true → Fields.named
      (TypedTask.request preparePayload userAgent ⟨r.verb, endpoint, r.headers cfg, body⟩).fields f.name
        = [f] := by
    intro f hf hcaller
    apply TypedTask.named_request hprepare userAgent _ hpairwise _ hcaller
    rw [headers_eq cfg h]
    exact List.mem_append_left _ hf
  rw [createAuthHeaders_eq, List.forall_mem_cons, List.forall_mem_singleton] at honce
  exact ⟨honce.1 hcallers.1, honce.2 hcallers.2⟩

/-- Every message has the two keys, once each. -/
theorem carriesKeys_message (hH : H.Lawful) (cfg : Config) (endpoint : Url) {m : Method}
    {r : ApiRequest m.Value} (h : m.request J = .ok r) : CarriesKeys cfg (r.message H cfg endpoint).fields := by
  unfold ApiRequest.message
  split
  · exact carriesKeys_request hH.empty _ h cfg endpoint ()
  · exact carriesKeys_request hH.string _ h cfg endpoint _

/-- The keys do not get into the log: with other keys in the configuration, the text of the request that is
logged is the same. -/
theorem format_message_eq (hlog : RespectsLog H.prepareEmpty ∧ RespectsLog H.prepareString)
    (key secret : Bytes) (endpoint : Url) {m : Method} {r : ApiRequest m.Value} (h : m.request J = .ok r) :
    (r.message H { cfg with apiKey := key, apiSecret := secret } endpoint).format
      = (r.message H cfg endpoint).format := by
  have hsecret : IsSecret requestShown requestMasked (bytes "APCA-API-KEY-ID") ∧
      IsSecret requestShown requestMasked (bytes "APCA-API-SECRET-KEY") := by decide
  have hauth : List.Forall₂ (SameUnlessSecret requestShown requestMasked)
      (createAuthHeaders { cfg with apiKey := key, apiSecret := secret }) (createAuthHeaders cfg) := by
    rw [createAuthHeaders_eq, createAuthHeaders_eq]
    exact .cons ⟨rfl, fun hopen => absurd hsecret.1 hopen⟩
      (.cons ⟨rfl, fun hopen => absurd hsecret.2 hopen⟩ .nil)
  have hheaders : List.Forall₂ (SameUnlessSecret requestShown requestMasked)
      (r.headers { cfg with apiKey := key, apiSecret := secret }) (r.headers cfg) := by
    rw [headers_eq _ h, headers_eq cfg h]
    exact List.rel_append hauth (List.forall₂_same.mpr fun f _ => .refl f)
  unfold ApiRequest.message
  split
  · exact formatEmptyRequest_request_eq hlog.1 H.userAgent ⟨r.verb, endpoint, _, ()⟩ hheaders
  · exact formatStringRequest_request_eq hlog.2 H.userAgent ⟨r.verb, endpoint, _, _⟩ hheaders

/-! ## What the methods return -/

variable [ValueTo α] {r : ApiRequest α} {ec : Option ErrorCode} {res : Response}

/-- A value is returned for an answer with the expected status whose body is read as the value. -/
theorem finish_eq_ok_iff {v : α} : r.finish J ec res = .ok v ↔
    ec = none ∧ J.intToStatus res.resultInt = r.expectedStatus ∧
      ∃ jv, J.parse res.body = .ok jv ∧ valueTo α jv = .ok v := by
  unfold ApiRequest.finish
  cases ec with
  | some ec => simp
  | none =>
    by_cases hstatus : J.intToStatus res.resultInt = r.expectedStatus
    · cases hparse : J.parse res.body with
      | error what => simp [hstatus]
      | ok jv =>
        cases hvalue : valueTo α jv with
        | ok v => simp [hstatus, hvalue]
        | error e => cases e <;> simp [hstatus, hvalue]
    · simp [hstatus]

/-- A failed exchange is a network error, and nothing else is. -/
theorem networkError_iff : (∃ e, r.finish J ec res = .error e ∧ e.type = .networkError) ↔ ec ≠ none := by
  unfold ApiRequest.finish
  cases ec with
  | some ec => simp
  | none =>
    by_cases hstatus : J.intToStatus res.resultInt = r.expectedStatus
    · cases hparse : J.parse res.body with
      | error what => simp [hstatus]
      | ok jv =>
        cases hvalue : valueTo α jv with
        | ok v => simp [hstatus, hvalue]
        | error e => cases e <;> simp [hstatus, hvalue]
    · simp [hstatus]

/-- The answer of an API that writes its values as the codecs do. -/
def IsReply (J : TradeLibrary) (m : Method) (v : m.Value) (res : Response) : Prop :=
  ∃ r jv, m.request J = .ok r ∧ J.intToStatus res.resultInt = r.expectedStatus ∧ valueFrom v = .ok jv ∧
    J.parse res.body = .ok jv

/-- Such an answer is returned as the value. -/
theorem finish_of_isReply {m : Method} {v : m.Value} {r : ApiRequest m.Value} (hr : m.request J = .ok r)
    (h : IsReply J m v res) : r.finish J none res = .ok v := by
  obtain ⟨r', jv, hr', hstatus, hfrom, hparse⟩ := h
  rw [hr, Except.ok.injEq] at hr'
  subst hr'
  obtain ⟨jv', hfrom', -, hto⟩ := LawfulCodec.roundTrip v
  rw [hfrom, Except.ok.injEq] at hfrom'
  subst hfrom'
  exact finish_eq_ok_iff.mpr ⟨rfl, hstatus, jv, hparse, hto⟩

end AlpacaTradeClient

end MacdTradingBot
