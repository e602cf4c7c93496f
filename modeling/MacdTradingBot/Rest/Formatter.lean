import MacdTradingBot.Rest.Http
import Mathlib.Data.List.Forall2

/-!
# The log text of messages

`formatter.hpp`. Requests and responses are formatted by one loop over their fields, with different lists of
the names that are shown and of those whose values are not. The text does not depend on what a value is
where the loop does not write it: two runs of the loop go through the same buffers and flags.
-/

namespace MacdTradingBot.Http

/-- A number, as `{}` formats it. -/
def decimal (n : ℕ) : Bytes := bytes (toString n)

/-- One turn of the loop over the fields, on the buffer and `first_header`. -/
def formatField (shown masked : List Bytes) (state : Bytes × Bool) (field : Field) : Bytes × Bool :=
  if field.name ∈ shown then
    let buf := if state.2 then state.1 else state.1 ++ bytes ", "
    if field.name ∈ masked then (buf ++ field.name ++ bytes ": ***", false)
    else (buf ++ field.name ++ bytes ": " ++ field.value, false)
  else state

def formatFields (shown masked : List Bytes) (buf : Bytes) (fields : Fields) : Bytes :=
  (fields.foldl (formatField shown masked) (buf, true)).1

/-- The request fields that are shown. -/
def requestShown : List Bytes :=
  ["Host", "host", "Content-Type", "content-type", "Content-Length", "content-length", "Authorization",
    "authorization"].map bytes

def requestMasked : List Bytes := ["Authorization", "authorization"].map bytes

/-- The response fields that are shown. -/
def responseShown : List Bytes :=
  ["Content-Type", "content-type", "Content-Length", "content-length", "Server", "server", "Set-Cookie",
    "set-cookie"].map bytes

def responseMasked : List Bytes := ["Set-Cookie", "set-cookie"].map bytes

variable {Body : Type}

/-- `format_request_line`. -/
def formatRequestLine (buf : Bytes) (req : Request Body) : Bytes :=
  buf ++ req.methodString ++ bytes " " ++ req.target ++ bytes " HTTP/" ++ decimal (req.version / 10)
    ++ bytes "." ++ decimal (req.version % 10) ++ bytes " ["

/-- `format_request_headers`. -/
def formatRequestHeaders (buf : Bytes) (req : Request Body) : Bytes :=
  formatFields requestShown requestMasked buf req.fields

/-- The formatter of `http::request<http::string_body>`. -/
def formatStringRequest (req : Request Bytes) : Bytes :=
  formatRequestHeaders (formatRequestLine [] req) req ++ bytes "]\n" ++ bytes "Body: " ++ req.body

/-- The formatter of `http::request<http::empty_body>`. -/
def formatEmptyRequest (req : Request Unit) : Bytes :=
  formatRequestHeaders (formatRequestLine [] req) req ++ bytes "]"

/-- The formatter of `http::response<http::string_body>`. -/
def formatResponse (res : Response) : Bytes :=
  let buf := bytes "HTTP/" ++ decimal (res.version / 10) ++ bytes "." ++ decimal (res.version % 10)
    ++ bytes " " ++ decimal res.resultInt ++ bytes " " ++ res.reason ++ bytes " ["
  formatFields responseShown responseMasked buf res.fields ++ bytes "]\n" ++ bytes "Body: " ++ res.body

/-! ## Two runs of the loop -/

/-- The fields have one name and, unless it is masked, one value. -/
structure SameUnlessMasked (masked : List Bytes) (f g : Field) : Prop where
  name : f.name = g.name
  value : f.name ∉ masked → f.value = g.value

/-- The shown fields of both lists have the same names in the same order, and the same values where they
are not masked. -/
def ShowAlike (shown masked : List Bytes) (fields fields' : Fields) : Prop :=
  List.Forall₂ (SameUnlessMasked masked) (fields.filter (·.name ∈ shown)) (fields'.filter (·.name ∈ shown))

variable {shown masked : List Bytes} {fields fields' : Fields}

/-- A masked value is not written. -/
theorem formatField_congr {f g : Field} (h : SameUnlessMasked masked f g) (state : Bytes × Bool) :
    formatField shown masked state f = formatField shown masked state g := by
  obtain ⟨hname, hvalue⟩ := h
  unfold formatField
  rw [← hname]
  by_cases hmasked : f.name ∈ masked
  · simp only [if_pos hmasked]
  · rw [hvalue hmasked]

/-- A field that is not shown leaves the buffer and the flag as they are. -/
theorem foldl_formatField_filter (fields : Fields) (state : Bytes × Bool) :
    (fields.filter (·.name ∈ shown)).foldl (formatField shown masked) state
      = fields.foldl (formatField shown masked) state := by
  induction fields generalizing state with
  | nil => rfl
  | cons field fields ih =>
    by_cases hshown : field.name ∈ shown
    · rw [List.filter_cons_of_pos (by simpa using hshown), List.foldl_cons, List.foldl_cons, ih]
    · have hskip : formatField shown masked state field = state := if_neg hshown
      rw [List.filter_cons_of_neg (by simpa using hshown), List.foldl_cons, hskip, ih]

/-- Fields that show alike are formatted alike. -/
theorem formatFields_congr (h : ShowAlike shown masked fields fields') (buf : Bytes) :
    formatFields shown masked buf fields = formatFields shown masked buf fields' := by
  have hstep : ∀ ⦃state state' : Bytes × Bool⦄, state = state' → ∀ ⦃f g : Field⦄,
      SameUnlessMasked masked f g →
        formatField shown masked state f = formatField shown masked state' g := by
    rintro state _ rfl f g hfg
    exact formatField_congr hfg state
  rw [formatFields, formatFields, ← foldl_formatField_filter fields, ← foldl_formatField_filter fields']
  exact congrArg Prod.fst (List.rel_foldl hstep rfl h)

/-! ## Values that are not written -/

/-- The value of such a field is masked or not shown at all. -/
def IsSecret (shown masked : List Bytes) (name : Bytes) : Prop := name ∈ shown → name ∈ masked

instance (name : Bytes) : Decidable (IsSecret shown masked name) :=
  inferInstanceAs (Decidable (_ → _))

/-- The fields have one name and, unless it is secret, one value. -/
structure SameUnlessSecret (shown masked : List Bytes) (f g : Field) : Prop where
  name : f.name = g.name
  value : ¬ IsSecret shown masked f.name → f.value = g.value

/-- A field is the same as itself. -/
theorem SameUnlessSecret.refl (f : Field) : SameUnlessSecret shown masked f f := ⟨rfl, fun _ => rfl⟩

/-- Fields that are the same one by one, but for secrets, show alike. -/
theorem ShowAlike.of_forall₂ (h : List.Forall₂ (SameUnlessSecret shown masked) fields fields') :
    ShowAlike shown masked fields fields' := by
  unfold ShowAlike
  induction h with
  | nil => exact .nil
  | @cons f g fields fields' hfg _ ih =>
    by_cases hshown : f.name ∈ shown
    · have hshown' : g.name ∈ shown := by rwa [← hfg.name]
      rw [List.filter_cons_of_pos (by simpa using hshown),
        List.filter_cons_of_pos (by simpa using hshown')]
      refine .cons ⟨hfg.name, fun hmasked => ?_⟩ ih
      exact hfg.value fun hsecret => hmasked (hsecret hshown)
    · have hshown' : g.name ∉ shown := by rwa [← hfg.name]
      rwa [List.filter_cons_of_neg (by simpa using hshown),
        List.filter_cons_of_neg (by simpa using hshown')]

/-- Fields that are left out by their names are left out of both lists. -/
theorem ShowAlike.filter (h : ShowAlike shown masked fields fields') (p : Bytes → Bool) :
    ShowAlike shown masked (fields.filter fun f => p f.name) (fields'.filter fun f => p f.name) := by
  unfold ShowAlike
  rw [List.filter_comm, List.filter_comm (p := fun f : Field => decide (f.name ∈ shown))]
  refine List.rel_filter ?_ h
  intro f g hfg
  dsimp only
  rw [hfg.name]

/-- What shows alike may be followed by what shows alike. -/
theorem ShowAlike.append {more more' : Fields} (h : ShowAlike shown masked fields fields')
    (hmore : ShowAlike shown masked more more') : ShowAlike shown masked (fields ++ more) (fields' ++ more') := by
  unfold ShowAlike
  rw [List.filter_append, List.filter_append]
  exact List.rel_append h hmore

/-- Other values for the secret fields. -/
def Fields.conceal (shown masked : List Bytes) (value : Field → Bytes) (fields : Fields) : Fields :=
  fields.map fun f => if IsSecret shown masked f.name then { f with value := value f } else f

/-- Other values for the secrets change nothing else. -/
theorem Fields.forall₂_conceal (value : Field → Bytes) (fields : Fields) :
    List.Forall₂ (SameUnlessSecret shown masked) (fields.conceal shown masked value) fields := by
  rw [conceal, List.forall₂_map_left_iff]
  refine List.forall₂_same.mpr fun f _ => ?_
  split
  · rename_i hsecret
    exact ⟨rfl, fun hopen => absurd hsecret hopen⟩
  · exact .refl f

/-- Fields show alike whatever the secrets are. -/
theorem Fields.showAlike_conceal (value : Field → Bytes) (fields : Fields) :
    ShowAlike shown masked (fields.conceal shown masked value) fields :=
  .of_forall₂ (fields.forall₂_conceal value)

/-- A masked name is secret however it is capitalised, if no spelling of it is shown in the open. -/
theorem isSecret_of_iequals {hidden name : Bytes}
    (hhidden : ∀ other ∈ shown, iequals other hidden = true → other ∈ masked)
    (h : iequals name hidden = true) : IsSecret shown masked name :=
  fun hshown => hhidden name hshown h

/-! ## Messages -/

/-- The requests differ in nothing but fields that are not shown and masked values. -/
structure Request.LogsAlike (r s : Request Body) : Prop where
  methodString : r.methodString = s.methodString
  target : r.target = s.target
  version : r.version = s.version
  body : r.body = s.body
  fields : ShowAlike requestShown requestMasked r.fields s.fields

/-- The responses differ in nothing but fields that are not shown and masked values. -/
structure Response.LogsAlike (r s : Response) : Prop where
  version : r.version = s.version
  resultInt : r.resultInt = s.resultInt
  reason : r.reason = s.reason
  body : r.body = s.body
  fields : ShowAlike responseShown responseMasked r.fields s.fields

/-- The headers of requests that log alike are formatted alike. -/
theorem Request.LogsAlike.formatRequestHeaders {r s : Request Body} (h : r.LogsAlike s) :
    formatRequestHeaders (formatRequestLine [] r) r = formatRequestHeaders (formatRequestLine [] s) s := by
  unfold Http.formatRequestHeaders formatRequestLine
  rw [h.methodString, h.target, h.version, formatFields_congr h.fields]

/-- The messages that `fmt::formatter` is specialized for. -/
inductive Message
  | stringRequest (req : Request Bytes)
  | emptyRequest (req : Request Unit)
  | response (res : Response)

namespace Message

/-- `fmt::formatter::format`. -/
def format : Message → Bytes
  | stringRequest req => formatStringRequest req
  | emptyRequest req => formatEmptyRequest req
  | response res => formatResponse res

/-- Two messages of one kind that differ in nothing but fields that are not shown and masked values. -/
inductive LogsAlike : Message → Message → Prop
  | stringRequest {r s : Request Bytes} (h : r.LogsAlike s) : LogsAlike (.stringRequest r) (.stringRequest s)
  | emptyRequest {r s : Request Unit} (h : r.LogsAlike s) : LogsAlike (.emptyRequest r) (.emptyRequest s)
  | response {r s : Response} (h : r.LogsAlike s) : LogsAlike (.response r) (.response s)

/-- Other values for the secret fields. -/
def conceal (value : Field → Bytes) : Message → Message
  | stringRequest req =>
    .stringRequest { req with fields := req.fields.conceal requestShown requestMasked value }
  | emptyRequest req =>
    .emptyRequest { req with fields := req.fields.conceal requestShown requestMasked value }
  | response res => .response { res with fields := res.fields.conceal responseShown responseMasked value }

/-- Messages that log alike are formatted alike. -/
theorem LogsAlike.format_eq {m m' : Message} (h : m.LogsAlike m') : m.format = m'.format := by
  cases h with
  | stringRequest h =>
    show formatStringRequest _ = formatStringRequest _
    rw [formatStringRequest, formatStringRequest, h.formatRequestHeaders, h.body]
  | emptyRequest h =>
    show formatEmptyRequest _ = formatEmptyRequest _
    rw [formatEmptyRequest, formatEmptyRequest, h.formatRequestHeaders]
  | response h =>
    show formatResponse _ = formatResponse _
    unfold formatResponse
    rw [h.version, h.resultInt, h.reason, h.body]
    dsimp only
    rw [formatFields_congr h.fields]

/-- A message logs alike whatever its secrets are. -/
theorem logsAlike_conceal (value : Field → Bytes) (m : Message) : (m.conceal value).LogsAlike m := by
  cases m with
  | stringRequest req => exact .stringRequest ⟨rfl, rfl, rfl, rfl, req.fields.showAlike_conceal value⟩
  | emptyRequest req => exact .emptyRequest ⟨rfl, rfl, rfl, rfl, req.fields.showAlike_conceal value⟩
  | response res => exact .response ⟨rfl, rfl, rfl, rfl, res.fields.showAlike_conceal value⟩

/-- The text of a message is that of every message with the same fields shown, up to masked values. So no
value of a secret field gets into it, and `Authorization` and `Set-Cookie` are secret in any
capitalisation. -/
theorem format_hides_secrets :
    (∀ m m' : Message, m.LogsAlike m' → m.format = m'.format) ∧
      (∀ (m : Message) (value : Field → Bytes), (m.conceal value).format = m.format) ∧
      (∀ name, iequals name (bytes "Authorization") = true → IsSecret requestShown requestMasked name) ∧
      ∀ name, iequals name (bytes "Set-Cookie") = true → IsSecret responseShown responseMasked name :=
  ⟨fun _ _ h => h.format_eq, fun m value => (m.logsAlike_conceal value).format_eq,
    fun _ => isSecret_of_iequals (by decide), fun _ => isSecret_of_iequals (by decide)⟩

/-- A request with a token, an API key and a host. -/
def exampleRequest (token key : String) : Message :=
  .emptyRequest
    { methodString := bytes "GET"
      target := bytes "/v2/account"
      version := 11
      fields := [⟨bytes "Host", bytes "broker"⟩, ⟨bytes "Authorization", bytes token⟩,
        ⟨bytes "APCA-API-KEY-ID", bytes key⟩]
      body := () }

/-- Token and key do not show. -/
theorem format_hides_token : (exampleRequest "token" "key").format = (exampleRequest "other" "none").format := by
  have hshown : ∀ token key : Bytes,
      [⟨bytes "Host", bytes "broker"⟩, ⟨bytes "Authorization", token⟩, ⟨bytes "APCA-API-KEY-ID", key⟩].filter
          (fun f : Field => decide (f.name ∈ requestShown))
        = [⟨bytes "Host", bytes "broker"⟩, ⟨bytes "Authorization", token⟩] := fun _ _ => rfl
  refine format_hides_secrets.1 _ _ (.emptyRequest ⟨rfl, rfl, rfl, rfl, ?_⟩)
  rw [ShowAlike, hshown, hshown]
  exact .cons ⟨rfl, fun _ => rfl⟩ (.cons ⟨rfl, fun h => absurd (by decide) h⟩ .nil)

end Message

end MacdTradingBot.Http
