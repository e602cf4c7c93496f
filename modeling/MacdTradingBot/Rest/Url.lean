import Mathlib.Data.Nat.Notation
import Mathlib.Logic.Basic

/-!
# URLs and error codes of the REST client

`async_rest_client/utils.cpp`. The URL library is a parameter: `BoostUrl` has its two functions that the
client calls on texts, and `BoostUrl.Lawful` is what the client relies on.
-/

namespace MacdTradingBot

/-- `boost::system::error_code`, as far as the client or its callers tell them apart. `io` is any other
error of an asynchronous operation. -/
inductive ErrorCode
  | operationInProgress
  | protocolNotSupported
  | invalidUrl
  | sslHostName
  | streamTruncated
  | timeout
  | io (value : ℕ)
deriving DecidableEq, Repr

/-- The components of a `boost::url` that the client uses; the target is path and query. -/
structure Url where
  scheme : String
  userinfo : Option String := none
  host : String
  port : Option String := none
  target : String := ""
deriving DecidableEq, Repr

/-- The URL up to its authority. -/
def Url.origin (url : Url) : Url := { url with target := "" }

/-- The functions of the URL library: the constructor, which throws on a text that is no URL, and
`encoded_origin`. -/
structure BoostUrl where
  parse : String → Option Url
  encodedOrigin : Url → String

namespace BoostUrl

variable (B : BoostUrl)

/-- `encoded_origin` of a URL that may have been cleared. -/
def originText : Option Url → String
  | none => ""
  | some url => B.encodedOrigin url

/-- `make_http_https_url`. -/
def makeHttpHttpsUrl (url_sv : String) : Except ErrorCode Url :=
  match B.parse url_sv with
  | none => .error .invalidUrl
  | some url =>
    if url.scheme ≠ "https" ∧ url.scheme ≠ "http" then
      .error .protocolNotSupported
    else if url.port.isNone then
      .ok { url with port := some (if url.scheme = "https" then "443" else "80") }
    else
      .ok url

/-- The URLs that `make_http_https_url` returns. -/
def Normal (url : Url) : Prop := ∃ url_sv, B.makeHttpHttpsUrl url_sv = .ok url

/-- `encoded_origin` is the scheme and the authority of a URL: read again, it is the URL without its
target. -/
structure Lawful : Prop where
  parse_encodedOrigin : ∀ url, B.Normal url → B.parse (B.encodedOrigin url) = some url.origin

variable {B}

/-- A normal URL has one of the two schemes, and a port. -/
theorem Normal.scheme_port {url : Url} (h : B.Normal url) :
    (url.scheme = "https" ∨ url.scheme = "http") ∧ url.port.isSome := by
  obtain ⟨url_sv, h⟩ := h
  unfold makeHttpHttpsUrl at h
  split at h
  · cases h
  · rename_i parsed _
    split at h
    · cases h
    · rename_i hscheme
      have hscheme' : parsed.scheme = "https" ∨ parsed.scheme = "http" := by
        by_cases hs : parsed.scheme = "https"
        · exact Or.inl hs
        · exact Or.inr (not_not.mp fun hne => hscheme ⟨hs, hne⟩)
      split at h
      · cases h
        exact ⟨hscheme', rfl⟩
      · rename_i hport
        cases h
        exact ⟨hscheme', by simpa [Option.isSome_iff_ne_none] using hport⟩

/-- A URL with one of the two schemes and a port is returned as it was parsed. -/
theorem makeHttpHttpsUrl_of_parse {url_sv : String} {url : Url} (hparse : B.parse url_sv = some url)
    (hscheme : url.scheme = "https" ∨ url.scheme = "http") (hport : url.port.isSome) :
    B.makeHttpHttpsUrl url_sv = .ok url := by
  have hscheme' : ¬ (url.scheme ≠ "https" ∧ url.scheme ≠ "http") := by
    rintro ⟨h1, h2⟩
    exact hscheme.elim h1 h2
  have hport' : ¬ url.port.isNone = true := by
    rw [Option.isNone_iff_eq_none]
    exact Option.isSome_iff_ne_none.mp hport
  simp only [makeHttpHttpsUrl, hparse]
  rw [if_neg hscheme', if_neg hport']

/-- Connecting to the origin of a normal URL never fails on its text. -/
theorem makeHttpHttpsUrl_encodedOrigin (hB : B.Lawful) {url : Url} (h : B.Normal url) :
    B.makeHttpHttpsUrl (B.encodedOrigin url) = .ok url.origin := by
  obtain ⟨hscheme, hport⟩ := h.scheme_port
  exact makeHttpHttpsUrl_of_parse (hB.parse_encodedOrigin url h) hscheme hport

/-- Normal URLs with one origin text have one origin. -/
theorem origin_eq_of_encodedOrigin_eq (hB : B.Lawful) {u v : Url} (hu : B.Normal u)
    (hv : B.Normal v) (h : B.encodedOrigin u = B.encodedOrigin v) : u.origin = v.origin := by
  have hparse := hB.parse_encodedOrigin u hu
  rw [h, hB.parse_encodedOrigin v hv] at hparse
  exact (Option.some.inj hparse).symm

end BoostUrl

/-! ## A table of URLs -/

/-- The text of scheme and authority. -/
def Url.originText (url : Url) : String :=
  url.scheme ++ "://" ++ (url.userinfo.map (· ++ "@")).getD "" ++ url.host ++
    (url.port.map (":" ++ ·)).getD ""

/-- The URL library on the texts of a table. -/
def BoostUrl.ofTable (table : List (String × Url)) : BoostUrl where
  parse url_sv := table.lookup url_sv
  encodedOrigin := Url.originText

/-- A table is lawful when it has the origin of each of its URLs. -/
theorem BoostUrl.lawful_ofTable {table : List (String × Url)}
    (h : ∀ e ∈ table, ∀ url ∈ ((ofTable table).makeHttpHttpsUrl e.1).toOption,
      table.lookup url.originText = some url.origin) : (ofTable table).Lawful := by
  constructor
  rintro url ⟨url_sv, hurl⟩
  have hparse : ∃ parsed, table.lookup url_sv = some parsed := by
    rw [← Option.isSome_iff_exists, Option.isSome_iff_ne_none]
    intro hnone
    have hB : (ofTable table).parse url_sv = none := hnone
    rw [makeHttpHttpsUrl, hB] at hurl
    cases hurl
  obtain ⟨parsed, hparsed⟩ := hparse
  obtain ⟨l₁, l₂, rfl, -⟩ := List.lookup_eq_some_iff.mp hparsed
  refine h (url_sv, parsed) (by simp) url ?_
  rw [hurl]
  rfl

/-- An https URL and an http URL, and their origins. -/
def exampleUrls : BoostUrl :=
  .ofTable
    [("https://broker/orders", { scheme := "https", host := "broker", target := "/orders" }),
      ("https://broker:443", { scheme := "https", host := "broker", port := some "443" }),
      ("http://data/bars", { scheme := "http", host := "data", target := "/bars" }),
      ("http://data:80", { scheme := "http", host := "data", port := some "80" })]

theorem exampleUrls_lawful : exampleUrls.Lawful := by
  apply BoostUrl.lawful_ofTable
  decide +kernel

end MacdTradingBot
