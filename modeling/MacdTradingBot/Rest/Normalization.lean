import MacdTradingBot.Lib.Uri
import MacdTradingBot.Rest.Url

/-!
# Normal URLs

`make_http_https_url` over the grammar of URLs. Of the URL library, which is a parameter, it relies on what
is documented: the constructor accepts the URI references, and `set_port` sets the port of one.
`normalises_iff` says for which texts the result is normal, and `boostUrl_lawful` that the client, which
works with the components of a URL, may assume what it does (`BoostUrl.Lawful`).
-/

namespace MacdTradingBot

/-- The functions of the URL library that are called. -/
structure UrlLibrary where
  parse : List Char → Option Uri.Reference
  setPort : List Char → Uri.Reference → Uri.Reference

/-- `encoded_origin`, which is empty without an authority. -/
def encodedOrigin (url : Uri.Reference) : List Char :=
  if url.authority.isSome then url.origin.text else []

def http : List Char := "http".toList

def https : List Char := "https".toList

/-- The port of the scheme. -/
def defaultPort (url : Uri.Reference) : List Char :=
  if url.scheme = some https then "443".toList else "80".toList

/-- The scheme is one of the two. -/
def IsWeb (url : Uri.Reference) : Prop := url.scheme = some https ∨ url.scheme = some http

instance (url : Uri.Reference) : Decidable (IsWeb url) := inferInstanceAs (Decidable (_ ∨ _))

namespace UrlLibrary

/-- `make_http_https_url`. -/
def makeHttpHttpsUrl (L : UrlLibrary) (url_sv : List Char) : Except ErrorCode Uri.Reference :=
  match L.parse url_sv with
  | none => .error .invalidUrl
  | some url =>
    if url.scheme ≠ some https ∧ url.scheme ≠ some http then .error .protocolNotSupported
    else if url.port.isNone then .ok (L.setPort (defaultPort url) url)
    else .ok url

/-- The constructor accepts the URI references of the grammar; `set_port` gives a well-formed URL another
port, and leaves what stands before it. -/
structure Lawful (G : Uri.Grammar) (L : UrlLibrary) : Prop where
  parse_iff : ∀ s url, L.parse s = some url ↔ url.WellFormed G ∧ url.text = s
  wellFormed : ∀ url digits, url.WellFormed G → digits.all Char.isDigit = true →
    (L.setPort digits url).WellFormed G
  scheme : ∀ url digits, (L.setPort digits url).scheme = url.scheme
  userinfo : ∀ url digits, (L.setPort digits url).userinfo = url.userinfo
  host : ∀ url digits, (L.setPort digits url).host = url.host
  port : ∀ url digits, (L.setPort digits url).port = some digits

/-- What is asked of the result for a text: a scheme of the two, the port that is written or else the one of
the scheme, and that the result and its origin are read as the same again. -/
structure Normalises (L : UrlLibrary) (url_sv : List Char) (url : Uri.Reference) : Prop where
  web : IsWeb url
  port : ∃ port, url.port = some port ∧ port ≠ []
  written : ∀ parsed port, L.parse url_sv = some parsed → parsed.port = some port → port ≠ [] →
    url.port = some port
  unwritten : (∀ parsed port, L.parse url_sv = some parsed → parsed.port = some port → port = []) →
    url.port = some (defaultPort url)
  again : ∀ text ∈ [url.text, encodedOrigin url], ∃ url', L.makeHttpHttpsUrl text = .ok url' ∧
    url'.scheme = url.scheme ∧ url'.host = url.host ∧ url'.port = url.port

variable {L : UrlLibrary} {G : Uri.Grammar} {url_sv : List Char} {url : Uri.Reference}

/-! ## The result -/

theorem isDigit_defaultPort (url : Uri.Reference) : (defaultPort url).all Char.isDigit = true := by
  unfold defaultPort
  split <;> decide

theorem defaultPort_ne_nil (url : Uri.Reference) : defaultPort url ≠ [] := by
  unfold defaultPort
  split <;> decide

/-- The texts that are accepted, and what becomes of them. -/
theorem makeHttpHttpsUrl_eq_ok_iff : L.makeHttpHttpsUrl url_sv = .ok url ↔
    ∃ parsed, L.parse url_sv = some parsed ∧ IsWeb parsed ∧
      url = if parsed.port.isNone then L.setPort (defaultPort parsed) parsed else parsed := by
  unfold makeHttpHttpsUrl
  cases L.parse url_sv with
  | none => simp
  | some parsed =>
    dsimp only
    by_cases hweb : IsWeb parsed
    · have hscheme : ¬ (parsed.scheme ≠ some https ∧ parsed.scheme ≠ some http) := by
        rintro ⟨hhttps, hhttp⟩
        exact hweb.elim hhttps hhttp
      rw [if_neg hscheme, ← apply_ite Except.ok, Except.ok.injEq]
      constructor
      · rintro rfl
        exact ⟨parsed, rfl, hweb, rfl⟩
      · rintro ⟨_, hparsed, -, rfl⟩
        cases hparsed
        rfl
    · have hscheme : parsed.scheme ≠ some https ∧ parsed.scheme ≠ some http := not_or.mp hweb
      rw [if_pos hscheme]
      simp [hweb]

/-- A URL that has a scheme of the two and a port is returned as it is. -/
theorem makeHttpHttpsUrl_of_port (hparse : L.parse url_sv = some url) (hweb : IsWeb url)
    (hport : url.port.isSome = true) : L.makeHttpHttpsUrl url_sv = .ok url := by
  refine makeHttpHttpsUrl_eq_ok_iff.mpr ⟨url, hparse, hweb, ?_⟩
  rw [if_neg (by simpa using Option.isSome_iff_ne_none.mp hport)]

/-- The result is a well-formed URL with a scheme of the two and a port. -/
structure IsNormal (G : Uri.Grammar) (url : Uri.Reference) : Prop where
  wellFormed : url.WellFormed G
  web : IsWeb url
  port : url.port.isSome = true

theorem isNormal_of_makeHttpHttpsUrl (hL : L.Lawful G) (h : L.makeHttpHttpsUrl url_sv = .ok url) :
    IsNormal G url := by
  obtain ⟨parsed, hparse, hweb, rfl⟩ := makeHttpHttpsUrl_eq_ok_iff.mp h
  have hwell := ((hL.parse_iff _ _).mp hparse).1
  split
  · refine ⟨hL.wellFormed _ _ hwell (isDigit_defaultPort parsed), ?_, ?_⟩
    · rw [IsWeb, hL.scheme]
      exact hweb
    · rw [hL.port]
      rfl
  · rename_i hport
    exact ⟨hwell, hweb, by simpa [Option.isSome_iff_ne_none] using hport⟩

/-- Neither the text of a normal URL nor its origin is changed. -/
theorem IsNormal.again (hL : L.Lawful G) (h : IsNormal G url) :
    L.makeHttpHttpsUrl url.text = .ok url ∧ L.makeHttpHttpsUrl (encodedOrigin url) = .ok url.origin := by
  have hauthority := Uri.Reference.isSome_authority_of_port h.port
  have htext := (hL.parse_iff _ _).mpr ⟨h.wellFormed, rfl⟩
  have horigin := (hL.parse_iff _ _).mpr ⟨h.wellFormed.origin hauthority, rfl⟩
  rw [encodedOrigin, if_pos hauthority]
  exact ⟨makeHttpHttpsUrl_of_port htext h.web h.port, makeHttpHttpsUrl_of_port horigin h.web h.port⟩

/-- For every text: the result is as it should be, if there is one, exactly when no colon without a port
follows the host of an http or https URL. -/
theorem normalises_iff (hL : L.Lawful G) (url_sv : List Char) :
    (∀ url, L.makeHttpHttpsUrl url_sv = .ok url → L.Normalises url_sv url) ↔
      ∀ parsed, L.parse url_sv = some parsed → IsWeb parsed → parsed.port ≠ some [] := by
  constructor
  · intro h parsed hparse hweb hempty
    have hmake := makeHttpHttpsUrl_of_port hparse hweb (by rw [hempty]; rfl)
    obtain ⟨port, hport, hne⟩ := (h parsed hmake).port
    rw [hempty, Option.some.injEq] at hport
    exact hne hport.symm
  · intro h url hmake
    have hnormal := isNormal_of_makeHttpHttpsUrl hL hmake
    obtain ⟨hagain, horigin⟩ := hnormal.again hL
    obtain ⟨parsed, hparse, hweb, hurl⟩ := makeHttpHttpsUrl_eq_ok_iff.mp hmake
    have hparsed : ∀ other, L.parse url_sv = some other → other = parsed := by
      intro other hother
      rw [hparse] at hother
      exact (Option.some.inj hother).symm
    refine ⟨hnormal.web, ?_, ?_, ?_, ?_⟩
    · obtain ⟨port, hport⟩ := Option.isSome_iff_exists.mp hnormal.port
      refine ⟨port, hport, ?_⟩
      rintro rfl
      split at hurl
      · rw [hurl, hL.port, Option.some.injEq] at hport
        exact defaultPort_ne_nil parsed hport
      · rw [hurl] at hport
        exact h parsed hparse hweb hport
    · intro other port hother hport _
      rw [hparsed other hother] at hport
      rw [if_neg (by simp [hport])] at hurl
      rw [hurl, hport]
    · intro hunwritten
      cases hport : parsed.port with
      | some port =>
        rw [hunwritten parsed port hparse hport] at hport
        exact absurd hport (h parsed hparse hweb)
      | none =>
        rw [if_pos (by simp [hport])] at hurl
        rw [hurl, hL.port, defaultPort, defaultPort, hL.scheme]
    · rw [List.forall_mem_cons, List.forall_mem_singleton]
      exact ⟨⟨url, hagain, rfl, rfl, rfl⟩, url.origin, horigin, rfl, rfl, rfl⟩

/-! ## The components that the client works with -/

end UrlLibrary

/-- The components, as texts of their own. -/
def Url.ofReference (url : Uri.Reference) : Url where
  scheme := String.ofList (url.scheme.getD [])
  userinfo := url.userinfo.map String.ofList
  host := String.ofList url.host
  port := url.port.map String.ofList
  target := String.ofList (url.path ++ Uri.after '?' url.query)

/-- The origin of a URL is written as the library writes it. -/
theorem Url.toList_originText_ofReference {url : Uri.Reference} (hscheme : url.scheme.isSome = true)
    (hauthority : url.authority.isSome = true) :
    (Url.ofReference url).originText.toList = url.origin.text := by
  obtain ⟨scheme, hs⟩ := Option.isSome_iff_exists.mp hscheme
  obtain ⟨⟨userinfo, host, port⟩, ha⟩ := Option.isSome_iff_exists.mp hauthority
  have hslashes : "://".toList = [':', '/', '/'] := rfl
  have hat : "@".toList = ['@'] := rfl
  have hcolon : ":".toList = [':'] := rfl
  cases userinfo <;> cases port <;>
    simp [Url.originText, Url.ofReference, Uri.Reference.origin, Uri.Reference.text, Uri.Reference.userinfo,
      Uri.Reference.host, Uri.Reference.port, Uri.authorityText, Uri.Authority.text, Uri.before, Uri.after,
      hs, ha, hslashes, hat, hcolon]

namespace UrlLibrary

variable {L : UrlLibrary} {G : Uri.Grammar} {url : Uri.Reference}

/-- The library, as the client sees it. -/
def boostUrl (L : UrlLibrary) : BoostUrl where
  parse url_sv := (L.parse url_sv.toList).map Url.ofReference
  encodedOrigin := Url.originText

theorem scheme_ofReference_eq_iff {text : List Char} (htext : text ≠ []) :
    (Url.ofReference url).scheme = String.ofList text ↔ url.scheme = some text := by
  rw [Url.ofReference, String.ofList_inj]
  cases url.scheme with
  | none => simp [htext.symm]
  | some scheme => simp

theorem scheme_eq_https_iff : (Url.ofReference url).scheme = "https" ↔ url.scheme = some https :=
  @scheme_ofReference_eq_iff url https (by decide)

theorem scheme_eq_http_iff : (Url.ofReference url).scheme = "http" ↔ url.scheme = some http :=
  @scheme_ofReference_eq_iff url http (by decide)

/-- Up to the target the client's URL is the one of the grammar. -/
theorem boostUrl_makeHttpHttpsUrl (hL : L.Lawful G) (url_sv : String) :
    (L.boostUrl.makeHttpHttpsUrl url_sv).map Url.origin
      = (L.makeHttpHttpsUrl url_sv.toList).map fun url => (Url.ofReference url).origin := by
  have hparse : L.boostUrl.parse url_sv = (L.parse url_sv.toList).map Url.ofReference := rfl
  unfold BoostUrl.makeHttpHttpsUrl makeHttpHttpsUrl
  rw [hparse]
  cases L.parse url_sv.toList with
  | none => rfl
  | some parsed =>
    have hport : (Url.ofReference parsed).port.isNone = parsed.port.isNone := Option.isNone_map
    have hdefault : (if parsed.scheme = some https then "443" else "80")
        = String.ofList (defaultPort parsed) := by
      unfold defaultPort
      split <;> rfl
    dsimp only [Option.map_some]
    simp only [ne_eq, scheme_eq_https_iff, scheme_eq_http_iff, hport, hdefault]
    split
    · rfl
    split
    · simp [Except.map, Url.origin, Url.ofReference, hL.scheme, hL.userinfo, hL.host, hL.port]
    · rfl

/-- What the client assumes of URLs holds of the library. -/
theorem boostUrl_lawful (hL : L.Lawful G) : L.boostUrl.Lawful where
  parse_encodedOrigin := by
    rintro url ⟨url_sv, hurl⟩
    have hsame := boostUrl_makeHttpHttpsUrl hL url_sv
    rw [hurl] at hsame
    cases hmake : L.makeHttpHttpsUrl url_sv.toList with
    | error ec =>
      rw [hmake] at hsame
      cases hsame
    | ok reference =>
      rw [hmake] at hsame
      have horigin : url.origin = (Url.ofReference reference).origin := Except.ok.inj hsame
      have hnormal := isNormal_of_makeHttpHttpsUrl hL hmake
      have hauthority := Uri.Reference.isSome_authority_of_port hnormal.port
      have hscheme : reference.scheme.isSome = true := by
        rcases hnormal.web with h | h <;> rw [h] <;> rfl
      have htext : (L.boostUrl.encodedOrigin url).toList = reference.origin.text := by
        show url.origin.originText.toList = _
        rw [horigin]
        exact Url.toList_originText_ofReference hscheme hauthority
      show (L.parse (L.boostUrl.encodedOrigin url).toList).map Url.ofReference = some url.origin
      rw [htext, (hL.parse_iff _ _).mpr ⟨hnormal.wellFormed.origin hauthority, rfl⟩, horigin]
      rfl

/-! ## A library of its own -/

/-- The grammar itself, as a library. -/
def ofGrammar (G : Uri.Grammar) : UrlLibrary where
  parse := Uri.parse G
  setPort := Uri.Reference.setPort

theorem lawful_ofGrammar (G : Uri.Grammar) : (ofGrammar G).Lawful G where
  parse_iff _ _ := Uri.parse_eq_some_iff
  wellFormed _ _ hwell hdigits := hwell.setPort hdigits
  scheme _ _ := rfl
  userinfo url _ := by
    cases ha : url.authority <;> simp [ofGrammar, Uri.Reference.setPort, Uri.Reference.userinfo, ha]
  host url _ := by
    cases ha : url.authority <;> simp [ofGrammar, Uri.Reference.setPort, Uri.Reference.host, ha]
  port _ _ := rfl

/-- A port is written. -/
theorem normalises_written :
    ∃ url, (ofGrammar .rfc3986).makeHttpHttpsUrl "http://[::1]:8080/bars?limit=5".toList = .ok url ∧
      (ofGrammar .rfc3986).Normalises "http://[::1]:8080/bars?limit=5".toList url := by
  have hread : (ofGrammar .rfc3986).parse "http://[::1]:8080/bars?limit=5".toList
      = some ⟨some http, some ⟨none, "[::1]".toList, some "8080".toList⟩, "/bars".toList,
        some "limit=5".toList, none⟩ := by
    decide +kernel
  have hmake := makeHttpHttpsUrl_of_port hread (by decide) rfl
  refine ⟨_, hmake, (normalises_iff (lawful_ofGrammar .rfc3986) _).mpr ?_ _ hmake⟩
  intro parsed hparse _
  rw [hread] at hparse
  cases hparse
  decide

/-- A colon without a port. -/
theorem empty_port_accepted :
    ∃ url, (ofGrammar .rfc3986).makeHttpHttpsUrl "http://example.com:".toList = .ok url ∧
      url.port = some [] ∧ ¬ (ofGrammar .rfc3986).Normalises "http://example.com:".toList url := by
  refine ⟨⟨some http, some ⟨none, "example.com".toList, some []⟩, [], none, none⟩, by decide +kernel,
    rfl, ?_⟩
  rintro ⟨-, ⟨port, hport, hne⟩, -⟩
  exact hne (Option.some.inj hport).symm

end UrlLibrary

end MacdTradingBot
